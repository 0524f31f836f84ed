import CeresMpc.Interleaving.System

/-!
# Records of runs

What is seen of the moves of a run, and what its threads have done, in the order of
time. When calls of one kind are made one after another, time order is call order:
what they have done together is what each has done, call after call.
-/

set_option autoImplicit false

namespace CeresMpc.Interleaving

/-! ## Call order -/

section Order

variable {Item : Type} {first second : Nat → List Item}

/-- Appending to the last thread that has anything appends to the whole. -/
theorem flatMap_range_extend {count thread : Nat} {more : List Item} (bound : thread < count)
    (same : ∀ other, other ≠ thread → second other = first other) (own : second thread = first thread ++ more)
    (last : ∀ other, thread < other → first other = []) :
    (List.range count).flatMap second = (List.range count).flatMap first ++ more := by
  induction count with
  | zero => omega
  | succ count ih =>
      simp only [List.range_succ, List.flatMap_append, List.flatMap_cons, List.flatMap_nil, List.append_nil]
      rcases Nat.lt_or_ge thread count with before | after
      · rw [ih before, same count (by omega), last count before, List.append_nil, List.append_nil]
      · obtain rfl : thread = count := by omega
        have earlier : (List.range thread).flatMap second = (List.range thread).flatMap first :=
          List.flatMap_congr fun other member => same other (Nat.ne_of_lt (List.mem_range.mp member))
        rw [earlier, own, List.append_assoc]

/-- Nothing follows the first thread that has not got all of its own. -/
theorem flatMap_range_prefix {count : Nat} (part : ∀ thread, thread < count → first thread <+: second thread)
    (stops : ∀ thread other, thread < other → other < count → first thread ≠ second thread → first other = []) :
    (List.range count).flatMap first <+: (List.range count).flatMap second := by
  induction count with
  | zero => exact List.prefix_rfl
  | succ count ih =>
      simp only [List.range_succ, List.flatMap_append, List.flatMap_cons, List.flatMap_nil, List.append_nil]
      by_cases whole : ∀ thread, thread < count → first thread = second thread
      · have earlier : (List.range count).flatMap first = (List.range count).flatMap second :=
          List.flatMap_congr fun thread member => whole thread (List.mem_range.mp member)
        rw [earlier]
        exact (List.prefix_append_right_inj _).mpr (part count (Nat.lt_succ_self _))
      · push Not at whole
        obtain ⟨thread, before, short⟩ := whole
        rw [stops thread count before (Nat.lt_succ_self _) short, List.append_nil]
        have shorter := ih (fun other bound => part other (by omega)) fun other later order bound =>
          stops other later order (by omega)
        exact shorter.trans (List.prefix_append _ _)

/-- Of two items of an ordered list one comes before the other. -/
theorem pairwise_either {Related : Item → Item → Prop} {items : List Item} (ordered : items.Pairwise Related)
    {one other : Item} (member : one ∈ items) (also : other ∈ items) (different : one ≠ other) :
    Related one other ∨ Related other one := by
  induction ordered with
  | nil => cases member
  | cons before _ ih =>
      rcases List.mem_cons.mp member with rfl | later
      · rcases List.mem_cons.mp also with rfl | after
        · exact absurd rfl different
        · exact .inl (before other after)
      · rcases List.mem_cons.mp also with rfl | after
        · exact .inr (before one later)
        · exact ih later after

theorem flatMap_filter_eq {Item Result : Type} (keep : Item → Bool) (expand : Item → List Result) (items : List Item) :
    (items.filter keep).flatMap expand = items.flatMap fun item => if keep item then expand item else [] := by
  induction items with
  | nil => rfl
  | cons item rest ih =>
      by_cases kept : keep item <;> simp [kept, ih]

end Order

variable {Action : Type} {Answer : Action → Type} {Failure Result State Call Drift Item : Type}

/-! ## What operations yield -/

/-- What the operations of a list yield; the list has the newest first, the yield the oldest. -/
def yields (yield : Entry Action Answer → List Item) (entries : List (Entry Action Answer)) : List Item :=
  entries.reverse.flatMap yield

variable {yield : Entry Action Answer → List Item}

@[simp] theorem yields_nil : yields yield [] = [] := rfl

@[simp] theorem yields_cons (entry : Entry Action Answer) (earlier : List (Entry Action Answer)) :
    yields yield (entry :: earlier) = yields yield earlier ++ yield entry := by
  simp [yields]

theorem yields_append (later earlier : List (Entry Action Answer)) :
    yields yield (later ++ earlier) = yields yield earlier ++ yields yield later := by
  simp [yields]

theorem yields_eq_nil {entries : List (Entry Action Answer)} (none : ∀ entry ∈ entries, yield entry = []) :
    yields yield entries = [] := by
  rw [yields, List.flatMap_eq_nil_iff]
  exact fun entry member => none entry (List.mem_reverse.mp member)

/-- What a run yields, thread by thread. -/
theorem yields_by_thread {trace : List (Nat × Entry Action Answer)} {count : Nat}
    (bound : ∀ event ∈ trace, event.1 < count)
    (sorted : trace.Pairwise fun newer older => yield newer.2 ≠ [] → yield older.2 ≠ [] → older.1 ≤ newer.1) :
    yields yield (trace.map Prod.snd) = (List.range count).flatMap fun thread => yields yield (past thread trace) := by
  induction trace with
  | nil => simp
  | cons event earlier ih =>
      obtain ⟨thread, entry⟩ := event
      obtain ⟨newest, ordered⟩ := List.pairwise_cons.mp sorted
      have before := ih (fun event member => bound event (List.mem_cons_of_mem _ member)) ordered
      rw [List.map_cons, yields_cons, before]
      by_cases idle : yield entry = []
      · rw [idle, List.append_nil]
        apply List.flatMap_congr
        intro other _
        by_cases own : thread = other
        · subst own
          rw [past_cons_self, yields_cons, idle, List.append_nil]
        · rw [past_cons_of_ne own]
      · refine (flatMap_range_extend (bound _ List.mem_cons_self) ?_ ?_ ?_).symm
        · intro other different
          rw [past_cons_of_ne different.symm]
        · rw [past_cons_self, yields_cons]
        · intro other beyond
          apply yields_eq_nil
          intro done member
          by_contra yielded
          have order := newest (other, done) (mem_past.mp member) idle yielded
          exact absurd order (Nat.not_le_of_lt beyond)

/-! ## Calls of one kind, one after another -/

/-- A call of the kind is only made when the earlier ones have returned. -/
def StartsAlone (kind : Call → Prop) (world : World Action Answer Failure Result State Call) :
    Move Call Drift → Prop
  | .start call => kind call → ∀ thread other, world.Called thread other → kind other → world.nextAction thread = none
  | .run _ | .drift _ => True

namespace Machine

variable {machine : Machine Action Answer Failure Result State Call Drift} {kind : Call → Prop} {origin : State}
  {Allowed : World Action Answer Failure Result State Call → Move Call Drift → Prop}
  {world : World Action Answer Failure Result State Call}

private theorem called_started {started owner : Call} {thread : Nat} {program : Program Action Answer Failure Result} :
    (World.mk world.shared (world.threads ++ [(started, program)]) world.trace).Called thread owner ↔
      world.Called thread owner ∨ thread = world.threads.length ∧ owner = started :=
  World.called_start rfl

private theorem called_replied {call owner : Call} {runner thread : Nat} {state : State}
    {program later : Program Action Answer Failure Result} {trace : List (Nat × Entry Action Answer)}
    (found : world.threads[runner]? = some (call, program)) :
    (World.mk state (world.threads.set runner (call, later)) trace).Called thread owner ↔ world.Called thread owner :=
  World.called_set found rfl

/-- Only the last call of the kind can be running. -/
theorem Reaches.last_of_kind (alone : ∀ world move, Allowed world move → StartsAlone kind world move)
    (reaches : machine.Reaches Allowed (.initial origin) world) :
    ∀ thread call other owner, world.Called thread call → kind call → world.nextAction thread ≠ none →
      world.Called other owner → kind owner → other ≤ thread := by
  refine reaches.invariant (fun world => ∀ thread call other owner, world.Called thread call → kind call →
    world.nextAction thread ≠ none → world.Called other owner → kind owner → other ≤ thread) ?_ ?_ ?_ ?_ ?_
  · intro thread call other owner _ _ active
    exact absurd rfl active
  · intro world started _ last allowed thread call other owner called ofKind active calledOther otherOfKind
    rcases called_started.mp calledOther with old | ⟨rfl, rfl⟩
    · rcases called_started.mp called with before | ⟨rfl, _⟩
      · have bound := (List.getElem?_eq_some_iff.mp before.choose_spec).1
        refine last thread call other owner before ofKind ?_ old otherOfKind
        simpa [World.nextAction, List.getElem?_append_left bound] using active
      · exact Nat.le_of_lt (List.getElem?_eq_some_iff.mp old.choose_spec).1
    · rcases called_started.mp called with before | ⟨rfl, _⟩
      · have bound := (List.getElem?_eq_some_iff.mp before.choose_spec).1
        have idle := alone world _ allowed otherOfKind thread call before ofKind
        simp [World.nextAction, List.getElem?_append_left bound] at active idle
        exact absurd idle active
      · exact Nat.le_refl _
  · intro world runner running action next state answer _ last _ found _ thread call other owner called ofKind active
      calledOther otherOfKind
    refine last thread call other owner ((called_replied found).mp called) ofKind ?_
      ((called_replied found).mp calledOther) otherOfKind
    by_cases same : runner = thread
    · subst same
      simp [World.nextAction, found]
    · simpa [World.nextAction, List.getElem?_set_ne same] using active
  · intro world thread call action next state _ last _ _ _
    exact last
  · intro world change _ last _
    exact last

/-- Their operations stand in the order of the calls. -/
theorem Reaches.sorted_of_kind (alone : ∀ world move, Allowed world move → StartsAlone kind world move)
    (reaches : machine.Reaches Allowed (.initial origin) world) :
    world.trace.Pairwise fun newer older => ∀ call owner, world.Called newer.1 call → kind call →
      world.Called older.1 owner → kind owner → older.1 ≤ newer.1 := by
  refine reaches.invariant (fun world => world.trace.Pairwise fun newer older => ∀ call owner,
    world.Called newer.1 call → kind call → world.Called older.1 owner → kind owner → older.1 ≤ newer.1) ?_ ?_ ?_ ?_ ?_
  · exact List.Pairwise.nil
  · intro world started reached sorted _
    refine sorted.imp_of_mem ?_
    intro newer older newMember oldMember ordered call owner called ofKind calledOlder olderOfKind
    have bound := reached.trace_lt newer newMember
    have olderBound := reached.trace_lt older oldMember
    rcases called_started.mp called with before | ⟨same, _⟩
    · rcases called_started.mp calledOlder with olderBefore | ⟨olderSame, _⟩
      · exact ordered call owner before ofKind olderBefore olderOfKind
      · omega
    · omega
  · intro world runner running action next state answer reached sorted _ found _
    refine List.pairwise_cons.mpr ⟨?_, ?_⟩
    · intro older member call owner called ofKind calledOlder olderOfKind
      refine reached.last_of_kind alone runner call older.1 owner ((called_replied found).mp called) ofKind ?_
        ((called_replied found).mp calledOlder) olderOfKind
      simp [World.nextAction, found]
    · refine sorted.imp ?_
      intro newer older ordered call owner called ofKind calledOlder olderOfKind
      exact ordered call owner ((called_replied found).mp called) ofKind ((called_replied found).mp calledOlder) olderOfKind
  · intro world thread call action next state _ sorted _ _ _
    exact sorted
  · intro world change _ sorted _
    exact sorted

/-! ## What is seen of a run -/

/-- Runs with what is seen of each move, oldest first. -/
inductive Records (machine : Machine Action Answer Failure Result State Call Drift)
    (see : World Action Answer Failure Result State Call → Move Call Drift → List Item)
    (Allowed : World Action Answer Failure Result State Call → Move Call Drift → Prop)
    (origin : World Action Answer Failure Result State Call) :
    World Action Answer Failure Result State Call → List Item → Prop where
  | refl : Records machine see Allowed origin origin []
  | step {world seen} (move : Move Call Drift) : Records machine see Allowed origin world seen →
      Allowed world move → Records machine see Allowed origin (machine.step world move) (seen ++ see world move)

variable {see : World Action Answer Failure Result State Call → Move Call Drift → List Item} {seen : List Item}
  {start : World Action Answer Failure Result State Call}

theorem Records.reaches (records : machine.Records see Allowed start world seen) :
    machine.Reaches Allowed start world := by
  induction records with
  | refl => exact .refl
  | step move _ allowed ih => exact .step move ih allowed

theorem Reaches.records (reaches : machine.Reaches Allowed start world) :
    ∃ seen, machine.Records see Allowed start world seen := by
  induction reaches with
  | refl => exact ⟨[], .refl⟩
  | step move _ allowed ih =>
      obtain ⟨seen, records⟩ := ih
      exact ⟨_, .step move records allowed⟩

/-- What is seen of a list of moves. -/
def sees (machine : Machine Action Answer Failure Result State Call Drift)
    (see : World Action Answer Failure Result State Call → Move Call Drift → List Item) :
    List (Move Call Drift) → World Action Answer Failure Result State Call → List Item
  | [], _ => []
  | move :: rest, world => see world move ++ sees machine see rest (machine.step world move)

theorem records_of_allowedAlong {check : World Action Answer Failure Result State Call → Move Call Drift → Bool}
    (sound : ∀ world move, check world move = true → Allowed world move) (moves : List (Move Call Drift))
    (checked : machine.allowedAlong check moves start = true) :
    machine.Records see Allowed start (machine.run moves start) (machine.sees see moves start) := by
  have extended (moves : List (Move Call Drift)) (world : World Action Answer Failure Result State Call)
      (seen : List Item) (records : machine.Records see Allowed start world seen)
      (checked : machine.allowedAlong check moves world = true) :
      machine.Records see Allowed start (machine.run moves world) (seen ++ machine.sees see moves world) := by
    induction moves generalizing world seen with
    | nil => simpa [sees, run] using records
    | cons move rest ih =>
        rw [allowedAlong, Bool.and_eq_true] at checked
        have onward := ih _ _ (.step move records (sound _ _ checked.1)) checked.2
        rwa [List.append_assoc] at onward
  simpa using extended moves start [] .refl checked

end Machine

end CeresMpc.Interleaving
