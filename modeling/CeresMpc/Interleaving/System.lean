import Mathlib.Data.List.Basic
import CeresMpc.Interleaving.Program

/-!
# Interleaved runs

Calls run on one shared state. A move starts a call, lets one call perform its
next operation, or lets the surroundings drift. The trace keeps every operation
with its answer and the call that performed it, newest first, so that laws about
the order of events are laws about lists.
-/

set_option autoImplicit false

namespace CeresMpc.Interleaving

/-- The shared state's reaction to an operation. `pending` is progress inside an
operation that has not answered yet. -/
inductive Reaction (State Reply : Type) where
  | blocked
  | pending (state : State)
  | reply (state : State) (answer : Reply)

/-- The reaction of a part of a state. -/
def Reaction.map {Part State Reply : Type} (put : Part → State) : Reaction Part Reply → Reaction State Reply
  | .blocked => .blocked
  | .pending part => .pending (put part)
  | .reply part answer => .reply (put part) answer

structure Machine (Action : Type) (Answer : Action → Type)
    (Failure Result State Call Drift : Type) where
  interpret : Nat → (action : Action) → State → Reaction State (Answer action)
  drift : Drift → State → State
  body : Call → Program Action Answer Failure Result

structure World (Action : Type) (Answer : Action → Type) (Failure Result State Call : Type) where
  shared : State
  threads : List (Call × Program Action Answer Failure Result)
  trace : List (Nat × Entry Action Answer)

inductive Move (Call Drift : Type) where
  | start (call : Call)
  | run (thread : Nat)
  | drift (change : Drift)

variable {Action : Type} {Answer : Action → Type} {Failure Result State Call Drift : Type}

def Move.started : Move Call Drift → Option Call
  | .start call => some call
  | .run _ | .drift _ => none

/-- The operations of one thread, newest first. -/
def past (thread : Nat) (trace : List (Nat × Entry Action Answer)) : List (Entry Action Answer) :=
  trace.filterMap fun event => if event.1 = thread then some event.2 else none

/-- A thread performed an operation and got this answer. -/
def Performed (trace : List (Nat × Entry Action Answer)) (thread : Nat) (action : Action)
    (answer : Answer action) : Prop :=
  (thread, ⟨action, answer⟩) ∈ trace

theorem Performed.cons {trace : List (Nat × Entry Action Answer)} {thread : Nat} {action : Action}
    {answer : Answer action} (performed : Performed trace thread action answer)
    (event : Nat × Entry Action Answer) : Performed (event :: trace) thread action answer :=
  List.mem_cons_of_mem _ performed

@[simp] theorem past_nil (thread : Nat) :
    past thread ([] : List (Nat × Entry Action Answer)) = [] := rfl

@[simp] theorem past_cons_self (thread : Nat) (entry : Entry Action Answer)
    (trace : List (Nat × Entry Action Answer)) :
    past thread ((thread, entry) :: trace) = entry :: past thread trace := by
  simp [past]

theorem past_cons_of_ne {thread other : Nat} (different : other ≠ thread)
    (entry : Entry Action Answer) (trace : List (Nat × Entry Action Answer)) :
    past thread ((other, entry) :: trace) = past thread trace := by
  simp [past, different]

theorem mem_past {thread : Nat} {entry : Entry Action Answer}
    {trace : List (Nat × Entry Action Answer)} :
    entry ∈ past thread trace ↔ (thread, entry) ∈ trace := by
  simp only [past, List.mem_filterMap]
  constructor
  · rintro ⟨⟨owner, performed⟩, member, selected⟩
    by_cases same : owner = thread
    · simp only [same, if_pos, Option.some.injEq] at selected
      rwa [← same, ← selected]
    · simp [same] at selected
  · intro member
    exact ⟨(thread, entry), member, by simp⟩

theorem past_append (thread : Nat) (later earlier : List (Nat × Entry Action Answer)) :
    past thread (later ++ earlier) = past thread later ++ past thread earlier :=
  List.filterMap_append

/-- An operation in a thread's past has its place in the trace. -/
theorem past_split {thread : Nat} {trace : List (Nat × Entry Action Answer)}
    {after before : List (Entry Action Answer)} {entry : Entry Action Answer}
    (split : past thread trace = after ++ entry :: before) :
    ∃ later earlier, trace = later ++ (thread, entry) :: earlier ∧ past thread later = after ∧
      past thread earlier = before := by
  induction trace generalizing after with
  | nil =>
      cases after <;> cases split
  | cons event trace ih =>
      obtain ⟨owner, performed⟩ := event
      by_cases own : owner = thread
      · subst own
        rw [past_cons_self] at split
        cases after with
        | nil =>
            cases split
            exact ⟨[], trace, rfl, rfl, rfl⟩
        | cons newest after =>
            simp only [List.cons_append, List.cons.injEq] at split
            obtain ⟨rfl, split⟩ := split
            obtain ⟨later, earlier, rfl, rfl, same⟩ := ih split
            exact ⟨(owner, performed) :: later, earlier, rfl, past_cons_self _ _ _, same⟩
      · rw [past_cons_of_ne own] at split
        obtain ⟨later, earlier, rfl, same, sameBefore⟩ := ih split
        exact ⟨(owner, performed) :: later, earlier, rfl, by rw [past_cons_of_ne own, same], sameBefore⟩

theorem past_eq_nil_of_fresh {thread : Nat} {trace : List (Nat × Entry Action Answer)}
    (fresh : ∀ event ∈ trace, event.1 < thread) : past thread trace = [] := by
  refine List.filterMap_eq_nil_iff.mpr fun event member => ?_
  have smaller := fresh event member
  simp [Nat.ne_of_lt smaller]

namespace World

variable (world : World Action Answer Failure Result State Call)

def initial (state : State) : World Action Answer Failure Result State Call :=
  { shared := state, threads := [], trace := [] }

/-- The next operation of a thread that has not returned. -/
def nextAction (thread : Nat) : Option Action :=
  match world.threads[thread]? with
  | some (_, .perform action _) => some action
  | _ => none

variable {world} in
theorem found_of_nextAction {thread : Nat} {action : Action} (active : world.nextAction thread = some action) :
    ∃ call next, world.threads[thread]? = some (call, .perform action next) := by
  unfold nextAction at active
  split at active
  · next call _ continuation found =>
    cases active
    exact ⟨call, continuation, found⟩
  · cases active

/-- A thread runs this call, or ran it. -/
def Called (thread : Nat) (call : Call) : Prop :=
  ∃ program, world.threads[thread]? = some (call, program)

/-- A thread's call has ended with this outcome. -/
def Returned (thread : Nat) (call : Call) (outcome : Except Failure Result) : Prop :=
  world.threads[thread]? = some (call, .done outcome)

variable {world} in
theorem called_iff {thread : Nat} {call : Call} :
    world.Called thread call ↔ (world.threads.map Prod.fst)[thread]? = some call := by
  rw [List.getElem?_map, Option.map_eq_some_iff]
  constructor
  · rintro ⟨program, found⟩
    exact ⟨_, found, rfl⟩
  · rintro ⟨⟨call, program⟩, found, rfl⟩
    exact ⟨program, found⟩

theorem called_unique {world : World Action Answer Failure Result State Call} {thread : Nat} {call other : Call}
    (called : world.Called thread call) (again : world.Called thread other) : call = other := by
  obtain ⟨program, found⟩ := called
  obtain ⟨later, there⟩ := again
  rw [found] at there
  cases there
  rfl

/-- A step of a thread changes no thread's call. -/
theorem called_set {world after : World Action Answer Failure Result State Call} {thread other : Nat}
    {call owner : Call} {program later : Program Action Answer Failure Result}
    (found : world.threads[thread]? = some (call, program))
    (moved : after.threads = world.threads.set thread (call, later)) :
    after.Called other owner ↔ world.Called other owner := by
  have bound := (List.getElem?_eq_some_iff.mp found).1
  unfold Called
  rw [moved]
  by_cases same : thread = other
  · subst same
    simp [List.getElem?_set_self bound, found]
  · rw [List.getElem?_set_ne same]

/-- A thread that starts has its own call, and the others keep theirs. -/
theorem called_start {world after : World Action Answer Failure Result State Call} {other : Nat}
    {call owner : Call} {program : Program Action Answer Failure Result}
    (started : after.threads = world.threads ++ [(call, program)]) :
    after.Called other owner ↔ world.Called other owner ∨ other = world.threads.length ∧ owner = call := by
  unfold Called
  rw [started]
  rcases Nat.lt_trichotomy other world.threads.length with old | rfl | beyond
  · rw [List.getElem?_append_left old]
    have different : other ≠ world.threads.length := Nat.ne_of_lt old
    simp [different]
  · simp [eq_comm]
  · have outside : (world.threads ++ [(call, program)]).length ≤ other := by
      simp only [List.length_append, List.length_singleton]
      omega
    have different : other ≠ world.threads.length := Nat.ne_of_gt beyond
    simp [List.getElem?_eq_none outside, List.getElem?_eq_none (Nat.le_of_lt beyond), different]

/-- Every call made so far has returned. -/
def Idle : Prop :=
  ∀ thread, world.nextAction thread = none

def idle : Bool :=
  world.threads.all fun entry =>
    match entry.2 with
    | .done _ => true
    | .perform _ _ => false

variable {world} in
theorem idle_sound (ended : world.idle = true) : world.Idle := by
  intro thread
  unfold nextAction
  split
  · next call action next found =>
    have member := List.mem_of_getElem? found
    have done := List.all_eq_true.mp ended _ member
    cases done
  · rfl

end World

namespace Machine

variable (machine : Machine Action Answer Failure Result State Call Drift)

/-- A move that is not possible leaves the world as it is. -/
def step (world : World Action Answer Failure Result State Call) :
    Move Call Drift → World Action Answer Failure Result State Call
  | .start call => { world with threads := world.threads ++ [(call, machine.body call)] }
  | .run thread =>
      match world.threads[thread]? with
      | some (call, .perform action next) =>
          match machine.interpret thread action world.shared with
          | .blocked => world
          | .pending state => { world with shared := state }
          | .reply state answer =>
              { shared := state
                threads := world.threads.set thread (call, next answer)
                trace := (thread, ⟨action, answer⟩) :: world.trace }
      | _ => world
  | .drift change => { world with shared := machine.drift change world.shared }

def run (moves : List (Move Call Drift)) (world : World Action Answer Failure Result State Call) :
    World Action Answer Failure Result State Call :=
  moves.foldl machine.step world

/-- Runs all of whose moves are allowed in the world they are made in. -/
inductive Reaches
    (Allowed : World Action Answer Failure Result State Call → Move Call Drift → Prop)
    (origin : World Action Answer Failure Result State Call) :
    World Action Answer Failure Result State Call → Prop where
  | refl : Reaches Allowed origin origin
  | step {world} (move : Move Call Drift) : Reaches Allowed origin world →
      Allowed world move → Reaches Allowed origin (machine.step world move)

/-- Every move is allowed. -/
def Any (_ : World Action Answer Failure Result State Call) (_ : Move Call Drift) : Prop := True

variable {machine}
  {Allowed : World Action Answer Failure Result State Call → Move Call Drift → Prop}
  {origin world : World Action Answer Failure Result State Call}

theorem Reaches.trans {middle : World Action Answer Failure Result State Call}
    (first : machine.Reaches Allowed origin middle)
    (second : machine.Reaches Allowed middle world) : machine.Reaches Allowed origin world := by
  induction second with
  | refl => exact first
  | step move _ allowed ih => exact .step move ih allowed

theorem Reaches.mono {Weaker : World Action Answer Failure Result State Call → Move Call Drift → Prop}
    (reaches : machine.Reaches Allowed origin world)
    (weaker : ∀ world move, Allowed world move → Weaker world move) :
    machine.Reaches Weaker origin world := by
  induction reaches with
  | refl => exact .refl
  | step move _ allowed ih => exact .step move ih (weaker _ _ allowed)

/-- Moves that are allowed in any world. -/
theorem reaches_run_of_forall (moves : List (Move Call Drift))
    (origin : World Action Answer Failure Result State Call)
    (allowed : ∀ move ∈ moves, ∀ world, Allowed world move) :
    machine.Reaches Allowed origin (machine.run moves origin) := by
  induction moves generalizing origin with
  | nil => exact .refl
  | cons move rest ih =>
      have first : machine.Reaches Allowed origin (machine.step origin move) :=
        .step move .refl (allowed move List.mem_cons_self origin)
      exact first.trans (ih _ fun later member => allowed later (List.mem_cons_of_mem _ member))

theorem reaches_run (moves : List (Move Call Drift))
    (origin : World Action Answer Failure Result State Call) :
    machine.Reaches Any origin (machine.run moves origin) :=
  reaches_run_of_forall moves origin fun _ _ _ => trivial

theorem run_append (first second : List (Move Call Drift))
    (world : World Action Answer Failure Result State Call) :
    machine.run (first ++ second) world = machine.run second (machine.run first world) :=
  List.foldl_append

theorem step_reply {world : World Action Answer Failure Result State Call} {thread : Nat} {call : Call} {action : Action}
    {next : Answer action → Program Action Answer Failure Result} {state : State} {answer : Answer action}
    (found : world.threads[thread]? = some (call, .perform action next))
    (moved : machine.interpret thread action world.shared = .reply state answer) :
    machine.step world (.run thread) =
      { shared := state, threads := world.threads.set thread (call, next answer)
        trace := (thread, ⟨action, answer⟩) :: world.trace } := by
  simp only [step, found, moved]

/-- A thread that has returned stays as it is. -/
theorem run_returned {world : World Action Answer Failure Result State Call} {thread : Nat} {call : Call}
    {outcome : Except Failure Result} (returned : world.Returned thread call outcome) (count : Nat) :
    machine.run (List.replicate count (.run thread)) world = world := by
  induction count with
  | zero => rfl
  | succ count ih =>
      have here : machine.step world (.run thread) = world := by
        simp only [step]
        rw [returned]
      rw [List.replicate_succ, run, List.foldl_cons, here]
      exact ih

/-- A thread that is left alone returns in one way. -/
theorem returned_unique {world : World Action Answer Failure Result State Call} {thread : Nat} {call other : Call}
    {outcome another : Except Failure Result} {first second : Nat}
    (returned : (machine.run (List.replicate first (.run thread)) world).Returned thread call outcome)
    (again : (machine.run (List.replicate second (.run thread)) world).Returned thread other another) :
    call = other ∧ outcome = another := by
  have forth : machine.run (List.replicate second (.run thread)) (machine.run (List.replicate first (.run thread)) world) = _ :=
    run_returned returned second
  have back : machine.run (List.replicate first (.run thread)) (machine.run (List.replicate second (.run thread)) world) = _ :=
    run_returned again first
  rw [← run_append, List.replicate_append_replicate] at forth back
  rw [Nat.add_comm second first, forth] at back
  rw [World.Returned, back] at returned
  have same : (call, Program.done outcome) = (other, Program.done another) :=
    Option.some.inj (returned.symm.trans again)
  cases same
  exact ⟨rfl, rfl⟩

/-- A check of every move of a run. -/
def allowedAlong (check : World Action Answer Failure Result State Call → Move Call Drift → Bool) :
    List (Move Call Drift) → World Action Answer Failure Result State Call → Bool
  | [], _ => true
  | move :: rest, world => check world move && allowedAlong check rest (machine.step world move)

theorem reaches_of_allowedAlong
    {check : World Action Answer Failure Result State Call → Move Call Drift → Bool}
    (sound : ∀ world move, check world move = true → Allowed world move)
    (moves : List (Move Call Drift)) (origin : World Action Answer Failure Result State Call)
    (checked : machine.allowedAlong check moves origin = true) :
    machine.Reaches Allowed origin (machine.run moves origin) := by
  induction moves generalizing origin with
  | nil => exact .refl
  | cons move rest ih =>
      rw [allowedAlong, Bool.and_eq_true] at checked
      have first : machine.Reaches Allowed origin (machine.step origin move) :=
        .step move .refl (sound _ _ checked.1)
      exact first.trans (ih _ checked.2)

/-- The threads of a run are the calls it started. -/
theorem run_calls (moves : List (Move Call Drift))
    (world : World Action Answer Failure Result State Call) :
    (machine.run moves world).threads.map Prod.fst =
      world.threads.map Prod.fst ++ moves.filterMap Move.started := by
  have step_calls (world : World Action Answer Failure Result State Call) (move : Move Call Drift) :
      (machine.step world move).threads.map Prod.fst =
        world.threads.map Prod.fst ++ move.started.toList := by
    cases move with
    | start call => simp [Machine.step, Move.started]
    | drift change => simp [Machine.step, Move.started]
    | run thread =>
        simp only [Machine.step, Move.started, Option.toList_none, List.append_nil]
        split
        · next call action next found =>
          split
          · rfl
          · rfl
          · obtain ⟨bound, here⟩ := List.getElem?_eq_some_iff.mp found
            have listed : thread < (world.threads.map Prod.fst).length := by simpa using bound
            have same : call = (world.threads.map Prod.fst)[thread] := by simp [here]
            rw [List.map_set, same, List.set_getElem_self]
        · rfl
  induction moves generalizing world with
  | nil => simp [Machine.run]
  | cons move rest ih =>
      have later := ih (machine.step world move)
      rw [Machine.run, List.foldl_cons]
      rw [Machine.run] at later
      rw [later, step_calls, List.append_assoc]
      cases start : move.started <;> simp [start]

/-- Invariants of runs, one obligation for each kind of progress. -/
theorem Reaches.invariant (Inv : World Action Answer Failure Result State Call → Prop)
    (reaches : machine.Reaches Allowed origin world) (start : Inv origin)
    (called : ∀ world call, machine.Reaches Allowed origin world → Inv world →
      Allowed world (.start call) →
      Inv { world with threads := world.threads ++ [(call, machine.body call)] })
    (replied : ∀ world thread call action next state answer,
      machine.Reaches Allowed origin world → Inv world → Allowed world (.run thread) →
      world.threads[thread]? = some (call, .perform action next) →
      machine.interpret thread action world.shared = .reply state answer →
      Inv { shared := state
            threads := world.threads.set thread (call, next answer)
            trace := (thread, ⟨action, answer⟩) :: world.trace })
    (waited : ∀ world thread call action next state,
      machine.Reaches Allowed origin world → Inv world → Allowed world (.run thread) →
      world.threads[thread]? = some (call, .perform action next) →
      machine.interpret thread action world.shared = .pending state →
      Inv { world with shared := state })
    (drifted : ∀ world change, machine.Reaches Allowed origin world → Inv world →
      Allowed world (.drift change) →
      Inv { world with shared := machine.drift change world.shared }) : Inv world := by
  induction reaches with
  | refl => exact start
  | @step world move reached allowed ih =>
      cases move with
      | start call => exact called world call reached ih allowed
      | drift change => exact drifted world change reached ih allowed
      | run thread =>
          simp only [Machine.step]
          split
          · next call action next found =>
            split
            · exact ih
            · next state moved => exact waited world thread call action next state reached ih allowed found moved
            · next state answer moved =>
              exact replied world thread call action next state answer reached ih allowed found moved
          · exact ih

/-! ## Threads and their own past -/

theorem Reaches.trace_lt {state : State}
    (reaches : machine.Reaches Allowed (.initial state) world) :
    ∀ event ∈ world.trace, event.1 < world.threads.length := by
  refine reaches.invariant (fun world => ∀ event ∈ world.trace, event.1 < world.threads.length)
    ?_ ?_ ?_ ?_ ?_
  · intro event member; cases member
  · intro world call _ bounded _ event member
    have := bounded event member
    simp only [List.length_append, List.length_singleton]
    omega
  · intro world thread call action next state answer _ bounded _ found _ event member
    simp only [List.length_set]
    rcases List.mem_cons.mp member with rfl | member
    · exact (List.getElem?_eq_some_iff.mp found).1
    · exact bounded event member
  · intro world thread call action next state _ bounded _ _ _; exact bounded
  · intro world change _ bounded _; exact bounded

/-- Each thread has got to where it is by its own events in the trace. -/
theorem Reaches.replays {state : State} (reaches : machine.Reaches Allowed (.initial state) world) :
    ∀ thread call program, world.threads[thread]? = some (call, program) →
      (machine.body call).Replays (past thread world.trace) program := by
  refine reaches.invariant (fun world => ∀ thread call program,
    world.threads[thread]? = some (call, program) →
      (machine.body call).Replays (past thread world.trace) program) ?_ ?_ ?_ ?_ ?_
  · intro thread call program found
    simp [World.initial] at found
  · intro world call reached replays _ thread owner program found
    rcases Nat.lt_or_ge thread world.threads.length with old | new
    · exact replays thread owner program (by rwa [List.getElem?_append_left old] at found)
    · rw [List.getElem?_append_right new] at found
      obtain ⟨atEnd, rfl, rfl⟩ : thread - world.threads.length = 0 ∧ call = owner ∧
          machine.body call = program := by
        simpa [List.getElem?_singleton] using found
      have unseen : past thread world.trace = [] := past_eq_nil_of_fresh fun event member =>
        Nat.lt_of_lt_of_le (reached.trace_lt event member) new
      rw [unseen]
      exact .start
  · intro world thread call action next state answer _ replays _ found _ other owner program selected
    have here := replays thread call _ found
    by_cases same : thread = other
    · subst same
      have bound := (List.getElem?_eq_some_iff.mp found).1
      rw [List.getElem?_set_self bound] at selected
      obtain ⟨rfl, rfl⟩ : call = owner ∧ next answer = program := by simpa using selected
      rw [past_cons_self]
      exact .step here
    · rw [List.getElem?_set_ne same] at selected
      simpa [past_cons_of_ne same] using replays other owner program selected
  · intro world thread call action next state _ replays _ _ _
    exact replays
  · intro world change _ replays _
    exact replays

variable {permitted : Call → List (Entry Action Answer) → Action → Prop}
  {finished : Call → List (Entry Action Answer) → Except Failure Result → Prop}

/-- Each thread stays on the specification of its call, with its own events in
the trace as its past. -/
theorem Reaches.follows {state : State}
    (obeys : ∀ call, (machine.body call).Follows (permitted call) (finished call) [])
    (reaches : machine.Reaches Allowed (.initial state) world) :
    ∀ thread call program, world.threads[thread]? = some (call, program) →
      Program.Follows (permitted call) (finished call) (past thread world.trace) program := by
  intro thread call program found
  exact (obeys call).along (reaches.replays thread call program found)

/-- When calls are started one after another, only the last one can be running. -/
theorem Reaches.last_active {state : State}
    (sequential : ∀ world call, Allowed world (.start call) → world.Idle)
    (reaches : machine.Reaches Allowed (.initial state) world) :
    ∀ thread, world.nextAction thread ≠ none → thread + 1 = world.threads.length := by
  refine reaches.invariant (fun world => ∀ thread, world.nextAction thread ≠ none →
    thread + 1 = world.threads.length) ?_ ?_ ?_ ?_ ?_
  · intro thread active
    exact absurd rfl active
  · intro world call _ _ allowed thread active
    have idle := sequential world call allowed
    rw [List.length_append, List.length_singleton]
    rcases Nat.lt_trichotomy thread world.threads.length with old | same | beyond
    · refine absurd ?_ active
      simpa [World.nextAction, List.getElem?_append_left old] using idle thread
    · rw [same]
    · refine absurd ?_ active
      have outside : (world.threads ++ [(call, machine.body call)]).length ≤ thread := by
        simp only [List.length_append, List.length_singleton]
        omega
      simp [World.nextAction, List.getElem?_eq_none outside]
  · intro world thread call action next state answer _ last _ found _ other active
    rw [List.length_set]
    apply last
    by_cases same : thread = other
    · subst same
      simp [World.nextAction, found]
    · simpa [World.nextAction, List.getElem?_set_ne same] using active
  · intro world thread call action next state _ last _ _ _
    exact last
  · intro world change _ last _
    exact last

theorem Reaches.one_active {state : State}
    (sequential : ∀ world call, Allowed world (.start call) → world.Idle)
    (reaches : machine.Reaches Allowed (.initial state) world) :
    ∀ thread other, world.nextAction thread ≠ none → world.nextAction other ≠ none → thread = other := by
  intro thread other active otherActive
  have last := reaches.last_active sequential thread active
  have otherLast := reaches.last_active sequential other otherActive
  omega

/-- The operations of calls made one after another stand in the order of the calls. -/
theorem Reaches.trace_sorted {state : State}
    (sequential : ∀ world call, Allowed world (.start call) → world.Idle)
    (reaches : machine.Reaches Allowed (.initial state) world) :
    world.trace.Pairwise fun newer older => older.1 ≤ newer.1 := by
  refine reaches.invariant (fun world => world.trace.Pairwise fun newer older => older.1 ≤ newer.1) ?_ ?_ ?_ ?_ ?_
  · exact List.Pairwise.nil
  · intro world call _ sorted _
    exact sorted
  · intro world thread call action next state answer reached sorted _ found _
    refine List.pairwise_cons.mpr ⟨fun event member => ?_, sorted⟩
    have before := reached.trace_lt event member
    have last := reached.last_active sequential thread (by simp [World.nextAction, found])
    change event.1 ≤ thread
    omega
  · intro world thread call action next state _ sorted _ _ _
    exact sorted
  · intro world change _ sorted _
    exact sorted

theorem sorted_around {later earlier : List (Nat × Entry Action Answer)} {thread : Nat} {entry : Entry Action Answer}
    (sorted : (later ++ (thread, entry) :: earlier).Pairwise fun newer older => older.1 ≤ newer.1) :
    (∀ event ∈ later, thread ≤ event.1) ∧ ∀ event ∈ earlier, event.1 ≤ thread := by
  obtain ⟨_, rest, across⟩ := List.pairwise_append.mp sorted
  refine ⟨fun event member => across event member _ List.mem_cons_self, fun event member => ?_⟩
  exact (List.pairwise_cons.mp rest).1 event member

/-- A thread keeps its call for the whole run. -/
theorem Reaches.call_stable {thread : Nat} {call : Call}
    {program : Program Action Answer Failure Result}
    (reaches : machine.Reaches Allowed origin world)
    (found : origin.threads[thread]? = some (call, program)) :
    ∃ later, world.threads[thread]? = some (call, later) := by
  refine reaches.invariant (fun world => ∃ later, world.threads[thread]? = some (call, later))
    ⟨program, found⟩ ?_ ?_ ?_ ?_
  · rintro world started _ ⟨later, here⟩ _
    have bound := (List.getElem?_eq_some_iff.mp here).1
    exact ⟨later, by rw [List.getElem?_append_left bound, here]⟩
  · rintro world other owner action next state answer _ ⟨later, here⟩ _ selected _
    by_cases same : other = thread
    · subst same
      have bound := (List.getElem?_eq_some_iff.mp here).1
      rw [selected] at here
      obtain ⟨rfl, -⟩ : owner = call ∧ Program.perform action next = later := by simpa using here
      exact ⟨next answer, List.getElem?_set_self bound⟩
    · exact ⟨later, by rw [List.getElem?_set_ne same, here]⟩
  · intro world other owner action next state _ here _ _ _; exact here
  · intro world change _ here _; exact here

/-- A move leaves the trace as it is, or adds the operation a thread performed. -/
theorem step_trace (world : World Action Answer Failure Result State Call) (move : Move Call Drift) :
    (machine.step world move).trace = world.trace ∨
      ∃ thread call action next after answer, move = .run thread ∧
        world.threads[thread]? = some (call, .perform action next) ∧
        machine.interpret thread action world.shared = .reply after answer ∧
        (machine.step world move).trace = (thread, ⟨action, answer⟩) :: world.trace := by
  cases move with
  | start call => exact .inl rfl
  | drift change => exact .inl rfl
  | run thread =>
      simp only [Machine.step]
      split
      · next call action next found =>
        split
        · exact .inl rfl
        · exact .inl rfl
        · next state answer moved =>
          exact .inr ⟨thread, call, action, next, state, answer, rfl, found, moved, rfl⟩
      · exact .inl rfl

/-- Each event of the trace is an operation that a thread performed in an earlier world
of the run, and the run goes on from there. -/
theorem Reaches.event_stepped {state : State}
    (reaches : machine.Reaches Allowed (.initial state) world) {later earlier : List (Nat × Entry Action Answer)}
    {thread : Nat} {action : Action} {answer : Answer action}
    (split : world.trace = later ++ (thread, ⟨action, answer⟩) :: earlier) :
    ∃ before call next after, machine.Reaches Allowed (.initial state) before ∧
      Allowed before (.run thread) ∧ before.trace = earlier ∧
      before.threads[thread]? = some (call, .perform action next) ∧
      machine.interpret thread action before.shared = .reply after answer ∧
      machine.Reaches Allowed (machine.step before (.run thread)) world := by
  induction reaches generalizing later with
  | refl => simp [World.initial] at split
  | @step world move reached allowed ih =>
      rcases machine.step_trace world move with same | ⟨other, call, performed, next, after, reply, rfl, found,
        moved, added⟩
      · rw [same] at split
        obtain ⟨before, call, next, after, start, permitted, past, found, moved, first⟩ := ih split
        exact ⟨before, call, next, after, start, permitted, past, found, moved, .step move first allowed⟩
      · rw [added] at split
        cases later with
        | nil =>
            simp only [List.nil_append, List.cons.injEq, Prod.mk.injEq] at split
            obtain ⟨⟨rfl, same⟩, rfl⟩ := split
            cases same
            exact ⟨world, call, next, after, reached, allowed, rfl, found, moved, .refl⟩
        | cons newest later =>
            simp only [List.cons_append, List.cons.injEq] at split
            obtain ⟨before, call, next, after, start, permitted, past, found, moved, first⟩ := ih split.2
            exact ⟨before, call, next, after, start, permitted, past, found, moved, .step _ first allowed⟩

theorem Reaches.event_moved {state : State}
    (reaches : machine.Reaches Allowed (.initial state) world) {later earlier : List (Nat × Entry Action Answer)}
    {thread : Nat} {action : Action} {answer : Answer action}
    (split : world.trace = later ++ (thread, ⟨action, answer⟩) :: earlier) :
    ∃ before call next after, machine.Reaches Allowed (.initial state) before ∧
      Allowed before (.run thread) ∧ before.trace = earlier ∧
      before.threads[thread]? = some (call, .perform action next) ∧
      machine.interpret thread action before.shared = .reply after answer ∧
      machine.Reaches Allowed before world := by
  obtain ⟨before, call, next, after, start, allowed, past, found, moved, onward⟩ := reaches.event_stepped split
  have first : machine.Reaches Allowed before (machine.step before (.run thread)) := .step _ .refl allowed
  exact ⟨before, call, next, after, start, allowed, past, found, moved, first.trans onward⟩

/-- What has been performed stays performed. -/
theorem Reaches.performed (reaches : machine.Reaches Allowed origin world) {thread : Nat} {action : Action}
    {answer : Answer action} (performed : Performed origin.trace thread action answer) :
    Performed world.trace thread action answer := by
  induction reaches with
  | refl => exact performed
  | @step world move _ _ ih =>
      rcases machine.step_trace world move with same | ⟨_, _, _, _, _, _, _, _, _, added⟩
      · rw [same]
        exact ih
      · rw [added]
        exact ih.cons _

/-- Each event of the trace was permitted to the call that performed it. -/
theorem Reaches.event_permitted {state : State}
    (obeys : ∀ call, (machine.body call).Follows (permitted call) (finished call) [])
    (reaches : machine.Reaches Allowed (.initial state) world) :
    ∀ later earlier thread entry, world.trace = later ++ (thread, entry) :: earlier →
      ∃ call program, world.threads[thread]? = some (call, program) ∧
        permitted call (past thread earlier) entry.1 := by
  intro later earlier thread entry split
  obtain ⟨before, call, next, after, start, _, rfl, found, _, first⟩ := reaches.event_moved split
  obtain ⟨program, here⟩ := first.call_stable found
  exact ⟨call, program, here, (start.follows obeys thread call _ found).1⟩

/-- Each thread was started in an earlier world of the run. -/
theorem Reaches.call_started {state : State}
    (reaches : machine.Reaches Allowed (.initial state) world) :
    ∀ thread call program, world.threads[thread]? = some (call, program) →
      ∃ before, machine.Reaches Allowed (.initial state) before ∧ Allowed before (.start call) ∧
        before.threads.length = thread := by
  refine reaches.invariant (fun world => ∀ thread call program,
    world.threads[thread]? = some (call, program) →
      ∃ before, machine.Reaches Allowed (.initial state) before ∧ Allowed before (.start call) ∧
        before.threads.length = thread) ?_ ?_ ?_ ?_ ?_
  · intro thread call program found
    simp [World.initial] at found
  · intro world started reached known allowed thread call program found
    rcases Nat.lt_or_ge thread world.threads.length with old | new
    · rw [List.getElem?_append_left old] at found
      exact known thread call program found
    · have bound := (List.getElem?_eq_some_iff.mp found).1
      have last : thread = world.threads.length := by
        simp only [List.length_append, List.length_singleton] at bound
        omega
      subst last
      simp only [List.getElem?_concat_length, Option.some.injEq, Prod.mk.injEq] at found
      obtain ⟨rfl, -⟩ := found
      exact ⟨world, reached, allowed, rfl⟩
  · intro world thread call action next state answer _ known _ found _ other owner program selected
    by_cases same : thread = other
    · subst same
      have bound := (List.getElem?_eq_some_iff.mp found).1
      rw [List.getElem?_set_self bound] at selected
      cases selected
      exact known thread call _ found
    · rw [List.getElem?_set_ne same] at selected
      exact known other owner program selected
  · intro world thread call action next state _ known _ _ _
    exact known
  · intro world change _ known _
    exact known

/-- The same for an operation whose place in the trace does not matter. -/
theorem Reaches.performed_permitted {state : State}
    (obeys : ∀ call, (machine.body call).Follows (permitted call) (finished call) [])
    (reaches : machine.Reaches Allowed (.initial state) world) {thread : Nat} {action : Action}
    {answer : Answer action} (performed : Performed world.trace thread action answer) :
    ∃ call program before, world.threads[thread]? = some (call, program) ∧
      permitted call before action ∧
      ∀ {first : Action} {reply : Answer first}, ⟨first, reply⟩ ∈ before →
        Performed world.trace thread first reply := by
  obtain ⟨later, earlier, split⟩ := List.append_of_mem performed
  obtain ⟨call, program, found, allowed⟩ :=
    reaches.event_permitted obeys later earlier thread ⟨action, answer⟩ split
  refine ⟨call, program, past thread earlier, found, allowed, fun member => ?_⟩
  rw [Performed, split]
  exact List.mem_append_right _ (List.mem_cons_of_mem _ (mem_past.mp member))

/-- A thread whose operations are all answered at once returns when it is left alone. -/
theorem returns_alone {Ready : State → List (Entry Action Answer) → Prop} {thread : Nat} {call : Call}
    {permittedAlone : List (Entry Action Answer) → Action → Prop}
    {finishedAlone : List (Entry Action Answer) → Except Failure Result → Prop}
    (served : ∀ state past action, Ready state past → permittedAlone past action →
      ∃ after answer, machine.interpret thread action state = .reply after answer ∧
        Ready after (⟨action, answer⟩ :: past))
    {program : Program Action Answer Failure Result} {past : List (Entry Action Answer)}
    (found : world.threads[thread]? = some (call, program)) (ready : Ready world.shared past)
    (follows : program.Follows permittedAlone finishedAlone past) :
    ∃ count state later outcome, (machine.run (List.replicate count (.run thread)) world).Returned thread call outcome ∧
      Ready state later ∧ finishedAlone later outcome := by
  induction program generalizing world past with
  | done outcome => exact ⟨0, world.shared, past, outcome, found, ready, follows⟩
  | perform action next ih =>
      obtain ⟨permits, onward⟩ := follows
      obtain ⟨after, answer, moved, stillReady⟩ := served _ _ _ ready permits
      have bound := (List.getElem?_eq_some_iff.mp found).1
      have stepped := step_reply found moved
      have there : (machine.step world (.run thread)).threads[thread]? = some (call, next answer) := by
        rw [stepped]
        exact List.getElem?_set_self bound
      have readyThere : Ready (machine.step world (.run thread)).shared (⟨action, answer⟩ :: past) := by
        rw [stepped]
        exact stillReady
      obtain ⟨count, state, later, outcome, returned, last, finished⟩ := ih answer there readyThere (onward answer)
      refine ⟨count + 1, state, later, outcome, ?_, last, finished⟩
      rw [List.replicate_succ, run, List.foldl_cons]
      exact returned

end Machine

end CeresMpc.Interleaving
