import CeresMpc.Interleaving.System

/-!
# Runs that behave like one call after another

Some operations touch a part of the shared state. A thread that has touched it and is
about to touch it again is in its block. When no thread touches the part while another
is in its block, the blocks stand one after another, and what the part went through is
what the calls do to it in the order of their blocks.
-/

set_option autoImplicit false

namespace CeresMpc.Interleaving

/-! ## Histories of one part -/

section Histories

variable {Step Part : Type} (Serves : Step → Part → Part → Prop)

/-- The steps, newest first, lead from one value of the part to another. -/
inductive Leaves : List Step → Part → Part → Prop where
  | nil {part} : Leaves [] part part
  | cons {step earlier before between after} : Leaves earlier before between → Serves step between after →
      Leaves (step :: earlier) before after

variable {Serves} {later earlier : List Step} {step : Step} {before after : Part}

theorem leaves_append :
    Leaves Serves (later ++ earlier) before after ↔
      ∃ between, Leaves Serves earlier before between ∧ Leaves Serves later between after := by
  constructor
  · intro leaves
    induction later generalizing after with
    | nil => exact ⟨after, leaves, .nil⟩
    | cons step later ih =>
        cases leaves with
        | cons first serves =>
            obtain ⟨between, old, new⟩ := ih first
            exact ⟨between, old, .cons new serves⟩
  · rintro ⟨between, old, new⟩
    induction new with
    | nil => exact old
    | cons _ serves ih => exact .cons (ih old) serves

/-- A step that leaves every part as it is can be added anywhere. -/
theorem Leaves.add (leaves : Leaves Serves (later ++ earlier) before after) (idle : ∀ part, Serves step part part) :
    Leaves Serves (later ++ step :: earlier) before after := by
  obtain ⟨between, old, new⟩ := leaves_append.mp leaves
  exact leaves_append.mpr ⟨between, .cons old (idle between), new⟩

theorem leaves_of_idle {steps : List Step} (idle : ∀ step ∈ steps, ∀ part, Serves step part part) (part : Part) :
    Leaves Serves steps part part := by
  induction steps with
  | nil => exact .nil
  | cons step earlier ih =>
      have before := ih fun other member => idle other (List.mem_cons_of_mem _ member)
      exact .cons before (idle step List.mem_cons_self part)

end Histories

/-! ## Blocks -/

variable {Action : Type} {Answer : Action → Type} {Failure Result State Call Drift : Type}

/-- A thread has done one of these operations. -/
def Touched (touches : Action → Prop) (thread : Nat) (trace : List (Nat × Entry Action Answer)) : Prop :=
  ∃ entry ∈ past thread trace, touches entry.1

/-- A thread has touched the part and is about to touch it again. -/
structure World.InBlock (touches : Action → Prop) (world : World Action Answer Failure Result State Call)
    (thread : Nat) : Prop where
  next : ∃ action, world.nextAction thread = some action ∧ touches action
  touched : Touched touches thread world.trace

/-- No thread touches the part while another one is in its block. -/
def KeepsBlocks (touches : Action → Prop) (world : World Action Answer Failure Result State Call) :
    Move Call Drift → Prop
  | .run thread => ∀ action, world.nextAction thread = some action → touches action →
      ∀ other, other ≠ thread → ¬world.InBlock touches other
  | .start _ | .drift _ => True

/-- The blocks of a run in their order, the newest first. -/
structure Serialized (touches : Action → Prop) {Part : Type} (Serves : Entry Action Answer → Part → Part → Prop)
    (origin part : Part) (world : World Action Answer Failure Result State Call) (order : List Nat) : Prop where
  nodup : order.Nodup
  touched : ∀ thread, thread ∈ order ↔ Touched touches thread world.trace
  leaves : Leaves Serves (order.flatMap fun thread => past thread world.trace) origin part
  /-- While a thread is in its block, that block is the newest one. -/
  newest : ∀ thread, world.InBlock touches thread → ∃ older, order = thread :: older

theorem touched_cons_of_ne {touches : Action → Prop} {thread other : Nat} (different : other ≠ thread)
    (entry : Entry Action Answer) (trace : List (Nat × Entry Action Answer)) :
    Touched touches thread ((other, entry) :: trace) ↔ Touched touches thread trace := by
  rw [Touched, Touched, past_cons_of_ne different]

theorem touched_cons_self {touches : Action → Prop} (thread : Nat)
    (entry : Entry Action Answer) (trace : List (Nat × Entry Action Answer)) :
    Touched touches thread ((thread, entry) :: trace) ↔ touches entry.1 ∨ Touched touches thread trace := by
  simp [Touched]

private theorem blocks_of_not_mem {thread : Nat} {order : List Nat} (absent : thread ∉ order)
    (entry : Entry Action Answer) (trace : List (Nat × Entry Action Answer)) :
    (order.flatMap fun other => past other ((thread, entry) :: trace)) = order.flatMap fun other => past other trace := by
  induction order with
  | nil => rfl
  | cons first rest ih =>
      rw [List.mem_cons, not_or] at absent
      rw [List.flatMap_cons, List.flatMap_cons, ih absent.2, past_cons_of_ne absent.1]

private theorem blocks_of_mem {thread : Nat} {order : List Nat} (once : order.Nodup) (member : thread ∈ order)
    (entry : Entry Action Answer) (trace : List (Nat × Entry Action Answer)) :
    ∃ later earlier, (order.flatMap fun other => past other trace) = later ++ earlier ∧
      (order.flatMap fun other => past other ((thread, entry) :: trace)) = later ++ entry :: earlier := by
  induction order with
  | nil => cases member
  | cons first rest ih =>
      rw [List.nodup_cons] at once
      by_cases own : first = thread
      · subst own
        refine ⟨[], past first trace ++ rest.flatMap fun other => past other trace, rfl, ?_⟩
        rw [List.flatMap_cons, past_cons_self, blocks_of_not_mem once.1]
        rfl
      · have inRest : thread ∈ rest := (List.mem_cons.mp member).resolve_left (Ne.symm own)
        obtain ⟨later, earlier, old, new⟩ := ih once.2 inRest
        refine ⟨past first trace ++ later, earlier, ?_, ?_⟩
        · rw [List.flatMap_cons, old, List.append_assoc]
        · rw [List.flatMap_cons, new, past_cons_of_ne (Ne.symm own), List.append_assoc]

section Runs

variable {machine : Machine Action Answer Failure Result State Call Drift}
  {Allowed : World Action Answer Failure Result State Call → Move Call Drift → Prop}
  {origin : State} {world : World Action Answer Failure Result State Call}
  {permitted : Call → List (Entry Action Answer) → Action → Prop}
  {finished : Call → List (Entry Action Answer) → Except Failure Result → Prop}
  {touches : Action → Prop} {Part : Type} {Serves : Entry Action Answer → Part → Part → Prop} {view : State → Part}

/-- A call touches the part in operations that follow one another. -/
def Together (touches : Action → Prop) (permitted : Call → List (Entry Action Answer) → Action → Prop) : Prop :=
  ∀ call past action, permitted call past action → touches action →
    (∀ entry ∈ past, ¬touches entry.1) ∨ ∃ newest earlier, past = newest :: earlier ∧ touches newest.1

/-- How operations act on the part in the runs from an initial state. -/
structure Observed (machine : Machine Action Answer Failure Result State Call Drift) (origin : State)
    (touches : Action → Prop) (Serves : Entry Action Answer → Part → Part → Prop) (view : State → Part) : Prop where
  served : ∀ world, machine.Reaches Machine.Any (.initial origin) world → ∀ thread action after answer,
    machine.interpret thread action world.shared = .reply after answer →
      Serves ⟨action, answer⟩ (view world.shared) (view after)
  waits : ∀ thread action state after, machine.interpret thread action state = .pending after →
    view after = view state
  drifts : ∀ change state, view (machine.drift change state) = view state
  idle : ∀ entry, ¬touches entry.1 → ∀ before after, Serves entry before after ↔ before = after

private theorem inBlock_other {after : World Action Answer Failure Result State Call} {thread other : Nat}
    {call : Call} {program : Program Action Answer Failure Result} {entry : Entry Action Answer}
    (threads : after.threads = world.threads.set thread (call, program))
    (trace : after.trace = (thread, entry) :: world.trace) (different : thread ≠ other)
    (block : after.InBlock touches other) : world.InBlock touches other := by
  obtain ⟨⟨action, active, touching⟩, touched⟩ := block
  rw [World.nextAction, threads, List.getElem?_set_ne different] at active
  rw [trace, touched_cons_of_ne different] at touched
  exact ⟨⟨action, active, touching⟩, touched⟩

private theorem not_inBlock {after : World Action Answer Failure Result State Call} {thread : Nat}
    {call : Call} {program : Program Action Answer Failure Result} {entry : Entry Action Answer}
    (together : Together touches permitted)
    (found : after.threads[thread]? = some (call, program))
    (trace : after.trace = (thread, entry) :: world.trace) (elsewhere : ¬touches entry.1)
    (follows : Program.Follows (permitted call) (finished call) (entry :: past thread world.trace) program) :
    ¬after.InBlock touches thread := by
  rintro ⟨⟨action, active, touching⟩, touched⟩
  rw [World.nextAction, found] at active
  cases program with
  | done outcome => cases active
  | perform next continuation =>
      cases active
      rcases together call _ _ follows.1 touching with untouched | ⟨newest, earlier, same, touchesNewest⟩
      · obtain ⟨other, member, touchesOther⟩ := touched
        rw [trace, past_cons_self] at member
        exact untouched other member touchesOther
      · cases same
        exact elsewhere touchesNewest

namespace Serialized

variable {part between : Part} {first : Part} {order : List Nat} {thread : Nat} {call : Call}
  {program : Program Action Answer Failure Result} {entry : Entry Action Answer}
  {after : World Action Answer Failure Result State Call}

private theorem idle (serial : Serialized touches Serves first part world order)
    (together : Together touches permitted) (unseen : ∀ part, Serves entry part part)
    (bound : thread < world.threads.length)
    (threads : after.threads = world.threads.set thread (call, program))
    (trace : after.trace = (thread, entry) :: world.trace) (elsewhere : ¬touches entry.1)
    (follows : Program.Follows (permitted call) (finished call) (entry :: past thread world.trace) program) :
    Serialized touches Serves first part after order := by
  constructor
  · exact serial.nodup
  · intro other
    rw [serial.touched, trace]
    by_cases own : thread = other
    · subst own
      rw [touched_cons_self]
      exact ⟨Or.inr, fun touched => touched.resolve_left elsewhere⟩
    · rw [touched_cons_of_ne own]
  · rw [trace]
    by_cases member : thread ∈ order
    · obtain ⟨later, earlier, old, new⟩ := blocks_of_mem serial.nodup member entry world.trace
      rw [new]
      exact Leaves.add (old ▸ serial.leaves) unseen
    · rw [blocks_of_not_mem member]
      exact serial.leaves
  · intro other block
    by_cases own : thread = other
    · subst own
      have found : after.threads[thread]? = some (call, program) := by
        rw [threads, List.getElem?_set_self bound]
      exact absurd block (not_inBlock together found trace elsewhere follows)
    · exact serial.newest other (inBlock_other threads trace own block)

private theorem touch (serial : Serialized touches Serves first part world order)
    (idle : ∀ entry, ¬touches entry.1 → ∀ part, Serves entry part part) (serves : Serves entry part between)
    (threads : after.threads = world.threads.set thread (call, program))
    (trace : after.trace = (thread, entry) :: world.trace)
    (active : world.nextAction thread = some entry.1) (touching : touches entry.1)
    (alone : ∀ other, other ≠ thread → ¬world.InBlock touches other) :
    ∃ order, Serialized touches Serves first between after order := by
  have newest (older : List Nat) : ∀ other, after.InBlock touches other → ∃ rest, thread :: older = other :: rest := by
    intro other block
    by_cases own : thread = other
    · exact ⟨older, by rw [own]⟩
    · exact absurd (inBlock_other threads trace own block) (alone other (Ne.symm own))
  have touched (older : List Nat) (known : ∀ other, other ∈ thread :: older ↔ other = thread ∨ other ∈ order) :
      ∀ other, other ∈ thread :: older ↔ Touched touches other after.trace := by
    intro other
    rw [known, serial.touched, trace]
    by_cases own : thread = other
    · subst own
      simp [touched_cons_self, touching]
    · rw [touched_cons_of_ne own]
      simp [Ne.symm own]
  by_cases member : thread ∈ order
  · -- the thread is in its block, which is the newest
    have block : world.InBlock touches thread :=
      ⟨⟨entry.1, active, touching⟩, (serial.touched thread).mp member⟩
    obtain ⟨older, rfl⟩ := serial.newest thread block
    have once := List.nodup_cons.mp serial.nodup
    refine ⟨thread :: older, serial.nodup, touched older (by simp), ?_, newest older⟩
    rw [trace, List.flatMap_cons, past_cons_self, blocks_of_not_mem once.1]
    exact .cons serial.leaves serves
  · -- the thread starts a block of its own
    have unseen : ∀ other ∈ past thread world.trace, ∀ part, Serves other part part := by
      intro other before
      refine idle other fun touchesOther => member ((serial.touched thread).mpr ⟨other, before, touchesOther⟩)
    refine ⟨thread :: order, List.nodup_cons.mpr ⟨member, serial.nodup⟩, touched order (by simp), ?_, newest order⟩
    rw [trace, List.flatMap_cons, past_cons_self, blocks_of_not_mem member]
    refine .cons (leaves_append.mpr ⟨part, serial.leaves, ?_⟩) serves
    exact leaves_of_idle unseen part

private theorem called (serial : Serialized touches Serves first part world order)
    (bounded : ∀ event ∈ world.trace, event.1 < world.threads.length)
    (threads : after.threads = world.threads ++ [(call, program)]) (trace : after.trace = world.trace) :
    Serialized touches Serves first part after order := by
  constructor
  · exact serial.nodup
  · rw [trace]
    exact serial.touched
  · rw [trace]
    exact serial.leaves
  · intro other block
    obtain ⟨⟨action, active, touching⟩, touched⟩ := block
    rw [trace] at touched
    obtain ⟨entry, member, before⟩ := touched
    have old := bounded _ (mem_past.mp member)
    rw [World.nextAction, threads, List.getElem?_append_left old] at active
    exact serial.newest other ⟨⟨action, active, touching⟩, entry, member, before⟩

end Serialized

/-- In a run that keeps blocks apart, the part went through the blocks one after another. -/
theorem Machine.Reaches.serialized (reaches : machine.Reaches (KeepsBlocks touches) (.initial origin) world)
    (obeys : ∀ call, (machine.body call).Follows (permitted call) (finished call) [])
    (together : Together touches permitted) (observed : Observed machine origin touches Serves view) :
    ∃ order, Serialized touches Serves (view origin) (view world.shared) world order := by
  have idle (entry : Entry Action Answer) (elsewhere : ¬touches entry.1) (part : Part) : Serves entry part part :=
    (observed.idle entry elsewhere part part).mpr rfl
  refine reaches.invariant (fun world => ∃ order, Serialized touches Serves (view origin) (view world.shared) world order)
    ?_ ?_ ?_ ?_ ?_
  · refine ⟨[], List.nodup_nil, ?_, .nil, ?_⟩
    · intro thread
      simp [Touched, World.initial]
    · intro thread block
      obtain ⟨_, entry, member, _⟩ := block
      cases member
  · intro world call reached serial _
    obtain ⟨order, serial⟩ := serial
    exact ⟨order, serial.called reached.trace_lt rfl rfl⟩
  · intro world thread call action next state answer reached serial allowed found moved
    obtain ⟨order, serial⟩ := serial
    have serves := observed.served world (reached.mono fun _ _ _ => trivial) thread action state answer moved
    by_cases touching : touches action
    · have active : world.nextAction thread = some action := by simp [World.nextAction, found]
      exact serial.touch idle serves rfl rfl active touching (allowed action active touching)
    · have same := (observed.idle ⟨action, answer⟩ touching _ _).mp serves
      rw [← same]
      have follows := (reached.follows obeys thread call _ found).2 answer
      exact ⟨order, serial.idle together (idle ⟨action, answer⟩ touching) (List.getElem?_eq_some_iff.mp found).1 rfl rfl
        touching follows⟩
  · intro world thread call action next state _ serial _ _ moved
    obtain ⟨order, serial⟩ := serial
    rw [observed.waits thread action world.shared state moved]
    exact ⟨order, serial.nodup, serial.touched, serial.leaves, fun other block => serial.newest other ⟨block.next, block.touched⟩⟩
  · intro world change _ serial _
    obtain ⟨order, serial⟩ := serial
    rw [observed.drifts change world.shared]
    exact ⟨order, serial.nodup, serial.touched, serial.leaves, fun other block => serial.newest other ⟨block.next, block.touched⟩⟩

/-- Nobody else has touched the part since a thread in its block did. -/
theorem Machine.Reaches.block_exclusive (reaches : machine.Reaches (KeepsBlocks touches) (.initial origin) world)
    (obeys : ∀ call, (machine.body call).Follows (permitted call) (finished call) [])
    (together : Together touches permitted) :
    ∀ thread, world.InBlock touches thread → ∀ later earlier entry,
      world.trace = later ++ (thread, entry) :: earlier → touches entry.1 →
      ∀ other, other ≠ thread → ∀ event ∈ past other later, ¬touches event.1 := by
  refine reaches.invariant (fun world => ∀ thread, world.InBlock touches thread → ∀ later earlier entry,
    world.trace = later ++ (thread, entry) :: earlier → touches entry.1 →
    ∀ other, other ≠ thread → ∀ event ∈ past other later, ¬touches event.1) ?_ ?_ ?_ ?_ ?_
  · intro thread block later earlier entry split
    simp [World.initial] at split
  · intro world call reached exclusive _ thread block later earlier entry split touching
    refine exclusive thread ⟨?_, block.touched⟩ later earlier entry split touching
    obtain ⟨action, active, touchesNext⟩ := block.next
    have old : thread < world.threads.length := by
      refine reached.trace_lt (thread, entry) ?_
      rw [show world.trace = _ from split]
      exact List.mem_append_right _ List.mem_cons_self
    simp only [World.nextAction, List.getElem?_append_left old] at active
    exact ⟨action, active, touchesNext⟩
  · intro world thread call action next state answer reached exclusive allowed found moved holder block later earlier
      entry split touching other different event member touchesEvent
    by_cases own : thread = holder
    · subst own
      have bound := (List.getElem?_eq_some_iff.mp found).1
      by_cases touchesAction : touches action
      · cases later with
        | nil => cases member
        | cons newest later =>
            simp only [List.cons_append, List.cons.injEq] at split
            obtain ⟨rfl, split⟩ := split
            have before : world.InBlock touches thread :=
              ⟨⟨action, by simp [World.nextAction, found], touchesAction⟩, entry, by
                rw [mem_past, split]
                exact List.mem_append_right _ List.mem_cons_self, touching⟩
            rw [past_cons_of_ne (Ne.symm different)] at member
            exact exclusive thread before later earlier entry split touching other different event member touchesEvent
      · have follows := (reached.follows obeys thread call _ found).2 answer
        exact not_inBlock together (List.getElem?_set_self bound) rfl touchesAction follows block
    · have before : world.InBlock touches holder := inBlock_other rfl rfl own block
      by_cases touchesAction : touches action
      · have active : world.nextAction thread = some action := by simp [World.nextAction, found]
        exact absurd before (allowed action active touchesAction holder (Ne.symm own))
      · cases later with
        | nil =>
            simp only [List.nil_append, List.cons.injEq, Prod.mk.injEq] at split
            exact absurd split.1.1 own
        | cons newest later =>
            simp only [List.cons_append, List.cons.injEq] at split
            obtain ⟨rfl, split⟩ := split
            by_cases newestOwn : thread = other
            · subst newestOwn
              rw [past_cons_self] at member
              rcases List.mem_cons.mp member with rfl | older
              · exact touchesAction touchesEvent
              · exact exclusive holder before later earlier entry split touching thread different event older touchesEvent
            · rw [past_cons_of_ne newestOwn] at member
              exact exclusive holder before later earlier entry split touching other different event member touchesEvent
  · intro world thread call action next state _ exclusive _ _ _ holder block
    exact exclusive holder ⟨block.next, block.touched⟩
  · intro world change _ exclusive _ holder block
    exact exclusive holder ⟨block.next, block.touched⟩

end Runs

end CeresMpc.Interleaving
