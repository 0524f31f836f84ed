import CeresMpc.Interleaving.System

/-!
# Critical sections

A lock is taken by one operation and given back by another. A thread is inside between the two. The
state names the thread that is inside, if the operations agree on it.
-/

set_option autoImplicit false

namespace CeresMpc.Interleaving

variable {Action : Type} {Answer : Action → Type} {Failure Result State Call Drift : Type}

/-- The last operation on the lock has taken it. -/
def Inside (takes gives : Action → Prop) : List (Entry Action Answer) → Prop
  | [] => False
  | entry :: earlier => takes entry.1 ∨ ¬gives entry.1 ∧ Inside takes gives earlier

section Inside

variable {takes gives : Action → Prop} {entry : Entry Action Answer} {earlier : List (Entry Action Answer)}

@[simp] theorem not_inside_nil : ¬Inside takes gives ([] : List (Entry Action Answer)) := id

theorem inside_cons : Inside takes gives (entry :: earlier) ↔
    takes entry.1 ∨ ¬gives entry.1 ∧ Inside takes gives earlier := Iff.rfl

/-- Other operations change nothing. -/
theorem inside_append {later : List (Entry Action Answer)}
    (others : ∀ entry ∈ later, ¬takes entry.1 ∧ ¬gives entry.1) :
    Inside takes gives (later ++ earlier) ↔ Inside takes gives earlier := by
  induction later with
  | nil => rfl
  | cons entry later ih =>
      obtain ⟨untaken, ungiven⟩ := others entry List.mem_cons_self
      rw [List.cons_append, inside_cons]
      rw [ih fun entry member => others entry (List.mem_cons_of_mem _ member)]
      simp [untaken, ungiven]

end Inside

namespace Machine

variable (machine : Machine Action Answer Failure Result State Call Drift)

/-- The state knows who is inside: a free lock is taken, and nothing else touches it. -/
structure Locks (takes gives : Action → Prop) (holder : State → Option Nat) : Prop where
  taken : ∀ thread action state after answer, machine.interpret thread action state = .reply after answer →
    takes action → holder state = none ∧ holder after = some thread
  given : ∀ thread action state after answer, machine.interpret thread action state = .reply after answer →
    gives action → holder after = none
  kept : ∀ thread action state after answer, machine.interpret thread action state = .reply after answer →
    ¬takes action → ¬gives action → holder after = holder state
  apart : ∀ action, takes action → ¬gives action
  waits : ∀ thread action state after, machine.interpret thread action state = .pending after →
    holder after = holder state
  drifts : ∀ change state, holder (machine.drift change state) = holder state

variable {machine} {takes gives : Action → Prop} {holder : State → Option Nat}
  {Allowed : World Action Answer Failure Result State Call → Move Call Drift → Prop} {state : State}
  {world : World Action Answer Failure Result State Call}

/-- The lock is held by the thread that is inside, if calls only give back what they hold. -/
theorem Reaches.holder_iff (locks : machine.Locks takes gives holder) (free : holder state = none)
    (returns : ∀ call, (machine.body call).Follows (fun past action => gives action → Inside takes gives past)
      (fun _ _ => True) [])
    (reaches : machine.Reaches Allowed (.initial state) world) :
    ∀ thread, holder world.shared = some thread ↔ Inside takes gives (past thread world.trace) := by
  refine reaches.invariant
    (fun world => ∀ thread, holder world.shared = some thread ↔ Inside takes gives (past thread world.trace))
    ?_ ?_ ?_ ?_ ?_
  · intro thread
    simp [World.initial, free]
  · intro world call _ known _
    exact known
  · intro world thread call action next after answer reached known _ found moved other
    have follows := (reached.follows returns thread call _ found).1
    show holder after = some other ↔ _
    by_cases same : thread = other
    · subst same
      rw [past_cons_self, inside_cons]
      by_cases taking : takes action
      · simp [taking, (locks.taken _ _ _ _ _ moved taking).2]
      · by_cases giving : gives action
        · simp [taking, giving, locks.given _ _ _ _ _ moved giving]
        · simp [taking, giving, locks.kept _ _ _ _ _ moved taking giving, known]
    · rw [past_cons_of_ne same]
      by_cases taking : takes action
      · obtain ⟨before, taken⟩ := locks.taken _ _ _ _ _ moved taking
        rw [taken, ← known other, before]
        simp [same]
      · by_cases giving : gives action
        · -- the lock is given back by its holder, so nobody else is inside
          have own := (known thread).mpr (follows giving)
          rw [locks.given _ _ _ _ _ moved giving, ← known other, own]
          simp [same]
        · rw [locks.kept _ _ _ _ _ moved taking giving, known]
  · intro world thread call action next after _ known _ _ moved
    rw [show holder after = holder world.shared from locks.waits _ _ _ _ moved]
    exact known
  · intro world change _ known _
    rw [show holder (machine.drift change world.shared) = holder world.shared from locks.drifts _ _]
    exact known

/-- An operation that needs a free lock is answered when nobody is inside. -/
theorem Reaches.outside_of_needed (locks : machine.Locks takes gives holder) (free : holder state = none)
    (returns : ∀ call, (machine.body call).Follows (fun past action => gives action → Inside takes gives past)
      (fun _ _ => True) [])
    {needs : Action → Prop}
    (needing : ∀ thread action state after answer, machine.interpret thread action state = .reply after answer →
      needs action → holder state = none)
    (reaches : machine.Reaches Allowed (.initial state) world) {later earlier : List (Nat × Entry Action Answer)}
    {thread : Nat} {action : Action} {answer : Answer action}
    (split : world.trace = later ++ (thread, ⟨action, answer⟩) :: earlier) (needed : needs action) (other : Nat) :
    ¬Inside takes gives (past other earlier) := by
  obtain ⟨before, _, _, after, reached, _, rfl, _, moved, _⟩ := reaches.event_moved split
  intro inside
  have held := (reached.holder_iff locks free returns other).mpr inside
  rw [needing _ _ _ _ _ moved needed] at held
  cases held

/-- What the holder does next is one of the operations of the section. -/
theorem Reaches.holder_within (locks : machine.Locks takes gives holder) (free : holder state = none)
    (returns : ∀ call, (machine.body call).Follows (fun past action => gives action → Inside takes gives past)
      (fun _ _ => True) [])
    {within : Action → Prop}
    (stays : ∀ call, (machine.body call).Follows (fun past action => Inside takes gives past → within action)
      (fun past _ => ¬Inside takes gives past) [])
    (reaches : machine.Reaches Allowed (.initial state) world) {thread : Nat}
    (held : holder world.shared = some thread) :
    ∃ action, world.nextAction thread = some action ∧ within action := by
  have inside := (reaches.holder_iff locks free returns thread).mp held
  cases found : world.threads[thread]? with
  | none =>
      -- a thread that was never started has done nothing
      have fresh : past thread world.trace = [] := by
        refine past_eq_nil_of_fresh fun event member => ?_
        have started := reaches.trace_lt event member
        exact Nat.lt_of_lt_of_le started (List.getElem?_eq_none_iff.mp found)
      rw [fresh] at inside
      exact absurd inside not_inside_nil
  | some entry =>
      obtain ⟨call, program⟩ := entry
      have follows := reaches.follows stays thread call program found
      cases program with
      | done outcome => exact absurd inside follows
      | perform action next => exact ⟨action, by simp [World.nextAction, found], follows.1 inside⟩

end Machine

end CeresMpc.Interleaving
