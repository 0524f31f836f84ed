import CeresMpc.Interleaving.System

/-!
# Threads under other numbers

When a machine does not care who performs an operation, a run goes the same way
beside one more thread that does nothing.
-/

set_option autoImplicit false

namespace CeresMpc.Interleaving

variable {Action : Type} {Answer : Action → Type} {Failure Result State Call Drift : Type}

/-- The same reaction, in states that are alike. -/
inductive Reaction.Alike {Reply : Type} (alike : State → State → Prop) : Reaction State Reply → Reaction State Reply → Prop where
  | blocked : Alike alike .blocked .blocked
  | pending {left right} : alike left right → Alike alike (.pending left) (.pending right)
  | reply {left right answer} : alike left right → Alike alike (.reply left answer) (.reply right answer)

/-- States that are alike stay alike, whoever performs an operation. -/
structure Machine.Indifferent (machine : Machine Action Answer Failure Result State Call Drift)
    (alike : State → State → Prop) : Prop where
  interpret : ∀ thread other action {left right}, alike left right →
    (machine.interpret thread action left).Alike alike (machine.interpret other action right)
  drift : ∀ change {left right}, alike left right → alike (machine.drift change left) (machine.drift change right)

/-- The numbers without one of them. -/
def skip (gap thread : Nat) : Nat :=
  if thread < gap then thread else thread + 1

def Move.skip (gap : Nat) : Move Call Drift → Move Call Drift
  | .start call => .start call
  | .run thread => .run (Interleaving.skip gap thread)
  | .drift change => .drift change

theorem skip_injective (gap : Nat) {thread other : Nat} (same : skip gap thread = skip gap other) : thread = other := by
  unfold skip at same
  split at same <;> split at same <;> omega

/-- The right world has one thread more, and the others run the same programs. -/
structure Beside (alike : State → State → Prop) (gap : Nat)
    (left right : World Action Answer Failure Result State Call) : Prop where
  shared : alike left.shared right.shared
  known : gap ≤ left.threads.length
  more : right.threads.length = left.threads.length + 1
  threads : ∀ thread, right.threads[skip gap thread]? = left.threads[thread]?

variable {machine : Machine Action Answer Failure Result State Call Drift} {alike : State → State → Prop} {gap : Nat}
  {left right : World Action Answer Failure Result State Call}

/-- A world beside itself with one thread at the end. -/
theorem Beside.of_started {thread : Call × Program Action Answer Failure Result} (shared : alike left.shared right.shared)
    (started : right.threads = left.threads ++ [thread]) : Beside alike left.threads.length left right := by
  refine ⟨shared, Nat.le_refl _, by simp [started], ?_⟩
  intro other
  rw [started, skip]
  split
  · next old => exact List.getElem?_append_left old
  · next beyond =>
    have outside : (left.threads ++ [thread]).length ≤ other + 1 := by
      simp only [List.length_append, List.length_singleton]
      omega
    rw [List.getElem?_eq_none outside, List.getElem?_eq_none (Nat.le_of_not_lt beyond)]

theorem Beside.set {thread : Nat} {entry : Call × Program Action Answer Failure Result} {state copy : State}
    {trace other : List (Nat × Entry Action Answer)} (beside : Beside alike gap left right) (after : alike state copy) :
    Beside alike gap { shared := state, threads := left.threads.set thread entry, trace }
      { shared := copy, threads := right.threads.set (skip gap thread) entry, trace := other } := by
  refine ⟨after, ?_, ?_, ?_⟩
  · simpa using beside.known
  · simpa using beside.more
  · intro named
    change (right.threads.set (skip gap thread) entry)[skip gap named]? = (left.threads.set thread entry)[named]?
    by_cases same : thread = named
    · subst same
      simp only [List.getElem?_set_self', beside.threads]
    · have apart : skip gap thread ≠ skip gap named := fun equal => same (skip_injective gap equal)
      rw [List.getElem?_set_ne apart, List.getElem?_set_ne same]
      exact beside.threads named

theorem Beside.step (indifferent : machine.Indifferent alike) (beside : Beside alike gap left right)
    (move : Move Call Drift) : Beside alike gap (machine.step left move) (machine.step right (move.skip gap)) := by
  cases move with
  | drift change => exact ⟨indifferent.drift change beside.shared, beside.known, beside.more, beside.threads⟩
  | start call =>
      refine ⟨beside.shared, ?_, ?_, ?_⟩
      · have known := beside.known
        simp only [Machine.step, List.length_append, List.length_singleton]
        omega
      · simp [Machine.step, beside.more, Move.skip]
      · intro thread
        simp only [Machine.step, Move.skip]
        rcases Nat.lt_trichotomy thread left.threads.length with old | rfl | beyond
        · have known := beside.known
          have present : skip gap thread < right.threads.length := by
            rw [beside.more, skip]
            split <;> omega
          rw [List.getElem?_append_left old, List.getElem?_append_left present]
          exact beside.threads thread
        · have last : skip gap left.threads.length = right.threads.length := by
            rw [beside.more, skip, if_neg (Nat.not_lt.mpr beside.known)]
          rw [last]
          simp
        · have known := beside.known
          have outside : (left.threads ++ [(call, machine.body call)]).length ≤ thread := by
            simp only [List.length_append, List.length_singleton]
            omega
          have outsideCopy : (right.threads ++ [(call, machine.body call)]).length ≤ skip gap thread := by
            simp only [List.length_append, List.length_singleton, beside.more, skip]
            split <;> omega
          rw [List.getElem?_eq_none outside, List.getElem?_eq_none outsideCopy]
  | run thread =>
      have same := beside.threads thread
      simp only [Machine.step, Move.skip, same]
      split
      · next call action next found =>
        have reacts := indifferent.interpret thread (skip gap thread) action beside.shared
        generalize machine.interpret thread action left.shared = here at reacts
        generalize machine.interpret (skip gap thread) action right.shared = there at reacts
        cases reacts with
        | blocked => exact beside
        | pending after => exact ⟨after, beside.known, beside.more, beside.threads⟩
        | reply after => exact beside.set after
      · exact beside

/-- A run goes the same way beside a thread that does nothing. -/
theorem Beside.run (indifferent : machine.Indifferent alike) (beside : Beside alike gap left right)
    (moves : List (Move Call Drift)) :
    Beside alike gap (machine.run moves left) (machine.run (moves.map (Move.skip gap)) right) := by
  induction moves generalizing left right with
  | nil => exact beside
  | cons move rest ih => exact ih (beside.step indifferent move)

theorem Beside.returned (beside : Beside alike gap left right) {thread : Nat} {call : Call}
    {outcome : Except Failure Result} :
    left.Returned thread call outcome ↔ right.Returned (skip gap thread) call outcome := by
  rw [World.Returned, World.Returned, beside.threads]

end CeresMpc.Interleaving
