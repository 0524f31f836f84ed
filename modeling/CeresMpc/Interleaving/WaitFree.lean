import CeresMpc.Interleaving.System

/-!
# Wait-free calls

A call that performs a bounded number of operations, each answered at once in every state,
returns after that many moves of its own, whatever the others do in between.
-/

set_option autoImplicit false

namespace CeresMpc.Interleaving

variable {Action : Type} {Answer : Action → Type} {Failure Result Final State Call Drift : Type}

namespace Program

/-- No way through the program has more operations than this. -/
def AtMost : Nat → Program Action Answer Failure Result → Prop
  | _, .done _ => True
  | 0, .perform _ _ => False
  | bound + 1, .perform _ next => ∀ answer, AtMost bound (next answer)

@[simp] theorem atMost_done (bound : Nat) (outcome : Except Failure Result) :
    AtMost bound (done outcome : Program Action Answer Failure Result) := by
  cases bound <;> trivial

@[simp] theorem atMost_fail (bound : Nat) (failure : Failure) :
    AtMost bound (fail failure : Program Action Answer Failure Result) :=
  atMost_done bound _

@[simp] theorem atMost_perform (bound : Nat) (action : Action)
    (next : Answer action → Program Action Answer Failure Result) :
    AtMost (bound + 1) (perform action next) ↔ ∀ answer, AtMost bound (next answer) := Iff.rfl

@[simp] theorem atMost_lift_bind (bound : Nat) (outcome : Except Failure Result)
    (continuation : Result → Program Action Answer Failure Final) :
    AtMost bound ((lift outcome).bind continuation) ↔
      ∀ value, outcome = .ok value → AtMost bound (continuation value) := by
  cases outcome <;> simp [lift]

@[simp] theorem atMost_ensure_bind (bound : Nat) (condition : Prop) [Decidable condition] (failure : Failure)
    (continuation : Unit → Program Action Answer Failure Final) :
    AtMost bound ((ensure condition failure).bind continuation) ↔
      (condition → AtMost bound (continuation ())) := by
  by_cases holds : condition <;> simp [ensure, holds]

/-- What ends without operations of its own keeps the bound. -/
theorem AtMost.bind_done {program : Program Action Answer Failure Result} {bound : Nat}
    (atMost : program.AtMost bound) (transform : Result → Except Failure Final) :
    AtMost bound (program.bind fun value => .done (transform value)) := by
  induction program generalizing bound with
  | done outcome => cases outcome <;> simp
  | perform action next ih =>
      cases bound with
      | zero => exact atMost.elim
      | succ bound => exact fun answer => ih answer (atMost answer)

end Program

/-- The move lets the thread perform an operation. -/
def Move.runs (thread : Nat) : Move Call Drift → Bool
  | .run other => other = thread
  | .start _ | .drift _ => false

namespace Machine

variable (machine : Machine Action Answer Failure Result State Call Drift)

/-- Answered at once in every state. -/
def Prompt (action : Action) : Prop :=
  ∀ thread state, ∃ after answer, machine.interpret thread action state = .reply after answer

variable {machine} {world : World Action Answer Failure Result State Call} {thread : Nat} {call : Call}
  {program : Program Action Answer Failure Result}

/-- A thread stays where it is while others move. -/
theorem step_elsewhere (found : world.threads[thread]? = some (call, program)) {move : Move Call Drift}
    (elsewhere : move.runs thread = false) : (machine.step world move).threads[thread]? = some (call, program) := by
  cases move with
  | start other =>
      have bound := (List.getElem?_eq_some_iff.mp found).1
      exact (List.getElem?_append_left bound).trans found
  | drift change => exact found
  | run other =>
      have different : other ≠ thread := by simpa [Move.runs] using elsewhere
      simp only [step]
      split
      · split
        · exact found
        · exact found
        · exact (List.getElem?_set_ne different).trans found
      · exact found

/-- Enough moves of its own bring a wait-free call to its end. -/
theorem returned_of_prompt {bound : Nat} (found : world.threads[thread]? = some (call, program))
    (atMost : program.AtMost bound) (prompt : program.Only machine.Prompt) {moves : List (Move Call Drift)}
    (enough : bound ≤ moves.countP (Move.runs thread)) :
    ∃ outcome, (machine.run moves world).Returned thread call outcome := by
  induction moves generalizing world program bound with
  | nil =>
      obtain rfl : bound = 0 := by simpa using enough
      cases program with
      | done outcome => exact ⟨outcome, found⟩
      | perform action next => exact atMost.elim
  | cons move moves ih =>
      rw [run, List.foldl_cons]
      cases own : move.runs thread with
      | false =>
          rw [List.countP_cons_of_neg (by simp [own])] at enough
          exact ih (step_elsewhere found own) atMost prompt enough
      | true =>
          rw [List.countP_cons_of_pos own] at enough
          have same : move = .run thread := by
            cases move with
            | run other => simpa [Move.runs] using own
            | start _ | drift _ => cases own
          subst same
          cases program with
          | done outcome =>
              have stays : machine.step world (.run thread) = world := by
                simp only [step, found]
              rw [stays]
              exact ih found (Program.atMost_done _ _) trivial (Nat.zero_le _)
          | perform action next =>
              cases bound with
              | zero => exact atMost.elim
              | succ bound =>
                  obtain ⟨after, answer, moved⟩ := prompt.1 thread world.shared
                  refine ih ?_ (atMost answer) (prompt.2 answer) (Nat.le_of_succ_le_succ enough)
                  rw [step_reply found moved]
                  exact List.getElem?_set_self (List.getElem?_eq_some_iff.mp found).1

end Machine

end CeresMpc.Interleaving
