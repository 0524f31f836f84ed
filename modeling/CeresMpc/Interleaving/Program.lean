import Mathlib.Logic.Basic
import Mathlib.Data.List.Basic

/-!
# Programs over shared operations

A call is a tree of the shared operations it performs. Between two operations
it only computes on values it already holds, so a tree branches on answers
alone. Nothing here depends on what the operations are.
-/

set_option autoImplicit false

namespace CeresMpc.Interleaving

inductive Program (Action : Type) (Answer : Action → Type) (Failure Result : Type) where
  | done (outcome : Except Failure Result)
  | perform (action : Action) (next : Answer action → Program Action Answer Failure Result)

/-- One operation together with the answer the caller got. -/
abbrev Entry (Action : Type) (Answer : Action → Type) := (action : Action) × Answer action

namespace Program

variable {Action : Type} {Answer : Action → Type} {Failure Result Final : Type}

/-- A failure ends the whole call, as `?` does. -/
def bind : Program Action Answer Failure Result →
    (Result → Program Action Answer Failure Final) → Program Action Answer Failure Final
  | .done (.ok value), continuation => continuation value
  | .done (.error failure), _ => .done (.error failure)
  | .perform action next, continuation =>
      .perform action fun answer => bind (next answer) continuation

instance : Monad (Program Action Answer Failure) where
  pure value := .done (.ok value)
  bind := bind

/-- A computation without shared operations. -/
def lift (outcome : Except Failure Result) : Program Action Answer Failure Result :=
  .done outcome

instance : MonadLift (Except Failure) (Program Action Answer Failure) where
  monadLift := lift

def fail (failure : Failure) : Program Action Answer Failure Result :=
  .done (.error failure)

/-- Stop with `failure` unless the condition holds. -/
def ensure (condition : Prop) [Decidable condition] (failure : Failure) :
    Program Action Answer Failure Unit :=
  if condition then .done (.ok ()) else .done (.error failure)

def request (action : Action) : Program Action Answer Failure (Answer action) :=
  .perform action fun answer => .done (.ok answer)

/-- Run `cleanup` on every exit of `body`, as a destructor does. -/
def always (body : Program Action Answer Failure Result)
    (cleanup : Program Action Answer Failure Unit) : Program Action Answer Failure Result :=
  match body with
  | .done outcome => bind cleanup fun _ => .done outcome
  | .perform action next => .perform action fun answer => always (next answer) cleanup

/-- Run `cleanup` when `body` fails. -/
def onFailure (body : Program Action Answer Failure Result)
    (cleanup : Program Action Answer Failure Unit) : Program Action Answer Failure Result :=
  match body with
  | .done (.ok value) => .done (.ok value)
  | .done (.error failure) => bind cleanup fun _ => .done (.error failure)
  | .perform action next => .perform action fun answer => onFailure (next answer) cleanup

@[simp] theorem pure_eq (value : Result) :
    (pure value : Program Action Answer Failure Result) = .done (.ok value) := rfl

@[simp] theorem bind_eq (program : Program Action Answer Failure Result)
    (continuation : Result → Program Action Answer Failure Final) :
    program >>= continuation = program.bind continuation := rfl

@[simp] theorem liftM_eq (outcome : Except Failure Result) :
    (liftM outcome : Program Action Answer Failure Result) = lift outcome := rfl

@[simp] theorem done_ok_bind (value : Result)
    (continuation : Result → Program Action Answer Failure Final) :
    (done (.ok value)).bind continuation = continuation value := rfl

@[simp] theorem done_error_bind (failure : Failure)
    (continuation : Result → Program Action Answer Failure Final) :
    (done (.error failure)).bind continuation = done (.error failure) := rfl

@[simp] theorem perform_bind (action : Action)
    (next : Answer action → Program Action Answer Failure Result)
    (continuation : Result → Program Action Answer Failure Final) :
    (perform action next).bind continuation =
      perform action fun answer => (next answer).bind continuation := rfl

@[simp] theorem bind_assoc {Last : Type} (program : Program Action Answer Failure Result)
    (first : Result → Program Action Answer Failure Final)
    (second : Final → Program Action Answer Failure Last) :
    (program.bind first).bind second = program.bind fun value => (first value).bind second := by
  induction program with
  | done outcome => cases outcome <;> rfl
  | perform action next ih => simp [ih]

@[simp] theorem fail_bind (failure : Failure)
    (continuation : Result → Program Action Answer Failure Final) :
    (fail failure).bind continuation = fail failure := rfl

@[simp] theorem request_bind (action : Action)
    (continuation : Answer action → Program Action Answer Failure Final) :
    (request action).bind continuation = perform action continuation := rfl

@[simp] theorem map_eq (transform : Result → Final)
    (program : Program Action Answer Failure Result) :
    transform <$> program = program.bind fun value => .done (.ok (transform value)) := rfl

/-! ## Operations a program can perform -/

/-- Every operation the program can reach is `allowed`. -/
def Only (allowed : Action → Prop) : Program Action Answer Failure Result → Prop
  | .done _ => True
  | .perform action next => allowed action ∧ ∀ answer, Only allowed (next answer)

variable {allowed : Action → Prop}

@[simp] theorem only_done (outcome : Except Failure Result) :
    Only allowed (done outcome : Program Action Answer Failure Result) := trivial

@[simp] theorem only_fail (failure : Failure) :
    Only allowed (fail failure : Program Action Answer Failure Result) := trivial

@[simp] theorem only_lift (outcome : Except Failure Result) :
    Only allowed (lift outcome : Program Action Answer Failure Result) := trivial

@[simp] theorem only_ensure (condition : Prop) [Decidable condition] (failure : Failure) :
    Only allowed (ensure condition failure : Program Action Answer Failure Unit) := by
  unfold ensure
  split <;> trivial

@[simp] theorem only_perform (action : Action)
    (next : Answer action → Program Action Answer Failure Result) :
    Only allowed (perform action next) ↔ allowed action ∧ ∀ answer, Only allowed (next answer) :=
  Iff.rfl

@[simp] theorem only_request (action : Action) :
    Only allowed (request action : Program Action Answer Failure (Answer action)) ↔
      allowed action := by
  simp [request]

@[simp] theorem only_lift_bind (outcome : Except Failure Result)
    (continuation : Result → Program Action Answer Failure Final) :
    Only allowed ((lift outcome).bind continuation) ↔
      ∀ value, outcome = .ok value → Only allowed (continuation value) := by
  cases outcome <;> simp [lift]

@[simp] theorem only_ensure_bind (condition : Prop) [Decidable condition] (failure : Failure)
    (continuation : Unit → Program Action Answer Failure Final) :
    Only allowed ((ensure condition failure).bind continuation) ↔
      (condition → Only allowed (continuation ())) := by
  by_cases holds : condition <;> simp [ensure, holds]

theorem Only.bind {program : Program Action Answer Failure Result}
    {continuation : Result → Program Action Answer Failure Final}
    (first : Only allowed program) (second : ∀ value, Only allowed (continuation value)) :
    Only allowed (program.bind continuation) := by
  induction program with
  | done outcome =>
      cases outcome with
      | ok value => exact second value
      | error failure => trivial
  | perform action next ih => exact ⟨first.1, fun answer => ih answer (first.2 answer)⟩

theorem Only.always {body : Program Action Answer Failure Result}
    {cleanup : Program Action Answer Failure Unit}
    (main : Only allowed body) (after : Only allowed cleanup) :
    Only allowed (Program.always body cleanup) := by
  induction body with
  | done outcome => exact after.bind fun _ => trivial
  | perform action next ih => exact ⟨main.1, fun answer => ih answer (main.2 answer)⟩

theorem Only.onFailure {body : Program Action Answer Failure Result}
    {cleanup : Program Action Answer Failure Unit}
    (main : Only allowed body) (after : Only allowed cleanup) :
    Only allowed (Program.onFailure body cleanup) := by
  induction body with
  | done outcome =>
      cases outcome with
      | ok value => trivial
      | error failure => exact after.bind fun _ => trivial
  | perform action next ih => exact ⟨main.1, fun answer => ih answer (main.2 answer)⟩

theorem Only.mono {program : Program Action Answer Failure Result} {weaker : Action → Prop}
    (only : Only allowed program) (weaken : ∀ action, allowed action → weaker action) :
    Only weaker program := by
  induction program with
  | done outcome => trivial
  | perform action next ih => exact ⟨weaken action only.1, fun answer => ih answer (only.2 answer)⟩

/-! ## Specifications over the call's own past -/

/-- Every operation the program can reach is `permitted` after the operations
before it, and every outcome it can return is `finished` after all of them,
whatever the answers are. The past is listed newest first. -/
def Follows (permitted : List (Entry Action Answer) → Action → Prop)
    (finished : List (Entry Action Answer) → Except Failure Result → Prop) :
    List (Entry Action Answer) → Program Action Answer Failure Result → Prop
  | past, .done outcome => finished past outcome
  | past, .perform action next =>
      permitted past action ∧
        ∀ answer, Follows permitted finished (⟨action, answer⟩ :: past) (next answer)

variable {permitted : List (Entry Action Answer) → Action → Prop}
  {finished : List (Entry Action Answer) → Except Failure Final → Prop}

@[simp] theorem follows_done (past : List (Entry Action Answer))
    (outcome : Except Failure Final) :
    Follows permitted finished past (done outcome) ↔ finished past outcome := Iff.rfl

@[simp] theorem follows_fail (past : List (Entry Action Answer)) (failure : Failure) :
    Follows permitted finished past (fail failure) ↔ finished past (.error failure) := Iff.rfl

@[simp] theorem follows_perform (past : List (Entry Action Answer)) (action : Action)
    (next : Answer action → Program Action Answer Failure Final) :
    Follows permitted finished past (perform action next) ↔
      permitted past action ∧
        ∀ answer, Follows permitted finished (⟨action, answer⟩ :: past) (next answer) := Iff.rfl

/-- The outcome a sequential composition must meet after its first part. -/
def Then (permitted : List (Entry Action Answer) → Action → Prop)
    (finished : List (Entry Action Answer) → Except Failure Final → Prop)
    (continuation : Result → Program Action Answer Failure Final)
    (past : List (Entry Action Answer)) : Except Failure Result → Prop
  | .ok value => Follows permitted finished past (continuation value)
  | .error failure => finished past (.error failure)

theorem follows_bind {past : List (Entry Action Answer)}
    (program : Program Action Answer Failure Result)
    (continuation : Result → Program Action Answer Failure Final) :
    Follows permitted finished past (program.bind continuation) ↔
      Follows permitted (Then permitted finished continuation) past program := by
  induction program generalizing past with
  | done outcome => cases outcome <;> rfl
  | perform action next ih =>
      simp only [perform_bind, follows_perform]
      exact and_congr_right fun _ => forall_congr' fun answer => ih answer

theorem follows_map {past : List (Entry Action Answer)} (transform : Result → Final)
    (program : Program Action Answer Failure Result) :
    Follows permitted finished past (transform <$> program) ↔
      Follows permitted (fun past outcome => finished past (outcome.map transform)) past program := by
  rw [map_eq, follows_bind]
  have same : Then permitted finished (fun value => done (.ok (transform value))) =
      fun past outcome => finished past (outcome.map transform) := by
    funext past outcome
    cases outcome <;> rfl
  rw [same]

theorem follows_lift_bind {past : List (Entry Action Answer)} (outcome : Except Failure Result)
    (continuation : Result → Program Action Answer Failure Final) :
    Follows permitted finished past ((lift outcome).bind continuation) ↔
      (∀ value, outcome = .ok value → Follows permitted finished past (continuation value)) ∧
        ∀ failure, outcome = .error failure → finished past (.error failure) := by
  cases outcome <;> simp [lift]

theorem follows_ensure_bind {past : List (Entry Action Answer)} {condition : Prop}
    [Decidable condition] {failure : Failure}
    (continuation : Unit → Program Action Answer Failure Final) :
    Follows permitted finished past ((ensure condition failure).bind continuation) ↔
      (condition → Follows permitted finished past (continuation ())) ∧
        (¬condition → finished past (.error failure)) := by
  by_cases holds : condition <;> simp [ensure, holds]

theorem follows_always {past : List (Entry Action Answer)}
    (body : Program Action Answer Failure Final) (cleanup : Program Action Answer Failure Unit) :
    Follows permitted finished past (always body cleanup) ↔
      Follows permitted (fun past outcome =>
        Follows permitted finished past (cleanup.bind fun _ => done outcome)) past body := by
  induction body generalizing past with
  | done outcome => rfl
  | perform action next ih =>
      simp only [always, follows_perform]
      exact and_congr_right fun _ => forall_congr' fun answer => ih answer

theorem follows_onFailure {past : List (Entry Action Answer)}
    (body : Program Action Answer Failure Final) (cleanup : Program Action Answer Failure Unit) :
    Follows permitted finished past (onFailure body cleanup) ↔
      Follows permitted (fun past outcome =>
        match outcome with
        | .ok value => finished past (.ok value)
        | .error failure => Follows permitted finished past (cleanup.bind fun _ => done (.error failure)))
        past body := by
  induction body generalizing past with
  | done outcome => cases outcome <;> rfl
  | perform action next ih =>
      simp only [onFailure, follows_perform]
      exact and_congr_right fun _ => forall_congr' fun answer => ih answer

/-- A first part lengthens the past by operations it can do. -/
theorem Only.follows_bind_within {past : List (Entry Action Answer)}
    {program : Program Action Answer Failure Result}
    {continuation : Result → Program Action Answer Failure Final} (only : Only allowed program)
    (free : ∀ extra action, (∀ entry ∈ extra, allowed entry.1) → allowed action → permitted (extra ++ past) action)
    (fails : ∀ extra failure, (∀ entry ∈ extra, allowed entry.1) → finished (extra ++ past) (.error failure))
    (continues : ∀ extra value, (∀ entry ∈ extra, allowed entry.1) →
      Follows permitted finished (extra ++ past) (continuation value)) :
    Follows permitted finished past (program.bind continuation) := by
  have longer {extra : List (Entry Action Answer)} (within : ∀ entry ∈ extra, allowed entry.1) {action : Action}
      (own : allowed action) (answer : Answer action) : ∀ entry ∈ extra ++ [⟨action, answer⟩], allowed entry.1 := by
    simpa [or_imp, forall_and] using ⟨within, own⟩
  induction program generalizing past with
  | done outcome =>
      cases outcome with
      | ok value => exact continues [] value (by simp)
      | error failure => exact fails [] failure (by simp)
  | perform action next ih =>
      refine ⟨free [] action (by simp) only.1, fun answer => ih answer (only.2 answer) ?_ ?_ ?_⟩
      · intro extra later within allowed
        simpa using free _ later (longer within only.1 answer) allowed
      · intro extra failure within
        simpa using fails _ failure (longer within only.1 answer)
      · intro extra value within
        simpa using continues _ value (longer within only.1 answer)

/-- A first part made of unrestricted operations only lengthens the past. -/
theorem Only.follows_bind {past : List (Entry Action Answer)}
    {program : Program Action Answer Failure Result}
    {continuation : Result → Program Action Answer Failure Final} (only : Only allowed program)
    (free : ∀ past action, allowed action → permitted past action)
    (fails : ∀ past failure, finished past (.error failure))
    (continues : ∀ extra value, (∀ entry ∈ extra, allowed entry.1) →
      Follows permitted finished (extra ++ past) (continuation value)) :
    Follows permitted finished past (program.bind continuation) :=
  only.follows_bind_within (fun _ action _ own => free _ action own) (fun _ failure _ => fails _ failure) continues

theorem Only.follows_within {past : List (Entry Action Answer)}
    {program : Program Action Answer Failure Final} (only : Only allowed program)
    (free : ∀ extra action, (∀ entry ∈ extra, allowed entry.1) → allowed action → permitted (extra ++ past) action)
    (finishes : ∀ extra outcome, (∀ entry ∈ extra, allowed entry.1) → finished (extra ++ past) outcome) :
    Follows permitted finished past program := by
  have longer {extra : List (Entry Action Answer)} (within : ∀ entry ∈ extra, allowed entry.1) {action : Action}
      (own : allowed action) (answer : Answer action) : ∀ entry ∈ extra ++ [⟨action, answer⟩], allowed entry.1 := by
    simpa [or_imp, forall_and] using ⟨within, own⟩
  induction program generalizing past with
  | done outcome => exact finishes [] outcome (by simp)
  | perform action next ih =>
      refine ⟨free [] action (by simp) only.1, fun answer => ih answer (only.2 answer) ?_ ?_⟩
      · intro extra later within allowed
        simpa using free _ later (longer within only.1 answer) allowed
      · intro extra outcome within
        simpa using finishes _ outcome (longer within only.1 answer)

theorem Only.follows {past : List (Entry Action Answer)}
    {program : Program Action Answer Failure Final} (only : Only allowed program)
    (free : ∀ extra action, allowed action → permitted (extra ++ past) action)
    (finishes : ∀ extra outcome, finished (extra ++ past) outcome) :
    Follows permitted finished past program :=
  only.follows_within (fun extra action _ own => free extra action own) fun extra outcome _ => finishes extra outcome

theorem Follows.mono {past : List (Entry Action Answer)}
    {program : Program Action Answer Failure Final}
    {weaker : List (Entry Action Answer) → Action → Prop}
    {weakerEnd : List (Entry Action Answer) → Except Failure Final → Prop}
    (follows : Follows permitted finished past program)
    (actions : ∀ past action, permitted past action → weaker past action)
    (outcomes : ∀ past outcome, finished past outcome → weakerEnd past outcome) :
    Follows weaker weakerEnd past program := by
  induction program generalizing past with
  | done outcome => exact outcomes past outcome follows
  | perform action next ih =>
      exact ⟨actions past action follows.1, fun answer => ih answer (follows.2 answer)⟩

/-- A specification bounds what a program can do. -/
theorem Follows.only {past : List (Entry Action Answer)} {program : Program Action Answer Failure Final}
    (follows : Follows permitted finished past program) (within : ∀ past action, permitted past action → allowed action) :
    program.Only allowed := by
  induction program generalizing past with
  | done outcome => trivial
  | perform action next ih => exact ⟨within past action follows.1, fun answer => ih answer (follows.2 answer)⟩

/-- An end, with what has been done by then when it is a failure. -/
def Ends (finished : List (Entry Action Answer) → Except Failure Final → Prop)
    (failed : List (Entry Action Answer) → Prop) (past : List (Entry Action Answer))
    (outcome : Except Failure Final) : Prop :=
  finished past outcome ∧ ∀ failure, outcome = .error failure → failed past

/-- What a program adds to the past is allowed if all it can do is. -/
theorem Only.tracks {base : List (Entry Action Answer)} {program : Program Action Answer Failure Final}
    (only : Only allowed program) :
    Follows (fun _ _ => True) (fun past _ => ∃ tail, past = tail ++ base ∧ ∀ entry ∈ tail, allowed entry.1) base
      program :=
  only.follows_within (fun _ _ _ _ => trivial) fun extra _ within => ⟨extra, rfl, within⟩

theorem Follows.and {past : List (Entry Action Answer)} {program : Program Action Answer Failure Final}
    {alsoPermitted : List (Entry Action Answer) → Action → Prop}
    {alsoFinished : List (Entry Action Answer) → Except Failure Final → Prop}
    (first : Follows permitted finished past program) (second : Follows alsoPermitted alsoFinished past program) :
    Follows (fun past action => permitted past action ∧ alsoPermitted past action)
      (fun past outcome => finished past outcome ∧ alsoFinished past outcome) past program := by
  induction program generalizing past with
  | done outcome => exact ⟨first, second⟩
  | perform action next ih => exact ⟨⟨first.1, second.1⟩, fun answer => ih answer (first.2 answer) (second.2 answer)⟩

/-- A program that is under way can come to an end. -/
theorem Follows.finishes {past : List (Entry Action Answer)} {program : Program Action Answer Failure Final}
    (answerable : ∀ action, Nonempty (Answer action)) (follows : Follows permitted finished past program) :
    ∃ extra outcome, finished (extra ++ past) outcome := by
  induction program generalizing past with
  | done outcome => exact ⟨[], outcome, follows⟩
  | perform action next ih =>
      obtain ⟨answer⟩ := answerable action
      obtain ⟨extra, outcome, ended⟩ := ih answer (follows.2 answer)
      exact ⟨extra ++ [⟨action, answer⟩], outcome, by simpa using ended⟩

/-- The operations and answers that have led from one program to another, newest first. -/
inductive Replays (program : Program Action Answer Failure Result) :
    List (Entry Action Answer) → Program Action Answer Failure Result → Prop where
  | start : Replays program [] program
  | step {past action next answer} : Replays program past (.perform action next) →
      Replays program (⟨action, answer⟩ :: past) (next answer)

/-- Every program follows the specification that is itself. -/
theorem Replays.follows {program current : Program Action Answer Failure Result}
    {past : List (Entry Action Answer)} (replays : Replays program past current) :
    Follows (fun past action => ∃ next, Replays program past (.perform action next))
      (fun past outcome => Replays program past (.done outcome)) past current := by
  induction current generalizing past with
  | done outcome => exact replays
  | perform action next ih => exact ⟨⟨next, replays⟩, fun answer => ih answer replays.step⟩

theorem Replays.of_done {outcome : Except Failure Result} {current : Program Action Answer Failure Result}
    {past : List (Entry Action Answer)} (replays : Replays (done outcome) past current) :
    past = [] ∧ current = done outcome := by
  induction replays with
  | start => exact ⟨rfl, rfl⟩
  | step _ ih => cases ih.2

/-- A program has not started, or is in what follows its first operation. -/
theorem Replays.of_perform {first : Action} {rest : Answer first → Program Action Answer Failure Result}
    {current : Program Action Answer Failure Result} {past : List (Entry Action Answer)}
    (replays : Replays (perform first rest) past current) :
    past = [] ∧ current = perform first rest ∨
      ∃ answer later, past = later ++ [⟨first, answer⟩] ∧ Replays (rest answer) later current := by
  induction replays with
  | start => exact .inl ⟨rfl, rfl⟩
  | @step past action next answer _ ih =>
      rcases ih with ⟨rfl, same⟩ | ⟨before, later, rfl, replays⟩
      · cases same
        exact .inr ⟨answer, [], rfl, .start⟩
      · exact .inr ⟨before, ⟨action, answer⟩ :: later, rfl, .step replays⟩

/-- A specification still holds where its program has got to. -/
theorem Follows.along {program current : Program Action Answer Failure Final}
    (follows : Follows permitted finished [] program) {past : List (Entry Action Answer)}
    (replays : Replays program past current) : Follows permitted finished past current := by
  induction replays with
  | start => exact follows
  | step _ ih => exact ih.2 _

end Program

end CeresMpc.Interleaving
