import Mathlib.Data.List.Nodup

/-!
# Custody of values in a table

A history of puts and takes on a table, newest first. A value is known by its
token, which amending it in place does not change. When every token is put once,
it is in one place at a time: under one key, or with the one who took it.
-/

set_option autoImplicit false

namespace CeresMpc.Interleaving.Custody

inductive Event (Key Value : Type) where
  | put (key : Key) (value : Value)
  /-- The entry is taken out by a caller who gets what was there. -/
  | take (key : Key) (found : Option Value)
  /-- The entry is thrown away. -/
  | evict (key : Key)
  | amend (key : Key) (change : Value → Value)

variable {Key Value Token : Type}

/-- Everything ever put, with the key it was put under. -/
def put : List (Event Key Value) → List (Key × Value)
  | [] => []
  | .put key value :: earlier => (key, value) :: put earlier
  | _ :: earlier => put earlier

def taken : List (Event Key Value) → List Value
  | [] => []
  | .take _ (some value) :: earlier => value :: taken earlier
  | _ :: earlier => taken earlier

theorem taken_sublist (event : Event Key Value) (earlier : List (Event Key Value)) :
    (taken earlier).Sublist (taken (event :: earlier)) := by
  cases event with
  | take key found =>
      cases found with
      | none => exact List.Sublist.refl _
      | some value => exact List.sublist_cons_self _ _
  | put key value => exact List.Sublist.refl _
  | evict key => exact List.Sublist.refl _
  | amend key change => exact List.Sublist.refl _

variable [DecidableEq Key]

def contents : List (Event Key Value) → Key → Option Value
  | [], _ => none
  | .put key value :: earlier, slot => if slot = key then some value else contents earlier slot
  | .take key _ :: earlier, slot => if slot = key then none else contents earlier slot
  | .evict key :: earlier, slot => if slot = key then none else contents earlier slot
  | .amend key change :: earlier, slot =>
      if slot = key then (contents earlier slot).map change else contents earlier slot

/-- What an event makes of the table before it. -/
def Event.effect (event : Event Key Value) (table : Key → Option Value) (slot : Key) : Option Value :=
  match event with
  | .put key value => if slot = key then some value else table slot
  | .take key _ => if slot = key then none else table slot
  | .evict key => if slot = key then none else table slot
  | .amend key change => if slot = key then (table slot).map change else table slot

/-- The key an event is about. -/
def Event.key : Event Key Value → Key
  | .put key _ | .take key _ | .evict key | .amend key _ => key

theorem Event.effect_of_ne (event : Event Key Value) {table : Key → Option Value} {slot : Key}
    (elsewhere : slot ≠ event.key) : event.effect table slot = table slot := by
  cases event <;> exact if_neg elsewhere

theorem contents_effect (event : Event Key Value) (earlier : List (Event Key Value)) (slot : Key) :
    contents (event :: earlier) slot = event.effect (contents earlier) slot := by
  cases event <;> rfl

theorem contents_amend_isSome (key slot : Key) (change : Value → Value) (earlier : List (Event Key Value)) :
    (contents (.amend key change :: earlier) slot).isSome = (contents earlier slot).isSome := by
  by_cases same : slot = key <;> simp [contents, same]

/-- Every take got what was in the table, and amending keeps tokens. -/
def Faithful (token : Value → Token) : List (Event Key Value) → Prop
  | [] => True
  | .take key found :: earlier => found = contents earlier key ∧ Faithful token earlier
  | .amend _ change :: earlier => (∀ value, token (change value) = token value) ∧ Faithful token earlier
  | .put _ _ :: earlier => Faithful token earlier
  | .evict _ :: earlier => Faithful token earlier

variable {token : Value → Token} {history earlier : List (Event Key Value)}

theorem Faithful.tail {event : Event Key Value} (faithful : Faithful token (event :: earlier)) :
    Faithful token earlier := by
  cases event with
  | put key value => exact faithful
  | evict key => exact faithful
  | take key found => exact faithful.2
  | amend key change => exact faithful.2

theorem Faithful.suffix {later : List (Event Key Value)}
    (faithful : Faithful token (later ++ earlier)) : Faithful token earlier := by
  induction later with
  | nil => exact faithful
  | cons event later ih => exact ih faithful.tail

theorem Faithful.comp {Coarser : Type} (faithful : Faithful token history) (coarsen : Token → Coarser) :
    Faithful (coarsen ∘ token) history := by
  induction history with
  | nil => trivial
  | cons event earlier ih =>
      cases event with
      | put key value => exact ih faithful
      | evict key => exact ih faithful
      | take key found => exact ⟨faithful.1, ih faithful.2⟩
      | amend key change => exact ⟨fun value => congrArg coarsen (faithful.1 value), ih faithful.2⟩

/-- What is in a table was there before the newest event or is put by it. -/
theorem contents_cons {event : Event Key Value} {key : Key} {value : Value}
    (faithful : Faithful token (event :: earlier))
    (held : contents (event :: earlier) key = some value) :
    event = .put key value ∨
      ∃ old, contents earlier key = some old ∧ token old = token value := by
  cases event with
  | put slot stored =>
      by_cases same : key = slot
      · obtain rfl : stored = value := by simpa [contents, same] using held
        exact .inl (by rw [same])
      · exact .inr ⟨value, by simpa [contents, same] using held, rfl⟩
  | take slot found =>
      by_cases same : key = slot
      · simp [contents, same] at held
      · exact .inr ⟨value, by simpa [contents, same] using held, rfl⟩
  | evict slot =>
      by_cases same : key = slot
      · simp [contents, same] at held
      · exact .inr ⟨value, by simpa [contents, same] using held, rfl⟩
  | amend slot change =>
      by_cases same : key = slot
      · subst same
        simp only [contents, if_true, Option.map_eq_some_iff] at held
        obtain ⟨old, before, rfl⟩ := held
        exact .inr ⟨old, before, (faithful.1 old).symm⟩
      · exact .inr ⟨value, by simpa [contents, same] using held, rfl⟩

/-- What is in the table was put there under the same key. -/
theorem put_of_contents (faithful : Faithful token history) {key : Key} {value : Value}
    (held : contents history key = some value) :
    ∃ stored, (key, stored) ∈ put history ∧ token stored = token value := by
  induction history generalizing value with
  | nil => simp [contents] at held
  | cons event earlier ih =>
      rcases contents_cons faithful held with rfl | ⟨old, before, same⟩
      · exact ⟨value, by simp [put], rfl⟩
      · obtain ⟨stored, member, kept⟩ := ih faithful.tail before
        refine ⟨stored, ?_, kept.trans same⟩
        cases event <;> simp [put, member]

/-- What is in a table that was empty has been put there since. -/
theorem put_since_empty {later : List (Event Key Value)} {key : Key} {value : Value}
    (empty : contents earlier key = none) (held : contents (later ++ earlier) key = some value) :
    ∃ stored, (key, stored) ∈ put later := by
  induction later generalizing value with
  | nil =>
      rw [List.nil_append, empty] at held
      cases held
  | cons event later ih =>
      cases event with
      | put slot stored =>
          by_cases same : key = slot
          · exact ⟨stored, by simp [put, same]⟩
          · obtain ⟨other, member⟩ := ih (by simpa [contents, same] using held)
            exact ⟨other, List.mem_cons_of_mem _ member⟩
      | take slot found =>
          by_cases same : key = slot
          · simp [contents, same] at held
          · exact ih (by simpa [contents, same] using held)
      | evict slot =>
          by_cases same : key = slot
          · simp [contents, same] at held
          · exact ih (by simpa [contents, same] using held)
      | amend slot change =>
          by_cases same : key = slot
          · subst same
            simp only [List.cons_append, contents, if_true, Option.map_eq_some_iff] at held
            obtain ⟨old, before, _⟩ := held
            exact ih before
          · exact ih (by simpa [contents, same] using held)

/-- What was taken was put there. -/
theorem put_of_taken (faithful : Faithful token history) {value : Value}
    (member : value ∈ taken history) :
    ∃ key stored, (key, stored) ∈ put history ∧ token stored = token value := by
  induction history with
  | nil => simp [taken] at member
  | cons event earlier ih =>
      have before := ih faithful.tail
      cases event with
      | put slot fresh =>
          obtain ⟨key, stored, old, same⟩ := before member
          exact ⟨key, stored, List.mem_cons_of_mem _ old, same⟩
      | evict slot => exact before member
      | amend slot change => exact before member
      | take slot found =>
          cases found with
          | none => exact before member
          | some held =>
              rcases List.mem_cons.mp member with rfl | member
              · exact ⟨slot, put_of_contents faithful.2 faithful.1.symm⟩
              · exact before member

/-- Each token is in one place: taken at most once, under at most one key, and
not both. -/
structure Unique (token : Value → Token) (history : List (Event Key Value)) : Prop where
  taken_once : ((taken history).map token).Nodup
  gone : ∀ {key value}, contents history key = some value →
    token value ∉ (taken history).map token
  one_key : ∀ {key other value copy}, contents history key = some value →
    contents history other = some copy → token value = token copy → key = other

private theorem Unique.cons {event : Event Key Value} (unique : Unique token earlier)
    (faithful : Faithful token (event :: earlier)) (sameTaken : taken (event :: earlier) = taken earlier)
    (noPut : ∀ key value, event ≠ .put key value) : Unique token (event :: earlier) := by
  have kept : ∀ {key value}, contents (event :: earlier) key = some value →
      ∃ old, contents earlier key = some old ∧ token old = token value := fun {key value} held => by
    rcases contents_cons faithful held with rfl | ⟨old, before, same⟩
    · exact absurd rfl (noPut key value)
    · exact ⟨old, before, same⟩
  refine ⟨sameTaken ▸ unique.taken_once, fun {key value} held => ?_,
    fun {key other value copy} held copied same => ?_⟩
  · obtain ⟨old, before, oldSame⟩ := kept held
    rw [sameTaken, ← oldSame]
    exact unique.gone before
  · obtain ⟨old, before, oldSame⟩ := kept held
    obtain ⟨oldCopy, copiedBefore, copySame⟩ := kept copied
    exact unique.one_key before copiedBefore (oldSame.trans (same.trans copySame.symm))

theorem unique (faithful : Faithful token history)
    (distinct : ((put history).map fun entry => token entry.2).Nodup) : Unique token history := by
  induction history with
  | nil => exact ⟨by simp [taken], by simp [contents], by simp [contents]⟩
  | cons event earlier ih =>
      have faithfulBefore := faithful.tail
      cases event with
      | evict slot => exact (ih faithfulBefore distinct).cons faithful rfl (by simp)
      | amend slot change => exact (ih faithfulBefore distinct).cons faithful rfl (by simp)
      | put slot fresh =>
          rw [put, List.map_cons, List.nodup_cons] at distinct
          have before := ih faithfulBefore distinct.2
          have unseen : ∀ key stored, (key, stored) ∈ put earlier → token stored ≠ token fresh :=
            fun key stored member same => distinct.1 (List.mem_map.mpr ⟨_, member, same⟩)
          have others : ∀ {key value}, key ≠ slot →
              contents (.put slot fresh :: earlier) key = some value →
              contents earlier key = some value := fun elsewhere held => by
            simpa [contents, elsewhere] using held
          have notFresh : ∀ {key value}, key ≠ slot →
              contents (.put slot fresh :: earlier) key = some value → token value ≠ token fresh :=
            fun elsewhere held => by
              obtain ⟨stored, member, same⟩ := put_of_contents faithfulBefore (others elsewhere held)
              rw [← same]
              exact unseen _ _ member
          refine ⟨before.taken_once, fun {key value} held => ?_,
            fun {key other value copy} held copied same => ?_⟩
          · by_cases here : key = slot
            · obtain rfl : fresh = value := by simpa [contents, here] using held
              intro member
              obtain ⟨old, wasTaken, same⟩ := List.mem_map.mp member
              obtain ⟨otherKey, stored, wasPut, sameStored⟩ := put_of_taken faithfulBefore wasTaken
              exact unseen _ _ wasPut (sameStored.trans same)
            · exact before.gone (others here held)
          · by_cases here : key = slot <;> by_cases there : other = slot
            · rw [here, there]
            · obtain rfl : fresh = value := by simpa [contents, here] using held
              exact absurd same.symm (notFresh there copied)
            · obtain rfl : fresh = copy := by simpa [contents, there] using copied
              exact absurd same (notFresh here held)
            · exact before.one_key (others here held) (others there copied) same
      | take slot found =>
          have before := ih faithfulBefore distinct
          cases found with
          | none => exact before.cons faithful rfl (by simp)
          | some stored =>
              have kept : ∀ {key value}, contents (.take slot (some stored) :: earlier) key = some value →
                  key ≠ slot ∧ contents earlier key = some value := fun {key value} held => by
                by_cases same : key = slot
                · simp [contents, same] at held
                · exact ⟨same, by simpa [contents, same] using held⟩
              refine ⟨?_, fun {key value} held => ?_, fun held copied same =>
                before.one_key (kept held).2 (kept copied).2 same⟩
              · rw [taken, List.map_cons, List.nodup_cons]
                exact ⟨before.gone faithful.1.symm, before.taken_once⟩
              · obtain ⟨elsewhere, heldBefore⟩ := kept held
                rw [taken, List.map_cons, List.mem_cons, not_or]
                exact ⟨fun same => elsewhere (before.one_key heldBefore faithful.1.symm same),
                  before.gone heldBefore⟩

end CeresMpc.Interleaving.Custody
