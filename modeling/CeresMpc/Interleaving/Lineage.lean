import Mathlib.Data.List.Nodup

/-!
# Lineages of values that are taken and put back

Holders put values into places and take them out. A holder with empty hands puts a
value of its own; one that holds a value puts that one back. A value is known by the
holder that first put it. When every holder puts once, it is in one place or in one
hand at a time.
-/

set_option autoImplicit false

namespace CeresMpc.Interleaving.Lineage

inductive Event (Place : Type) where
  | put (holder : Nat) (place : Place)
  | take (holder : Nat) (place : Place)
  /-- What is in the place is thrown away. -/
  | evict (place : Place)

/-- Where the values are, each known by its first holder. -/
structure State (Place : Type) where
  slot : Place → Option Nat
  hand : Nat → Option Nat

variable {Place : Type} [DecidableEq Place]

def state : List (Event Place) → State Place
  | [] => { slot := fun _ => none, hand := fun _ => none }
  | .put holder place :: earlier =>
      { slot := Function.update (state earlier).slot place (some (((state earlier).hand holder).getD holder))
        hand := Function.update (state earlier).hand holder none }
  | .take holder place :: earlier =>
      { slot := Function.update (state earlier).slot place none
        hand := Function.update (state earlier).hand holder ((state earlier).slot place) }
  | .evict place :: earlier =>
      { state earlier with slot := Function.update (state earlier).slot place none }

/-- Everyone who has put something. -/
def holders : List (Event Place) → List Nat
  | [] => []
  | .put holder _ :: earlier => holder :: holders earlier
  | .take _ _ :: earlier => holders earlier
  | .evict _ :: earlier => holders earlier

/-- Those who put a value of their own. -/
def roots : List (Event Place) → List Nat
  | [] => []
  | .put holder _ :: earlier =>
      match (state earlier).hand holder with
      | none => holder :: roots earlier
      | some _ => roots earlier
  | .take _ _ :: earlier => roots earlier
  | .evict _ :: earlier => roots earlier

theorem roots_subset (events : List (Event Place)) : roots events ⊆ holders events := by
  induction events with
  | nil => exact List.Subset.refl _
  | cons event earlier ih =>
      cases event with
      | take holder place => exact ih
      | evict place => exact ih
      | put holder place =>
          intro root member
          simp only [roots] at member
          split at member
          · rcases List.mem_cons.mp member with rfl | before
            · exact List.mem_cons_self
            · exact List.mem_cons_of_mem _ (ih before)
          · exact List.mem_cons_of_mem _ (ih member)

/-- A value is in one place, or in one hand, and comes from a root. -/
structure Single (state : State Place) (roots : List Nat) : Prop where
  slot_root : ∀ {place origin}, state.slot place = some origin → origin ∈ roots
  hand_root : ∀ {holder origin}, state.hand holder = some origin → origin ∈ roots
  one_place : ∀ {place other origin}, state.slot place = some origin → state.slot other = some origin → place = other
  one_hand : ∀ {holder other origin}, state.hand holder = some origin → state.hand other = some origin →
    holder = other
  apart : ∀ {place holder origin}, state.slot place = some origin → state.hand holder ≠ some origin

private theorem Single.emptied {before : State Place} {roots : List Nat} (single : Single before roots) (place : Place) :
    Single { before with slot := Function.update before.slot place none } roots := by
  have kept {slot : Place} {origin : Nat} (held : Function.update before.slot place none slot = some origin) :
      before.slot slot = some origin := by
    by_cases same : slot = place
    · subst same
      simp at held
    · simpa [same] using held
  constructor
  · intro slot origin held
    exact single.slot_root (kept held)
  · intro holder origin held
    exact single.hand_root held
  · intro slot other origin held again
    exact single.one_place (kept held) (kept again)
  · intro holder other origin held again
    exact single.one_hand held again
  · intro slot holder origin held
    exact single.apart (kept held)

private theorem Single.taken {before : State Place} {roots : List Nat} (single : Single before roots) (holder : Nat)
    (place : Place) :
    Single { slot := Function.update before.slot place none
             hand := Function.update before.hand holder (before.slot place) } roots := by
  have empty := single.emptied place
  have hands {other origin : Nat}
      (held : Function.update before.hand holder (before.slot place) other = some origin) :
      other = holder ∧ before.slot place = some origin ∨ before.hand other = some origin := by
    by_cases same : other = holder
    · subst same
      exact .inl ⟨rfl, by simpa using held⟩
    · exact .inr (by simpa [same] using held)
  constructor
  · intro slot origin held
    exact empty.slot_root held
  · intro other origin held
    rcases hands held with ⟨_, here⟩ | there
    · exact single.slot_root here
    · exact single.hand_root there
  · intro slot other origin held again
    exact empty.one_place held again
  · intro first second origin held again
    rcases hands held with ⟨rfl, here⟩ | there
    · rcases hands again with ⟨rfl, _⟩ | other
      · rfl
      · exact absurd other (single.apart here)
    · rcases hands again with ⟨rfl, here⟩ | other
      · exact absurd there (single.apart here)
      · exact single.one_hand there other
  · intro slot other origin held again
    rcases hands again with ⟨_, here⟩ | there
    · by_cases same : slot = place
      · subst same
        simp at held
      · have there : before.slot slot = some origin := by simpa [same] using held
        exact same (single.one_place there here)
    · exact empty.apart held there

private theorem Single.put {before : State Place} {roots more : List Nat} (single : Single before roots)
    {holder origin : Nat} (place : Place) (grows : roots ⊆ more) (root : origin ∈ more)
    (elsewhere : ∀ slot, before.slot slot ≠ some origin)
    (released : ∀ other, before.hand other = some origin → other = holder) :
    Single { slot := Function.update before.slot place (some origin)
             hand := Function.update before.hand holder none } more := by
  have slots {slot : Place} {found : Nat} (held : Function.update before.slot place (some origin) slot = some found) :
      slot = place ∧ found = origin ∨ before.slot slot = some found := by
    by_cases same : slot = place
    · subst same
      exact .inl ⟨rfl, by simpa using held.symm⟩
    · exact .inr (by simpa [same] using held)
  have hands {other found : Nat} (held : Function.update before.hand holder none other = some found) :
      other ≠ holder ∧ before.hand other = some found := by
    by_cases same : other = holder
    · subst same
      simp at held
    · exact ⟨same, by simpa [same] using held⟩
  constructor
  · intro slot found held
    rcases slots held with ⟨_, rfl⟩ | there
    · exact root
    · exact grows (single.slot_root there)
  · intro other found held
    exact grows (single.hand_root (hands held).2)
  · intro slot other found held again
    rcases slots held with ⟨rfl, rfl⟩ | there
    · rcases slots again with ⟨rfl, _⟩ | old
      · rfl
      · exact absurd old (elsewhere other)
    · rcases slots again with ⟨rfl, rfl⟩ | old
      · exact absurd there (elsewhere slot)
      · exact single.one_place there old
  · intro first second found held again
    exact single.one_hand (hands held).2 (hands again).2
  · intro slot other found held again
    obtain ⟨notHolder, there⟩ := hands again
    rcases slots held with ⟨_, rfl⟩ | old
    · exact notHolder (released other there)
    · exact single.apart old there

theorem single {events : List (Event Place)} (once : (holders events).Nodup) :
    Single (state events) (roots events) := by
  induction events with
  | nil =>
      constructor
      · intro place origin held
        cases held
      · intro holder origin held
        cases held
      · intro place other origin held
        cases held
      · intro holder other origin held
        cases held
      · intro place holder origin held
        cases held
  | cons event earlier ih =>
      cases event with
      | take holder place => exact (ih once).taken holder place
      | evict place => exact (ih once).emptied place
      | put holder place =>
          rw [holders, List.nodup_cons] at once
          have before := ih once.2
          cases held : (state earlier).hand holder with
          | some origin =>
              simp only [state, roots, held, Option.getD_some]
              refine before.put place (List.Subset.refl _) (before.hand_root held) ?_ ?_
              · intro slot there
                exact before.apart there held
              · intro other again
                exact before.one_hand again held
          | none =>
              simp only [state, roots, held, Option.getD_none]
              have unseen : holder ∉ roots earlier := fun member => once.1 (roots_subset earlier member)
              refine before.put place (List.subset_cons_self _ _) List.mem_cons_self ?_ ?_
              · intro slot there
                exact unseen (before.slot_root there)
              · intro other there
                exact absurd (before.hand_root there) unseen

/-- The holder of an event that changes what somebody holds. -/
def Event.holder : Event Place → Option Nat
  | .put holder _ | .take holder _ => some holder
  | .evict _ => none

/-- A hand stays as it is while its holder does nothing. -/
theorem hand_kept {holder : Nat} (later earlier : List (Event Place))
    (idle : ∀ event ∈ later, event.holder ≠ some holder) :
    (state (later ++ earlier)).hand holder = (state earlier).hand holder := by
  induction later with
  | nil => rfl
  | cons event later ih =>
      have before := ih fun other member => idle other (List.mem_cons_of_mem _ member)
      have other := idle event List.mem_cons_self
      cases event with
      | evict place => exact before
      | put by_ place =>
          have different : holder ≠ by_ := fun same => other (by rw [same]; rfl)
          simpa [state, different] using before
      | take by_ place =>
          have different : holder ≠ by_ := fun same => other (by rw [same]; rfl)
          simpa [state, different] using before

end CeresMpc.Interleaving.Lineage
