import Solarix.Registry.Canonical

/-!
# Containment of JSON values

The operator `@>` of PostgreSQL on `jsonb`, over the equality of scalars.  An object contains
another when it has each of its keys with a value that contains the other's, an array when each
item of the other is contained in some item of it.
-/

namespace Solarix.Json

section Containment

variable (same : Json → Json → Bool)

mutual

/-- The second value is contained in the first.  `same` is the equality of scalars. -/
def contains (stored : Json) : Json → Bool
  | .arr items =>
      match stored with
      | .arr elements => containsItems elements items
      | _ => false
  | .obj entries =>
      match stored with
      | .obj fields => containsEntries fields entries
      | _ => false
  | value => same stored value

def containsItems (elements : List Json) : List Json → Bool
  | [] => true
  | item :: items => elements.any (contains · item) && containsItems elements items

def containsEntries (fields : List (String × Json)) : List (String × Json) → Bool
  | [] => true
  | (key, value) :: entries =>
      (fields.find? fun field => field.1 == key).any (fun field => contains field.2 value) &&
        containsEntries fields entries

end

variable {same}

theorem contains_leaf {value : Json} (h : value.isLeaf = true) (stored : Json) :
    contains same stored value = same stored value := by
  cases value with
  | arr items => simp [isLeaf] at h
  | obj entries => simp [isLeaf] at h
  | _ => simp [contains]

@[simp] theorem containsItems_iff (elements items : List Json) :
    containsItems same elements items = true ↔
      ∀ item ∈ items, ∃ element ∈ elements, contains same element item = true := by
  induction items with
  | nil => simp [containsItems]
  | cons item items ih =>
      rw [containsItems, Bool.and_eq_true, ih, List.forall_mem_cons, List.any_eq_true]

@[simp] theorem containsEntries_iff (fields entries : List (String × Json)) :
    containsEntries same fields entries = true ↔
      ∀ entry ∈ entries, ∃ field, (fields.find? fun field => field.1 == entry.1) = some field ∧
        contains same field.2 entry.2 = true := by
  induction entries with
  | nil => simp [containsEntries]
  | cons entry entries ih =>
      rw [containsEntries, Bool.and_eq_true, ih, List.forall_mem_cons, Option.any_eq_true]

theorem contains_singleton (data value : Json) (key : String) :
    contains same data (ofEntries [(key, value)]) =
      (data.field? key).any fun stored => contains same stored value := by
  change contains same data (.obj [(key, value)]) = _
  cases data with
  | obj fields =>
      rw [contains, containsEntries, containsEntries, Bool.and_true, field?, Option.any_map]
  | _ => rfl

theorem contains_self (hsame : ∀ value : Json, value.isLeaf = true → same value value = true)
    {value : Json} (hkeys : value.DistinctKeys) : contains same value value = true := by
  induction value using inductionOn with
  | leaf value hleaf => rw [contains_leaf hleaf, hsame value hleaf]
  | arr items ih =>
      rw [DistinctKeys, everyObject_arr] at hkeys
      rw [contains, containsItems_iff]
      intro item hitem
      exact ⟨item, hitem, ih item hitem (hkeys item hitem)⟩
  | obj entries ih =>
      rw [DistinctKeys, everyObject_obj] at hkeys
      rw [contains, containsEntries_iff]
      intro entry hentry
      exact ⟨entry, find?_of_nodup hkeys.1 hentry, ih entry hentry (hkeys.2 entry hentry)⟩

end Containment

mutual

/-- The numbers are integers that 64 bits have room for, and the nesting goes no deeper than
`depth`. -/
def Exact : Nat → Json → Prop
  | _, .int z => -2 ^ 63 ≤ z ∧ z < 2 ^ 64
  | _, .float _ => False
  | depth, .arr items => 0 < depth ∧ ExactItems (depth - 1) items
  | depth, .obj entries => 0 < depth ∧ ExactEntries (depth - 1) entries
  | _, _ => True

def ExactItems : Nat → List Json → Prop
  | _, [] => True
  | depth, item :: items => Exact depth item ∧ ExactItems depth items

def ExactEntries : Nat → List (String × Json) → Prop
  | _, [] => True
  | depth, (_, value) :: entries => Exact depth value ∧ ExactEntries depth entries

end

end Solarix.Json
