import Mathlib.Data.List.Nodup
import Mathlib.Data.List.Perm.Basic

/-!
# Tables with a unique key

Rows are inserted where their key is new and ignored otherwise.  As long as rows with
one key are one row, the table is the set of what was inserted, in whatever order and
however often.
-/

namespace Solarix.Core

section KeyedTable

variable {α κ : Type} (key : α → κ)

def KeyDetermines (rows : List α) : Prop :=
  ∀ a ∈ rows, ∀ b ∈ rows, key a = key b → a = b

variable {key}

theorem KeyDetermines.mono {rows more : List α} (h : KeyDetermines key more)
    (hsub : ∀ row ∈ rows, row ∈ more) : KeyDetermines key rows := by
  intro a ha b hb
  exact h a (hsub a ha) b (hsub b hb)

theorem perm_of_mem_iff {table other : List α} (h : (table.map key).Nodup)
    (h' : (other.map key).Nodup) (hmem : ∀ row, row ∈ table ↔ row ∈ other) :
    table.Perm other :=
  (List.perm_ext_iff_of_nodup h.of_map h'.of_map).mpr hmem

variable [DecidableEq κ] (key)

def insertNew (table : List α) (row : α) : List α :=
  if key row ∈ table.map key then table else table ++ [row]

def insertAll (table rows : List α) : List α := rows.foldl (insertNew key) table

variable {key}

theorem insertAll_append (table rows more : List α) :
    insertAll key table (rows ++ more) = insertAll key (insertAll key table rows) more :=
  List.foldl_append

theorem insertAll_extends (table rows : List α) : table <+: insertAll key table rows := by
  induction rows generalizing table with
  | nil => exact List.prefix_rfl
  | cons row rows ih =>
      refine List.IsPrefix.trans ?_ (ih (insertNew key table row))
      unfold insertNew
      split
      · exact List.prefix_rfl
      · exact List.prefix_append _ _

theorem mem_insertNew {table : List α} {row other : α}
    (h : KeyDetermines key (row :: table)) :
    other ∈ insertNew key table row ↔ other ∈ table ∨ other = row := by
  unfold insertNew
  split
  · rename_i hmem
    obtain ⟨old, hold, hkey⟩ := List.mem_map.mp hmem
    have heq : old = row :=
      h old (List.mem_cons_of_mem _ hold) row List.mem_cons_self hkey
    rw [heq] at hold
    constructor
    · exact Or.inl
    · rintro (hother | rfl)
      · exact hother
      · exact hold
  · rw [List.mem_append, List.mem_singleton]

theorem mem_insertAll {table rows : List α} {row : α}
    (h : KeyDetermines key (table ++ rows)) :
    row ∈ insertAll key table rows ↔ row ∈ table ∨ row ∈ rows := by
  induction rows generalizing table with
  | nil => simp [insertAll]
  | cons first rows ih =>
      have hfirst : KeyDetermines key (first :: table) := by
        apply h.mono
        intro other hother
        rcases List.mem_cons.mp hother with rfl | hother
        · exact List.mem_append_right _ List.mem_cons_self
        · exact List.mem_append_left _ hother
      have hrest : KeyDetermines key (insertNew key table first ++ rows) := by
        apply h.mono
        intro other hother
        rcases List.mem_append.mp hother with hother | hother
        · rcases (mem_insertNew hfirst).mp hother with hold | rfl
          · exact List.mem_append_left _ hold
          · exact List.mem_append_right _ List.mem_cons_self
        · exact List.mem_append_right _ (List.mem_cons_of_mem _ hother)
      show row ∈ insertAll key (insertNew key table first) rows ↔ _
      rw [ih hrest, mem_insertNew hfirst, List.mem_cons, or_assoc]

/-- Of the rows with one key the first is kept, and none if the table has one already. -/
theorem mem_insertAll_iff_first {table rows : List α} {row : α} :
    row ∈ insertAll key table rows ↔
      row ∈ table ∨ key row ∉ table.map key ∧
        rows.find? (fun other => key other = key row) = some row := by
  induction rows generalizing table with
  | nil => simp [insertAll]
  | cons first rows ih =>
      show row ∈ insertAll key (insertNew key table first) rows ↔ _
      rw [ih, insertNew, List.find?_cons]
      by_cases htaken : key first ∈ table.map key
      · rw [if_pos htaken]
        by_cases hsame : key first = key row
        · rw [← hsame]
          simp only [htaken, not_true_eq_false, false_and]
        · simp only [hsame, decide_false]
      · rw [if_neg htaken, List.map_append, List.map_singleton]
        by_cases hsame : key first = key row
        · rw [← hsame]
          simp only [List.mem_append, List.mem_singleton, or_true, not_true_eq_false, false_and,
            or_false, decide_true, htaken, not_false_eq_true, true_and, Option.some.injEq]
          exact or_congr_right eq_comm
        · have hne : row ≠ first := by
            rintro rfl
            exact hsame rfl
          simp only [List.mem_append, List.mem_singleton, hne, or_false, Ne.symm hsame, hsame,
            decide_false]

theorem nodup_insertNew {table : List α} (row : α) (h : (table.map key).Nodup) :
    ((insertNew key table row).map key).Nodup := by
  unfold insertNew
  split
  · exact h
  · rename_i hnew
    rw [List.map_append, List.map_singleton, ← List.concat_eq_append]
    exact h.concat hnew

theorem nodup_insertAll {table : List α} (rows : List α) (h : (table.map key).Nodup) :
    ((insertAll key table rows).map key).Nodup := by
  induction rows generalizing table with
  | nil => exact h
  | cons row rows ih => exact ih (nodup_insertNew row h)

theorem length_le_insertAll (table rows : List α) :
    table.length ≤ (insertAll key table rows).length := by
  induction rows generalizing table with
  | nil => exact Nat.le_refl _
  | cons row rows ih =>
      refine Nat.le_trans ?_ (ih (insertNew key table row))
      unfold insertNew
      split
      · exact Nat.le_refl _
      · rw [List.length_append]
        exact Nat.le_add_right _ _

end KeyedTable

end Solarix.Core
