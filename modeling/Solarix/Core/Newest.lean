import Mathlib.Data.List.Basic
import Mathlib.Data.List.Induction
import Mathlib.Order.Basic
import Mathlib.Order.Lattice
import Mathlib.Tactic.Common

/-!
# Tables that keep the newest row

A row replaces the one that is kept under its key when its rank is strictly greater.  What
is kept in the end is the first row of greatest rank, and where rank and key determine a row
it does not depend on the order or the number of the insertions.
-/

namespace Solarix.Core

section Newest

variable {α κ ω : Type} [DecidableEq κ] [LinearOrder ω] (key : α → κ) (rank : α → ω)

/-- Put a row under its key unless one of the same or a greater rank is there. -/
def keepNewer (table : κ → Option α) (row : α) : κ → Option α :=
  if ∀ old ∈ table (key row), rank old < rank row then
    fun k => if k = key row then some row else table k
  else table

def keepNewest (table : κ → Option α) (rows : List α) : κ → Option α :=
  rows.foldl (keepNewer key rank) table

def FirstNewest (rows : List α) (row : α) : Prop :=
  ∃ older later, rows = older ++ row :: later ∧ (∀ other ∈ older, rank other < rank row) ∧
    ∀ other ∈ later, rank other ≤ rank row

variable {key rank} {table : κ → Option α} {row : α} {k : κ}

theorem FirstNewest.mem {rows : List α} (h : FirstNewest rank rows row) : row ∈ rows := by
  obtain ⟨older, later, rfl, _, _⟩ := h
  exact List.mem_append_right _ List.mem_cons_self

theorem FirstNewest.rank_le {rows : List α} (h : FirstNewest rank rows row) {other : α}
    (hother : other ∈ rows) : rank other ≤ rank row := by
  obtain ⟨older, later, rfl, holder, hlater⟩ := h
  rcases List.mem_append.mp hother with hother | hother
  · exact (holder other hother).le
  · rcases List.mem_cons.mp hother with rfl | hother
    · exact le_rfl
    · exact hlater other hother

theorem FirstNewest.keep {rows : List α} (h : FirstNewest rank rows row) {next : α}
    (hle : rank next ≤ rank row) : FirstNewest rank (rows ++ [next]) row := by
  obtain ⟨older, later, rfl, holder, hlater⟩ := h
  refine ⟨older, later ++ [next], by simp, holder, ?_⟩
  intro other hother
  rcases List.mem_append.mp hother with hother | hother
  · exact hlater other hother
  · rw [List.mem_singleton.mp hother]
    exact hle

theorem FirstNewest.replace {rows : List α} (h : FirstNewest rank rows row) {next : α}
    (hlt : rank row < rank next) : FirstNewest rank (rows ++ [next]) next := by
  refine ⟨rows, [], rfl, fun other hother => (h.rank_le hother).trans_lt hlt, ?_⟩
  exact List.forall_mem_nil _

theorem firstNewest_singleton (row : α) : FirstNewest rank [row] row :=
  ⟨[], [], rfl, List.forall_mem_nil _, List.forall_mem_nil _⟩

/-! ## One row -/

theorem keepNewer_of_ne (h : k ≠ key row) : keepNewer key rank table row k = table k := by
  unfold keepNewer
  split
  · exact if_neg h
  · rfl

theorem keepNewer_of_none (h : table (key row) = none) :
    keepNewer key rank table row (key row) = some row := by
  simp [keepNewer, h]

theorem keepNewer_of_some {old : α} (h : table (key row) = some old) :
    keepNewer key rank table row (key row) =
      some (if rank old < rank row then row else old) := by
  by_cases hlt : rank old < rank row
  · simp [keepNewer, h, hlt]
  · simp [keepNewer, h, hlt]

/-! ## Many rows -/

theorem keepNewest_append (rows more : List α) :
    keepNewest key rank table (rows ++ more) =
      keepNewest key rank (keepNewest key rank table rows) more :=
  List.foldl_append

theorem exists_keepNewest {old : α} (h : table k = some old) (rows : List α) :
    ∃ row, keepNewest key rank table rows k = some row ∧ rank old ≤ rank row := by
  induction rows generalizing table old with
  | nil => exact ⟨old, h, le_rfl⟩
  | cons next rows ih =>
      by_cases hkey : k = key next
      · subst hkey
        have hnext := @keepNewer_of_some _ _ _ _ _ key rank _ _ _ h
        by_cases hlt : rank old < rank next
        · rw [if_pos hlt] at hnext
          obtain ⟨row, hrow, hle⟩ := ih hnext
          exact ⟨row, hrow, hlt.le.trans hle⟩
        · rw [if_neg hlt] at hnext
          exact ih hnext
      · have hnext : keepNewer key rank table next k = some old :=
          (keepNewer_of_ne hkey).trans h
        exact ih hnext

theorem keepNewest_cases (key : α → κ) (rank : α → ω) (rows : List α) (k : κ) :
    (keepNewest key rank (fun _ => none) rows k = none ∧ ∀ row ∈ rows, key row ≠ k) ∨
      ∃ row, keepNewest key rank (fun _ => none) rows k = some row ∧
        FirstNewest rank (rows.filter fun row => key row = k) row := by
  induction rows using List.reverseRecOn with
  | nil => exact .inl ⟨rfl, List.forall_mem_nil _⟩
  | append_singleton rows next ih =>
      rw [keepNewest_append]
      change (keepNewer key rank _ next k = none ∧ _) ∨
        ∃ row, keepNewer key rank _ next k = some row ∧ _
      by_cases hkey : key next = k
      · subst hkey
        rw [List.filter_append, List.filter_cons_of_pos (by simp), List.filter_nil]
        right
        rcases ih with ⟨hnone, hall⟩ | ⟨row, hrow, hfirst⟩
        · refine ⟨next, keepNewer_of_none hnone, ?_⟩
          have hempty : (rows.filter fun row => key row = key next) = [] := by
            simpa using hall
          rw [hempty, List.nil_append]
          exact firstNewest_singleton next
        · rw [keepNewer_of_some hrow]
          by_cases hlt : rank row < rank next
          · exact ⟨next, by rw [if_pos hlt], hfirst.replace hlt⟩
          · exact ⟨row, by rw [if_neg hlt], hfirst.keep (not_lt.mp hlt)⟩
      · rw [keepNewer_of_ne (Ne.symm hkey), List.filter_append,
          List.filter_cons_of_neg (by simpa using hkey), List.filter_nil, List.append_nil]
        rcases ih with ⟨hnone, hall⟩ | hsome
        · refine .inl ⟨hnone, fun row hrow => ?_⟩
          rcases List.mem_append.mp hrow with hrow | hrow
          · exact hall row hrow
          · rw [List.mem_singleton.mp hrow]
            exact hkey
        · exact .inr hsome

/-- Where key and rank determine a row, only which rows are inserted counts. -/
theorem keepNewest_congr {rows others : List α}
    (hdetermined : ∀ a ∈ rows, ∀ b ∈ rows, key a = key b → rank a = rank b → a = b)
    (hmem : ∀ row, row ∈ rows ↔ row ∈ others) :
    keepNewest key rank (fun _ => none) rows = keepNewest key rank (fun _ => none) others := by
  funext k
  rcases keepNewest_cases key rank rows k with ⟨hnone, hall⟩ | ⟨row, hrow, hfirst⟩
  · rcases keepNewest_cases key rank others k with ⟨hnone', _⟩ | ⟨other, _, hfirst'⟩
    · rw [hnone, hnone']
    · obtain ⟨hother, hkey⟩ := List.mem_filter.mp hfirst'.mem
      exact absurd (by simpa using hkey) (hall other ((hmem other).mpr hother))
  · obtain ⟨hmemrow, hkey⟩ := List.mem_filter.mp hfirst.mem
    have hkey : key row = k := by simpa using hkey
    rcases keepNewest_cases key rank others k with ⟨_, hall'⟩ | ⟨other, hother, hfirst'⟩
    · exact absurd hkey (hall' row ((hmem row).mp hmemrow))
    · obtain ⟨hmemother, hkey'⟩ := List.mem_filter.mp hfirst'.mem
      have hkey' : key other = k := by simpa using hkey'
      have hle : rank row ≤ rank other :=
        hfirst'.rank_le (List.mem_filter.mpr ⟨(hmem row).mp hmemrow, by simpa using hkey⟩)
      have hge : rank other ≤ rank row :=
        hfirst.rank_le (List.mem_filter.mpr ⟨(hmem other).mpr hmemother, by simpa using hkey'⟩)
      have heq : row = other := hdetermined row hmemrow other ((hmem other).mpr hmemother)
        (hkey.trans hkey'.symm) (le_antisymm hle hge)
      rw [hrow, hother, heq]

end Newest

end Solarix.Core
