import Mathlib.Data.List.Basic
import Mathlib.Data.List.Induction
import Mathlib.Data.List.Range

/-!
# Lists in batches

`slice.chunks(size)`, the positions of a list taken batch by batch, and replies to batches
that may be short and have gaps.
-/

namespace Solarix.Core

section Batches

variable {α β : Type}

def batchCount (size n : Nat) : Nat := (n + size - 1) / size

/-- `xs.chunks(size)`: only the last one may be shorter. -/
def chunks (size : Nat) (xs : List α) : List (List α) :=
  (List.range (batchCount size xs.length)).map fun b => (xs.drop (b * size)).take size

theorem le_batchCount_mul {size n : Nat} (hsize : 0 < size) : n ≤ batchCount size n * size := by
  have hdiv := Nat.div_add_mod (n + size - 1) size
  have hmod := Nat.mod_lt (n + size - 1) hsize
  unfold batchCount
  rw [Nat.mul_comm]
  omega

theorem flatMap_take_drop (size : Nat) (xs : List α) (count : Nat) :
    (List.range count).flatMap (fun b => (xs.drop (b * size)).take size) =
      xs.take (count * size) := by
  induction count with
  | zero => simp
  | succ count ih =>
      rw [List.range_succ, List.flatMap_append, ih, List.flatMap_singleton, Nat.succ_mul,
        List.take_add]

theorem flatten_chunks {size : Nat} (hsize : 0 < size) (xs : List α) :
    (chunks size xs).flatten = xs := by
  rw [chunks, ← List.flatMap_def, flatMap_take_drop,
    List.take_of_length_le (le_batchCount_mul hsize)]

theorem sublist_of_mem_chunks {size : Nat} {xs chunk : List α} (h : chunk ∈ chunks size xs) :
    chunk.Sublist xs := by
  obtain ⟨b, _, rfl⟩ := List.mem_map.mp h
  exact (List.take_sublist _ _).trans (List.drop_sublist _ _)

theorem filterMap_sublist {f g : α → Option β} {xs : List α}
    (h : ∀ x ∈ xs, ∀ y, f x = some y → g x = some y) :
    (xs.filterMap f).Sublist (xs.filterMap g) := by
  induction xs with
  | nil => exact .slnil
  | cons x xs ih =>
      rw [List.forall_mem_cons] at h
      cases hf : f x with
      | none =>
          rw [List.filterMap_cons_none hf]
          refine (ih h.2).trans ?_
          rw [List.filterMap_cons]
          split
          · exact .refl _
          · exact List.sublist_cons_self _ _
      | some y =>
          rw [List.filterMap_cons_some hf, List.filterMap_cons_some (h.1 y hf)]
          exact (ih h.2).cons_cons y

theorem filterMap_getElem?_range (xs : List α) :
    (List.range xs.length).filterMap (fun i => xs[i]?) = xs := by
  induction xs using List.reverseRecOn with
  | nil => rfl
  | append_singleton xs x ih =>
      rw [List.length_append, List.length_singleton, List.range_succ, List.filterMap_append]
      have hfront : (List.range xs.length).filterMap (fun i => (xs ++ [x])[i]?) =
          (List.range xs.length).filterMap fun i => xs[i]? := by
        apply List.filterMap_congr
        intro i hi
        rw [List.getElem?_append_left (List.mem_range.mp hi)]
      rw [hfront, ih]
      simp

theorem range_eq_flatMap {size : Nat} (hsize : 0 < size) (n : Nat) :
    List.range n = (List.range (batchCount size n)).flatMap fun b =>
      List.range' (b * size) (min size (n - b * size)) := by
  have hbatch : ∀ b, ((List.range n).drop (b * size)).take size =
      List.range' (b * size) (min size (n - b * size)) := by
    intro b
    rw [List.range_eq_range', List.drop_range']
    rcases Nat.le_total size (n - b * size) with hle | hle
    · rw [List.take_range'_of_length_ge hle, Nat.min_eq_left hle]
      simp
    · rw [List.take_range'_of_length_le hle, Nat.min_eq_right hle]
      simp
  have hall := flatMap_take_drop size (List.range n) (batchCount size n)
  rw [List.take_of_length_le (by simpa using le_batchCount_mul hsize)] at hall
  simp only [hbatch] at hall
  exact hall.symm

theorem flatMap_zipIdx (value : List (Option α)) (f : Nat → Option α → Option β)
    (hnone : ∀ i, f i none = none) {count : Nat} (hcount : value.length ≤ count) (start : Nat) :
    (value.zipIdx start).flatMap (fun entry => (f entry.2 entry.1).toList) =
      (List.range' start count).filterMap fun i => f i (value[i - start]?).join := by
  induction value generalizing start count with
  | nil =>
      symm
      simp [hnone]
  | cons entry value ih =>
      obtain ⟨count, rfl⟩ : ∃ k, count = k + 1 := ⟨count - 1, by
        rw [List.length_cons] at hcount
        omega⟩
      have hrest := ih (Nat.le_of_succ_le_succ hcount) (start + 1)
      have hshift : (List.range' (start + 1) count).filterMap
            (fun i => f i ((entry :: value)[i - start]?).join) =
          (List.range' (start + 1) count).filterMap
            fun i => f i (value[i - (start + 1)]?).join := by
        apply List.filterMap_congr
        intro i hi
        obtain ⟨hlow, _⟩ := List.mem_range'_1.mp hi
        have hsub : i - start = i - (start + 1) + 1 := by omega
        rw [hsub, List.getElem?_cons_succ]
      rw [List.zipIdx_cons, List.flatMap_cons, hrest, List.range'_succ, List.filterMap_cons,
        hshift]
      simp only [Nat.sub_self, List.getElem?_cons_zero, Option.join_some]
      cases f start entry <;> rfl

end Batches

end Solarix.Core
