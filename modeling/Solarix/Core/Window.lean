import Mathlib.Data.Finset.Card
import Mathlib.Data.Finset.Dedup
import Mathlib.Data.List.Nodup

/-!
# A window of what was kept last

A list in which an item is kept unless its key is among the last `n` that were kept.  A
queue and a set of at most `n` keys are enough to decide it.
-/

namespace Solarix.Core

section Window

variable {α κ : Type}

def recent (n : Nat) (items : List α) : List α := items.drop (items.length - n)

theorem length_recent (n : Nat) (items : List α) :
    (recent n items).length = min n items.length := by
  rw [recent, List.length_drop]
  omega

theorem recent_of_length_le {n : Nat} {items : List α} (h : items.length ≤ n) :
    recent n items = items := by
  rw [recent, Nat.sub_eq_zero_of_le h, List.drop_zero]

theorem recent_concat_of_lt {n : Nat} {items : List α} (h : items.length < n) (item : α) :
    recent n (items ++ [item]) = recent n items ++ [item] := by
  have hlength : (items ++ [item]).length ≤ n := by
    rw [List.length_append, List.length_singleton]
    omega
  rw [recent_of_length_le hlength, recent_of_length_le h.le]

theorem recent_concat_of_le {n : Nat} (hn : 1 ≤ n) {items : List α} (h : n ≤ items.length)
    (item : α) : recent n (items ++ [item]) = (recent n items).tail ++ [item] := by
  have hlength : (items ++ [item]).length - n = items.length - n + 1 := by
    rw [List.length_append, List.length_singleton]
    omega
  have hle : items.length - n + 1 ≤ items.length := by omega
  rw [recent, hlength, List.drop_append_of_le_length hle, recent, List.tail_drop]

variable [DecidableEq κ] (key : α → κ) (n : Nat)

/-- Keep an item unless its key is among the last `n` that were kept. -/
def keepUnseen (items : List α) : List α :=
  items.foldl (fun kept item =>
    if key item ∈ recent n (kept.map key) then kept else kept ++ [item]) []

variable {key n}

theorem keepUnseen_concat (items : List α) (item : α) :
    keepUnseen key n (items ++ [item]) =
      if key item ∈ recent n ((keepUnseen key n items).map key) then keepUnseen key n items
      else keepUnseen key n items ++ [item] := by
  rw [keepUnseen, List.foldl_concat, ← keepUnseen]

theorem keepUnseen_concat_of_mem {items : List α} {item : α}
    (h : key item ∈ recent n ((keepUnseen key n items).map key)) :
    keepUnseen key n (items ++ [item]) = keepUnseen key n items := by
  rw [keepUnseen_concat, if_pos h]

theorem keepUnseen_concat_of_not_mem {items : List α} {item : α}
    (h : key item ∉ recent n ((keepUnseen key n items).map key)) :
    keepUnseen key n (items ++ [item]) = keepUnseen key n items ++ [item] := by
  rw [keepUnseen_concat, if_neg h]

/-! ## A set and a queue -/

/-- The set holds what is in the queue, which is the window of the given keys. -/
structure IsWindow (n : Nat) (keys : List κ) (seen : Finset κ) (order : List κ) : Prop where
  seen : seen = order.toFinset
  nodup : order.Nodup
  length : order.length ≤ n
  order : order = recent n keys

variable {keys : List κ} {seen : Finset κ} {order : List κ} {k : κ}

theorem isWindow_nil (n : Nat) : IsWindow n [] (∅ : Finset κ) [] where
  seen := rfl
  nodup := List.nodup_nil
  length := Nat.zero_le n
  order := by simp [recent]

theorem IsWindow.mem_seen (h : IsWindow n keys seen order) : k ∈ seen ↔ k ∈ recent n keys := by
  rw [h.seen, List.mem_toFinset, h.order]

theorem IsWindow.card_seen (h : IsWindow n keys seen order) : seen.card = order.length := by
  rw [h.seen, List.toFinset_card_of_nodup h.nodup]

theorem IsWindow.insert_of_lt (h : IsWindow n keys seen order) (hk : k ∉ seen)
    (hlt : seen.card < n) : IsWindow n (keys ++ [k]) (insert k seen) (order ++ [k]) := by
  have hlength : order.length < n := h.card_seen ▸ hlt
  have hkeys : keys.length < n := by
    have := length_recent n keys
    rw [← h.order] at this
    omega
  have hmem : k ∉ order := by
    rwa [h.seen, List.mem_toFinset] at hk
  refine ⟨?_, ?_, ?_, ?_⟩
  · rw [h.seen]
    ext x
    simp
  · rw [List.nodup_append_comm]
    exact List.nodup_cons.mpr ⟨hmem, h.nodup⟩
  · rw [List.length_append, List.length_singleton]
    omega
  · rw [recent_concat_of_lt hkeys, ← h.order]

theorem IsWindow.insert_of_le (h : IsWindow n keys seen order) (hn : 1 ≤ n) (hk : k ∉ seen)
    (hle : n ≤ seen.card) :
    ∃ oldest rest, order = oldest :: rest ∧
      IsWindow n (keys ++ [k]) (insert k (seen.erase oldest)) (rest ++ [k]) := by
  have hlength : order.length = n := le_antisymm h.length (h.card_seen ▸ hle)
  have hkeys : n ≤ keys.length := by
    have := length_recent n keys
    rw [← h.order] at this
    omega
  have hmem : k ∉ order := by
    rwa [h.seen, List.mem_toFinset] at hk
  cases horder : order with
  | nil =>
      rw [horder, List.length_nil] at hlength
      omega
  | cons oldest rest =>
      have hnodup := h.nodup
      have hwindow := h.order
      rw [horder] at hnodup hwindow hmem hlength
      obtain ⟨holdest, hrest⟩ := List.nodup_cons.mp hnodup
      have hkrest : k ∉ rest := fun hkrest => hmem (List.mem_cons_of_mem _ hkrest)
      refine ⟨oldest, rest, rfl, ?_, ?_, ?_, ?_⟩
      · rw [h.seen, horder]
        ext x
        simp only [Finset.mem_insert, Finset.mem_erase, List.mem_toFinset, List.mem_cons,
          List.mem_append, List.not_mem_nil, or_false]
        constructor
        · rintro (rfl | ⟨hne, rfl | hx⟩)
          · exact .inr rfl
          · contradiction
          · exact .inl hx
        · rintro (hx | rfl)
          · exact .inr ⟨fun heq => holdest (heq ▸ hx), .inr hx⟩
          · exact .inl rfl
      · rw [List.nodup_append_comm]
        exact List.nodup_cons.mpr ⟨hkrest, hrest⟩
      · rw [List.length_cons] at hlength
        rw [List.length_append, List.length_singleton]
        omega
      · rw [recent_concat_of_le hn hkeys, ← hwindow, List.tail_cons]

end Window

end Solarix.Core
