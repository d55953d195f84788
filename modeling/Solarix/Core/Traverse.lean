import Mathlib.Data.List.Forall2

/-!
# Fallible traversals

`List.mapM` in `Option` and in `Except`, as a pointwise relation between the items and
the results.
-/

namespace Solarix.Core

section Traverse

variable {α β ε : Type}

theorem bind_eq_ok_iff {γ : Type} {x : Except ε α} {f : α → Except ε γ} {c : γ} :
    x >>= f = .ok c ↔ ∃ a, x = .ok a ∧ f a = .ok c := by
  cases x <;> simp [bind, Except.bind]

theorem mapM_eq_some {f : α → Option β} {xs : List α} {ys : List β} :
    xs.mapM f = some ys ↔ List.Forall₂ (fun x y => f x = some y) xs ys := by
  induction xs generalizing ys with
  | nil =>
      rw [List.mapM_nil, List.forall₂_nil_left_iff]
      exact ⟨fun h => (Option.some.inj h).symm, fun h => h ▸ rfl⟩
  | cons x xs ih =>
      rw [List.mapM_cons, List.forall₂_cons_left_iff]
      simp only [← ih]
      cases f x <;> cases xs.mapM f <;> simp [eq_comm]

theorem mapM_eq_ok {f : α → Except ε β} {xs : List α} {ys : List β} :
    xs.mapM f = .ok ys ↔ List.Forall₂ (fun x y => f x = .ok y) xs ys := by
  induction xs generalizing ys with
  | nil =>
      rw [List.mapM_nil, List.forall₂_nil_left_iff]
      exact ⟨fun h => (Except.ok.inj h).symm, fun h => h ▸ rfl⟩
  | cons x xs ih =>
      rw [List.mapM_cons, List.forall₂_cons_left_iff]
      simp only [← ih]
      cases f x <;> cases xs.mapM f <;> simp [bind, Except.bind, pure, Except.pure, eq_comm]

theorem exists_forall₂ {R : α → β → Prop} {xs : List α} :
    (∃ ys, List.Forall₂ R xs ys) ↔ ∀ x ∈ xs, ∃ y, R x y := by
  induction xs with
  | nil => simp
  | cons x xs ih =>
      rw [List.forall_mem_cons, ← ih]
      constructor
      · intro h
        obtain ⟨ys, hys⟩ := h
        obtain ⟨y, ys, hy, hys, -⟩ := List.forall₂_cons_left_iff.mp hys
        exact ⟨⟨y, hy⟩, ys, hys⟩
      · intro h
        obtain ⟨⟨y, hy⟩, ys, hys⟩ := h
        exact ⟨y :: ys, List.Forall₂.cons hy hys⟩

theorem exists_mapM_eq_ok {f : α → Except ε β} {xs : List α} :
    (∃ ys, xs.mapM f = .ok ys) ↔ ∀ x ∈ xs, ∃ y, f x = .ok y := by
  simp only [mapM_eq_ok]
  exact exists_forall₂

theorem exists_of_mem_forall₂ {R : α → β → Prop} {xs : List α} {ys : List β}
    (h : List.Forall₂ R xs ys) {x : α} (hx : x ∈ xs) : ∃ y ∈ ys, R x y := by
  induction h with
  | nil => cases hx
  | @cons _ y _ ys hxy _ ih =>
      rcases List.mem_cons.mp hx with rfl | hx
      · exact ⟨y, List.mem_cons_self, hxy⟩
      · obtain ⟨z, hz, hxz⟩ := ih hx
        exact ⟨z, List.mem_cons_of_mem y hz, hxz⟩

theorem forall_mem_iff_of_forall₂ {R S : α → β → Prop} {P : α → Prop}
    (hiff : ∀ x y, R x y → (S x y ↔ P x)) {xs : List α} {ys : List β}
    (h : List.Forall₂ R xs ys) : List.Forall₂ S xs ys ↔ ∀ x ∈ xs, P x := by
  induction h with
  | nil => simp
  | cons hxy _ ih => rw [List.forall₂_cons, List.forall_mem_cons, ih, hiff _ _ hxy]

/-! ## Concatenated results -/

def collect (f : α → Except ε (List β)) (xs : List α) : Except ε (List β) :=
  (xs.mapM f).map List.flatten

theorem collect_cons (f : α → Except ε (List β)) (x : α) (xs : List α) :
    collect f (x :: xs) = f x >>= fun ys => (collect f xs).map (ys ++ ·) := by
  rw [collect, List.mapM_cons, collect]
  cases f x <;> cases xs.mapM f <;> rfl

theorem collect_append (f : α → Except ε (List β)) (xs ys : List α) :
    collect f (xs ++ ys) = collect f xs >>= fun zs => (collect f ys).map (zs ++ ·) := by
  rw [collect, List.mapM_append, collect, collect]
  cases xs.mapM f <;> cases ys.mapM f <;>
    simp [Except.map, bind, Except.bind, pure, Except.pure]

theorem collect_flatMap {γ : Type} (f : γ → Except ε (List β)) (cut : α → List γ)
    (xs : List α) : collect f (xs.flatMap cut) = collect (fun x => collect f (cut x)) xs := by
  induction xs with
  | nil => rfl
  | cons x xs ih => rw [List.flatMap_cons, collect_append, collect_cons, ih]

theorem collect_eq_ok {f : α → Except ε (List β)} {g : α → List β} {xs : List α}
    (h : ∀ x ∈ xs, f x = .ok (g x)) : collect f xs = .ok (xs.flatMap g) := by
  induction xs with
  | nil => rfl
  | cons x xs ih =>
      rw [List.forall_mem_cons] at h
      rw [collect_cons, h.1, ih h.2]
      rfl

theorem exists_of_collect_eq_ok {f : α → Except ε (List β)} {xs : List α} {zs : List β}
    (h : collect f xs = .ok zs) : ∀ x ∈ xs, ∃ ys, f x = .ok ys := by
  unfold collect at h
  cases hmap : xs.mapM f with
  | error e =>
      rw [hmap] at h
      cases h
  | ok replies => exact exists_mapM_eq_ok.mp ⟨replies, hmap⟩

theorem exists_of_collect_eq_error {f : α → Except ε (List β)} {xs : List α} {e : ε}
    (h : collect f xs = .error e) : ∃ x ∈ xs, f x = .error e := by
  induction xs with
  | nil => cases h
  | cons x xs ih =>
      rw [collect_cons] at h
      cases hx : f x with
      | error e' =>
          rw [hx] at h
          cases h
          exact ⟨x, List.mem_cons_self, hx⟩
      | ok ys =>
          rw [hx] at h
          cases hxs : collect f xs with
          | error e' =>
              change (collect f xs).map (ys ++ ·) = .error e at h
              rw [hxs] at h
              cases h
              obtain ⟨y, hy, hfail⟩ := ih hxs
              exact ⟨y, List.mem_cons_of_mem x hy, hfail⟩
          | ok zs =>
              change (collect f xs).map (ys ++ ·) = .error e at h
              rw [hxs] at h
              cases h

end Traverse

end Solarix.Core
