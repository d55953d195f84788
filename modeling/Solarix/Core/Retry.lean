import Mathlib.Data.Nat.Basic

/-!
# Retrying

An operation is attempted until it gives something other than an error that is worth a retry,
or until the back-off is used up.  What comes out is the outcome of the last attempt.
-/

namespace Solarix.Core

section Retry

variable {ε α : Type} (retryable : ε → Bool) (attempt : Nat → Except ε α)

/-- The outcome of the last attempt, from the `i`-th on, and the number of retries.  The budget
is how many delays the back-off yields. -/
def retry : Nat → Nat → Except ε α × Nat
  | 0, i => (attempt i, 0)
  | budget + 1, i =>
      match attempt i with
      | .ok a => (.ok a, 0)
      | .error e =>
          if retryable e then
            let (result, retries) := retry budget (i + 1)
            (result, retries + 1)
          else (.error e, 0)

def Retryable (outcome : Except ε α) : Prop := ∃ e, outcome = .error e ∧ retryable e = true

variable {retryable attempt}

theorem retryable_error {e : ε} :
    Retryable retryable (.error e : Except ε α) ↔ retryable e = true := by
  constructor
  · rintro ⟨e', he, hretry⟩
    cases he
    exact hretry
  · exact fun hretry => ⟨e, rfl, hretry⟩

theorem retry_of_retryable {budget i : Nat} (h : Retryable retryable (attempt i)) :
    retry retryable attempt (budget + 1) i =
      ((retry retryable attempt budget (i + 1)).1,
        (retry retryable attempt budget (i + 1)).2 + 1) := by
  obtain ⟨e, he, hretry⟩ := h
  rw [retry, he]
  exact if_pos hretry

theorem retry_of_not_retryable {budget i : Nat} (h : ¬ Retryable retryable (attempt i)) :
    retry retryable attempt (budget + 1) i = (attempt i, 0) := by
  rw [retry]
  split
  · rename_i a ha
    rw [ha]
  · rename_i e he
    rw [if_neg fun hretry => h ⟨e, he, hretry⟩, he]

/-- All attempts before the last one are retried for a reason, and the last one ends it or has
no delay left. -/
theorem retry_spec (budget i : Nat) :
    (retry retryable attempt budget i).2 ≤ budget ∧
      (retry retryable attempt budget i).1 =
        attempt (i + (retry retryable attempt budget i).2) ∧
      (∀ j < (retry retryable attempt budget i).2, Retryable retryable (attempt (i + j))) ∧
      (Retryable retryable (retry retryable attempt budget i).1 →
        (retry retryable attempt budget i).2 = budget) := by
  induction budget generalizing i with
  | zero => exact ⟨Nat.le_refl _, rfl, fun _ h => absurd h (Nat.not_lt_zero _), fun _ => rfl⟩
  | succ budget ih =>
      by_cases h : Retryable retryable (attempt i)
      · rw [retry_of_retryable h]
        obtain ⟨hle, hresult, hbefore, hlast⟩ := ih (i + 1)
        refine ⟨Nat.succ_le_succ hle, ?_, ?_, fun hretry => congrArg (· + 1) (hlast hretry)⟩
        · rw [hresult, Nat.add_right_comm i 1, Nat.add_assoc]
        · intro j hj
          cases j with
          | zero => exact h
          | succ j =>
              rw [Nat.add_comm j 1, ← Nat.add_assoc]
              exact hbefore j (Nat.lt_of_succ_lt_succ hj)
      · rw [retry_of_not_retryable h]
        exact ⟨Nat.zero_le _, rfl, fun _ hj => absurd hj (Nat.not_lt_zero _),
          fun hretry => absurd hretry h⟩

/-- The rule for a call, where `P` says which attempts are worth another. -/
theorem retry_settles {P : Nat → Prop} (hretry : ∀ i, Retryable retryable (attempt i) ↔ P i)
    {budget : Nat} {run : Except ε α × Nat} (hrun : retry retryable attempt budget 0 = run) :
    run.2 ≤ budget ∧ run.1 = attempt run.2 ∧ (∀ j < run.2, P j) ∧ (P run.2 → run.2 = budget) := by
  obtain ⟨hle, hresult, hbefore, hlast⟩ := @retry_spec _ _ retryable attempt budget 0
  simp only [hrun, Nat.zero_add, hretry] at hle hresult hbefore hlast
  rw [hresult, hretry] at hlast
  exact ⟨hle, hresult, hbefore, hlast⟩

end Retry

end Solarix.Core
