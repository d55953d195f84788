import Mathlib.Logic.Function.Basic

/-!
# Memoised functions

A cache in front of a function, under keys that the arguments are turned into.  The function
may fail to answer; what it does answer is kept.  Where a key determines the value, a lookup
through the cache returns what the function would.
-/

namespace Solarix.Core

section Memo

variable {α κ β ε : Type}

/-- The kept value, or else the answer, which is then kept. -/
def memo [DecidableEq κ] (key : α → κ) (cache : κ → Option β) (x : α) (answer : Except ε β) :
    Except ε β × (κ → Option β) :=
  match cache (key x) with
  | some cached => (.ok cached, cache)
  | none =>
      match answer with
      | .error e => (.error e, cache)
      | .ok value => (.ok value, Function.update cache (key x) (some value))

/-- An entry is the value of each argument with its key. -/
def Coherent (key : α → κ) (f : α → β) (cache : κ → Option β) : Prop :=
  ∀ x value, cache (key x) = some value → value = f x

variable {key : α → κ} {f : α → β} {cache : κ → Option β} {x : α}

theorem coherent_empty : Coherent key f fun _ => none := by
  intro x value h
  cases h

variable [DecidableEq κ]

theorem memo_of_some {value : β} (h : cache (key x) = some value) (answer : Except ε β) :
    memo key cache x answer = (.ok value, cache) := by
  simp only [memo, h]

theorem memo_error_of_none {e : ε} (h : cache (key x) = none) :
    memo key cache x (.error e) = (.error e, cache) := by
  simp only [memo, h]

theorem memo_ok_of_none {value : β} (h : cache (key x) = none) :
    memo key cache x (.ok value : Except ε β) =
      (.ok value, Function.update cache (key x) (some value)) := by
  simp only [memo, h]

theorem Coherent.memo (h : Coherent key f cache) (hkey : ∀ x y, key x = key y → f x = f y)
    {answer : Except ε β} (hanswer : ∀ value, answer = .ok value → value = f x) :
    Coherent key f (memo key cache x answer).2 := by
  cases hcache : cache (key x) with
  | some cached =>
      rw [memo_of_some hcache]
      exact h
  | none =>
      cases answer with
      | error e =>
          rw [memo_error_of_none hcache]
          exact h
      | ok value =>
          rw [memo_ok_of_none hcache]
          intro y found hfound
          change Function.update cache (key x) (some value) (key y) = some found at hfound
          by_cases hy : key y = key x
          · rw [hy, Function.update_self] at hfound
            cases hfound
            rw [hanswer value rfl]
            exact hkey x y hy.symm
          · rw [Function.update_of_ne hy] at hfound
            exact h y found hfound

theorem Coherent.memo_eq_ok (h : Coherent key f cache) {answer : Except ε β}
    (hanswer : ∀ value, answer = .ok value → value = f x) {value : β}
    (hvalue : (Core.memo key cache x answer).1 = .ok value) : value = f x := by
  cases hcache : cache (key x) with
  | some cached =>
      rw [memo_of_some hcache] at hvalue
      cases hvalue
      exact h x _ hcache
  | none =>
      cases answer with
      | error e =>
          rw [memo_error_of_none hcache] at hvalue
          cases hvalue
      | ok found =>
          rw [memo_ok_of_none hcache] at hvalue
          cases hvalue
          exact hanswer _ rfl

theorem Coherent.memo_ok (h : Coherent key f cache) :
    (Core.memo key cache x (.ok (f x) : Except ε β)).1 = .ok (f x) := by
  cases hcache : cache (key x) with
  | some cached => rw [memo_of_some hcache, h x cached hcache]
  | none => rw [memo_ok_of_none hcache]

end Memo

end Solarix.Core
