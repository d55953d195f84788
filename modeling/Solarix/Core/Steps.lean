import Mathlib.Data.List.Basic

/-!
# Runs of a step function

A system is a step function on states and actions, `none` for an action that is not
enabled.  The states of its runs are those reached by enabled steps, and an invariant of
every run is what the start has and every step keeps.
-/

namespace Solarix.Core

section Steps

variable {σ α : Type}

/-- The states reached from `start` by steps that all meet `allowed`. -/
inductive Reaches (step : σ → α → Option σ) (allowed : σ → α → Prop) (start : σ) : σ → Prop
  | start : Reaches step allowed start start
  | step {s s' : σ} {a : α} (hs : Reaches step allowed start s) (ha : allowed s a)
      (h : step s a = some s') : Reaches step allowed start s'

variable {step : σ → α → Option σ} {allowed : σ → α → Prop} {start : σ}

theorem Reaches.invariant {Inv : σ → Prop} (hstart : Inv start)
    (hstep : ∀ s a s', Inv s → allowed s a → step s a = some s' → Inv s') {s : σ}
    (h : Reaches step allowed start s) : Inv s := by
  induction h with
  | start => exact hstart
  | step _ ha h ih => exact hstep _ _ _ ih ha h

def runActions (step : σ → α → Option σ) (s : σ) (actions : List α) : Option σ :=
  actions.foldlM step s

def AllowedActions (step : σ → α → Option σ) (allowed : σ → α → Prop) : σ → List α → Prop
  | _, [] => True
  | s, a :: actions => allowed s a ∧
      ∀ s', step s a = some s' → AllowedActions step allowed s' actions

theorem allowedActions_of_forall {actions : List α}
    (h : ∀ a ∈ actions, ∀ s, allowed s a) (s : σ) : AllowedActions step allowed s actions := by
  induction actions generalizing s with
  | nil => exact trivial
  | cons a actions ih =>
      refine ⟨h a List.mem_cons_self s, fun s' _ => ih ?_ s'⟩
      intro b hb
      exact h b (List.mem_cons_of_mem a hb)

theorem AllowedActions.append {actions rest : List α} {s : σ}
    (hactions : AllowedActions step allowed s actions)
    (hrest : ∀ s', runActions step s actions = some s' → AllowedActions step allowed s' rest) :
    AllowedActions step allowed s (actions ++ rest) := by
  induction actions generalizing s with
  | nil => exact hrest s rfl
  | cons a actions ih =>
      refine ⟨hactions.1, fun next hstep => ih (hactions.2 next hstep) fun s' hrun => hrest s' ?_⟩
      simpa [runActions, hstep] using hrun

theorem Reaches.of_runActions {actions : List α} {s s' : σ}
    (hs : Reaches step allowed start s) (hallowed : AllowedActions step allowed s actions)
    (h : runActions step s actions = some s') : Reaches step allowed start s' := by
  induction actions generalizing s with
  | nil =>
      rw [← Option.some.inj h]
      exact hs
  | cons a actions ih =>
      cases hstep : step s a with
      | none => simp [runActions, hstep] at h
      | some next =>
          have hrest : runActions step next actions = some s' := by
            simpa [runActions, hstep] using h
          exact ih (hs.step hallowed.1 hstep) (hallowed.2 next hstep) hrest

end Steps

end Solarix.Core
