import Solarix.Core.Chunks
import Solarix.Pipeline.Rpc
import Solarix.Storage.Writer

/-!
# Cold start

`decide_initial_state` and the part of `run` that splits the chain between the backfill
ranges and the WebSocket subscription.  `get_slot` asks for the finalized tip, the
subscription is made at `confirmed`.
-/

namespace Solarix.Pipeline

open Solarix.Core
open Solarix.Storage (Stream)

structure Chain where
  finalized : Nat → Nat
  confirmed : Nat → Nat
  finalized_mono : Monotone finalized
  confirmed_mono : Monotone confirmed
  finalized_le_confirmed : ∀ time, finalized time ≤ confirmed time

/-! ## The decision -/

inductive InitialState where
  | backfill (startSlot endSlot : Nat)
  | stream
  deriving DecidableEq, Repr

def decideInitialState (lastCheckpointSlot : Option Nat) (chainTip : Nat)
    (configStartSlot : Option Nat) : Except PipelineError InitialState :=
  match lastCheckpointSlot with
  | none =>
      match configStartSlot with
      | some start =>
          if start < chainTip then .ok (.backfill start chainTip)
          else if start ≤ saturatingAdd chainTip 1 then .ok .stream
          else .error (.fatal (s!"configured start_slot ({start}) is ahead of chain tip " ++
            s!"({chainTip}). Possible causes: wrong cluster, RPC behind, or misconfigured " ++
            "SOLARIX_START_SLOT."))
      | none => .ok .stream
  | some last =>
      if last > saturatingAdd chainTip 1 then
        .error (.fatal (s!"checkpoint slot ({last}) ahead of chain tip ({chainTip}). " ++
          "Possible causes: wrong cluster, RPC behind, or misconfiguration."))
      else if last < chainTip then .ok (.backfill (last + 1) chainTip)
      else .ok .stream

/-- What `read_checkpoint` returns for each stream. -/
abbrev Checkpoints := Stream → Option Nat

def lastSlot (checkpoints : Checkpoints) : Option Nat :=
  ([Stream.backfill, .realtime, .catchup].filterMap checkpoints).max?

def determineInitialState (checkpoints : Checkpoints) (chainTip : Nat)
    (configStartSlot : Option Nat) : Except PipelineError InitialState :=
  decideInitialState (lastSlot checkpoints) chainTip configStartSlot

/-- The slot after the resume point: after the last checkpoint, else the configured
start, else after the tip read at start. -/
def firstSlot (checkpoints : Checkpoints) (chainTip : Nat) (configStartSlot : Option Nat) :
    Nat :=
  match lastSlot checkpoints, configStartSlot with
  | some last, _ => last + 1
  | none, some start => start
  | none, none => chainTip + 1

theorem determineInitialState_backfill {checkpoints : Checkpoints} {chainTip : Nat}
    {configStartSlot : Option Nat} {start stop : Nat}
    (h : determineInitialState checkpoints chainTip configStartSlot =
      .ok (.backfill start stop)) :
    start = firstSlot checkpoints chainTip configStartSlot ∧ stop = chainTip ∧ start ≤ stop := by
  unfold determineInitialState decideInitialState at h
  unfold firstSlot
  cases hlast : lastSlot checkpoints with
  | some last =>
      rw [hlast] at h
      simp only at h
      split at h
      · cases h
      · split at h
        · rename_i hlt
          cases h
          exact ⟨rfl, rfl, hlt⟩
        · cases h
  | none =>
      rw [hlast] at h
      cases configStartSlot with
      | none => cases h
      | some configured =>
          simp only at h
          split at h
          · rename_i hlt
            cases h
            exact ⟨rfl, rfl, hlt.le⟩
          · split at h <;> cases h

/-! ## What a run covers -/

/-- When a run reads the chain: at the decision, at the subscription of the streaming task
and, in the backfill arm, when the tail of the backfill is decided.  The last two happen
in different tasks, in either order. -/
structure Timing where
  decided : Nat
  subscribed : Nat
  tail : Nat
  decided_le_subscribed : decided ≤ subscribed
  decided_le_tail : decided ≤ tail

structure Coverage where
  backfills : List (Nat × Nat)
  firstStreamed : Nat

def Coverage.Covers (coverage : Coverage) (slot : Nat) : Prop :=
  (∃ range ∈ coverage.backfills, range.1 ≤ slot ∧ slot ≤ range.2) ∨
    coverage.firstStreamed ≤ slot

/-- A subscription covers the slots after the confirmed tip. -/
def subscribe (chain : Chain) (time : Nat) : Nat := chain.confirmed time + 1

/-- The tail range of the backfill arm of `run`. -/
def tailRange (endSlot tailEnd : Nat) : List (Nat × Nat) :=
  if tailEnd > endSlot then [(endSlot + 1, tailEnd)] else []

/-- `run` without failures and cancellation. -/
def run (chain : Chain) (timing : Timing) (checkpoints : Checkpoints)
    (configStartSlot : Option Nat) : Except PipelineError Coverage := do
  match ← determineInitialState checkpoints (chain.finalized timing.decided)
    configStartSlot with
  | .stream => .ok ⟨[], subscribe chain timing.subscribed⟩
  | .backfill startSlot endSlot =>
      .ok ⟨(startSlot, endSlot) :: tailRange endSlot (chain.finalized timing.tail),
        subscribe chain timing.subscribed⟩

theorem covered_by_backfill {start stop tailEnd slot : Nat} (htail : stop ≤ tailEnd)
    (hslot : start ≤ slot) :
    (∃ range ∈ (start, stop) :: tailRange stop tailEnd, range.1 ≤ slot ∧ slot ≤ range.2) ↔
      slot ≤ tailEnd := by
  rw [List.exists_mem_cons_iff]
  unfold tailRange
  by_cases hmore : tailEnd > stop
  · rw [if_pos hmore, List.exists_mem_cons_iff]
    simp only [List.not_mem_nil, false_and, exists_false, or_false]
    omega
  · rw [if_neg hmore]
    simp only [List.not_mem_nil, false_and, exists_false, or_false]
    omega

section Seam

variable {chain : Chain} {timing : Timing} {checkpoints : Checkpoints}
  {configStartSlot : Option Nat} {coverage : Coverage}

/-- The seam between backfill and subscription is closed: in the backfill arm the tail
reaches the confirmed tip of the subscription, in the stream arm that tip has not passed
the resume point. -/
def SeamClosed (chain : Chain) (timing : Timing) (checkpoints : Checkpoints)
    (configStartSlot : Option Nat) : Prop :=
  match determineInitialState checkpoints (chain.finalized timing.decided)
    configStartSlot with
  | .ok (.backfill _ _) =>
      chain.confirmed timing.subscribed ≤ chain.finalized timing.tail
  | .ok .stream =>
      chain.confirmed timing.subscribed <
        firstSlot checkpoints (chain.finalized timing.decided) configStartSlot
  | .error _ => True

/-- A run leaves no slot after its resume point uncovered exactly when its seam is
closed. -/
theorem run_covers_iff_seamClosed
    (h : run chain timing checkpoints configStartSlot = .ok coverage) :
    (∀ slot, firstSlot checkpoints (chain.finalized timing.decided) configStartSlot ≤ slot →
        coverage.Covers slot) ↔
      SeamClosed chain timing checkpoints configStartSlot := by
  unfold run at h
  unfold SeamClosed Coverage.Covers
  cases hinitial : determineInitialState checkpoints (chain.finalized timing.decided)
      configStartSlot with
  | error e =>
      rw [hinitial] at h
      cases h
  | ok initial =>
      rw [hinitial] at h
      cases initial with
      | stream =>
          cases h
          simp only [subscribe, List.not_mem_nil, false_and, exists_false, false_or]
          constructor
          · intro hcovers
            exact hcovers _ le_rfl
          · intro htip slot hslot
            exact le_trans htip hslot
      | backfill start stop =>
          cases h
          obtain ⟨hstart, rfl, hle⟩ := determineInitialState_backfill hinitial
          have htail := chain.finalized_mono timing.decided_le_tail
          have hconfirmed := le_trans (chain.finalized_le_confirmed timing.decided)
            (chain.confirmed_mono timing.decided_le_subscribed)
          rw [← hstart]
          simp only [subscribe]
          constructor
          · intro hcovers
            -- the slot in doubt is the confirmed tip itself
            have htip := hcovers (chain.confirmed timing.subscribed) (le_trans hle hconfirmed)
            rw [covered_by_backfill htail (le_trans hle hconfirmed)] at htip
            omega
          · intro hseam slot hslot
            rw [covered_by_backfill htail hslot]
            omega

end Seam

def Chain.still (finalized lead : Nat) : Chain where
  finalized _ := finalized
  confirmed _ := finalized + lead
  finalized_mono := monotone_const
  confirmed_mono := monotone_const
  finalized_le_confirmed _ := Nat.le_add_right _ _

theorem run_covers_iff_seamClosed_caught_up :
    run (.still 110 0) ⟨0, 0, 0, le_rfl, le_rfl⟩ (fun _ => none) (some 100) =
        .ok ⟨[(100, 110)], 111⟩ ∧
      Coverage.Covers ⟨[(100, 110)], 111⟩ 110 ∧ Coverage.Covers ⟨[(100, 110)], 111⟩ 111 := by
  have hcovers := (@run_covers_iff_seamClosed (.still 110 0) ⟨0, 0, 0, le_rfl, le_rfl⟩
    (fun _ => none) (some 100) ⟨[(100, 110)], 111⟩ rfl).mpr (le_refl 110)
  exact ⟨rfl, hcovers 110 (by decide), hcovers 111 (by decide)⟩

/-- The finalized tip is at 110 and the confirmed one at 142, as on a healthy cluster:
slot 111 is in no backfill range and before the subscription. -/
theorem run_leaves_gap :
    run (.still 110 32) ⟨0, 1, 2, by decide, by decide⟩ (fun _ => none) (some 100) =
        .ok ⟨[(100, 110)], 143⟩ ∧
      firstSlot (fun _ => none) 110 (some 100) ≤ 111 ∧
      ¬ Coverage.Covers ⟨[(100, 110)], 143⟩ 111 := by
  refine ⟨rfl, by decide, ?_⟩
  unfold Coverage.Covers
  simp

end Solarix.Pipeline
