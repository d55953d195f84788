import Mathlib.Logic.Function.Basic
import Solarix.Pipeline.Backfill
import Solarix.Pipeline.Reconnect

/-!
# Restarts

The history of a program's index: process runs, each started by
`determine_initial_state`, and within a run the backfill task, the streaming task and its
reconnects, which commit to the same tables with a checkpoint stream each.  The tasks
interleave freely and a run may be cut between any two commits.
-/

namespace Solarix.Pipeline

open Solarix.Core
open Solarix.Storage (Stream)

structure Subscription where
  /-- The confirmed tip when the streaming task subscribed. -/
  tip : Nat
  cursor : Place
  lastSeenSlot : Option Nat

structure RunState where
  /-- The slots that `run_backfill` still has to process. -/
  backfill : List Nat
  /-- The first slot after the ranges given to `run_backfill`, or after the resume point. -/
  unscheduled : Nat
  /-- The tail of the backfill is still to be decided. -/
  tailPending : Bool
  subscription : Option Subscription
  /-- The slots that `mini_backfill` still has to process. -/
  catchup : List Nat

structure History where
  time : Nat
  checkpoints : Checkpoints
  /-- The program transactions that some run committed. -/
  committed : List Place
  /-- The running process, if any. -/
  run : Option RunState

inductive HistoryAction where
  | wait
  | start
  | backfillSlot
  | tail
  | subscribe
  | deliver (slot index : Nat)
  | reconnect (subscribedAt tipAt : Nat)
  | catchupSlot
  | crash

section History

variable (chain : Chain) (program : Nat → Nat) (startSlot : Nat)

def History.fresh (time : Nat) : History := ⟨time, fun _ => none, [], none⟩

def slotPlaces (slot : Nat) : List Place := (List.range (program slot)).map fun i => (slot, i)

/-- A slot is committed as a whole, with the checkpoint of the stream.  A slot without
program transactions leaves no trace. -/
def History.commitSlot (st : History) (stream : Stream) (slot : Nat) : History :=
  if program slot = 0 then st
  else { st with
    checkpoints := Function.update st.checkpoints stream (some slot)
    committed := st.committed ++ slotPlaces program slot }

def startRun (checkpoints : Checkpoints) (chainTip : Nat) : Option RunState :=
  match determineInitialState checkpoints chainTip (some startSlot) with
  | .error _ => none
  | .ok .stream => some ⟨[], firstSlot checkpoints chainTip (some startSlot), false, none, []⟩
  | .ok (.backfill start stop) =>
      some ⟨rangeSlots (effectiveStart (checkpoints .backfill) start, stop), stop + 1, true,
        none, []⟩

def RunState.decideTail (r : RunState) (checkpoint : Option Nat) (tailEnd : Nat) : RunState :=
  { r with
    backfill := (tailRange (r.unscheduled - 1) tailEnd).flatMap fun range =>
      rangeSlots (effectiveStart checkpoint range.1, range.2)
    unscheduled := max r.unscheduled (tailEnd + 1)
    tailPending := false }

def Subscription.fresh (tip : Nat) : Subscription := ⟨tip, (tip + 1, 0), none⟩

def historyStep (st : History) (action : HistoryAction) : Option History :=
  match action, st.run with
  | .wait, _ => some { st with time := st.time + 1 }
  | .start, none =>
      (startRun startSlot st.checkpoints (chain.finalized st.time)).map fun r =>
        { st with run := some r }
  | .crash, some _ => some { st with run := none }
  | .backfillSlot, some r =>
      match r.backfill with
      | slot :: rest =>
          some { st.commitSlot program .backfill slot with
            run := some { r with backfill := rest } }
      | [] => none
  | .tail, some r =>
      if r.backfill = [] ∧ r.tailPending = true then
        some { st with
          run := some (r.decideTail (st.checkpoints .backfill) (chain.finalized st.time)) }
      else none
  | .subscribe, some r =>
      match r.subscription with
      | none =>
          some { st with
            run := some { r with subscription := some (.fresh (chain.confirmed st.time)) } }
      | some _ => none
  | .deliver slot index, some r =>
      match r.subscription, r.catchup with
      | some sub, [] =>
          if slot ≤ chain.confirmed st.time ∧ IsNext program sub.cursor slot index then
            some { st with
              checkpoints := Function.update st.checkpoints .realtime (some slot)
              committed := st.committed ++ [(slot, index)]
              run := some { r with
                subscription := some ⟨sub.tip, (slot, index + 1),
                  seeSlot sub.lastSeenSlot slot⟩ } }
          else none
      | _, _ => none
  | .reconnect subscribedAt tipAt, some r =>
      match r.subscription, r.catchup with
      | some sub, [] =>
          if st.time ≤ subscribedAt ∧ subscribedAt ≤ tipAt then
            some { st with
              time := tipAt
              run := some { r with
                subscription := some (.fresh (chain.confirmed subscribedAt))
                catchup := (gapRange (disconnectSlot sub.lastSeenSlot (st.checkpoints .realtime))
                  (chain.finalized tipAt)).flatMap rangeSlots } }
          else none
      | _, _ => none
  | .catchupSlot, some r =>
      match r.catchup with
      | slot :: rest =>
          some { st.commitSlot program .catchup slot with
            run := some { r with catchup := rest } }
      | [] => none
  | _, _ => none

/-! ## What a restart skips -/

def scheduledSlots (st : History) : List Nat :=
  match startRun startSlot st.checkpoints (chain.finalized st.time) with
  | some r => r.backfill
  | none => []

/-- Between runs, every slot from the configured start up to the largest checkpoint is
processed or in the range that the next run schedules. -/
def RestartCovers (st : History) : Prop :=
  st.run = none → ∀ last, lastSlot st.checkpoints = some last →
    ∀ slot, startSlot ≤ slot → slot ≤ last →
      (∀ index < program slot, (slot, index) ∈ st.committed) ∨
        slot ∈ scheduledSlots chain startSlot st

/-- One of the run's tasks will come to the place: the backfill, a mini-backfill, the
subscription, or the tail of the backfill. -/
def RunState.Outstanding (r : RunState) (place : Place) : Prop :=
  place.1 ∈ r.backfill ∨ place.1 ∈ r.catchup ∨
    match r.subscription with
    | none => r.unscheduled ≤ place.1
    | some sub => AtOrAfter sub.cursor place ∨
        (r.tailPending = true ∧ r.unscheduled ≤ place.1 ∧ place.1 ≤ sub.tip)

/-- A run is not cut while a task still has to come to a transaction at or below a
checkpoint, and no transaction falls between the ranges of the tasks. -/
def Orderly (st : History) : HistoryAction → Prop
  | .crash => ∀ r, st.run = some r → ∀ slot index, index < program slot → startSlot ≤ slot →
      r.Outstanding (slot, index) → (slot, index) ∉ st.committed →
        ∀ last, lastSlot st.checkpoints = some last → last < slot
  | .subscribe => ∀ r, st.run = some r → r.tailPending = false →
      ∀ slot index, index < program slot → r.unscheduled ≤ slot →
        slot ≤ chain.confirmed st.time → (slot, index) ∈ st.committed
  | .tail => ∀ r sub, st.run = some r → r.subscription = some sub →
      ∀ slot index, index < program slot → r.unscheduled ≤ slot →
        chain.finalized st.time < slot → slot ≤ sub.tip → (slot, index) ∈ st.committed
  | .reconnect subscribedAt tipAt => ∀ r sub, st.run = some r → r.subscription = some sub →
      r.tailPending = false → ∀ slot index, index < program slot →
        AtOrAfter sub.cursor (slot, index) → slot ≤ chain.confirmed subscribedAt →
          (slot, index) ∈ st.committed ∨
            (0 < disconnectSlot sub.lastSeenSlot (st.checkpoints .realtime) ∧
              disconnectSlot sub.lastSeenSlot (st.checkpoints .realtime) < slot ∧
              slot ≤ chain.finalized tipAt)
  | _ => True

end History

section Invariant

variable {chain : Chain} {program : Nat → Nat} {startSlot : Nat} {st st' : History}
  {r : RunState}

theorem le_lastSlot {checkpoints : Checkpoints} {slot : Nat}
    (h : checkpoints .backfill = some slot) :
    ∃ last, lastSlot checkpoints = some last ∧ slot ≤ last := by
  have hmem : slot ∈ [Stream.backfill, .realtime, .catchup].filterMap checkpoints := by
    rw [List.mem_filterMap]
    exact ⟨.backfill, by simp, h⟩
  cases hlast : lastSlot checkpoints with
  | none =>
      rw [lastSlot, List.max?_eq_none_iff] at hlast
      rw [hlast] at hmem
      cases hmem
  | some last => exact ⟨last, rfl, (List.max?_eq_some_iff.mp hlast).2 slot hmem⟩

theorem effectiveStart_eq {checkpoint : Option Nat} {start : Nat}
    (h : ∀ last, checkpoint = some last → last < start) :
    effectiveStart checkpoint start = start := by
  cases checkpoint with
  | none => rfl
  | some last =>
      have hlast := h last rfl
      unfold effectiveStart saturatingAdd
      simp only
      omega

theorem mem_commitSlot {stream : Stream} {slot : Nat} {place : Place} :
    place ∈ (st.commitSlot program stream slot).committed ↔
      place ∈ st.committed ∨ (place.1 = slot ∧ place.2 < program slot) := by
  unfold History.commitSlot
  by_cases hnone : program slot = 0
  · rw [if_pos hnone, hnone]
    simp
  · rw [if_neg hnone]
    simp only [List.mem_append, slotPlaces, List.mem_map, List.mem_range]
    apply or_congr_right
    constructor
    · intro h
      obtain ⟨index, hindex, rfl⟩ := h
      exact ⟨rfl, hindex⟩
    · intro h
      exact ⟨place.2, h.2, by rw [← h.1]⟩

theorem checkpoints_commitSlot {stream : Stream} {slot last : Nat}
    (h : (st.commitSlot program stream slot).checkpoints stream = some last) :
    st.checkpoints stream = some last ∨ last = slot := by
  unfold History.commitSlot at h
  split at h
  · exact Or.inl h
  · simp only [Function.update_self, Option.some.injEq] at h
    exact Or.inr h.symm

theorem checkpoints_commitSlot_ne {stream other : Stream} {slot : Nat} (h : other ≠ stream) :
    (st.commitSlot program stream slot).checkpoints other = st.checkpoints other := by
  unfold History.commitSlot
  split
  · rfl
  · exact Function.update_of_ne h _ _

structure RunInv (chain : Chain) (program : Nat → Nat) (startSlot : Nat) (st : History)
    (r : RunState) : Prop where
  outstanding : ∀ slot index, index < program slot → startSlot ≤ slot →
    (slot, index) ∈ st.committed ∨ r.Outstanding (slot, index)
  below : ∀ slot ∈ r.backfill, slot < r.unscheduled
  checkpoint : ∀ last, st.checkpoints .backfill = some last → last < r.unscheduled
  tail : r.tailPending = true →
    0 < r.unscheduled ∧ r.unscheduled ≤ chain.finalized st.time + 1
  subscription : ∀ sub, r.subscription = some sub → sub.tip < sub.cursor.1 ∧
    (r.tailPending = true → r.unscheduled ≤ sub.tip + 1)

structure HistoryInv (chain : Chain) (program : Nat → Nat) (startSlot : Nat)
    (st : History) : Prop where
  idle : st.run = none → ∀ last, lastSlot st.checkpoints = some last →
    ∀ slot index, index < program slot → startSlot ≤ slot → slot ≤ last →
      (slot, index) ∈ st.committed
  running : ∀ r, st.run = some r → RunInv chain program startSlot st r

theorem HistoryInv.before_firstSlot {tip slot index : Nat}
    (h : HistoryInv chain program startSlot st) (hidle : st.run = none)
    (hindex : index < program slot) (hfrom : startSlot ≤ slot)
    (hlt : slot < firstSlot st.checkpoints tip (some startSlot)) :
    (slot, index) ∈ st.committed := by
  unfold firstSlot at hlt
  cases hlast : lastSlot st.checkpoints with
  | none =>
      simp only [hlast] at hlt
      omega
  | some last =>
      simp only [hlast] at hlt
      exact h.idle hidle last hlast slot index hindex hfrom (by omega)

theorem lt_firstSlot {checkpoints : Checkpoints} {slot tip : Nat}
    (hslot : checkpoints .backfill = some slot) :
    slot < firstSlot checkpoints tip (some startSlot) := by
  obtain ⟨last, hlast, hle⟩ := le_lastSlot hslot
  unfold firstSlot
  simp only [hlast]
  omega

theorem HistoryInv.start (h : HistoryInv chain program startSlot st) (hidle : st.run = none)
    (hstart : startRun startSlot st.checkpoints (chain.finalized st.time) = some r) :
    RunInv chain program startSlot { st with run := some r } r := by
  have hcheckpoint : ∀ last, st.checkpoints .backfill = some last →
      last < firstSlot st.checkpoints (chain.finalized st.time) (some startSlot) :=
    fun _ hlast => lt_firstSlot hlast
  unfold startRun at hstart
  cases hinitial : determineInitialState st.checkpoints (chain.finalized st.time)
      (some startSlot) with
  | error e =>
      rw [hinitial] at hstart
      cases hstart
  | ok initial =>
      rw [hinitial] at hstart
      cases initial with
      | stream =>
          cases hstart
          refine ⟨?_, ?_, hcheckpoint, ?_, ?_⟩
          · intro slot index hindex hfrom
            by_cases hlt : slot < firstSlot st.checkpoints (chain.finalized st.time)
                (some startSlot)
            · exact Or.inl (h.before_firstSlot hidle hindex hfrom hlt)
            · exact Or.inr (Or.inr (Or.inr (not_lt.mp hlt)))
          · intro slot hslot
            cases hslot
          · intro hpending
            cases hpending
          · intro sub hsub
            cases hsub
      | backfill first stop =>
          cases hstart
          obtain ⟨rfl, rfl, hle⟩ := determineInitialState_backfill hinitial
          rw [effectiveStart_eq hcheckpoint]
          refine ⟨?_, ?_, ?_, ?_, ?_⟩
          · intro slot index hindex hfrom
            by_cases hlt : slot < firstSlot st.checkpoints (chain.finalized st.time)
                (some startSlot)
            · exact Or.inl (h.before_firstSlot hidle hindex hfrom hlt)
            · by_cases hin : slot ≤ chain.finalized st.time
              · exact Or.inr (Or.inl (mem_rangeSlots.mpr ⟨not_lt.mp hlt, hin⟩))
              · exact Or.inr (Or.inr (Or.inr (not_le.mp hin)))
          · intro slot hslot
            exact Nat.lt_succ_of_le (mem_rangeSlots.mp hslot).2
          · intro last hlast
            exact lt_of_lt_of_le (hcheckpoint last hlast) (le_trans hle (Nat.le_succ _))
          · intro _
            exact ⟨Nat.succ_pos _, le_rfl⟩
          · intro sub hsub
            cases hsub

theorem time_commitSlot (stream : Stream) (slot : Nat) :
    (st.commitSlot program stream slot).time = st.time := by
  unfold History.commitSlot
  split <;> rfl

theorem RunInv.backfillSlot {slot : Nat} {rest : List Nat}
    (h : RunInv chain program startSlot st r) (hslots : r.backfill = slot :: rest) :
    RunInv chain program startSlot { st.commitSlot program .backfill slot with
      run := some { r with backfill := rest } } { r with backfill := rest } := by
  have hbelow := h.below
  rw [hslots] at hbelow
  refine ⟨?_, ?_, ?_, ?_, h.subscription⟩
  · intro other index hindex hfrom
    simp only [mem_commitSlot]
    rcases h.outstanding other index hindex hfrom with hcommitted | hout | hout
    · exact Or.inl (Or.inl hcommitted)
    · rw [hslots] at hout
      rcases List.mem_cons.mp hout with hhead | hrest
      · have hsame : other = slot := hhead
        exact Or.inl (Or.inr ⟨hsame, hsame ▸ hindex⟩)
      · exact Or.inr (Or.inl hrest)
    · exact Or.inr (Or.inr hout)
  · intro other hother
    exact hbelow other (List.mem_cons_of_mem _ hother)
  · intro last hlast
    rcases checkpoints_commitSlot hlast with hold | rfl
    · exact h.checkpoint last hold
    · exact hbelow last List.mem_cons_self
  · simp only [time_commitSlot]
    exact h.tail

theorem RunInv.catchupSlot {slot : Nat} {rest : List Nat}
    (h : RunInv chain program startSlot st r) (hslots : r.catchup = slot :: rest) :
    RunInv chain program startSlot { st.commitSlot program .catchup slot with
      run := some { r with catchup := rest } } { r with catchup := rest } := by
  refine ⟨?_, h.below, ?_, ?_, h.subscription⟩
  · intro other index hindex hfrom
    simp only [mem_commitSlot]
    rcases h.outstanding other index hindex hfrom with hcommitted | hout | hout | hout
    · exact Or.inl (Or.inl hcommitted)
    · exact Or.inr (Or.inl hout)
    · rw [hslots] at hout
      rcases List.mem_cons.mp hout with hhead | hrest
      · have hsame : other = slot := hhead
        exact Or.inl (Or.inr ⟨hsame, hsame ▸ hindex⟩)
      · exact Or.inr (Or.inr (Or.inl hrest))
    · exact Or.inr (Or.inr (Or.inr hout))
  · intro last hlast
    simp only [checkpoints_commitSlot_ne (show Stream.backfill ≠ Stream.catchup by decide)]
      at hlast
    exact h.checkpoint last hlast
  · simp only [time_commitSlot]
    exact h.tail

theorem mem_decideTail {checkpoint : Option Nat} {tailEnd slot : Nat}
    (hpos : 0 < r.unscheduled)
    (hcheckpoint : ∀ last, checkpoint = some last → last < r.unscheduled) :
    slot ∈ (r.decideTail checkpoint tailEnd).backfill ↔
      r.unscheduled ≤ slot ∧ slot ≤ tailEnd := by
  have hfirst : r.unscheduled - 1 + 1 = r.unscheduled := Nat.sub_add_cancel hpos
  unfold RunState.decideTail tailRange
  simp only
  by_cases hmore : tailEnd > r.unscheduled - 1
  · rw [if_pos hmore, List.flatMap_cons, List.flatMap_nil, List.append_nil, hfirst,
      effectiveStart_eq hcheckpoint, mem_rangeSlots]
  · rw [if_neg hmore, List.flatMap_nil]
    simp only [List.not_mem_nil, false_iff, not_and, not_le]
    omega

theorem RunInv.tailDecided (h : RunInv chain program startSlot st r)
    (hdone : r.backfill = []) (hpending : r.tailPending = true) (hrun : st.run = some r)
    (horderly : Orderly chain program startSlot st .tail) :
    RunInv chain program startSlot { st with
        run := some (r.decideTail (st.checkpoints .backfill) (chain.finalized st.time)) }
      (r.decideTail (st.checkpoints .backfill) (chain.finalized st.time)) := by
  have hmem := fun slot => @mem_decideTail r (st.checkpoints .backfill)
    (chain.finalized st.time) slot (h.tail hpending).1 h.checkpoint
  refine ⟨?_, ?_, ?_, ?_, ?_⟩
  · intro slot index hindex hfrom
    by_cases hin : r.unscheduled ≤ slot ∧ slot ≤ chain.finalized st.time
    · exact Or.inr (Or.inl ((hmem slot).mpr hin))
    rcases h.outstanding slot index hindex hfrom with hcommitted | hout | hout | hout
    · exact Or.inl hcommitted
    · rw [hdone] at hout
      cases hout
    · exact Or.inr (Or.inr (Or.inl hout))
    · cases hsub : r.subscription with
      | none =>
          rw [hsub] at hout
          refine Or.inr (Or.inr (Or.inr ?_))
          simp only [RunState.decideTail, hsub]
          have hafter : r.unscheduled ≤ slot := hout
          omega
      | some sub =>
          rw [hsub] at hout
          rcases hout with hahead | htail
          · refine Or.inr (Or.inr (Or.inr ?_))
            simp only [RunState.decideTail, hsub]
            exact Or.inl hahead
          · have hafter : r.unscheduled ≤ slot := htail.2.1
            exact Or.inl (horderly r sub hrun hsub slot index hindex hafter (by omega)
              htail.2.2)
  · intro slot hslot
    have hrange := (hmem slot).mp hslot
    exact lt_of_lt_of_le (Nat.lt_succ_of_le hrange.2) (le_max_right _ _)
  · intro last hlast
    exact lt_of_lt_of_le (h.checkpoint last hlast) (le_max_left _ _)
  · intro hfalse
    cases hfalse
  · intro sub hsub
    exact ⟨(h.subscription sub hsub).1, fun hfalse => by cases hfalse⟩

theorem RunInv.subscribed (h : RunInv chain program startSlot st r)
    (hnone : r.subscription = none) (hrun : st.run = some r)
    (horderly : Orderly chain program startSlot st .subscribe) :
    RunInv chain program startSlot { st with
        run := some { r with subscription := some (.fresh (chain.confirmed st.time)) } }
      { r with subscription := some (.fresh (chain.confirmed st.time)) } := by
  have hlead := chain.finalized_le_confirmed st.time
  refine ⟨?_, h.below, h.checkpoint, h.tail, ?_⟩
  · intro slot index hindex hfrom
    rcases h.outstanding slot index hindex hfrom with hcommitted | hout | hout | hout
    · exact Or.inl hcommitted
    · exact Or.inr (Or.inl hout)
    · exact Or.inr (Or.inr (Or.inl hout))
    · rw [hnone] at hout
      by_cases hafter : chain.confirmed st.time < slot
      · exact Or.inr (Or.inr (Or.inr (Or.inl (atOrAfter_fresh hafter))))
      · cases hpending : r.tailPending with
        | true =>
            exact Or.inr (Or.inr (Or.inr (Or.inr ⟨rfl, hout, not_lt.mp hafter⟩)))
        | false =>
            exact Or.inl (horderly r hrun hpending slot index hindex hout (not_lt.mp hafter))
  · intro sub hsub
    cases hsub
    refine ⟨Nat.lt_succ_self _, fun hpending => ?_⟩
    exact le_trans (h.tail hpending).2 (Nat.succ_le_succ hlead)

theorem RunInv.delivered {sub : Subscription} {slot index : Nat} {lastSeenSlot : Option Nat}
    {r' : RunState} (h : RunInv chain program startSlot st r)
    (hsub : r.subscription = some sub) (hnext : IsNext program sub.cursor slot index)
    (hr' : r' = { r with subscription := some ⟨sub.tip, (slot, index + 1), lastSeenSlot⟩ }) :
    RunInv chain program startSlot { st with
        checkpoints := Function.update st.checkpoints .realtime (some slot)
        committed := st.committed ++ [(slot, index)]
        run := some r' } r' := by
  subst hr'
  refine ⟨?_, h.below, ?_, h.tail, ?_⟩
  · intro other place hplace hfrom
    rcases h.outstanding other place hplace hfrom with hcommitted | hout | hout | hout
    · exact Or.inl (List.mem_append_left _ hcommitted)
    · exact Or.inr (Or.inl hout)
    · exact Or.inr (Or.inr (Or.inl hout))
    · rw [hsub] at hout
      rcases hout with hahead | htail
      · by_cases hlater : AtOrAfter (slot, index + 1) (other, place)
        · exact Or.inr (Or.inr (Or.inr (Or.inl hlater)))
        · rcases hnext.eq_or_lt hplace hlater with heq | hbefore
          · rw [heq]
            exact Or.inl (List.mem_append_right _ (List.mem_singleton.mpr rfl))
          · exact absurd hahead hbefore
      · exact Or.inr (Or.inr (Or.inr (Or.inr htail)))
  · intro last hlast
    simp only [Function.update_of_ne (show Stream.backfill ≠ Stream.realtime by decide)] at hlast
    exact h.checkpoint last hlast
  · intro new hnew
    cases hnew
    have hold := h.subscription sub hsub
    exact ⟨lt_of_lt_of_le hold.1 hnext.le, hold.2⟩

theorem RunInv.reconnected {sub : Subscription} {subscribedAt tipAt : Nat}
    {r' : RunState} (h : RunInv chain program startSlot st r)
    (hsub : r.subscription = some sub) (hcaught : r.catchup = []) (hrun : st.run = some r)
    (hsubscribed : st.time ≤ subscribedAt) (htip : subscribedAt ≤ tipAt)
    (horderly : Orderly chain program startSlot st (.reconnect subscribedAt tipAt))
    (hr' : r' = { r with
      subscription := some (.fresh (chain.confirmed subscribedAt))
      catchup := (gapRange (disconnectSlot sub.lastSeenSlot (st.checkpoints .realtime))
        (chain.finalized tipAt)).flatMap rangeSlots }) :
    RunInv chain program startSlot { st with time := tipAt, run := some r' } r' := by
  subst hr'
  have hfinalized := chain.finalized_mono (le_trans hsubscribed htip)
  have hlead := le_trans (chain.finalized_le_confirmed st.time)
    (chain.confirmed_mono hsubscribed)
  refine ⟨?_, h.below, h.checkpoint, ?_, ?_⟩
  · intro slot index hindex hfrom
    by_cases hafter : chain.confirmed subscribedAt < slot
    · exact Or.inr (Or.inr (Or.inr (Or.inl (atOrAfter_fresh hafter))))
    have hle : slot ≤ chain.confirmed subscribedAt := not_lt.mp hafter
    rcases h.outstanding slot index hindex hfrom with hcommitted | hout | hout | hout
    · exact Or.inl hcommitted
    · exact Or.inr (Or.inl hout)
    · rw [hcaught] at hout
      cases hout
    · rw [hsub] at hout
      rcases hout with hahead | htail
      · cases hpending : r.tailPending with
        | true =>
            -- the tail is still to come, and will take the slot
            have hold := h.subscription sub hsub
            have hcursor : sub.cursor.1 ≤ slot := by
              rcases hahead with hlt | heq
              · exact hlt.le
              · exact heq.1.le
            refine Or.inr (Or.inr (Or.inr (Or.inr ⟨rfl, ?_, hle⟩)))
            show r.unscheduled ≤ slot
            have hunscheduled := hold.2 hpending
            omega
        | false =>
            rcases horderly r sub hrun hsub hpending slot index hindex hahead hle with
              hcommitted | hgap
            · exact Or.inl hcommitted
            · obtain ⟨range, hrange, hin⟩ := mem_gapRange hgap.1 hgap.2.1 hgap.2.2
              refine Or.inr (Or.inr (Or.inl ?_))
              exact List.mem_flatMap.mpr ⟨range, hrange, mem_rangeSlots.mpr hin⟩
      · exact Or.inr (Or.inr (Or.inr (Or.inr ⟨htail.1, htail.2.1, hle⟩)))
  · intro hpending
    have hold := h.tail hpending
    exact ⟨hold.1, le_trans hold.2 (Nat.succ_le_succ hfinalized)⟩
  · intro new hnew
    cases hnew
    refine ⟨Nat.lt_succ_self _, fun hpending => ?_⟩
    exact le_trans (h.tail hpending).2 (Nat.succ_le_succ hlead)

theorem HistoryInv.crash (h : HistoryInv chain program startSlot st) (hrun : st.run = some r)
    (horderly : Orderly chain program startSlot st .crash) :
    HistoryInv chain program startSlot { st with run := none } := by
  refine ⟨?_, fun _ hnone => by cases hnone⟩
  intro _ last hlast slot index hindex hfrom hle
  by_contra hmissing
  rcases (h.running r hrun).outstanding slot index hindex hfrom with hcommitted | hout
  · exact hmissing hcommitted
  · have hlt := horderly r hrun slot index hindex hfrom hout hmissing last hlast
    omega

theorem HistoryInv.of_run (hrun : st.run = some r) (h : RunInv chain program startSlot st r) :
    HistoryInv chain program startSlot st := by
  refine ⟨fun hidle => ?_, fun other hother => ?_⟩
  · rw [hrun] at hidle
    cases hidle
  · rw [hrun] at hother
    cases hother
    exact h

theorem HistoryInv.wait (h : HistoryInv chain program startSlot st) :
    HistoryInv chain program startSlot { st with time := st.time + 1 } := by
  refine ⟨h.idle, fun r hrun => ?_⟩
  have hr := h.running r hrun
  refine ⟨hr.outstanding, hr.below, hr.checkpoint, fun hpending => ?_, hr.subscription⟩
  have hold := hr.tail hpending
  have hmono := chain.finalized_mono (Nat.le_succ st.time)
  exact ⟨hold.1, le_trans hold.2 (Nat.succ_le_succ hmono)⟩

theorem HistoryInv.step {action : HistoryAction} (h : HistoryInv chain program startSlot st)
    (horderly : Orderly chain program startSlot st action)
    (hstep : historyStep chain program startSlot st action = some st') :
    HistoryInv chain program startSlot st' := by
  unfold historyStep at hstep
  split at hstep
  · cases hstep
    exact h.wait
  · rename_i hidle
    obtain ⟨r, hr, rfl⟩ := Option.map_eq_some_iff.mp hstep
    exact HistoryInv.of_run rfl (h.start hidle hr)
  · rename_i hrun
    cases hstep
    exact h.crash hrun horderly
  · rename_i hrun
    split at hstep
    · rename_i hslots
      cases hstep
      exact HistoryInv.of_run rfl ((h.running _ hrun).backfillSlot hslots)
    · cases hstep
  · rename_i hrun
    split at hstep
    · rename_i hguard
      cases hstep
      exact HistoryInv.of_run rfl
        ((h.running _ hrun).tailDecided hguard.1 hguard.2 hrun horderly)
    · cases hstep
  · rename_i hrun
    split at hstep
    · rename_i hnone
      cases hstep
      exact HistoryInv.of_run rfl ((h.running _ hrun).subscribed hnone hrun horderly)
    · cases hstep
  · rename_i hrun
    split at hstep
    · rename_i hsub _
      split at hstep
      · rename_i hguard
        cases hstep
        exact HistoryInv.of_run rfl ((h.running _ hrun).delivered hsub hguard.2 rfl)
      · cases hstep
    · cases hstep
  · rename_i hrun
    split at hstep
    · rename_i hsub hcaught
      split at hstep
      · rename_i hguard
        cases hstep
        exact HistoryInv.of_run rfl ((h.running _ hrun).reconnected hsub hcaught hrun
          hguard.1 hguard.2 horderly rfl)
      · cases hstep
    · cases hstep
  · rename_i hrun
    split at hstep
    · rename_i hslots
      cases hstep
      exact HistoryInv.of_run rfl ((h.running _ hrun).catchupSlot hslots)
    · cases hstep
  · cases hstep

/-- In every orderly history a restart skips nothing. -/
theorem restart_covers {time : Nat}
    (h : Reaches (historyStep chain program startSlot) (Orderly chain program startSlot)
      (.fresh time) st) : RestartCovers chain program startSlot st := by
  have hinv : HistoryInv chain program startSlot st := by
    apply h.invariant
    · refine ⟨fun _ last hlast => ?_, fun r hr => by cases hr⟩
      cases hlast
    · intro s a s' hs ha hstep
      exact hs.step ha hstep
  intro hidle last hlast slot hfrom hle
  exact Or.inl fun index hindex => hinv.idle hidle last hlast slot index hindex hfrom hle

end Invariant

/-! ## A run cut during its backfill -/

def oneAndOne (slot : Nat) : Nat := if slot = 8 ∨ slot = 12 then 1 else 0

theorem restart_covers_after_backfill :
    ∃ st, runActions (historyStep steadyChain oneAndOne 5) (.fresh 0)
        [.start, .subscribe, .backfillSlot, .backfillSlot, .backfillSlot, .backfillSlot,
          .backfillSlot, .tail, .wait, .wait, .wait, .deliver 12 0, .crash] = some st ∧
      lastSlot st.checkpoints = some 12 ∧ RestartCovers steadyChain oneAndOne 5 st := by
  refine ⟨_, rfl, rfl, ?_⟩
  refine @restart_covers steadyChain oneAndOne 5 _ 0 ?_
  have hstarted : Reaches (historyStep steadyChain oneAndOne 5)
      (Orderly steadyChain oneAndOne 5) (.fresh 0) _ :=
    Reaches.start.step (a := .start) trivial rfl
  have hsubscribed := hstarted.step (a := .subscribe) (by
    intro r hr hpending
    cases hr
    cases hpending) rfl
  have hfilled := hsubscribed.of_runActions
    (allowedActions_of_forall (by simp [Orderly]) _)
    (rfl : runActions _ _ (List.replicate 5 .backfillSlot) = some _)
  have htail := hfilled.step (a := .tail) (by
    intro r sub hr hsub slot index _ _ hafter htip
    cases hr
    cases hsub
    change 9 + 0 < slot at hafter
    change slot ≤ 9 + 0 at htip
    omega) rfl
  have hdelivered := htail.of_runActions (allowedActions_of_forall (by simp [Orderly]) _)
    (rfl : runActions _ _ [.wait, .wait, .wait, .deliver 12 0] = some _)
  refine hdelivered.step (a := .crash) ?_ rfl
  intro r hr slot index hindex _ hout _ last hlast
  cases hr
  have hlast12 : last = 12 := (Option.some.inj hlast).symm
  rw [hlast12]
  rcases hout with hnone | hnone | hahead | hnone
  · cases hnone
  · cases hnone
  · rcases hahead with hlater | hsame
    · exact hlater
    · exfalso
      have hslot : 12 = slot := hsame.1
      have hplace : 1 ≤ index := hsame.2
      rw [← hslot] at hindex
      change index < 1 at hindex
      omega
  · cases hnone.1

/-- The run schedules slots 5 to 9 and is cut before it comes to slot 8, after the stream
committed slot 12: the next run starts after 12 and slot 8 is lost. -/
theorem restart_loses_backfill :
    ∃ st, Reaches (historyStep steadyChain oneAndOne 5) (fun _ _ => True) (.fresh 0) st ∧
      ¬ RestartCovers steadyChain oneAndOne 5 st := by
  refine ⟨_, Reaches.of_runActions Reaches.start (allowedActions_of_forall (by simp) _)
    (rfl : runActions _ _ [.start, .subscribe, .wait, .wait, .wait, .deliver 12 0, .crash] =
      some _), ?_⟩
  intro hcovers
  have hslot := hcovers rfl 12 rfl 8 (by decide) (by decide)
  rcases hslot with hprocessed | hscheduled
  · exact absurd (hprocessed 0 (by decide)) (by decide)
  · exact absurd hscheduled (by decide)

end Solarix.Pipeline
