import Solarix.Core.Steps
import Solarix.Pipeline.ColdStart
import Solarix.Pipeline.Stream

/-!
# Reconnecting

`run_streaming` as sessions of one subscription each.  A session delivers the program's
transactions in order, starting after the confirmed tip of its subscription, until it is
cut at an arbitrary point; then `mini_backfill` schedules a range up to the finalized tip
and the next session begins.
-/

namespace Solarix.Pipeline

open Solarix.Core

/-- A program transaction: its slot and its place among the slot's program
transactions. -/
abbrev Place := Nat × Nat

def AtOrAfter (cursor place : Place) : Prop :=
  cursor.1 < place.1 ∨ (cursor.1 = place.1 ∧ cursor.2 ≤ place.2)

instance (cursor place : Place) : Decidable (AtOrAfter cursor place) :=
  inferInstanceAs (Decidable (_ ∨ _))

structure SessionState where
  time : Nat
  /-- The confirmed tip when the session subscribed. -/
  subscribed : Nat
  /-- Where the session is: everything after `subscribed` and before the cursor has been
  delivered. -/
  cursor : Place
  lastSeenSlot : Option Nat
  /-- The `realtime` checkpoint. -/
  realtime : Option Nat
  /-- The transactions that all sessions delivered. -/
  delivered : List Place
  /-- The ranges given to `mini_backfill`'s chunks. -/
  scheduled : List (Nat × Nat)

inductive SessionAction where
  /-- The chain goes on. -/
  | wait
  /-- A notification; `written` when the transaction has something to store. -/
  | deliver (slot index : Nat) (written : Bool)
  /-- A disconnect, the new subscription and the `get_slot` of `mini_backfill`. -/
  | reconnect (subscribedAt tipAt : Nat)

/-- `mini_backfill`, which `run_streaming` skips for slot 0. -/
def gapRange (disconnect chainTip : Nat) : List (Nat × Nat) :=
  if disconnect > 0 then
    let gapStart := saturatingAdd disconnect 1
    if gapStart > chainTip then [] else [(gapStart, chainTip)]
  else []

section Sessions

variable (chain : Chain) (program : Nat → Nat)

def IsNext (cursor : Place) (slot index : Nat) : Prop :=
  index < program slot ∧
    ((slot = cursor.1 ∧ index = cursor.2) ∨
      (cursor.1 < slot ∧ index = 0 ∧ program cursor.1 ≤ cursor.2 ∧
        ∀ between < slot, cursor.1 < between → program between = 0))

instance (cursor : Place) (slot index : Nat) : Decidable (IsNext program cursor slot index) :=
  inferInstanceAs (Decidable (_ ∧ _))

def SessionState.start (time : Nat) (realtime : Option Nat) : SessionState where
  time := time
  subscribed := chain.confirmed time
  cursor := (chain.confirmed time + 1, 0)
  lastSeenSlot := none
  realtime := realtime
  delivered := []
  scheduled := []

def sessionStep (st : SessionState) : SessionAction → Option SessionState
  | .wait => some { st with time := st.time + 1 }
  | .deliver slot index written =>
      if slot ≤ chain.confirmed st.time ∧ IsNext program st.cursor slot index then
        some { st with
          cursor := (slot, index + 1)
          lastSeenSlot := seeSlot st.lastSeenSlot slot
          realtime := if written then some slot else st.realtime
          delivered := st.delivered ++ [(slot, index)] }
      else none
  | .reconnect subscribedAt tipAt =>
      if st.time ≤ subscribedAt ∧ subscribedAt ≤ tipAt then
        some { st with
          time := tipAt
          subscribed := chain.confirmed subscribedAt
          cursor := (chain.confirmed subscribedAt + 1, 0)
          lastSeenSlot := none
          scheduled := st.scheduled ++
            gapRange (disconnectSlot st.lastSeenSlot st.realtime) (chain.finalized tipAt) }
      else none

def SessionState.Covers (st : SessionState) (place : Place) : Prop :=
  place ∈ st.delivered ∨ ∃ range ∈ st.scheduled, range.1 ≤ place.1 ∧ place.1 ≤ range.2

def SessionState.Ahead (st : SessionState) (place : Place) : Prop :=
  AtOrAfter st.cursor place

/-- Every program transaction between two delivered slots is covered, or the running
session has not come to it yet. -/
def ReconnectCovers (st : SessionState) : Prop :=
  ∀ first ∈ st.delivered, ∀ last ∈ st.delivered, ∀ slot index, index < program slot →
    first.1 ≤ slot → slot ≤ last.1 → st.Covers (slot, index) ∨ st.Ahead (slot, index)

/-- Once something was delivered, a reconnect leaves no seam: what was not delivered of the
slots between the two subscriptions comes after the disconnect slot, which is not 0, and
not after the finalized tip. -/
def Seamless (st : SessionState) : SessionAction → Prop
  | .reconnect subscribedAt tipAt =>
      st.delivered ≠ [] → ∀ slot index, index < program slot →
        st.subscribed < slot → slot ≤ chain.confirmed subscribedAt →
          (slot, index) ∉ st.delivered →
            0 < disconnectSlot st.lastSeenSlot st.realtime ∧
              disconnectSlot st.lastSeenSlot st.realtime < slot ∧
              slot ≤ chain.finalized tipAt
  | _ => True

end Sessions

section Invariant

variable {chain : Chain} {program : Nat → Nat} {st st' : SessionState}

/-- Everything up to the subscription is covered, and from there on the session has
delivered whatever is before its cursor. -/
structure SessionInv (program : Nat → Nat) (st : SessionState) : Prop where
  behind : ∀ first ∈ st.delivered, ∀ slot index, index < program slot →
    first.1 ≤ slot → slot ≤ st.subscribed → st.Covers (slot, index)
  session : ∀ slot index, index < program slot → st.subscribed < slot →
    ¬ st.Ahead (slot, index) → (slot, index) ∈ st.delivered
  cursor : st.subscribed < st.cursor.1

theorem mem_gapRange {disconnect chainTip slot : Nat} (hpos : 0 < disconnect)
    (hafter : disconnect < slot) (htip : slot ≤ chainTip) :
    ∃ range ∈ gapRange disconnect chainTip, range.1 ≤ slot ∧ slot ≤ range.2 := by
  have hstart : saturatingAdd disconnect 1 ≤ slot := by
    unfold saturatingAdd
    omega
  have hgap : gapRange disconnect chainTip = [(saturatingAdd disconnect 1, chainTip)] := by
    unfold gapRange
    rw [if_pos hpos]
    exact if_neg (by omega)
  rw [hgap]
  exact ⟨_, List.mem_singleton.mpr rfl, hstart, htip⟩

theorem atOrAfter_fresh {tip slot index : Nat} (hafter : tip < slot) :
    AtOrAfter (tip + 1, 0) (slot, index) := by
  by_cases hfirst : tip + 1 = slot
  · exact Or.inr ⟨hfirst, Nat.zero_le _⟩
  · exact Or.inl (show tip + 1 < slot by omega)

theorem IsNext.le {cursor : Place} {slot index : Nat} (h : IsNext program cursor slot index) :
    cursor.1 ≤ slot := by
  rcases h.2 with hsame | hlater
  · exact hsame.1.ge
  · exact hlater.1.le

theorem IsNext.eq_or_lt {cursor : Place} {slot index other place : Nat}
    (h : IsNext program cursor slot index) (hplace : place < program other)
    (hbefore : ¬ AtOrAfter (slot, index + 1) (other, place)) :
    (other, place) = (slot, index) ∨ ¬ AtOrAfter cursor (other, place) := by
  unfold AtOrAfter at hbefore ⊢
  simp only at hbefore ⊢
  rcases h.2 with ⟨rfl, rfl⟩ | ⟨hlt, rfl, hdone, hbetween⟩
  · by_cases hsame : cursor.1 = other ∧ cursor.2 = place
    · exact Or.inl (by rw [← hsame.1, ← hsame.2])
    · exact Or.inr (by omega)
  · by_cases hother : other = slot
    · subst hother
      exact Or.inl (by rw [show place = 0 by omega])
    · refine Or.inr ?_
      intro hahead
      rcases hahead with hmid | ⟨rfl, hle⟩
      · have hnone := hbetween other (by omega) hmid
        omega
      · omega

theorem SessionInv.deliver {slot index : Nat} {lastSeenSlot realtime : Option Nat}
    (h : SessionInv program st) (hnext : IsNext program st.cursor slot index) :
    SessionInv program { st with
      cursor := (slot, index + 1)
      lastSeenSlot := lastSeenSlot
      realtime := realtime
      delivered := st.delivered ++ [(slot, index)] } := by
  have hslot := hnext.le
  have hcursor := h.cursor
  refine ⟨?_, ?_, ?_⟩
  · intro first hfirst other place hplace hle hbehind
    rcases List.mem_append.mp hfirst with hold | hnew
    · rcases h.behind first hold other place hplace hle hbehind with hdelivered | hrange
      · exact Or.inl (List.mem_append_left _ hdelivered)
      · exact Or.inr hrange
    · rw [List.mem_singleton.mp hnew] at hle
      exfalso
      have hle' : slot ≤ other := hle
      have hbehind' : other ≤ st.subscribed := hbehind
      omega
  · intro other place hplace hafter hbefore
    rcases hnext.eq_or_lt hplace hbefore with heq | hold
    · rw [heq]
      exact List.mem_append_right _ (List.mem_singleton.mpr rfl)
    · exact List.mem_append_left _ (h.session other place hplace hafter hold)
  · exact lt_of_lt_of_le hcursor hslot

theorem SessionInv.reconnect {subscribedAt tipAt : Nat} (h : SessionInv program st)
    (hseamless : Seamless chain program st (.reconnect subscribedAt tipAt)) :
    SessionInv program { st with
      time := tipAt
      subscribed := chain.confirmed subscribedAt
      cursor := (chain.confirmed subscribedAt + 1, 0)
      lastSeenSlot := none
      scheduled := st.scheduled ++
        gapRange (disconnectSlot st.lastSeenSlot st.realtime) (chain.finalized tipAt) } := by
  refine ⟨?_, ?_, Nat.lt_succ_self _⟩
  · intro first hfirst slot index hindex hle hbehind
    by_cases hold : slot ≤ st.subscribed
    · rcases h.behind first hfirst slot index hindex hle hold with hdelivered | hrange
      · exact Or.inl hdelivered
      · obtain ⟨range, hrange, hin⟩ := hrange
        exact Or.inr ⟨range, List.mem_append_left _ hrange, hin⟩
    · by_cases hdelivered : (slot, index) ∈ st.delivered
      · exact Or.inl hdelivered
      · have hgap := hseamless (List.ne_nil_of_mem hfirst) slot index hindex (by omega)
          hbehind hdelivered
        obtain ⟨range, hrange, hin⟩ := mem_gapRange hgap.1 hgap.2.1 hgap.2.2
        exact Or.inr ⟨range, List.mem_append_right _ hrange, hin⟩
  · intro slot index _ hafter hbefore
    exact absurd (atOrAfter_fresh hafter) hbefore

theorem SessionInv.step {action : SessionAction} (h : SessionInv program st)
    (hseamless : Seamless chain program st action)
    (hstep : sessionStep chain program st action = some st') : SessionInv program st' := by
  cases action with
  | wait =>
      cases hstep
      exact ⟨h.behind, h.session, h.cursor⟩
  | deliver slot index written =>
      simp only [sessionStep] at hstep
      split at hstep
      · rename_i hguard
        cases hstep
        exact h.deliver hguard.2
      · cases hstep
  | reconnect subscribedAt tipAt =>
      simp only [sessionStep] at hstep
      split at hstep
      · cases hstep
        exact h.reconnect hseamless
      · cases hstep

theorem SessionInv.covers (h : SessionInv program st) : ReconnectCovers program st := by
  intro first hfirst last _ slot index hindex hle _
  by_cases hbehind : slot ≤ st.subscribed
  · exact Or.inl (h.behind first hfirst slot index hindex hle hbehind)
  · by_cases hahead : st.Ahead (slot, index)
    · exact Or.inr hahead
    · exact Or.inl (Or.inl (h.session slot index hindex (by omega) hahead))

theorem SessionInv.start (time : Nat) (realtime : Option Nat) :
    SessionInv program (.start chain time realtime) := by
  refine ⟨?_, ?_, Nat.lt_succ_self _⟩
  · intro first hfirst
    cases hfirst
  · intro slot index _ hafter hbefore
    exact absurd (atOrAfter_fresh hafter) hbefore

/-- In every history whose reconnects are seamless, no program transaction between two
delivered slots is missed. -/
theorem reconnect_covers {time : Nat} {realtime : Option Nat}
    (h : Reaches (sessionStep chain program) (Seamless chain program)
      (.start chain time realtime) st) : ReconnectCovers program st := by
  apply SessionInv.covers
  apply h.invariant
  · exact SessionInv.start time realtime
  · intro s a s' hs ha hstep
    exact hs.step ha hstep

end Invariant

/-! ## A cut slot -/

/-- One slot after the other, finalized at once. -/
def steadyChain : Chain where
  finalized time := 9 + time
  confirmed time := 9 + time
  finalized_mono := fun _ _ h => Nat.add_le_add_left h 9
  confirmed_mono := fun _ _ h => Nat.add_le_add_left h 9
  finalized_le_confirmed _ := le_rfl

def twoAndOne (slot : Nat) : Nat := if slot = 10 then 2 else if slot = 12 then 1 else 0

theorem reconnect_covers_whole_slot :
    ∃ st, runActions (sessionStep steadyChain twoAndOne) (.start steadyChain 0 none)
        [.wait, .deliver 10 0 true, .deliver 10 1 true, .reconnect 2 2, .wait,
          .deliver 12 0 true] = some st ∧
      st.delivered = [(10, 0), (10, 1), (12, 0)] ∧ ReconnectCovers twoAndOne st := by
  refine ⟨_, rfl, rfl, ?_⟩
  refine @reconnect_covers steadyChain twoAndOne _ 0 none ?_
  have hfirst : Reaches (sessionStep steadyChain twoAndOne) (Seamless steadyChain twoAndOne)
      (.start steadyChain 0 none) _ :=
    Reaches.of_runActions Reaches.start (allowedActions_of_forall (by simp [Seamless]) _)
      (rfl : runActions _ _ [.wait, .deliver 10 0 true, .deliver 10 1 true] = some _)
  have hcut := hfirst.step (a := .reconnect 2 2) (by
    intro _ slot index hindex hafter htip hmissing
    have hslot : slot = 10 ∨ slot = 11 := by
      change 9 + 0 < slot at hafter
      change slot ≤ 9 + 2 at htip
      omega
    rcases hslot with rfl | rfl
    · change index < 2 at hindex
      have hplace : index = 0 ∨ index = 1 := by omega
      rcases hplace with rfl | rfl
      · exact absurd (by decide) hmissing
      · exact absurd (by decide) hmissing
    · exact absurd hindex (Nat.not_lt_zero _)) rfl
  exact Reaches.of_runActions hcut (allowedActions_of_forall (by simp [Seamless]) _)
    (rfl : runActions _ _ [.wait, .deliver 12 0 true] = some _)

/-- The session is cut in the middle of slot 10: its second transaction is neither
delivered nor in the range that `mini_backfill` is given. -/
theorem reconnect_loses_cut_slot :
    ∃ st, Reaches (sessionStep steadyChain twoAndOne) (fun _ _ => True)
        (.start steadyChain 0 none) st ∧ ¬ ReconnectCovers twoAndOne st := by
  refine ⟨_, Reaches.of_runActions Reaches.start (allowedActions_of_forall (by simp) _)
    (rfl : runActions _ _ [.wait, .deliver 10 0 true, .reconnect 2 2, .wait,
      .deliver 12 0 true] = some _), ?_⟩
  intro hcovers
  have hplace := hcovers (10, 0) (by decide) (12, 0) (by decide) 10 1 (by decide) (by decide)
    (by decide)
  unfold SessionState.Covers SessionState.Ahead at hplace
  revert hplace
  decide

end Solarix.Pipeline
