import Solarix.Core.Steps
import Solarix.Pipeline.Decode

/-!
# Streaming

`stream_events` as steps over the events of one session.  Other tasks commit to the same
tables between its steps.
-/

namespace Solarix.Pipeline

open Solarix.Core
open Solarix.Storage (Store Stream)

structure StreamEvent where
  signature : String
  slot : Nat
  error : Option Json

/-- The answer of `get_transaction`, which returns the transaction of the signature. -/
inductive FetchReply where
  | found
  | notFound
  | failed (error : PipelineError)

inductive StreamEnd where
  | cancelled
  | disconnect (slot : Nat)
  | fatal (error : PipelineError)

structure StreamState where
  store : Store
  consecutiveFailures : Nat
  /-- `last_seen_slot` of the session. -/
  lastSeenSlot : Option Nat
  ended : Option StreamEnd
  /-- The events that `next` returned so far. -/
  delivered : List StreamEvent
  /-- Those whose transaction `get_transaction` returned, short of a failed write. -/
  fetched : List StreamEvent

inductive StreamAction where
  | event (event : StreamEvent) (reply : FetchReply) (writeError : Option String)
  | disconnect
  | failure (error : PipelineError)
  | cancel
  | otherTask (stream : Stream) (instructions : List DecodedInstruction) (slot : Nat)
      (signature : Option String)

section Stream

variable (transactions : String → RpcTransaction) (decoder : InstructionDecoder)
  (programId : String) (indexFailedTxs : Bool) (maxConsecutiveFetchFailures : Nat)

def eventInstructions (event : StreamEvent) : List DecodedInstruction :=
  (decodeTransaction decoder programId indexFailedTxs (transactions event.signature)).decoded

def FilteredOut (event : StreamEvent) : Prop :=
  event.error.isSome = true ∧ indexFailedTxs = false

instance (event : StreamEvent) : Decidable (FilteredOut indexFailedTxs event) :=
  inferInstanceAs (Decidable (_ ∧ _))

/-- The last slot of the session, or the `realtime` checkpoint if there is none. -/
def disconnectSlot (lastSeenSlot realtime : Option Nat) : Nat :=
  let slot := lastSeenSlot.getD 0
  if slot = 0 then realtime.getD 0 else slot

/-- `parse_logs_notification` moves the slot of the session up, never down. -/
def seeSlot (lastSeenSlot : Option Nat) (slot : Nat) : Option Nat :=
  match lastSeenSlot with
  | none => some slot
  | some last => if slot > last then some slot else some last

/-- What the loop does with an event after the filter. -/
def fetchEvent (st : StreamState) (event : StreamEvent) (reply : FetchReply)
    (writeError : Option String) : StreamState :=
  match reply with
  | .found =>
      let instructions := eventInstructions transactions decoder programId indexFailedTxs event
      let st := { st with consecutiveFailures := 0 }
      if instructions.isEmpty then { st with fetched := st.fetched ++ [event] }
      else
        match writeError with
        | none =>
            { st with
              store := st.store.writeBlock .realtime instructions event.slot
                (some event.signature)
              fetched := st.fetched ++ [event] }
        | some e => { st with ended := some (.fatal (.storage e)) }
  | .notFound => st
  | .failed e =>
      let failures := st.consecutiveFailures + 1
      let st := { st with consecutiveFailures := failures }
      if failures > maxConsecutiveFetchFailures then
        { st with
          ended := some (.fatal (.fatal (s!"exceeded {maxConsecutiveFetchFailures} " ++
            s!"consecutive getTransaction failures: {e.display}"))) }
      else st

def streamStep (st : StreamState) (action : StreamAction) : Option StreamState :=
  match action, st.ended with
  | .otherTask stream instructions slot signature, _ =>
      if stream = .realtime then none
      else some { st with store := st.store.writeBlock stream instructions slot signature }
  | .event event reply writeError, none =>
      let st := { st with
        lastSeenSlot := seeSlot st.lastSeenSlot event.slot
        delivered := st.delivered ++ [event] }
      if FilteredOut indexFailedTxs event then some st
      else some (fetchEvent transactions decoder programId indexFailedTxs
        maxConsecutiveFetchFailures st event reply writeError)
  | .disconnect, none =>
      some { st with
        ended := some (.disconnect
          (disconnectSlot st.lastSeenSlot (st.store.checkpointSlot .realtime))) }
  | .failure e, none => some { st with ended := some (.fatal e) }
  | .cancel, none => some { st with ended := some .cancelled }
  | _, some _ => none

def StreamState.start (store : Store) : StreamState := ⟨store, 0, none, none, [], []⟩

/-! ## What the checkpoint stands for -/

/-- Up to the `realtime` checkpoint, what the given events stand for is committed, but for
those filtered out. -/
def RealtimeSound (events : List StreamEvent) (st : StreamState) : Prop :=
  ∀ last, st.store.checkpointSlot .realtime = some last →
    ∀ event ∈ events, ¬ FilteredOut indexFailedTxs event → event.slot ≤ last →
      ∀ ix ∈ eventInstructions transactions decoder programId indexFailedTxs event,
        st.store.Committed ix

end Stream

section Invariant

variable {transactions : String → RpcTransaction} {decoder : InstructionDecoder}
  {programId : String} {indexFailedTxs : Bool} {maxConsecutiveFetchFailures : Nat}
  {st st' : StreamState}

def FetchedCommitted (transactions : String → RpcTransaction) (decoder : InstructionDecoder)
    (programId : String) (indexFailedTxs : Bool) (st : StreamState) : Prop :=
  ∀ event ∈ st.fetched,
    ∀ ix ∈ eventInstructions transactions decoder programId indexFailedTxs event,
      st.store.Committed ix

theorem FetchedCommitted.fetchEvent {event : StreamEvent} {reply : FetchReply}
    {writeError : Option String}
    (h : FetchedCommitted transactions decoder programId indexFailedTxs st) :
    FetchedCommitted transactions decoder programId indexFailedTxs
      (fetchEvent transactions decoder programId indexFailedTxs maxConsecutiveFetchFailures
        st event reply writeError) := by
  cases reply with
  | found =>
      simp only [Pipeline.fetchEvent]
      by_cases hempty : (eventInstructions transactions decoder programId indexFailedTxs
          event).isEmpty = true
      · rw [if_pos hempty]
        intro other hother ix hix
        rcases List.mem_append.mp hother with hold | hnew
        · exact h other hold ix hix
        · rw [List.mem_singleton.mp hnew, List.isEmpty_iff.mp hempty] at hix
          cases hix
      · rw [if_neg hempty]
        cases writeError with
        | some e => exact h
        | none =>
            intro other hother ix hix
            rcases List.mem_append.mp hother with hold | hnew
            · exact (h other hold ix hix).writeBlock
            · rw [List.mem_singleton.mp hnew] at hix
              exact Store.committed_of_mem hix
  | notFound => exact h
  | failed e =>
      simp only [Pipeline.fetchEvent]
      split
      · exact h
      · exact h

theorem FetchedCommitted.step {action : StreamAction}
    (h : FetchedCommitted transactions decoder programId indexFailedTxs st)
    (hstep : streamStep transactions decoder programId indexFailedTxs
      maxConsecutiveFetchFailures st action = some st') :
    FetchedCommitted transactions decoder programId indexFailedTxs st' := by
  unfold streamStep at hstep
  split at hstep
  · split at hstep
    · cases hstep
    · cases hstep
      intro event hevent ix hix
      exact (h event hevent ix hix).writeBlock
  · split at hstep
    · cases hstep
      exact h
    · cases hstep
      apply FetchedCommitted.fetchEvent
      exact h
  · cases hstep
    exact h
  · cases hstep
    exact h
  · cases hstep
    exact h
  · cases hstep

/-- In every session the `realtime` checkpoint stands for committed transactions, as far as
`get_transaction` returned them. -/
theorem realtime_checkpoint_sound {store : Store}
    (h : Reaches (streamStep transactions decoder programId indexFailedTxs
        maxConsecutiveFetchFailures) (fun _ _ => True) (.start store) st) :
    RealtimeSound transactions decoder programId indexFailedTxs st.fetched st := by
  have hinv : FetchedCommitted transactions decoder programId indexFailedTxs st := by
    apply h.invariant
    · intro event hevent
      cases hevent
    · intro s a s' hs _ hstep
      exact hs.step hstep
  intro last _ event hevent _ _ ix hix
  exact hinv event hevent ix hix

end Invariant

/-! ## A lost event -/

def swapTransactions (signature : String) : RpcTransaction :=
  swapTransaction (if signature = "a" then 10 else 11) signature

def swapEvent (signature : String) (slot : Nat) : StreamEvent := ⟨signature, slot, none⟩

/-- The event of slot 10 is missed and that of slot 11 is not. -/
def missFirst (reply : FetchReply) : List StreamAction :=
  [.event (swapEvent "a" 10) reply none, .event (swapEvent "b" 11) .found none]

/-- The checkpoint of 11 stands for the event of slot 11, and the one of slot 10 was not
fetched. -/
theorem realtime_checkpoint_sound_swap :
    ∃ st, runActions (streamStep swapTransactions swapDecoder "program" false 100)
        (.start .empty) (missFirst .notFound) = some st ∧
      st.store.checkpointSlot .realtime = some 11 ∧
      st.delivered = [swapEvent "a" 10, swapEvent "b" 11] ∧
      st.fetched = [swapEvent "b" 11] ∧
      RealtimeSound swapTransactions swapDecoder "program" false st.fetched st := by
  refine ⟨_, rfl, rfl, rfl, rfl, ?_⟩
  refine @realtime_checkpoint_sound swapTransactions swapDecoder "program" false 100 _ .empty ?_
  exact Reaches.of_runActions Reaches.start (allowedActions_of_forall (by simp) _)
    (rfl : runActions _ _ (missFirst .notFound) = some _)

/-- The checkpoint reaches 11 without the `swap` of slot 10, when its transaction is not
found yet and when `get_transaction` fails. -/
theorem stream_loses_missed_event :
    (∃ st, runActions (streamStep swapTransactions swapDecoder "program" false 100)
        (.start .empty) (missFirst .notFound) = some st ∧
      ¬ RealtimeSound swapTransactions swapDecoder "program" false st.delivered st) ∧
    ∃ st, runActions (streamStep swapTransactions swapDecoder "program" false 100)
        (.start .empty) (missFirst (.failed (.rpcFailed "timeout"))) = some st ∧
      ¬ RealtimeSound swapTransactions swapDecoder "program" false st.delivered st := by
  refine ⟨⟨_, rfl, fun hsound => ?_⟩, ⟨_, rfl, fun hsound => ?_⟩⟩
  · have hevent := hsound 11 rfl (swapEvent "a" 10) List.mem_cons_self (by decide) (by decide)
    exact absurd (hevent _ (List.mem_singleton.mpr rfl)) (by decide)
  · have hevent := hsound 11 rfl (swapEvent "a" 10) List.mem_cons_self (by decide) (by decide)
    exact absurd (hevent _ (List.mem_singleton.mpr rfl)) (by decide)

end Solarix.Pipeline
