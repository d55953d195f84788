import Mathlib.Data.Prod.Lex
import Solarix.Pipeline.Backfill
import Solarix.Pipeline.IndexerState

/-!
# Cancelling a backfill

`run_backfill` around its two tasks: the status it writes, the heartbeat after each chunk
and the end of the run.  The producer looks at the token between two blocks, the writer
leaves its loop as soon as the token is set and the channel is drained.  A block that the
producer has in hand by then finds the channel closed.
-/

namespace Solarix.Pipeline

open Solarix.Core
open Solarix.Storage (Store Stream)

structure BackfillRun where
  tasks : BackfillState
  /-- The end of the chunk whose heartbeat is due. -/
  heartbeat : Option Nat
  /-- Batches that were sent after the writer left its loop. -/
  lost : List WriteBatch
  /-- The writer task has returned, and the channel with it. -/
  receiverDropped : Bool
  /-- What `run_backfill` wrote to `indexer_state.status`. -/
  statuses : List IndexerStatus
  returned : Option (Except PipelineError Unit)

inductive RunAction where
  | task (action : BackfillAction)
  /-- `update_indexer_state` after a chunk, with its error. -/
  | heartbeat (error : Option String)
  | dropReceiver
  /-- The tasks are joined and the outcome is recorded, with the error of the update. -/
  | finish (error : Option String)

/-- The steps that `run_backfill` and its tasks make themselves. -/
def RunAction.own : RunAction → Bool
  | .task .cancel => false
  | .task (.otherTask _) => false
  | _ => true

/-- The state after the first update, or the early return of an empty range. -/
def BackfillRun.start (store : Store) (startSlot endSlot chunkSize : Nat) : BackfillRun where
  tasks := runBackfill store startSlot endSlot chunkSize
  heartbeat := none
  lost := []
  receiverDropped := false
  statuses :=
    if effectiveStart (store.checkpointSlot .backfill) startSlot > endSlot then []
    else [.backfilling]
  returned :=
    if effectiveStart (store.checkpointSlot .backfill) startSlot > endSlot then some (.ok ())
    else none

def BackfillRun.record (st : BackfillRun) (result : Except PipelineError Unit)
    (error : Option String) : BackfillRun :=
  match result with
  | .ok () =>
      if st.tasks.cancelled then { st with returned := some (.ok ()) }
      else
        match error with
        | none => { st with statuses := st.statuses ++ [.idle], returned := some (.ok ()) }
        | some e => { st with returned := some (.error (.storage e)) }
  | .error e =>
      { st with
        statuses := if error = none then st.statuses ++ [.failed] else st.statuses
        returned := some (.error e) }

section Run

variable (ledger : Ledger) (decoder : InstructionDecoder) (programId : String)
  (indexFailedTxs : Bool) (channelCapacity : Nat)

def taskStep (st : BackfillRun) (action : BackfillAction) : Option BackfillRun :=
  let step := backfillStep ledger decoder programId indexFailedTxs channelCapacity .backfill
    st.tasks action
  match action with
  | .listChunk _ =>
      match st.heartbeat, st.tasks.chunks with
      | none, chunk :: _ =>
          step.map fun tasks =>
            { st with
              tasks := tasks
              heartbeat := if tasks.producer = none then some chunk.2 else none }
      | _, _ => none
  | .send =>
      match st.tasks.producer, st.tasks.sending, st.tasks.writer, st.receiverDropped with
      -- the writer has left its loop, but the receiver is still there
      | none, some batch, .finished _, false =>
          if st.lost.length < channelCapacity then
            some { st with
              tasks := { st.tasks with sending := none }
              lost := st.lost ++ [batch] }
          else none
      | _, _, _, _ => step.map fun tasks => { st with tasks := tasks }
  | .endChunks =>
      if st.heartbeat.isNone then step.map fun tasks => { st with tasks := tasks } else none
  | _ => step.map fun tasks => { st with tasks := tasks }

def runStep (st : BackfillRun) (action : RunAction) : Option BackfillRun :=
  match st.returned with
  | some _ => none
  | none =>
      match action with
      | .task action => taskStep ledger decoder programId indexFailedTxs channelCapacity st action
      | .heartbeat error =>
          match st.tasks.producer, st.tasks.sending, st.heartbeat with
          | none, none, some _ =>
              if st.tasks.cancelled ∨ st.tasks.pending = [] then
                some { st with
                  heartbeat := none
                  statuses :=
                    if error = none then st.statuses ++ [.backfilling] else st.statuses }
              else none
          | _, _, _ => none
      | .dropReceiver =>
          match st.tasks.writer, st.receiverDropped with
          | .finished _, false => some { st with receiverDropped := true }
          | _, _ => none
      | .finish error =>
          match st.tasks.returned, st.receiverDropped with
          | some result, true => some (st.record result error)
          | _, _ => none

def NoFailure : RunAction → Prop
  | .task (.listChunk answer) => ∀ range, ∃ slots, answer range = .ok slots
  | .task (.fetch error) => error = none
  | .task (.receive error) => error = none
  | .task (.drain error) => error = none
  | .heartbeat error => error = none
  | .finish error => error = none
  | _ => True

/-- The writer task does not end while the producer has a batch in hand. -/
def HandsEmpty (st : BackfillRun) (action : RunAction) : Prop :=
  action = .dropReceiver → st.tasks.sending = none

/-- The steps of an unhurried run: no call fails, and the writer leaves nothing behind. -/
def Unhurried (st : BackfillRun) (action : RunAction) : Prop :=
  NoFailure action ∧ HandsEmpty st action

def Graceful (st : BackfillRun) : Prop :=
  (st.returned = none ∨ st.returned = some (.ok ())) ∧ .failed ∉ st.statuses

end Run

/-! ## What a step can do -/

section Effects

variable {ledger : Ledger} {decoder : InstructionDecoder} {programId : String}
  {indexFailedTxs : Bool} {channelCapacity : Nat} {st st' : BackfillRun}

inductive Effect (st : BackfillRun) : Bool → BackfillRun → Prop where
  | cancel : Effect st false { st with tasks := { st.tasks with cancelled := true } }
  | otherTask (store : Store) :
      Effect st false { st with tasks := { st.tasks with store := store } }
  | listChunk {chunks : List (Nat × Nat)} (slots listed : List Nat) (heartbeat : Option Nat)
      (hproducer : st.tasks.producer = none) (hsending : st.tasks.sending = none)
      (hchunks : st.tasks.chunks.length = chunks.length + 1) :
      Effect st true { st with
        tasks := { st.tasks with chunks := chunks, pending := slots, listed := listed }
        heartbeat := heartbeat }
  | fetch {slot : Nat} {rest : List Nat} (sending : Option WriteBatch)
      (hproducer : st.tasks.producer = none) (hcancelled : st.tasks.cancelled = false)
      (hsending : st.tasks.sending = none) (hpending : st.tasks.pending = slot :: rest) :
      Effect st true { st with tasks := { st.tasks with pending := rest, sending := sending } }
  | send {batch : WriteBatch} (hproducer : st.tasks.producer = none)
      (hsending : st.tasks.sending = some batch)
      (hopen : ∀ result, st.tasks.writer ≠ .finished result) :
      Effect st true { st with
        tasks := { st.tasks with sending := none, channel := st.tasks.channel ++ [batch] } }
  | sendLate {batch : WriteBatch} {result : Except PipelineError Unit}
      (hproducer : st.tasks.producer = none) (hsending : st.tasks.sending = some batch)
      (hwriter : st.tasks.writer = .finished result) :
      Effect st true { st with
        tasks := { st.tasks with sending := none }
        lost := st.lost ++ [batch] }
  | sendFails {batch : WriteBatch} (error : PipelineError) (hproducer : st.tasks.producer = none)
      (hsending : st.tasks.sending = some batch) (hdropped : st.receiverDropped = true) :
      Effect st true { st with tasks := { st.tasks with producer := some (.error error) } }
  | endChunks (hproducer : st.tasks.producer = none) (hsending : st.tasks.sending = none) :
      Effect st true { st with tasks := { st.tasks with producer := some (.ok ()) } }
  | write {batch : WriteBatch} {rest : List WriteBatch} (store : Store)
      (hchannel : st.tasks.channel = batch :: rest) :
      Effect st true { st with tasks := { st.tasks with store := store, channel := rest } }
  | beginDrain (hwriter : st.tasks.writer = .running) (hcancelled : st.tasks.cancelled = true) :
      Effect st true { st with tasks := { st.tasks with writer := .draining } }
  | endWriter (hwriter : (st.tasks.writer = .running ∧ st.tasks.producer ≠ none) ∨
        st.tasks.writer = .draining) :
      Effect st true { st with tasks := { st.tasks with writer := .finished (.ok ()) } }
  | heartbeat {stop : Nat} (hproducer : st.tasks.producer = none)
      (hheartbeat : st.heartbeat = some stop) :
      Effect st true { st with heartbeat := none, statuses := st.statuses ++ [.backfilling] }
  | dropReceiver {result : Except PipelineError Unit} (hwriter : st.tasks.writer = .finished result)
      (hdropped : st.receiverDropped = false) (hsending : st.tasks.sending = none) :
      Effect st true { st with receiverDropped := true }
  | finish {result : Except PipelineError Unit} (hreturned : st.returned = none)
      (hresult : st.tasks.returned = some result) :
      Effect st true (st.record result none)

theorem getBlocks_ok {answer : Nat × Nat → Except PipelineError (List Nat)}
    (hanswer : ∀ range, ∃ slots, answer range = .ok slots) (startSlot endSlot : Nat) :
    ∃ slots, getBlocks answer startSlot endSlot = .ok slots := by
  have hmap : ∀ ranges : List (Nat × Nat), ∃ replies, ranges.mapM answer = .ok replies := by
    intro ranges
    induction ranges with
    | nil => exact ⟨[], rfl⟩
    | cons range ranges ih =>
        obtain ⟨slots, hslots⟩ := hanswer range
        obtain ⟨replies, hreplies⟩ := ih
        refine ⟨slots :: replies, ?_⟩
        rw [List.mapM_cons, hslots, hreplies]
        rfl
  obtain ⟨replies, hreplies⟩ := hmap (computeBlockChunks startSlot endSlot)
  refine ⟨replies.flatten, ?_⟩
  unfold getBlocks
  rw [hreplies]
  rfl

theorem effect_of_taskStep {action : BackfillAction} (hfailure : NoFailure (.task action))
    (hstep : taskStep ledger decoder programId indexFailedTxs channelCapacity st action =
      some st') : Effect st (RunAction.task action).own st' := by
  cases action with
  | cancel =>
      cases hstep
      exact .cancel
  | otherTask batch =>
      simp only [taskStep, backfillStep] at hstep
      split at hstep
      · cases hstep
      · cases hstep
        exact .otherTask _
  | listChunk answer =>
      simp only [taskStep, backfillStep] at hstep
      split at hstep
      · split at hstep
        · rename_i hproducer _ hsending _ hchunks
          obtain ⟨slots, hslots⟩ := getBlocks_ok hfailure _ _
          rw [hslots] at hstep
          cases hstep
          exact .listChunk _ _ _ hproducer hsending (by rw [hchunks]; rfl)
        · cases hstep
      · cases hstep
  | fetch error =>
      cases hfailure
      simp only [taskStep, backfillStep] at hstep
      split at hstep
      · rename_i hproducer hcancelled hsending hpending
        cases hstep
        exact .fetch _ hproducer hcancelled hsending hpending
      · cases hstep
  | send =>
      simp only [taskStep] at hstep
      split at hstep
      · rename_i hproducer hsending hwriter _
        split at hstep
        · cases hstep
          exact .sendLate hproducer hsending hwriter
        · cases hstep
      · rename_i hlate
        simp only [backfillStep] at hstep
        split at hstep
        · rename_i hproducer hsending hwriter
          cases hstep
          refine .sendFails _ hproducer hsending ?_
          by_contra hdropped
          exact hlate _ _ hproducer hsending hwriter (by simpa using hdropped)
        · rename_i hproducer hsending hopen
          split at hstep
          · cases hstep
            exact .send hproducer hsending hopen
          · cases hstep
        · cases hstep
  | endChunks =>
      simp only [taskStep, backfillStep] at hstep
      split at hstep
      · split at hstep
        · rename_i hproducer hsending
          split at hstep
          · cases hstep
            exact .endChunks hproducer hsending
          · cases hstep
        · cases hstep
      · cases hstep
  | receive error =>
      cases hfailure
      simp only [taskStep, backfillStep] at hstep
      split at hstep
      · rename_i hchannel _
        cases hstep
        exact .write _ hchannel
      · rename_i h
        cases h
      · cases hstep
  | beginDrain =>
      simp only [taskStep, backfillStep] at hstep
      split at hstep
      · rename_i hwriter
        split at hstep
        · rename_i hcancelled
          cases hstep
          exact .beginDrain hwriter hcancelled
        · cases hstep
      · cases hstep
  | drain error =>
      cases hfailure
      simp only [taskStep, backfillStep] at hstep
      split at hstep
      · rename_i hchannel _
        cases hstep
        exact .write _ hchannel
      · rename_i h
        cases h
      · cases hstep
  | endWriter =>
      simp only [taskStep, backfillStep] at hstep
      split at hstep
      · rename_i hwriter _ hproducer
        cases hstep
        exact .endWriter (.inl ⟨hwriter, by simp [hproducer]⟩)
      · rename_i hwriter _
        cases hstep
        exact .endWriter (.inr hwriter)
      · cases hstep

theorem effect_of_runStep {action : RunAction} (hallowed : Unhurried st action)
    (hstep : runStep ledger decoder programId indexFailedTxs channelCapacity st action =
      some st') : Effect st action.own st' := by
  obtain ⟨hfailure, hhands⟩ := hallowed
  unfold runStep at hstep
  split at hstep
  · cases hstep
  · rename_i hreturned
    cases action with
    | task action => exact effect_of_taskStep hfailure hstep
    | heartbeat error =>
        cases hfailure
        simp only at hstep
        split at hstep
        · rename_i hproducer _ hheartbeat
          split at hstep
          · cases hstep
            exact .heartbeat hproducer hheartbeat
          · cases hstep
        · cases hstep
    | dropReceiver =>
        simp only at hstep
        split at hstep
        · rename_i hwriter hdropped
          cases hstep
          exact .dropReceiver hwriter hdropped (hhands rfl)
        · cases hstep
    | finish error =>
        cases hfailure
        simp only at hstep
        split at hstep
        · rename_i hresult _
          cases hstep
          exact .finish hreturned hresult
        · cases hstep

end Effects

/-! ## The invariant -/

section Invariant

variable {ledger : Ledger} {decoder : InstructionDecoder} {programId : String}
  {indexFailedTxs : Bool} {channelCapacity : Nat} {st st' : BackfillRun}

structure CancelInv (st : BackfillRun) : Prop where
  producer_ok : st.tasks.producer = none ∨ st.tasks.producer = some (.ok ())
  writer_ok : ∀ result, st.tasks.writer = .finished result → result = .ok ()
  /-- While the producer runs, the writer leaves its loop for the cancellation only. -/
  drained : st.tasks.producer = none → st.tasks.writer ≠ .running → st.tasks.cancelled = true
  sent : st.tasks.producer = some (.ok ()) → st.tasks.sending = none
  dropped : st.receiverDropped = true →
    st.tasks.writer = .finished (.ok ()) ∧ st.tasks.sending = none
  late : st.lost ≠ [] → st.tasks.writer = .finished (.ok ()) ∧ st.tasks.sending = none
  graceful : Graceful st

theorem CancelInv.start (store : Store) (startSlot endSlot chunkSize : Nat) :
    CancelInv (.start store startSlot endSlot chunkSize) := by
  unfold BackfillRun.start runBackfill BackfillState.over
  constructor
  · by_cases h : effectiveStart (store.checkpointSlot .backfill) startSlot > endSlot <;> simp [h]
  · by_cases h : effectiveStart (store.checkpointSlot .backfill) startSlot > endSlot <;>
      simp [h, eq_comm]
  · by_cases h : effectiveStart (store.checkpointSlot .backfill) startSlot > endSlot <;> simp [h]
  · simp
  · simp
  · simp
  · unfold Graceful
    by_cases h : effectiveStart (store.checkpointSlot .backfill) startSlot > endSlot <;> simp [h]

theorem CancelInv.returned_ok (hst : CancelInv st) {result : Except PipelineError Unit}
    (hresult : st.tasks.returned = some result) : result = .ok () := by
  unfold BackfillState.returned at hresult
  split at hresult
  · rename_i hproducer _
    cases hst.producer_ok with
    | inl h => cases hproducer.symm.trans h
    | inr h => cases hproducer.symm.trans h
  · rename_i hwriter
    cases hresult
    exact hst.writer_ok _ hwriter
  · cases hresult

theorem CancelInv.record (hst : CancelInv st) (result : Except PipelineError Unit)
    (hresult : result = .ok ()) : CancelInv (st.record result none) := by
  subst hresult
  unfold BackfillRun.record
  by_cases hcancelled : st.tasks.cancelled = true
  · simp only [hcancelled, if_true]
    exact { hst with graceful := ⟨.inr rfl, hst.graceful.2⟩ }
  · simp only [hcancelled]
    refine { hst with graceful := ⟨.inr rfl, ?_⟩ }
    simpa using hst.graceful.2

theorem CancelInv.effect {own : Bool} (hst : CancelInv st) (heffect : Effect st own st') :
    CancelInv st' := by
  cases heffect with
  | cancel => exact { hst with drained := fun _ _ => rfl }
  | otherTask store => exact { hst with }
  | listChunk slots listed heartbeat hproducer hsending hchunks => exact { hst with }
  | fetch sending hproducer hcancelled hsending hpending =>
      -- the writer still runs: it would have seen the token otherwise
      have hrunning : st.tasks.writer = .running := by
        by_contra hwriter
        simp [hst.drained hproducer hwriter] at hcancelled
      refine { hst with sent := ?_, dropped := ?_, late := ?_ }
      · simp [hproducer]
      · intro hdropped
        cases hrunning.symm.trans (hst.dropped hdropped).1
      · intro hlost
        cases hrunning.symm.trans (hst.late hlost).1
  | send hproducer hsending hopen =>
      exact { hst with
        sent := fun _ => rfl
        dropped := fun hdropped => ⟨(hst.dropped hdropped).1, rfl⟩
        late := fun hlost => ⟨(hst.late hlost).1, rfl⟩ }
  | sendLate hproducer hsending hwriter =>
      rw [hst.writer_ok _ hwriter] at hwriter
      exact { hst with
        sent := fun _ => rfl
        dropped := fun _ => ⟨hwriter, rfl⟩
        late := fun _ => ⟨hwriter, rfl⟩ }
  | sendFails error hproducer hsending hdropped =>
      cases hsending.symm.trans (hst.dropped hdropped).2
  | endChunks hproducer hsending =>
      exact { hst with
        producer_ok := .inr rfl
        drained := nofun
        sent := fun _ => hsending }
  | write store hchannel => exact { hst with }
  | beginDrain hwriter hcancelled =>
      refine { hst with
        writer_ok := nofun
        drained := fun _ _ => hcancelled
        dropped := ?_
        late := ?_ }
      · intro hdropped
        cases hwriter.symm.trans (hst.dropped hdropped).1
      · intro hlost
        cases hwriter.symm.trans (hst.late hlost).1
  | endWriter hwriter =>
      refine { hst with writer_ok := ?_, drained := ?_, dropped := ?_, late := ?_ }
      · intro result hresult
        exact (WriterState.finished.inj hresult).symm
      · intro hproducer _
        obtain ⟨_, hended⟩ | hdraining := hwriter
        · exact absurd hproducer hended
        · exact hst.drained hproducer (by simp [hdraining])
      · intro hdropped
        exact ⟨rfl, (hst.dropped hdropped).2⟩
      · intro hlost
        exact ⟨rfl, (hst.late hlost).2⟩
  | heartbeat hproducer hheartbeat =>
      refine { hst with graceful := ⟨hst.graceful.1, ?_⟩ }
      simpa using hst.graceful.2
  | dropReceiver hwriter hdropped hsending =>
      rw [hst.writer_ok _ hwriter] at hwriter
      exact { hst with dropped := fun _ => ⟨hwriter, hsending⟩ }
  | finish hreturned hresult => exact hst.record _ (hst.returned_ok hresult)

theorem cancelInv_of_reaches {store : Store} {startSlot endSlot chunkSize : Nat}
    (hst : Reaches (runStep ledger decoder programId indexFailedTxs channelCapacity) Unhurried
      (.start store startSlot endSlot chunkSize) st) : CancelInv st := by
  refine hst.invariant (.start store startSlot endSlot chunkSize) ?_
  intro s action s' hs hallowed hstep
  exact hs.effect (effect_of_runStep hallowed hstep)

end Invariant

/-! ## Termination -/

section Termination

variable {ledger : Ledger} {decoder : InstructionDecoder} {programId : String}
  {indexFailedTxs : Bool} {channelCapacity : Nat} {st st' : BackfillRun}

def WriterState.remaining : WriterState → Nat
  | .running => 2
  | .draining => 1
  | .finished _ => 0

def BackfillRun.remaining (st : BackfillRun) : Nat :=
  3 * st.tasks.pending.length + 2 * st.tasks.sending.toList.length + st.tasks.channel.length +
    st.heartbeat.toList.length + (if st.tasks.producer = none then 1 else 0) +
    st.tasks.writer.remaining + (if st.receiverDropped then 0 else 1) +
    (if st.returned = none then 1 else 0)

/-- The chunks that are not listed come first: a listed one brings slots of its own. -/
def BackfillRun.progress (st : BackfillRun) : ℕ ×ₗ ℕ :=
  toLex (st.tasks.chunks.length, st.remaining)

theorem progress_lt_of_remaining (hchunks : st'.tasks.chunks = st.tasks.chunks)
    (hremaining : st'.remaining < st.remaining) : st'.progress < st.progress := by
  refine Prod.Lex.toLex_lt_toLex.mpr (.inr ⟨?_, hremaining⟩)
  simp only [hchunks]

theorem record_eq (st : BackfillRun) (result : Except PipelineError Unit) (error : Option String) :
    ∃ statuses returned, st.record result error =
      { st with statuses := statuses, returned := some returned } := by
  unfold BackfillRun.record
  repeat' split
  all_goals exact ⟨_, _, rfl⟩

theorem Effect.progress_lt (heffect : Effect st true st') : st'.progress < st.progress := by
  cases heffect with
  | listChunk slots listed heartbeat hproducer hsending hchunks =>
      refine Prod.Lex.toLex_lt_toLex.mpr (.inl ?_)
      simp only [hchunks]
      omega
  | fetch sending hproducer hcancelled hsending hpending =>
      refine progress_lt_of_remaining rfl ?_
      have hlength : sending.toList.length ≤ 1 := by cases sending <;> simp
      simp only [BackfillRun.remaining, hsending, hpending, List.length_cons, Option.toList_none,
        List.length_nil]
      omega
  | send hproducer hsending hopen =>
      refine progress_lt_of_remaining rfl ?_
      simp only [BackfillRun.remaining, hsending, Option.toList, List.length_append,
        List.length_cons, List.length_nil]
      omega
  | sendLate hproducer hsending hwriter =>
      refine progress_lt_of_remaining rfl ?_
      simp only [BackfillRun.remaining, hsending, Option.toList, List.length_cons, List.length_nil]
      omega
  | sendFails error hproducer hsending hdropped =>
      refine progress_lt_of_remaining rfl ?_
      simp [BackfillRun.remaining, hproducer]
  | endChunks hproducer hsending =>
      refine progress_lt_of_remaining rfl ?_
      simp [BackfillRun.remaining, hproducer]
  | write store hchannel =>
      refine progress_lt_of_remaining rfl ?_
      simp only [BackfillRun.remaining, hchannel, List.length_cons]
      omega
  | beginDrain hwriter hcancelled =>
      refine progress_lt_of_remaining rfl ?_
      simp [BackfillRun.remaining, hwriter, WriterState.remaining]
  | endWriter hwriter =>
      refine progress_lt_of_remaining rfl ?_
      obtain ⟨hwriter, _⟩ | hwriter := hwriter
      · simp [BackfillRun.remaining, hwriter, WriterState.remaining]
      · simp [BackfillRun.remaining, hwriter, WriterState.remaining]
  | heartbeat hproducer hheartbeat =>
      refine progress_lt_of_remaining rfl ?_
      simp [BackfillRun.remaining, hheartbeat]
  | dropReceiver hwriter hdropped hsending =>
      refine progress_lt_of_remaining rfl ?_
      simp [BackfillRun.remaining, hdropped]
  | finish hreturned hresult =>
      obtain ⟨statuses, returned, hrecord⟩ := record_eq st _ none
      rw [hrecord]
      refine progress_lt_of_remaining rfl ?_
      simp [BackfillRun.remaining, hreturned]

theorem Effect.progress_eq (heffect : Effect st false st') : st'.progress = st.progress := by
  cases heffect with
  | cancel => rfl
  | otherTask store => rfl

def CanStep (ledger : Ledger) (decoder : InstructionDecoder) (programId : String)
    (indexFailedTxs : Bool) (channelCapacity : Nat) (st : BackfillRun) : Prop :=
  ∃ action st', action.own = true ∧ Unhurried st action ∧
    runStep ledger decoder programId indexFailedTxs channelCapacity st action = some st'

theorem CanStep.of_step (action : RunAction) (hown : action.own = true)
    (hallowed : Unhurried st action)
    (hstep : runStep ledger decoder programId indexFailedTxs channelCapacity st action ≠ none) :
    CanStep ledger decoder programId indexFailedTxs channelCapacity st := by
  obtain ⟨st', hst'⟩ := Option.ne_none_iff_exists'.mp hstep
  exact ⟨action, st', hown, hallowed, hst'⟩

theorem CanStep.of_task (action : BackfillAction) (hreturned : st.returned = none)
    (hown : (RunAction.task action).own = true) (hfailure : NoFailure (.task action))
    (hstep : taskStep ledger decoder programId indexFailedTxs channelCapacity st action ≠ none) :
    CanStep ledger decoder programId indexFailedTxs channelCapacity st := by
  refine .of_step (.task action) hown ⟨hfailure, nofun⟩ ?_
  simpa only [runStep, hreturned] using hstep

/-- The producer has ended: the writer takes what is left, ends, and is joined. -/
theorem canStep_of_ended {result : Except PipelineError Unit} (hreturned : st.returned = none)
    (hproducer : st.tasks.producer = some result) (hsending : st.tasks.sending = none) :
    CanStep ledger decoder programId indexFailedTxs channelCapacity st := by
  cases hwriter : st.tasks.writer with
  | running =>
      cases hchannel : st.tasks.channel with
      | nil =>
          refine .of_task .endWriter hreturned rfl trivial ?_
          simp [taskStep, backfillStep, hwriter, hchannel, hproducer]
      | cons batch rest =>
          refine .of_task (.receive none) hreturned rfl rfl ?_
          simp [taskStep, backfillStep, hwriter, hchannel]
  | draining =>
      cases hchannel : st.tasks.channel with
      | nil =>
          refine .of_task .endWriter hreturned rfl trivial ?_
          simp [taskStep, backfillStep, hwriter, hchannel]
      | cons batch rest =>
          refine .of_task (.drain none) hreturned rfl rfl ?_
          simp [taskStep, backfillStep, hwriter, hchannel]
  | finished written =>
      cases hdropped : st.receiverDropped with
      | false =>
          refine .of_step .dropReceiver rfl ⟨trivial, fun _ => hsending⟩ ?_
          simp [runStep, hreturned, hwriter, hdropped]
      | true =>
          have hjoined : ∃ joined, st.tasks.returned = some joined := by
            unfold BackfillState.returned
            rw [hproducer, hwriter]
            cases result with
            | ok _ => exact ⟨_, rfl⟩
            | error e => exact ⟨_, rfl⟩
          obtain ⟨joined, hjoined⟩ := hjoined
          refine .of_step (.finish none) rfl ⟨rfl, fun h => RunAction.noConfusion h⟩ ?_
          simp [runStep, hreturned, hjoined, hdropped]

/-- A batch in hand is sent, or the writer makes room for it. -/
theorem CancelInv.canStep_of_sending (hst : CancelInv st) (hcapacity : 1 ≤ channelCapacity)
    (hreturned : st.returned = none) (hproducer : st.tasks.producer = none) {batch : WriteBatch}
    (hsending : st.tasks.sending = some batch) :
    CanStep ledger decoder programId indexFailedTxs channelCapacity st := by
  cases hwriter : st.tasks.writer with
  | running =>
      cases hchannel : st.tasks.channel with
      | nil =>
          refine .of_task .send hreturned rfl trivial ?_
          simp [taskStep, backfillStep, hproducer, hsending, hwriter, hchannel]
          omega
      | cons first rest =>
          refine .of_task (.receive none) hreturned rfl rfl ?_
          simp [taskStep, backfillStep, hwriter, hchannel]
  | draining =>
      cases hchannel : st.tasks.channel with
      | nil =>
          refine .of_task .endWriter hreturned rfl trivial ?_
          simp [taskStep, backfillStep, hwriter, hchannel]
      | cons first rest =>
          refine .of_task (.drain none) hreturned rfl rfl ?_
          simp [taskStep, backfillStep, hwriter, hchannel]
  | finished result =>
      have hdropped : st.receiverDropped = false := by
        by_contra hdropped
        cases hsending.symm.trans (hst.dropped (by simpa using hdropped)).2
      have hlost : st.lost = [] := by
        by_contra hlost
        cases hsending.symm.trans (hst.late hlost).2
      refine .of_task .send hreturned rfl trivial ?_
      simp [taskStep, hproducer, hsending, hwriter, hdropped, hlost]
      omega

/-- With nothing in hand the producer walks on, or ends. -/
theorem canStep_of_idle (hreturned : st.returned = none) (hproducer : st.tasks.producer = none)
    (hsending : st.tasks.sending = none) :
    CanStep ledger decoder programId indexFailedTxs channelCapacity st := by
  by_cases hfetch : st.tasks.cancelled = false ∧ st.tasks.pending ≠ []
  · obtain ⟨hcancelled, hpending⟩ := hfetch
    obtain ⟨slot, rest, hpending⟩ := List.exists_cons_of_ne_nil hpending
    refine .of_task (.fetch none) hreturned rfl rfl ?_
    simp [taskStep, backfillStep, hproducer, hcancelled, hsending, hpending]
  · have hdone : st.tasks.cancelled = true ∨ st.tasks.pending = [] := by
      by_contra h
      push Not at h
      exact hfetch ⟨by simpa using h.1, h.2⟩
    cases hheartbeat : st.heartbeat with
    | some stop =>
        refine .of_step (.heartbeat none) rfl ⟨rfl, fun h => RunAction.noConfusion h⟩ ?_
        simp [runStep, hreturned, hproducer, hsending, hheartbeat, hdone]
    | none =>
        by_cases hend : st.tasks.cancelled = true ∨ (st.tasks.pending = [] ∧ st.tasks.chunks = [])
        · refine .of_task .endChunks hreturned rfl trivial ?_
          simp [taskStep, backfillStep, hheartbeat, hproducer, hsending, hend]
        · push Not at hend
          have hcancelled : st.tasks.cancelled = false := by simpa using hend.1
          have hpending : st.tasks.pending = [] := by simpa [hcancelled] using hdone
          obtain ⟨chunk, chunks, hchunks⟩ := List.exists_cons_of_ne_nil (hend.2 hpending)
          have hanswer : ∀ range : Nat × Nat,
              ∃ slots, (fun _ => .ok [] : Nat × Nat → Except PipelineError (List Nat)) range =
                .ok slots := fun _ => ⟨[], rfl⟩
          obtain ⟨slots, hslots⟩ := getBlocks_ok hanswer chunk.1 chunk.2
          refine .of_task (.listChunk fun _ => .ok []) hreturned rfl hanswer ?_
          simp [taskStep, backfillStep, hheartbeat, hproducer, hcancelled, hsending, hpending,
            hchunks, hslots]

theorem CancelInv.canStep (hst : CancelInv st) (hcapacity : 1 ≤ channelCapacity)
    (hreturned : st.returned = none) :
    CanStep ledger decoder programId indexFailedTxs channelCapacity st := by
  cases hproducer : st.tasks.producer with
  | some result =>
      have hsending : st.tasks.sending = none := by
        cases hst.producer_ok with
        | inl h => cases hproducer.symm.trans h
        | inr h => exact hst.sent h
      exact canStep_of_ended hreturned hproducer hsending
  | none =>
      cases hsending : st.tasks.sending with
      | none => exact canStep_of_idle hreturned hproducer hsending
      | some batch => exact hst.canStep_of_sending hcapacity hreturned hproducer hsending

/-- An unhurried run records and returns no failure, whatever the moment of the
cancellation, and its own steps lead to the end. -/
theorem cancelled_backfill_graceful {store : Store} {startSlot endSlot chunkSize : Nat}
    (hcapacity : 1 ≤ channelCapacity)
    (hst : Reaches (runStep ledger decoder programId indexFailedTxs channelCapacity) Unhurried
      (.start store startSlot endSlot chunkSize) st) :
    Graceful st ∧
      (st.returned = none →
        CanStep ledger decoder programId indexFailedTxs channelCapacity st) ∧
      ∀ action st', Unhurried st action →
        runStep ledger decoder programId indexFailedTxs channelCapacity st action = some st' →
        if action.own then st'.progress < st.progress else st'.progress = st.progress := by
  have hinv := cancelInv_of_reaches hst
  refine ⟨hinv.graceful, fun hreturned => hinv.canStep hcapacity hreturned, ?_⟩
  intro action st' hallowed hstep
  have heffect := effect_of_runStep hallowed hstep
  cases hown : action.own with
  | true =>
      rw [hown] at heffect
      simpa using heffect.progress_lt
  | false =>
      rw [hown] at heffect
      simpa using heffect.progress_eq

end Termination

/-- The token is set while a block is in hand, and the block reaches the channel in time. -/
def cancelledInTime : List RunAction :=
  [.task (.listChunk fun range => .ok (rangeSlots range)), .task (.fetch none), .task .cancel,
    .task .send, .task .beginDrain, .task (.drain none), .task .endWriter]

theorem cancelled_backfill_graceful_in_time :
    ∃ st, runActions (runStep swapLedger swapDecoder "program" false 256)
        (.start .empty 10 11 50000)
        (cancelledInTime ++ [.dropReceiver, .heartbeat none, .task .endChunks, .finish none]) =
          some st ∧
      st.returned = some (.ok ()) ∧ st.statuses = [.backfilling, .backfilling] ∧
      Graceful st ∧
      (st.returned = none → CanStep swapLedger swapDecoder "program" false 256 st) ∧
      ∀ action st', Unhurried st action →
        runStep swapLedger swapDecoder "program" false 256 st action = some st' →
        if action.own then st'.progress < st.progress else st'.progress = st.progress := by
  refine ⟨_, rfl, rfl, rfl, ?_⟩
  refine @cancelled_backfill_graceful swapLedger swapDecoder "program" false 256 _ .empty 10 11
    50000 (by decide) ?_
  have hdrained : AllowedActions (runStep swapLedger swapDecoder "program" false 256) Unhurried
      (.start .empty 10 11 50000) cancelledInTime :=
    allowedActions_of_forall (by simp [cancelledInTime, Unhurried, NoFailure, HandsEmpty]) _
  refine Reaches.of_runActions Reaches.start (hdrained.append fun s hrun => ?_)
    (rfl : runActions _ _ (cancelledInTime ++
      [.dropReceiver, .heartbeat none, .task .endChunks, .finish none]) = some _)
  cases hrun
  refine ⟨⟨trivial, fun _ => rfl⟩, fun s _ => allowedActions_of_forall ?_ s⟩
  simp [Unhurried, NoFailure, HandsEmpty]

/-- The token is set while a block is in hand, and the writer ends before it is sent. -/
theorem cancelled_backfill_fails :
    ∃ st, Reaches (runStep swapLedger swapDecoder "program" false 256)
        (fun _ action => NoFailure action) (.start .empty 10 11 50000) st ∧
      st.tasks.cancelled = true ∧
      st.returned = some (.error (.fatal "writer task channel closed")) ∧
      st.statuses = [.backfilling, .failed] ∧ ¬ Graceful st := by
  refine ⟨_, Reaches.of_runActions Reaches.start (allowedActions_of_forall ?_ _)
    (rfl : runActions _ _ [.task (.listChunk fun range => .ok (rangeSlots range)),
      .task (.fetch none), .task .cancel, .task .beginDrain, .task .endWriter, .dropReceiver,
      .task .send, .finish none] = some _), rfl, rfl, rfl, ?_⟩
  · simp [NoFailure]
  · intro hgraceful
    exact hgraceful.2 (show IndexerStatus.failed ∈ [.backfilling, .failed] by decide)

end Solarix.Pipeline
