import Solarix.Pipeline.Backfill
import Solarix.Storage.WriteBlock

/-!
# The writer task

`writer_task` over a channel that any producer fills: the receive loop, which ends with the
first write that fails, and the drain after a cancellation, which goes on.  The batches it
commits keep the order of the channel.
-/

namespace Solarix.Pipeline

open Solarix.Core
open Solarix.Storage (Store Stream Replies WriteCall WriteResult StorageError)

def WriteBatch.call (batch : WriteBatch) (replies : Replies) : WriteCall where
  stream := batch.stream
  instructions := batch.instructions
  accounts := []
  slot := batch.slot
  signature := batch.signature
  replies := replies

structure WriterTask where
  store : Store
  channel : List WriteBatch
  /-- The senders are gone. -/
  closed : Bool
  cancelled : Bool
  status : WriterState
  totalInstructions : Nat
  totalAccounts : Nat
  /-- What the task added to the counters of `indexer_state`. -/
  counted : Option (Nat × Nat)
  /-- Every batch that was put in the channel. -/
  sent : List WriteBatch
  /-- The batches taken so far, and whether their write committed. -/
  taken : List (WriteBatch × Bool)

namespace WriterTask

def start (store : Store) : WriterTask where
  store := store
  channel := []
  closed := false
  cancelled := false
  status := .running
  totalInstructions := 0
  totalAccounts := 0
  counted := none
  sent := []
  taken := []

def committed (st : WriterTask) : List WriteBatch :=
  (st.taken.filter Prod.snd).map Prod.fst

def givenUp (st : WriterTask) : List WriteBatch :=
  (st.taken.filter fun p => !p.2).map Prod.fst

def commit (st : WriterTask) (batch : WriteBatch) (rest : List WriteBatch)
    (result : WriteResult) (written : Store) : WriterTask :=
  { st with
    store := written
    channel := rest
    totalInstructions := st.totalInstructions + result.instructionsWritten
    totalAccounts := st.totalAccounts + result.accountsWritten
    taken := st.taken ++ [(batch, true)] }

/-- The end of the task without an error.  A failed counter update is only logged. -/
def finish (st : WriterTask) (counterError : Option String) : WriterTask :=
  { st with
    status := .finished (.ok ())
    counted :=
      if (st.totalInstructions > 0 ∨ st.totalAccounts > 0) ∧ counterError = none then
        some (st.totalInstructions, st.totalAccounts)
      else none }

end WriterTask

inductive WriterAction where
  /-- A producer puts a batch in the channel. -/
  | send (batch : WriteBatch)
  | close
  | cancel
  /-- `rx.recv()` yields a batch and `write_block` gets these replies. -/
  | receive (replies : Replies)
  | beginDrain
  | drain (replies : Replies)
  | finish (counterError : Option String)
  /-- Another task commits to the same tables. -/
  | otherTask (batch : WriteBatch)

def writerStep (channelCapacity : Nat) (st : WriterTask) : WriterAction → Option WriterTask
  | .send batch =>
      match st.closed, st.status with
      | true, _ => none
      | _, .finished _ => none
      | _, _ =>
          if st.channel.length < channelCapacity then
            some { st with channel := st.channel ++ [batch], sent := st.sent ++ [batch] }
          else none
  | .close => some { st with closed := true }
  | .cancel => some { st with cancelled := true }
  | .receive replies =>
      match st.status, st.channel with
      | .running, batch :: rest =>
          match (batch.call replies).run st.store with
          | (.ok result, written) => some (st.commit batch rest result written)
          | (.error e, _) => some { st with status := .finished (.error (.storage e.display)) }
      | _, _ => none
  | .beginDrain =>
      match st.status with
      | .running => if st.cancelled then some { st with status := .draining } else none
      | _ => none
  | .drain replies =>
      match st.status, st.channel with
      | .draining, batch :: rest =>
          match (batch.call replies).run st.store with
          | (.ok result, written) => some (st.commit batch rest result written)
          -- the error is logged and the next batch is taken
          | (.error _, _) =>
              some { st with channel := rest, taken := st.taken ++ [(batch, false)] }
      | _, _ => none
  | .finish counterError =>
      match st.status, st.channel, st.closed with
      | .running, [], true => some (st.finish counterError)
      | .draining, [], _ => some (st.finish counterError)
      | _, _, _ => none
  | .otherTask batch => some { st with store := batch.write st.store }

/-- The channel carries the batches of one stream in ascending slot order, and no other
task writes that stream. -/
def InSlotOrder (stream : Stream) (st : WriterTask) : WriterAction → Prop
  | .send batch => batch.stream = stream ∧ ∀ b ∈ st.sent, b.slot < batch.slot
  | .otherTask batch => batch.stream ≠ stream
  | _ => True

section Invariant

variable {channelCapacity : Nat} {stream : Stream} {store : Store} {st st' : WriterTask}

def StandsAt (stream : Stream) (st : WriterTask) (batch : WriteBatch) : Prop :=
  st.store.checkpoints stream =
    some ⟨Storage.slotToI64 batch.slot, batch.signature, Storage.inI64_slotToI64 batch.slot⟩

structure WriterInv (stream : Stream) (store : Store) (st : WriterTask) : Prop where
  sent_eq : st.sent = st.taken.map Prod.fst ++ st.channel
  ordered : st.sent.Pairwise fun a b => a.slot < b.slot
  streams : ∀ b ∈ st.sent, b.stream = stream
  checkpoint : st.store.checkpoints stream = store.checkpoints stream ∨
    ∃ b ∈ st.committed, StandsAt stream st b

theorem checkpoints_write (batch : WriteBatch) (store : Store) (stream : Stream) :
    (batch.write store).checkpoints stream =
      if stream = batch.stream then
        some ⟨Storage.slotToI64 batch.slot, batch.signature, Storage.inI64_slotToI64 batch.slot⟩
      else store.checkpoints stream := by
  unfold WriteBatch.write Store.writeBlock Store.updateCheckpoint Store.writeInstructions
  simp only [Store.foldl_insertRow_checkpoints]

theorem WriterInv.congr (h : WriterInv stream store st) (hsent : st'.sent = st.sent)
    (htaken : st'.taken = st.taken) (hchannel : st'.channel = st.channel)
    (hcheckpoint : st'.store.checkpoints stream = st.store.checkpoints stream) :
    WriterInv stream store st' := by
  refine ⟨?_, ?_, ?_, ?_⟩
  · rw [hsent, htaken, hchannel]
    exact h.sent_eq
  · rw [hsent]
    exact h.ordered
  · rw [hsent]
    exact h.streams
  · unfold WriterTask.committed StandsAt
    rw [htaken, hcheckpoint]
    exact h.checkpoint

theorem WriterInv.send {batch : WriteBatch} (h : WriterInv stream store st)
    (hstream : batch.stream = stream) (hslot : ∀ b ∈ st.sent, b.slot < batch.slot) :
    WriterInv stream store
      { st with channel := st.channel ++ [batch], sent := st.sent ++ [batch] } := by
  refine ⟨?_, ?_, ?_, h.checkpoint⟩
  · simp only [h.sent_eq, List.append_assoc]
  · rw [List.pairwise_append]
    refine ⟨h.ordered, List.pairwise_singleton .., ?_⟩
    intro b hb other hother
    rw [List.mem_singleton.mp hother]
    exact hslot b hb
  · intro b hb
    rcases List.mem_append.mp hb with hold | hnew
    · exact h.streams b hold
    · rw [List.mem_singleton.mp hnew]
      exact hstream

theorem WriterInv.commit {batch : WriteBatch} {rest : List WriteBatch} {replies : Replies}
    {result : WriteResult} {written : Store} (h : WriterInv stream store st)
    (hchannel : st.channel = batch :: rest)
    (hrun : (batch.call replies).run st.store = (.ok result, written)) :
    WriterInv stream store (st.commit batch rest result written) := by
  have hsent : st.sent = (st.taken ++ [(batch, true)]).map Prod.fst ++ rest := by
    rw [h.sent_eq, hchannel]
    simp
  have hstream : batch.stream = stream := by
    apply h.streams
    rw [hsent]
    simp
  have hwritten : written = batch.write st.store := WriteCall.eq_writeBlock_of_run hrun
  refine ⟨hsent, h.ordered, h.streams, Or.inr ⟨batch, ?_, ?_⟩⟩
  · simp [WriterTask.committed, WriterTask.commit]
  · show written.checkpoints stream = _
    rw [hwritten, checkpoints_write, if_pos hstream.symm]

theorem WriterInv.giveUp {batch : WriteBatch} {rest : List WriteBatch}
    (h : WriterInv stream store st) (hchannel : st.channel = batch :: rest) :
    WriterInv stream store
      { st with channel := rest, taken := st.taken ++ [(batch, false)] } := by
  refine ⟨?_, h.ordered, h.streams, ?_⟩
  · rw [h.sent_eq, hchannel]
    simp
  · have hcommitted : WriterTask.committed
        { st with channel := rest, taken := st.taken ++ [(batch, false)] } = st.committed := by
      simp [WriterTask.committed]
    rw [hcommitted]
    exact h.checkpoint

theorem WriterInv.start (stream : Stream) (store : Store) :
    WriterInv stream store (.start store) :=
  ⟨rfl, List.Pairwise.nil, by simp [WriterTask.start], Or.inl rfl⟩

theorem WriterInv.step {action : WriterAction} (h : WriterInv stream store st)
    (horder : InSlotOrder stream st action)
    (hstep : writerStep channelCapacity st action = some st') :
    WriterInv stream store st' := by
  cases action with
  | send batch =>
      simp only [writerStep] at hstep
      split at hstep
      · cases hstep
      · cases hstep
      · split at hstep
        · cases hstep
          exact h.send horder.1 horder.2
        · cases hstep
  | close =>
      cases hstep
      exact h.congr rfl rfl rfl rfl
  | cancel =>
      cases hstep
      exact h.congr rfl rfl rfl rfl
  | receive replies =>
      simp only [writerStep] at hstep
      split at hstep
      · rename_i hchannel
        split at hstep
        · rename_i hrun
          cases hstep
          exact h.commit hchannel hrun
        · cases hstep
          exact h.congr rfl rfl rfl rfl
      · cases hstep
  | beginDrain =>
      simp only [writerStep] at hstep
      split at hstep
      · split at hstep
        · cases hstep
          exact h.congr rfl rfl rfl rfl
        · cases hstep
      · cases hstep
  | drain replies =>
      simp only [writerStep] at hstep
      split at hstep
      · rename_i hchannel
        split at hstep
        · rename_i hrun
          cases hstep
          exact h.commit hchannel hrun
        · cases hstep
          exact h.giveUp hchannel
      · cases hstep
  | finish counterError =>
      simp only [writerStep] at hstep
      split at hstep
      · cases hstep
        exact h.congr rfl rfl rfl rfl
      · cases hstep
        exact h.congr rfl rfl rfl rfl
      · cases hstep
  | otherTask batch =>
      cases hstep
      refine h.congr rfl rfl rfl ?_
      show (batch.write st.store).checkpoints stream = _
      rw [checkpoints_write, if_neg (Ne.symm horder)]

/-! ## What is committed -/

theorem perm_committed_givenUp (st : WriterTask) :
    (st.committed ++ st.givenUp).Perm (st.taken.map Prod.fst) := by
  unfold WriterTask.committed WriterTask.givenUp
  rw [← List.map_append]
  exact (List.filter_append_perm Prod.snd st.taken).map Prod.fst

theorem committed_sublist (st : WriterTask) :
    st.committed.Sublist (st.taken.map Prod.fst) :=
  List.filter_sublist.map Prod.fst

theorem WriterInv.taken_of_lt (h : WriterInv stream store st) {batch earlier : WriteBatch}
    (htaken : batch ∈ st.taken.map Prod.fst) (hsent : earlier ∈ st.sent)
    (hslot : earlier.slot < batch.slot) : earlier ∈ st.taken.map Prod.fst := by
  rw [h.sent_eq, List.mem_append] at hsent
  rcases hsent with htaken' | hchannel
  · exact htaken'
  · have hordered := h.ordered
    rw [h.sent_eq, List.pairwise_append] at hordered
    have hlt := hordered.2.2 batch htaken earlier hchannel
    omega

/-- In every run the committed batches stand in the order of the channel, and what is
missing before a committed batch is what failed to be written in the drain.  Without such
failures they are a front part of the sequence.  The checkpoint stands where it stood at
the start, or at a committed batch. -/
theorem writer_commits_in_order {channelCapacity : Nat} {stream : Stream} {store : Store}
    {st : WriterTask}
    (h : Reaches (writerStep channelCapacity) (InSlotOrder stream) (.start store) st) :
    (∃ handled, handled <+: st.sent ∧ st.committed.Sublist handled ∧
      (st.committed ++ st.givenUp).Perm handled) ∧
    (st.givenUp = [] → st.committed <+: st.sent) ∧
    (st.store.checkpoints stream = store.checkpoints stream ∨
      ∃ batch ∈ st.committed, StandsAt stream st batch) ∧
    ∀ batch ∈ st.committed, ∀ earlier ∈ st.sent, earlier.slot < batch.slot →
      earlier ∈ st.committed ∨ earlier ∈ st.givenUp := by
  have hinv : WriterInv stream store st :=
    h.invariant (WriterInv.start stream store) fun _ _ _ hinv horder hstep =>
      hinv.step horder hstep
  have hfront : st.taken.map Prod.fst <+: st.sent := by
    rw [hinv.sent_eq]
    exact List.prefix_append ..
  have hperm := perm_committed_givenUp st
  refine ⟨⟨_, hfront, committed_sublist st, hperm⟩, ?_, hinv.checkpoint, ?_⟩
  · intro hnone
    rw [hnone, List.append_nil] at hperm
    rw [(committed_sublist st).eq_of_length hperm.length_eq]
    exact hfront
  · intro batch hbatch earlier hsent hslot
    have htaken := hinv.taken_of_lt ((committed_sublist st).subset hbatch) hsent hslot
    rw [← hperm.mem_iff, List.mem_append] at htaken
    exact htaken

end Invariant

def swapBatch (slot : Nat) : WriteBatch where
  stream := .backfill
  instructions := [{ Storage.swapAt 0 none with slot := slot }]
  slot := slot
  signature := some "sig"

def drainWithFailure : List WriterAction :=
  [.send (swapBatch 10), .send (swapBatch 11), .cancel, .beginDrain,
    .drain { Replies.allOk with commitError := some "connection lost" }, .drain .allOk,
    .finish none]

theorem inSlotOrder_drainWithFailure :
    AllowedActions (writerStep 256) (InSlotOrder .backfill) (.start .empty)
      drainWithFailure := by
  refine ⟨⟨rfl, by simp [WriterTask.start]⟩, ?_⟩
  intro st hstep
  cases hstep
  refine ⟨⟨rfl, by decide⟩, ?_⟩
  intro st _
  exact allowedActions_of_forall (by simp [InSlotOrder]) st

theorem writer_commits_in_order_drain :
    ∃ st, runActions (writerStep 256) (.start .empty) drainWithFailure = some st ∧
      st.committed = [swapBatch 11] ∧ st.givenUp = [swapBatch 10] ∧
      StandsAt .backfill st (swapBatch 11) ∧
      ∃ handled, handled <+: st.sent ∧ st.committed.Sublist handled ∧
        (st.committed ++ st.givenUp).Perm handled := by
  refine ⟨_, rfl, rfl, rfl, rfl, ?_⟩
  exact (writer_commits_in_order (Reaches.of_runActions Reaches.start
    inSlotOrder_drainWithFailure (rfl : runActions _ _ drainWithFailure = some _))).1

/-- Slot 10 is not committed, and the checkpoint stands at slot 11. -/
theorem writer_skips_failed_drain :
    ∃ st, Reaches (writerStep 256) (InSlotOrder .backfill) (.start .empty) st ∧
      st.sent = [swapBatch 10, swapBatch 11] ∧ ¬ st.committed <+: st.sent ∧
      StandsAt .backfill st (swapBatch 11) ∧ swapBatch 10 ∉ st.committed := by
  refine ⟨_, Reaches.of_runActions Reaches.start inSlotOrder_drainWithFailure
    (rfl : runActions _ _ drainWithFailure = some _), rfl, ?_, ?_, ?_⟩
  · rintro ⟨rest, hrest⟩
    exact absurd (congrArg WriteBatch.slot (List.cons.inj hrest).1) (by decide)
  · rfl
  · intro hmem
    exact absurd (congrArg WriteBatch.slot (List.mem_singleton.mp hmem)) (by decide)

end Solarix.Pipeline
