import Solarix.Core.Chunks
import Solarix.Core.Steps
import Solarix.Core.Traverse
import Solarix.Pipeline.Decode

/-!
# Backfill

`run_backfill` and `mini_backfill` as two tasks over a bounded channel: the producer walks
the chunks and fetches and decodes their blocks, the writer commits the batches in the
order they were sent.  The tasks, the cancellation and the commits of other tasks
interleave freely, and every RPC and database call may fail.
-/

namespace Solarix.Pipeline

open Solarix.Core
open Solarix.Storage (Store Stream)

/-! ## Chunks -/

def maxGetBlocksRange : Nat := 500000

def computeBackfillChunks (start stop chunkSize : Nat) : List (Nat × Nat) :=
  if start > stop ∨ chunkSize = 0 then [] else cutRange chunkSize start stop

def computeBlockChunks (startSlot endSlot : Nat) : List (Nat × Nat) :=
  if startSlot > endSlot then [] else cutRange maxGetBlocksRange startSlot endSlot

/-- `get_blocks` over the node's answers to the `getBlocks` requests. -/
def getBlocks (answer : Nat × Nat → Except PipelineError (List Nat)) (startSlot endSlot : Nat) :
    Except PipelineError (List Nat) := do
  let replies ← (computeBlockChunks startSlot endSlot).mapM answer
  .ok replies.flatten

/-- The node lists slots of the requested range, in ascending order. -/
def ListsInOrder (answer : Nat × Nat → Except PipelineError (List Nat)) : Prop :=
  ∀ range slots, answer range = .ok slots → slots.Sublist (rangeSlots range)

theorem flatMap_computeBackfillChunks {start stop chunkSize : Nat} (hstop : stop ≤ u64Max) :
    ((computeBackfillChunks start stop chunkSize).flatMap rangeSlots).Sublist
      (rangeSlots (start, stop)) := by
  unfold computeBackfillChunks
  split
  · exact List.nil_sublist _
  · rw [flatMap_cutRange hstop (by omega)]

theorem computeBackfillChunks_le {start stop chunkSize : Nat} :
    ∀ chunk ∈ computeBackfillChunks start stop chunkSize, chunk.2 ≤ stop := by
  unfold computeBackfillChunks
  split
  · simp
  · exact cutRange_le

theorem flatten_sublist {ranges : List (Nat × Nat)} {replies : List (List Nat)}
    (h : List.Forall₂ (fun range slots => slots.Sublist (rangeSlots range)) ranges replies) :
    replies.flatten.Sublist (ranges.flatMap rangeSlots) := by
  induction h with
  | nil => exact List.Sublist.refl _
  | cons hslots _ ih =>
      rw [List.flatten_cons, List.flatMap_cons]
      exact hslots.append ih

theorem getBlocks_sublist {answer : Nat × Nat → Except PipelineError (List Nat)}
    (hanswer : ListsInOrder answer) {startSlot endSlot : Nat} {slots : List Nat}
    (hend : endSlot ≤ u64Max) (h : getBlocks answer startSlot endSlot = .ok slots) :
    slots.Sublist (rangeSlots (startSlot, endSlot)) := by
  unfold getBlocks at h
  obtain ⟨replies, hreplies, hslots⟩ := bind_eq_ok_iff.mp h
  have hsub := flatten_sublist ((mapM_eq_ok.mp hreplies).imp hanswer)
  rw [Except.ok.inj hslots] at hsub
  unfold computeBlockChunks at hsub
  split at hsub
  · exact hsub.trans (List.nil_sublist _)
  · rwa [flatMap_cutRange hend (by omega)] at hsub

/-! ## The two tasks -/

/-- The finalized blocks as `get_block` returns them, `none` for a skipped slot. -/
structure Ledger where
  blocks : Nat → Option RpcBlock
  slot_eq : ∀ {slot block}, blocks slot = some block → block.slot = slot

/-- A message of the channel, for the one program that is indexed.  Backfill sends no
accounts. -/
structure WriteBatch where
  stream : Stream
  instructions : List DecodedInstruction
  slot : Nat
  signature : Option String

def WriteBatch.write (batch : WriteBatch) (store : Store) : Store :=
  store.writeBlock batch.stream batch.instructions batch.slot batch.signature

inductive WriterState where
  | running
  | draining
  | finished (result : Except PipelineError Unit)

structure BackfillState where
  store : Store
  /-- Chunks that are not listed yet. -/
  chunks : List (Nat × Nat)
  /-- Listed slots of the current chunk that are not fetched yet. -/
  pending : List Nat
  /-- The batch that waits in `tx.send`. -/
  sending : Option WriteBatch
  channel : List WriteBatch
  /-- The outcome of the chunk loop, `none` while it runs. -/
  producer : Option (Except PipelineError Unit)
  writer : WriterState
  cancelled : Bool
  /-- Every slot that `get_blocks` returned so far. -/
  listed : List Nat
  /-- The slots given up: `get_block` failed, or the write did while the writer drained. -/
  givenUp : List Nat

inductive BackfillAction where
  | cancel
  /-- `get_blocks` on the next chunk. -/
  | listChunk (answer : Nat × Nat → Except PipelineError (List Nat))
  /-- `get_block` on the next slot, with its error. -/
  | fetch (error : Option PipelineError)
  | send
  /-- The chunk loop ends. -/
  | endChunks
  /-- The writer commits the next batch, or fails to. -/
  | receive (error : Option String)
  | beginDrain
  | drain (error : Option String)
  /-- The writer ends: the channel is closed or drained. -/
  | endWriter
  /-- Another task commits to the same tables. -/
  | otherTask (batch : WriteBatch)

section Backfill

variable (ledger : Ledger) (decoder : InstructionDecoder) (programId : String)
  (indexFailedTxs : Bool) (channelCapacity : Nat) (stream : Stream)

def slotInstructions (slot : Nat) : List DecodedInstruction :=
  match ledger.blocks slot with
  | none => []
  | some block => (decodeBlock decoder programId indexFailedTxs block).decoded

def blockBatch (block : RpcBlock) : Option WriteBatch :=
  let instructions := (decodeBlock decoder programId indexFailedTxs block).decoded
  if instructions.isEmpty then none
  else some ⟨stream, instructions, block.slot,
    block.transactions.head?.map RpcTransaction.signature⟩

def BackfillState.over (store : Store) (start stop chunkSize : Nat) : BackfillState where
  store := store
  chunks := computeBackfillChunks start stop chunkSize
  pending := []
  sending := none
  channel := []
  producer := if start > stop then some (.ok ()) else none
  writer := if start > stop then .finished (.ok ()) else .running
  cancelled := false
  listed := []
  givenUp := []

/-- Where `run_backfill` resumes, given the `backfill` checkpoint. -/
def effectiveStart (checkpoint : Option Nat) (startSlot : Nat) : Nat :=
  match checkpoint with
  | some last => max (saturatingAdd last 1) startSlot
  | none => startSlot

/-- `run_backfill` at the start of its tasks; they write the `backfill` stream. -/
def runBackfill (store : Store) (startSlot endSlot chunkSize : Nat) : BackfillState :=
  .over store (effectiveStart (store.checkpointSlot .backfill) startSlot) endSlot chunkSize

def BackfillState.returned (st : BackfillState) : Option (Except PipelineError Unit) :=
  match st.producer, st.writer with
  | some (.error e), .finished _ => some (.error e)
  | some (.ok ()), .finished result => some result
  | _, _ => none

/-- One step of `process_chunk` on a slot, `get_block` having answered. -/
def fetchStep (st : BackfillState) (slot : Nat) (rest : List Nat)
    (error : Option PipelineError) : BackfillState :=
  match error with
  -- the error is logged and the next slot is taken
  | some _ => { st with pending := rest, givenUp := st.givenUp ++ [slot] }
  | none =>
      { st with
        pending := rest
        sending := (ledger.blocks slot).bind
          (blockBatch decoder programId indexFailedTxs stream) }

def backfillStep (st : BackfillState) : BackfillAction → Option BackfillState
  | .cancel => some { st with cancelled := true }
  | .listChunk answer =>
      match st.producer, st.cancelled, st.sending, st.pending, st.chunks with
      | none, false, none, [], chunk :: chunks =>
          match getBlocks answer chunk.1 chunk.2 with
          | .error e => some { st with producer := some (.error e) }
          | .ok slots =>
              some { st with chunks := chunks, pending := slots, listed := st.listed ++ slots }
      | _, _, _, _, _ => none
  | .fetch error =>
      match st.producer, st.cancelled, st.sending, st.pending with
      | none, false, none, slot :: rest =>
          some (fetchStep ledger decoder programId indexFailedTxs stream st slot rest error)
      | _, _, _, _ => none
  | .send =>
      match st.producer, st.sending, st.writer with
      | none, some _, .finished _ =>
          some { st with producer := some (.error (.fatal "writer task channel closed")) }
      | none, some batch, _ =>
          if st.channel.length < channelCapacity then
            some { st with sending := none, channel := st.channel ++ [batch] }
          else none
      | _, _, _ => none
  | .endChunks =>
      match st.producer, st.sending with
      | none, none =>
          if st.cancelled ∨ (st.pending = [] ∧ st.chunks = []) then
            some { st with producer := some (.ok ()) }
          else none
      | _, _ => none
  | .receive error =>
      match st.writer, st.channel, error with
      | .running, batch :: rest, none =>
          some { st with store := batch.write st.store, channel := rest }
      | .running, _ :: _, some e =>
          some { st with writer := .finished (.error (.storage e)) }
      | _, _, _ => none
  | .beginDrain =>
      match st.writer with
      | .running => if st.cancelled then some { st with writer := .draining } else none
      | _ => none
  | .drain error =>
      match st.writer, st.channel, error with
      | .draining, batch :: rest, none =>
          some { st with store := batch.write st.store, channel := rest }
      -- the failed write is logged and the next batch is taken
      | .draining, batch :: rest, some _ =>
          some { st with channel := rest, givenUp := st.givenUp ++ [batch.slot] }
      | _, _, _ => none
  | .endWriter =>
      match st.writer, st.channel, st.producer with
      | .running, [], some _ => some { st with writer := .finished (.ok ()) }
      | .draining, [], _ => some { st with writer := .finished (.ok ()) }
      | _, _, _ => none
  | .otherTask batch =>
      if batch.stream = stream then none
      else some { st with store := batch.write st.store }

/-! ## What the checkpoint stands for -/

def SlotCommitted (store : Store) (slot : Nat) : Prop :=
  ∀ ix ∈ slotInstructions ledger decoder programId indexFailedTxs slot, store.Committed ix

/-- Up to the checkpoint, and up to the end of a run that returned `Ok` without
cancellation, every listed slot but the exempt ones is committed. -/
def CheckpointSound (exempt : List Nat) (start stop : Nat) (st : BackfillState) : Prop :=
  ∀ last, st.store.checkpointSlot stream = some last ∨
      (last = stop ∧ st.returned = some (.ok ()) ∧ st.cancelled = false) →
    ∀ slot ∈ st.listed, slot ∉ exempt → start ≤ slot → slot ≤ last →
      SlotCommitted ledger decoder programId indexFailedTxs st.store slot

/-- The documented behaviour of the node. -/
def NodeAnswers : BackfillState → BackfillAction → Prop
  | _, .listChunk answer => ListsInOrder answer
  | _, _ => True

end Backfill

section Invariant

variable {ledger : Ledger} {decoder : InstructionDecoder} {programId : String}
  {indexFailedTxs : Bool} {channelCapacity : Nat} {stream : Stream} {st st' : BackfillState}

/-- The listed slots that are not written yet, in the order they will be. -/
def BackfillState.outstanding (st : BackfillState) : List Nat :=
  st.channel.map WriteBatch.slot ++ (st.sending.toList.map WriteBatch.slot ++ st.pending)

def BackfillState.remaining (st : BackfillState) : List Nat :=
  st.outstanding ++ st.chunks.flatMap rangeSlots

structure BackfillInv (ledger : Ledger) (decoder : InstructionDecoder) (programId : String)
    (indexFailedTxs : Bool) (stream : Stream) (st : BackfillState) : Prop where
  ordered : st.remaining.Pairwise (· < ·)
  ahead : ∀ last, st.store.checkpointSlot stream = some last →
    ∀ slot ∈ st.remaining, last < slot
  settled : ∀ slot ∈ st.listed, slot ∉ st.givenUp → slot ∈ st.outstanding ∨
    SlotCommitted ledger decoder programId indexFailedTxs st.store slot
  batches : ∀ batch ∈ st.channel ++ st.sending.toList, batch.stream = stream ∧
    batch.instructions = slotInstructions ledger decoder programId indexFailedTxs batch.slot
  producer_ok : st.producer = some (.ok ()) → st.cancelled = false →
    st.pending = [] ∧ st.sending = none
  writer_ok : st.writer = .finished (.ok ()) → st.cancelled = false → st.channel = []
  bounded : ∀ chunk ∈ st.chunks, chunk.2 ≤ u64Max

theorem SlotCommitted.write {store : Store} {slot : Nat} (batch : WriteBatch)
    (h : SlotCommitted ledger decoder programId indexFailedTxs store slot) :
    SlotCommitted ledger decoder programId indexFailedTxs (batch.write store) slot :=
  fun ix hix => (h ix hix).writeBlock

theorem BackfillInv.write {batch : WriteBatch} {rest : List WriteBatch}
    (h : BackfillInv ledger decoder programId indexFailedTxs stream st)
    (hchannel : st.channel = batch :: rest) :
    BackfillInv ledger decoder programId indexFailedTxs stream
      { st with store := batch.write st.store, channel := rest } := by
  have hbatch := h.batches batch (by rw [hchannel]; simp)
  have hremaining : st.remaining =
      batch.slot :: BackfillState.remaining { st with
        store := batch.write st.store, channel := rest } := by
    unfold BackfillState.remaining BackfillState.outstanding
    rw [hchannel]
    rfl
  have houtstanding : st.outstanding =
      batch.slot :: BackfillState.outstanding { st with
        store := batch.write st.store, channel := rest } := by
    unfold BackfillState.outstanding
    rw [hchannel]
    rfl
  have hordered := h.ordered
  rw [hremaining, List.pairwise_cons] at hordered
  refine ⟨hordered.2, ?_, ?_, ?_, h.producer_ok, ?_, h.bounded⟩
  · intro last hlast slot hslot
    have hle : last ≤ batch.slot := by
      rw [← hbatch.1] at hlast
      exact Store.le_of_checkpointSlot_writeBlock hlast
    exact lt_of_le_of_lt hle (hordered.1 slot hslot)
  · intro slot hslot hkept
    rcases h.settled slot hslot hkept with hout | hcommitted
    · rw [houtstanding, List.mem_cons] at hout
      rcases hout with rfl | hout
      · refine Or.inr fun ix hix => Store.committed_of_mem ?_
        rw [hbatch.2]
        exact hix
      · exact Or.inl hout
    · exact Or.inr (hcommitted.write batch)
  · intro other hother
    apply h.batches other
    rw [hchannel]
    exact List.mem_cons_of_mem _ hother
  · intro hwriter hcancelled
    have hempty := h.writer_ok hwriter hcancelled
    rw [hchannel] at hempty
    cases hempty

theorem BackfillInv.listChunk {chunk : Nat × Nat} {chunks : List (Nat × Nat)}
    {answer : Nat × Nat → Except PipelineError (List Nat)} {slots : List Nat}
    (h : BackfillInv ledger decoder programId indexFailedTxs stream st)
    (hrunning : st.producer = none) (hpending : st.pending = [])
    (hchunks : st.chunks = chunk :: chunks) (hanswer : ListsInOrder answer)
    (hslots : getBlocks answer chunk.1 chunk.2 = .ok slots) :
    BackfillInv ledger decoder programId indexFailedTxs stream
      { st with chunks := chunks, pending := slots, listed := st.listed ++ slots } := by
  have hsub : slots.Sublist (rangeSlots chunk) :=
    getBlocks_sublist hanswer (h.bounded chunk (by rw [hchunks]; simp)) hslots
  have hout : ∀ slot ∈ st.outstanding, slot ∈ BackfillState.outstanding { st with
      chunks := chunks, pending := slots, listed := st.listed ++ slots } := by
    intro slot hslot
    unfold BackfillState.outstanding at hslot ⊢
    rw [hpending, List.append_nil] at hslot
    rw [← List.append_assoc]
    exact List.mem_append_left _ hslot
  have hremaining : (BackfillState.remaining { st with
      chunks := chunks, pending := slots, listed := st.listed ++ slots }).Sublist
      st.remaining := by
    unfold BackfillState.remaining BackfillState.outstanding
    rw [hchunks, hpending, List.flatMap_cons, List.append_nil]
    simp only [List.append_assoc]
    exact (List.Sublist.refl _).append ((List.Sublist.refl _).append
      (hsub.append (List.Sublist.refl _)))
  refine ⟨h.ordered.sublist hremaining, ?_, ?_, h.batches, ?_, h.writer_ok, ?_⟩
  · intro last hlast slot hslot
    exact h.ahead last hlast slot (hremaining.subset hslot)
  · intro slot hslot hkept
    rcases List.mem_append.mp hslot with hold | hnew
    · exact (h.settled slot hold hkept).imp_left (hout slot)
    · refine Or.inl ?_
      unfold BackfillState.outstanding
      exact List.mem_append_right _ (List.mem_append_right _ hnew)
  · intro hproducer
    rw [hrunning] at hproducer
    cases hproducer
  · intro other hother
    apply h.bounded
    rw [hchunks]
    exact List.mem_cons_of_mem _ hother

/-- A step that leaves the store as it is and passes over some slots: those with nothing
left to commit, and those it gives up. -/
theorem BackfillInv.passOver
    (h : BackfillInv ledger decoder programId indexFailedTxs stream st)
    (hstore : st'.store = st.store) (hchunks : st'.chunks = st.chunks)
    (hlisted : st'.listed = st.listed) (hout : st'.outstanding.Sublist st.outstanding)
    (hgivenUp : ∀ slot ∈ st.givenUp, slot ∈ st'.givenUp)
    (hpassed : ∀ slot ∈ st.outstanding, slot ∉ st'.givenUp → slot ∈ st'.outstanding ∨
      SlotCommitted ledger decoder programId indexFailedTxs st.store slot)
    (hbatches : ∀ batch ∈ st'.channel ++ st'.sending.toList,
      batch ∈ st.channel ++ st.sending.toList)
    (hproducer : st'.producer = some (.ok ()) → st'.cancelled = false →
      st'.pending = [] ∧ st'.sending = none)
    (hwriter : st'.writer = .finished (.ok ()) → st'.cancelled = false → st'.channel = []) :
    BackfillInv ledger decoder programId indexFailedTxs stream st' := by
  have hremaining : st'.remaining.Sublist st.remaining := by
    unfold BackfillState.remaining
    rw [hchunks]
    exact hout.append (List.Sublist.refl _)
  refine ⟨h.ordered.sublist hremaining, ?_, ?_,
    fun batch hbatch => h.batches batch (hbatches batch hbatch), hproducer, hwriter, ?_⟩
  · intro last hlast slot hslot
    rw [hstore] at hlast
    exact h.ahead last hlast slot (hremaining.subset hslot)
  · intro slot hslot hkept
    rw [hlisted] at hslot
    rw [hstore]
    rcases h.settled slot hslot (fun hold => hkept (hgivenUp slot hold)) with hold | hcommitted
    · exact hpassed slot hold hkept
    · exact Or.inr hcommitted
  · rw [hchunks]
    exact h.bounded

theorem BackfillInv.congr
    (h : BackfillInv ledger decoder programId indexFailedTxs stream st)
    (hstore : st'.store = st.store) (hchunks : st'.chunks = st.chunks)
    (hlisted : st'.listed = st.listed) (hgivenUp : st'.givenUp = st.givenUp)
    (hout : st'.outstanding = st.outstanding)
    (hbatches : ∀ batch ∈ st'.channel ++ st'.sending.toList,
      batch ∈ st.channel ++ st.sending.toList)
    (hproducer : st'.producer = some (.ok ()) → st'.cancelled = false →
      st'.pending = [] ∧ st'.sending = none)
    (hwriter : st'.writer = .finished (.ok ()) → st'.cancelled = false → st'.channel = []) :
    BackfillInv ledger decoder programId indexFailedTxs stream st' := by
  apply h.passOver hstore hchunks hlisted _ _ _ hbatches hproducer hwriter
  · rw [hout]
  · rw [hgivenUp]
    exact fun _ hslot => hslot
  · intro slot hslot _
    rw [hout]
    exact Or.inl hslot

theorem BackfillInv.producerEnds {result : Except PipelineError Unit}
    (h : BackfillInv ledger decoder programId indexFailedTxs stream st)
    (hdone : result = .ok () → st.cancelled = false → st.pending = [] ∧ st.sending = none) :
    BackfillInv ledger decoder programId indexFailedTxs stream
      { st with producer := some result } := by
  refine h.congr rfl rfl rfl rfl rfl (fun _ hbatch => hbatch) ?_ h.writer_ok
  intro hproducer
  exact hdone (Option.some.inj hproducer)

theorem BackfillInv.setWriter {writer : WriterState}
    (h : BackfillInv ledger decoder programId indexFailedTxs stream st)
    (hdone : writer = .finished (.ok ()) → st.channel = []) :
    BackfillInv ledger decoder programId indexFailedTxs stream
      { st with writer := writer } := by
  refine h.congr rfl rfl rfl rfl rfl (fun _ hbatch => hbatch) h.producer_ok ?_
  intro hwriter _
  exact hdone hwriter

theorem BackfillInv.send {batch : WriteBatch}
    (h : BackfillInv ledger decoder programId indexFailedTxs stream st)
    (hrunning : st.producer = none) (hsending : st.sending = some batch)
    (hopen : ∀ result, st.writer ≠ .finished result) :
    BackfillInv ledger decoder programId indexFailedTxs stream
      { st with sending := none, channel := st.channel ++ [batch] } := by
  refine h.congr rfl rfl rfl rfl ?_ ?_ ?_ ?_
  · unfold BackfillState.outstanding
    rw [hsending]
    simp
  · rw [hsending]
    simp
  · intro hproducer
    rw [hrunning] at hproducer
    cases hproducer
  · intro hwriter
    exact absurd hwriter (hopen _)

theorem BackfillInv.skip {slot : Nat} {rest givenUp : List Nat}
    (h : BackfillInv ledger decoder programId indexFailedTxs stream st)
    (hrunning : st.producer = none) (hpending : st.pending = slot :: rest)
    (hgivenUp : ∀ other ∈ st.givenUp, other ∈ givenUp)
    (hnothing : slot ∉ givenUp →
      slotInstructions ledger decoder programId indexFailedTxs slot = []) :
    BackfillInv ledger decoder programId indexFailedTxs stream
      { st with pending := rest, givenUp := givenUp } := by
  refine h.passOver rfl rfl rfl ?_ hgivenUp ?_ (fun _ hb => hb) ?_ h.writer_ok
  · unfold BackfillState.outstanding
    rw [hpending]
    exact (List.Sublist.refl _).append
      ((List.Sublist.refl _).append (List.sublist_cons_self slot rest))
  · intro other hother hkept
    unfold BackfillState.outstanding at hother ⊢
    rw [hpending, ← List.append_assoc] at hother
    rw [← List.append_assoc]
    rcases List.mem_append.mp hother with hsent | hrest
    · exact Or.inl (List.mem_append_left _ hsent)
    · rcases List.mem_cons.mp hrest with rfl | hrest
      · refine Or.inr ?_
        unfold SlotCommitted
        rw [hnothing hkept]
        simp
      · exact Or.inl (List.mem_append_right _ hrest)
  · intro hproducer
    rw [hrunning] at hproducer
    cases hproducer

theorem BackfillInv.discard {batch : WriteBatch} {rest : List WriteBatch}
    (h : BackfillInv ledger decoder programId indexFailedTxs stream st)
    (hchannel : st.channel = batch :: rest) (hdraining : st.writer = .draining) :
    BackfillInv ledger decoder programId indexFailedTxs stream
      { st with channel := rest, givenUp := st.givenUp ++ [batch.slot] } := by
  refine h.passOver rfl rfl rfl ?_ ?_ ?_ ?_ h.producer_ok ?_
  · unfold BackfillState.outstanding
    rw [hchannel]
    exact List.sublist_cons_self _ _
  · intro slot hslot
    exact List.mem_append_left _ hslot
  · intro slot hslot hkept
    unfold BackfillState.outstanding at hslot ⊢
    rw [hchannel, List.map_cons, List.cons_append] at hslot
    rcases List.mem_cons.mp hslot with rfl | hrest
    · exact absurd (List.mem_append_right _ (List.mem_singleton.mpr rfl)) hkept
    · exact Or.inl hrest
  · intro other hother
    rw [hchannel]
    exact List.mem_cons_of_mem _ hother
  · intro hwriter
    rw [hdraining] at hwriter
    cases hwriter

theorem slotInstructions_eq {slot : Nat} {block : RpcBlock}
    (hblock : ledger.blocks slot = some block) :
    slotInstructions ledger decoder programId indexFailedTxs slot =
      (decodeBlock decoder programId indexFailedTxs block).decoded := by
  unfold slotInstructions
  rw [hblock]

theorem blockBatch_eq_none {block : RpcBlock}
    (h : blockBatch decoder programId indexFailedTxs stream block = none) :
    (decodeBlock decoder programId indexFailedTxs block).decoded = [] := by
  simp only [blockBatch] at h
  split at h
  · rename_i hempty
    exact List.isEmpty_iff.mp hempty
  · cases h

theorem blockBatch_eq_some {block : RpcBlock} {batch : WriteBatch}
    (h : blockBatch decoder programId indexFailedTxs stream block = some batch) :
    batch.stream = stream ∧ batch.slot = block.slot ∧
      batch.instructions = (decodeBlock decoder programId indexFailedTxs block).decoded := by
  simp only [blockBatch] at h
  split at h
  · cases h
  · cases h
    exact ⟨rfl, rfl, rfl⟩

theorem BackfillInv.fetched {slot : Nat} {rest : List Nat} {block : RpcBlock}
    {batch : WriteBatch}
    (h : BackfillInv ledger decoder programId indexFailedTxs stream st)
    (hrunning : st.producer = none) (hsending : st.sending = none)
    (hpending : st.pending = slot :: rest) (hblock : ledger.blocks slot = some block)
    (hbatch : blockBatch decoder programId indexFailedTxs stream block = some batch) :
    BackfillInv ledger decoder programId indexFailedTxs stream
      { st with pending := rest, sending := some batch } := by
  obtain ⟨hstream, hbatchSlot, hinstructions⟩ := blockBatch_eq_some hbatch
  have hslot : batch.slot = slot := hbatchSlot.trans (ledger.slot_eq hblock)
  have hout : BackfillState.outstanding { st with pending := rest, sending := some batch } =
      st.outstanding := by
    unfold BackfillState.outstanding
    rw [hpending, hsending, ← hslot]
    rfl
  refine ⟨?_, ?_, ?_, ?_, ?_, h.writer_ok, h.bounded⟩
  · unfold BackfillState.remaining
    rw [hout]
    exact h.ordered
  · unfold BackfillState.remaining
    rw [hout]
    exact h.ahead
  · rw [hout]
    exact h.settled
  · intro other hother
    rcases List.mem_append.mp hother with hchannel | hnew
    · exact h.batches other (List.mem_append_left _ hchannel)
    · rw [List.mem_singleton.mp hnew, hslot, slotInstructions_eq hblock]
      exact ⟨hstream, hinstructions⟩
  · intro hproducer
    rw [hrunning] at hproducer
    cases hproducer

theorem BackfillInv.fetch {slot : Nat} {rest : List Nat} {error : Option PipelineError}
    (h : BackfillInv ledger decoder programId indexFailedTxs stream st)
    (hrunning : st.producer = none) (hsending : st.sending = none)
    (hpending : st.pending = slot :: rest) :
    BackfillInv ledger decoder programId indexFailedTxs stream
      (fetchStep ledger decoder programId indexFailedTxs stream st slot rest error) := by
  cases error with
  | some e =>
      apply h.skip hrunning hpending
      · intro other hother
        exact List.mem_append_left _ hother
      · intro hkept
        exact absurd (List.mem_append_right _ (List.mem_singleton.mpr rfl)) hkept
  | none =>
      unfold fetchStep
      have hkeep : ({ st with pending := rest, sending := none } : BackfillState) =
          { st with pending := rest } := by
        rw [← hsending]
      cases hblock : ledger.blocks slot with
      | none =>
          rw [Option.bind_none, hkeep]
          apply h.skip hrunning hpending fun _ hother => hother
          intro _
          unfold slotInstructions
          rw [hblock]
      | some block =>
          rw [Option.bind_some]
          cases hbatch : blockBatch decoder programId indexFailedTxs stream block with
          | some batch => exact h.fetched hrunning hsending hpending hblock hbatch
          | none =>
              rw [hkeep]
              apply h.skip hrunning hpending fun _ hother => hother
              intro _
              rw [slotInstructions_eq hblock]
              exact blockBatch_eq_none hbatch

theorem BackfillInv.otherTask {batch : WriteBatch} (hother : batch.stream ≠ stream)
    (h : BackfillInv ledger decoder programId indexFailedTxs stream st) :
    BackfillInv ledger decoder programId indexFailedTxs stream
      { st with store := batch.write st.store } := by
  refine ⟨h.ordered, ?_, ?_, h.batches, h.producer_ok, h.writer_ok, h.bounded⟩
  · intro last hlast
    apply h.ahead last
    rw [← hlast]
    exact (Store.checkpointSlot_writeBlock_ne hother.symm).symm
  · intro slot hslot hkept
    exact (h.settled slot hslot hkept).imp_right fun hcommitted => hcommitted.write batch

theorem BackfillInv.step {action : BackfillAction}
    (h : BackfillInv ledger decoder programId indexFailedTxs stream st)
    (hnode : NodeAnswers st action)
    (hstep : backfillStep ledger decoder programId indexFailedTxs channelCapacity stream st
      action = some st') :
    BackfillInv ledger decoder programId indexFailedTxs stream st' := by
  cases action with
  | cancel =>
      cases hstep
      exact h.congr rfl rfl rfl rfl rfl (fun _ hb => hb) (fun _ hc => by cases hc)
        (fun _ hc => by cases hc)
  | listChunk answer =>
      simp only [backfillStep] at hstep
      split at hstep
      · rename_i hrunning _ _ hpending hchunks
        split at hstep
        · cases hstep
          exact h.producerEnds (fun hok => by cases hok)
        · rename_i hslots
          cases hstep
          exact h.listChunk hrunning hpending hchunks hnode hslots
      · cases hstep
  | fetch error =>
      simp only [backfillStep] at hstep
      split at hstep
      · rename_i hrunning _ hsending hpending
        cases hstep
        exact h.fetch hrunning hsending hpending
      · cases hstep
  | send =>
      simp only [backfillStep] at hstep
      split at hstep
      · cases hstep
        exact h.producerEnds (fun hok => by cases hok)
      · rename_i hrunning hsending hopen
        split at hstep
        · cases hstep
          exact h.send hrunning hsending hopen
        · cases hstep
      · cases hstep
  | endChunks =>
      simp only [backfillStep] at hstep
      split at hstep
      · rename_i hrunning hsending
        split at hstep
        · rename_i hdone
          cases hstep
          apply h.producerEnds
          intro _ hcancelled
          rcases hdone with hc | hempty
          · rw [hcancelled] at hc
            cases hc
          · exact ⟨hempty.1, hsending⟩
        · cases hstep
      · cases hstep
  | receive error =>
      simp only [backfillStep] at hstep
      split at hstep
      · rename_i hchannel
        cases hstep
        exact h.write hchannel
      · cases hstep
        exact h.setWriter (fun hok => by cases hok)
      · cases hstep
  | beginDrain =>
      simp only [backfillStep] at hstep
      split at hstep
      · split at hstep
        · cases hstep
          exact h.setWriter (fun hok => by cases hok)
        · cases hstep
      · cases hstep
  | drain error =>
      simp only [backfillStep] at hstep
      split at hstep
      · rename_i hchannel
        cases hstep
        exact h.write hchannel
      · rename_i hdraining hchannel
        cases hstep
        exact h.discard hchannel hdraining
      · cases hstep
  | endWriter =>
      simp only [backfillStep] at hstep
      split at hstep
      · rename_i hempty _
        cases hstep
        exact h.setWriter (fun _ => hempty)
      · rename_i hempty
        cases hstep
        exact h.setWriter (fun _ => hempty)
      · cases hstep
  | otherTask batch =>
      simp only [backfillStep] at hstep
      split at hstep
      · cases hstep
      · rename_i hother
        cases hstep
        exact h.otherTask hother

theorem BackfillInv.over {store : Store} {start stop chunkSize : Nat} (hstop : stop ≤ u64Max)
    (hahead : ∀ last, store.checkpointSlot stream = some last → last < start) :
    BackfillInv ledger decoder programId indexFailedTxs stream
      (.over store start stop chunkSize) := by
  have hsub := @flatMap_computeBackfillChunks start stop chunkSize hstop
  refine ⟨(pairwise_rangeSlots _).sublist hsub, ?_, ?_, ?_, fun _ _ => ⟨rfl, rfl⟩,
    fun _ _ => rfl, ?_⟩
  · intro last hlast slot hslot
    have hrange := mem_rangeSlots.mp (hsub.subset hslot)
    exact lt_of_lt_of_le (hahead last hlast) hrange.1
  · intro slot hslot
    cases hslot
  · intro batch hbatch
    cases hbatch
  · intro chunk hchunk
    exact le_trans (computeBackfillChunks_le chunk hchunk) hstop

theorem BackfillInv.sound {start stop : Nat}
    (h : BackfillInv ledger decoder programId indexFailedTxs stream st) :
    CheckpointSound ledger decoder programId indexFailedTxs stream st.givenUp start stop
      st := by
  intro last hlast slot hslot hkept _ hle
  rcases h.settled slot hslot hkept with hout | hcommitted
  · exfalso
    rcases hlast with hcheckpoint | ⟨-, hreturned, hcancelled⟩
    · have hahead := h.ahead last hcheckpoint slot (List.mem_append_left _ hout)
      omega
    · -- both tasks returned `Ok`, so nothing is left between them
      unfold BackfillState.returned at hreturned
      split at hreturned
      · cases hreturned
      · rename_i hproducer hwriter
        obtain ⟨hpending, hsending⟩ := h.producer_ok hproducer hcancelled
        have hchannel := h.writer_ok (hwriter.trans (by rw [Option.some.inj hreturned]))
          hcancelled
        unfold BackfillState.outstanding at hout
        rw [hpending, hsending, hchannel] at hout
        cases hout
      · cases hreturned
  · exact hcommitted

theorem effectiveStart_ahead {store : Store} {startSlot last : Nat}
    (h : store.checkpointSlot .backfill = some last) :
    last < effectiveStart (store.checkpointSlot .backfill) startSlot := by
  have hlast := Store.checkpointSlot_lt h
  have hnext : saturatingAdd last 1 = last + 1 :=
    saturatingAdd_of_le (by unfold u64Max; omega)
  rw [h]
  show last < max (saturatingAdd last 1) startSlot
  rw [hnext]
  exact lt_of_lt_of_le (Nat.lt_succ_self last) (le_max_left _ _)

theorem over_checkpoint_sound {store : Store} {start stop chunkSize : Nat}
    (hstop : stop ≤ u64Max)
    (hahead : ∀ last, store.checkpointSlot stream = some last → last < start)
    (h : Reaches (backfillStep ledger decoder programId indexFailedTxs channelCapacity stream)
      NodeAnswers (.over store start stop chunkSize) st) :
    CheckpointSound ledger decoder programId indexFailedTxs stream st.givenUp start stop
      st := by
  apply BackfillInv.sound
  apply h.invariant
  · exact BackfillInv.over hstop hahead
  · intro s a s' hs ha hstep
    exact hs.step ha hstep

/-- In every run the `backfill` checkpoint, and the end of a completed run, stand for
committed slots, but for those that were given up. -/
theorem backfill_checkpoint_sound {store : Store} {startSlot endSlot chunkSize : Nat}
    (hend : endSlot ≤ u64Max)
    (h : Reaches (backfillStep ledger decoder programId indexFailedTxs channelCapacity
        .backfill)
      NodeAnswers (runBackfill store startSlot endSlot chunkSize) st) :
    CheckpointSound ledger decoder programId indexFailedTxs .backfill st.givenUp
      (effectiveStart (store.checkpointSlot .backfill) startSlot) endSlot st :=
  over_checkpoint_sound hend (fun _ hlast => effectiveStart_ahead hlast) h

end Invariant

/-! ## A lost block -/

def swapLedger : Ledger where
  blocks slot :=
    if slot = 10 then some ⟨10, none, [swapTransaction 10 "a"]⟩
    else if slot = 11 then some ⟨11, none, [swapTransaction 11 "b"]⟩
    else none
  slot_eq := by
    intro slot block h
    split at h
    · cases h
      exact Eq.symm ‹_›
    · split at h
      · cases h
        exact Eq.symm ‹_›
      · cases h

theorem listsInOrder_rangeSlots : ListsInOrder fun range => .ok (rangeSlots range) := by
  intro range slots h
  cases h
  exact List.Sublist.refl _

def fetchBoth : List BackfillAction :=
  [.listChunk fun range => .ok (rangeSlots range), .fetch none, .send, .receive none,
    .fetch none, .send, .receive none, .endChunks, .endWriter]

theorem backfill_checkpoint_sound_swap :
    ∃ st, runActions (backfillStep swapLedger swapDecoder "program" false 256 .backfill)
        (runBackfill .empty 10 11 50000) fetchBoth = some st ∧
      st.store.checkpointSlot .backfill = some 11 ∧ st.returned = some (.ok ()) ∧
      CheckpointSound swapLedger swapDecoder "program" false .backfill st.givenUp
        (effectiveStart none 10) 11 st := by
  refine ⟨_, rfl, rfl, rfl, ?_⟩
  refine @backfill_checkpoint_sound swapLedger swapDecoder "program" false 256 _ .empty 10 11
    50000 (by decide) ?_
  refine Reaches.of_runActions Reaches.start (allowedActions_of_forall ?_ _)
    (rfl : runActions _ _ fetchBoth = some _)
  simp [fetchBoth, NodeAnswers, listsInOrder_rangeSlots]

/-- Slot 10 is lost and the checkpoint reaches 11, when `get_block` fails on slot 10 (the
run even returns `Ok`) and when the write of slot 10 fails during the drain. -/
theorem backfill_loses_given_up_slot :
    (∃ st, Reaches (backfillStep swapLedger swapDecoder "program" false 256 .backfill)
        NodeAnswers (runBackfill .empty 10 11 50000) st ∧ st.returned = some (.ok ()) ∧
      ¬ CheckpointSound swapLedger swapDecoder "program" false .backfill []
        (effectiveStart none 10) 11 st) ∧
    ∃ st, Reaches (backfillStep swapLedger swapDecoder "program" false 256 .backfill)
        NodeAnswers (runBackfill .empty 10 11 50000) st ∧
      ¬ CheckpointSound swapLedger swapDecoder "program" false .backfill []
        (effectiveStart none 10) 11 st := by
  refine ⟨⟨_, Reaches.of_runActions Reaches.start (allowedActions_of_forall ?_ _)
    (rfl : runActions _ _ [.listChunk fun range => .ok (rangeSlots range),
      .fetch (some (.rpcFailed "timeout")), .fetch none, .send, .receive none, .endChunks,
      .endWriter] = some _), rfl, fun hsound => ?_⟩,
    ⟨_, Reaches.of_runActions Reaches.start (allowedActions_of_forall ?_ _)
    (rfl : runActions _ _ [.listChunk fun range => .ok (rangeSlots range), .fetch none, .send,
      .fetch none, .send, .cancel, .beginDrain, .drain (some "connection lost"),
      .drain none] = some _), fun hsound => ?_⟩⟩
  · simp [NodeAnswers, listsInOrder_rangeSlots]
  · have hslot := hsound 11 (Or.inl rfl) 10 (by decide) (by decide) (by decide) (by decide)
    exact absurd (hslot _ (List.mem_singleton.mpr rfl)) (by decide)
  · simp [NodeAnswers, listsInOrder_rangeSlots]
  · have hslot := hsound 11 (Or.inl rfl) 10 (by decide) (by decide) (by decide) (by decide)
    exact absurd (hslot _ (List.mem_singleton.mpr rfl)) (by decide)

end Solarix.Pipeline
