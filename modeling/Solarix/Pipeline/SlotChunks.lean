import Solarix.Pipeline.Backfill

/-!
# Slot chunks

The backfill cuts its range into chunks, and `get_blocks` cuts each chunk again for the
node.  Both loops end after one round a chunk, at the top of the 64-bit range too, and
between them the node is asked for every slot once.
-/

namespace Solarix.Pipeline

open Solarix.Core

def askedRanges (start stop chunkSize : Nat) : List (Nat × Nat) :=
  (computeBackfillChunks start stop chunkSize).flatMap fun chunk =>
    computeBlockChunks chunk.1 chunk.2

def backfillSlots (answer : Nat × Nat → Except PipelineError (List Nat))
    (start stop chunkSize : Nat) : Except PipelineError (List Nat) := do
  let replies ← (computeBackfillChunks start stop chunkSize).mapM fun chunk =>
    getBlocks answer chunk.1 chunk.2
  .ok replies.flatten

theorem partitions_computeBackfillChunks {start stop chunkSize : Nat} (hstop : stop ≤ u64Max)
    (hsize : 1 ≤ chunkSize) :
    Partitions chunkSize (start, stop) (computeBackfillChunks start stop chunkSize) := by
  unfold computeBackfillChunks
  split
  · exact Partitions.nil_of_lt (show stop < start by omega)
  · exact partitions_cutRange hstop hsize (by omega)

theorem partitions_computeBlockChunks {start stop : Nat} (hstop : stop ≤ u64Max) :
    Partitions maxGetBlocksRange (start, stop) (computeBlockChunks start stop) := by
  unfold computeBlockChunks
  split
  · exact Partitions.nil_of_lt (show stop < start by omega)
  · exact partitions_cutRange hstop (by decide) (by omega)

theorem partitions_askedRanges {start stop chunkSize : Nat} (hstop : stop ≤ u64Max)
    (hsize : 1 ≤ chunkSize) :
    Partitions (min chunkSize maxGetBlocksRange) (start, stop)
      (askedRanges start stop chunkSize) := by
  have hchunks := @partitions_computeBackfillChunks start _ _ hstop hsize
  refine hchunks.flatMap ?_
  intro chunk hchunk
  have hwithin := (hchunks.within hchunk).2
  exact partitions_computeBlockChunks (le_trans hwithin hstop)

/-! ## The loops end -/

theorem iterate_round_computeBackfillChunks {start stop chunkSize : Nat}
    (hstop : stop ≤ u64Max) (hsize : 1 ≤ chunkSize) (hstart : start ≤ stop) :
    (ChunkLoop.round chunkSize stop)^[(computeBackfillChunks start stop chunkSize).length]
        (.running start []) =
      .finished (computeBackfillChunks start stop chunkSize) := by
  rw [computeBackfillChunks, if_neg (by omega)]
  exact ChunkLoop.iterate_round_cutRange hstop hsize hstart

theorem iterate_round_computeBlockChunks {start stop : Nat} (hstop : stop ≤ u64Max)
    (hstart : start ≤ stop) :
    (ChunkLoop.round maxGetBlocksRange stop)^[(computeBlockChunks start stop).length]
        (.running start []) =
      .finished (computeBlockChunks start stop) := by
  rw [computeBlockChunks, if_neg (by omega)]
  exact ChunkLoop.iterate_round_cutRange hstop (by decide) hstart

/-! ## What the node is asked -/

theorem backfillSlots_eq (answer : Nat × Nat → Except PipelineError (List Nat))
    (start stop chunkSize : Nat) :
    backfillSlots answer start stop chunkSize =
      collect answer (askedRanges start stop chunkSize) := by
  rw [askedRanges, collect_flatMap]
  rfl

/-- Both chunkers cut a range into consecutive chunks, as does the one after the other,
and the loops behind them end without an overflow.  The node is asked for every slot of
the range once. -/
theorem slot_chunks_partition {start stop chunkSize : Nat} (hstop : stop ≤ u64Max)
    (hsize : 1 ≤ chunkSize) :
    Partitions chunkSize (start, stop) (computeBackfillChunks start stop chunkSize) ∧
    Partitions maxGetBlocksRange (start, stop) (computeBlockChunks start stop) ∧
    Partitions (min chunkSize maxGetBlocksRange) (start, stop)
      (askedRanges start stop chunkSize) ∧
    (start ≤ stop →
      (ChunkLoop.round chunkSize stop)^[(computeBackfillChunks start stop chunkSize).length]
          (.running start []) = .finished (computeBackfillChunks start stop chunkSize) ∧
      (ChunkLoop.round maxGetBlocksRange stop)^[(computeBlockChunks start stop).length]
          (.running start []) = .finished (computeBlockChunks start stop)) ∧
    (stop < start → computeBackfillChunks start stop chunkSize = [] ∧
      computeBlockChunks start stop = []) ∧
    (askedRanges start stop chunkSize).flatMap rangeSlots = rangeSlots (start, stop) ∧
    ∀ answer, backfillSlots answer start stop chunkSize =
      collect answer (askedRanges start stop chunkSize) := by
  have hasked := @partitions_askedRanges start _ _ hstop hsize
  refine ⟨partitions_computeBackfillChunks hstop hsize, partitions_computeBlockChunks hstop,
    hasked, ?_, ?_, hasked.flatMap_rangeSlots, ?_⟩
  · intro hstart
    exact ⟨iterate_round_computeBackfillChunks hstop hsize hstart,
      iterate_round_computeBlockChunks hstop hstart⟩
  · intro hempty
    exact ⟨if_pos (Or.inl hempty), if_pos hempty⟩
  · intro answer
    exact backfillSlots_eq answer start stop chunkSize

/-- The last slots that there are, in chunks of two. -/
theorem slot_chunks_partition_top :
    computeBackfillChunks (u64Max - 2) u64Max 2 = [(u64Max - 2, u64Max - 1), (u64Max, u64Max)] ∧
      (askedRanges (u64Max - 2) u64Max 2).flatMap rangeSlots =
        rangeSlots (u64Max - 2, u64Max) := by
  have hparts := @slot_chunks_partition (u64Max - 2) u64Max 2 le_rfl (by decide)
  exact ⟨by decide +kernel, hparts.2.2.2.2.2.1⟩

end Solarix.Pipeline
