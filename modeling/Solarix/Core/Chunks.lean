import Mathlib.Algebra.Group.Nat.Defs
import Mathlib.Data.List.Range
import Mathlib.Data.List.Sort
import Mathlib.Logic.Function.Iterate
import Mathlib.Order.Defs.LinearOrder

/-!
# Cutting a range into chunks

Inclusive ranges of 64-bit numbers cut into consecutive chunks of at most `size`
numbers, with the saturating arithmetic such loops use.
-/

namespace Solarix.Core

def u64Max : Nat := 2 ^ 64 - 1

/-- `u64::saturating_add`. -/
def saturatingAdd (a b : Nat) : Nat := min (a + b) u64Max

theorem saturatingAdd_of_le {a b : Nat} (h : a + b ≤ u64Max) : saturatingAdd a b = a + b :=
  min_eq_left h

def rangeSlots (range : Nat × Nat) : List Nat := List.range' range.1 (range.2 + 1 - range.1)

theorem mem_rangeSlots {range : Nat × Nat} {slot : Nat} :
    slot ∈ rangeSlots range ↔ range.1 ≤ slot ∧ slot ≤ range.2 := by
  rw [rangeSlots, List.mem_range'_1]
  omega

theorem rangeSlots_append {a b c : Nat} (hab : a ≤ b + 1) (hbc : b ≤ c) :
    rangeSlots (a, b) ++ rangeSlots (b + 1, c) = rangeSlots (a, c) := by
  have hnext : b + 1 = a + (b + 1 - a) := by omega
  have hlength : c + 1 - a = (b + 1 - a) + (c + 1 - (b + 1)) := by omega
  calc rangeSlots (a, b) ++ rangeSlots (b + 1, c)
      = List.range' a (b + 1 - a) ++ List.range' (a + (b + 1 - a)) (c + 1 - (b + 1)) := by
        rw [← hnext]; rfl
    _ = List.range' a ((b + 1 - a) + (c + 1 - (b + 1))) := List.range'_append_1
    _ = rangeSlots (a, c) := by rw [← hlength]; rfl

theorem pairwise_rangeSlots (range : Nat × Nat) : (rangeSlots range).Pairwise (· < ·) :=
  List.pairwise_lt_range'

/-- The loop, with at most `fuel` rounds left. -/
def chunksFrom (size stop : Nat) : Nat → Nat → List (Nat × Nat)
  | 0, _ => []
  | fuel + 1, current =>
      if current ≤ stop then
        let chunkEnd := min (saturatingAdd current (size - 1)) stop
        (current, chunkEnd) ::
          if chunkEnd ≥ stop then [] else chunksFrom size stop fuel (saturatingAdd chunkEnd 1)
      else []

/-- Each round of the loop uses up a number, so `stop - start + 1` rounds are enough. -/
def cutRange (size start stop : Nat) : List (Nat × Nat) :=
  chunksFrom size stop (stop - start + 1) start

theorem chunksFrom_succ {size stop fuel current : Nat} (hstop : stop ≤ u64Max)
    (hcurrent : current ≤ stop) :
    chunksFrom size stop (fuel + 1) current =
      if stop ≤ current + (size - 1) then [(current, stop)]
      else (current, current + (size - 1)) ::
        chunksFrom size stop fuel (current + (size - 1) + 1) := by
  rw [chunksFrom, if_pos hcurrent]
  by_cases hlast : stop ≤ current + (size - 1)
  · have hend : min (saturatingAdd current (size - 1)) stop = stop := by
      unfold saturatingAdd
      omega
    simp only [hend, ge_iff_le, le_refl, if_true, if_pos hlast]
  · have hend : min (saturatingAdd current (size - 1)) stop = current + (size - 1) := by
      rw [saturatingAdd_of_le (by omega)]
      omega
    have hnext : saturatingAdd (current + (size - 1)) 1 = current + (size - 1) + 1 :=
      saturatingAdd_of_le (by omega)
    simp only [hend, hnext, ge_iff_le, if_neg hlast]

theorem chunksFrom_le (size stop fuel current : Nat) :
    ∀ chunk ∈ chunksFrom size stop fuel current, chunk.2 ≤ stop := by
  induction fuel generalizing current with
  | zero => simp [chunksFrom]
  | succ fuel ih =>
      intro chunk hchunk
      rw [chunksFrom] at hchunk
      split at hchunk
      · rcases List.mem_cons.mp hchunk with rfl | hrest
        · exact min_le_right _ _
        · split at hrest
          · cases hrest
          · exact ih _ chunk hrest
      · cases hchunk

theorem cutRange_le {size start stop : Nat} :
    ∀ chunk ∈ cutRange size start stop, chunk.2 ≤ stop :=
  chunksFrom_le size stop _ start

/-- The chunks tile the range: one after the other they list its numbers in order. -/
theorem flatMap_chunksFrom {size stop : Nat} (hstop : stop ≤ u64Max) (fuel : Nat)
    {current : Nat} (hcurrent : current ≤ stop) (hfuel : stop < current + fuel) :
    (chunksFrom size stop fuel current).flatMap rangeSlots = rangeSlots (current, stop) := by
  induction fuel generalizing current with
  | zero => omega
  | succ fuel ih =>
      rw [chunksFrom_succ hstop hcurrent]
      by_cases hlast : stop ≤ current + (size - 1)
      · rw [if_pos hlast, List.flatMap_cons, List.flatMap_nil, List.append_nil]
      · rw [if_neg hlast, List.flatMap_cons, ih (by omega) (by omega)]
        exact rangeSlots_append (by omega) (by omega)

theorem flatMap_cutRange {size start stop : Nat} (hstop : stop ≤ u64Max)
    (hstart : start ≤ stop) :
    (cutRange size start stop).flatMap rangeSlots = rangeSlots (start, stop) :=
  flatMap_chunksFrom hstop _ hstart (by omega)

/-! ## The loop, round by round -/

/-- Where the loop stands; `size - 1` underflows in its first round when `size` is zero. -/
inductive ChunkLoop where
  | running (current : Nat) (chunks : List (Nat × Nat))
  | finished (chunks : List (Nat × Nat))
  | overflowed
  deriving DecidableEq, Repr

def ChunkLoop.round (size stop : Nat) : ChunkLoop → ChunkLoop
  | .running current chunks =>
      if current ≤ stop then
        if size = 0 then .overflowed
        else
          let chunkEnd := min (saturatingAdd current (size - 1)) stop
          let chunks := chunks ++ [(current, chunkEnd)]
          if chunkEnd ≥ stop then .finished chunks
          else .running (saturatingAdd chunkEnd 1) chunks
      else .finished chunks
  | loop => loop

theorem ChunkLoop.round_running {size stop current : Nat} (hstop : stop ≤ u64Max)
    (hsize : 1 ≤ size) (hcurrent : current ≤ stop) (chunks : List (Nat × Nat)) :
    ChunkLoop.round size stop (.running current chunks) =
      if stop ≤ current + (size - 1) then .finished (chunks ++ [(current, stop)])
      else .running (current + (size - 1) + 1)
        (chunks ++ [(current, current + (size - 1))]) := by
  rw [ChunkLoop.round, if_pos hcurrent, if_neg (by omega)]
  by_cases hlast : stop ≤ current + (size - 1)
  · have hend : min (saturatingAdd current (size - 1)) stop = stop := by
      unfold saturatingAdd
      omega
    simp only [hend, ge_iff_le, le_refl, if_true, if_pos hlast]
  · have hend : min (saturatingAdd current (size - 1)) stop = current + (size - 1) := by
      rw [saturatingAdd_of_le (by omega)]
      omega
    have hnext : saturatingAdd (current + (size - 1)) 1 = current + (size - 1) + 1 :=
      saturatingAdd_of_le (by omega)
    simp only [hend, hnext, ge_iff_le, if_neg hlast]

theorem ChunkLoop.iterate_round {size stop : Nat} (hstop : stop ≤ u64Max) (hsize : 1 ≤ size)
    (fuel : Nat) {current : Nat} (hcurrent : current ≤ stop) (hfuel : stop < current + fuel)
    (chunks : List (Nat × Nat)) :
    (ChunkLoop.round size stop)^[(chunksFrom size stop fuel current).length]
        (.running current chunks) =
      .finished (chunks ++ chunksFrom size stop fuel current) := by
  induction fuel generalizing current chunks with
  | zero => omega
  | succ fuel ih =>
      rw [chunksFrom_succ hstop hcurrent]
      by_cases hlast : stop ≤ current + (size - 1)
      · rw [if_pos hlast, List.length_singleton, Function.iterate_one,
          ChunkLoop.round_running hstop hsize hcurrent, if_pos hlast]
      · rw [if_neg hlast, List.length_cons, Function.iterate_succ_apply,
          ChunkLoop.round_running hstop hsize hcurrent, if_neg hlast,
          ih (by omega) (by omega), List.append_assoc, List.singleton_append]

/-! ## Partitions of a range -/

/-- Consecutive non-empty inclusive ranges of at most `size` numbers that make up the
whole range. -/
structure Partitions (size : Nat) (range : Nat × Nat) (chunks : List (Nat × Nat)) : Prop where
  nonempty : ∀ chunk ∈ chunks, chunk.1 ≤ chunk.2
  small : ∀ chunk ∈ chunks, chunk.2 + 1 - chunk.1 ≤ size
  ascending : chunks.Pairwise fun chunk later => chunk.2 < later.1
  union : ∀ slot, (∃ chunk ∈ chunks, chunk.1 ≤ slot ∧ slot ≤ chunk.2) ↔
    range.1 ≤ slot ∧ slot ≤ range.2

namespace Partitions

variable {size inner : Nat} {range chunk : Nat × Nat} {chunks : List (Nat × Nat)}

theorem nil_of_lt (h : range.2 < range.1) : Partitions size range [] where
  nonempty := by simp
  small := by simp
  ascending := .nil
  union slot := by
    simp only [List.not_mem_nil, false_and, exists_false, false_iff]
    omega

theorem within (h : Partitions size range chunks) (hchunk : chunk ∈ chunks) :
    range.1 ≤ chunk.1 ∧ chunk.2 ≤ range.2 := by
  have hle := h.nonempty chunk hchunk
  exact ⟨((h.union chunk.1).mp ⟨chunk, hchunk, le_rfl, hle⟩).1,
    ((h.union chunk.2).mp ⟨chunk, hchunk, hle, le_rfl⟩).2⟩

theorem cons {start next stop : Nat} (hstart : start ≤ next) (hstop : next ≤ stop)
    (hsmall : next + 1 - start ≤ size) (h : Partitions size (next + 1, stop) chunks) :
    Partitions size (start, stop) ((start, next) :: chunks) where
  nonempty := List.forall_mem_cons.mpr ⟨hstart, h.nonempty⟩
  small := List.forall_mem_cons.mpr ⟨hsmall, h.small⟩
  ascending := by
    refine List.pairwise_cons.mpr ⟨?_, h.ascending⟩
    intro later hlater
    exact (h.within hlater).1
  union slot := by
    rw [List.exists_mem_cons_iff, h.union slot]
    simp only
    omega

theorem singleton {start stop : Nat} (hstart : start ≤ stop) (hsmall : stop + 1 - start ≤ size) :
    Partitions size (start, stop) [(start, stop)] :=
  cons hstart le_rfl hsmall (nil_of_lt (Nat.lt_succ_self stop))

theorem flatMap {cut : Nat × Nat → List (Nat × Nat)} (h : Partitions size range chunks)
    (hcut : ∀ chunk ∈ chunks, Partitions inner chunk (cut chunk)) :
    Partitions (min size inner) range (chunks.flatMap cut) where
  nonempty := by
    intro piece hpiece
    obtain ⟨chunk, hchunk, hpiece⟩ := List.mem_flatMap.mp hpiece
    exact (hcut chunk hchunk).nonempty piece hpiece
  small := by
    intro piece hpiece
    obtain ⟨chunk, hchunk, hpiece⟩ := List.mem_flatMap.mp hpiece
    have hwithin := (hcut chunk hchunk).within hpiece
    have houter := h.small chunk hchunk
    have hinner := (hcut chunk hchunk).small piece hpiece
    omega
  ascending := by
    refine List.pairwise_flatMap.mpr ⟨fun chunk hchunk => (hcut chunk hchunk).ascending, ?_⟩
    refine h.ascending.imp_of_mem ?_
    intro chunk later hchunk hlater hlt piece hpiece next hnext
    have hpiece := ((hcut chunk hchunk).within hpiece).2
    have hnext := ((hcut later hlater).within hnext).1
    omega
  union slot := by
    rw [← h.union slot]
    constructor
    · rintro ⟨piece, hpiece, hslot⟩
      obtain ⟨chunk, hchunk, hpiece⟩ := List.mem_flatMap.mp hpiece
      exact ⟨chunk, hchunk, ((hcut chunk hchunk).union slot).mp ⟨piece, hpiece, hslot⟩⟩
    · rintro ⟨chunk, hchunk, hslot⟩
      obtain ⟨piece, hpiece, hslot⟩ := ((hcut chunk hchunk).union slot).mpr hslot
      exact ⟨piece, List.mem_flatMap.mpr ⟨chunk, hchunk, hpiece⟩, hslot⟩

theorem flatMap_rangeSlots (h : Partitions size range chunks) :
    chunks.flatMap rangeSlots = rangeSlots range := by
  have hpairwise : (chunks.flatMap rangeSlots).Pairwise (· < ·) := by
    refine List.pairwise_flatMap.mpr ⟨fun chunk _ => pairwise_rangeSlots chunk, ?_⟩
    refine h.ascending.imp ?_
    intro chunk later hlt slot hslot next hnext
    rw [mem_rangeSlots] at hslot hnext
    omega
  apply hpairwise.eq_of_mem_iff (pairwise_rangeSlots range)
  intro slot
  rw [mem_rangeSlots, ← h.union slot, List.mem_flatMap]
  simp only [mem_rangeSlots]

end Partitions

theorem partitions_chunksFrom {size stop : Nat} (hstop : stop ≤ u64Max) (hsize : 1 ≤ size)
    (fuel : Nat) {current : Nat} (hcurrent : current ≤ stop) (hfuel : stop < current + fuel) :
    Partitions size (current, stop) (chunksFrom size stop fuel current) := by
  induction fuel generalizing current with
  | zero => omega
  | succ fuel ih =>
      rw [chunksFrom_succ hstop hcurrent]
      by_cases hlast : stop ≤ current + (size - 1)
      · rw [if_pos hlast]
        exact Partitions.singleton hcurrent (by omega)
      · rw [if_neg hlast]
        exact Partitions.cons (by omega) (by omega) (by omega) (ih (by omega) (by omega))

theorem partitions_cutRange {size start stop : Nat} (hstop : stop ≤ u64Max) (hsize : 1 ≤ size)
    (hstart : start ≤ stop) : Partitions size (start, stop) (cutRange size start stop) :=
  partitions_chunksFrom hstop hsize _ hstart (by omega)

theorem ChunkLoop.iterate_round_cutRange {size start stop : Nat} (hstop : stop ≤ u64Max)
    (hsize : 1 ≤ size) (hstart : start ≤ stop) :
    (ChunkLoop.round size stop)^[(cutRange size start stop).length] (.running start []) =
      .finished (cutRange size start stop) :=
  ChunkLoop.iterate_round hstop hsize _ hstart (by omega) []

end Solarix.Core
