import Solarix.Core.LittleEndian
import Solarix.Core.Text
import Solarix.Types

/-!
# The storage writer

The `_instructions` and `_checkpoints` tables of one program, as `write_block` leaves
them.  A write is one transaction: it inserts the instructions whose key is new and
replaces the checkpoint of its stream, or it changes nothing.
-/

namespace Solarix.Storage

open Solarix.Core

/-- The checkpoint streams.  `accounts` is the one of the account snapshot; no restart
reads it. -/
inductive Stream where
  | backfill
  | realtime
  | catchup
  | accounts
  deriving DecidableEq, Repr

/-- The columns that `decompose_instructions` binds for one instruction. -/
structure InstructionRecord where
  signature : String
  slot : Int
  blockTime : Option Int
  instructionName : String
  instructionIndex : Int
  innerIndex : Option Int
  args : Json
  accounts : Json
  data : Json
  isInnerIx : Bool

/-- `slot as i64`. -/
def slotToI64 (slot : Nat) : Int := toSigned 64 (slot % 2 ^ 64)

theorem inI64_slotToI64 (slot : Nat) : InI64 (slotToI64 slot) :=
  toSigned_bounds (by decide) (Nat.mod_lt _ (by decide))

def decomposeInstruction (ix : DecodedInstruction) : InstructionRecord where
  signature := ix.signature
  slot := slotToI64 ix.slot
  blockTime := ix.blockTime
  instructionName := ix.instructionName
  instructionIndex := ix.instructionIndex.toNat
  innerIndex := ix.innerIndex.map fun i => i.toNat
  args := ix.args
  accounts := .arr (ix.accounts.map .str)
  data := ix.args
  isInnerIx := ix.innerIndex.isSome

/-- `("signature", "instruction_index", COALESCE("inner_index", -1))`. -/
def InstructionRecord.conflictKey (row : InstructionRecord) : String × Int × Int :=
  (row.signature, row.instructionIndex, row.innerIndex.getD (-1))

/-- A row of `_checkpoints`; `last_slot` is a `BIGINT`. -/
structure StoredCheckpoint where
  lastSlot : Int
  lastSignature : Option String
  bigint : InI64 lastSlot

structure CheckpointInfo where
  lastSlot : Nat
  lastSignature : Option String

structure Store where
  instructions : List InstructionRecord
  checkpoints : Stream → Option StoredCheckpoint

namespace Store

def empty : Store := ⟨[], fun _ => none⟩

/-- `INSERT ... ON CONFLICT DO NOTHING` for one row. -/
def insertRow (store : Store) (row : InstructionRecord) : Store :=
  if row.conflictKey ∈ store.instructions.map InstructionRecord.conflictKey then store
  else { store with instructions := store.instructions ++ [row] }

def writeInstructions (store : Store) (instructions : List DecodedInstruction) : Store :=
  (instructions.map decomposeInstruction).foldl insertRow store

/-- The checkpoint upsert: the last write wins, whatever the slots are. -/
def updateCheckpoint (store : Store) (stream : Stream) (slot : Nat)
    (signature : Option String) : Store :=
  { store with
    checkpoints := fun s =>
      if s = stream then some ⟨slotToI64 slot, signature, inI64_slotToI64 slot⟩
      else store.checkpoints s }

def writeBlock (store : Store) (stream : Stream) (instructions : List DecodedInstruction)
    (slot : Nat) (signature : Option String) : Store :=
  (store.writeInstructions instructions).updateCheckpoint stream slot signature

/-- A negative slot counts as no checkpoint. -/
def readCheckpoint (store : Store) (stream : Stream) : Option CheckpointInfo :=
  (store.checkpoints stream).bind fun checkpoint =>
    if checkpoint.lastSlot < 0 then none
    else some ⟨checkpoint.lastSlot.toNat, checkpoint.lastSignature⟩

def checkpointSlot (store : Store) (stream : Stream) : Option Nat :=
  (store.readCheckpoint stream).map CheckpointInfo.lastSlot

/-- The table has a row under the instruction's key. -/
def Committed (store : Store) (ix : DecodedInstruction) : Prop :=
  (decomposeInstruction ix).conflictKey ∈
    store.instructions.map InstructionRecord.conflictKey

instance (store : Store) (ix : DecodedInstruction) : Decidable (store.Committed ix) :=
  inferInstanceAs (Decidable (_ ∈ _))

/-! ## What a write does -/

theorem mem_insertRow {store : Store} {row : InstructionRecord} {key : String × Int × Int} :
    key ∈ (store.insertRow row).instructions.map InstructionRecord.conflictKey ↔
      key ∈ store.instructions.map InstructionRecord.conflictKey ∨ key = row.conflictKey := by
  unfold insertRow
  split
  · rename_i hmem
    constructor
    · exact Or.inl
    · rintro (h | rfl)
      · exact h
      · exact hmem
  · simp

theorem mem_foldl_insertRow {rows : List InstructionRecord} {store : Store}
    {key : String × Int × Int} :
    key ∈ (rows.foldl insertRow store).instructions.map InstructionRecord.conflictKey ↔
      key ∈ store.instructions.map InstructionRecord.conflictKey ∨
        key ∈ rows.map InstructionRecord.conflictKey := by
  induction rows generalizing store with
  | nil => simp
  | cons row rows ih =>
      rw [List.foldl_cons, ih, mem_insertRow, List.map_cons, List.mem_cons, or_assoc]

theorem foldl_insertRow_of_nodup {rows : List InstructionRecord} {store : Store}
    (hnodup : (rows.map InstructionRecord.conflictKey).Nodup)
    (hnew : ∀ row ∈ rows,
      row.conflictKey ∉ store.instructions.map InstructionRecord.conflictKey) :
    (rows.foldl insertRow store).instructions = store.instructions ++ rows := by
  induction rows generalizing store with
  | nil => simp
  | cons row rows ih =>
      rw [List.map_cons, List.nodup_cons] at hnodup
      rw [List.forall_mem_cons] at hnew
      have hinsert : (store.insertRow row).instructions = store.instructions ++ [row] := by
        rw [insertRow, if_neg hnew.1]
      rw [List.foldl_cons, ih hnodup.2, hinsert, List.append_assoc, List.singleton_append]
      intro other hother hmem
      rcases mem_insertRow.mp hmem with h | h
      · exact hnew.2 other hother h
      · exact hnodup.1 (List.mem_map.mpr ⟨other, hother, h⟩)

theorem committed_writeBlock {store : Store} {stream : Stream}
    {instructions : List DecodedInstruction} {slot : Nat} {signature : Option String}
    {ix : DecodedInstruction} :
    (store.writeBlock stream instructions slot signature).Committed ix ↔
      store.Committed ix ∨
        ∃ other ∈ instructions, (decomposeInstruction other).conflictKey =
          (decomposeInstruction ix).conflictKey := by
  unfold Committed writeBlock updateCheckpoint writeInstructions
  rw [mem_foldl_insertRow, List.map_map]
  simp only [List.mem_map, Function.comp_apply]

theorem committed_of_mem {store : Store} {stream : Stream}
    {instructions : List DecodedInstruction} {slot : Nat} {signature : Option String}
    {ix : DecodedInstruction} (h : ix ∈ instructions) :
    (store.writeBlock stream instructions slot signature).Committed ix :=
  committed_writeBlock.mpr (Or.inr ⟨ix, h, rfl⟩)

theorem Committed.writeBlock {store : Store} {stream : Stream}
    {instructions : List DecodedInstruction} {slot : Nat} {signature : Option String}
    {ix : DecodedInstruction} (h : store.Committed ix) :
    (store.writeBlock stream instructions slot signature).Committed ix :=
  committed_writeBlock.mpr (Or.inl h)

theorem foldl_insertRow_checkpoints (rows : List InstructionRecord) (store : Store) :
    (rows.foldl insertRow store).checkpoints = store.checkpoints := by
  induction rows generalizing store with
  | nil => rfl
  | cons row rows ih =>
      rw [List.foldl_cons, ih]
      unfold insertRow
      split <;> rfl

theorem checkpointSlot_writeBlock_ne {store : Store} {stream other : Stream}
    {instructions : List DecodedInstruction} {slot : Nat} {signature : Option String}
    (h : other ≠ stream) :
    (store.writeBlock stream instructions slot signature).checkpointSlot other =
      store.checkpointSlot other := by
  unfold checkpointSlot readCheckpoint Store.writeBlock updateCheckpoint writeInstructions
  simp only [if_neg h, foldl_insertRow_checkpoints]

theorem checkpointSlot_writeBlock {store : Store} {stream : Stream}
    {instructions : List DecodedInstruction} {slot : Nat} {signature : Option String} :
    (store.writeBlock stream instructions slot signature).checkpointSlot stream =
      if slot % 2 ^ 64 < 2 ^ 63 then some (slot % 2 ^ 64) else none := by
  unfold checkpointSlot readCheckpoint Store.writeBlock updateCheckpoint
  simp only [if_true, Option.bind_some]
  by_cases h : slot % 2 ^ 64 < 2 ^ 63
  · have hsigned : slotToI64 slot = (slot % 2 ^ 64 : Nat) := if_pos h
    rw [hsigned, if_neg (by omega), if_pos h]
    rfl
  · have hsigned : slotToI64 slot = ((slot % 2 ^ 64 : Nat) : Int) - 2 ^ 64 := if_neg h
    rw [hsigned, if_pos (by omega), if_neg h]
    rfl

theorem le_of_checkpointSlot_writeBlock {store : Store} {stream : Stream}
    {instructions : List DecodedInstruction} {slot last : Nat} {signature : Option String}
    (h : (store.writeBlock stream instructions slot signature).checkpointSlot stream =
      some last) : last ≤ slot := by
  rw [checkpointSlot_writeBlock] at h
  split at h
  · cases h
    exact Nat.mod_le _ _
  · cases h

theorem checkpointSlot_lt {store : Store} {stream : Stream} {last : Nat}
    (h : store.checkpointSlot stream = some last) : last < 2 ^ 63 := by
  unfold checkpointSlot readCheckpoint at h
  cases hstored : store.checkpoints stream with
  | none => simp [hstored] at h
  | some checkpoint =>
      have hbound := checkpoint.bigint.2
      rw [hstored, Option.bind_some] at h
      split at h
      · cases h
      · cases h
        show checkpoint.lastSlot.toNat < 2 ^ 63
        omega

end Store

end Solarix.Storage
