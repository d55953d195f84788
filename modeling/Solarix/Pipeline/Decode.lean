import Mathlib.Data.List.Enum
import Solarix.Pipeline.Rpc
import Solarix.Storage.Writer

/-!
# Decoding transactions and blocks

`decode_transaction` and `decode_block`, over any decoder.  Backfill runs the second
on a parsed block, streaming runs the first on a single transaction, and both write
to the same table.
-/

namespace Solarix.Pipeline

open Solarix.Decoder (DecodeError)
open Solarix.Storage (decomposeInstruction)

/-- `decode_instruction` of a `SolarixDecoder`, for a fixed IDL. -/
abbrev InstructionDecoder := String → List UInt8 → Except DecodeError DecodedInstruction

def instructionTargetsProgram (programIdIndex : UInt8) (accountKeys : List String)
    (programId : String) : Bool :=
  match accountKeys[programIdIndex.toNat]? with
  | some key => key == programId
  | none => false

/-- An account index that is out of bounds is left out. -/
def enrichInstruction (di : DecodedInstruction) (signature : String) (slot : Nat)
    (blockTime : Option Int) (instructionIndex : UInt8) (innerIndex : Option UInt8)
    (accountIndices : List UInt8) (accountKeys : List String) (programId : String) :
    DecodedInstruction :=
  { di with
    signature := signature
    slot := slot
    blockTime := blockTime
    instructionIndex := instructionIndex
    innerIndex := innerIndex
    programId := programId
    accounts := accountIndices.filterMap fun idx => accountKeys[idx.toNat]? }

/-- The decoded instructions with the number of failures and of attempts. -/
structure Tally where
  decoded : List DecodedInstruction
  failures : Nat
  attempts : Nat

def Tally.zero : Tally := ⟨[], 0, 0⟩

section Decode

variable (decoder : InstructionDecoder) (programId : String)

/-- One round of the two loops of `decode_transaction`. -/
def decodeOne (tx : RpcTransaction) (instructionIndex : UInt8) (innerIndex : Option UInt8)
    (tally : Tally) (ix : RpcInstruction) : Tally :=
  if instructionTargetsProgram ix.programIdIndex tx.accountKeys programId then
    match decoder programId ix.data with
    | .ok di =>
        { tally with
          decoded := tally.decoded ++ [enrichInstruction di tx.signature tx.slot none
            instructionIndex innerIndex ix.accounts tx.accountKeys programId]
          attempts := tally.attempts + 1 }
    | .error _ =>
        { tally with failures := tally.failures + 1, attempts := tally.attempts + 1 }
  else tally

/-- Top-level instructions first, then the inner ones group by group. -/
def decodeTransaction (indexFailedTxs : Bool) (tx : RpcTransaction) : Tally :=
  if !indexFailedTxs && !tx.success then Tally.zero
  else
    let tally := tx.instructions.zipIdx.foldl
      (fun tally p => decodeOne decoder programId tx (UInt8.ofNat p.2) none tally p.1)
      Tally.zero
    tx.innerInstructions.foldl
      (fun tally group => group.instructions.zipIdx.foldl
        (fun tally p =>
          decodeOne decoder programId tx group.index (some (UInt8.ofNat p.2)) tally p.1)
        tally)
      tally

def decodeBlock (indexFailedTxs : Bool) (block : RpcBlock) : Tally :=
  block.transactions.foldl
    (fun all tx =>
      let tally := decodeTransaction decoder programId indexFailedTxs tx
      { decoded := all.decoded ++ tally.decoded.map fun di =>
          { di with blockTime := block.blockTime }
        failures := all.failures + tally.failures
        attempts := all.attempts + tally.attempts })
    Tally.zero

end Decode

section Rows

variable {decoder : InstructionDecoder} {programId : String} {indexFailedTxs : Bool}

def Decodable (decoder : InstructionDecoder) (programId : String) (accountKeys : List String)
    (ix : RpcInstruction) : Prop :=
  instructionTargetsProgram ix.programIdIndex accountKeys programId = true ∧
    ∃ di, decoder programId ix.data = .ok di

def HasDecodable (decoder : InstructionDecoder) (programId : String) (indexFailedTxs : Bool)
    (tx : RpcTransaction) : Prop :=
  (indexFailedTxs = true ∨ tx.success = true) ∧
    ((∃ ix ∈ tx.instructions, Decodable decoder programId tx.accountKeys ix) ∨
      ∃ group ∈ tx.innerInstructions, ∃ ix ∈ group.instructions,
        Decodable decoder programId tx.accountKeys ix)

theorem decodeOne_decoded (tx : RpcTransaction) (index : UInt8) (inner : Option UInt8)
    (tally : Tally) (ix : RpcInstruction) :
    ∃ new, (decodeOne decoder programId tx index inner tally ix).decoded =
        tally.decoded ++ new ∧
      (∀ di ∈ new, di.signature = tx.signature ∧ di.blockTime = none) ∧
      (new = [] ↔ ¬ Decodable decoder programId tx.accountKeys ix) := by
  unfold decodeOne Decodable
  by_cases htarget : instructionTargetsProgram ix.programIdIndex tx.accountKeys programId = true
  · rw [if_pos htarget]
    cases hdecode : decoder programId ix.data with
    | ok di =>
        refine ⟨[_], rfl, ?_, ?_⟩
        · intro di hdi
          rw [List.mem_singleton.mp hdi]
          exact ⟨rfl, rfl⟩
        · simp [htarget]
    | error e => exact ⟨[], by simp, by simp, by simp⟩
  · rw [if_neg htarget]
    exact ⟨[], by simp, by simp, by simp [htarget]⟩

/-- `loop` adds rows of the transaction, and none exactly when `Has` fails. -/
def AddsRows (tx : RpcTransaction) (loop : Tally → Tally) (Has : Prop) : Prop :=
  ∀ tally, ∃ new, (loop tally).decoded = tally.decoded ++ new ∧
    (∀ di ∈ new, di.signature = tx.signature ∧ di.blockTime = none) ∧ (new = [] ↔ ¬ Has)

theorem addsRows_foldl {ι : Type} {tx : RpcTransaction} {items : List ι}
    {step : Tally → ι → Tally} {Has : ι → Prop}
    (hstep : ∀ item ∈ items, AddsRows tx (fun tally => step tally item) (Has item)) :
    AddsRows tx (fun tally => items.foldl step tally) (∃ item ∈ items, Has item) := by
  induction items with
  | nil => exact fun tally => ⟨[], by simp, by simp, by simp⟩
  | cons item items ih =>
      intro tally
      obtain ⟨new, hnew, hrow, hempty⟩ := hstep item (by simp) tally
      obtain ⟨more, hmore, hrows, hempties⟩ :=
        ih (fun item hitem => hstep item (by simp [hitem])) (step tally item)
      refine ⟨new ++ more, ?_, ?_, ?_⟩
      · change ((item :: items).foldl step tally).decoded = _
        rw [List.foldl_cons]
        exact hmore.trans (by rw [hnew, List.append_assoc])
      · intro di hdi
        rcases List.mem_append.mp hdi with h | h
        · exact hrow di h
        · exact hrows di h
      · rw [List.append_eq_nil_iff, hempty, hempties, List.exists_mem_cons_iff, not_or]

theorem addsRows_zipIdx (tx : RpcTransaction) (index : Nat → UInt8)
    (inner : Nat → Option UInt8) (instructions : List RpcInstruction) :
    AddsRows tx
      (fun tally => instructions.zipIdx.foldl
        (fun tally p => decodeOne decoder programId tx (index p.2) (inner p.2) tally p.1) tally)
      (∃ ix ∈ instructions, Decodable decoder programId tx.accountKeys ix) := by
  have hmem : (∃ p ∈ instructions.zipIdx, Decodable decoder programId tx.accountKeys p.1) ↔
      ∃ ix ∈ instructions, Decodable decoder programId tx.accountKeys ix := by
    conv_rhs => rw [← List.zipIdx_map_fst 0 instructions]
    simp only [List.mem_map, exists_exists_and_eq_and]
  rw [← hmem]
  apply addsRows_foldl
  intro p _ tally
  exact decodeOne_decoded tx (index p.2) (inner p.2) tally p.1

theorem decodeTransaction_decoded (tx : RpcTransaction) :
    (∀ di ∈ (decodeTransaction decoder programId indexFailedTxs tx).decoded,
      di.signature = tx.signature ∧ di.blockTime = none) ∧
    ((decodeTransaction decoder programId indexFailedTxs tx).decoded = [] ↔
      ¬ HasDecodable decoder programId indexFailedTxs tx) := by
  unfold decodeTransaction HasDecodable
  by_cases hkept : indexFailedTxs = true ∨ tx.success = true
  · have hcond : ¬ (!indexFailedTxs && !tx.success) = true := by
      rcases hkept with h | h <;> simp [h]
    rw [if_neg hcond]
    obtain ⟨top, htop, htopRows, htopEmpty⟩ :=
      addsRows_zipIdx tx UInt8.ofNat (fun _ => none) tx.instructions Tally.zero
    have hgroups : AddsRows tx _ (∃ group ∈ tx.innerInstructions,
        ∃ ix ∈ group.instructions, Decodable decoder programId tx.accountKeys ix) :=
      addsRows_foldl fun group _ => addsRows_zipIdx tx (fun _ => group.index)
        (fun i => some (UInt8.ofNat i)) group.instructions
    obtain ⟨inner, hinner, hinnerRows, hinnerEmpty⟩ := hgroups _
    rw [hinner, htop]
    refine ⟨?_, ?_⟩
    · intro di hdi
      rw [Tally.zero, List.nil_append] at hdi
      rcases List.mem_append.mp hdi with h | h
      · exact htopRows di h
      · exact hinnerRows di h
    · rw [Tally.zero, List.nil_append, List.append_eq_nil_iff, htopEmpty, hinnerEmpty,
        ← not_or, and_iff_right hkept]
  · have hcond : (!indexFailedTxs && !tx.success) = true := by
      simpa [not_or] using hkept
    rw [if_pos hcond]
    exact ⟨by simp [Tally.zero], by simp [Tally.zero, hkept]⟩

end Rows

/-! ## A small program -/

/-- What the decoder returns for an IDL with one instruction `swap` of discriminator
`[1]` and without arguments. -/
def swapDecoder : InstructionDecoder := fun programId data =>
  match data with
  | 1 :: _ => .ok (.fromDecoded programId "swap" (.obj []))
  | _ => .error (.unknownDiscriminator "")

def swapTransaction (slot : Nat) (signature : String) : RpcTransaction :=
  ⟨signature, slot, true, ["program"], [⟨0, [1], []⟩], []⟩

end Solarix.Pipeline
