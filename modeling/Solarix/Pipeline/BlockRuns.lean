import Solarix.Decoder.Program
import Solarix.Pipeline.RowKeys

/-!
# Decoding blocks with the decoder of the program

`decode_transaction` and `decode_block` over `ChainparserDecoder`, whose registries are kept
from call to call and whose panics end the run.  Where no instruction makes it panic, the run
is one over a decoder that always returns.
-/

namespace Solarix.Pipeline

open Solarix.Core
open Solarix.Decoder

/-- `&ix.data`.  No `Vec` is longer. -/
def sliceOf (bytes : List UInt8) : DataSlice :=
  ⟨bytes.take isizeMax, by rw [List.length_take]; exact Nat.min_le_left ..⟩

structure BlockRun where
  env : Externs
  idl : Idl
  programId : String
  indexFailedTxs : Bool

/-- What the loops carry along: the tally and the decoder. -/
abbrev LoopState := Tally × ChainparserDecoder

namespace BlockRun

variable (run : BlockRun)

def decodeOne (tx : RpcTransaction) (instructionIndex : UInt8) (innerIndex : Option UInt8)
    (state : LoopState) (ix : RpcInstruction) : Except Panic LoopState :=
  if instructionTargetsProgram ix.programIdIndex tx.accountKeys run.programId then
    match state.2.decodeInstruction run.env run.programId (sliceOf ix.data) run.idl with
    | (.ok di, self) =>
        .ok ({ state.1 with
          decoded := state.1.decoded ++ [enrichInstruction di tx.signature tx.slot none
            instructionIndex innerIndex ix.accounts tx.accountKeys run.programId]
          attempts := state.1.attempts + 1 }, self)
    | (.error (.error _), self) =>
        .ok ({ state.1 with
          failures := state.1.failures + 1
          attempts := state.1.attempts + 1 }, self)
    | (.error (.panic panic), _) => .error panic
  else .ok state

def decodeTransaction (self : ChainparserDecoder) (tx : RpcTransaction) :
    Except Panic LoopState :=
  if !run.indexFailedTxs && !tx.success then .ok (Tally.zero, self)
  else do
    let state ← tx.instructions.zipIdx.foldlM
      (fun state p => run.decodeOne tx (UInt8.ofNat p.2) none state p.1) (Tally.zero, self)
    tx.innerInstructions.foldlM
      (fun state group => group.instructions.zipIdx.foldlM
        (fun state p => run.decodeOne tx group.index (some (UInt8.ofNat p.2)) state p.1) state)
      state

def decodeBlock (self : ChainparserDecoder) (block : RpcBlock) : Except Panic LoopState :=
  block.transactions.foldlM
    (fun state tx => do
      let (tally, self) ← run.decodeTransaction state.2 tx
      .ok ({ decoded := state.1.decoded ++ tally.decoded.map fun di =>
               { di with blockTime := block.blockTime }
             failures := state.1.failures + tally.failures
             attempts := state.1.attempts + tally.attempts }, self))
    (Tally.zero, self)

/-! ## The decoder without its panics -/

def decode (registry : TypeRegistry) (data : List UInt8) : Result DecodedInstruction :=
  findInstructionWithFallback run.env (sliceOf data).bytes run.idl >>=
    ChainparserDecoder.decodeArgs run.env registry run.programId (sliceOf data)

/-- The same, with some error in place of a panic. -/
def total (registry : TypeRegistry) : InstructionDecoder := fun _ data =>
  match run.decode registry data with
  | .ok di => .ok di
  | .error (.error e) => .error e
  | .error (.panic _) => .error (.deserializationFailed "")

/-- The step panics if `Bad`.  Otherwise it does what `total` does, and the registry stays. -/
structure Follows (registry : TypeRegistry) (step : LoopState → Except Panic LoopState)
    (total : Tally → Tally) (Bad : Prop) : Prop where
  panics : Bad → ∀ state, state.2.registryFor run.idl = registry →
    ∃ panic, step state = .error panic
  returns : ¬ Bad → ∀ state, state.2.registryFor run.idl = registry →
    ∃ self, step state = .ok (total state.1, self) ∧ self.registryFor run.idl = registry

section Follows

variable {run} {registry : TypeRegistry} {step step' : LoopState → Except Panic LoopState}
  {total total' : Tally → Tally} {Bad Bad' : Prop}

theorem Follows.skip : run.Follows registry .ok id False :=
  ⟨False.elim, fun _ state hself => ⟨state.2, rfl, hself⟩⟩

theorem Follows.bind (h : run.Follows registry step total Bad)
    (h' : run.Follows registry step' total' Bad') :
    run.Follows registry (fun state => step state >>= step') (fun tally => total' (total tally))
      (Bad ∨ Bad') := by
  refine ⟨fun hbad state hself => ?_, fun hgood state hself => ?_⟩
  · by_cases hfirst : Bad
    · obtain ⟨panic, hpanic⟩ := h.panics hfirst state hself
      exact ⟨panic, by rw [hpanic]; rfl⟩
    · obtain ⟨self, hstep, hself'⟩ := h.returns hfirst state hself
      rw [hstep]
      exact h'.panics (hbad.resolve_left hfirst) (total state.1, self) hself'
  · rw [not_or] at hgood
    obtain ⟨self, hstep, hself'⟩ := h.returns hgood.1 state hself
    rw [hstep]
    exact h'.returns hgood.2 (total state.1, self) hself'

theorem Follows.foldlM {ι : Type} {items : List ι}
    {step : LoopState → ι → Except Panic LoopState} {total : Tally → ι → Tally} {Bad : ι → Prop}
    (h : ∀ item ∈ items, run.Follows registry (step · item) (total · item) (Bad item)) :
    run.Follows registry (fun state => items.foldlM step state)
      (fun tally => items.foldl total tally) (∃ item ∈ items, Bad item) := by
  induction items with
  | nil =>
      simp only [List.not_mem_nil, false_and, exists_false]
      exact Follows.skip
  | cons item items ih =>
      rw [List.forall_mem_cons] at h
      simp only [List.foldlM_cons, List.foldl_cons, List.exists_mem_cons_iff]
      exact h.1.bind (ih h.2)

def Panics (run : BlockRun) (registry : TypeRegistry) (accountKeys : List String)
    (ix : RpcInstruction) : Prop :=
  instructionTargetsProgram ix.programIdIndex accountKeys run.programId = true ∧
    (run.decode registry ix.data).Panics

theorem decodeInstruction_eq {state : LoopState}
    (hself : state.2.registryFor run.idl = registry) (data : List UInt8) :
    ∃ self, state.2.decodeInstruction run.env run.programId (sliceOf data) run.idl =
      (run.decode registry data, self) ∧ self.registryFor run.idl = registry := by
  refine ⟨_, Prod.ext ?_ rfl, ?_⟩
  · rw [ChainparserDecoder.decodeInstruction_fst, hself]
    rfl
  · rw [ChainparserDecoder.registryFor_decodeInstruction, hself]

theorem follows_decodeOne (tx : RpcTransaction) (index : UInt8) (inner : Option UInt8)
    (ix : RpcInstruction) :
    run.Follows registry (run.decodeOne tx index inner · ix)
      (Pipeline.decodeOne (run.total registry) run.programId tx index inner · ix)
      (run.Panics registry tx.accountKeys ix) := by
  unfold Panics
  by_cases htarget : instructionTargetsProgram ix.programIdIndex tx.accountKeys run.programId
  · refine ⟨fun hbad state hself => ?_, fun hgood state hself => ?_⟩
    · obtain ⟨self, hcall, hself'⟩ := decodeInstruction_eq hself ix.data
      obtain ⟨-, panic, hpanic⟩ := hbad
      rw [decodeOne, if_pos htarget, hcall, hpanic]
      exact ⟨panic, rfl⟩
    · obtain ⟨self, hcall, hself'⟩ := decodeInstruction_eq hself ix.data
      have hreturns := Outcome.returns_iff_not_panics.mpr fun h => hgood ⟨htarget, h⟩
      rw [decodeOne, if_pos htarget, hcall, Pipeline.decodeOne, if_pos htarget, total]
      rcases hreturns with ⟨di, hdi⟩ | ⟨e, he⟩
      · rw [hdi]
        exact ⟨self, rfl, hself'⟩
      · rw [he]
        exact ⟨self, rfl, hself'⟩
  · refine ⟨fun hbad => absurd hbad.1 htarget, fun _ state hself => ?_⟩
    rw [decodeOne, if_neg htarget, Pipeline.decodeOne, if_neg htarget]
    exact ⟨state.2, rfl, hself⟩

def TxPanics (run : BlockRun) (registry : TypeRegistry) (tx : RpcTransaction) : Prop :=
  NotFiltered run.indexFailedTxs tx = true ∧
    ((∃ p ∈ tx.instructions.zipIdx, run.Panics registry tx.accountKeys p.1) ∨
      ∃ group ∈ tx.innerInstructions, ∃ p ∈ group.instructions.zipIdx,
        run.Panics registry tx.accountKeys p.1)

theorem follows_instructions (tx : RpcTransaction) (index : Nat → UInt8)
    (inner : Nat → Option UInt8) (instructions : List RpcInstruction) :
    run.Follows registry
      (fun state => instructions.zipIdx.foldlM
        (fun state p => run.decodeOne tx (index p.2) (inner p.2) state p.1) state)
      (fun tally => instructions.zipIdx.foldl
        (fun tally p => Pipeline.decodeOne (run.total registry) run.programId tx (index p.2)
          (inner p.2) tally p.1) tally)
      (∃ p ∈ instructions.zipIdx, run.Panics registry tx.accountKeys p.1) :=
  Follows.foldlM fun p _ => follows_decodeOne tx (index p.2) (inner p.2) p.1

theorem follows_loops (tx : RpcTransaction) :
    run.Follows registry
      (fun state => do
        let state ← tx.instructions.zipIdx.foldlM
          (fun state p => run.decodeOne tx (UInt8.ofNat p.2) none state p.1) state
        tx.innerInstructions.foldlM
          (fun state group => group.instructions.zipIdx.foldlM
            (fun state p => run.decodeOne tx group.index (some (UInt8.ofNat p.2)) state p.1)
            state)
          state)
      (fun tally => tx.innerInstructions.foldl
        (fun tally group => group.instructions.zipIdx.foldl
          (fun tally p => Pipeline.decodeOne (run.total registry) run.programId tx group.index
            (some (UInt8.ofNat p.2)) tally p.1) tally)
        (tx.instructions.zipIdx.foldl
          (fun tally p => Pipeline.decodeOne (run.total registry) run.programId tx
            (UInt8.ofNat p.2) none tally p.1) tally))
      ((∃ p ∈ tx.instructions.zipIdx, run.Panics registry tx.accountKeys p.1) ∨
        ∃ group ∈ tx.innerInstructions, ∃ p ∈ group.instructions.zipIdx,
          run.Panics registry tx.accountKeys p.1) :=
  (follows_instructions tx UInt8.ofNat (fun _ => none) tx.instructions).bind
    (Follows.foldlM fun group _ => follows_instructions tx (fun _ => group.index)
      (fun j => some (UInt8.ofNat j)) group.instructions)

theorem follows_decodeTransaction (tx : RpcTransaction) (blockTime : Option Int) :
    run.Follows registry
      (fun state => do
        let (tally, self) ← run.decodeTransaction state.2 tx
        .ok (state.1 ++ tally.withBlockTime blockTime, self))
      (fun all => all ++ (Pipeline.decodeTransaction (run.total registry) run.programId
        run.indexFailedTxs tx).withBlockTime blockTime)
      (run.TxPanics registry tx) := by
  unfold TxPanics decodeTransaction Pipeline.decodeTransaction
  rw [filtered_eq]
  cases NotFiltered run.indexFailedTxs tx with
  | false =>
      refine ⟨fun hbad => absurd hbad.1 Bool.false_ne_true, fun _ state hself => ?_⟩
      exact ⟨state.2, rfl, hself⟩
  | true =>
      refine ⟨fun hbad state hself => ?_, fun hgood state hself => ?_⟩
      · obtain ⟨panic, hpanic⟩ := (follows_loops tx).panics hbad.2 (Tally.zero, state.2) hself
        simp only [Bool.not_true, Bool.false_eq_true, if_false, hpanic]
        exact ⟨panic, rfl⟩
      · obtain ⟨self, hstep, hself'⟩ := (follows_loops tx).returns
          (fun hbad => hgood ⟨rfl, hbad⟩) (Tally.zero, state.2) hself
        simp only [Bool.not_true, Bool.false_eq_true, if_false, hstep]
        exact ⟨self, rfl, hself'⟩

theorem follows_decodeBlock (block : RpcBlock) :
    run.Follows registry
      (fun state => block.transactions.foldlM
        (fun state tx => do
          let (tally, self) ← run.decodeTransaction state.2 tx
          .ok (state.1 ++ tally.withBlockTime block.blockTime, self)) state)
      (fun all => block.transactions.foldl
        (fun all tx => all ++ (Pipeline.decodeTransaction (run.total registry) run.programId
          run.indexFailedTxs tx).withBlockTime block.blockTime) all)
      (∃ tx ∈ block.transactions, run.TxPanics registry tx) :=
  Follows.foldlM fun tx _ => follows_decodeTransaction tx block.blockTime

theorem exists_txPanics_iff (block : RpcBlock) :
    (∃ tx ∈ block.transactions, run.TxPanics registry tx) ↔
      ∃ p ∈ targeted run.programId run.indexFailedTxs block,
        (run.decode registry p.ix.data).Panics := by
  unfold TxPanics Panics targeted
  constructor
  · rintro ⟨tx, htx, hkept, ⟨p, hp, htarget, hpanic⟩ | ⟨group, hgroup, p, hp, htarget, hpanic⟩⟩
    · refine ⟨⟨tx, p.2, none, p.1⟩, List.mem_filter.mpr ⟨List.mem_flatMap.mpr ⟨tx,
        List.mem_filter.mpr ⟨htx, hkept⟩, ?_⟩, htarget⟩, hpanic⟩
      exact List.mem_append_left _ (List.mem_map.mpr ⟨p, hp, rfl⟩)
    · refine ⟨⟨tx, group.index.toNat, some p.2, p.1⟩, List.mem_filter.mpr ⟨List.mem_flatMap.mpr
        ⟨tx, List.mem_filter.mpr ⟨htx, hkept⟩, ?_⟩, htarget⟩, hpanic⟩
      exact List.mem_append_right _ (List.mem_flatMap.mpr
        ⟨group, hgroup, List.mem_map.mpr ⟨p, hp, rfl⟩⟩)
  · rintro ⟨p, hp, hpanic⟩
    obtain ⟨hp, htarget⟩ := List.mem_filter.mp hp
    obtain ⟨tx, htx, hp⟩ := List.mem_flatMap.mp hp
    obtain ⟨htx, hkept⟩ := List.mem_filter.mp htx
    refine ⟨tx, htx, hkept, ?_⟩
    rcases List.mem_append.mp hp with hp | hp
    · obtain ⟨q, hq, rfl⟩ := List.mem_map.mp hp
      exact .inl ⟨q, hq, htarget, hpanic⟩
    · obtain ⟨group, hgroup, hp⟩ := List.mem_flatMap.mp hp
      obtain ⟨q, hq, rfl⟩ := List.mem_map.mp hp
      exact .inr ⟨group, hgroup, q, hq, htarget, hpanic⟩

theorem toOption_total (registry : TypeRegistry) :
    rowOf (run.total registry) run.programId = fun data => (run.decode registry data).toOption := by
  funext data
  unfold rowOf total
  cases run.decode registry data with
  | ok di => rfl
  | error fault => cases fault <;> rfl

end Follows

end BlockRun

/-- Every targeted instruction of a block has a row of its own, unless one of them leads the
decoder to an array or `COption` that is too large. -/
theorem block_rows_keyed_iff (run : BlockRun) (self : ChainparserDecoder) (block : RpcBlock)
    (hplaces : DistinctPlaces block) :
    (∃ tally self', run.decodeBlock self block = .ok (tally, self') ∧
      KeyedRows (fun data => (self.decodeInstruction run.env run.programId (sliceOf data)
          run.idl).1.toOption) block.blockTime
        (targeted run.programId run.indexFailedTxs block) tally) ↔
    ∀ p ∈ targeted run.programId run.indexFailedTxs block,
      ¬ InstructionHits run.env (self.registryFor run.idl) (sliceOf p.ix.data).bytes run.idl := by
  have hdecode : (fun data => (self.decodeInstruction run.env run.programId (sliceOf data)
      run.idl).1.toOption) = rowOf (run.total (self.registryFor run.idl)) run.programId := by
    rw [BlockRun.toOption_total]
    funext data
    rw [ChainparserDecoder.decodeInstruction_fst]
    rfl
  have hpanics : (∃ tx ∈ block.transactions, run.TxPanics (self.registryFor run.idl) tx) ↔
      ∃ p ∈ targeted run.programId run.indexFailedTxs block,
        InstructionHits run.env (self.registryFor run.idl) (sliceOf p.ix.data).bytes run.idl := by
    rw [BlockRun.exists_txPanics_iff]
    simp only [← ChainparserDecoder.decodeInstruction_panics_iff run.env self run.programId,
      ChainparserDecoder.decodeInstruction_fst]
    rfl
  have hfollows := @BlockRun.follows_decodeBlock run (self.registryFor run.idl) block
  rw [hdecode]
  constructor
  · rintro ⟨tally, self', hrun, -⟩ p hp hhits
    obtain ⟨panic, hpanic⟩ := hfollows.panics (hpanics.mpr ⟨p, hp, hhits⟩) (Tally.zero, self) rfl
    rw [BlockRun.decodeBlock] at hrun
    exact absurd (hrun.symm.trans hpanic) (by simp)
  · intro hgood
    obtain ⟨self', hrun, -⟩ := hfollows.returns
      (fun hbad => by
        obtain ⟨p, hp, hhits⟩ := hpanics.mp hbad
        exact hgood p hp hhits) (Tally.zero, self) rfl
    exact ⟨_, self', hrun, keyedRows_decodeBlock hplaces⟩

def nestedSwapRun : BlockRun where
  env := Externs.minimal
  idl := ⟨"prog", [⟨"swap", [1], []⟩], [], []⟩
  programId := "prog"
  indexFailedTxs := false

def nestedSwapBlock : RpcBlock :=
  ⟨7, some 70, [⟨"sig", 7, true, ["prog"], [⟨0, [1], []⟩], [⟨0, [⟨0, [1], []⟩]⟩]⟩]⟩

theorem block_rows_keyed_swap :
    ∃ tally self', nestedSwapRun.decodeBlock .new nestedSwapBlock = .ok (tally, self') ∧
      KeyedRows (fun data => (ChainparserDecoder.new.decodeInstruction Externs.minimal "prog"
          (sliceOf data) nestedSwapRun.idl).1.toOption) (some 70)
        (targeted "prog" false nestedSwapBlock) tally := by
  refine (block_rows_keyed_iff nestedSwapRun .new nestedSwapBlock
    ⟨by decide, by decide, by decide, by decide⟩).mpr ?_
  have hdata : ∀ p ∈ targeted "prog" false nestedSwapBlock, p.ix.data = [1] := by
    decide +kernel
  intro p hp
  rw [← ChainparserDecoder.decodeInstruction_panics_iff nestedSwapRun.env .new
    nestedSwapRun.programId, hdata p hp]
  exact Outcome.not_panics_ok _

def oversizedBlock : RpcBlock :=
  ⟨7, none, [⟨"sig", 7, true, ["prog"], [⟨0, [1], []⟩], []⟩]⟩

theorem block_oversized_not_returns :
    DistinctPlaces oversizedBlock ∧
      BlockRun.decodeBlock ⟨Externs.minimal, oversizedIdl, "prog", false⟩ .new oversizedBlock =
        .error .capacityOverflow :=
  ⟨⟨by decide, by decide, by decide, by decide⟩, rfl⟩

end Solarix.Pipeline
