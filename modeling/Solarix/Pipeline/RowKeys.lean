import Mathlib.Data.List.Flatten
import Solarix.Pipeline.Decode

/-!
# The rows of a block

`decode_block` numbers instructions in 8 bits, and the table keys rows by signature and
numbers.  Here the two loops are one pass over the positions of a block, so that the rows can be
counted and their keys compared.
-/

namespace Solarix.Pipeline

open Solarix.Storage (decomposeInstruction InstructionRecord Store)

/-! ## Positions -/

/-- An instruction with the place where it stands.  `index` is the place among the top-level
instructions, that of the group's parent for an inner one. -/
structure Position where
  tx : RpcTransaction
  index : Nat
  inner : Option Nat
  ix : RpcInstruction

def topPositions (tx : RpcTransaction) : List Position :=
  tx.instructions.zipIdx.map fun p => ⟨tx, p.2, none, p.1⟩

def groupPositions (tx : RpcTransaction) (group : RpcInnerInstructionGroup) : List Position :=
  group.instructions.zipIdx.map fun p => ⟨tx, group.index.toNat, some p.2, p.1⟩

def txPositions (tx : RpcTransaction) : List Position :=
  topPositions tx ++ tx.innerInstructions.flatMap (groupPositions tx)

def NotFiltered (indexFailedTxs : Bool) (tx : RpcTransaction) : Bool := indexFailedTxs || tx.success

theorem filtered_eq (indexFailedTxs : Bool) (tx : RpcTransaction) :
    (!indexFailedTxs && !tx.success) = !NotFiltered indexFailedTxs tx := (Bool.not_or _ _).symm

def Position.Targets (programId : String) (p : Position) : Bool :=
  instructionTargetsProgram p.ix.programIdIndex p.tx.accountKeys programId

def targeted (programId : String) (indexFailedTxs : Bool) (block : RpcBlock) : List Position :=
  ((block.transactions.filter (NotFiltered indexFailedTxs)).flatMap txPositions).filter
    (Position.Targets programId)

/-- The place as it is numbered, before the numbers are cut to 8 bits. -/
def Position.place (p : Position) : String × Nat × Option Nat := (p.tx.signature, p.index, p.inner)

/-! ### Tallies of positions -/

def Position.row (decoder : InstructionDecoder) (programId : String) (p : Position) :
    Option DecodedInstruction :=
  match decoder programId p.ix.data with
  | .ok di => some (enrichInstruction di p.tx.signature p.tx.slot none (UInt8.ofNat p.index)
      (p.inner.map UInt8.ofNat) p.ix.accounts p.tx.accountKeys programId)
  | .error _ => none

instance : Append Tally where
  append a b := ⟨a.decoded ++ b.decoded, a.failures + b.failures, a.attempts + b.attempts⟩

theorem Tally.append_eq (a b : Tally) :
    a ++ b = ⟨a.decoded ++ b.decoded, a.failures + b.failures, a.attempts + b.attempts⟩ := rfl

def Tally.withBlockTime (blockTime : Option Int) (tally : Tally) : Tally :=
  { tally with decoded := tally.decoded.map fun di => { di with blockTime := blockTime } }

section Tallies

variable (decoder : InstructionDecoder) (programId : String)

def tallyOf (positions : List Position) : Tally where
  decoded := positions.filterMap (Position.row decoder programId)
  failures := positions.countP fun p => (p.row decoder programId).isNone
  attempts := positions.length

theorem Tally.append_assoc (a b c : Tally) : a ++ b ++ c = a ++ (b ++ c) := by
  simp [Tally.append_eq, Nat.add_assoc]

@[simp] theorem Tally.zero_append (a : Tally) : Tally.zero ++ a = a := by
  simp [Tally.append_eq, Tally.zero]

@[simp] theorem Tally.append_zero (a : Tally) : a ++ Tally.zero = a := by
  simp [Tally.append_eq, Tally.zero]

theorem Tally.withBlockTime_append (blockTime : Option Int) (a b : Tally) :
    (a ++ b).withBlockTime blockTime = a.withBlockTime blockTime ++ b.withBlockTime blockTime := by
  simp [Tally.append_eq, Tally.withBlockTime]

@[simp] theorem tallyOf_nil : tallyOf decoder programId [] = Tally.zero := rfl

theorem tallyOf_append (positions positions' : List Position) :
    tallyOf decoder programId (positions ++ positions') =
      tallyOf decoder programId positions ++ tallyOf decoder programId positions' := by
  simp [tallyOf, Tally.append_eq]

theorem decodeOne_eq (p : Position) (tally : Tally) :
    decodeOne decoder programId p.tx (UInt8.ofNat p.index) (p.inner.map UInt8.ofNat) tally p.ix =
      tally ++ tallyOf decoder programId ([p].filter (Position.Targets programId)) := by
  unfold decodeOne
  change (if p.Targets programId then _ else _) = _
  by_cases htarget : p.Targets programId = true
  · rw [if_pos htarget, List.filter_cons_of_pos htarget, List.filter_nil, Tally.append_eq]
    cases hdecode : decoder programId p.ix.data with
    | ok di => simp [tallyOf, Position.row, hdecode]
    | error e => simp [tallyOf, Position.row, hdecode]
  · rw [if_neg htarget, List.filter_cons_of_neg htarget, List.filter_nil, tallyOf_nil,
      Tally.append_zero]

theorem foldl_decodeOne (positions : List Position) (tally : Tally) :
    positions.foldl (fun tally p => decodeOne decoder programId p.tx (UInt8.ofNat p.index)
        (p.inner.map UInt8.ofNat) tally p.ix) tally =
      tally ++ tallyOf decoder programId (positions.filter (Position.Targets programId)) := by
  induction positions generalizing tally with
  | nil => simp
  | cons p positions ih =>
      rw [List.foldl_cons, decodeOne_eq, ih, Tally.append_assoc, ← tallyOf_append,
        ← List.filter_append, List.singleton_append]

theorem decodeTransaction_eq (indexFailedTxs : Bool) (tx : RpcTransaction) :
    decodeTransaction decoder programId indexFailedTxs tx =
      if NotFiltered indexFailedTxs tx then
        tallyOf decoder programId ((txPositions tx).filter (Position.Targets programId))
      else Tally.zero := by
  unfold decodeTransaction
  rw [filtered_eq]
  cases NotFiltered indexFailedTxs tx with
  | false => rfl
  | true =>
      have htop : ∀ tally, tx.instructions.zipIdx.foldl
          (fun tally p => decodeOne decoder programId tx (UInt8.ofNat p.2) none tally p.1) tally =
          tally ++ tallyOf decoder programId
            ((topPositions tx).filter (Position.Targets programId)) := by
        intro tally
        rw [← foldl_decodeOne, topPositions, List.foldl_map]
        rfl
      have hgroup : ∀ tally (group : RpcInnerInstructionGroup), group.instructions.zipIdx.foldl
          (fun tally p => decodeOne decoder programId tx group.index (some (UInt8.ofNat p.2)) tally
            p.1) tally =
          (groupPositions tx group).foldl (fun tally p => decodeOne decoder programId p.tx
            (UInt8.ofNat p.index) (p.inner.map UInt8.ofNat) tally p.ix) tally := by
        intro tally group
        rw [groupPositions, List.foldl_map]
        simp
      simp only [Bool.not_true, Bool.false_eq_true, if_false, if_true]
      rw [htop, Tally.zero_append]
      simp only [hgroup]
      rw [← List.foldl_flatMap, foldl_decodeOne, ← tallyOf_append, ← List.filter_append,
        txPositions]

theorem decodeBlock_eq (indexFailedTxs : Bool) (block : RpcBlock) :
    decodeBlock decoder programId indexFailedTxs block =
      (tallyOf decoder programId (targeted programId indexFailedTxs block)).withBlockTime
        block.blockTime := by
  have hfold : ∀ (txs : List RpcTransaction) (all : Tally), txs.foldl
      (fun all tx =>
        let tally := decodeTransaction decoder programId indexFailedTxs tx
        { decoded := all.decoded ++ tally.decoded.map fun di =>
            { di with blockTime := block.blockTime }
          failures := all.failures + tally.failures
          attempts := all.attempts + tally.attempts }) all =
      all ++ (tallyOf decoder programId (((txs.filter (NotFiltered indexFailedTxs)).flatMap
        txPositions).filter (Position.Targets programId))).withBlockTime block.blockTime := by
    intro txs
    induction txs with
    | nil =>
        intro all
        exact (Tally.append_zero all).symm
    | cons tx txs ih =>
        intro all
        rw [List.foldl_cons, ih, decodeTransaction_eq]
        cases hkept : NotFiltered indexFailedTxs tx with
        | false =>
            rw [List.filter_cons_of_neg (by simp [hkept])]
            exact congrArg (· ++ _) (Tally.append_zero all)
        | true =>
            rw [List.filter_cons_of_pos hkept, List.flatMap_cons, List.filter_append,
              tallyOf_append, Tally.withBlockTime_append, ← Tally.append_assoc]
            rfl
  rw [decodeBlock, hfold, Tally.zero_append, targeted]

end Tallies

/-! ## Keys -/

/-- What holds of the blocks of the chain: a place is found under one signature and one group,
and its numbers fit into 8 bits. -/
structure DistinctPlaces (block : RpcBlock) : Prop where
  signatures : (block.transactions.map RpcTransaction.signature).Nodup
  groups : ∀ tx ∈ block.transactions,
    (tx.innerInstructions.map RpcInnerInstructionGroup.index).Nodup
  top : ∀ tx ∈ block.transactions, tx.instructions.length ≤ 256
  inner : ∀ tx ∈ block.transactions, ∀ group ∈ tx.innerInstructions,
    group.instructions.length ≤ 256

section Places

variable {tx : RpcTransaction} {p : Position} {block : RpcBlock} {programId : String}
  {indexFailedTxs : Bool}

theorem map_place_zipIdx (place : Nat → String × Nat × Option Nat)
    (hplace : Function.Injective place) (instructions : List RpcInstruction) :
    (instructions.zipIdx.map fun p => place p.2).Nodup := by
  have hmap : (instructions.zipIdx.map fun p => place p.2) =
      (instructions.zipIdx.map Prod.snd).map place := by
    rw [List.map_map]
    rfl
  rw [hmap, List.zipIdx_map_snd]
  exact (List.nodup_range' ..).map hplace

theorem mem_topPositions (h : p ∈ topPositions tx) :
    p.tx = tx ∧ p.index < tx.instructions.length ∧ p.inner = none := by
  obtain ⟨q, hq, rfl⟩ := List.mem_map.mp h
  exact ⟨rfl, List.snd_lt_of_mem_zipIdx hq, rfl⟩

theorem mem_groupPositions {group : RpcInnerInstructionGroup} (h : p ∈ groupPositions tx group) :
    p.tx = tx ∧ p.index = group.index.toNat ∧
      ∃ j < group.instructions.length, p.inner = some j := by
  obtain ⟨q, hq, rfl⟩ := List.mem_map.mp h
  exact ⟨rfl, rfl, q.2, List.snd_lt_of_mem_zipIdx hq, rfl⟩

theorem tx_of_mem_txPositions (h : p ∈ txPositions tx) : p.tx = tx := by
  rcases List.mem_append.mp h with h | h
  · exact (mem_topPositions h).1
  · obtain ⟨group, _, hgroup⟩ := List.mem_flatMap.mp h
    exact (mem_groupPositions hgroup).1

theorem nodup_place_txPositions
    (h : (tx.innerInstructions.map RpcInnerInstructionGroup.index).Nodup) :
    ((txPositions tx).map Position.place).Nodup := by
  rw [txPositions, List.map_append, List.nodup_append', List.map_flatMap, List.nodup_flatMap]
  refine ⟨?_, ⟨?_, ?_⟩, ?_⟩
  · rw [topPositions, List.map_map]
    exact map_place_zipIdx (fun i => (tx.signature, i, none)) (fun i j h => by simpa using h) _
  · intro group _
    rw [groupPositions, List.map_map]
    exact map_place_zipIdx (fun j => (tx.signature, group.index.toNat, some j))
      (fun i j h => by simpa using h) _
  · rw [List.Nodup, List.pairwise_map] at h
    refine h.imp fun {group group'} hne => ?_
    intro place hplace hplace'
    obtain ⟨p, hp, rfl⟩ := List.mem_map.mp hplace
    obtain ⟨p', hp', heq⟩ := List.mem_map.mp hplace'
    have hindex := (mem_groupPositions hp).2.1
    have hindex' := (mem_groupPositions hp').2.1
    have hsame : p'.index = p.index := congrArg (fun place => place.2.1) heq
    exact hne (UInt8.toNat_inj.mp (hindex.symm.trans (hsame.symm.trans hindex')))
  · intro place hplace hplace'
    obtain ⟨p, hp, rfl⟩ := List.mem_map.mp hplace
    obtain ⟨group, _, hgroup⟩ := List.mem_flatMap.mp hplace'
    obtain ⟨p', hp', heq⟩ := List.mem_map.mp hgroup
    obtain ⟨j, _, hj⟩ := (mem_groupPositions hp').2.2
    have hsame : p'.inner = p.inner := congrArg (fun place => place.2.2) heq
    rw [hj, (mem_topPositions hp).2.2] at hsame
    cases hsame

theorem nodup_place_targeted (h : DistinctPlaces block) :
    ((targeted programId indexFailedTxs block).map Position.place).Nodup := by
  have hsub : (targeted programId indexFailedTxs block).Sublist
      (block.transactions.flatMap txPositions) :=
    List.filter_sublist.trans (List.filter_sublist.flatMap _)
  apply (hsub.map _).nodup
  rw [List.map_flatMap, List.nodup_flatMap]
  refine ⟨fun tx htx => nodup_place_txPositions (h.groups tx htx), ?_⟩
  have hsignatures := h.signatures
  rw [List.Nodup, List.pairwise_map] at hsignatures
  refine hsignatures.imp fun {tx tx'} hne => ?_
  intro place hplace hplace'
  obtain ⟨p, hp, rfl⟩ := List.mem_map.mp hplace
  obtain ⟨p', hp', heq⟩ := List.mem_map.mp hplace'
  have hsame : p'.tx.signature = p.tx.signature := congrArg Prod.fst heq
  rw [tx_of_mem_txPositions hp, tx_of_mem_txPositions hp'] at hsame
  exact hne hsame.symm

theorem numbers_of_mem_targeted (h : DistinctPlaces block)
    (hp : p ∈ targeted programId indexFailedTxs block) :
    p.index < 256 ∧ ∀ j ∈ p.inner, j < 256 := by
  obtain ⟨tx, htx, hp⟩ := List.mem_flatMap.mp (List.mem_filter.mp hp).1
  have htx := (List.mem_filter.mp htx).1
  rcases List.mem_append.mp hp with hp | hp
  · obtain ⟨-, hindex, hinner⟩ := mem_topPositions hp
    have hlength := h.top tx htx
    exact ⟨by omega, by simp [hinner]⟩
  · obtain ⟨group, hgroup, hp⟩ := List.mem_flatMap.mp hp
    obtain ⟨-, hindex, j, hj, hinner⟩ := mem_groupPositions hp
    have hlength := h.inner tx htx group hgroup
    have hlt := group.index.toNat_lt
    refine ⟨by omega, fun k hk => ?_⟩
    rw [hinner, Option.mem_some_iff] at hk
    omega

end Places

/-! ### Rows -/

structure AtPosition (decode : List UInt8 → Option DecodedInstruction) (blockTime : Option Int)
    (di : DecodedInstruction) (p : Position) : Prop where
  decoded : ∃ raw, decode p.ix.data = some raw ∧ di.instructionName = raw.instructionName ∧
    di.args = raw.args
  place : (di.signature, di.instructionIndex.toNat, di.innerIndex.map UInt8.toNat) = p.place
  slot : di.slot = p.tx.slot
  blockTime : di.blockTime = blockTime

/-- The rows of the positions: they are counted, they carry their positions, no two have one
key, and the table takes each of them. -/
structure KeyedRows (decode : List UInt8 → Option DecodedInstruction) (blockTime : Option Int)
    (positions : List Position) (tally : Tally) : Prop where
  attempts : tally.attempts = positions.length
  balance : tally.decoded.length + tally.failures = tally.attempts
  carried : List.Forall₂ (AtPosition decode blockTime) tally.decoded
    (positions.filter fun p => (decode p.ix.data).isSome)
  distinct : (tally.decoded.map fun di => (decomposeInstruction di).conflictKey).Nodup
  inserted : ∀ store : Store, (∀ di ∈ tally.decoded, ¬ store.Committed di) →
    (store.writeInstructions tally.decoded).instructions =
      store.instructions ++ tally.decoded.map decomposeInstruction

section Rows

variable {decoder : InstructionDecoder} {programId : String} {blockTime : Option Int}
  {positions : List Position}

/-- The key of a place: `-1` for a top-level instruction. -/
def placeKey (place : String × Nat × Option Nat) : String × Int × Int :=
  (place.1, place.2.1, (place.2.2.map Int.ofNat).getD (-1))

theorem placeKey_injective : Function.Injective placeKey := by
  rintro ⟨signature, index, inner⟩ ⟨signature', index', inner'⟩ h
  simp only [placeKey, Prod.mk.injEq, Nat.cast_inj] at h
  obtain ⟨rfl, rfl, hinner⟩ := h
  cases inner <;> cases inner' <;> simp at hinner ⊢
  omega

theorem AtPosition.key {decode : List UInt8 → Option DecodedInstruction}
    {di : DecodedInstruction} {p : Position} (h : AtPosition decode blockTime di p) :
    (decomposeInstruction di).conflictKey = placeKey p.place := by
  rw [← h.place]
  cases hinner : di.innerIndex <;>
    simp [decomposeInstruction, InstructionRecord.conflictKey, placeKey, hinner]

def rowOf (decoder : InstructionDecoder) (programId : String) (data : List UInt8) :
    Option DecodedInstruction := (decoder programId data).toOption

theorem atPosition_row (blockTime : Option Int) {p : Position} {di : DecodedInstruction}
    (hnumbers : p.index < 256 ∧ ∀ j ∈ p.inner, j < 256)
    (h : p.row decoder programId = some di) :
    AtPosition (rowOf decoder programId) blockTime { di with blockTime := blockTime } p := by
  unfold Position.row at h
  cases hdecode : decoder programId p.ix.data with
  | error e => simp [hdecode] at h
  | ok raw =>
      simp only [hdecode, Option.some.injEq] at h
      subst h
      refine ⟨⟨raw, by simp [rowOf, hdecode, Except.toOption], rfl, rfl⟩, ?_, rfl, rfl⟩
      have hindex : (UInt8.ofNat p.index).toNat = p.index := UInt8.toNat_ofNat_of_lt' hnumbers.1
      have hinner : (p.inner.map UInt8.ofNat).map UInt8.toNat = p.inner := by
        cases h : p.inner with
        | none => rfl
        | some j => exact congrArg some (UInt8.toNat_ofNat_of_lt' (hnumbers.2 j h))
      simp only [enrichInstruction, hindex, hinner, Position.place]

theorem forall₂_row (decoder : InstructionDecoder) (programId : String)
    (blockTime : Option Int)
    (hnumbers : ∀ p ∈ positions, p.index < 256 ∧ ∀ j ∈ p.inner, j < 256) :
    List.Forall₂ (AtPosition (rowOf decoder programId) blockTime)
      ((tallyOf decoder programId positions).withBlockTime blockTime).decoded
      (positions.filter fun p => (rowOf decoder programId p.ix.data).isSome) := by
  change List.Forall₂ _ ((positions.filterMap (Position.row decoder programId)).map _) _
  induction positions with
  | nil => exact .nil
  | cons p positions ih =>
      rw [List.forall_mem_cons] at hnumbers
      cases hrow : p.row decoder programId with
      | some di =>
          have hat := atPosition_row blockTime hnumbers.1 hrow
          obtain ⟨raw, hraw, -⟩ := hat.decoded
          rw [List.filterMap_cons_some hrow, List.filter_cons_of_pos (by simp [hraw]),
            List.map_cons]
          exact .cons hat (ih hnumbers.2)
      | none =>
          have hnone : rowOf decoder programId p.ix.data = none := by
            unfold Position.row at hrow
            unfold rowOf
            cases hdecode : decoder programId p.ix.data with
            | ok di => simp [hdecode] at hrow
            | error e => rfl
          rw [List.filterMap_cons_none hrow, List.filter_cons_of_neg (by simp [hnone])]
          exact ih hnumbers.2

theorem keyedRows_tallyOf (hplaces : (positions.map Position.place).Nodup)
    (hnumbers : ∀ p ∈ positions, p.index < 256 ∧ ∀ j ∈ p.inner, j < 256) :
    KeyedRows (rowOf decoder programId) blockTime positions
      ((tallyOf decoder programId positions).withBlockTime blockTime) := by
  have hcarried := forall₂_row decoder programId blockTime hnumbers
  have hkeys : ((tallyOf decoder programId positions).withBlockTime blockTime).decoded.map
      (fun di => (decomposeInstruction di).conflictKey) =
      (positions.filter fun p => (rowOf decoder programId p.ix.data).isSome).map
        (placeKey ∘ Position.place) := by
    rw [← List.forall₂_eq_eq_eq, List.forall₂_map_left_iff, List.forall₂_map_right_iff]
    exact hcarried.imp fun di p hat => hat.key
  have hdistinct : (((tallyOf decoder programId positions).withBlockTime blockTime).decoded.map
      fun di => (decomposeInstruction di).conflictKey).Nodup := by
    rw [hkeys, ← List.map_map]
    exact ((List.filter_sublist.map _).nodup hplaces).map placeKey_injective
  refine ⟨rfl, ?_, hcarried, hdistinct, fun store hstore => ?_⟩
  · simp only [Tally.withBlockTime, tallyOf, List.length_map, List.length_filterMap_eq_countP]
    rw [List.length_eq_countP_add_countP fun p => (Position.row decoder programId p).isSome]
    apply congrArg
    apply List.countP_congr
    intro p _
    simp
  · apply Store.foldl_insertRow_of_nodup
    · rw [List.map_map]
      exact hdistinct
    · intro row hrow
      obtain ⟨di, hdi, rfl⟩ := List.mem_map.mp hrow
      exact hstore di hdi

theorem keyedRows_decodeBlock {indexFailedTxs : Bool} {block : RpcBlock}
    (h : DistinctPlaces block) :
    KeyedRows (rowOf decoder programId) block.blockTime (targeted programId indexFailedTxs block)
      (decodeBlock decoder programId indexFailedTxs block) := by
  rw [decodeBlock_eq]
  exact keyedRows_tallyOf (nodup_place_targeted h) fun p hp => numbers_of_mem_targeted h hp

end Rows

end Solarix.Pipeline
