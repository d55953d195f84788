import Solarix.Pipeline.RowKeys
import Solarix.Storage.WriteBlock

/-!
# What the instruction table holds

Backfill and catch-up decode blocks, streaming decodes single transactions, and all of them
write to one table.  They overlap, they repeat each other and their writes may fail.  The
table is that of one block of all the transactions that some committed write was about; only
the block times tell which write came first.
-/

namespace Solarix.Pipeline

open Solarix.Core
open Solarix.Storage (decomposeInstruction InstructionRecord Store Stream Replies WriteCall
  runWrites committedRows runWrites_instructions)

/-- What one write is about: a block in `process_chunk`, a transaction in `stream_events`. -/
inductive Source where
  | block (block : RpcBlock)
  | transaction (tx : RpcTransaction)

namespace Source

def transactions : Source → List RpcTransaction
  | .block parsed => parsed.transactions
  | .transaction tx => [tx]

def signatures (source : Source) : List String :=
  source.transactions.map RpcTransaction.signature

def blockTime : Source → Option Int
  | .block parsed => parsed.blockTime
  | .transaction _ => none

section Rows

variable (decoder : InstructionDecoder) (programId : String) (indexFailedTxs : Bool)

def decoded : Source → List DecodedInstruction
  | .block parsed => (decodeBlock decoder programId indexFailedTxs parsed).decoded
  | .transaction tx => (decodeTransaction decoder programId indexFailedTxs tx).decoded

end Rows

end Source

/-- A source on its way to the table, with the checkpoint of its write and what the database
answers. -/
structure Ingestion where
  source : Source
  stream : Stream
  slot : Nat
  signature : Option String
  replies : Replies

section Contents

variable (decoder : InstructionDecoder) (programId : String) (indexFailedTxs : Bool)

def Ingestion.call (ingestion : Ingestion) : WriteCall where
  stream := ingestion.stream
  instructions := ingestion.source.decoded decoder programId indexFailedTxs
  accounts := []
  slot := ingestion.slot
  signature := ingestion.signature
  replies := ingestion.replies

def committedIngestions (ingestions : List Ingestion) : List Ingestion :=
  ingestions.filter fun ingestion =>
    (ingestion.call decoder programId indexFailedTxs).commits

def coveredTransactions (transactions : List RpcTransaction) (ingestions : List Ingestion) :
    List RpcTransaction :=
  transactions.filter fun tx =>
    (committedIngestions decoder programId indexFailedTxs ingestions).any fun ingestion =>
      ingestion.source.signatures.contains tx.signature

def indexAfter (ingestions : List Ingestion) : List InstructionRecord :=
  (runWrites .empty
    (ingestions.map (Ingestion.call decoder programId indexFailedTxs))).2.instructions

def firstTime (ingestions : List Ingestion) (signature : String) : Option Int :=
  ((committedIngestions decoder programId indexFailedTxs ingestions).find? fun ingestion =>
    ingestion.source.signatures.contains signature).bind fun first => first.source.blockTime

end Contents

def withoutTime (row : InstructionRecord) : InstructionRecord := { row with blockTime := none }

/-! ## The rows of a source -/

section Rows

variable {decoder : InstructionDecoder} {programId : String} {indexFailedTxs : Bool}
  {transactions : List RpcTransaction} {ingestions : List Ingestion}

abbrev asBlock (transactions : List RpcTransaction) : RpcBlock := ⟨0, none, transactions⟩

theorem mem_targeted {p : Position} :
    p ∈ targeted programId indexFailedTxs (asBlock transactions) ↔
      p.tx ∈ transactions ∧ NotFiltered indexFailedTxs p.tx = true ∧ p ∈ txPositions p.tx ∧
        p.Targets programId = true := by
  unfold targeted
  rw [List.mem_filter, List.mem_flatMap]
  constructor
  · rintro ⟨⟨tx, htx, hp⟩, htargets⟩
    obtain ⟨hmem, hkept⟩ := List.mem_filter.mp htx
    have heq : p.tx = tx := tx_of_mem_txPositions hp
    subst heq
    exact ⟨hmem, hkept, hp, htargets⟩
  · rintro ⟨hmem, hkept, hp, htargets⟩
    exact ⟨⟨p.tx, List.mem_filter.mpr ⟨hmem, hkept⟩, hp⟩, htargets⟩

theorem Source.decoded_eq (source : Source) :
    source.decoded decoder programId indexFailedTxs =
      ((tallyOf decoder programId
        (targeted programId indexFailedTxs (asBlock source.transactions))).withBlockTime
          source.blockTime).decoded := by
  cases source with
  | block block =>
      rw [Source.decoded, decodeBlock_eq]
      rfl
  | transaction tx =>
      have htargeted : targeted programId indexFailedTxs (asBlock [tx]) =
          if NotFiltered indexFailedTxs tx then
            (txPositions tx).filter (Position.Targets programId)
          else [] := by
        unfold targeted
        cases hkept : NotFiltered indexFailedTxs tx <;> simp [hkept]
      have hdecoded : decodeTransaction decoder programId indexFailedTxs tx =
          tallyOf decoder programId (targeted programId indexFailedTxs (asBlock [tx])) := by
        rw [decodeTransaction_eq, htargeted]
        split <;> rfl
      have htimes : ∀ di ∈ (decodeTransaction decoder programId indexFailedTxs tx).decoded,
          { di with blockTime := none } = di :=
        fun di hdi => by rw [← (decodeTransaction_decoded tx).1 di hdi |>.2]
      show (decodeTransaction decoder programId indexFailedTxs tx).decoded =
        (tallyOf decoder programId (targeted programId indexFailedTxs (asBlock [tx]))).decoded.map
          fun di => { di with blockTime := none }
      rw [← hdecoded, List.map_congr_left htimes, List.map_id']

theorem mem_rows {ingestion : Ingestion} {row : InstructionRecord} :
    row ∈ (ingestion.call decoder programId indexFailedTxs).rows ↔
      ∃ p ∈ targeted programId indexFailedTxs (asBlock ingestion.source.transactions),
        ∃ di, p.row decoder programId = some di ∧
          row = decomposeInstruction { di with blockTime := ingestion.source.blockTime } := by
  show row ∈ (ingestion.source.decoded decoder programId indexFailedTxs).map _ ↔ _
  rw [Source.decoded_eq]
  simp only [Tally.withBlockTime, tallyOf, List.mem_map, List.mem_filterMap,
    exists_exists_and_eq_and]
  constructor
  · rintro ⟨di, ⟨p, hp, hrow⟩, rfl⟩
    exact ⟨p, hp, di, hrow, rfl⟩
  · rintro ⟨p, hp, di, hrow, rfl⟩
    exact ⟨di, ⟨p, hp, hrow⟩, rfl⟩

theorem signature_row {p : Position} {di : DecodedInstruction}
    (hrow : p.row decoder programId = some di) : di.signature = p.tx.signature := by
  unfold Position.row at hrow
  split at hrow
  · cases hrow
    rfl
  · cases hrow

theorem blockTime_row {p : Position} {di : DecodedInstruction}
    (hrow : p.row decoder programId = some di) : { di with blockTime := none } = di := by
  unfold Position.row at hrow
  split at hrow
  · cases hrow
    rfl
  · cases hrow

theorem eq_of_signature (hplaces : DistinctPlaces (asBlock transactions)) {tx tx' : RpcTransaction}
    (htx : tx ∈ transactions) (htx' : tx' ∈ transactions) (h : tx.signature = tx'.signature) :
    tx = tx' :=
  List.inj_on_of_nodup_map hplaces.signatures htx htx' h

theorem DistinctPlaces.covered (hplaces : DistinctPlaces (asBlock transactions)) :
    DistinctPlaces (asBlock
      (coveredTransactions decoder programId indexFailedTxs transactions ingestions)) where
  signatures := (List.filter_sublist.map _).nodup hplaces.signatures
  groups tx htx := hplaces.groups tx (List.mem_of_mem_filter htx)
  top tx htx := hplaces.top tx (List.mem_of_mem_filter htx)
  inner tx htx := hplaces.inner tx (List.mem_of_mem_filter htx)

/-! ## The table -/

def coveredRows (decoder : InstructionDecoder) (programId : String) (indexFailedTxs : Bool)
    (transactions : List RpcTransaction) (ingestions : List Ingestion) : List InstructionRecord :=
  (decodeBlock decoder programId indexFailedTxs (asBlock
    (coveredTransactions decoder programId indexFailedTxs transactions ingestions))).decoded.map
      decomposeInstruction

theorem mem_coveredRows {row : InstructionRecord} :
    row ∈ coveredRows decoder programId indexFailedTxs transactions ingestions ↔
      ∃ p ∈ targeted programId indexFailedTxs (asBlock
          (coveredTransactions decoder programId indexFailedTxs transactions ingestions)),
        ∃ di, p.row decoder programId = some di ∧ row = decomposeInstruction di := by
  unfold coveredRows
  rw [decodeBlock_eq]
  simp only [Tally.withBlockTime, tallyOf, List.mem_map, List.mem_filterMap,
    exists_exists_and_eq_and]
  constructor
  · rintro ⟨di, ⟨p, hp, hrow⟩, rfl⟩
    exact ⟨p, hp, di, hrow, by rw [blockTime_row hrow]⟩
  · rintro ⟨p, hp, di, hrow, rfl⟩
    exact ⟨di, ⟨p, hp, hrow⟩, by rw [blockTime_row hrow]⟩

theorem nodup_coveredRows (hplaces : DistinctPlaces (asBlock transactions)) :
    ((coveredRows decoder programId indexFailedTxs transactions ingestions).map
      InstructionRecord.conflictKey).Nodup := by
  rw [coveredRows, List.map_map]
  exact (keyedRows_decodeBlock hplaces.covered).distinct

theorem decompose_mem_coveredRows {tx : RpcTransaction} {di : DecodedInstruction}
    (htx : tx ∈ coveredTransactions decoder programId indexFailedTxs transactions ingestions)
    (hdi : di ∈ (decodeTransaction decoder programId indexFailedTxs tx).decoded) :
    decomposeInstruction di ∈
      coveredRows decoder programId indexFailedTxs transactions ingestions := by
  have hdecoded : di ∈ (Source.transaction tx).decoded decoder programId indexFailedTxs := hdi
  rw [Source.decoded_eq] at hdecoded
  obtain ⟨raw, hraw, rfl⟩ := List.mem_map.mp hdecoded
  obtain ⟨p, hp, hrow⟩ := List.mem_filterMap.mp hraw
  obtain ⟨hmem, hkept, hpos, htargets⟩ := mem_targeted.mp hp
  refine mem_coveredRows.mpr ⟨p, mem_targeted.mpr ⟨?_, hkept, hpos, htargets⟩, raw, hrow, ?_⟩
  · rw [List.mem_singleton.mp hmem]
    exact htx
  · rw [Source.blockTime, blockTime_row hrow]

theorem indexAfter_take_extends (ingestions : List Ingestion) (n : Nat) :
    indexAfter decoder programId indexFailedTxs (ingestions.take n) <+:
      indexAfter decoder programId indexFailedTxs ingestions := by
  have hrows : committedRows (ingestions.map (Ingestion.call decoder programId indexFailedTxs)) =
      committedRows ((ingestions.take n).map
          (Ingestion.call decoder programId indexFailedTxs)) ++
        committedRows ((ingestions.drop n).map
          (Ingestion.call decoder programId indexFailedTxs)) := by
    rw [committedRows, committedRows, committedRows, ← List.flatMap_append, ← List.filter_append,
      ← List.map_append, List.take_append_drop]
  rw [indexAfter, indexAfter, runWrites_instructions, runWrites_instructions, hrows,
    insertAll_append]
  exact insertAll_extends _ _

theorem mem_indexAfter {row : InstructionRecord} :
    row ∈ indexAfter decoder programId indexFailedTxs ingestions ↔
      ((committedIngestions decoder programId indexFailedTxs ingestions).flatMap fun ingestion =>
        (ingestion.call decoder programId indexFailedTxs).rows).find?
          (fun other => other.conflictKey = row.conflictKey) = some row := by
  have hrows : committedRows (ingestions.map (Ingestion.call decoder programId indexFailedTxs)) =
      (committedIngestions decoder programId indexFailedTxs ingestions).flatMap fun ingestion =>
        (ingestion.call decoder programId indexFailedTxs).rows := by
    rw [committedRows, List.filter_map, List.flatMap_map]
    rfl
  rw [indexAfter, runWrites_instructions, hrows, mem_insertAll_iff_first]
  simp [Store.empty]

section Chain

variable (hplaces : DistinctPlaces (asBlock transactions))
  (hchain : ∀ ingestion ∈ ingestions, ∀ tx ∈ ingestion.source.transactions, tx ∈ transactions)

include hchain

theorem mem_transactions_of_committed {ingestion : Ingestion} {tx : RpcTransaction}
    (h : ingestion ∈ committedIngestions decoder programId indexFailedTxs ingestions)
    (htx : tx ∈ ingestion.source.transactions) : tx ∈ transactions :=
  hchain ingestion (List.mem_of_mem_filter h) tx htx

theorem withoutTime_mem_coveredRows {ingestion : Ingestion} {row : InstructionRecord}
    (h : ingestion ∈ committedIngestions decoder programId indexFailedTxs ingestions)
    (hrow : row ∈ (ingestion.call decoder programId indexFailedTxs).rows) :
    withoutTime row ∈ coveredRows decoder programId indexFailedTxs transactions ingestions := by
  obtain ⟨p, hp, di, hdi, rfl⟩ := mem_rows.mp hrow
  obtain ⟨htx, hkept, hpos, htargets⟩ := mem_targeted.mp hp
  refine mem_coveredRows.mpr ⟨p, mem_targeted.mpr ⟨?_, hkept, hpos, htargets⟩, di, hdi, ?_⟩
  · refine List.mem_filter.mpr ⟨mem_transactions_of_committed hchain h htx, ?_⟩
    exact List.any_eq_true.mpr ⟨ingestion, h, List.contains_iff_mem.mpr (List.mem_map_of_mem htx)⟩
  · rw [← blockTime_row hdi]
    rfl

include hplaces

theorem exists_row_of_covers {ingestion : Ingestion} {p : Position} {di : DecodedInstruction}
    (h : ingestion ∈ committedIngestions decoder programId indexFailedTxs ingestions)
    (hp : p ∈ targeted programId indexFailedTxs (asBlock transactions))
    (hdi : p.row decoder programId = some di)
    (hcovers : ingestion.source.signatures.contains p.tx.signature = true) :
    decomposeInstruction { di with blockTime := ingestion.source.blockTime } ∈
      (ingestion.call decoder programId indexFailedTxs).rows := by
  obtain ⟨tx, htx, hsignature⟩ := List.mem_map.mp (List.contains_iff_mem.mp hcovers)
  obtain ⟨hmem, hkept, hpos, htargets⟩ := mem_targeted.mp hp
  have heq : tx = p.tx := eq_of_signature hplaces
    (mem_transactions_of_committed hchain h htx) hmem hsignature
  subst heq
  exact mem_rows.mpr ⟨p, mem_targeted.mpr ⟨htx, hkept, hpos, htargets⟩, di, hdi, rfl⟩

theorem mem_withoutTime_indexAfter {row : InstructionRecord} :
    row ∈ (indexAfter decoder programId indexFailedTxs ingestions).map withoutTime ↔
      row ∈ coveredRows decoder programId indexFailedTxs transactions ingestions := by
  constructor
  · intro hrow
    obtain ⟨timed, htimed, rfl⟩ := List.mem_map.mp hrow
    obtain ⟨ingestion, hingestion, hmem⟩ :=
      List.mem_flatMap.mp (List.mem_of_find?_eq_some (mem_indexAfter.mp htimed))
    exact withoutTime_mem_coveredRows hchain hingestion hmem
  · intro hrow
    obtain ⟨p, hp, di, hdi, rfl⟩ := mem_coveredRows.mp hrow
    obtain ⟨hcovered, hkept, hpos, htargets⟩ := mem_targeted.mp hp
    obtain ⟨htx, hany⟩ := List.mem_filter.mp hcovered
    obtain ⟨ingestion, hingestion, hcovers⟩ := List.any_eq_true.mp hany
    have hp' : p ∈ targeted programId indexFailedTxs (asBlock transactions) :=
      mem_targeted.mpr ⟨htx, hkept, hpos, htargets⟩
    have hmem := exists_row_of_covers hplaces hchain hingestion hp' hdi hcovers
    have hfound : ((committedIngestions decoder programId indexFailedTxs ingestions).flatMap
        fun ingestion => (ingestion.call decoder programId indexFailedTxs).rows).find?
          (fun other => other.conflictKey = (decomposeInstruction di).conflictKey) ≠ none := by
      intro hnone
      have hne := List.find?_eq_none.mp hnone _ (List.mem_flatMap.mpr ⟨ingestion, hingestion, hmem⟩)
      exact hne (decide_eq_true rfl)
    -- The row under its key may be another source's, with another time.
    obtain ⟨first, hfirst⟩ := Option.ne_none_iff_exists'.mp hfound
    have hsome := List.find?_some hfirst
    have hkey : first.conflictKey = (decomposeInstruction di).conflictKey := of_decide_eq_true hsome
    rw [← hkey] at hfirst
    obtain ⟨source, hsource, hmem'⟩ := List.mem_flatMap.mp (List.mem_of_find?_eq_some hfirst)
    have hcoveredRow := withoutTime_mem_coveredRows hchain hsource hmem'
    have heq : withoutTime first = decomposeInstruction di :=
      List.inj_on_of_nodup_map (nodup_coveredRows hplaces) hcoveredRow hrow hkey
    exact List.mem_map.mpr ⟨first, mem_indexAfter.mpr hfirst, heq⟩

theorem withoutTime_indexAfter_perm :
    ((indexAfter decoder programId indexFailedTxs ingestions).map withoutTime).Perm
      (coveredRows decoder programId indexFailedTxs transactions ingestions) := by
  have hnodup : ((indexAfter decoder programId indexFailedTxs ingestions).map
      InstructionRecord.conflictKey).Nodup := by
    rw [indexAfter, runWrites_instructions]
    exact nodup_insertAll _ List.nodup_nil
  have hnodup' : (((indexAfter decoder programId indexFailedTxs ingestions).map withoutTime).map
      InstructionRecord.conflictKey).Nodup := by
    rw [List.map_map]
    exact hnodup
  exact perm_of_mem_iff hnodup' (nodup_coveredRows hplaces)
    fun row => mem_withoutTime_indexAfter hplaces hchain

theorem blockTime_indexAfter {row : InstructionRecord}
    (h : row ∈ indexAfter decoder programId indexFailedTxs ingestions) :
    ∃ first, (committedIngestions decoder programId indexFailedTxs ingestions).find?
        (fun ingestion => ingestion.source.signatures.contains row.signature) = some first ∧
      row.blockTime = first.source.blockTime := by
  have hfound := mem_indexAfter.mp h
  rw [List.find?_flatMap, List.findSome?_eq_some_iff] at hfound
  obtain ⟨before, first, after, hsplit, hfirst, hbefore⟩ := hfound
  have hmem : ∀ ingestion, ingestion ∈ before ∨ ingestion = first →
      ingestion ∈ committedIngestions decoder programId indexFailedTxs ingestions := by
    intro ingestion hingestion
    rw [hsplit]
    rcases hingestion with hingestion | rfl
    · exact List.mem_append_left _ hingestion
    · exact List.mem_append_right _ List.mem_cons_self
  obtain ⟨p, hp, di, hdi, hrow⟩ := mem_rows.mp (List.mem_of_find?_eq_some hfirst)
  obtain ⟨htx, hkept, hpos, htargets⟩ := mem_targeted.mp hp
  have hsignature : row.signature = p.tx.signature := by
    rw [hrow]
    exact signature_row hdi
  refine ⟨first, List.find?_eq_some_iff_append.mpr ⟨?_, before, after, hsplit, ?_⟩, ?_⟩
  · rw [hsignature]
    exact List.contains_iff_mem.mpr (List.mem_map_of_mem htx)
  · intro ingestion hingestion
    rw [Bool.not_eq_true', ← Bool.not_eq_true, hsignature]
    intro hcovers
    have hchained : p ∈ targeted programId indexFailedTxs (asBlock transactions) :=
      mem_targeted.mpr ⟨mem_transactions_of_committed hchain (hmem first (.inr rfl)) htx, hkept,
        hpos, htargets⟩
    have hother := exists_row_of_covers hplaces hchain (hmem ingestion (.inl hingestion)) hchained
      hdi hcovers
    have hne := List.find?_eq_none.mp (hbefore ingestion hingestion) _ hother
    rw [hrow] at hne
    exact hne (decide_eq_true rfl)
  · rw [hrow]
    rfl

theorem blockTime_eq_firstTime {row : InstructionRecord}
    (h : row ∈ indexAfter decoder programId indexFailedTxs ingestions) :
    row.blockTime = firstTime decoder programId indexFailedTxs ingestions row.signature := by
  obtain ⟨first, hfirst, htime⟩ := blockTime_indexAfter hplaces hchain h
  rw [firstTime, hfirst, htime, Option.bind_some]

theorem countP_indexAfter (f : InstructionRecord → Option Int → Bool) :
    (indexAfter decoder programId indexFailedTxs ingestions).countP
        (fun row => f (withoutTime row) row.blockTime) =
      (coveredRows decoder programId indexFailedTxs transactions ingestions).countP fun row =>
        f row (firstTime decoder programId indexFailedTxs ingestions row.signature) := by
  rw [← (withoutTime_indexAfter_perm hplaces hchain).countP_eq, List.countP_map]
  apply List.countP_congr
  intro row hrow
  rw [blockTime_eq_firstTime hplaces hchain hrow]
  rfl

end Chain

end Rows

/-- Whatever blocks and streamed transactions are written, in whatever order, overlapping or
repeated and with whatever failures: the table holds each decoded instruction of each
transaction that a committed write was about exactly once, and nothing else.  Its block time is
that of the first such write, none if that was a streamed one. -/
theorem index_contents (decoder : InstructionDecoder) (programId : String)
    (indexFailedTxs : Bool) (transactions : List RpcTransaction) (ingestions : List Ingestion)
    (hplaces : DistinctPlaces (asBlock transactions))
    (hchain : ∀ ingestion ∈ ingestions, ∀ tx ∈ ingestion.source.transactions,
      tx ∈ transactions) :
    ((indexAfter decoder programId indexFailedTxs ingestions).map withoutTime).Perm
        ((decodeBlock decoder programId indexFailedTxs (asBlock (coveredTransactions decoder
          programId indexFailedTxs transactions ingestions))).decoded.map decomposeInstruction) ∧
      ∀ row ∈ indexAfter decoder programId indexFailedTxs ingestions,
        ∃ first, (committedIngestions decoder programId indexFailedTxs ingestions).find?
            (fun ingestion => ingestion.source.signatures.contains row.signature) = some first ∧
          row.blockTime = first.source.blockTime :=
  ⟨withoutTime_indexAfter_perm hplaces hchain,
    fun _ hrow => blockTime_indexAfter hplaces hchain hrow⟩

def swapPair : List RpcTransaction := [swapTransaction 10 "a", swapTransaction 10 "b"]

/-- The stream is first with `a`; the block of both is refused once. -/
def overlappingIngestions : List Ingestion :=
  [⟨.block ⟨10, some 100, swapPair⟩, .backfill, 10, none,
      { Replies.allOk with commitError := some "connection closed" }⟩,
    ⟨.transaction (swapTransaction 10 "a"), .realtime, 10, some "a", .allOk⟩,
    ⟨.block ⟨10, some 100, swapPair⟩, .backfill, 10, none, .allOk⟩]

theorem index_contents_overlapping :
    ((indexAfter swapDecoder "program" false overlappingIngestions).map withoutTime).Perm
        ((decodeBlock swapDecoder "program" false (asBlock swapPair)).decoded.map
          decomposeInstruction) ∧
      ∀ row ∈ indexAfter swapDecoder "program" false overlappingIngestions,
        row.signature = "a" → row.blockTime = none := by
  have hplaces : DistinctPlaces (asBlock swapPair) :=
    ⟨by decide, by decide, by decide, by decide⟩
  obtain ⟨hrows, htimes⟩ := index_contents swapDecoder "program" false swapPair
    overlappingIngestions hplaces (by
      intro ingestion hingestion
      simp only [overlappingIngestions, List.mem_cons, List.not_mem_nil, or_false] at hingestion
      rcases hingestion with rfl | rfl | rfl
      · exact fun tx htx => htx
      · exact fun tx htx => List.mem_cons.mpr (.inl (List.mem_singleton.mp htx))
      · exact fun tx htx => htx)
  refine ⟨hrows, fun row hrow hsignature => ?_⟩
  obtain ⟨first, hfirst, htime⟩ := htimes row hrow
  rw [hsignature] at hfirst
  cases hfirst
  exact htime

end Solarix.Pipeline
