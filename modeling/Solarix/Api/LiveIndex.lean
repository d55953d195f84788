import Solarix.Api.Instructions
import Solarix.Pipeline.IndexContents

/-!
# Reading the index while it is written

A client follows the cursors of `query_instructions` while the pipeline goes on writing: each
of its requests finds the table after some more of the ingestions.  Rows are inserted above
and below the cursor, and none is changed or removed.
-/

namespace Solarix.Api

open Solarix.Core
open Solarix.Pipeline (RpcTransaction InstructionDecoder decodeTransaction Ingestion indexAfter
  DistinctPlaces asBlock coveredTransactions withoutTime mem_withoutTime_indexAfter
  decompose_mem_coveredRows indexAfter_take_extends)
open Solarix.Storage (InstructionRecord decomposeInstruction)

/-- The row but for its id. -/
def InstructionRow.record (row : InstructionRow) : InstructionRecord where
  signature := row.signature
  slot := row.slot
  blockTime := row.blockTime
  instructionName := row.instructionName
  instructionIndex := row.instructionIndex
  innerIndex := row.innerIndex
  args := row.args
  accounts := row.accounts
  data := row.data
  isInnerIx := row.isInnerIx

def InstructionsTable.upTo (table : InstructionsTable) (n : Nat) : InstructionsTable where
  rows := table.rows.take n
  unique := ((List.take_sublist n _).map _).nodup table.unique

/-- The table while ingestions are written, with the ids that its rows get. -/
structure LiveIndex (decoder : InstructionDecoder) (programId : String) (indexFailedTxs : Bool)
    (ingestions : List Ingestion) where
  /-- The table in the end. -/
  final : InstructionsTable
  records : final.rows.map InstructionRow.record =
    indexAfter decoder programId indexFailedTxs ingestions
  /-- How many of the ingestions a request of the client comes after. -/
  seen : Nat → Nat
  monotone : Monotone seen

section Live

variable {decoder : InstructionDecoder} {programId : String} {indexFailedTxs : Bool}
  {ingestions : List Ingestion}

def LiveIndex.table (index : LiveIndex decoder programId indexFailedTxs ingestions)
    (step : Nat) : InstructionsTable :=
  index.final.upTo
    (indexAfter decoder programId indexFailedTxs (ingestions.take (index.seen step))).length

variable {pg : Postgres} {tables : Nat → InstructionsTable} {name : String}
  {resolved : List ResolvedFilter} {limit : Nat}
  {index : LiveIndex decoder programId indexFailedTxs ingestions}

theorem LiveIndex.table_records (step : Nat) :
    (index.table step).rows.map InstructionRow.record =
      indexAfter decoder programId indexFailedTxs (ingestions.take (index.seen step)) := by
  have hextends := @indexAfter_take_extends decoder programId indexFailedTxs ingestions
    (index.seen step)
  rw [LiveIndex.table, InstructionsTable.upTo, List.map_take, index.records]
  exact (List.prefix_iff_eq_take.mp hextends).symm

theorem answersGrowing_answerAt :
    AnswersGrowing pg.sortKey limit
      (fun step => answerAt pg (tables step) name resolved limit step)
      (fun step => matchingRows pg.toDatabase (tables step) name resolved) :=
  fun step cursor => answers_answerAt step cursor

theorem matchingRows_upTo_subperm (table : InstructionsTable) (n : Nat) :
    (matchingRows pg.toDatabase (table.upTo n) name resolved).Subperm
      (matchingRows pg.toDatabase table name resolved) :=
  ((List.take_sublist n table.rows).filter _).subperm

theorem LiveIndex.matchingRows_grow (step : Nat) :
    matchingRows pg.toDatabase (index.table step) name resolved ⊆
      matchingRows pg.toDatabase (index.table (step + 1)) name resolved := by
  have hseen : index.seen step ≤ index.seen (step + 1) := index.monotone (Nat.le_succ step)
  have htaken : ingestions.take (index.seen step) =
      (ingestions.take (index.seen (step + 1))).take (index.seen step) := by
    rw [List.take_take, Nat.min_eq_left hseen]
  have hlength : (indexAfter decoder programId indexFailedTxs
      (ingestions.take (index.seen step))).length ≤
        (indexAfter decoder programId indexFailedTxs
          (ingestions.take (index.seen (step + 1)))).length := by
    rw [htaken]
    exact (indexAfter_take_extends _ _).length_le
  have hrows := (List.take_prefix_take_left (l := index.final.rows) hlength).subset
  intro row hrow
  obtain ⟨hmem, hmatch⟩ := List.mem_filter.mp hrow
  exact List.mem_filter.mpr ⟨hrows hmem, hmatch⟩

theorem LiveIndex.exists_row {transactions : List RpcTransaction}
    (hplaces : DistinctPlaces (asBlock transactions))
    (hchain : ∀ ingestion ∈ ingestions, ∀ tx ∈ ingestion.source.transactions,
      tx ∈ transactions) (step : Nat) {tx : RpcTransaction} {di : DecodedInstruction}
    (htx : tx ∈ coveredTransactions decoder programId indexFailedTxs transactions
      (ingestions.take (index.seen step)))
    (hdi : di ∈ (decodeTransaction decoder programId indexFailedTxs tx).decoded) :
    ∃ row ∈ (index.table step).rows, withoutTime row.record = decomposeInstruction di := by
  have hchain' : ∀ ingestion ∈ ingestions.take (index.seen step),
      ∀ tx ∈ ingestion.source.transactions, tx ∈ transactions :=
    fun ingestion hmem => hchain ingestion (List.mem_of_mem_take hmem)
  have hrow := (mem_withoutTime_indexAfter hplaces hchain').mpr
    (decompose_mem_coveredRows htx hdi)
  rw [← index.table_records step, List.map_map] at hrow
  exact List.mem_map.mp hrow

theorem cut_of_sortKey {pages : List Page} {row : InstructionRow}
    (h : ∃ page ∈ (pages.map Page.rows).dropLast, ∃ last, page.getLast? = some last ∧
      pg.sortKey last = pg.sortKey row) :
    ∃ page ∈ pages.dropLast, ∃ last, page.rows.getLast? = some last ∧ last.slot = row.slot ∧
      last.signature = row.signature := by
  obtain ⟨rows, hrows, last, hlast, hkey⟩ := h
  rw [← List.map_dropLast] at hrows
  obtain ⟨page, hpage, rfl⟩ := List.mem_map.mp hrows
  obtain ⟨hslot, hsignature⟩ := Prod.mk.inj (toLex.injective hkey)
  exact ⟨page, hpage, last, hlast, hslot, congrArg Database.Text.text hsignature⟩

end Live

/-- A client may page through the instructions of a name while the index is written.  It comes
to an end with rows of the table, in order and none twice.  Among them is each instruction of
each transaction that was written before its first request, if it matches the filters and no
page ends within its transaction. -/
theorem paging_while_indexing (base64 : Base64) (pg : Postgres) (decoder : InstructionDecoder)
    (programId : String) (indexFailedTxs : Bool) (transactions : List RpcTransaction)
    (ingestions : List Ingestion) (hplaces : DistinctPlaces (asBlock transactions))
    (hchain : ∀ ingestion ∈ ingestions, ∀ tx ∈ ingestion.source.transactions,
      tx ∈ transactions)
    (index : LiveIndex decoder programId indexFailedTxs ingestions) (name : String)
    (resolved : List ResolvedFilter) (limit : Nat) (hlimit : 0 < limit) :
    ∃ pages, (∀ fuel, index.final.rows.length < fuel →
        followLive base64 pg index.table name resolved limit fuel 0 none = some pages) ∧
      (pages.flatMap Page.rows).Subperm
        (matchingRows pg.toDatabase index.final name resolved) ∧
      (pages.flatMap Page.rows).Pairwise (fun a b => pg.sortKey b ≤ pg.sortKey a) ∧
      ∀ tx ∈ coveredTransactions decoder programId indexFailedTxs transactions
          (ingestions.take (index.seen 0)),
        ∀ di ∈ (decodeTransaction decoder programId indexFailedTxs tx).decoded,
          di.instructionName = name →
          ∃ row ∈ index.final.rows, withoutTime row.record = decomposeInstruction di ∧
            ((∀ filter ∈ resolved, pg.holds filter row = true) →
              row ∈ pages.flatMap Page.rows ∨
                ∃ page ∈ pages.dropLast, ∃ last, page.rows.getLast? = some last ∧
                  last.slot = row.slot ∧ last.signature = row.signature) := by
  have hbound : (below pg.sortKey none
      (matchingRows pg.toDatabase index.final name resolved)).length <
        index.final.rows.length + 1 := Nat.lt_succ_of_le (List.length_filter_le ..)
  obtain ⟨rows, hwalk, hgrowing⟩ := walk_growing hlimit answersGrowing_answerAt
    index.matchingRows_grow (fun step => matchingRows_upTo_subperm index.final _)
    (index.final.rows.length + 1) 0 none hbound
  have hfollow : (followLive base64 pg index.table name resolved limit
      (index.final.rows.length + 1) 0 none).map (List.map Page.rows) = some rows := by
    rw [← hwalk _ le_rfl]
    exact followLive_eq_walk hlimit _ 0 none (by simp)
  obtain ⟨pages, hpages, rfl⟩ := Option.map_eq_some_iff.mp hfollow
  simp only [List.flatMap_def]
  refine ⟨pages, fun fuel hfuel => followLive_mono hfuel hpages, hgrowing.subperm,
    hgrowing.sorted, ?_⟩
  intro tx htx di hdi hname
  obtain ⟨row, hrow, hrecord⟩ := index.exists_row hplaces hchain 0 htx hdi
  refine ⟨row, List.mem_of_mem_take hrow, hrecord, fun hfilters => ?_⟩
  have hrowName : row.instructionName = name := by
    rw [← hname]
    exact congrArg InstructionRecord.instructionName hrecord
  have hmatches : row ∈ matchingRows pg.toDatabase (index.table 0) name resolved := by
    refine List.mem_filter.mpr ⟨hrow, List.all_eq_true.mpr fun filter hfilter => ?_⟩
    rcases List.mem_append.mp hfilter with hfilter | hfilter
    · exact hfilters filter hfilter
    · rw [List.mem_singleton.mp hfilter, pg.holds_name, hrowName]
      exact beq_self_eq_true name
  exact (hgrowing.complete row hmatches).imp_right cut_of_sortKey

/-! ### A block that arrives between two requests -/

open Solarix.Pipeline (swapTransaction swapDecoder)
open Solarix.Storage (Replies)

def swapBlocks : List Ingestion :=
  [⟨.block ⟨10, some 100, [swapTransaction 10 "a"]⟩, .backfill, 10, none, .allOk⟩,
    ⟨.block ⟨11, some 101, [swapTransaction 11 "b"]⟩, .backfill, 11, none, .allOk⟩]

def swapRecordRow (id slot : Int) (h : InI64 slot) (signature : String) (blockTime : Int) :
    InstructionRow :=
  ⟨id, signature, slot, h, some blockTime, "swap", 0, none, .obj [], .arr [], .obj [], false⟩

/-- The first request comes after the first block, the others after the second. -/
def swapLiveIndex : LiveIndex swapDecoder "program" false swapBlocks where
  final := ⟨[swapRecordRow 1 10 (by decide) "a" 100, swapRecordRow 2 11 (by decide) "b" 101],
    by decide⟩
  records := rfl
  seen step := if step = 0 then 1 else 2
  monotone := by
    intro step step' hle
    dsimp only
    split <;> split <;> omega

theorem paging_while_indexing_swap :
    ∃ pages, (∀ fuel, 2 < fuel →
        followLive .standard byteOrderPostgres swapLiveIndex.table "swap" [] 1 fuel 0 none =
          some pages) ∧
      ∃ row ∈ swapLiveIndex.final.rows, withoutTime row.record =
          decomposeInstruction { DecodedInstruction.fromDecoded "program" "swap" (.obj []) with
            signature := "a", slot := 10 } ∧
        (row ∈ pages.flatMap Page.rows ∨
          ∃ page ∈ pages.dropLast, ∃ last, page.rows.getLast? = some last ∧
            last.slot = row.slot ∧ last.signature = row.signature) := by
  obtain ⟨pages, hpages, -, -, hrows⟩ := paging_while_indexing .standard byteOrderPostgres
    swapDecoder "program" false [swapTransaction 10 "a", swapTransaction 11 "b"] swapBlocks
    ⟨by decide, by decide, by decide, by decide⟩
    (by
      intro ingestion hingestion tx htx
      simp only [swapBlocks, List.mem_cons, List.not_mem_nil, or_false] at hingestion
      rcases hingestion with rfl | rfl
      · exact List.mem_cons.mpr (.inl (List.mem_singleton.mp htx))
      · exact List.mem_cons_of_mem _ htx)
    swapLiveIndex "swap" [] 1 (by decide)
  refine ⟨pages, hpages, ?_⟩
  obtain ⟨row, hrow, hrecord, hfound⟩ := hrows (swapTransaction 10 "a") List.mem_cons_self _
    List.mem_cons_self rfl
  exact ⟨row, hrow, hrecord, hfound (List.forall_mem_nil _)⟩

end Solarix.Api
