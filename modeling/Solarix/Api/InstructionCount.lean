import Mathlib.Data.List.Dedup
import Mathlib.Data.List.Sort
import Mathlib.Algebra.BigOperators.Group.List.Lemmas
import Solarix.Api.Filters
import Solarix.Pipeline.IndexContents

/-!
# Instruction counts over time

`instruction_count`: the rows of an instruction name in buckets of time.  A row without a
block time is in no bucket, and a row keeps the time that it was first written with.
-/

namespace Solarix.Api

open Solarix.Core
open Solarix.Storage (InstructionRecord decomposeInstruction)
open Solarix.Pipeline (RpcTransaction InstructionDecoder decodeBlock Ingestion indexAfter
  DistinctPlaces asBlock coveredTransactions coveredRows firstTime withoutTime countP_indexAfter)

/-! ## Parameters -/

def validIntervals : List String := ["minute", "hour", "day", "week", "month"]

def validateInterval (params : List (String × String)) : Except ApiError String :=
  match params.lookup "interval" with
  | none => .error (.invalidValue "'interval' parameter is required")
  | some raw =>
      match validIntervals.find? fun interval => interval == raw with
      | some interval => .ok interval
      | none => .error (.invalidValue
          s!"invalid interval '{raw}'. Must be one of: minute, hour, day, week, month")

def parseOptionalI64 (params : List (String × String)) (key : String) :
    Except ApiError (Option Int) :=
  match params.lookup key with
  | none => .ok none
  | some v =>
      match parseI64 v with
      | some n => .ok (some n)
      | none => .error (.invalidValue s!"'{key}' must be a Unix timestamp integer")

/-! ## The query -/

/-- Time stamps of the database.  `dateTrunc` is `date_trunc(interval, to_timestamp(t))`, `none`
where the time is out of its range. -/
structure PgTime where
  Bucket : Type
  order : LinearOrder Bucket
  dateTrunc : String → Int → Option Bucket
  rfc3339 : Bucket → String

instance (time : PgTime) : LinearOrder time.Bucket := time.order

/-- The values that the handler binds. -/
structure CountQuery where
  interval : String
  name : String
  start : Option Int
  stop : Option Int
  limit : Nat

def CountQuery.inRange (query : CountQuery) (blockTime : Option Int) : Bool :=
  match blockTime with
  | none => false
  | some t => query.start.all (· ≤ t) && query.stop.all (t ≤ ·)

def CountQuery.selects (query : CountQuery) (row : InstructionRecord) : Bool :=
  row.instructionName == query.name && query.inRange row.blockTime

section Query

variable (time : PgTime)

def bucketOf (query : CountQuery) (row : InstructionRecord) : Option time.Bucket :=
  row.blockTime.bind (time.dateTrunc query.interval)

/-- `SELECT bucket, COUNT(*) .. GROUP BY bucket ORDER BY bucket ASC`, without the limit. -/
def groupBuckets (buckets : List time.Bucket) : List (time.Bucket × Nat) :=
  (buckets.dedup.insertionSort (· ≤ ·)).map fun bucket => (bucket, buckets.count bucket)

def CountQuery.run (query : CountQuery) (rows : List InstructionRecord) :
    Option (List (time.Bucket × Nat)) :=
  ((rows.filter query.selects).mapM (bucketOf time query)).map fun buckets =>
    (groupBuckets time buckets).take query.limit

def maxBuckets : Nat := 10000

/-- `instruction_count`.  `idl` is what the registry holds, `table` the lookup of the schema. -/
def instructionCount (programId : String) (idl : Option Idl)
    (table : Except ApiError (List InstructionRecord)) (name : String)
    (params : List (String × String)) : Except ApiError (List (String × Nat)) := do
  match idl with
  | none => .error (.programNotFound programId)
  | some idl =>
      if !idl.instructions.any fun instruction => instruction.name == name then
        .error (.instructionNotFound name)
      else do
        let interval ← validateInterval params
        let start ← parseOptionalI64 params "from"
        let stop ← parseOptionalI64 params "to"
        let records ← table
        match CountQuery.run time ⟨interval, name, start, stop, maxBuckets + 1⟩ records with
        | none => .error (.invalidValue "filter value type mismatch")
        | some rows =>
            if maxBuckets < rows.length then
              .error (.invalidValue (s!"query produced more than {maxBuckets} time buckets. " ++
                "Narrow the time range or use a coarser interval"))
            else .ok (rows.map fun row => (time.rfc3339 row.1, row.2))

end Query

/-! ## The answer -/

section Answer

variable {time : PgTime}

theorem sum_groupBuckets (buckets : List time.Bucket) :
    ((groupBuckets time buckets).map Prod.snd).sum = buckets.length := by
  rw [groupBuckets, List.map_map, ← List.sum_map_count_dedup_eq_length buckets]
  exact ((List.perm_insertionSort _ _).map _).sum_eq

theorem pairwise_groupBuckets (buckets : List time.Bucket) :
    (groupBuckets time buckets).Pairwise fun a b => a.1 < b.1 := by
  rw [groupBuckets, List.pairwise_map]
  have hsorted := List.pairwise_insertionSort (· ≤ ·) buckets.dedup
  have hnodup : (buckets.dedup.insertionSort (· ≤ ·)).Nodup :=
    (List.perm_insertionSort _ _).nodup_iff.mpr buckets.nodup_dedup
  exact hsorted.imp₂ (fun _ _ hle hne => lt_of_le_of_ne hle hne) hnodup

theorem mem_groupBuckets {buckets : List time.Bucket} {bucket : time.Bucket} {n : Nat} :
    (bucket, n) ∈ groupBuckets time buckets ↔ bucket ∈ buckets ∧ n = buckets.count bucket := by
  rw [groupBuckets, List.mem_map]
  constructor
  · rintro ⟨b, hb, heq⟩
    cases heq
    rw [(List.perm_insertionSort _ _).mem_iff, List.mem_dedup] at hb
    exact ⟨hb, rfl⟩
  · rintro ⟨hmem, rfl⟩
    refine ⟨bucket, ?_, rfl⟩
    rwa [(List.perm_insertionSort _ _).mem_iff, List.mem_dedup]

theorem count_of_mapM {query : CountQuery} {rows : List InstructionRecord}
    {buckets : List time.Bucket} (h : rows.mapM (bucketOf time query) = some buckets)
    (bucket : time.Bucket) :
    buckets.count bucket = rows.countP fun row => bucketOf time query row = some bucket := by
  have hforall := mapM_eq_some.mp h
  clear h
  induction hforall with
  | nil => rfl
  | @cons row b rows buckets hrow _ ih =>
      rw [List.count_cons, List.countP_cons, ih, hrow]
      simp

theorem instructionCount_eq_ok {programId name : String} {idl : Option Idl}
    {table : Except ApiError (List InstructionRecord)} {params : List (String × String)}
    {data : List (String × Nat)}
    (h : instructionCount time programId idl table name params = .ok data) :
    ∃ query records buckets, query.name = name ∧
      validateInterval params = .ok query.interval ∧
      parseOptionalI64 params "from" = .ok query.start ∧
      parseOptionalI64 params "to" = .ok query.stop ∧ table = .ok records ∧
      (records.filter query.selects).mapM (bucketOf time query) = some buckets ∧
      data = (groupBuckets time buckets).map fun row => (time.rfc3339 row.1, row.2) := by
  unfold instructionCount at h
  split at h
  · cases h
  · split at h
    · cases h
    · obtain ⟨interval, hinterval, h⟩ := bind_eq_ok_iff.mp h
      obtain ⟨start, hstart, h⟩ := bind_eq_ok_iff.mp h
      obtain ⟨stop, hstop, h⟩ := bind_eq_ok_iff.mp h
      obtain ⟨records, hrecords, h⟩ := bind_eq_ok_iff.mp h
      split at h
      · cases h
      · rename_i rows hrun
        split at h
        · cases h
        · rename_i hfew
          obtain ⟨buckets, hbuckets, rfl⟩ := Option.map_eq_some_iff.mp hrun
          refine ⟨⟨interval, name, start, stop, maxBuckets + 1⟩, records, buckets, rfl, hinterval,
            hstart, hstop, hrecords, hbuckets, ?_⟩
          have hlength : (groupBuckets time buckets).length ≤ maxBuckets + 1 := by
            rw [List.length_take] at hfew
            dsimp only at hfew
            omega
          rw [List.take_of_length_le hlength] at h
          exact (Except.ok.inj h).symm

end Answer

/-- The counts of an instruction name are about the transactions, not about how they were
written: a decoded instruction is counted once, in the bucket of the first committed write about
its transaction, and an instruction that the stream brought first is in no bucket, even if its
block is written later. -/
theorem instruction_count_over_index (time : PgTime) (decoder : InstructionDecoder)
    (programId : String) (indexFailedTxs : Bool) (transactions : List RpcTransaction)
    (ingestions : List Ingestion) (hplaces : DistinctPlaces (asBlock transactions))
    (hchain : ∀ ingestion ∈ ingestions, ∀ tx ∈ ingestion.source.transactions,
      tx ∈ transactions)
    (idl : Option Idl) (name : String) (params : List (String × String))
    (data : List (String × Nat))
    (h : instructionCount time programId idl
      (.ok (indexAfter decoder programId indexFailedTxs ingestions)) name params = .ok data) :
    let decoded := (decodeBlock decoder programId indexFailedTxs (asBlock (coveredTransactions
      decoder programId indexFailedTxs transactions ingestions))).decoded
    let timeOf := fun di : DecodedInstruction =>
      firstTime decoder programId indexFailedTxs ingestions di.signature
    ∃ query : CountQuery, query.name = name ∧ validateInterval params = .ok query.interval ∧
      parseOptionalI64 params "from" = .ok query.start ∧
      parseOptionalI64 params "to" = .ok query.stop ∧
      ∃ groups : List (time.Bucket × Nat),
        data = groups.map (fun group => (time.rfc3339 group.1, group.2)) ∧
        groups.Pairwise (fun a b => a.1 < b.1) ∧
        (∀ bucket n, (bucket, n) ∈ groups ↔ 0 < n ∧ n = decoded.countP fun di =>
          di.instructionName == name && query.inRange (timeOf di) &&
            decide ((timeOf di).bind (time.dateTrunc query.interval) = some bucket)) ∧
        (data.map Prod.snd).sum = decoded.countP fun di =>
          di.instructionName == name && query.inRange (timeOf di) := by
  intro decoded timeOf
  obtain ⟨query, records, buckets, rfl, hinterval, hstart, hstop, hrecords, hbuckets, rfl⟩ :=
    instructionCount_eq_ok h
  cases hrecords
  have hcount (f : InstructionRecord → Option Int → Bool)
      (hf : ∀ row t, f (withoutTime row) t = f row t) :
      (indexAfter decoder programId indexFailedTxs ingestions).countP
          (fun row => f row row.blockTime) =
        decoded.countP fun di => f (decomposeInstruction di) (timeOf di) := by
    have htimes := @countP_indexAfter decoder programId indexFailedTxs _ _ hplaces hchain f
    simp only [hf] at htimes
    rw [htimes, coveredRows, List.countP_map]
    rfl
  refine ⟨query, rfl, hinterval, hstart, hstop, groupBuckets time buckets, rfl,
    pairwise_groupBuckets buckets, ?_, ?_⟩
  · intro bucket n
    have hbucket : buckets.count bucket = decoded.countP fun di =>
        di.instructionName == query.name && query.inRange (timeOf di) &&
          decide ((timeOf di).bind (time.dateTrunc query.interval) = some bucket) := by
      rw [count_of_mapM hbuckets, List.countP_filter]
      exact (List.countP_congr fun row _ => by rw [Bool.and_comm]; rfl).trans (hcount
        (fun row t => row.instructionName == query.name && query.inRange t &&
          decide (t.bind (time.dateTrunc query.interval) = some bucket)) fun _ _ => rfl)
    rw [mem_groupBuckets, ← hbucket]
    constructor
    · rintro ⟨hmem, rfl⟩
      exact ⟨List.count_pos_iff.mpr hmem, rfl⟩
    · rintro ⟨hpos, rfl⟩
      exact ⟨List.count_pos_iff.mp hpos, rfl⟩
  · have hlength : buckets.length = decoded.countP fun di =>
        di.instructionName == query.name && query.inRange (timeOf di) := by
      rw [← (mapM_eq_some.mp hbuckets).length_eq, ← List.countP_eq_length_filter]
      exact hcount (fun row t => row.instructionName == query.name && query.inRange t)
        fun _ _ => rfl
    rw [← hlength, ← sum_groupBuckets buckets, List.map_map]
    rfl

/-! ### Hours -/

def PgTime.hours : PgTime where
  Bucket := Int
  order := inferInstance
  dateTrunc _ t := some (t / 3600)
  rfc3339 bucket := toString bucket

def swapIdl : Idl := ⟨"program", [⟨"swap", [1], []⟩], [], []⟩

open Solarix.Pipeline (swapDecoder swapTransaction swapPair overlappingIngestions)

/-- Of two `swap`s the stream was first with one, which is not counted. -/
theorem instruction_count_over_index_swap :
    ∃ data, instructionCount PgTime.hours "program" (some swapIdl)
        (.ok (indexAfter swapDecoder "program" false overlappingIngestions)) "swap"
        [("interval", "hour")] = .ok data ∧
      (data.map Prod.snd).sum = 1 := by
  have hplaces : DistinctPlaces (asBlock swapPair) :=
    ⟨by decide, by decide, by decide, by decide⟩
  have hchain : ∀ ingestion ∈ overlappingIngestions, ∀ tx ∈ ingestion.source.transactions,
      tx ∈ swapPair := by
    intro ingestion hingestion
    simp only [overlappingIngestions, List.mem_cons, List.not_mem_nil, or_false] at hingestion
    rcases hingestion with rfl | rfl | rfl
    · exact fun tx htx => htx
    · exact fun tx htx => List.mem_cons.mpr (.inl (List.mem_singleton.mp htx))
    · exact fun tx htx => htx
  have hdata : instructionCount PgTime.hours "program" (some swapIdl)
      (.ok (indexAfter swapDecoder "program" false overlappingIngestions)) "swap"
      [("interval", "hour")] = .ok [("0", 1)] := rfl
  obtain ⟨query, hname, -, hstart, hstop, groups, -, -, -, hsum⟩ := instruction_count_over_index
    PgTime.hours swapDecoder "program" false swapPair overlappingIngestions hplaces hchain
    (some swapIdl) "swap" _ _ hdata
  refine ⟨_, hdata, hsum.trans ?_⟩
  obtain ⟨interval, name, start, stop, limit⟩ := query
  cases hname
  cases hstart
  cases hstop
  rfl

end Solarix.Api
