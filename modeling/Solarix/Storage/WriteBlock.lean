import Solarix.Core.KeyedTable
import Solarix.Core.Traverse
import Solarix.Storage.Writer

/-!
# `write_block`

The call as a whole, against a database that may refuse any of its statements: the ten
column vectors bound for `UNNEST`, the insert that skips taken keys, and the transaction
around them.  Over any sequence of calls the `_instructions` table is the set of the rows
of the calls that committed.
-/

namespace Solarix.Storage

open Solarix.Core

inductive StorageError where
  | connectionFailed (message : String)
  | ddlFailed (message : String)
  | writeFailed (message : String)
  | queryFailed (message : String)
  | checkpointFailed (message : String)
  deriving DecidableEq, Repr

def StorageError.display : StorageError → String
  | .connectionFailed message => s!"connection failed: {message}"
  | .ddlFailed message => s!"DDL execution failed: {message}"
  | .writeFailed message => s!"write failed: {message}"
  | .queryFailed message => s!"query failed: {message}"
  | .checkpointFailed message => s!"checkpoint failed: {message}"

structure WriteResult where
  instructionsWritten : Nat
  accountsWritten : Nat
  deriving DecidableEq, Repr

/-! ## The bound columns -/

/-- The vectors that `decompose_instructions` returns. -/
structure InstructionColumns where
  signatures : List String
  slots : List Int
  blockTimes : List (Option Int)
  names : List String
  ixIndexes : List Int
  innerIndexes : List (Option Int)
  args : List Json
  accounts : List Json
  data : List Json
  isInner : List Bool

namespace InstructionColumns

def empty : InstructionColumns := ⟨[], [], [], [], [], [], [], [], [], []⟩

/-- One turn of the loop of `decompose_instructions`. -/
def push (cols : InstructionColumns) (ix : DecodedInstruction) : InstructionColumns where
  signatures := cols.signatures ++ [ix.signature]
  slots := cols.slots ++ [slotToI64 ix.slot]
  blockTimes := cols.blockTimes ++ [ix.blockTime]
  names := cols.names ++ [ix.instructionName]
  ixIndexes := cols.ixIndexes ++ [(ix.instructionIndex.toNat : Int)]
  innerIndexes := cols.innerIndexes ++ [ix.innerIndex.map fun i => (i.toNat : Int)]
  args := cols.args ++ [ix.args]
  accounts := cols.accounts ++ [.arr (ix.accounts.map .str)]
  data := cols.data ++ [ix.args]
  isInner := cols.isInner ++ [ix.innerIndex.isSome]

/-- The number of rows of `UNNEST`: shorter vectors are padded with `NULL`. -/
def height (cols : InstructionColumns) : Nat :=
  [cols.signatures.length, cols.slots.length, cols.blockTimes.length, cols.names.length,
    cols.ixIndexes.length, cols.innerIndexes.length, cols.args.length, cols.accounts.length,
    cols.data.length, cols.isInner.length].foldl max 0

/-- A row of `UNNEST`, `none` if a `NOT NULL` column would be `NULL` in it. -/
def row? (cols : InstructionColumns) (i : Nat) : Option InstructionRecord := do
  let signature ← cols.signatures[i]?
  let slot ← cols.slots[i]?
  let instructionName ← cols.names[i]?
  let instructionIndex ← cols.ixIndexes[i]?
  let args ← cols.args[i]?
  let accounts ← cols.accounts[i]?
  let data ← cols.data[i]?
  let isInnerIx ← cols.isInner[i]?
  some ⟨signature, slot, cols.blockTimes[i]?.join, instructionName, instructionIndex,
    cols.innerIndexes[i]?.join, args, accounts, data, isInnerIx⟩

def unnest (cols : InstructionColumns) : Option (List InstructionRecord) :=
  (List.range cols.height).mapM cols.row?

end InstructionColumns

def decomposeInstructions (instructions : List DecodedInstruction) : InstructionColumns :=
  instructions.foldl InstructionColumns.push .empty

theorem foldl_push (instructions : List DecodedInstruction) (cols : InstructionColumns) :
    instructions.foldl InstructionColumns.push cols =
      { signatures := cols.signatures ++ instructions.map DecodedInstruction.signature
        slots := cols.slots ++ instructions.map fun ix => slotToI64 ix.slot
        blockTimes := cols.blockTimes ++ instructions.map DecodedInstruction.blockTime
        names := cols.names ++ instructions.map DecodedInstruction.instructionName
        ixIndexes := cols.ixIndexes ++ instructions.map fun ix => (ix.instructionIndex.toNat : Int)
        innerIndexes := cols.innerIndexes ++
          instructions.map fun ix => ix.innerIndex.map fun i => (i.toNat : Int)
        args := cols.args ++ instructions.map DecodedInstruction.args
        accounts := cols.accounts ++ instructions.map fun ix => .arr (ix.accounts.map .str)
        data := cols.data ++ instructions.map DecodedInstruction.args
        isInner := cols.isInner ++ instructions.map fun ix => ix.innerIndex.isSome } := by
  induction instructions generalizing cols with
  | nil => simp
  | cons ix instructions ih =>
      rw [List.foldl_cons, ih]
      simp [InstructionColumns.push]

theorem row?_decomposeInstructions (instructions : List DecodedInstruction) (i : Nat) :
    (decomposeInstructions instructions).row? i =
      instructions[i]?.map decomposeInstruction := by
  unfold decomposeInstructions InstructionColumns.row?
  rw [foldl_push]
  simp only [InstructionColumns.empty, List.nil_append, List.getElem?_map]
  cases instructions[i]? <;> rfl

theorem height_decomposeInstructions (instructions : List DecodedInstruction) :
    (decomposeInstructions instructions).height = instructions.length := by
  unfold decomposeInstructions InstructionColumns.height
  rw [foldl_push]
  simp [InstructionColumns.empty]

theorem unnest_decomposeInstructions (instructions : List DecodedInstruction) :
    (decomposeInstructions instructions).unnest =
      some (instructions.map decomposeInstruction) := by
  unfold InstructionColumns.unnest
  rw [height_decomposeInstructions, mapM_eq_some, List.forall₂_iff_get]
  refine ⟨by simp, ?_⟩
  intro i hi hi'
  rw [List.length_range] at hi
  simp only [List.get_eq_getElem, List.getElem_range, List.getElem_map]
  rw [row?_decomposeInstructions, List.getElem?_eq_getElem hi]
  rfl

/-! ## The call -/

/-- What the database answers to the statements of one call, `none` where it accepts
them.  `accounts` is the outcome of the account upserts, which leave `_instructions` and
`_checkpoints` alone. -/
structure Replies where
  beginError : Option String
  insertError : Option String
  accounts : Except StorageError Nat
  checkpointError : Option String
  commitError : Option String

structure WriteCall where
  stream : Stream
  instructions : List DecodedInstruction
  accounts : List DecodedAccount
  slot : Nat
  signature : Option String
  replies : Replies

def WriteCall.rows (call : WriteCall) : List InstructionRecord :=
  call.instructions.map decomposeInstruction

/-- `map_err` on a reply. -/
def accepted (wrap : String → StorageError) : Option String → Except StorageError Unit
  | none => .ok ()
  | some e => .error (wrap e)

/-- `write_instructions`, with the number of rows affected. -/
def insertInstructions (store : Store) (instructions : List DecodedInstruction)
    (error : Option String) : Except StorageError (Nat × Store) :=
  if instructions.isEmpty then .ok (0, store)
  else do
    accepted (fun e => .writeFailed s!"instruction insert failed: {e}") error
    match (decomposeInstructions instructions).unnest with
    | none => .error (.writeFailed "instruction insert failed: null value in a column")
    | some rows =>
        let written := rows.foldl Store.insertRow store
        .ok (written.instructions.length - store.instructions.length, written)

def writeAccountsInner (accounts : List DecodedAccount) (reply : Except StorageError Nat) :
    Except StorageError Nat :=
  if accounts.isEmpty then .ok 0 else reply

/-- The statements of `write_block`, up to the commit. -/
def WriteCall.attempt (call : WriteCall) (store : Store) :
    Except StorageError (WriteResult × Store) := do
  accepted (fun e => .writeFailed s!"transaction begin failed: {e}") call.replies.beginError
  let (instructionsWritten, written) ←
    insertInstructions store call.instructions call.replies.insertError
  let accountsWritten ← writeAccountsInner call.accounts call.replies.accounts
  accepted (fun e => .checkpointFailed s!"checkpoint update failed: {e}")
    call.replies.checkpointError
  accepted (fun e => .writeFailed s!"transaction commit failed: {e}") call.replies.commitError
  .ok (⟨instructionsWritten, accountsWritten⟩,
    written.updateCheckpoint call.stream call.slot call.signature)

/-- `write_block`: what it returns, and the tables after it.  An error rolls back. -/
def WriteCall.run (call : WriteCall) (store : Store) :
    Except StorageError WriteResult × Store :=
  match call.attempt store with
  | .ok (result, written) => (.ok result, written)
  | .error e => (.error e, store)

def WriteCall.commits (call : WriteCall) : Bool :=
  call.replies.beginError.isNone &&
    (call.instructions.isEmpty || call.replies.insertError.isNone) &&
    (call.accounts.isEmpty || call.replies.accounts.toOption.isSome) &&
    call.replies.checkpointError.isNone && call.replies.commitError.isNone

theorem instructions_foldl_insertRow (rows : List InstructionRecord) (store : Store) :
    (rows.foldl Store.insertRow store).instructions =
      insertAll InstructionRecord.conflictKey store.instructions rows := by
  induction rows generalizing store with
  | nil => rfl
  | cons row rows ih =>
      have hrow : (store.insertRow row).instructions =
          insertNew InstructionRecord.conflictKey store.instructions row := by
        unfold Store.insertRow insertNew
        split <;> rfl
      rw [List.foldl_cons, ih, hrow]
      rfl

theorem accepted_eq_ok {wrap : String → StorageError} {reply : Option String} {u : Unit} :
    accepted wrap reply = .ok u ↔ reply = none := by
  cases reply <;> simp [accepted]

theorem insertInstructions_of_accepted {store : Store}
    {instructions : List DecodedInstruction} {error : Option String}
    (h : (instructions.isEmpty || error.isNone) = true) :
    insertInstructions store instructions error =
      .ok ((store.writeInstructions instructions).instructions.length -
        store.instructions.length, store.writeInstructions instructions) := by
  unfold insertInstructions
  split
  · rename_i hempty
    rw [List.isEmpty_iff.mp hempty]
    simp [Store.writeInstructions]
  · rename_i hne
    have hnone : error = none := by simpa [hne] using h
    rw [hnone, unnest_decomposeInstructions]
    rfl

theorem accepted_of_insertInstructions {store : Store}
    {instructions : List DecodedInstruction} {error : Option String} {result : Nat × Store}
    (h : insertInstructions store instructions error = .ok result) :
    (instructions.isEmpty || error.isNone) = true := by
  unfold insertInstructions at h
  split at h
  · rename_i hempty
    rw [hempty, Bool.true_or]
  · obtain ⟨_, herror, _⟩ := bind_eq_ok_iff.mp h
    rw [accepted_eq_ok.mp herror, Option.isNone_none, Bool.or_true]

theorem writeAccountsInner_eq_ok {accounts : List DecodedAccount}
    {reply : Except StorageError Nat} :
    (∃ n, writeAccountsInner accounts reply = .ok n) ↔
      (accounts.isEmpty || reply.toOption.isSome) = true := by
  unfold writeAccountsInner
  cases accounts <;> cases reply <;> simp [Except.toOption]

theorem WriteCall.run_of_commits {call : WriteCall} (h : call.commits = true)
    (store : Store) :
    ∃ accountsWritten, call.run store =
      (.ok ⟨(store.writeInstructions call.instructions).instructions.length -
          store.instructions.length, accountsWritten⟩,
        store.writeBlock call.stream call.instructions call.slot call.signature) := by
  simp only [WriteCall.commits, Bool.and_eq_true, Option.isNone_iff_eq_none] at h
  obtain ⟨⟨⟨⟨hbegin, hinsert⟩, haccounts⟩, hcheckpoint⟩, hcommit⟩ := h
  obtain ⟨n, hn⟩ := writeAccountsInner_eq_ok.mpr haccounts
  refine ⟨n, ?_⟩
  unfold WriteCall.run WriteCall.attempt
  rw [hbegin, hcheckpoint, hcommit, insertInstructions_of_accepted hinsert, hn]
  rfl

theorem WriteCall.run_of_not_commits {call : WriteCall} (h : ¬ call.commits = true)
    (store : Store) : ∃ e, call.run store = (.error e, store) := by
  unfold WriteCall.run
  cases hattempt : call.attempt store with
  | error e => exact ⟨e, rfl⟩
  | ok result =>
      exfalso
      apply h
      unfold WriteCall.attempt at hattempt
      obtain ⟨_, hbegin, hattempt⟩ := bind_eq_ok_iff.mp hattempt
      obtain ⟨_, hinsert, hattempt⟩ := bind_eq_ok_iff.mp hattempt
      obtain ⟨n, haccounts, hattempt⟩ := bind_eq_ok_iff.mp hattempt
      obtain ⟨_, hcheckpoint, hattempt⟩ := bind_eq_ok_iff.mp hattempt
      obtain ⟨_, hcommit, -⟩ := bind_eq_ok_iff.mp hattempt
      unfold WriteCall.commits
      rw [accepted_eq_ok.mp hbegin, accepted_of_insertInstructions hinsert,
        writeAccountsInner_eq_ok.mp ⟨n, haccounts⟩, accepted_eq_ok.mp hcheckpoint,
        accepted_eq_ok.mp hcommit]
      rfl

theorem WriteCall.eq_writeBlock_of_run {call : WriteCall} {store written : Store}
    {result : WriteResult} (h : call.run store = (.ok result, written)) :
    written = store.writeBlock call.stream call.instructions call.slot call.signature := by
  by_cases hcommits : call.commits = true
  · obtain ⟨n, hrun⟩ := WriteCall.run_of_commits hcommits store
    rw [hrun] at h
    exact (congrArg Prod.snd h).symm
  · obtain ⟨e, hrun⟩ := WriteCall.run_of_not_commits hcommits store
    rw [hrun] at h
    cases congrArg Prod.fst h

/-! ## Sequences of calls -/

def runWrites : Store → List WriteCall → List (Except StorageError WriteResult) × Store
  | store, [] => ([], store)
  | store, call :: calls =>
      let (result, written) := call.run store
      let (results, final) := runWrites written calls
      (result :: results, final)

/-- The sum of `instructions_written` over the calls that returned `Ok`. -/
def totalInstructions (results : List (Except StorageError WriteResult)) : Nat :=
  (results.map fun
    | .ok result => result.instructionsWritten
    | .error _ => 0).sum

def committedRows (calls : List WriteCall) : List InstructionRecord :=
  (calls.filter WriteCall.commits).flatMap WriteCall.rows

theorem runWrites_instructions (store : Store) (calls : List WriteCall) :
    (runWrites store calls).2.instructions =
      insertAll InstructionRecord.conflictKey store.instructions (committedRows calls) := by
  induction calls generalizing store with
  | nil => rfl
  | cons call calls ih =>
      simp only [runWrites]
      rw [ih]
      by_cases hcommits : call.commits = true
      · obtain ⟨n, hrun⟩ := call.run_of_commits hcommits store
        have hrows : (store.writeBlock call.stream call.instructions call.slot
            call.signature).instructions =
            insertAll InstructionRecord.conflictKey store.instructions call.rows :=
          instructions_foldl_insertRow call.rows store
        rw [hrun, hrows, ← insertAll_append, committedRows, committedRows,
          List.filter_cons_of_pos hcommits, List.flatMap_cons]
      · obtain ⟨e, hrun⟩ := WriteCall.run_of_not_commits hcommits store
        rw [hrun, committedRows, committedRows, List.filter_cons_of_neg hcommits]

theorem totalInstructions_runWrites (store : Store) (calls : List WriteCall) :
    store.instructions.length + totalInstructions (runWrites store calls).1 =
      (runWrites store calls).2.instructions.length := by
  induction calls generalizing store with
  | nil => rfl
  | cons call calls ih =>
      have hnext := ih (call.run store).2
      simp only [runWrites]
      rw [← hnext]
      by_cases hcommits : call.commits = true
      · obtain ⟨n, hrun⟩ := call.run_of_commits hcommits store
        have hgrow : store.instructions.length ≤
            (store.writeInstructions call.instructions).instructions.length := by
          rw [Store.writeInstructions, instructions_foldl_insertRow]
          exact length_le_insertAll _ _
        have hwritten : (store.writeBlock call.stream call.instructions call.slot
            call.signature).instructions =
            (store.writeInstructions call.instructions).instructions := rfl
        rw [hrun]
        simp only [totalInstructions, List.map_cons, List.sum_cons, hwritten]
        omega
      · obtain ⟨e, hrun⟩ := WriteCall.run_of_not_commits hcommits store
        rw [hrun]
        simp [totalInstructions]

/-- Where rows with one key are one row, the table is the set of the rows of the calls that
committed: neither their order, their repetition nor their batching shows, and the counts
returned sum up to its size. -/
theorem instructions_are_committed_rows (calls : List WriteCall)
    (hkeys : KeyDetermines InstructionRecord.conflictKey (committedRows calls)) :
    (∀ row, row ∈ (runWrites .empty calls).2.instructions ↔ row ∈ committedRows calls) ∧
      (runWrites .empty calls).2.instructions.Nodup ∧
      totalInstructions (runWrites .empty calls).1 =
        (runWrites .empty calls).2.instructions.length ∧
      ∀ calls', (∀ row, row ∈ committedRows calls' ↔ row ∈ committedRows calls) →
        (runWrites .empty calls').2.instructions.Perm (runWrites .empty calls).2.instructions ∧
          totalInstructions (runWrites .empty calls').1 =
            totalInstructions (runWrites .empty calls).1 := by
  have hmem (calls : List WriteCall)
      (hkeys : KeyDetermines InstructionRecord.conflictKey (committedRows calls)) :
      ∀ row, row ∈ (runWrites .empty calls).2.instructions ↔ row ∈ committedRows calls := by
    intro row
    rw [runWrites_instructions, mem_insertAll hkeys]
    simp [Store.empty]
  have hnodup (calls : List WriteCall) :
      ((runWrites .empty calls).2.instructions.map InstructionRecord.conflictKey).Nodup := by
    rw [runWrites_instructions]
    exact nodup_insertAll _ List.nodup_nil
  have htotal (calls : List WriteCall) : totalInstructions (runWrites .empty calls).1 =
      (runWrites .empty calls).2.instructions.length := by
    rw [← totalInstructions_runWrites]
    exact (Nat.zero_add _).symm
  refine ⟨hmem calls hkeys, (hnodup calls).of_map, htotal calls, ?_⟩
  intro calls' hsame
  have hperm : (runWrites .empty calls').2.instructions.Perm
      (runWrites .empty calls).2.instructions := by
    apply perm_of_mem_iff (hnodup calls') (hnodup calls)
    intro row
    rw [hmem calls hkeys, hmem calls' (hkeys.mono fun row => (hsame row).mp), hsame]
  exact ⟨hperm, by rw [htotal, htotal, hperm.length_eq]⟩

def swapAt (index : UInt8) (inner : Option UInt8) : DecodedInstruction :=
  { DecodedInstruction.fromDecoded "prog" "swap" .null with
    signature := "sig"
    slot := 7
    instructionIndex := index
    innerIndex := inner }

def Replies.allOk : Replies := ⟨none, none, .ok 0, none, none⟩

/-- A batch, a repetition of part of it from the stream, and a write that fails. -/
def retriedCalls : List WriteCall :=
  [⟨.backfill, [swapAt 0 none, swapAt 0 (some 1)], [], 7, some "sig", .allOk⟩,
    ⟨.realtime, [swapAt 0 none], [], 7, some "sig", .allOk⟩,
    ⟨.realtime, [swapAt 2 none], [], 7, some "sig",
      { Replies.allOk with commitError := some "connection closed" }⟩]

theorem instructions_are_committed_rows_retried :
    (∀ row, row ∈ (runWrites .empty retriedCalls).2.instructions ↔
      row = decomposeInstruction (swapAt 0 none) ∨
        row = decomposeInstruction (swapAt 0 (some 1))) ∧
      totalInstructions (runWrites .empty retriedCalls).1 = 2 := by
  have hrows : committedRows retriedCalls =
      [decomposeInstruction (swapAt 0 none), decomposeInstruction (swapAt 0 (some 1)),
        decomposeInstruction (swapAt 0 none)] := rfl
  obtain ⟨hmem, -, htotal, -⟩ := instructions_are_committed_rows retriedCalls (by
    rw [hrows]
    intro a ha b hb hkey
    simp only [List.mem_cons, List.not_mem_nil, or_false] at ha hb
    rcases ha with rfl | rfl | rfl <;> rcases hb with rfl | rfl | rfl <;>
      first | rfl | exact absurd hkey (by decide))
  refine ⟨?_, ?_⟩
  · intro row
    rw [hmem, hrows]
    simp only [List.mem_cons, List.not_mem_nil, or_false]
    tauto
  · rw [htotal]
    rfl

end Solarix.Storage
