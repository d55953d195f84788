import Solarix.Core.Newest
import Solarix.Core.Traverse
import Solarix.Storage.PromotedValues
import Solarix.Storage.SqlText
import Solarix.Storage.Writer

/-!
# The account upsert

`write_accounts_batch` as a statement with its meaning: which columns it inserts, which it
sets on a conflict and when.  A row that is there is replaced by one of a later slot, in all
of its columns, so that a table of accounts keeps the newest version of each.
-/

namespace Solarix.Storage

open Solarix.Core

/-! ## The statement -/

/-- Where an inserted column comes from: a column of the batch, the clock, or the data. -/
inductive SelectExpr where
  | raw (column : String)
  | now
  | promoted (expr : ExtractExpr)

inductive SetExpr where
  | excluded (column : String)
  | now

/-- `INSERT .. ON CONFLICT (conflictKey) DO UPDATE SET ..`, where `newer` is greater in the
new row. -/
structure Upsert where
  schemaName : String
  tableName : String
  inserts : List (String × SelectExpr)
  conflictKey : String
  sets : List (String × SetExpr)
  newer : String

def accountInserts : List (String × SelectExpr) :=
  [("pubkey", .raw "pubkey"), ("slot_updated", .raw "slot_updated"),
    ("lamports", .raw "lamports"), ("data", .raw "data"), ("updated_at", .now)]

def accountSets : List (String × SetExpr) :=
  [("slot_updated", .excluded "slot_updated"), ("lamports", .excluded "lamports"),
    ("data", .excluded "data"), ("updated_at", .now)]

def accountUpsert (schemaName tableName : String) (promoted : List PromotedColumn) : Upsert where
  schemaName := schemaName
  tableName := tableName
  inserts := accountInserts ++
    promoted.map fun col => (col.columnName, .promoted (buildPromotedExtractExpr col))
  conflictKey := "pubkey"
  sets := accountSets ++ promoted.map fun col => (col.columnName, .excluded col.columnName)
  newer := "slot_updated"

/-! ### Its text -/

/-- The texts of the items, each but the first after its separator. -/
def joinTexts {α : Type} (separator text : α → String) : List α → String
  | [] => ""
  | first :: rest => rest.foldl (fun s item => s ++ (separator item ++ text item)) (text first)

theorem foldl_append_from {α : Type} (text : α → String) (items : List α) (s : String) :
    items.foldl (fun s item => s ++ text item) s =
      s ++ items.foldl (fun s item => s ++ text item) "" := by
  induction items generalizing s with
  | nil => simp
  | cons item items ih =>
      rw [List.foldl_cons, List.foldl_cons, ih, ih ("" ++ text item)]
      simp [String.append_assoc]

theorem joinTexts_append {α : Type} (separator text : α → String) {items : List α}
    (hne : items ≠ []) (more : List α) :
    joinTexts separator text (items ++ more) = joinTexts separator text items ++
      more.foldl (fun s item => s ++ (separator item ++ text item)) "" := by
  cases items with
  | nil => contradiction
  | cons first rest =>
      rw [List.cons_append, joinTexts, joinTexts, List.foldl_append, foldl_append_from _ more]

def SelectExpr.toSql : SelectExpr → String
  | .raw column => column
  | .now => "NOW()"
  | .promoted expr => expr.toSql

def SelectExpr.separator : SelectExpr → String
  | .promoted _ => ",\n    "
  | _ => ", "

def SetExpr.toSql : SetExpr → String
  | .excluded column => "EXCLUDED." ++ quoteIdent column
  | .now => "NOW()"

def Upsert.toSql (upsert : Upsert) : String :=
  let qualified := qualify upsert.schemaName upsert.tableName
  upsertSource ++ qualified ++ "\n    (" ++
    joinTexts (fun _ => ", ") (fun insert => quoteIdent insert.1) upsert.inserts ++
    ")\nSELECT\n    " ++
    joinTexts (fun insert => insert.2.separator) (fun insert => insert.2.toSql) upsert.inserts ++
    "\nFROM raw\nON CONFLICT (" ++ quoteIdent upsert.conflictKey ++ ") DO UPDATE SET\n    " ++
    joinTexts (fun _ => ",\n    ") (fun set => quoteIdent set.1 ++ " = " ++ set.2.toSql)
      upsert.sets ++
    "\nWHERE EXCLUDED." ++ quoteIdent upsert.newer ++ " > " ++ qualified ++ "." ++
    quoteIdent upsert.newer

theorem buildAccountUpsertSql_eq_toSql (schemaName tableName : String)
    (promoted : List PromotedColumn) :
    buildAccountUpsertSql schemaName tableName promoted =
      (accountUpsert schemaName tableName promoted).toSql := by
  have hcolumns : "\n    (" ++ joinTexts (fun _ => ", ")
      (fun insert : String × SelectExpr => quoteIdent insert.1) accountInserts =
        upsertColumns := by decide +kernel
  have hselect : ")\nSELECT\n    " ++ joinTexts
      (fun insert : String × SelectExpr => insert.2.separator) (fun insert => insert.2.toSql)
      accountInserts = upsertSelect := by decide +kernel
  have hconflict : "\nFROM raw\nON CONFLICT (" ++ quoteIdent "pubkey" ++ ") DO UPDATE SET\n    " ++
      joinTexts (fun _ => ",\n    ")
        (fun set : String × SetExpr => quoteIdent set.1 ++ " = " ++ set.2.toSql) accountSets =
        upsertConflict := by decide +kernel
  have hnewer : quoteIdent "slot_updated" = "\"slot_updated\"" := by decide +kernel
  have hset : " = EXCLUDED." = " = " ++ "EXCLUDED." := by decide +kernel
  have hwhere : "\nWHERE EXCLUDED.\"slot_updated\" > " =
      "\nWHERE EXCLUDED." ++ "\"slot_updated\"" ++ " > " := by decide +kernel
  have hguard : ".\"slot_updated\"" = "." ++ "\"slot_updated\"" := by decide +kernel
  unfold buildAccountUpsertSql Upsert.toSql accountUpsert
  dsimp only
  rw [joinTexts_append _ _ (by simp [accountInserts]),
    joinTexts_append _ _ (by simp [accountInserts]), joinTexts_append _ _ (by simp [accountSets]),
    ← hcolumns, ← hselect, ← hconflict, hnewer, hset, hwhere, hguard, List.foldl_map,
    List.foldl_map, List.foldl_map]
  -- what is joined of the columns that every table has is one text on both sides
  generalize joinTexts (fun _ => ", ") (fun insert : String × SelectExpr => quoteIdent insert.1)
    accountInserts = columns
  generalize joinTexts (fun insert : String × SelectExpr => insert.2.separator)
    (fun insert => insert.2.toSql) accountInserts = exprs
  generalize joinTexts (fun _ => ",\n    ")
    (fun set : String × SetExpr => quoteIdent set.1 ++ " = " ++ set.2.toSql) accountSets = sets
  simp only [SelectExpr.separator, SelectExpr.toSql, SetExpr.toSql, String.append_assoc]

/-! ## Its execution -/

inductive Cell (pg : PgCasts) where
  | text (s : String)
  | bigint (z : Int)
  | json (value : Json)
  | timestamp (time : Int)
  | value (v : pg.Value)

abbrev Row (pg : PgCasts) := String → Cell pg

abbrev AccountRows (pg : PgCasts) := String → Option (Row pg)

/-- A row of the arrays that are bound to `$1` to `$4`. -/
structure RawAccount where
  pubkey : String
  slotUpdated : Int
  lamports : Int
  data : Json

def RawAccount.ofAccount (account : DecodedAccount) : RawAccount where
  pubkey := account.pubkey
  slotUpdated := slotToI64 account.slotUpdated
  lamports := slotToI64 account.lamports
  data := account.data

section Execution

variable (pg : PgCasts)

def RawAccount.column? (raw : RawAccount) : String → Option (Cell pg)
  | "pubkey" => some (.text raw.pubkey)
  | "slot_updated" => some (.bigint raw.slotUpdated)
  | "lamports" => some (.bigint raw.lamports)
  | "data" => some (.json raw.data)
  | _ => none

def SelectExpr.eval (now : Int) (raw : RawAccount) : SelectExpr → Option (Cell pg)
  | .raw column => raw.column? pg column
  | .now => some (.timestamp now)
  | .promoted expr => (pg.eval raw.data expr).map .value

variable {pg}

/-- The row of the given cells; the other columns have their defaults. -/
def rowOf (defaults : Row pg) (cells : List (String × Cell pg)) : Row pg := fun column =>
  ((cells.find? fun cell => cell.1 == column).map Prod.snd).getD (defaults column)

namespace Upsert

variable (upsert : Upsert) (defaults : Row pg) (now : Int)

def proposed (raw : RawAccount) : Option (Row pg) := do
  let cells ← upsert.inserts.mapM fun insert => (insert.2.eval pg now raw).map (insert.1, ·)
  some (rowOf defaults cells)

/-- The `WHERE` clause on the row that is there and the one that is proposed. -/
def isNewer (old new : Row pg) : Bool :=
  match old upsert.newer, new upsert.newer with
  | .bigint z, .bigint z' => z < z'
  | _, _ => false

def updated (old new : Row pg) : Row pg := fun column =>
  match upsert.sets.find? fun set => set.1 == column with
  | some (_, .excluded source) => new source
  | some (_, .now) => .timestamp now
  | none => old column

/-- The proposed rows from first to last, with the keys of the rows that the statement has
written so far: it fails on a second row for one of these. -/
def insertRows : List String → List (Row pg) → AccountRows pg → Option (AccountRows pg)
  | _, [], table => some table
  | written, row :: rows, table =>
      match row upsert.conflictKey with
      | .text key =>
          if key ∈ written then none
          else
            match table key with
            | none =>
                insertRows (key :: written) rows fun k => if k = key then some row else table k
            | some old =>
                if upsert.isNewer old row then
                  insertRows (key :: written) rows fun k =>
                    if k = key then some (upsert.updated now old row) else table k
                else insertRows written rows table
      | _ => none

def execute (raws : List RawAccount) (table : AccountRows pg) : Option (AccountRows pg) := do
  let rows ← raws.mapM (upsert.proposed defaults now)
  upsert.insertRows now [] rows table

end Upsert

def unnestAccounts (accounts : List DecodedAccount) : List RawAccount :=
  let pubkeys := accounts.map fun account => account.pubkey
  let slots := accounts.map fun account => slotToI64 account.slotUpdated
  let lamports := accounts.map fun account => slotToI64 account.lamports
  let dataValues := accounts.map fun account => account.data
  (pubkeys.zip (slots.zip (lamports.zip dataValues))).map fun row =>
    ⟨row.1, row.2.1, row.2.2.1, row.2.2.2⟩

/-- A call of `write_accounts_batch` for a table, at a time of the database's clock.  The call
may fail for reasons of its own. -/
structure AccountBatch where
  now : Int
  accounts : List DecodedAccount
  fault : Option String

variable (schemaName tableName : String) (promoted : List PromotedColumn) (defaults : Row pg)

def writeAccountsBatch (batch : AccountBatch) (table : AccountRows pg) : Option (AccountRows pg) :=
  match batch.fault with
  | some _ => none
  | none =>
      (accountUpsert schemaName tableName promoted).execute defaults batch.now
        (unnestAccounts batch.accounts) table

def writeBatches (batches : List AccountBatch) : AccountRows pg :=
  batches.foldl
    (fun table batch =>
      (writeAccountsBatch schemaName tableName promoted defaults batch table).getD table)
    fun _ => none

end Execution

/-! ### The batches of one write -/

/-- `grouped.entry(account_type).or_default().push(account)`. -/
def addToGroup (groups : List (String × List DecodedAccount)) (account : DecodedAccount) :
    List (String × List DecodedAccount) :=
  if account.accountType ∈ groups.map Prod.fst then
    groups.map fun group =>
      if group.1 = account.accountType then (group.1, group.2 ++ [account]) else group
  else groups ++ [(account.accountType, [account])]

def groupByType (accounts : List DecodedAccount) : List (String × List DecodedAccount) :=
  accounts.foldl addToGroup []

def ofType (accountType : String) (accounts : List DecodedAccount) : List DecodedAccount :=
  accounts.filter fun account => account.accountType = accountType

theorem ofType_concat (accountType : String) (accounts : List DecodedAccount)
    (account : DecodedAccount) :
    ofType accountType (accounts ++ [account]) =
      if account.accountType = accountType then ofType accountType accounts ++ [account]
      else ofType accountType accounts := by
  rw [ofType, List.filter_append]
  split
  · rename_i heq
    rw [List.filter_cons_of_pos (by simpa using heq), List.filter_nil, ofType]
  · rename_i hne
    rw [List.filter_cons_of_neg (by simpa using hne), List.filter_nil, List.append_nil, ofType]

theorem mem_groupByType {accounts : List DecodedAccount} {group : String × List DecodedAccount} :
    group ∈ groupByType accounts ↔ group.2 = ofType group.1 accounts ∧ group.2 ≠ [] := by
  induction accounts using List.reverseRecOn generalizing group with
  | nil => simp [groupByType, ofType]
  | append_singleton accounts account ih =>
      have hgroups : groupByType (accounts ++ [account]) =
          addToGroup (groupByType accounts) account := List.foldl_append
      have hseen : account.accountType ∈ (groupByType accounts).map Prod.fst ↔
          ofType account.accountType accounts ≠ [] := by
        rw [List.mem_map]
        constructor
        · rintro ⟨found, hfound, heq⟩
          obtain ⟨hfilter, hne⟩ := ih.mp hfound
          rwa [hfilter, heq] at hne
        · intro hne
          exact ⟨(account.accountType, _), ih.mpr ⟨rfl, hne⟩, rfl⟩
      rw [hgroups, addToGroup, ofType_concat]
      by_cases htype : account.accountType = group.1
      · rw [if_pos htype]
        split
        · rename_i hmem
          rw [List.mem_map]
          constructor
          · rintro ⟨found, hfound, rfl⟩
            have hsame : found.1 = account.accountType := by
              by_contra hne
              rw [if_neg hne] at htype
              exact hne htype.symm
            rw [if_pos hsame]
            exact ⟨by rw [(ih.mp hfound).1], by simp⟩
          · rintro ⟨hgroup, _⟩
            refine ⟨(account.accountType, ofType account.accountType accounts),
              ih.mpr ⟨rfl, hseen.mp hmem⟩, ?_⟩
            rw [if_pos rfl]
            exact Prod.ext htype (by rw [hgroup, ← htype])
        · rename_i hmem
          have hempty : ofType group.1 accounts = [] := by
            rw [← htype]
            exact not_not.mp (mt hseen.mpr hmem)
          rw [List.mem_append, List.mem_singleton, hempty, List.nil_append]
          constructor
          · rintro (hgroup | rfl)
            · obtain ⟨hfilter, hne⟩ := ih.mp hgroup
              exact absurd (hfilter.trans hempty) hne
            · exact ⟨rfl, List.cons_ne_nil _ _⟩
          · rintro ⟨hgroup, _⟩
            exact .inr (Prod.ext htype.symm hgroup)
      · rw [if_neg htype, ← ih]
        split
        · rw [List.mem_map]
          constructor
          · rintro ⟨found, hfound, rfl⟩
            have hother : found.1 ≠ account.accountType := by
              intro heq
              rw [if_pos heq] at htype
              exact htype heq.symm
            rwa [if_neg hother]
          · intro hgroup
            exact ⟨group, hgroup, if_neg (Ne.symm htype)⟩
        · rw [List.mem_append, List.mem_singleton]
          constructor
          · rintro (hgroup | rfl)
            · exact hgroup
            · exact absurd rfl htype
          · exact .inl

theorem unnestAccounts_eq (accounts : List DecodedAccount) :
    unnestAccounts accounts = accounts.map .ofAccount := by
  unfold unnestAccounts
  simp only
  induction accounts with
  | nil => rfl
  | cons account accounts ih =>
      exact congrArg (RawAccount.ofAccount account :: ·) ih

/-! ## Rows and versions -/

section Rows

variable {pg : PgCasts} {promoted : List PromotedColumn} {defaults : Row pg} {now : Int}
  {schemaName tableName : String}

/-- The columns that the writer does not fill for itself, each of them once. -/
structure PromotedNames (promoted : List PromotedColumn) : Prop where
  nodup : (promoted.map PromotedColumn.columnName).Nodup
  notCommon : ∀ col ∈ promoted, col.columnName ∉ commonAccountColumns

theorem promotedNames_discover {table : TableDef}
    (h : (table.columns.map ColumnDef.name).Nodup) :
    PromotedNames (discoverPromotedColumns table) where
  nodup := by
    rw [discoverPromotedColumns, List.map_map]
    exact (List.filter_sublist.map _).nodup h
  notCommon := by
    intro col hcol
    obtain ⟨column, hcolumn, rfl⟩ := List.mem_map.mp hcol
    change column.name ∉ commonAccountColumns
    simpa using (List.mem_filter.mp hcolumn).2

def Extracts (pg : PgCasts) (promoted : List PromotedColumn) (account : DecodedAccount) : Prop :=
  ∀ col ∈ promoted, (pg.eval account.data (buildPromotedExtractExpr col)).isSome = true

instance (pg : PgCasts) (promoted : List PromotedColumn) (account : DecodedAccount) :
    Decidable (Extracts pg promoted account) :=
  inferInstanceAs (Decidable (∀ col ∈ promoted, _))

def AccountBatch.Succeeds (pg : PgCasts) (promoted : List PromotedColumn) (batch : AccountBatch) :
    Prop :=
  batch.fault = none ∧ ∀ account ∈ batch.accounts, Extracts pg promoted account

instance (pg : PgCasts) (promoted : List PromotedColumn) (batch : AccountBatch) :
    Decidable (batch.Succeeds pg promoted) :=
  inferInstanceAs (Decidable (_ ∧ _))

/-- The row holds this version of an account in all of its columns; those that the statement
does not insert have their defaults. -/
structure Shows (promoted : List PromotedColumn) (defaults : Row pg) (row : Row pg)
    (account : DecodedAccount) : Prop where
  pubkey : row "pubkey" = .text account.pubkey
  slotUpdated : row "slot_updated" = .bigint account.slotUpdated
  lamports : row "lamports" = .bigint account.lamports
  data : row "data" = .json account.data
  extracted : ∀ col ∈ promoted,
    (pg.eval account.data (buildPromotedExtractExpr col)).map .value = some (row col.columnName)
  others : ∀ column, column ∉ accountInserts.map Prod.fst →
    column ∉ promoted.map PromotedColumn.columnName → row column = defaults column

theorem Shows.eq_of_ne {row row' : Row pg} {account : DecodedAccount}
    (h : Shows promoted defaults row account) (h' : Shows promoted defaults row' account)
    {column : String} (hne : column ≠ "updated_at") : row column = row' column := by
  by_cases hpromoted : column ∈ promoted.map PromotedColumn.columnName
  · obtain ⟨col, hcol, rfl⟩ := List.mem_map.mp hpromoted
    exact Option.some.inj ((h.extracted col hcol).symm.trans (h'.extracted col hcol))
  by_cases hinserted : column ∈ accountInserts.map Prod.fst
  · simp only [accountInserts, List.map_cons, List.map_nil, List.mem_cons, List.not_mem_nil,
      or_false] at hinserted
    rcases hinserted with rfl | rfl | rfl | rfl | rfl
    · rw [h.pubkey, h'.pubkey]
    · rw [h.slotUpdated, h'.slotUpdated]
    · rw [h.lamports, h'.lamports]
    · rw [h.data, h'.data]
    · contradiction
  · rw [h.others column hinserted hpromoted, h'.others column hinserted hpromoted]

/-! ### The proposed row -/

theorem find?_columns {β : Type} {entries : List (String × β)} {f : PromotedColumn → β}
    (hpromoted : PromotedNames promoted)
    (hcommon : ∀ entry ∈ entries, entry.1 ∈ commonAccountColumns) {col : PromotedColumn}
    (hcol : col ∈ promoted) :
    ((entries ++ promoted.map fun col => (col.columnName, f col)).find?
      fun entry => entry.1 == col.columnName) = some (col.columnName, f col) := by
  have hfixed : (entries.find? fun entry => entry.1 == col.columnName) = none := by
    rw [List.find?_eq_none]
    intro entry hentry heq
    exact hpromoted.notCommon col hcol (beq_iff_eq.mp heq ▸ hcommon entry hentry)
  have hnodup : ((promoted.map fun col => (col.columnName, f col)).map Prod.fst).Nodup := by
    rw [List.map_map]
    exact hpromoted.nodup
  rw [List.find?_append, hfixed, Option.none_or]
  exact Json.find?_of_nodup hnodup (List.mem_map_of_mem hcol)

theorem find?_columns_none {β : Type} {entries : List (String × β)} {f : PromotedColumn → β}
    {column : String} (hentries : column ∉ entries.map Prod.fst)
    (hpromoted : column ∉ promoted.map PromotedColumn.columnName) :
    ((entries ++ promoted.map fun col => (col.columnName, f col)).find?
      fun entry => entry.1 == column) = none := by
  rw [List.find?_eq_none]
  intro entry hentry heq
  rw [beq_iff_eq] at heq
  rcases List.mem_append.mp hentry with hentry | hentry
  · exact hentries (heq ▸ List.mem_map_of_mem hentry)
  · obtain ⟨col, hcol, rfl⟩ := List.mem_map.mp hentry
    exact hpromoted (heq ▸ List.mem_map_of_mem hcol)

theorem accountInserts_common : ∀ insert ∈ accountInserts, insert.1 ∈ commonAccountColumns := by
  decide

theorem accountSets_common : ∀ set ∈ accountSets, set.1 ∈ commonAccountColumns := by
  decide

theorem find?_cells {β γ : Type} {eval : β → Option γ} {inserts : List (String × β)}
    {cells : List (String × γ)}
    (h : (inserts.mapM fun insert => (eval insert.2).map (insert.1, ·)) = some cells)
    (column : String) :
    (cells.find? fun cell => cell.1 == column).map Prod.snd =
      (inserts.find? fun insert => insert.1 == column).bind fun insert => eval insert.2 := by
  rw [mapM_eq_some] at h
  induction h with
  | nil => rfl
  | @cons insert cell inserts cells heval _ ih =>
      obtain ⟨value, hvalue, rfl⟩ := Option.map_eq_some_iff.mp heval
      rw [List.find?_cons, List.find?_cons]
      by_cases heq : insert.1 == column
      · simp [heq, hvalue]
      · simp [heq, ih]

theorem proposed_cell {upsert : Upsert} {raw : RawAccount} {row : Row pg}
    (h : upsert.proposed defaults now raw = some row) {column : String} {expr : SelectExpr}
    (hfind : (upsert.inserts.find? fun insert => insert.1 == column) = some (column, expr)) :
    expr.eval pg now raw = some (row column) := by
  obtain ⟨cells, hcells, hrow⟩ := Option.bind_eq_some_iff.mp h
  rw [← Option.some.inj hrow]
  have hcell := find?_cells hcells column
  rw [hfind, Option.bind_some] at hcell
  have hsome : (expr.eval pg now raw).isSome = true := by
    have hmem := List.mem_of_find?_eq_some hfind
    obtain ⟨cell, heval⟩ := exists_forall₂.mp ⟨cells, mapM_eq_some.mp hcells⟩ _ hmem
    obtain ⟨value, hvalue, _⟩ := Option.map_eq_some_iff.mp heval
    rw [hvalue]
    rfl
  obtain ⟨value, hvalue⟩ := Option.isSome_iff_exists.mp hsome
  rw [rowOf, hcell, hvalue, Option.getD_some]

theorem proposed_default {upsert : Upsert} {raw : RawAccount} {row : Row pg}
    (h : upsert.proposed defaults now raw = some row) {column : String}
    (hfind : (upsert.inserts.find? fun insert => insert.1 == column) = none) :
    row column = defaults column := by
  obtain ⟨cells, hcells, hrow⟩ := Option.bind_eq_some_iff.mp h
  have hcell := find?_cells hcells column
  rw [hfind, Option.bind_none] at hcell
  rw [← Option.some.inj hrow, rowOf, hcell, Option.getD_none]

theorem slotToI64_of_lt {n : Nat} (h : n < 2 ^ 63) : slotToI64 n = n := by
  have hmod : n % 2 ^ 64 = n := Nat.mod_eq_of_lt (by omega)
  rw [slotToI64, hmod]
  exact if_pos h

/-- The slot and the lamports are not changed by `as i64`. -/
def Signed (account : DecodedAccount) : Prop :=
  account.slotUpdated < 2 ^ 63 ∧ account.lamports < 2 ^ 63

theorem proposed_raw {account : DecodedAccount} {row : Row pg}
    (h : (accountUpsert schemaName tableName promoted).proposed defaults now (.ofAccount account) =
      some row) {column : String} {cell : Cell pg}
    (hfind : (accountInserts.find? fun insert => insert.1 == column) =
      some (column, .raw column))
    (hcell : (RawAccount.ofAccount account).column? pg column = some cell) : row column = cell := by
  have hinserts : ((accountUpsert schemaName tableName promoted).inserts.find?
      fun insert => insert.1 == column) = some (column, .raw column) := by
    rw [accountUpsert, List.find?_append, hfind]
    rfl
  exact Option.some.inj ((proposed_cell h hinserts).symm.trans hcell)

theorem shows_proposed (hpromoted : PromotedNames promoted) {account : DecodedAccount}
    (hsigned : Signed account) {row : Row pg}
    (h : (accountUpsert schemaName tableName promoted).proposed defaults now (.ofAccount account) =
      some row) : Shows promoted defaults row account where
  pubkey := proposed_raw h rfl rfl
  slotUpdated := by
    rw [← slotToI64_of_lt hsigned.1]
    exact proposed_raw h rfl rfl
  lamports := by
    rw [← slotToI64_of_lt hsigned.2]
    exact proposed_raw h rfl rfl
  data := proposed_raw h rfl rfl
  extracted := by
    intro col hcol
    exact proposed_cell h (find?_columns hpromoted accountInserts_common hcol)
  others := by
    intro column hinserted hcolumn
    exact proposed_default h (find?_columns_none hinserted hcolumn)

theorem exists_proposed_iff (schemaName tableName : String) (defaults : Row pg) (now : Int)
    (account : DecodedAccount) :
    (∃ row, (accountUpsert schemaName tableName promoted).proposed defaults now
      (.ofAccount account) = some row) ↔ Extracts pg promoted account := by
  have hcells : (∃ row, (accountUpsert schemaName tableName promoted).proposed defaults now
      (.ofAccount account) = some row) ↔
        ∀ insert ∈ (accountUpsert schemaName tableName promoted).inserts, ∃ cell,
          (insert.2.eval pg now (.ofAccount account)).map (insert.1, ·) = some cell := by
    rw [← exists_forall₂]
    simp only [← mapM_eq_some, Upsert.proposed, Option.bind_eq_bind, Option.bind_eq_some_iff]
    exact ⟨fun ⟨_, cells, hcells, _⟩ => ⟨cells, hcells⟩, fun ⟨cells, hcells⟩ =>
      ⟨_, cells, hcells, rfl⟩⟩
  have hfixed : ∀ insert ∈ accountInserts, ∃ cell : String × Cell pg,
      (insert.2.eval pg now (.ofAccount account)).map (insert.1, ·) = some cell := by
    intro insert hinsert
    simp only [accountInserts, List.mem_cons, List.not_mem_nil, or_false] at hinsert
    rcases hinsert with rfl | rfl | rfl | rfl | rfl <;> exact ⟨_, rfl⟩
  rw [hcells]
  simp only [accountUpsert, List.mem_append, or_imp, forall_and, List.forall_mem_map]
  constructor
  · intro h col hcol
    obtain ⟨cell, hcell⟩ := h.2 col hcol
    obtain ⟨_, hcell, _⟩ := Option.map_eq_some_iff.mp hcell
    obtain ⟨value, hvalue, _⟩ := Option.map_eq_some_iff.mp hcell
    exact Option.isSome_iff_exists.mpr ⟨value, hvalue⟩
  · intro h
    refine ⟨hfixed, fun col hcol => ?_⟩
    obtain ⟨value, hvalue⟩ := Option.isSome_iff_exists.mp (h col hcol)
    have heval : SelectExpr.eval pg now (.ofAccount account)
        (.promoted (buildPromotedExtractExpr col)) = some (.value value) :=
      congrArg (Option.map Cell.value) hvalue
    exact ⟨_, congrArg (Option.map _) heval⟩

/-! ### A conflict -/

theorem isNewer_iff {row old : Row pg} {account version : DecodedAccount}
    (hold : Shows promoted defaults old version) (hrow : Shows promoted defaults row account) :
    (accountUpsert schemaName tableName promoted).isNewer old row = true ↔
      version.slotUpdated < account.slotUpdated := by
  change (match old "slot_updated", row "slot_updated" with
    | .bigint z, .bigint z' => decide (z < z')
    | _, _ => false) = true ↔ _
  rw [hold.slotUpdated, hrow.slotUpdated]
  simp

/-- Every column that the statement inserts is set anew, so that the row is the new version
whole. -/
theorem shows_updated (hpromoted : PromotedNames promoted) {row old : Row pg}
    {account version : DecodedAccount} (hold : Shows promoted defaults old version)
    (hrow : Shows promoted defaults row account) (hpubkey : version.pubkey = account.pubkey) :
    Shows promoted defaults
      ((accountUpsert schemaName tableName promoted).updated now old row) account := by
  have hset : ∀ {column : String}, (accountSets.find? fun set => set.1 == column) =
      some (column, .excluded column) →
      (accountUpsert schemaName tableName promoted).updated now old row column = row column := by
    intro column hfind
    rw [Upsert.updated, accountUpsert, List.find?_append, hfind]
    rfl
  have hkeep : ∀ {column : String}, column ∉ accountSets.map Prod.fst →
      column ∉ promoted.map PromotedColumn.columnName →
      (accountUpsert schemaName tableName promoted).updated now old row column = old column := by
    intro column hcommon hcolumn
    rw [Upsert.updated, accountUpsert, find?_columns_none hcommon hcolumn]
  constructor
  case pubkey =>
    have hnot : "pubkey" ∉ promoted.map PromotedColumn.columnName := by
      intro hmem
      obtain ⟨col, hcol, heq⟩ := List.mem_map.mp hmem
      exact hpromoted.notCommon col hcol (heq ▸ by decide)
    rw [hkeep (by decide) hnot, hold.pubkey, hpubkey]
  case slotUpdated => rw [hset rfl, hrow.slotUpdated]
  case lamports => rw [hset rfl, hrow.lamports]
  case data => rw [hset rfl, hrow.data]
  case extracted =>
    intro col hcol
    rw [hrow.extracted col hcol, Upsert.updated, accountUpsert,
      find?_columns hpromoted accountSets_common hcol]
  case others =>
    intro column hinserted hcolumn
    have hsets : column ∉ accountSets.map Prod.fst := by
      intro hmem
      exact hinserted (List.mem_cons_of_mem _ hmem)
    rw [hkeep hsets hcolumn, hold.others column hinserted hcolumn]

end Rows

/-! ## The newest version -/

section Newest

variable {pg : PgCasts} {promoted : List PromotedColumn} {defaults : Row pg} {now : Int}
  {schemaName tableName : String} {table : AccountRows pg}
  {kept : String → Option DecodedAccount}

def Represents (promoted : List PromotedColumn) (defaults : Row pg) (table : AccountRows pg)
    (kept : String → Option DecodedAccount) : Prop :=
  ∀ key, Option.Rel (fun row account => account.pubkey = key ∧
    Shows promoted defaults row account) (table key) (kept key)

abbrev keepVersion := keepNewer DecodedAccount.pubkey DecodedAccount.slotUpdated

abbrev keepVersions := keepNewest DecodedAccount.pubkey DecodedAccount.slotUpdated

theorem Represents.cases (h : Represents promoted defaults table kept) (key : String) :
    (table key = none ∧ kept key = none) ∨
      ∃ row account, table key = some row ∧ kept key = some account ∧
        Shows promoted defaults row account := by
  have hrel := h key
  cases htable : table key with
  | none =>
      cases hkept : kept key with
      | none => exact .inl ⟨rfl, rfl⟩
      | some account => rw [htable, hkept] at hrel; cases hrel
  | some row =>
      cases hkept : kept key with
      | none => rw [htable, hkept] at hrel; cases hrel
      | some account =>
          rw [htable, hkept] at hrel
          exact .inr ⟨row, account, rfl, rfl, (Option.rel_some_some.mp hrel).2⟩

theorem Represents.write (h : Represents promoted defaults table kept) {row : Row pg}
    {account : DecodedAccount} (hrow : Shows promoted defaults row account)
    (hnewer : ∀ old ∈ kept account.pubkey, old.slotUpdated < account.slotUpdated) :
    Represents promoted defaults
      (fun key => if key = account.pubkey then some row else table key)
      (keepVersion kept account) := by
  intro key
  rw [keepVersion, keepNewer, if_pos hnewer]
  by_cases hkey : key = account.pubkey
  · simp only [if_pos hkey]
    exact .some ⟨hkey.symm, hrow⟩
  · simp only [if_neg hkey]
    exact h key

theorem Represents.keep (h : Represents promoted defaults table kept) {account : DecodedAccount}
    {old : DecodedAccount} (hold : kept account.pubkey = some old)
    (hnot : ¬old.slotUpdated < account.slotUpdated) :
    Represents promoted defaults table (keepVersion kept account) := by
  rw [keepVersion, keepNewer, if_neg fun hall => hnot (hall old hold)]
  exact h

theorem represents_insertRows (hpromoted : PromotedNames promoted) {rows : List (Row pg)}
    {accounts : List DecodedAccount} (hrows : List.Forall₂ (Shows promoted defaults) rows accounts)
    (hnodup : (accounts.map DecodedAccount.pubkey).Nodup) {written : List String}
    (hfresh : ∀ account ∈ accounts, account.pubkey ∉ written)
    (h : Represents promoted defaults table kept) :
    ∃ table', (accountUpsert schemaName tableName promoted).insertRows now written rows table =
        some table' ∧
      Represents promoted defaults table' (keepVersions kept accounts) := by
  induction hrows generalizing written table kept with
  | nil => exact ⟨table, rfl, h⟩
  | @cons row account rows accounts hrow _ ih =>
      rw [List.map_cons, List.nodup_cons] at hnodup
      rw [List.forall_mem_cons] at hfresh
      have hkey : row (accountUpsert schemaName tableName promoted).conflictKey =
          .text account.pubkey := hrow.pubkey
      have hfresh' : ∀ other ∈ accounts, other.pubkey ∉ account.pubkey :: written := by
        intro other hother hmem
        rcases List.mem_cons.mp hmem with heq | hmem
        · exact hnodup.1 (heq ▸ List.mem_map_of_mem hother)
        · exact hfresh.2 other hother hmem
      have hrel := h account.pubkey
      rw [Upsert.insertRows, hkey]
      simp only [if_neg hfresh.1]
      cases hkept : kept account.pubkey with
      | none =>
          rw [hkept] at hrel
          cases htable : table account.pubkey with
          | some old => rw [htable] at hrel; cases hrel
          | none =>
              exact ih hnodup.2 hfresh' (h.write hrow fun old hold => by simp [hkept] at hold)
      | some version =>
          rw [hkept] at hrel
          cases htable : table account.pubkey with
          | none => rw [htable] at hrel; cases hrel
          | some old =>
              rw [htable] at hrel
              obtain ⟨hpubkey, hold⟩ := Option.rel_some_some.mp hrel
              have hiff := @isNewer_iff _ _ _ schemaName tableName _ _ _ _ hold hrow
              by_cases hlt : version.slotUpdated < account.slotUpdated
              · simp only [hiff.mpr hlt, if_true]
                refine ih hnodup.2 hfresh' (h.write (shows_updated hpromoted hold hrow hpubkey) ?_)
                intro other hother
                rw [hkept] at hother
                cases hother
                exact hlt
              · simp only [if_neg (mt hiff.mp hlt)]
                exact ih hnodup.2 hfresh.2 (h.keep hkept hlt)

theorem writeAccountsBatch_cases (hpromoted : PromotedNames promoted) {batch : AccountBatch}
    (hnodup : (batch.accounts.map DecodedAccount.pubkey).Nodup)
    (hsigned : ∀ account ∈ batch.accounts, Signed account)
    (h : Represents promoted defaults table kept) :
    (batch.Succeeds pg promoted ∧
        ∃ table', writeAccountsBatch schemaName tableName promoted defaults batch table =
            some table' ∧
          Represents promoted defaults table' (keepVersions kept batch.accounts)) ∨
      (¬batch.Succeeds pg promoted ∧
        writeAccountsBatch schemaName tableName promoted defaults batch table = none) := by
  unfold writeAccountsBatch Upsert.execute
  rw [unnestAccounts_eq]
  by_cases hfault : batch.fault = none
  swap
  · obtain ⟨message, hmessage⟩ := Option.ne_none_iff_exists'.mp hfault
    right
    rw [hmessage]
    exact ⟨fun hsucceeds => hfault hsucceeds.1, rfl⟩
  rw [hfault]
  simp only
  cases hrows : (batch.accounts.map RawAccount.ofAccount).mapM
      ((accountUpsert schemaName tableName promoted).proposed defaults batch.now) with
  | none =>
      right
      refine ⟨fun hsucceeds => ?_, rfl⟩
      have hexists : ∃ rows, (batch.accounts.map RawAccount.ofAccount).mapM
          ((accountUpsert schemaName tableName promoted).proposed defaults batch.now) =
            some rows := by
        simp only [mapM_eq_some, exists_forall₂, List.forall_mem_map]
        intro account haccount
        exact (exists_proposed_iff _ _ _ _ account).mpr (hsucceeds.2 account haccount)
      obtain ⟨rows, hsome⟩ := hexists
      rw [hrows] at hsome
      cases hsome
  | some rows =>
      left
      have hforall := mapM_eq_some.mp hrows
      rw [List.forall₂_map_left_iff] at hforall
      constructor
      · refine ⟨hfault, fun account haccount => ?_⟩
        obtain ⟨row, hrow⟩ := exists_forall₂.mp ⟨rows, hforall⟩ account haccount
        exact (exists_proposed_iff _ _ _ _ account).mp ⟨row, hrow⟩
      · have hshows : List.Forall₂ (fun account row => Shows promoted defaults row account)
            batch.accounts rows :=
          ((List.forall₂_and_left _ _).mpr ⟨hsigned, hforall⟩).imp
            fun _ _ hrow => shows_proposed hpromoted hrow.1 hrow.2
        exact represents_insertRows hpromoted hshows.flip hnodup (by simp) h

def writtenVersions (pg : PgCasts) (promoted : List PromotedColumn) (batches : List AccountBatch) :
    List DecodedAccount :=
  batches.flatMap fun batch =>
    if batch.Succeeds pg promoted then batch.accounts else []

/-- Each batch holds an account once, and its numbers are below `2^63`. -/
structure WellFormed (batches : List AccountBatch) : Prop where
  distinct : ∀ batch ∈ batches, (batch.accounts.map DecodedAccount.pubkey).Nodup
  signed : ∀ batch ∈ batches, ∀ account ∈ batch.accounts, Signed account

theorem WellFormed.mono {batches more : List AccountBatch} (h : WellFormed more)
    (hsub : ∀ batch ∈ batches, batch ∈ more) : WellFormed batches where
  distinct := fun batch hbatch => h.distinct batch (hsub batch hbatch)
  signed := fun batch hbatch => h.signed batch (hsub batch hbatch)

theorem represents_writeBatches (schemaName tableName : String) (hpromoted : PromotedNames promoted)
    (defaults : Row pg) {batches : List AccountBatch} (hbatches : WellFormed batches) :
    Represents promoted defaults (writeBatches schemaName tableName promoted defaults batches)
      (keepVersions (fun _ => none) (writtenVersions pg promoted batches)) := by
  induction batches using List.reverseRecOn with
  | nil => exact fun _ => .none
  | append_singleton batches batch ih =>
      have hrun := ih (hbatches.mono fun batch hbatch => List.mem_append_left _ hbatch)
      have hlast : batch ∈ batches ++ [batch] := List.mem_append_right _ List.mem_cons_self
      have hcases := @writeAccountsBatch_cases pg promoted defaults schemaName tableName _ _
        hpromoted batch (hbatches.distinct batch hlast) (hbatches.signed batch hlast) hrun
      rw [writeBatches, List.foldl_append, List.foldl_cons, List.foldl_nil, writtenVersions,
        List.flatMap_append, List.flatMap_singleton, keepVersions, keepNewest_append]
      rcases hcases with ⟨hall, table', htable', hrepresents⟩ | ⟨hnot, hnone⟩
      · rw [writeBatches] at htable'
        rw [htable', if_pos hall]
        exact hrepresents
      · rw [writeBatches] at hnone
        rw [hnone, if_neg hnot]
        exact hrun

def versionsOf (pubkey : String) (versions : List DecodedAccount) : List DecodedAccount :=
  versions.filter fun account => account.pubkey = pubkey

section Results

variable {batches : List AccountBatch}

theorem newest_of_written (hpromoted : PromotedNames promoted) (hbatches : WellFormed batches)
    (pubkey : String) :
    (writeBatches schemaName tableName promoted defaults batches pubkey = none ∧
        versionsOf pubkey (writtenVersions pg promoted batches) = []) ∨
      ∃ row version, writeBatches schemaName tableName promoted defaults batches pubkey =
          some row ∧
        FirstNewest DecodedAccount.slotUpdated
          (versionsOf pubkey (writtenVersions pg promoted batches)) version ∧
        Shows promoted defaults row version := by
  have hrun := represents_writeBatches schemaName tableName hpromoted defaults hbatches
  rcases keepNewest_cases DecodedAccount.pubkey DecodedAccount.slotUpdated
    (writtenVersions pg promoted batches) pubkey with ⟨hnone, hall⟩ | ⟨version, hsome, hfirst⟩
  · rcases hrun.cases pubkey with ⟨htable, _⟩ | ⟨_, account, _, hkept, _⟩
    · exact .inl ⟨htable, by simpa [versionsOf] using hall⟩
    · rw [keepVersions, hnone] at hkept
      cases hkept
  · rcases hrun.cases pubkey with ⟨_, hkept⟩ | ⟨row, account, htable, hkept, hshows⟩
    · rw [keepVersions, hsome] at hkept
      cases hkept
    · rw [keepVersions, hsome] at hkept
      cases hkept
      exact .inr ⟨row, version, htable, hfirst, hshows⟩

theorem slot_mono_of_append (hpromoted : PromotedNames promoted) {before after : List AccountBatch}
    (hbatches : WellFormed (before ++ after)) {pubkey : String} {row : Row pg}
    (hrow : writeBatches schemaName tableName promoted defaults before pubkey = some row) :
    ∃ row' slot slot',
      writeBatches schemaName tableName promoted defaults (before ++ after) pubkey = some row' ∧
        row "slot_updated" = .bigint slot ∧ row' "slot_updated" = .bigint slot' ∧
        slot ≤ slot' := by
  have hbefore := represents_writeBatches schemaName tableName hpromoted defaults
    (hbatches.mono fun batch hbatch => List.mem_append_left _ hbatch)
  have hrun := represents_writeBatches schemaName tableName hpromoted defaults hbatches
  rcases hbefore.cases pubkey with ⟨hnone, _⟩ | ⟨_, version, hsome, hkept, hshows⟩
  · rw [hrow] at hnone
    cases hnone
  rw [hrow] at hsome
  cases hsome
  obtain ⟨later, hlater, hle⟩ : ∃ later,
      keepVersions (fun _ => none) (writtenVersions pg promoted (before ++ after)) pubkey =
          some later ∧
        version.slotUpdated ≤ later.slotUpdated := by
    rw [writtenVersions, List.flatMap_append, keepVersions, keepNewest_append]
    exact exists_keepNewest hkept _
  rcases hrun.cases pubkey with ⟨_, hkept'⟩ | ⟨row', version', hrow', hkept', hshows'⟩
  · rw [hlater] at hkept'
    cases hkept'
  · rw [hlater] at hkept'
    cases hkept'
    exact ⟨row', _, _, hrow', hshows.slotUpdated, hshows'.slotUpdated, by exact_mod_cast hle⟩

theorem agree_of_written (hpromoted : PromotedNames promoted) (hbatches : WellFormed batches)
    {others : List AccountBatch} (hothers : WellFormed others)
    (hdistinct : ∀ a ∈ writtenVersions pg promoted batches,
      ∀ b ∈ writtenVersions pg promoted batches,
        a.pubkey = b.pubkey → a.slotUpdated = b.slotUpdated → a = b)
    (hsame : ∀ version, version ∈ writtenVersions pg promoted batches ↔
      version ∈ writtenVersions pg promoted others) (pubkey : String) :
    (writeBatches schemaName tableName promoted defaults batches pubkey = none ∧
        writeBatches schemaName tableName promoted defaults others pubkey = none) ∨
      ∃ row row', writeBatches schemaName tableName promoted defaults batches pubkey = some row ∧
        writeBatches schemaName tableName promoted defaults others pubkey = some row' ∧
        ∀ column, column ≠ "updated_at" → row column = row' column := by
  have hrun := represents_writeBatches schemaName tableName hpromoted defaults hbatches
  have hrun' := represents_writeBatches schemaName tableName hpromoted defaults hothers
  rw [keepVersions, keepNewest_congr hdistinct hsame] at hrun
  rcases hrun.cases pubkey with ⟨hnone, hkept⟩ | ⟨row, version, hrow, hkept, hshows⟩
  · rcases hrun'.cases pubkey with ⟨hnone', _⟩ | ⟨_, _, _, hkept', _⟩
    · exact .inl ⟨hnone, hnone'⟩
    · rw [keepVersions, hkept] at hkept'
      cases hkept'
  · rcases hrun'.cases pubkey with ⟨_, hkept'⟩ | ⟨row', version', hrow', hkept', hshows'⟩
    · rw [keepVersions, hkept] at hkept'
      cases hkept'
    · rw [keepVersions, hkept] at hkept'
      cases hkept'
      exact .inr ⟨row, row', hrow, hrow', fun column hne => hshows.eq_of_ne hshows' hne⟩

end Results

/-- Account upserts keep the newest version.  After any sequence of batches each row is the
first-written version of the greatest slot, in all of its columns; the slot of a row never
decreases; and where an account has one version for a slot, the table depends on which
versions are written, and not on their order, their batches or their repetition.  A time of
write is not part of a version. -/
theorem account_upserts_keep_newest (pg : PgCasts) (schemaName : String) (table : TableDef)
    (hcolumns : (table.columns.map ColumnDef.name).Nodup) (defaults : Row pg)
    (batches : List AccountBatch) (hbatches : WellFormed batches) :
    let promoted := discoverPromotedColumns table
    let run := writeBatches schemaName table.name promoted defaults
    let written := writtenVersions pg promoted batches
    (∀ pubkey, (run batches pubkey = none ∧ versionsOf pubkey written = []) ∨
      ∃ row version, run batches pubkey = some row ∧
        FirstNewest DecodedAccount.slotUpdated (versionsOf pubkey written) version ∧
        Shows promoted defaults row version) ∧
    (∀ before after, batches = before ++ after → ∀ pubkey row, run before pubkey = some row →
      ∃ row' slot slot' , run batches pubkey = some row' ∧
        row "slot_updated" = .bigint slot ∧ row' "slot_updated" = .bigint slot' ∧
        slot ≤ slot') ∧
    ((∀ a ∈ written, ∀ b ∈ written, a.pubkey = b.pubkey → a.slotUpdated = b.slotUpdated → a = b) →
      ∀ others, WellFormed others →
        (∀ version, version ∈ written ↔ version ∈ writtenVersions pg promoted others) →
        ∀ pubkey, (run batches pubkey = none ∧ run others pubkey = none) ∨
          ∃ row row', run batches pubkey = some row ∧ run others pubkey = some row' ∧
            ∀ column, column ≠ "updated_at" → row column = row' column) := by
  have hpromoted := promotedNames_discover hcolumns
  intro promoted run written
  refine ⟨newest_of_written hpromoted hbatches, ?_, ?_⟩
  · rintro before after rfl pubkey row hrow
    exact slot_mono_of_append hpromoted hbatches hrow
  · intro hdistinct others hothers hsame pubkey
    exact agree_of_written hpromoted hbatches hothers hdistinct hsame pubkey

end Newest

/-! ### One account in three batches -/

def vaultTable : TableDef := accountTable (accountIdl "Vault" [⟨"amount", .int .u32⟩]) "s" "Vault"

def vaultVersion (pubkey : String) (slot lamports : Nat) (amount : Int) : DecodedAccount where
  pubkey := pubkey
  slotUpdated := slot
  lamports := lamports
  data := .obj [("amount", .int amount)]
  accountType := "Vault"
  programId := "prog"

def vaultBatches : List AccountBatch :=
  [⟨1, [vaultVersion "k" 5 10 1], none⟩,
    ⟨2, [vaultVersion "k" 3 20 2, vaultVersion "l" 1 7 7], none⟩,
    ⟨3, [vaultVersion "k" 5 30 3], none⟩]

theorem account_upserts_keep_newest_vault :
    ∃ row, @writeBatches .plain "s" vaultTable.name (discoverPromotedColumns vaultTable)
        (fun _ => .value .null) vaultBatches "k" = some row ∧
      row "slot_updated" = .bigint 5 ∧ row "lamports" = .bigint 10 ∧
      row "amount" = .value (.integer 1) := by
  have hbatches : WellFormed vaultBatches := by
    refine ⟨by decide, ?_⟩
    simp [vaultBatches, vaultVersion, Signed]
  obtain ⟨hnewest, _, _⟩ := account_upserts_keep_newest .plain "s" vaultTable (by decide +kernel)
    (fun _ => .value .null) vaultBatches hbatches
  have hwritten : versionsOf "k" (writtenVersions .plain (discoverPromotedColumns vaultTable)
      vaultBatches) = [vaultVersion "k" 5 10 1, vaultVersion "k" 3 20 2, vaultVersion "k" 5 30 3] :=
    rfl
  rcases hnewest "k" with ⟨_, hempty⟩ | ⟨row, version, hrow, hfirst, hshows⟩
  · rw [hwritten] at hempty
    cases hempty
  rw [hwritten] at hfirst
  have hslot : 5 ≤ version.slotUpdated := hfirst.rank_le List.mem_cons_self
  obtain ⟨older, later, hsplit, holder, _⟩ := hfirst
  have hfirst : older = [] := by
    cases older with
    | nil => rfl
    | cons head older =>
        -- the row of slot 5 in front of the newest would be an older one
        obtain ⟨rfl, hrest⟩ := List.cons.inj hsplit
        have hlt : 5 < version.slotUpdated := holder _ List.mem_cons_self
        have hmem : version ∈ [vaultVersion "k" 3 20 2, vaultVersion "k" 5 30 3] := by
          rw [hrest]
          exact List.mem_append_right _ List.mem_cons_self
        simp only [List.mem_cons, List.not_mem_nil, or_false] at hmem
        rcases hmem with rfl | rfl <;> simp [vaultVersion] at hlt
  rw [hfirst] at hsplit
  obtain ⟨rfl, _⟩ := List.cons.inj hsplit
  have hcolumn : ⟨"amount", "integer"⟩ ∈ discoverPromotedColumns vaultTable := by
    decide +kernel
  refine ⟨row, hrow, hshows.slotUpdated, hshows.lamports, ?_⟩
  exact (Option.some.inj (hshows.extracted _ hcolumn)).symm

end Solarix.Storage
