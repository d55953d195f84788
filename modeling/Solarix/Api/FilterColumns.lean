import Solarix.Api.Filters

/-!
# The columns that filters name

A filter on an instruction or an account is turned into a condition on a column.  Here the
column is looked up in the table that the schema generator creates, and what it holds is
compared with what the filter asks for.
-/

namespace Solarix.Api

open Solarix.Core
open Solarix.Storage (InstructionRecord TableDef ColumnDef Statement)

/-! ## Instructions -/

def nullableInt : Option Int → Json
  | none => .null
  | some z => .int z

def recordColumns (id : Int) (row : InstructionRecord) : List (String × Json) :=
  [("id", .int id),
    ("signature", .str row.signature),
    ("slot", .int row.slot),
    ("block_time", nullableInt row.blockTime),
    ("instruction_name", .str row.instructionName),
    ("instruction_index", .int row.instructionIndex),
    ("inner_index", nullableInt row.innerIndex),
    ("args", row.args),
    ("accounts", row.accounts),
    ("data", row.data),
    ("is_inner_ix", .bool row.isInnerIx)]

/-- The fields of an instruction that are filtered by fixed names. -/
def fixedFields (ix : DecodedInstruction) : List (String × Json) :=
  [("slot", .int (Storage.slotToI64 ix.slot)),
    ("signature", .str ix.signature),
    ("block_time", nullableInt ix.blockTime),
    ("instruction_name", .str ix.instructionName),
    ("instruction_index", .int ix.instructionIndex.toNat),
    ("is_inner_ix", .bool ix.innerIndex.isSome)]

/-- What a filter on `name` asks about: the argument of the name, if the instruction has
one, else the fixed field. -/
def filteredValue (args : List IdlField) (name : String) (ix : DecodedInstruction) :
    Option Json :=
  if name ∈ args.map IdlField.name then ix.args.field? name else (fixedFields ix).lookup name

/-- A promoted filter names a column of `_instructions` of its type, which holds in every
row what the filter asks about. -/
def InstructionColumnMatches (schema : String) (args : List IdlField) (name : String) :
    ColumnExpr → Prop
  | .promoted column pgType =>
      ∃ table, Statement.createTable table ∈ Storage.generateInstructionsTable schema ∧
        (∃ c ∈ table.columns, c.name = column ∧ pgType = some c.pgType.toSql) ∧
        ∀ id ix, (recordColumns id (Storage.decomposeInstruction ix)).lookup column =
          filteredValue args name ix
  | .jsonb _ => True

def InstructionFiltersMatch (schema : String) (args : List IdlField)
    (parsed : List ParsedFilter) (resolved : List ResolvedFilter) : Prop :=
  List.Forall₂ (fun filter resolution =>
    InstructionColumnMatches schema args filter.field resolution.columnExpr) parsed resolved

/-- The filters that are resolved to the right column: on a fixed column whose name no
argument has, and on an argument that stays in the JSON. -/
def InstructionFilterSafe (args : List IdlField) (types : List IdlTypeDef) (name : String) :
    Prop :=
  if name ∈ instructionFixedColumns.map Prod.fst then name ∉ args.map IdlField.name
  else ∀ arg, findField args name = some arg → Storage.mapIdlTypeToPg arg.ty types = none

/-- An instruction with a value in every column, whose argument `name` is `null`. -/
def nullArgument (name : String) : DecodedInstruction where
  signature := ""
  slot := 0
  blockTime := some 0
  instructionName := ""
  args := .obj [(name, .null)]
  programId := ""
  accounts := []
  instructionIndex := 0
  innerIndex := some 0

section Instructions

variable {schema name : String} {args : List IdlField} {types : List IdlTypeDef}

theorem lookup_recordColumns_ne_argument (id : Int) (name column : String) :
    (recordColumns id (Storage.decomposeInstruction (nullArgument name))).lookup column ≠
      (nullArgument name).args.field? name := by
  have hargument : (nullArgument name).args.field? name = some .null := by
    simp [nullArgument, Json.field?]
  rw [hargument]
  intro hlookup
  obtain ⟨front, back, hsplit, _⟩ := List.lookup_eq_some_iff.mp hlookup
  have hmem : (column, Json.null) ∈
      recordColumns id (Storage.decomposeInstruction (nullArgument name)) := by
    rw [hsplit]
    simp
  simp [recordColumns, Storage.decomposeInstruction, nullArgument, nullableInt] at hmem

theorem fixed_columns_of_instructions :
    ∀ column ∈ instructionFixedColumns,
      ∃ c ∈ Storage.instructionColumns,
        c.name = column.1 ∧ some column.2 = some c.pgType.toSql := by
  decide

theorem instructionColumnMatches_fixed {pgType : String}
    (hfixed : (name, pgType) ∈ instructionFixedColumns) (hargs : name ∉ args.map IdlField.name) :
    InstructionColumnMatches schema args name (.promoted name (some pgType)) := by
  refine ⟨Storage.instructionsTable schema, List.mem_cons_self,
    fixed_columns_of_instructions _ hfixed, ?_⟩
  intro id ix
  rw [filteredValue, if_neg hargs]
  simp only [instructionFixedColumns, List.mem_cons, Prod.mk.injEq, List.not_mem_nil,
    or_false] at hfixed
  rcases hfixed with ⟨rfl, rfl⟩ | ⟨rfl, rfl⟩ | ⟨rfl, rfl⟩ | ⟨rfl, rfl⟩ | ⟨rfl, rfl⟩ | ⟨rfl, rfl⟩ <;>
    rfl

theorem not_instructionColumnMatches_argument {column : String} {pgType : Option String}
    (hargs : name ∈ args.map IdlField.name) :
    ¬ InstructionColumnMatches schema args name (.promoted column pgType) := by
  rintro ⟨_, _, _, hholds⟩
  have hvalue := hholds 0 (nullArgument name)
  rw [filteredValue, if_pos hargs] at hvalue
  exact lookup_recordColumns_ne_argument 0 name column hvalue

theorem instructionColumnMatches_iff {expr : ColumnExpr}
    (h : resolveColumn args types .instructions name = .ok expr) :
    InstructionColumnMatches schema args name expr ↔ InstructionFilterSafe args types name := by
  unfold InstructionFilterSafe
  rcases resolveColumn_eq_ok h with ⟨pgType, hfixed, rfl⟩ | ⟨hfixed, arg, harg, hcases⟩
  · have hname : name ∈ instructionFixedColumns.map Prod.fst :=
      List.mem_map_of_mem (f := Prod.fst) hfixed
    rw [if_pos hname]
    constructor
    · intro hmatches hargs
      exact not_instructionColumnMatches_argument hargs hmatches
    · exact instructionColumnMatches_fixed hfixed
  · have hname : name ∉ instructionFixedColumns.map Prod.fst := hfixed
    rw [if_neg hname, harg]
    obtain ⟨hmem, hname⟩ := findField_eq_some harg
    rcases hcases with ⟨pgType, htype, rfl⟩ | ⟨htype, rfl⟩
    · have hargs : name ∈ args.map IdlField.name := hname ▸ List.mem_map_of_mem hmem
      refine iff_of_false (not_instructionColumnMatches_argument hargs) fun hsafe => ?_
      have hnone := hsafe arg rfl
      rw [htype] at hnone
      cases hnone
    · refine iff_of_true trivial ?_
      intro found hfound
      cases hfound
      exact htype

end Instructions

/-- The filters accepted for an instruction name columns that hold what they ask about if
and only if none of them is on an argument that has a column type or the name of a fixed
column. -/
theorem instruction_filters_match_iff (idl : Idl) (ix : IdlInstruction) (schema : String)
    (params : List (String × String)) (resolved : List ResolvedFilter)
    (h : resolveFilters (parseFilters params) ix.args idl.types .instructions = .ok resolved) :
    InstructionFiltersMatch schema ix.args (parseFilters params) resolved ↔
      ∀ filter ∈ parseFilters params, InstructionFilterSafe ix.args idl.types filter.field := by
  apply forall_mem_iff_of_forall₂ _ (mapM_eq_ok.mp h)
  intro filter resolution hresolution
  exact instructionColumnMatches_iff (resolveFilter_eq_ok hresolution).1

/-- `transfer(amount: u64, memo: Vec<u64>)`. -/
def transferIx : IdlInstruction where
  name := "transfer"
  discriminator := [1]
  args := [⟨"amount", .int .u64⟩, ⟨"memo", .vec (.int .u64)⟩]

def transferIdl : Idl := ⟨"program", [transferIx], [], []⟩

theorem instruction_filters_match_iff_slot :
    InstructionFiltersMatch "s" transferIx.args
      (parseFilters [("slot_gte", "5"), ("limit", "1"), ("memo", "[]")])
      [⟨.promoted "slot" (some "BIGINT"), .gte, "5"⟩, ⟨.jsonb "memo", .eq, "[]"⟩] := by
  refine (instruction_filters_match_iff transferIdl transferIx "s"
    [("slot_gte", "5"), ("limit", "1"), ("memo", "[]")] _ (by rfl)).mpr ?_
  have hparsed : parseFilters [("slot_gte", "5"), ("limit", "1"), ("memo", "[]")] =
      [⟨"slot", .gte, "5"⟩, ⟨"memo", .eq, "[]"⟩] := by decide
  rw [hparsed]
  intro parsed hmem
  simp only [List.mem_cons, List.not_mem_nil, or_false] at hmem
  rcases hmem with rfl | rfl
  · show ("slot" : String) ∉ ["amount", "memo"]
    decide
  · intro arg harg
    cases harg
    rfl

/-- The filter `amount_gt` is accepted, and `_instructions` has no column `amount`. -/
theorem instruction_filter_on_missing_column :
    resolveFilters (parseFilters [("amount_gt", "5")]) transferIx.args transferIdl.types
        .instructions = .ok [⟨.promoted "amount" (some "BIGINT"), .gt, "5"⟩] ∧
      "amount" ∉ Storage.instructionColumns.map ColumnDef.name ∧
      ¬ InstructionFiltersMatch "s" transferIx.args (parseFilters [("amount_gt", "5")])
        [⟨.promoted "amount" (some "BIGINT"), .gt, "5"⟩] := by
  refine ⟨by rfl, by decide, ?_⟩
  have hparsed : parseFilters [("amount_gt", "5")] = [⟨"amount", .gt, "5"⟩] := by decide
  rw [hparsed]
  intro hmatches
  cases hmatches with
  | cons hfilter _ =>
      exact not_instructionColumnMatches_argument (by decide) hfilter

/-! ## Accounts -/

/-- A promoted filter names a column of the account's table of its type, which is the one
made for the field, or the system column when the account has no such field. -/
def AccountColumnMatches (idl : Idl) (schema account : String) (fields : List IdlField)
    (name : String) : ColumnExpr → Prop
  | .promoted column pgType =>
      ∃ table, Storage.createdTable (Storage.buildDdlStatements idl schema)
          (Storage.sanitizeIdentifier account) = some table ∧
        ∃ c, table.column? column = some c ∧ pgType = some c.pgType.toSql ∧
          c.origin = if name ∈ fields.map IdlField.name then .field account name else .system
  | .jsonb _ => True

def AccountFiltersMatch (idl : Idl) (schema account : String) (fields : List IdlField)
    (parsed : List ParsedFilter) (resolved : List ResolvedFilter) : Prop :=
  List.Forall₂ (fun filter resolution =>
    AccountColumnMatches idl schema account fields filter.field resolution.columnExpr)
    parsed resolved

/-- The first account whose name gives the table name.  The tables `_metadata` and
`_checkpoints` are there before the accounts' tables. -/
def tableOwner (idl : Idl) (table : String) : Option String :=
  if table ∈ ["_metadata", "_checkpoints"] then none
  else (idl.accounts.find? fun account =>
    Storage.sanitizeIdentifier account.name == table).map IdlAccount.name

/-- The fields of the account for which the schema generator makes a column of the name. -/
def columnClaimants (idl : Idl) (account name : String) : List IdlField :=
  (Storage.ddlFields idl.types account).filter fun field =>
    Storage.sanitizeIdentifier field.name == name &&
      (Storage.mapIdlTypeToPg field.ty idl.types).isSome

/-- The filters that are resolved to the right column: on a fixed column whose name no
field has, on a field that stays in the JSON, and on a field whose name is no system
column's and which is the only one to get the column of this name, with the same type.  The
table must be an account's, for a field this account's. -/
def AccountFilterSafe (idl : Idl) (account : String) (fields : List IdlField) (name : String) :
    Prop :=
  if name ∈ accountFixedColumns.map Prod.fst then
    name ∉ fields.map IdlField.name ∧
      (tableOwner idl (Storage.sanitizeIdentifier account)).isSome
  else ∀ field, findField fields name = some field →
    ∀ pgType, Storage.mapIdlTypeToPg field.ty idl.types = some pgType →
      tableOwner idl (Storage.sanitizeIdentifier account) = some account ∧
        name ∉ Storage.reservedAccountColumns ∧
        ∃ claimant, columnClaimants idl account name = [claimant] ∧ claimant.name = name ∧
          Storage.mapIdlTypeToPg claimant.ty idl.types = some pgType

section Accounts

variable {idl : Idl} {schema account name : String} {fields : List IdlField}

theorem column?_eq_some {table : TableDef} {c : ColumnDef} (h : table.column? name = some c) :
    c ∈ table.columns ∧ c.name = name := by
  unfold TableDef.column? at h
  split at h
  · rename_i hfilter
    cases h
    have hmem := List.mem_filter.mp (hfilter ▸ List.mem_singleton_self c)
    exact ⟨hmem.1, by simpa using hmem.2⟩
  · cases h

theorem filter_systemColumns (name : String) :
    (name ∉ Storage.reservedAccountColumns →
      Storage.accountSystemColumns.filter (fun c => c.name == name) = []) ∧
    ∀ c ∈ Storage.accountSystemColumns,
      Storage.accountSystemColumns.filter (fun other => other.name == c.name) = [c] ∧
        c.name ∈ Storage.reservedAccountColumns ∧ c.origin = .system := by
  refine ⟨fun h => ?_, by decide⟩
  rw [List.filter_eq_nil_iff]
  intro c hc hname
  have hmem : c.name ∈ Storage.accountSystemColumns.map ColumnDef.name := List.mem_map_of_mem hc
  rw [beq_iff_eq] at hname
  rw [hname] at hmem
  exact h hmem

theorem filter_promotedColumns :
    ((Storage.ddlFields idl.types account).filterMap
        (Storage.promotedColumn account idl.types)).filter (fun c => c.name == name) =
      (columnClaimants idl account name).filterMap
        (Storage.promotedColumn account idl.types) := by
  rw [columnClaimants, List.filter_filterMap, List.filterMap_filter]
  apply List.filterMap_congr
  intro field _
  cases hcolumn : Storage.promotedColumn account idl.types field with
  | none => simp
  | some c =>
      obtain ⟨pgType, htype, _, rfl⟩ := Storage.promotedColumn_eq_some.mp hcolumn
      simp [htype, Option.filter]

/-- A name that the system columns do not have belongs to the only field that claims it. -/
theorem column?_accountTable (hreserved : name ∉ Storage.reservedAccountColumns)
    {c : ColumnDef} :
    (Storage.accountTable idl schema account).column? name = some c ↔
      ∃ claimant, columnClaimants idl account name = [claimant] ∧
        ∃ pgType, Storage.mapIdlTypeToPg claimant.ty idl.types = some pgType ∧
          c = ⟨name, pgType, "", .field account claimant.name⟩ := by
  have hclaimant : ∀ claimant ∈ columnClaimants idl account name,
      ∃ pgType, Storage.mapIdlTypeToPg claimant.ty idl.types = some pgType ∧
        Storage.promotedColumn account idl.types claimant =
          some ⟨name, pgType, "", .field account claimant.name⟩ := by
    intro claimant hmem
    obtain ⟨_, hclaims⟩ := List.mem_filter.mp hmem
    rw [Bool.and_eq_true, beq_iff_eq, Option.isSome_iff_exists] at hclaims
    obtain ⟨hname, pgType, htype⟩ := hclaims
    refine ⟨pgType, htype, Storage.promotedColumn_eq_some.mpr ⟨pgType, htype, ?_, ?_⟩⟩
    · rw [hname]
      exact hreserved
    · rw [hname]
  unfold TableDef.column? Storage.accountTable Storage.generateAccountTable
  rw [List.filter_append, (filter_systemColumns name).1 hreserved, List.nil_append,
    filter_promotedColumns]
  match hlist : columnClaimants idl account name with
  | [] => simp
  | [claimant] =>
      obtain ⟨pgType, htype, hcolumn⟩ := hclaimant claimant (by rw [hlist]; simp)
      simp [hcolumn, htype, eq_comm]
  | first :: second :: rest =>
      obtain ⟨_, _, hfirst⟩ := hclaimant first (by rw [hlist]; simp)
      obtain ⟨_, _, hsecond⟩ := hclaimant second (by rw [hlist]; simp)
      simp [hfirst, hsecond]

theorem column?_accountTable_system {c : ColumnDef} (hc : c ∈ Storage.accountSystemColumns) :
    (Storage.accountTable idl schema account).column? c.name = some c := by
  obtain ⟨hfilter, hreserved, _⟩ := (filter_systemColumns c.name).2 c hc
  have hnone : (columnClaimants idl account c.name).filterMap
      (Storage.promotedColumn account idl.types) = [] := by
    rw [List.filterMap_eq_nil_iff]
    intro field hmem
    obtain ⟨_, hclaims⟩ := List.mem_filter.mp hmem
    rw [Bool.and_eq_true, beq_iff_eq] at hclaims
    cases hcolumn : Storage.promotedColumn account idl.types field with
    | none => rfl
    | some column =>
        obtain ⟨_, _, hnot, _⟩ := Storage.promotedColumn_eq_some.mp hcolumn
        rw [hclaims.1] at hnot
        exact absurd hreserved hnot
  unfold TableDef.column? Storage.accountTable Storage.generateAccountTable
  rw [List.filter_append, hfilter, filter_promotedColumns, hnone]
  rfl

theorem fixed_columns_of_accounts :
    ∀ column ∈ accountFixedColumns, ∃ c ∈ Storage.accountSystemColumns,
      c.name = column.1 ∧ some column.2 = some c.pgType.toSql ∧ c.origin = .system := by
  decide

theorem exists_systemColumn : ∀ name ∈ Storage.reservedAccountColumns,
    ∃ c ∈ Storage.accountSystemColumns, c.name = name ∧ c.origin = .system := by
  decide

/-! ### The table under an account's name -/

theorem system_tables_columns (schema : String) :
    ∀ table ∈ [Storage.generateMetadataTable schema, Storage.generateCheckpointsTable schema],
      ∀ c ∈ table.columns, c.origin = .system ∧ c.name ∉ accountFixedColumns.map Prod.fst := by
  have hcolumns : ∀ columns ∈ [(Storage.generateMetadataTable "").columns,
      (Storage.generateCheckpointsTable "").columns],
      ∀ c ∈ columns, c.origin = .system ∧ c.name ∉ accountFixedColumns.map Prod.fst := by
    decide
  intro table htable
  simp only [List.mem_cons, List.not_mem_nil, or_false] at htable
  rcases htable with rfl | rfl
  · exact hcolumns _ List.mem_cons_self
  · exact hcolumns _ (List.mem_cons_of_mem _ List.mem_cons_self)

theorem createdTable_accounts (schema table : String) (accounts : List IdlAccount) :
    Storage.createdTable (accounts.map fun account =>
        .createTable (Storage.accountTable idl schema account.name)) table =
      (accounts.find? fun account => Storage.sanitizeIdentifier account.name == table).map
        fun account => Storage.accountTable idl schema account.name := by
  induction accounts with
  | nil => rfl
  | cons account accounts ih =>
      unfold Storage.createdTable at ih ⊢
      rw [List.map_cons, List.findSome?_cons]
      by_cases hname : Storage.sanitizeIdentifier account.name = table
      · rw [List.find?_cons_of_pos (by simpa using hname), Statement.tableOf?,
          Storage.accountTable_name, if_pos hname]
        rfl
      · rw [List.find?_cons_of_neg (by simpa using hname), Statement.tableOf?,
          Storage.accountTable_name, if_neg hname]
        exact ih

theorem createdTable_account {account : IdlAccount} (haccount : account ∈ idl.accounts) :
    (∃ owner, tableOwner idl (Storage.sanitizeIdentifier account.name) = some owner ∧
      Storage.createdTable (Storage.buildDdlStatements idl schema)
        (Storage.sanitizeIdentifier account.name) =
        some (Storage.accountTable idl schema owner)) ∨
    (tableOwner idl (Storage.sanitizeIdentifier account.name) = none ∧
      ∃ table, Storage.createdTable (Storage.buildDdlStatements idl schema)
          (Storage.sanitizeIdentifier account.name) = some table ∧
        ∀ c ∈ table.columns, c.origin = .system ∧
          c.name ∉ accountFixedColumns.map Prod.fst) := by
  generalize htable : Storage.sanitizeIdentifier account.name = table
  have hcolumns := system_tables_columns schema
  unfold tableOwner
  by_cases hsystem : table ∈ ["_metadata", "_checkpoints"]
  · refine Or.inr ⟨if_pos hsystem, ?_⟩
    rw [List.mem_pair] at hsystem
    rcases hsystem with rfl | rfl
    · exact ⟨_, rfl, hcolumns _ List.mem_cons_self⟩
    · exact ⟨_, rfl, hcolumns _ (List.mem_cons_of_mem _ List.mem_cons_self)⟩
  · refine Or.inl ?_
    rw [if_neg hsystem]
    rw [List.mem_pair, not_or] at hsystem
    obtain ⟨owner, howner⟩ : ∃ owner, (idl.accounts.find? fun account =>
        Storage.sanitizeIdentifier account.name == table) = some owner := by
      rw [← Option.isSome_iff_exists, List.find?_isSome]
      exact ⟨account, haccount, by simpa using htable⟩
    refine ⟨owner.name, by rw [howner]; rfl, ?_⟩
    have hcreated : Storage.createdTable (idl.accounts.map fun account =>
        .createTable (Storage.accountTable idl schema account.name)) table =
        some (Storage.accountTable idl schema owner.name) := by
      rw [createdTable_accounts, howner]
      rfl
    unfold Storage.buildDdlStatements Storage.createdTable at *
    rw [List.findSome?_append, List.findSome?_append, List.findSome?_append, hcreated]
    simp [List.findSome?, Statement.tableOf?, Storage.generateMetadataTable,
      Storage.generateCheckpointsTable, Ne.symm hsystem.1, Ne.symm hsystem.2]

theorem accountColumnMatches_fixed_iff {account : IdlAccount} (haccount : account ∈ idl.accounts)
    {pgType : String} (hfixed : (name, pgType) ∈ accountFixedColumns) :
    AccountColumnMatches idl schema account.name fields name (.promoted name (some pgType)) ↔
      name ∉ fields.map IdlField.name ∧
        (tableOwner idl (Storage.sanitizeIdentifier account.name)).isSome := by
  have hname : name ∈ accountFixedColumns.map Prod.fst :=
    List.mem_map_of_mem (f := Prod.fst) hfixed
  unfold AccountColumnMatches
  rcases createdTable_account haccount with
    ⟨owner, howner, hcreated⟩ | ⟨howner, table, hcreated, hcolumns⟩
  · obtain ⟨c, hc, hcname, hsql, horigin⟩ := fixed_columns_of_accounts _ hfixed
    have hcolumn : (Storage.accountTable idl schema owner).column? c.name = some c :=
      column?_accountTable_system hc
    rw [hcname] at hcolumn
    rw [hcreated, howner]
    constructor
    · rintro ⟨table, htable, found, hfound, _, hfoundOrigin⟩
      cases htable
      rw [hcolumn] at hfound
      cases hfound
      refine ⟨fun hnames => ?_, rfl⟩
      rw [if_pos hnames, horigin] at hfoundOrigin
      cases hfoundOrigin
    · rintro ⟨hnames, _⟩
      refine ⟨_, rfl, c, hcolumn, hsql, ?_⟩
      rw [if_neg hnames, horigin]
  · rw [hcreated, howner]
    refine iff_of_false ?_ fun hsafe => by simpa using hsafe.2
    rintro ⟨table, htable, c, hcolumn, _⟩
    cases htable
    obtain ⟨hc, hcname⟩ := column?_eq_some hcolumn
    exact (hcolumns c hc).2 (hcname ▸ hname)

theorem accountColumnMatches_field_iff {account : IdlAccount} (haccount : account ∈ idl.accounts)
    {field : IdlField} {pgType : Storage.PgType} (hfield : findField fields name = some field)
    (htype : Storage.mapIdlTypeToPg field.ty idl.types = some pgType) :
    AccountColumnMatches idl schema account.name fields name
        (.promoted name (some pgType.toSql)) ↔
      tableOwner idl (Storage.sanitizeIdentifier account.name) = some account.name ∧
        name ∉ Storage.reservedAccountColumns ∧
        ∃ claimant, columnClaimants idl account.name name = [claimant] ∧ claimant.name = name ∧
          Storage.mapIdlTypeToPg claimant.ty idl.types = some pgType := by
  obtain ⟨hmem, hname⟩ := findField_eq_some hfield
  have hnames : name ∈ fields.map IdlField.name := hname ▸ List.mem_map_of_mem hmem
  unfold AccountColumnMatches
  rw [if_pos hnames]
  constructor
  · rintro ⟨table, htable, c, hcolumn, hsql, horigin⟩
    -- the column was made for this account's field, so the table is not a system table
    rcases createdTable_account haccount with
      ⟨owner, howner, hcreated⟩ | ⟨_, system, hcreated, hcolumns⟩
    · rw [hcreated] at htable
      cases htable
      by_cases hreserved : name ∈ Storage.reservedAccountColumns
      · obtain ⟨system, hsystem, rfl, hnone⟩ := exists_systemColumn name hreserved
        rw [column?_accountTable_system hsystem] at hcolumn
        cases hcolumn
        rw [hnone] at horigin
        cases horigin
      · obtain ⟨claimant, hclaimants, claimed, hclaimed, rfl⟩ :=
          (column?_accountTable hreserved).mp hcolumn
        have hsame : pgType = claimed := Storage.toSql_inj_of_mem _
          (Storage.mapIdlTypeToPg_mem htype) _ (Storage.mapIdlTypeToPg_mem hclaimed)
          (Option.some.inj hsql)
        injection horigin with howns hclaims
        subst howns
        exact ⟨howner, hreserved, claimant, hclaimants, hclaims, hsame ▸ hclaimed⟩
    · rw [hcreated] at htable
      cases htable
      rw [(hcolumns c (column?_eq_some hcolumn).1).1] at horigin
      cases horigin
  · rintro ⟨howner, hreserved, claimant, hclaimants, hclaims, hclaimed⟩
    rcases createdTable_account haccount with ⟨owner, howner', hcreated⟩ | ⟨hnone, _⟩
    · rw [howner] at howner'
      cases howner'
      refine ⟨_, hcreated, _, (column?_accountTable hreserved).mpr
        ⟨claimant, hclaimants, pgType, hclaimed, rfl⟩, rfl, ?_⟩
      rw [hclaims]
    · rw [howner] at hnone
      cases hnone

theorem accountColumnMatches_iff {account : IdlAccount} (haccount : account ∈ idl.accounts)
    {expr : ColumnExpr} (h : resolveColumn fields idl.types .accounts name = .ok expr) :
    AccountColumnMatches idl schema account.name fields name expr ↔
      AccountFilterSafe idl account.name fields name := by
  unfold AccountFilterSafe
  rcases resolveColumn_eq_ok h with ⟨pgType, hfixed, rfl⟩ | ⟨hfixed, field, hfield, hcases⟩
  · have hname : name ∈ accountFixedColumns.map Prod.fst :=
      List.mem_map_of_mem (f := Prod.fst) hfixed
    rw [if_pos hname]
    exact accountColumnMatches_fixed_iff haccount hfixed
  · have hname : name ∉ accountFixedColumns.map Prod.fst := hfixed
    rw [if_neg hname, hfield]
    rcases hcases with ⟨pgType, htype, rfl⟩ | ⟨htype, rfl⟩
    · rw [accountColumnMatches_field_iff haccount hfield htype]
      simp [htype]
    · refine iff_of_true trivial ?_
      intro found hfound pgType hpgType
      cases hfound
      rw [htype] at hpgType
      cases hpgType

end Accounts

/-- The filters accepted for an account type name columns made for their fields if and only
if each of them is safe. -/
theorem account_filters_match_iff (idl : Idl) (account : IdlAccount)
    (haccount : account ∈ idl.accounts) (schema : String) (params : List (String × String))
    (fields : List IdlField) (resolved : List ResolvedFilter)
    (h : resolveAccountFilters idl account.name params = .ok (fields, resolved)) :
    AccountFiltersMatch idl schema account.name fields (parseFilters params) resolved ↔
      ∀ filter ∈ parseFilters params,
        AccountFilterSafe idl account.name fields filter.field := by
  obtain ⟨fields', _, h⟩ := bind_eq_ok_iff.mp h
  obtain ⟨resolved', hresolved, h⟩ := bind_eq_ok_iff.mp h
  cases h
  apply forall_mem_iff_of_forall₂ _ (mapM_eq_ok.mp hresolved)
  intro filter resolution hresolution
  exact accountColumnMatches_iff haccount (resolveFilter_eq_ok hresolution).1

def poolAccount : IdlAccount := ⟨"Pool", [1]⟩

/-- `Pool { amount: u64, maxBid: u64 }`. -/
def poolFields : List IdlField := [⟨"amount", .int .u64⟩, ⟨"maxBid", .int .u64⟩]

def poolIdl : Idl where
  address := "program"
  instructions := []
  accounts := [poolAccount]
  types := [⟨"Pool", .borsh, [], .struct (some (.named poolFields))⟩]

theorem account_filters_match_iff_amount :
    AccountFiltersMatch poolIdl "s" "Pool" poolFields
      (parseFilters [("amount_gt", "5"), ("lamports", "1")])
      [⟨.promoted "amount" (some "BIGINT"), .gt, "5"⟩,
        ⟨.promoted "lamports" (some "BIGINT"), .eq, "1"⟩] := by
  refine (account_filters_match_iff poolIdl poolAccount List.mem_cons_self "s"
    [("amount_gt", "5"), ("lamports", "1")] _ _ (by rfl)).mpr ?_
  have hparsed : parseFilters [("amount_gt", "5"), ("lamports", "1")] =
      [⟨"amount", .gt, "5"⟩, ⟨"lamports", .eq, "1"⟩] := by decide
  rw [hparsed]
  intro filter hmem
  simp only [List.mem_cons, List.not_mem_nil, or_false] at hmem
  rcases hmem with rfl | rfl
  · intro field hfield pgType htype
    cases hfield
    cases htype
    exact ⟨by rfl, by decide, ⟨"amount", .int .u64⟩, by rfl, rfl, rfl⟩
  · show ("lamports" : String) ∉ ["amount", "maxBid"] ∧ (tableOwner poolIdl "pool").isSome
    decide

/-- The filter `maxBid_gt` is accepted, and the column of the field is `maxbid`. -/
theorem account_filter_on_raw_name :
    resolveAccountFilters poolIdl "Pool" [("maxBid_gt", "5")] =
        .ok (poolFields, [⟨.promoted "maxBid" (some "BIGINT"), .gt, "5"⟩]) ∧
      Storage.createdTable (Storage.buildDdlStatements poolIdl "s")
        (Storage.sanitizeIdentifier "Pool") = some (Storage.accountTable poolIdl "s" "Pool") ∧
      (Storage.accountTable poolIdl "s" "Pool").column? "maxBid" = none ∧
      (Storage.accountTable poolIdl "s" "Pool").column? "maxbid" =
        some ⟨"maxbid", .bigint, "", .field "Pool" "maxBid"⟩ ∧
      ¬ AccountFiltersMatch poolIdl "s" "Pool" poolFields (parseFilters [("maxBid_gt", "5")])
        [⟨.promoted "maxBid" (some "BIGINT"), .gt, "5"⟩] := by
  have hcolumn : (Storage.accountTable poolIdl "s" "Pool").column? "maxBid" = none := by rfl
  have hcreated : Storage.createdTable (Storage.buildDdlStatements poolIdl "s")
      (Storage.sanitizeIdentifier "Pool") = some (Storage.accountTable poolIdl "s" "Pool") := by
    rfl
  refine ⟨by rfl, hcreated, hcolumn, by rfl, ?_⟩
  have hparsed : parseFilters [("maxBid_gt", "5")] = [⟨"maxBid", .gt, "5"⟩] := by decide
  rw [hparsed]
  intro hmatches
  cases hmatches with
  | cons hfilter _ =>
      obtain ⟨table, htable, c, hc, _⟩ := hfilter
      rw [hcreated] at htable
      cases htable
      rw [hcolumn] at hc
      cases hc

end Solarix.Api
