import Mathlib.Data.List.Nodup
import Solarix.Json
import Solarix.Storage.Schema

/-!
# Promoted columns

What the writer fills a promoted column with.  It finds the columns of an account table in
`information_schema` and extracts the value of each from the account's JSON, under the
column's name.
-/

namespace Solarix.Storage

/-- The name of a type in `information_schema.columns.data_type`. -/
def PgType.dataType : PgType → String
  | .boolean => "boolean"
  | .smallint => "smallint"
  | .integer => "integer"
  | .bigint => "bigint"
  | .real => "real"
  | .doublePrecision => "double precision"
  | .numeric _ => "numeric"
  | .text => "text"
  | .bytea => "bytea"
  | .bigserial => "bigint"
  | .jsonb => "jsonb"
  | .timestamptz => "timestamp with time zone"
  | .varchar _ => "character varying"

structure PromotedColumn where
  columnName : String
  dataType : String
  deriving DecidableEq, Repr

def PromotedColumn.ofColumn (column : ColumnDef) : PromotedColumn :=
  ⟨column.name, column.pgType.dataType⟩

def commonAccountColumns : List String :=
  ["pubkey", "slot_updated", "write_version", "lamports", "data", "is_closed", "updated_at"]

/-- `discover_promoted_columns`, on the table that the query finds. -/
def discoverPromotedColumns (table : TableDef) : List PromotedColumn :=
  (table.columns.filter fun column => !commonAccountColumns.contains column.name).map .ofColumn

/-! ## Extraction -/

inductive CastType where
  | boolean
  | smallint
  | integer
  | bigint
  | real
  | doublePrecision
  | numeric
  deriving DecidableEq, Repr

def CastType.toSql : CastType → String
  | .boolean => "BOOLEAN"
  | .smallint => "SMALLINT"
  | .integer => "INTEGER"
  | .bigint => "BIGINT"
  | .real => "REAL"
  | .doublePrecision => "DOUBLE PRECISION"
  | .numeric => "NUMERIC"

/-- The expression for a column: the text under a key of `data`, a cast of it, the cast
guarded against numbers above `i64::MAX`, or nothing. -/
inductive ExtractExpr where
  | text (key : String)
  | cast (key : String) (ty : CastType)
  | guardedBigint (key : String)
  | null
  deriving DecidableEq, Repr

/-- `data->>'{key}'`, with the quotes of the key doubled. -/
def jsonExtract (key : String) : String :=
  "data->>'" ++ String.ofList (key.toList.flatMap fun c => if c = '\'' then [c, c] else [c]) ++
    "'"

def ExtractExpr.toSql : ExtractExpr → String
  | .text key => jsonExtract key
  | .cast key ty => s!"({jsonExtract key})::{ty.toSql}"
  | .guardedBigint key =>
      s!"CASE WHEN ({jsonExtract key})::NUMERIC > 9223372036854775807 " ++
        s!"THEN NULL ELSE ({jsonExtract key})::BIGINT END"
  | .null => "NULL"

def buildPromotedExtractExpr (column : PromotedColumn) : ExtractExpr :=
  match column.dataType with
  | "bigint" => .guardedBigint column.columnName
  | "integer" => .cast column.columnName .integer
  | "smallint" => .cast column.columnName .smallint
  | "boolean" => .cast column.columnName .boolean
  | "text" | "character varying" => .text column.columnName
  | "double precision" => .cast column.columnName .doublePrecision
  | "real" => .cast column.columnName .real
  | "numeric" => .cast column.columnName .numeric
  -- the extraction of BYTEA is left out
  | _ => .null

def ExtractExpr.key? : ExtractExpr → Option String
  | .text key => some key
  | .cast key _ => some key
  | .guardedBigint key => some key
  | .null => none

/-! ## Account tables -/

section Account

variable {idl : Idl} {schema account : String}

theorem discoverPromotedColumns_accountTable (idl : Idl) (schema account : String) :
    discoverPromotedColumns (accountTable idl schema account) =
      ((ddlFields idl.types account).filterMap (promotedColumn account idl.types)).map
        .ofColumn := by
  have hsystem : accountSystemColumns.filter
      (fun column => !commonAccountColumns.contains column.name) = [] := by decide
  unfold discoverPromotedColumns accountTable generateAccountTable
  simp only
  rw [List.filter_append, hsystem, List.nil_append, List.filter_eq_self.mpr]
  intro column hcolumn
  obtain ⟨field, _, hfield⟩ := List.mem_filterMap.mp hcolumn
  obtain ⟨_, _, hreserved, rfl⟩ := promotedColumn_eq_some.mp hfield
  have hcommon : sanitizeIdentifier field.name ∉ commonAccountColumns := hreserved
  simpa using hcommon

end Account

/-! ## Keys -/

/-- In every object that the decoder makes of the fields, the value of the field at place
`i` stands under the key. -/
def StoredUnder (fields : List IdlField) (i : Nat) (key : String) : Prop :=
  ∀ vals : List Json, vals.length = fields.length →
    (Json.ofEntries ((fields.map IdlField.name).zip vals)).field? key = vals[i]?

/-- The expression for the column of the field at place `i` reads the field's own key and
no other field's. -/
def KeyFaithful (fields : List IdlField) (i : Nat) (column : ColumnDef) : Prop :=
  ∀ key, (buildPromotedExtractExpr (.ofColumn column)).key? = some key →
    StoredUnder fields i key ∧
      ∀ (j : Nat) (other : IdlField), fields[j]? = some other → j ≠ i → other.name ≠ key

section Keys

variable {fields : List IdlField} {field : IdlField} {i : Nat} {key : String}

theorem storedUnder_iff (hdistinct : (fields.map IdlField.name).Nodup)
    (hfield : fields[i]? = some field) : StoredUnder fields i key ↔ key = field.name := by
  obtain ⟨hi, rfl⟩ := List.getElem?_eq_some_iff.mp hfield
  constructor
  · intro hstored
    -- the object whose only `true` is the field's
    have hvals := hstored ((List.range fields.length).map fun j => .bool (decide (j = i)))
      (by simp)
    rw [Json.field?_ofEntries] at hvals
    have hat : ((List.range fields.length).map fun j => Json.bool (decide (j = i)))[i]? =
        some (.bool true) := by simp [hi]
    rw [hat] at hvals
    obtain ⟨entry, hfound, hentry⟩ := Option.map_eq_some_iff.mp hvals
    have hkey : entry.1 = key := by simpa using List.find?_some hfound
    obtain ⟨j, hj, hzip⟩ := List.mem_iff_getElem.mp
      (List.mem_reverse.mp (List.mem_of_find?_eq_some hfound))
    rw [List.getElem_zip] at hzip
    simp only [List.getElem_map, List.getElem_range] at hzip
    subst hzip
    obtain rfl : j = i := by simpa using hentry
    exact hkey.symm
  · rintro rfl vals hlength
    have hlookup := @Json.field?_ofEntries_zip _ hdistinct vals (by simp [hlength]) i
      (by simpa using hi)
    rw [List.getElem_map] at hlookup
    exact hlookup

theorem key?_promotedColumn {account : String} {types : List IdlTypeDef} {column : ColumnDef}
    (h : promotedColumn account types field = some column) :
    (buildPromotedExtractExpr (.ofColumn column)).key? =
      if column.pgType = .bytea then none else some (sanitizeIdentifier field.name) := by
  obtain ⟨pgType, htype, _, rfl⟩ := promotedColumn_eq_some.mp h
  have hmem := mapIdlTypeToPg_mem htype
  simp only [promotedTypes, List.mem_cons, List.not_mem_nil, or_false] at hmem
  rcases hmem with rfl | rfl | rfl | rfl | rfl | rfl | rfl | rfl | rfl | rfl <;> rfl

theorem keyFaithful_iff (hdistinct : (fields.map IdlField.name).Nodup)
    (hfield : fields[i]? = some field) {account : String} {types : List IdlTypeDef}
    {column : ColumnDef} (hcolumn : promotedColumn account types field = some column) :
    KeyFaithful fields i column ↔
      column.pgType = .bytea ∨ sanitizeIdentifier field.name = field.name := by
  unfold KeyFaithful
  rw [key?_promotedColumn hcolumn]
  split
  · rename_i hbytea
    exact iff_of_true (fun key hkey => by cases hkey) (Or.inl hbytea)
  · rename_i hbytea
    constructor
    · intro hfaithful
      obtain ⟨hstored, _⟩ := hfaithful _ rfl
      exact Or.inr ((storedUnder_iff hdistinct hfield).mp hstored)
    · rintro (hb | hname) key hkey
      · exact absurd hb hbytea
      · have hkey := (Option.some.inj hkey).symm.trans hname
        refine ⟨(storedUnder_iff hdistinct hfield).mpr hkey, ?_⟩
        intro j other hother hne heq
        obtain ⟨hj, rfl⟩ := List.getElem?_eq_some_iff.mp hother
        obtain ⟨hi, rfl⟩ := List.getElem?_eq_some_iff.mp hfield
        have hj' : j < (fields.map IdlField.name).length := by simpa using hj
        have hi' : i < (fields.map IdlField.name).length := by simpa using hi
        have hsame : (fields.map IdlField.name)[j] = (fields.map IdlField.name)[i] := by
          simpa using heq.trans hkey
        exact hne (hdistinct.getElem_inj_iff.mp hsame)

end Keys

/-- The writer finds every promoted column of the account's table and reads it under the
key of the field it was made for. -/
def PromotedKeysFaithful (idl : Idl) (schema account : String) : Prop :=
  ∀ (i : Nat) (field : IdlField) (column : ColumnDef),
    (ddlFields idl.types account)[i]? = some field →
    promotedColumn account idl.types field = some column →
    .ofColumn column ∈ discoverPromotedColumns (accountTable idl schema account) ∧
      KeyFaithful (ddlFields idl.types account) i column

/-- The writer fills the promoted columns of an account type from the fields they were made
for if and only if, `BYTEA` columns apart, the names of these fields are already
sanitised. -/
theorem promoted_keys_faithful_iff (idl : Idl) (schema account : String)
    (hdistinct : ((ddlFields idl.types account).map IdlField.name).Nodup) :
    PromotedKeysFaithful idl schema account ↔
      ∀ field ∈ ddlFields idl.types account, ∀ column,
        promotedColumn account idl.types field = some column →
        column.pgType = .bytea ∨ sanitizeIdentifier field.name = field.name := by
  constructor
  · intro hfaithful field hmem column hcolumn
    obtain ⟨i, hi⟩ := List.mem_iff_getElem?.mp hmem
    exact (keyFaithful_iff hdistinct hi hcolumn).mp (hfaithful i field column hi hcolumn).2
  · intro hnames i field column hi hcolumn
    have hmem := List.mem_of_getElem? hi
    refine ⟨?_, (keyFaithful_iff hdistinct hi hcolumn).mpr (hnames field hmem column hcolumn)⟩
    rw [discoverPromotedColumns_accountTable]
    exact List.mem_map_of_mem (List.mem_filterMap.mpr ⟨field, hmem, hcolumn⟩)

def accountIdl (account : String) (fields : List IdlField) : Idl where
  address := "prog"
  instructions := []
  accounts := [⟨account, [1]⟩]
  types := [⟨account, .borsh, [], .struct (some (.named fields))⟩]

def poolFields : List IdlField :=
  [⟨"amount", .int .u64⟩, ⟨"salt", .bytes⟩, ⟨"bids", .vec .pubkey⟩]

theorem promoted_keys_faithful_iff_pool :
    PromotedKeysFaithful (accountIdl "Pool" poolFields) "s" "Pool" := by
  refine (promoted_keys_faithful_iff _ "s" "Pool" (by decide)).mpr ?_
  intro field hmem column hcolumn
  have hfields : ddlFields (accountIdl "Pool" poolFields).types "Pool" = poolFields := by rfl
  rw [hfields] at hmem
  simp only [poolFields, List.mem_cons, List.not_mem_nil, or_false] at hmem
  rcases hmem with rfl | rfl | rfl
  · exact Or.inr (by decide)
  · obtain rfl := Option.some.inj hcolumn
    exact Or.inl rfl
  · cases hcolumn

/-- The column of `maxBid` is read under a key that no object of the fields has. -/
theorem promoted_key_of_upper_case :
    buildPromotedExtractExpr ⟨"maxbid", "bigint"⟩ = .guardedBigint "maxbid" ∧
      (Json.ofEntries [("maxBid", .int 5)]).field? "maxbid" = none ∧
      ¬ PromotedKeysFaithful (accountIdl "Pool" [⟨"maxBid", .int .u64⟩]) "s" "Pool" := by
  refine ⟨by decide, by rfl, ?_⟩
  intro hfaithful
  have hcolumn : promotedColumn "Pool" (accountIdl "Pool" [⟨"maxBid", .int .u64⟩]).types
      ⟨"maxBid", .int .u64⟩ = some ⟨"maxbid", .bigint, "", .field "Pool" "maxBid"⟩ := by rfl
  have hkeys := (hfaithful 0 _ _ (by rfl) hcolumn).2
  have hcases := (keyFaithful_iff (by decide) (by rfl) hcolumn).mp hkeys
  revert hcases
  decide

end Solarix.Storage
