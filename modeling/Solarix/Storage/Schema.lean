import Mathlib.Data.List.Basic
import Solarix.Core.Unicode
import Solarix.Idl

/-!
# From the IDL to the tables

`storage/schema.rs`: the identifiers, the PostgreSQL types of promoted fields and the DDL
statements of a program's schema.  A statement keeps its parts; `toSql` is its text.
-/

namespace Solarix.Storage

open Solarix.Core

/-! ## Identifiers -/

def sanitizeIdentifier (name : String) : String :=
  let sanitized := (name.toList.filter fun c => c.isAlphanum || c == '_').map Char.toLower
  let sanitized := if sanitized.head?.any Char.isDigit then '_' :: sanitized else sanitized
  let sanitized := if sanitized.isEmpty then "_unnamed".toList else sanitized
  truncateToBytes (String.ofList sanitized) 63

/-- The sanitised name of the IDL and the first eight characters of the program id. -/
def deriveSchemaName (idlName programId : String) : String :=
  let idPrefix := Core.toLowercase (String.ofList (programId.toList.take 8))
  let maxNameLen := 63 - 1 - idPrefix.utf8ByteSize
  truncateToBytes (sanitizeIdentifier idlName) maxNameLen ++ "_" ++ idPrefix

/-- A double-quoted identifier, with the quotes inside it doubled. -/
def quoteIdent (name : String) : String :=
  "\"" ++ String.ofList (name.toList.flatMap fun c => if c = '"' then [c, c] else [c]) ++ "\""

/-- `{schema}.{table}`, both quoted. -/
def qualify (schema table : String) : String := quoteIdent schema ++ "." ++ quoteIdent table

/-! ## Column types -/

inductive PgType where
  | boolean
  | smallint
  | integer
  | bigint
  | real
  | doublePrecision
  | numeric (precision : Nat)
  | text
  | bytea
  | bigserial
  | jsonb
  | timestamptz
  | varchar (length : Nat)
  deriving DecidableEq, Repr

def PgType.toSql : PgType → String
  | .boolean => "BOOLEAN"
  | .smallint => "SMALLINT"
  | .integer => "INTEGER"
  | .bigint => "BIGINT"
  | .real => "REAL"
  | .doublePrecision => "DOUBLE PRECISION"
  | .numeric precision => s!"NUMERIC({precision},0)"
  | .text => "TEXT"
  | .bytea => "BYTEA"
  | .bigserial => "BIGSERIAL"
  | .jsonb => "JSONB"
  | .timestamptz => "TIMESTAMPTZ"
  | .varchar length => s!"VARCHAR({length})"

def intTypeToPg : IntType → PgType
  | .u8 | .i8 => .smallint
  | .u16 => .integer
  | .i16 => .smallint
  | .u32 | .i32 => .integer
  | .u64 | .i64 => .bigint
  | .u128 | .i128 => .numeric 39

mutual

/-- `map_idl_type_to_pg_inner` at depth `17 - fuel`. -/
def mapIdlTypeToPgInner (types : List IdlTypeDef) : Nat → IdlType → Option PgType
  | 0, _ => none
  | fuel + 1, ty =>
      match ty with
      | .bool => some .boolean
      | .int t => some (intTypeToPg t)
      | .f32 => some .real
      | .f64 => some .doublePrecision
      | .u256 | .i256 => some (.numeric 78)
      | .string => some .text
      | .pubkey => some .text
      | .bytes => some .bytea
      | .option inner => mapIdlTypeToPgInner types fuel inner
      | .array (.int .u8) _ => some .bytea
      | .array _ _ => none
      | .vec _ => none
      | .defined name _ => resolveDefinedType types fuel name
      | .generic _ => none

/-- `resolve_defined_type` at depth `17 - fuel`.  The first definition of the name counts. -/
def resolveDefinedType (types : List IdlTypeDef) : Nat → String → Option PgType
  | 0, _ => none
  | fuel + 1, name =>
      match types.find? (fun td => td.name == name) with
      | none => none
      | some typeDef =>
          match typeDef.ty with
          | .type aliased => mapIdlTypeToPgInner types fuel aliased
          | .struct _ | .enum _ => none

end

def maxTypeResolutionDepth : Nat := 16

/-- The column type of a promoted field, `none` for one that stays in `data`. -/
def mapIdlTypeToPg (ty : IdlType) (types : List IdlTypeDef) : Option PgType :=
  mapIdlTypeToPgInner types (maxTypeResolutionDepth + 1) ty

def promotedTypes : List PgType :=
  [.boolean, .smallint, .integer, .bigint, .real, .doublePrecision, .numeric 39, .numeric 78,
    .text, .bytea]

theorem intTypeToPg_mem (t : IntType) : intTypeToPg t ∈ promotedTypes := by
  cases t <;> decide

theorem mapIdlTypeToPgInner_mem (types : List IdlTypeDef) (fuel : Nat) :
    (∀ ty pgType, mapIdlTypeToPgInner types fuel ty = some pgType → pgType ∈ promotedTypes) ∧
      ∀ name pgType, resolveDefinedType types fuel name = some pgType →
        pgType ∈ promotedTypes := by
  induction fuel with
  | zero =>
      constructor
      · intro ty pgType h
        cases h
      · intro name pgType h
        cases h
  | succ fuel ih =>
      constructor
      · intro ty pgType h
        cases ty with
        | int t =>
            cases h
            exact intTypeToPg_mem t
        | option inner => exact ih.1 inner pgType h
        | defined name generics => exact ih.2 name pgType h
        | array inner len =>
            rcases inner with _ | t
            case int =>
              cases t <;> cases h
              decide
            all_goals cases h
        | vec inner => cases h
        | generic name => cases h
        | _ =>
            cases h
            decide
      · intro name pgType h
        unfold resolveDefinedType at h
        split at h
        · cases h
        · split at h
          · exact ih.1 _ pgType h
          · cases h
          · cases h

theorem mapIdlTypeToPg_mem {ty : IdlType} {types : List IdlTypeDef} {pgType : PgType}
    (h : mapIdlTypeToPg ty types = some pgType) : pgType ∈ promotedTypes :=
  (mapIdlTypeToPgInner_mem types _).1 ty pgType h

theorem toSql_inj_of_mem : ∀ a ∈ promotedTypes, ∀ b ∈ promotedTypes,
    a.toSql = b.toSql → a = b := by
  decide

/-! ## Statements -/

inductive ColumnOrigin where
  | system
  | field (account name : String)
  deriving DecidableEq, Repr

structure ColumnDef where
  name : String
  pgType : PgType
  constraint : String
  origin : ColumnOrigin
  deriving DecidableEq, Repr

def ColumnDef.toSql (column : ColumnDef) : String :=
  "    " ++ quoteIdent column.name ++ " " ++ column.pgType.toSql ++ column.constraint

def systemColumn (name : String) (pgType : PgType) (constraint : String) : ColumnDef where
  name := name
  pgType := pgType
  constraint := constraint
  origin := .system

structure TableDef where
  schema : String
  name : String
  columns : List ColumnDef

/-- The column of a name.  PostgreSQL refuses a table that gives a name twice. -/
def TableDef.column? (table : TableDef) (name : String) : Option ColumnDef :=
  match table.columns.filter fun column => column.name == name with
  | [column] => some column
  | _ => none

def TableDef.toSql (table : TableDef) : String :=
  s!"CREATE TABLE IF NOT EXISTS {qualify table.schema table.name} (\n" ++
    ",\n".intercalate (table.columns.map ColumnDef.toSql) ++ "\n);"

inductive IndexKey where
  | column (name : String)
  | coalesced (name : String)
  | jsonbPathOps (name : String)

def IndexKey.toSql : IndexKey → String
  | .column name => quoteIdent name
  | .coalesced name => s!"COALESCE({quoteIdent name}, -1)"
  | .jsonbPathOps name => quoteIdent name ++ " jsonb_path_ops"

structure IndexDef where
  schema : String
  table : String
  name : String
  isUnique : Bool
  isGin : Bool
  keys : List IndexKey

def IndexDef.toSql (index : IndexDef) : String :=
  (if index.isUnique then "CREATE UNIQUE INDEX" else "CREATE INDEX") ++
    s!" IF NOT EXISTS {quoteIdent index.name} ON {qualify index.schema index.table}" ++
    (if index.isGin then " USING gin" else "") ++
    " (" ++ ", ".intercalate (index.keys.map IndexKey.toSql) ++ ");"

inductive Statement where
  | createSchema (schema : String)
  | createTable (table : TableDef)
  | createIndex (index : IndexDef)

def Statement.toSql : Statement → String
  | .createSchema schema => s!"CREATE SCHEMA IF NOT EXISTS {quoteIdent schema};"
  | .createTable table => table.toSql
  | .createIndex index => index.toSql

/-! ## Account tables -/

def reservedAccountColumns : List String :=
  ["pubkey", "slot_updated", "write_version", "lamports", "data", "is_closed", "updated_at"]

def accountSystemColumns : List ColumnDef :=
  [systemColumn "pubkey" .text " PRIMARY KEY",
    systemColumn "slot_updated" .bigint " NOT NULL",
    systemColumn "write_version" .bigint " NOT NULL DEFAULT 0",
    systemColumn "lamports" .bigint " NOT NULL",
    systemColumn "data" .jsonb " NOT NULL",
    systemColumn "is_closed" .boolean " NOT NULL DEFAULT FALSE",
    systemColumn "updated_at" .timestamptz " NOT NULL DEFAULT NOW()"]

def promotedColumn (accountName : String) (types : List IdlTypeDef) (field : IdlField) :
    Option ColumnDef :=
  match mapIdlTypeToPg field.ty types with
  | none => none
  | some pgType =>
      let columnName := sanitizeIdentifier field.name
      if reservedAccountColumns.contains columnName then none
      else some ⟨columnName, pgType, "", .field accountName field.name⟩

theorem promotedColumn_eq_some {account : String} {types : List IdlTypeDef} {field : IdlField}
    {c : ColumnDef} :
    promotedColumn account types field = some c ↔
      ∃ pgType, mapIdlTypeToPg field.ty types = some pgType ∧
        sanitizeIdentifier field.name ∉ reservedAccountColumns ∧
        c = ⟨sanitizeIdentifier field.name, pgType, "", .field account field.name⟩ := by
  unfold promotedColumn
  cases mapIdlTypeToPg field.ty types with
  | none => simp
  | some pgType => simp [eq_comm]

def generateAccountTable (schema accountName : String) (fields : List IdlField)
    (types : List IdlTypeDef) : TableDef where
  schema := schema
  name := sanitizeIdentifier accountName
  columns := accountSystemColumns ++ fields.filterMap (promotedColumn accountName types)

/-! ## System tables -/

def instructionColumns : List ColumnDef :=
  [systemColumn "id" .bigserial " PRIMARY KEY",
    systemColumn "signature" .text " NOT NULL",
    systemColumn "slot" .bigint " NOT NULL",
    systemColumn "block_time" .bigint "",
    systemColumn "instruction_name" .text " NOT NULL",
    systemColumn "instruction_index" .smallint " NOT NULL",
    systemColumn "inner_index" .smallint "",
    systemColumn "args" .jsonb " NOT NULL",
    systemColumn "accounts" .jsonb " NOT NULL",
    systemColumn "data" .jsonb " NOT NULL",
    systemColumn "is_inner_ix" .boolean " NOT NULL DEFAULT FALSE"]

def instructionsTable (schema : String) : TableDef where
  schema := schema
  name := "_instructions"
  columns := instructionColumns

def generateInstructionsTable (schema : String) : List Statement :=
  [.createTable (instructionsTable schema),
    .createIndex
      { schema := schema
        table := "_instructions"
        name := "uq__instructions_sig_idx"
        isUnique := true
        isGin := false
        keys := [.column "signature", .column "instruction_index", .coalesced "inner_index"] }]

def generateMetadataTable (schema : String) : TableDef where
  schema := schema
  name := "_metadata"
  columns := [systemColumn "key" .text " PRIMARY KEY", systemColumn "value" .jsonb " NOT NULL"]

def generateCheckpointsTable (schema : String) : TableDef where
  schema := schema
  name := "_checkpoints"
  columns :=
    [systemColumn "stream" .text " PRIMARY KEY",
      systemColumn "last_slot" .bigint "",
      systemColumn "last_signature" (.varchar 88) "",
      systemColumn "updated_at" .timestamptz " NOT NULL DEFAULT NOW()"]

/-! ## Indexes -/

def btreeIndex (schema table column : String) : Statement :=
  .createIndex
    { schema := schema
      table := table
      name := s!"idx_{table}_{column}"
      isUnique := false
      isGin := false
      keys := [.column column] }

def ginIndex (schema table column : String) : Statement :=
  .createIndex
    { schema := schema
      table := table
      name := s!"gin_{table}_{column}"
      isUnique := false
      isGin := true
      keys := [.jsonbPathOps column] }

def generateIndexes (schema : String) (accountNames : List String) : List Statement :=
  (accountNames.flatMap fun name =>
    [btreeIndex schema (sanitizeIdentifier name) "slot_updated",
      ginIndex schema (sanitizeIdentifier name) "data"]) ++
  [btreeIndex schema "_instructions" "slot",
    btreeIndex schema "_instructions" "signature",
    btreeIndex schema "_instructions" "instruction_name",
    btreeIndex schema "_instructions" "block_time",
    ginIndex schema "_instructions" "data",
    ginIndex schema "_instructions" "args"]

/-! ## The whole schema -/

/-- `type_map.get(name)`: the map keeps the last definition of a name. -/
def lastTypeDef (types : List IdlTypeDef) (name : String) : Option IdlTypeDef :=
  types.reverse.find? fun td => td.name == name

/-- The named fields of the account's type, none for another kind of type. -/
def ddlFields (types : List IdlTypeDef) (accountName : String) : List IdlField :=
  match lastTypeDef types accountName with
  | some typeDef =>
      match typeDef.ty with
      | .struct (some (.named fields)) => fields
      | _ => []
  | none => []

def accountTable (idl : Idl) (schemaName accountName : String) : TableDef :=
  generateAccountTable schemaName accountName (ddlFields idl.types accountName) idl.types

@[simp] theorem accountTable_name (idl : Idl) (schemaName accountName : String) :
    (accountTable idl schemaName accountName).name = sanitizeIdentifier accountName := rfl

def buildDdlStatements (idl : Idl) (schemaName : String) : List Statement :=
  [.createSchema schemaName,
    .createTable (generateMetadataTable schemaName),
    .createTable (generateCheckpointsTable schemaName)] ++
  idl.accounts.map (fun account => .createTable (accountTable idl schemaName account.name)) ++
  generateInstructionsTable schemaName ++
  generateIndexes schemaName (idl.accounts.map IdlAccount.name)

def Statement.tableOf? (name : String) : Statement → Option TableDef
  | .createTable table => if table.name = name then some table else none
  | _ => none

/-- The table that a list of statements leaves under a name.  With `IF NOT EXISTS` the
first statement for the name counts. -/
def createdTable (statements : List Statement) (name : String) : Option TableDef :=
  statements.findSome? (Statement.tableOf? name)

def ddlBatch (idl : Idl) (schemaName : String) : String :=
  "\n".intercalate ((buildDdlStatements idl schemaName).map Statement.toSql)

end Solarix.Storage
