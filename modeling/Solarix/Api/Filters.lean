import Solarix.Core.Text
import Solarix.Core.Traverse
import Solarix.Storage.Schema
import Solarix.Storage.Writer

/-!
# Filters

`api/filters.rs`: query parameters become filters, and filters are resolved against the
fields of the IDL.  What a resolved filter names is compared with the tables that the
schema generator creates.
-/

namespace Solarix.Api

open Solarix.Core

inductive ApiError where
  | invalidFilter (message : String) (availableFields : List String)
  | programNotFound (programId : String)
  | programAlreadyRegistered (programId : String)
  | queryFailed (message : String)
  | invalidRequest (message : String)
  | idlError (message : String)
  | invalidValue (message : String)
  | instructionNotFound (name : String)
  | accountTypeNotFound (name : String)
  | accountNotFound (pubkey : String)
  | storageError (message : String)
  deriving DecidableEq, Repr

/-! ## Parsing -/

inductive FilterOp where
  | eq | ne | gt | gte | lt | lte | contains | inList
  deriving DecidableEq, Repr

/-- Longer suffixes come first. -/
def operatorSuffixes : List (String × FilterOp) :=
  [("_contains", .contains), ("_gte", .gte), ("_lte", .lte), ("_gt", .gt), ("_lt", .lt),
    ("_eq", .eq), ("_ne", .ne), ("_in", .inList)]

def reservedParams : List String := ["limit", "offset", "cursor", "sort", "order"]

structure ParsedFilter where
  field : String
  op : FilterOp
  value : String
  deriving DecidableEq, Repr

/-- The loop of `extract_field_and_op` over the suffixes that are left. -/
def extractFrom (key : String) : List (String × FilterOp) → String × FilterOp
  | [] => (key, .eq)
  | (suffix, op) :: rest =>
      match stripSuffix suffix key with
      | some field => if field.isEmpty then extractFrom key rest else (field, op)
      | none => extractFrom key rest

def extractFieldAndOp (key : String) : String × FilterOp := extractFrom key operatorSuffixes

/-- `parse_filters`, over the parameters in the order in which the map yields them. -/
def parseFilters (params : List (String × String)) : List ParsedFilter :=
  params.filterMap fun (key, value) =>
    if reservedParams.contains key then none
    else
      let (field, op) := extractFieldAndOp key
      if field.isEmpty then none else some ⟨field, op, value⟩

/-! ## Resolution -/

inductive ColumnExpr where
  | promoted (column : String) (pgType : Option String)
  | jsonb (field : String)
  deriving DecidableEq, Repr

structure ResolvedFilter where
  columnExpr : ColumnExpr
  op : FilterOp
  value : String
  deriving DecidableEq, Repr

inductive FilterContext where
  | instructions
  | accounts
  deriving DecidableEq, Repr

def instructionFixedColumns : List (String × String) :=
  [("slot", "BIGINT"), ("signature", "TEXT"), ("block_time", "BIGINT"),
    ("instruction_name", "TEXT"), ("instruction_index", "SMALLINT"), ("is_inner_ix", "BOOLEAN")]

def accountFixedColumns : List (String × String) :=
  [("pubkey", "TEXT"), ("slot_updated", "BIGINT"), ("lamports", "BIGINT"),
    ("is_closed", "BOOLEAN")]

def FilterContext.fixedColumns : FilterContext → List (String × String)
  | .instructions => instructionFixedColumns
  | .accounts => accountFixedColumns

def fixedColumnPgType (name : String) (columns : List (String × String)) : Option String :=
  (columns.find? fun column => column.1 == name).map Prod.snd

def findField (fields : List IdlField) (name : String) : Option IdlField :=
  fields.find? fun field => field.name == name

def resolveColumn (fields : List IdlField) (types : List IdlTypeDef) (context : FilterContext)
    (name : String) : Except ApiError ColumnExpr :=
  match fixedColumnPgType name context.fixedColumns with
  | some pgType => .ok (.promoted name (some pgType))
  | none =>
      match findField fields name with
      | some field =>
          match Storage.mapIdlTypeToPg field.ty types with
          | some pgType => .ok (.promoted name (some pgType.toSql))
          | none => .ok (.jsonb name)
      | none =>
          .error (.invalidFilter s!"Unknown field '{name}'"
            (context.fixedColumns.map Prod.fst ++ fields.map IdlField.name))

/-- One turn of the loop of `resolve_filters`. -/
def resolveFilter (fields : List IdlField) (types : List IdlTypeDef) (context : FilterContext)
    (filter : ParsedFilter) : Except ApiError ResolvedFilter := do
  let columnExpr ← resolveColumn fields types context filter.field
  match filter.op, columnExpr with
  | .contains, .promoted _ _ =>
      .error (.invalidFilter
        s!"Operator '_contains' is not supported on column '{filter.field}'" [])
  | op, columnExpr => .ok ⟨columnExpr, op, filter.value⟩

def resolveFilters (parsed : List ParsedFilter) (fields : List IdlField)
    (types : List IdlTypeDef) (context : FilterContext) :
    Except ApiError (List ResolvedFilter) :=
  parsed.mapM (resolveFilter fields types context)

/-- `get_account_fields`: the first definition of the account's name counts. -/
def getAccountFields (accountName : String) (types : List IdlTypeDef) :
    Except ApiError (List IdlField) :=
  match types.find? fun td => td.name == accountName with
  | none => .error (.accountTypeNotFound accountName)
  | some typeDef =>
      match typeDef.ty with
      | .struct (some (.named fields)) => .ok fields
      | _ => .ok []

/-- The filters of `query_accounts`, with the fields they were resolved against. -/
def resolveAccountFilters (idl : Idl) (accountName : String) (params : List (String × String)) :
    Except ApiError (List IdlField × List ResolvedFilter) := do
  let fields ← getAccountFields accountName idl.types
  let resolved ← resolveFilters (parseFilters params) fields idl.types .accounts
  .ok (fields, resolved)

section Resolution

variable {fields : List IdlField} {types : List IdlTypeDef} {context : FilterContext}
  {parsed : ParsedFilter} {resolved : ResolvedFilter} {name : String} {expr : ColumnExpr}

theorem resolveFilter_eq_ok (h : resolveFilter fields types context parsed = .ok resolved) :
    resolveColumn fields types context parsed.field = .ok resolved.columnExpr ∧
      resolved.op = parsed.op ∧ resolved.value = parsed.value := by
  obtain ⟨expr, hexpr, h⟩ := bind_eq_ok_iff.mp h
  split at h
  · cases h
  · cases h
    exact ⟨hexpr, rfl, rfl⟩

theorem resolveColumn_eq_ok (h : resolveColumn fields types context name = .ok expr) :
    (∃ pgType, (name, pgType) ∈ context.fixedColumns ∧ expr = .promoted name (some pgType)) ∨
    (name ∉ context.fixedColumns.map Prod.fst ∧
      ∃ field, findField fields name = some field ∧
        ((∃ pgType, Storage.mapIdlTypeToPg field.ty types = some pgType ∧
            expr = .promoted name (some pgType.toSql)) ∨
          (Storage.mapIdlTypeToPg field.ty types = none ∧ expr = .jsonb name))) := by
  unfold resolveColumn at h
  split at h
  · rename_i pgType hfixed
    cases h
    obtain ⟨column, hcolumn, rfl⟩ := Option.map_eq_some_iff.mp hfixed
    obtain rfl : column.1 = name := by simpa using List.find?_some hcolumn
    exact Or.inl ⟨column.2, List.mem_of_find?_eq_some hcolumn, rfl⟩
  · rename_i hfixed
    rw [fixedColumnPgType, Option.map_eq_none_iff, List.find?_eq_none] at hfixed
    refine Or.inr ⟨?_, ?_⟩
    · intro hmem
      obtain ⟨column, hcolumn, rfl⟩ := List.mem_map.mp hmem
      exact hfixed column hcolumn (by simp)
    · split at h
      · rename_i field hfield
        refine ⟨field, hfield, ?_⟩
        split at h
        · rename_i pgType htype
          cases h
          exact Or.inl ⟨pgType, htype, rfl⟩
        · rename_i htype
          cases h
          exact Or.inr ⟨htype, rfl⟩
      · cases h

theorem findField_eq_some {field : IdlField} (h : findField fields name = some field) :
    field ∈ fields ∧ field.name = name :=
  ⟨List.mem_of_find?_eq_some h, by simpa using List.find?_some h⟩

end Resolution

end Solarix.Api
