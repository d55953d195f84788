import Solarix.Storage.Columns
import Solarix.Storage.Promoted
import Solarix.Storage.Queries

/-!
# The text of the statements

The statements of `storage/writer.rs` and of the schema generator, in pieces.  Their tokens
are those of the fixed texts, with one token for each name between them.
-/

namespace Solarix.Storage

open Solarix.Core Solarix.Api

/-! ## The writer's statements -/

def instructionRows : String := r#"
    ("signature", "slot", "block_time", "instruction_name",
     "instruction_index", "inner_index", "args", "accounts", "data", "is_inner_ix")
SELECT * FROM UNNEST(
    $1::TEXT[], $2::BIGINT[], $3::BIGINT[], $4::TEXT[],
    $5::SMALLINT[], $6::SMALLINT[], $7::JSONB[], $8::JSONB[], $9::JSONB[], $10::BOOLEAN[]
)
ON CONFLICT ("signature", "instruction_index", COALESCE("inner_index", -1)) DO NOTHING"#

def buildInstructionSql (schemaName : String) : String :=
  "INSERT INTO " ++ qualify schemaName "_instructions" ++ instructionRows

def upsertSource : String := r#"WITH raw AS (
    SELECT * FROM UNNEST($1::TEXT[], $2::BIGINT[], $3::BIGINT[], $4::JSONB[])
    AS t(pubkey, slot_updated, lamports, data)
)
INSERT INTO "#

def upsertColumns : String := r#"
    ("pubkey", "slot_updated", "lamports", "data", "updated_at""#

def upsertSelect : String := r#")
SELECT
    pubkey, slot_updated, lamports, data, NOW()"#

def upsertConflict : String := r#"
FROM raw
ON CONFLICT ("pubkey") DO UPDATE SET
    "slot_updated" = EXCLUDED."slot_updated",
    "lamports" = EXCLUDED."lamports",
    "data" = EXCLUDED."data",
    "updated_at" = NOW()"#

def buildAccountUpsertSql (schemaName tableName : String) (promoted : List PromotedColumn) :
    String :=
  let qualified := qualify schemaName tableName
  let insertCols := promoted.foldl (fun s col => s ++ (", " ++ quoteIdent col.columnName)) ""
  let selectExprs := promoted.foldl
    (fun s col => s ++ (",\n    " ++ (buildPromotedExtractExpr col).toSql)) ""
  let updateExprs := promoted.foldl
    (fun s col => s ++ (",\n    " ++ quoteIdent col.columnName ++ " = EXCLUDED." ++
      quoteIdent col.columnName)) ""
  upsertSource ++ qualified ++ upsertColumns ++ insertCols ++ upsertSelect ++ selectExprs ++
    upsertConflict ++ updateExprs ++ "\nWHERE EXCLUDED.\"slot_updated\" > " ++ qualified ++
    ".\"slot_updated\""

def qualifiedPieces (schema table : String) : List Piece := [.name schema, .fixed ".", .name table]

def instructionPieces (schemaName : String) : List Piece :=
  .fixed "INSERT INTO " :: qualifiedPieces schemaName "_instructions" ++ [.fixed instructionRows]

def ExtractExpr.pieces : ExtractExpr → List Piece
  | .text key => [.fixed "data->>", .key key]
  | .cast key ty => [.fixed "(data->>", .key key, .fixed ")::", .fixed ty.toSql]
  | .guardedBigint key =>
      [.fixed "CASE WHEN (data->>", .key key,
        .fixed ")::NUMERIC > 9223372036854775807 THEN NULL ELSE (data->>", .key key,
        .fixed ")::BIGINT END"]
  | .null => [.fixed "NULL"]

def upsertPieces (schemaName tableName : String) (promoted : List PromotedColumn) : List Piece :=
  .fixed upsertSource :: (qualifiedPieces schemaName tableName ++
    .fixed upsertColumns :: (prefixed ", " (promoted.map fun col => [.name col.columnName]) ++
    .fixed upsertSelect ::
      (prefixed ",\n    " (promoted.map fun col => (buildPromotedExtractExpr col).pieces) ++
    .fixed upsertConflict ::
      (prefixed ",\n    " (promoted.map fun col =>
        [.name col.columnName, .fixed " = EXCLUDED.", .name col.columnName]) ++
    .fixed "\nWHERE EXCLUDED.\"slot_updated\" > " ::
      (qualifiedPieces schemaName tableName ++ [.fixed ".\"slot_updated\""])))))

section Render

theorem renderPieces_qualifiedPieces (schema table : String) :
    renderPieces (qualifiedPieces schema table) = qualify schema table := by
  simp [qualifiedPieces, qualify, quoteIdent_eq, Piece.text, String.append_assoc]

theorem jsonExtract_eq (key : String) : jsonExtract key = "data->>" ++ quoted '\'' key := by
  apply String.toList_injective
  simp [jsonExtract, quoted, doubled]

theorem buildInstructionSql_eq (schemaName : String) :
    buildInstructionSql schemaName = renderPieces (instructionPieces schemaName) := by
  unfold buildInstructionSql instructionPieces
  simp [renderPieces_qualifiedPieces, Piece.text, String.append_assoc]

theorem renderPieces_extract (expr : ExtractExpr) : renderPieces expr.pieces = expr.toSql := by
  cases expr with
  | text key => simp [ExtractExpr.pieces, ExtractExpr.toSql, jsonExtract_eq, Piece.text]
  | cast key ty =>
      apply String.toList_injective
      simp [ExtractExpr.pieces, ExtractExpr.toSql, jsonExtract_eq, Piece.text, toString]
  | guardedBigint key =>
      apply String.toList_injective
      simp [ExtractExpr.pieces, ExtractExpr.toSql, jsonExtract_eq, Piece.text, toString]
  | null => simp [ExtractExpr.pieces, ExtractExpr.toSql, Piece.text]

theorem foldl_append_renderPieces {α : Type} {sep : String} {text : α → String}
    {pieces : α → List Piece} (h : ∀ a, sep ++ renderPieces (pieces a) = text a) (as : List α)
    (s : String) :
    as.foldl (fun s a => s ++ text a) s = s ++ renderPieces (prefixed sep (as.map pieces)) := by
  induction as generalizing s with
  | nil => simp [prefixed]
  | cons a as ih =>
      rw [List.foldl_cons, ih, ← h]
      simp [prefixed, Piece.text, String.append_assoc]

theorem buildAccountUpsertSql_eq (schemaName tableName : String)
    (promoted : List PromotedColumn) :
    buildAccountUpsertSql schemaName tableName promoted =
      renderPieces (upsertPieces schemaName tableName promoted) := by
  have hinsert : ∀ col : PromotedColumn, ", " ++ renderPieces [.name col.columnName] =
      ", " ++ quoteIdent col.columnName := by
    simp [Piece.text, quoteIdent_eq]
  have hselect : ∀ col : PromotedColumn,
      ",\n    " ++ renderPieces (buildPromotedExtractExpr col).pieces =
        ",\n    " ++ (buildPromotedExtractExpr col).toSql := by
    simp [renderPieces_extract]
  have hupdate : ∀ col : PromotedColumn, ",\n    " ++ renderPieces [.name col.columnName,
      .fixed " = EXCLUDED.", .name col.columnName] =
        ",\n    " ++ quoteIdent col.columnName ++ " = EXCLUDED." ++
          quoteIdent col.columnName := by
    simp [Piece.text, quoteIdent_eq, String.append_assoc]
  simp only [buildAccountUpsertSql]
  rw [foldl_append_renderPieces hinsert, foldl_append_renderPieces hselect,
    foldl_append_renderPieces hupdate]
  simp [upsertPieces, renderPieces_qualifiedPieces, Piece.text, String.append_assoc]

end Render

section WriterTokens

variable {schema table : String}

theorem qualifiedPieces_readable (hschema : '\x00' ∉ schema.toList)
    (htable : '\x00' ∉ table.toList) {pieces : List Piece} {numbers : List Nat}
    (h : Readable pieces numbers) :
    Readable (qualifiedPieces schema table ++ pieces) numbers :=
  .name hschema (.fixed rfl (.name htable h))

theorem qualifiedPieces_isChain {cs ds : List Char} {c : Char}
    (hclean : (LexState.run .start cs).map Prod.snd = some .start) (hc : c ≠ '"') :
    List.IsChain Joins (Piece.fixed (String.ofList cs) :: (qualifiedPieces schema table ++
      [Piece.fixed (String.ofList (c :: ds))])) :=
  .cons_cons (.clean hclean rfl) (.cons_cons (.name (by simp))
    (.cons_cons (.fixed rfl rfl) (.cons_cons (.name hc) (.singleton _))))

set_option maxRecDepth 2000 in
theorem readsAs_buildInstructionSql (hschema : '\x00' ∉ schema.toList) :
    ReadsAs (buildInstructionSql schema) (instructionPieces schema) (List.range' 1 10) := by
  have hrows : Readable [.fixed instructionRows] (List.range' 1 10 ++ []) :=
    .numbered (by decide +kernel) .nil
  rw [buildInstructionSql_eq]
  refine readsAs_renderPieces ?_ ?_
  · exact .fixed rfl (qualifiedPieces_readable hschema (by decide +kernel) hrows)
  · exact qualifiedPieces_isChain rfl (by simp)

theorem CastType.toSql_plain (ty : CastType) : PlainText ty.toSql := by
  cases ty <;> exact .intro rfl rfl

theorem extract_readable {expr : ExtractExpr} (h : ∀ key ∈ expr.key?, '\x00' ∉ key.toList) :
    Readable expr.pieces [] := by
  cases expr with
  | text key => exact .fixed rfl (.key (h key rfl) .nil)
  | cast key ty =>
      exact .fixed rfl (.key (h key rfl) (.fixed rfl
        (ty.toSql_plain.readable .nil)))
  | guardedBigint key =>
      exact .fixed rfl (.key (h key rfl) (.fixed rfl
        (.key (h key rfl) (.fixed rfl .nil))))
  | null => exact .fixed rfl .nil

theorem extract_isChain {expr : ExtractExpr} {c : Char} {ds : List Char} (hc : c ∈ [',', '\n'])
    (hds : ((c :: ds).dropWhile isSqlSpace).head?.any (· ≠ '\'') = true) :
    List.IsChain Joins (.fixed ",\n    " :: expr.pieces ++
      [Piece.fixed (String.ofList (c :: ds))]) := by
  have hclose : c ∈ [' ', '\n', ',', ')'] := by
    simp only [List.mem_cons, List.not_mem_nil, or_false] at hc ⊢
    tauto
  cases expr with
  | text key =>
      exact .cons_cons (.texts rfl) (.cons_cons (.fixed rfl rfl)
        (.cons_cons (.key hds) (.singleton _)))
  | cast key ty =>
      exact .cons_cons (.texts rfl) (.cons_cons (.fixed rfl rfl)
        (.cons_cons (.key rfl)
          (.cons_cons (ty.toSql_plain.joins_of_clean rfl)
            (.cons_cons (ty.toSql_plain.joins hclose) (.singleton _)))))
  | guardedBigint key =>
      have hend : PlainText ")::BIGINT END" := .intro rfl rfl
      exact .cons_cons (.texts rfl) (.cons_cons (.fixed rfl rfl)
        (.cons_cons (.key rfl) (.cons_cons (.fixed rfl rfl)
          (.cons_cons (.key rfl) (.cons_cons (hend.joins hclose)
            (.singleton _))))))
  | null =>
      have hnull : PlainText "NULL" := .intro rfl rfl
      exact .cons_cons (.texts rfl) (.cons_cons (hnull.joins hclose) (.singleton _))

theorem key?_buildPromotedExtractExpr (col : PromotedColumn) :
    ∀ key ∈ (buildPromotedExtractExpr col).key?, key = col.columnName := by
  unfold buildPromotedExtractExpr
  split <;> simp [ExtractExpr.key?]

set_option maxRecDepth 2000 in
theorem upsertPieces_readable {promoted : List PromotedColumn}
    (hschema : '\x00' ∉ schema.toList) (htable : '\x00' ∉ table.toList)
    (hpromoted : ∀ col ∈ promoted, '\x00' ∉ col.columnName.toList) :
    Readable (upsertPieces schema table promoted) (List.range' 1 4) := by
  have hinsert : Readable (prefixed ", " (promoted.map fun col => [.name col.columnName])) [] := by
    refine prefixed_readable (fun h => .fixed rfl h) ?_
    simp only [List.forall_mem_map]
    intro col hcol
    exact .name (hpromoted col hcol) .nil
  have hselect : Readable (prefixed ",\n    "
      (promoted.map fun col => (buildPromotedExtractExpr col).pieces)) [] := by
    refine prefixed_readable (fun h => .fixed rfl h) ?_
    simp only [List.forall_mem_map]
    intro col hcol
    refine extract_readable ?_
    intro key hkey
    rw [key?_buildPromotedExtractExpr col key hkey]
    exact hpromoted col hcol
  have hupdate : Readable (prefixed ",\n    " (promoted.map fun col =>
      [.name col.columnName, .fixed " = EXCLUDED.", .name col.columnName])) [] := by
    refine prefixed_readable (fun h => .fixed rfl h) ?_
    simp only [List.forall_mem_map]
    intro col hcol
    exact .name (hpromoted col hcol) (.fixed rfl
      (.name (hpromoted col hcol) .nil))
  have hrest : Readable (qualifiedPieces schema table ++ .fixed upsertColumns ::
      (prefixed ", " (promoted.map fun col => [.name col.columnName]) ++ .fixed upsertSelect ::
        (prefixed ",\n    " (promoted.map fun col => (buildPromotedExtractExpr col).pieces) ++
      .fixed upsertConflict :: (prefixed ",\n    " (promoted.map fun col =>
          [.name col.columnName, .fixed " = EXCLUDED.", .name col.columnName]) ++
        .fixed "\nWHERE EXCLUDED.\"slot_updated\" > " ::
          (qualifiedPieces schema table ++ [.fixed ".\"slot_updated\""]))))) [] :=
    qualifiedPieces_readable hschema htable (.fixed rfl
      (hinsert.append (.fixed rfl (hselect.append (.fixed rfl
        (hupdate.append (.fixed rfl (qualifiedPieces_readable hschema htable
          (.fixed rfl .nil)))))))))
  have hsource : Readable (upsertPieces schema table promoted) (List.range' 1 4 ++ []) :=
    .numbered rfl hrest
  exact hsource

set_option maxRecDepth 2000 in
theorem upsertPieces_isChain (promoted : List PromotedColumn) :
    (upsertPieces schema table promoted).IsChain Joins := by
  refine List.isChain_cons_split.mpr ⟨qualifiedPieces_isChain rfl (by simp), ?_⟩
  refine List.isChain_cons_split.mpr ⟨?insert, List.isChain_cons_split.mpr ⟨?select,
    List.isChain_cons_split.mpr ⟨?update, ?rest⟩⟩⟩
  case insert =>
    refine prefixed_isChain (.texts rfl) (.texts rfl) ?_
    simp only [List.forall_mem_map]
    intro col _ q hq
    simp only [List.mem_cons, List.not_mem_nil, or_false] at hq
    rcases hq with rfl | rfl <;>
      exact .cons_cons (.clean rfl rfl) (.cons_cons (.name (by simp))
        (.singleton _))
  case select =>
    refine prefixed_isChain (.texts rfl) (.texts rfl) ?_
    simp only [List.forall_mem_map]
    intro col _ q hq
    simp only [List.mem_cons, List.not_mem_nil, or_false] at hq
    rcases hq with rfl | rfl <;> exact extract_isChain (by simp) rfl
  case update =>
    refine prefixed_isChain (.texts rfl) (.texts rfl) ?_
    simp only [List.forall_mem_map]
    intro col _ q hq
    simp only [List.mem_cons, List.not_mem_nil, or_false] at hq
    rcases hq with rfl | rfl <;>
      exact .cons_cons (.clean rfl rfl) (.cons_cons (.name (by simp))
        (.cons_cons (.fixed rfl rfl) (.cons_cons (.name (by simp))
          (.singleton _))))
  case rest => exact qualifiedPieces_isChain rfl (by simp)

theorem readsAs_buildAccountUpsertSql {promoted : List PromotedColumn}
    (hschema : '\x00' ∉ schema.toList) (htable : '\x00' ∉ table.toList)
    (hpromoted : ∀ col ∈ promoted, '\x00' ∉ col.columnName.toList) :
    ReadsAs (buildAccountUpsertSql schema table promoted) (upsertPieces schema table promoted)
      (List.range' 1 4) := by
  rw [buildAccountUpsertSql_eq]
  exact readsAs_renderPieces (upsertPieces_readable hschema htable hpromoted)
    (upsertPieces_isChain promoted)

end WriterTokens

/-! ## The schema's statements -/

def ColumnDef.pieces (column : ColumnDef) : List Piece :=
  [.fixed "    ", .name column.name, .fixed " ", .fixed column.pgType.toSql] ++
    if column.constraint = "" then [] else [.fixed column.constraint]

def TableDef.pieces (table : TableDef) : List Piece :=
  .fixed "CREATE TABLE IF NOT EXISTS " :: (qualifiedPieces table.schema table.name ++
    .fixed " (\n" :: (separated ",\n" (table.columns.map ColumnDef.pieces) ++ [.fixed "\n);"]))

def IndexKey.pieces : IndexKey → List Piece
  | .column name => [.name name]
  | .coalesced name => [.fixed "COALESCE(", .name name, .fixed ", -1)"]
  | .jsonbPathOps name => [.name name, .fixed " jsonb_path_ops"]

def IndexDef.pieces (index : IndexDef) : List Piece :=
  .fixed (if index.isUnique then "CREATE UNIQUE INDEX" else "CREATE INDEX") ::
    .fixed " IF NOT EXISTS " :: .name index.name ::
    .fixed " ON " :: (qualifiedPieces index.schema index.table ++
    ((if index.isGin then [.fixed " USING gin"] else []) ++
    .fixed " (" :: (separated ", " (index.keys.map IndexKey.pieces) ++ [.fixed ");"])))

def Statement.pieces : Statement → List Piece
  | .createSchema schema => [.fixed "CREATE SCHEMA IF NOT EXISTS ", .name schema, .fixed ";"]
  | .createTable table => table.pieces
  | .createIndex index => index.pieces

section RenderDdl

theorem renderPieces_column (column : ColumnDef) : renderPieces column.pieces = column.toSql := by
  unfold ColumnDef.pieces ColumnDef.toSql
  split
  · rename_i hempty
    simp [hempty, Piece.text, quoteIdent_eq, String.append_assoc]
  · simp [Piece.text, quoteIdent_eq, String.append_assoc]

theorem renderPieces_indexKey (key : IndexKey) : renderPieces key.pieces = key.toSql := by
  cases key with
  | column name => simp [IndexKey.pieces, IndexKey.toSql, Piece.text, quoteIdent_eq]
  | coalesced name =>
      have htext : (IndexKey.coalesced name).toSql =
          "COALESCE(" ++ quoteIdent name ++ ", -1)" := rfl
      rw [htext]
      simp [IndexKey.pieces, Piece.text, quoteIdent_eq, String.append_assoc]
  | jsonbPathOps name => simp [IndexKey.pieces, IndexKey.toSql, Piece.text, quoteIdent_eq]

theorem renderPieces_table (table : TableDef) : renderPieces table.pieces = table.toSql := by
  have hcolumns : (table.columns.map ColumnDef.pieces).map renderPieces =
      table.columns.map ColumnDef.toSql := by
    simp [Function.comp_def, renderPieces_column]
  have htext : table.toSql = "CREATE TABLE IF NOT EXISTS " ++ qualify table.schema table.name ++
      " (\n" ++ ",\n".intercalate (table.columns.map ColumnDef.toSql) ++ "\n);" := rfl
  rw [htext]
  simp [TableDef.pieces, Piece.text, renderPieces_separated, hcolumns, renderPieces_qualifiedPieces,
    String.append_assoc]

theorem renderPieces_index (index : IndexDef) : renderPieces index.pieces = index.toSql := by
  have hkeys : (index.keys.map IndexKey.pieces).map renderPieces =
      index.keys.map IndexKey.toSql := by
    simp [Function.comp_def, renderPieces_indexKey]
  have htext : index.toSql =
      (if index.isUnique then "CREATE UNIQUE INDEX" else "CREATE INDEX") ++
        (" IF NOT EXISTS " ++ quoteIdent index.name ++ " ON " ++
          qualify index.schema index.table) ++
        (if index.isGin then " USING gin" else "") ++
        " (" ++ ", ".intercalate (index.keys.map IndexKey.toSql) ++ ");" := rfl
  rw [htext]
  cases hgin : index.isGin <;>
    simp [-String.reduceAppend, IndexDef.pieces, hgin, Piece.text, renderPieces_separated, hkeys,
      renderPieces_qualifiedPieces, quoteIdent_eq, String.append_assoc]

theorem renderPieces_statement (statement : Statement) :
    renderPieces statement.pieces = statement.toSql := by
  cases statement with
  | createSchema schema =>
      have htext : (Statement.createSchema schema).toSql =
          "CREATE SCHEMA IF NOT EXISTS " ++ quoteIdent schema ++ ";" := rfl
      rw [htext]
      simp [Statement.pieces, Piece.text, quoteIdent_eq, String.append_assoc]
  | createTable table => exact renderPieces_table table
  | createIndex index => exact renderPieces_index index

end RenderDdl

section DdlTokens

def columnTypes : List PgType :=
  promotedTypes ++ [.bigserial, .jsonb, .timestamptz, .varchar 88]

def columnConstraints : List String :=
  ["", " PRIMARY KEY", " NOT NULL", " NOT NULL DEFAULT 0", " NOT NULL DEFAULT FALSE",
    " NOT NULL DEFAULT NOW()"]

structure ColumnDef.WellNamed (column : ColumnDef) : Prop where
  name : '\x00' ∉ column.name.toList
  pgType : column.pgType ∈ columnTypes
  constraint : column.constraint ∈ columnConstraints

def IndexKey.name : IndexKey → String
  | .column name => name
  | .coalesced name => name
  | .jsonbPathOps name => name

def Statement.WellNamed : Statement → Prop
  | .createSchema schema => '\x00' ∉ schema.toList
  | .createTable table =>
      '\x00' ∉ table.schema.toList ∧ '\x00' ∉ table.name.toList ∧
        ∀ column ∈ table.columns, column.WellNamed
  | .createIndex index =>
      '\x00' ∉ index.schema.toList ∧ '\x00' ∉ index.table.toList ∧ '\x00' ∉ index.name.toList ∧
        ∀ key ∈ index.keys, '\x00' ∉ key.name.toList

theorem columnTypes_eq : columnTypes.map PgType.toSql =
    ["BOOLEAN", "SMALLINT", "INTEGER", "BIGINT", "REAL", "DOUBLE PRECISION", "NUMERIC(39,0)",
      "NUMERIC(78,0)", "TEXT", "BYTEA", "BIGSERIAL", "JSONB", "TIMESTAMPTZ",
      "VARCHAR(88)"] := by
  decide +kernel

theorem columnType_plain {pgType : PgType} (h : pgType ∈ columnTypes) :
    PlainText pgType.toSql := by
  have htext : pgType.toSql ∈ columnTypes.map PgType.toSql := List.mem_map_of_mem h
  rw [columnTypes_eq] at htext
  simp only [List.mem_cons, List.not_mem_nil, or_false] at htext
  rcases htext with h | h | h | h | h | h | h | h | h | h | h | h | h | h <;>
    · rw [h]
      exact .intro rfl rfl

theorem constraint_plain {text : String} (h : text ∈ columnConstraints) (hne : text ≠ "") :
    PlainText text ∧ ∃ cs, text = String.ofList (' ' :: cs) := by
  simp only [columnConstraints, List.mem_cons, List.not_mem_nil, or_false] at h
  rcases h with rfl | rfl | rfl | rfl | rfl | rfl
  · exact absurd rfl hne
  all_goals exact ⟨.intro rfl rfl, _, rfl⟩

theorem ColumnDef.WellNamed.readable {column : ColumnDef} (h : column.WellNamed) :
    Readable column.pieces [] := by
  refine .fixed rfl (.name h.name (.fixed rfl
    ((columnType_plain h.pgType).readable ?_)))
  split
  · exact .nil
  · rename_i hne
    exact (constraint_plain h.constraint hne).1.readable .nil

theorem ColumnDef.WellNamed.isChain {column : ColumnDef} (h : column.WellNamed) {cs ds : List Char}
    {c : Char} (hclean : (LexState.run .start cs).map Prod.snd = some .start)
    (hc : c ∈ [' ', '\n', ',', ')']) :
    List.IsChain Joins (Piece.fixed (String.ofList cs) :: column.pieces ++
      [Piece.fixed (String.ofList (c :: ds))]) := by
  have htype := columnType_plain h.pgType
  refine .cons_cons (.clean hclean (Piece.first_ofList _ _))
    (.cons_cons (.clean rfl rfl) (.cons_cons (.name (by simp))
      (.cons_cons (htype.joins_of_clean rfl) ?_)))
  split
  · exact .cons_cons (htype.joins hc) (.singleton _)
  · rename_i hne
    obtain ⟨hplain, es, hes⟩ := constraint_plain h.constraint hne
    have hspace : Joins (.fixed column.pgType.toSql) (.fixed column.constraint) := by
      rw [hes]
      exact htype.joins (by simp)
    exact .cons_cons hspace (.cons_cons (hplain.joins hc) (.singleton _))

theorem indexKey_readable {key : IndexKey} (h : '\x00' ∉ key.name.toList) :
    Readable key.pieces [] := by
  cases key with
  | column name => exact .name h .nil
  | coalesced name =>
      exact .fixed rfl (.name h (.fixed rfl .nil))
  | jsonbPathOps name => exact .name h (.fixed rfl .nil)

theorem indexKey_isChain (key : IndexKey) {cs ds : List Char} {c : Char}
    (hclean : (LexState.run .start cs).map Prod.snd = some .start)
    (hc : c ∈ [' ', '\n', ',', ')']) :
    List.IsChain Joins (Piece.fixed (String.ofList cs) :: key.pieces ++
      [Piece.fixed (String.ofList (c :: ds))]) := by
  have hquote : c ≠ '"' := by
    rintro rfl
    simp at hc
  cases key with
  | column name => exact .cons_cons (.clean hclean rfl) (.cons_cons (.name hquote) (.singleton _))
  | coalesced name =>
      have hend : PlainText ", -1)" := .intro rfl rfl
      exact .cons_cons (.clean hclean (Piece.first_ofList _ _))
        (.cons_cons (.clean rfl rfl) (.cons_cons (.name (by simp))
          (.cons_cons (hend.joins hc) (.singleton _))))
  | jsonbPathOps name =>
      have hend : PlainText " jsonb_path_ops" := .intro rfl rfl
      exact .cons_cons (.clean hclean rfl) (.cons_cons (.name (by simp))
        (.cons_cons (hend.joins hc) (.singleton _)))

theorem table_readable {table : TableDef} (h : (Statement.createTable table).WellNamed) :
    Readable table.pieces [] := by
  obtain ⟨hschema, hname, hcolumns⟩ := h
  have hbody : Readable (separated ",\n" (table.columns.map ColumnDef.pieces)) [] := by
    refine separated_readable (fun h => .fixed rfl h) ?_
    simp only [List.forall_mem_map]
    intro column hcolumn
    exact (hcolumns column hcolumn).readable
  exact .fixed rfl (qualifiedPieces_readable hschema hname
    (.fixed rfl (hbody.append (.fixed rfl .nil))))

theorem table_isChain {table : TableDef} (h : (Statement.createTable table).WellNamed) :
    table.pieces.IsChain Joins := by
  refine List.isChain_cons_split.mpr
    ⟨qualifiedPieces_isChain rfl (by simp), ?_⟩
  refine separated_isChain (.texts rfl) ?_
  simp only [List.forall_mem_map]
  intro column hcolumn p hp q hq
  have hcolumn := h.2.2 column hcolumn
  simp only [List.mem_cons, List.not_mem_nil, or_false] at hp hq
  rcases hp with rfl | rfl <;> rcases hq with rfl | rfl <;>
    exact hcolumn.isChain rfl (by simp)

theorem index_readable {index : IndexDef} (h : (Statement.createIndex index).WellNamed) :
    Readable index.pieces [] := by
  obtain ⟨hschema, htable, hname, hkeys⟩ := h
  have hbody : Readable (separated ", " (index.keys.map IndexKey.pieces)) [] := by
    refine separated_readable (fun h => .fixed rfl h) ?_
    simp only [List.forall_mem_map]
    intro key hkey
    exact indexKey_readable (hkeys key hkey)
  have hrest : Readable ((if index.isGin then [.fixed " USING gin"] else []) ++
      .fixed " (" :: (separated ", " (index.keys.map IndexKey.pieces) ++ [.fixed ");"])) [] := by
    have hlist : Readable (.fixed " (" :: (separated ", " (index.keys.map IndexKey.pieces) ++
        [.fixed ");"])) [] :=
      .fixed rfl (hbody.append (.fixed rfl .nil))
    split
    · exact .fixed rfl hlist
    · exact hlist
  have hcreate : Readable (.fixed " IF NOT EXISTS " :: .name index.name :: .fixed " ON " ::
      (qualifiedPieces index.schema index.table ++
        ((if index.isGin then [.fixed " USING gin"] else []) ++ .fixed " (" ::
          (separated ", " (index.keys.map IndexKey.pieces) ++ [.fixed ");"])))) [] :=
    .fixed rfl (.name hname (.fixed rfl
      (qualifiedPieces_readable hschema htable hrest)))
  unfold IndexDef.pieces
  split
  · exact .fixed rfl hcreate
  · exact .fixed rfl hcreate

theorem index_isChain (index : IndexDef) : index.pieces.IsChain Joins := by
  have hkeys : List.IsChain Joins (.fixed " (" ::
      separated ", " (index.keys.map IndexKey.pieces) ++ [.fixed ");"]) := by
    refine separated_isChain (.texts rfl) ?_
    simp only [List.forall_mem_map]
    intro key _ p hp q hq
    simp only [List.mem_cons, List.not_mem_nil, or_false] at hp hq
    rcases hp with rfl | rfl <;> rcases hq with rfl | rfl <;>
      exact indexKey_isChain key rfl (by simp)
  have hon : List.IsChain Joins (.fixed " ON " :: (qualifiedPieces index.schema index.table ++
      ((if index.isGin then [.fixed " USING gin"] else []) ++ .fixed " (" ::
        (separated ", " (index.keys.map IndexKey.pieces) ++ [.fixed ");"])))) := by
    split
    · exact List.isChain_cons_split.mpr
        ⟨qualifiedPieces_isChain rfl (by simp),
          .cons_cons (.texts rfl) hkeys⟩
    · exact List.isChain_cons_split.mpr
        ⟨qualifiedPieces_isChain rfl (by simp), hkeys⟩
  have hname : List.IsChain Joins (.fixed " IF NOT EXISTS " :: .name index.name :: .fixed " ON " ::
      (qualifiedPieces index.schema index.table ++
        ((if index.isGin then [.fixed " USING gin"] else []) ++ .fixed " (" ::
          (separated ", " (index.keys.map IndexKey.pieces) ++ [.fixed ");"])))) :=
    .cons_cons (.clean rfl rfl) (.cons_cons (.name (by simp)) hon)
  unfold IndexDef.pieces
  split
  · exact .cons_cons (.texts rfl) hname
  · exact .cons_cons (.texts rfl) hname

theorem statement_readable {statement : Statement} (h : statement.WellNamed) :
    Readable statement.pieces [] := by
  cases statement with
  | createSchema schema =>
      exact .fixed rfl (.name h (.fixed rfl .nil))
  | createTable table => exact table_readable h
  | createIndex index => exact index_readable h

theorem statement_isChain {statement : Statement} (h : statement.WellNamed) :
    statement.pieces.IsChain Joins := by
  cases statement with
  | createSchema schema =>
      exact .cons_cons (.clean rfl rfl) (.cons_cons (.name (by simp))
        (.singleton _))
  | createTable table => exact table_isChain h
  | createIndex index => exact index_isChain index

theorem readsAs_statement {statement : Statement} (h : statement.WellNamed) :
    ReadsAs statement.toSql statement.pieces [] := by
  rw [← renderPieces_statement]
  exact readsAs_renderPieces (statement_readable h) (statement_isChain h)

/-- Statements start with a key word and end with a semicolon. -/
theorem statement_ends (statement : Statement) :
    ∃ first middle last, statement.pieces = .fixed first :: (middle ++ [.fixed last]) ∧
      Joins (.fixed "\n") (.fixed first) ∧ Joins (.fixed last) (.fixed "\n") := by
  cases statement with
  | createSchema schema =>
      exact ⟨_, [.name schema], _, rfl, .texts rfl, .texts rfl⟩
  | createTable table =>
      refine ⟨"CREATE TABLE IF NOT EXISTS ", qualifiedPieces table.schema table.name ++
        .fixed " (\n" :: separated ",\n" (table.columns.map ColumnDef.pieces), "\n);", ?_,
        .texts rfl, .texts rfl⟩
      simp [Statement.pieces, TableDef.pieces]
  | createIndex index =>
      refine ⟨if index.isUnique then "CREATE UNIQUE INDEX" else "CREATE INDEX",
        .fixed " IF NOT EXISTS " :: .name index.name :: .fixed " ON " ::
          (qualifiedPieces index.schema index.table ++
            ((if index.isGin then [.fixed " USING gin"] else []) ++ .fixed " (" ::
              separated ", " (index.keys.map IndexKey.pieces))), ");", ?_, ?_,
        .texts rfl⟩
      · simp [Statement.pieces, IndexDef.pieces]
      · split <;> exact .texts rfl

theorem statement_isChain_between {statement : Statement} (h : statement.WellNamed) :
    List.IsChain Joins (.fixed "\n" :: statement.pieces ++ [.fixed "\n"]) := by
  have hchain := statement_isChain h
  obtain ⟨first, middle, last, hpieces, hfirst, hlast⟩ := statement_ends statement
  rw [hpieces] at hchain ⊢
  rw [List.cons_append, List.cons_append, List.append_assoc]
  exact .cons_cons hfirst (List.isChain_cons_split.mpr
    ⟨hchain, .cons_cons hlast (.singleton _)⟩)

theorem readsAs_batch {statements : List Statement}
    (h : ∀ statement ∈ statements, statement.WellNamed) :
    ReadsAs ("\n".intercalate (statements.map Statement.toSql))
      (separated "\n" (statements.map Statement.pieces)) [] := by
  have htext : "\n".intercalate (statements.map Statement.toSql) =
      renderPieces (separated "\n" (statements.map Statement.pieces)) := by
    rw [renderPieces_separated]
    simp [Function.comp_def, renderPieces_statement]
  rw [htext]
  refine readsAs_renderPieces ?_ ?_
  · refine separated_readable (fun h => .fixed rfl h) ?_
    simp only [List.forall_mem_map]
    intro statement hstatement
    exact statement_readable (h statement hstatement)
  · have hbetween : List.IsChain Joins (.fixed "\n" ::
        separated "\n" (statements.map Statement.pieces) ++ [.fixed "\n"]) := by
      refine separated_isChain (.texts rfl) ?_
      simp only [List.forall_mem_map]
      intro statement hstatement p hp q hq
      obtain rfl : p = .fixed "\n" := by simpa using hp
      obtain rfl : q = .fixed "\n" := by simpa using hq
      exact statement_isChain_between (h statement hstatement)
    exact hbetween.left_of_append.tail

end DdlTokens

/-! ## The statements of a program's schema -/

theorem toLower_ne_nul {c : Char} (h : (c.isAlphanum || c == '_') = true) :
    c.toLower ≠ '\x00' := by
  intro hnul
  by_cases hupper : c.isUpper = true
  · have hval := toNat_toLower_of_isUpper hupper
    rw [hnul] at hval
    have hzero : '\x00'.toNat = 0 := rfl
    omega
  · rw [toLower_of_not_isUpper hupper] at hnul
    subst hnul
    revert h
    decide

theorem nul_not_mem_sanitizeIdentifier (name : String) :
    '\x00' ∉ (sanitizeIdentifier name).toList := by
  have hkept : '\x00' ∉ keptChars name := by
    intro hmem
    obtain ⟨c, hc, hlower⟩ := List.mem_map.mp hmem
    exact toLower_ne_nul (List.mem_filter.mp hc).2 hlower
  have hlead : '\x00' ∉ leadChars name := by
    unfold leadChars
    split
    · simpa using hkept
    · exact hkept
  rw [sanitizeIdentifier_eq, String.toList_ofList]
  intro hmem
  have hchars := List.mem_of_mem_take hmem
  split at hchars
  · revert hchars
    decide
  · exact hlead hchars

theorem systemColumn_wellNamed {name constraint : String} {pgType : PgType}
    (hname : '\x00' ∉ name.toList) (htype : pgType ∈ columnTypes)
    (hconstraint : constraint ∈ columnConstraints) :
    (systemColumn name pgType constraint).WellNamed :=
  ⟨hname, htype, hconstraint⟩

theorem accountTable_wellNamed (idl : Idl) {schema : String} (account : String)
    (hschema : '\x00' ∉ schema.toList) :
    (Statement.createTable (accountTable idl schema account)).WellNamed := by
  refine ⟨hschema, nul_not_mem_sanitizeIdentifier account, ?_⟩
  intro column hcolumn
  rcases List.mem_append.mp hcolumn with hsystem | hpromoted
  · simp only [accountSystemColumns, List.mem_cons, List.not_mem_nil, or_false] at hsystem
    rcases hsystem with rfl | rfl | rfl | rfl | rfl | rfl | rfl <;>
      exact systemColumn_wellNamed (by decide +kernel) (by decide) (by decide)
  · obtain ⟨field, _, hfield⟩ := List.mem_filterMap.mp hpromoted
    obtain ⟨pgType, htype, _, rfl⟩ := promotedColumn_eq_some.mp hfield
    exact ⟨nul_not_mem_sanitizeIdentifier field.name,
      List.mem_append_left _ (mapIdlTypeToPg_mem htype), by simp [columnConstraints]⟩

theorem systemTable_wellNamed {schema : String} (hschema : '\x00' ∉ schema.toList) :
    (Statement.createTable (generateMetadataTable schema)).WellNamed ∧
      (Statement.createTable (generateCheckpointsTable schema)).WellNamed ∧
      (Statement.createTable (instructionsTable schema)).WellNamed := by
  have hmetadata : '\x00' ∉ "_metadata".toList := by decide +kernel
  have hcheckpoints : '\x00' ∉ "_checkpoints".toList := by decide +kernel
  have hinstructions : '\x00' ∉ "_instructions".toList := by decide +kernel
  refine ⟨⟨hschema, hmetadata, ?_⟩, ⟨hschema, hcheckpoints, ?_⟩, ⟨hschema, hinstructions, ?_⟩⟩
  · intro column hcolumn
    simp only [generateMetadataTable, List.mem_cons, List.not_mem_nil, or_false] at hcolumn
    rcases hcolumn with rfl | rfl <;>
      exact systemColumn_wellNamed (by decide +kernel) (by decide) (by decide)
  · intro column hcolumn
    simp only [generateCheckpointsTable, List.mem_cons, List.not_mem_nil, or_false] at hcolumn
    rcases hcolumn with rfl | rfl | rfl | rfl <;>
      exact systemColumn_wellNamed (by decide +kernel) (by decide) (by decide)
  · intro column hcolumn
    simp only [instructionsTable, instructionColumns, List.mem_cons, List.not_mem_nil, or_false]
      at hcolumn
    rcases hcolumn with rfl | rfl | rfl | rfl | rfl | rfl | rfl | rfl | rfl | rfl | rfl <;>
      exact systemColumn_wellNamed (by decide +kernel) (by decide) (by decide)

theorem btreeIndex_wellNamed {schema table column : String} (hschema : '\x00' ∉ schema.toList)
    (htable : '\x00' ∉ table.toList) (hcolumn : '\x00' ∉ column.toList) :
    (btreeIndex schema table column).WellNamed := by
  refine ⟨hschema, htable, ?_, by simpa [IndexKey.name] using hcolumn⟩
  have htext : s!"idx_{table}_{column}" = "idx_" ++ table ++ "_" ++ column := rfl
  rw [htext]
  simp [htable, hcolumn]

theorem ginIndex_wellNamed {schema table column : String} (hschema : '\x00' ∉ schema.toList)
    (htable : '\x00' ∉ table.toList) (hcolumn : '\x00' ∉ column.toList) :
    (ginIndex schema table column).WellNamed := by
  refine ⟨hschema, htable, ?_, by simpa [IndexKey.name] using hcolumn⟩
  have htext : s!"gin_{table}_{column}" = "gin_" ++ table ++ "_" ++ column := rfl
  rw [htext]
  simp [htable, hcolumn]

theorem generateInstructionsTable_wellNamed {schema : String} (hschema : '\x00' ∉ schema.toList) :
    ∀ statement ∈ generateInstructionsTable schema, statement.WellNamed := by
  have htable : '\x00' ∉ "_instructions".toList := by decide +kernel
  have hname : '\x00' ∉ "uq__instructions_sig_idx".toList := by decide +kernel
  have hkeys : ∀ key ∈ [IndexKey.column "signature", .column "instruction_index",
      .coalesced "inner_index"], '\x00' ∉ key.name.toList := by
    simp only [List.forall_mem_cons, IndexKey.name]
    exact ⟨by decide +kernel, by decide +kernel, by decide +kernel, by simp⟩
  intro statement hmem
  rcases List.mem_cons.mp hmem with rfl | hmem
  · exact (systemTable_wellNamed hschema).2.2
  · obtain rfl := List.mem_singleton.mp hmem
    exact ⟨hschema, htable, hname, hkeys⟩

theorem generateIndexes_wellNamed {schema : String} (hschema : '\x00' ∉ schema.toList)
    (accounts : List String) :
    ∀ statement ∈ generateIndexes schema accounts, statement.WellNamed := by
  have htable : '\x00' ∉ "_instructions".toList := by decide +kernel
  intro statement hmem
  rcases List.mem_append.mp hmem with haccount | hinstruction
  · obtain ⟨name, _, hname⟩ := List.mem_flatMap.mp haccount
    have hsanitized := nul_not_mem_sanitizeIdentifier name
    rcases List.mem_cons.mp hname with rfl | hname
    · exact btreeIndex_wellNamed hschema hsanitized (by decide +kernel)
    · obtain rfl := List.mem_singleton.mp hname
      exact ginIndex_wellNamed hschema hsanitized (by decide +kernel)
  · simp only [List.mem_cons, List.not_mem_nil, or_false] at hinstruction
    rcases hinstruction with rfl | rfl | rfl | rfl | rfl | rfl
    · exact btreeIndex_wellNamed hschema htable (by decide +kernel)
    · exact btreeIndex_wellNamed hschema htable (by decide +kernel)
    · exact btreeIndex_wellNamed hschema htable (by decide +kernel)
    · exact btreeIndex_wellNamed hschema htable (by decide +kernel)
    · exact ginIndex_wellNamed hschema htable (by decide +kernel)
    · exact ginIndex_wellNamed hschema htable (by decide +kernel)

theorem buildDdlStatements_wellNamed (idl : Idl) {schema : String}
    (hschema : '\x00' ∉ schema.toList) :
    ∀ statement ∈ buildDdlStatements idl schema, statement.WellNamed := by
  intro statement hmem
  rcases List.mem_append.mp hmem with hmem | hindex
  · rcases List.mem_append.mp hmem with hmem | hinstructions
    · rcases List.mem_append.mp hmem with hfirst | haccount
      · obtain ⟨hmetadata, hcheckpoints, _⟩ := systemTable_wellNamed hschema
        simp only [List.mem_cons, List.not_mem_nil, or_false] at hfirst
        rcases hfirst with rfl | rfl | rfl
        · exact hschema
        · exact hmetadata
        · exact hcheckpoints
      · obtain ⟨account, _, rfl⟩ := List.mem_map.mp haccount
        exact accountTable_wellNamed idl account.name hschema
    · exact generateInstructionsTable_wellNamed hschema statement hinstructions
  · exact generateIndexes_wellNamed hschema _ statement hindex

/-- The text of a query is the same for filters that differ in their values only.  In every
statement each name is one token for the name that the server keeps, unless a name is empty; a
query has one conjunct for each filter, and its placeholders are numbered in the order of the
bound values. -/
theorem sql_text_exact (parse : String → Option Json) :
    (∀ (target : QueryTarget) (filters filters' : List ResolvedFilter)
        (limit limit' offset offset' : Int), List.Forall₂ SameShape filters filters' →
      (0 < offset ↔ 0 < offset') →
      (buildQuery parse target filters limit offset).sql =
        (buildQuery parse target filters' limit' offset').sql) ∧
    (∀ (target : QueryTarget) (filters : List ResolvedFilter) (limit offset : Int),
      '\x00' ∉ target.schema.toList → '\x00' ∉ target.table.toList →
      (∀ filter ∈ filters, NamedExpr filter.columnExpr) →
      (buildQuery parse target filters limit offset).binds =
          queryBinds (filters.map (filterCondition parse)) limit offset ∧
        ReadsAs (buildQuery parse target filters limit offset).sql
          (queryPieces target (filters.map (filterCondition parse)) offset)
          (List.range' 1 (buildQuery parse target filters limit offset).binds.length)) ∧
    (∀ schema : String, '\x00' ∉ schema.toList →
      ReadsAs (buildInstructionSql schema) (instructionPieces schema) (List.range' 1 10)) ∧
    (∀ (schema table : String) (promoted : List PromotedColumn), '\x00' ∉ schema.toList →
      '\x00' ∉ table.toList → (∀ col ∈ promoted, '\x00' ∉ col.columnName.toList) →
      ReadsAs (buildAccountUpsertSql schema table promoted) (upsertPieces schema table promoted)
        (List.range' 1 4)) ∧
    ∀ (idl : Idl) (schema : String), '\x00' ∉ schema.toList →
      (∀ statement ∈ buildDdlStatements idl schema,
        ReadsAs statement.toSql statement.pieces []) ∧
      ReadsAs (ddlBatch idl schema)
        (separated "\n" ((buildDdlStatements idl schema).map Statement.pieces)) [] := by
  refine ⟨?_, ?_, ?_, ?_, ?_⟩
  · intro target filters filters' limit limit' offset offset' hshape hoffset
    exact sql_congr parse target hshape hoffset
  · intro target filters limit offset hschema htable hfilters
    refine ⟨by rw [buildQuery_eq], readsAs_buildQuery parse limit offset hschema htable ?_⟩
    intro filter hfilter
    exact (hfilters filter hfilter).condition parse
  · intro schema hschema
    exact readsAs_buildInstructionSql hschema
  · intro schema table promoted hschema htable hpromoted
    exact readsAs_buildAccountUpsertSql hschema htable hpromoted
  · intro idl schema hschema
    have hnamed := buildDdlStatements_wellNamed idl hschema
    exact ⟨fun statement hmem => readsAs_statement (hnamed statement hmem), readsAs_batch hnamed⟩

def hostileFilters (first second : String) : List ResolvedFilter :=
  [⟨.promoted "a\" --" (some "BIGINT"), .gt, first⟩, ⟨.jsonb "x'; /*", .ne, second⟩]

theorem sql_text_exact_hostile :
    (buildQuery (fun _ => none) (.accounts "s\"" "$$t") (hostileFilters "1" "a") 10 0).sql =
        (buildQuery (fun _ => none) (.accounts "s\"" "$$t") (hostileFilters "'" "\\") 20 0).sql ∧
      ReadsAs (buildQuery (fun _ => none) (.accounts "s\"" "$$t") (hostileFilters "1" "a") 10 0).sql
        (queryPieces (.accounts "s\"" "$$t")
          ((hostileFilters "1" "a").map (filterCondition fun _ => none)) 0) [1, 2, 3] ∧
      ReadsAs (buildInstructionSql "s\"") (instructionPieces "s\"") (List.range' 1 10) := by
  obtain ⟨hsame, hquery, hinstruction, _⟩ := sql_text_exact fun _ => none
  refine ⟨hsame _ _ _ _ _ _ _ ?_ Iff.rfl, ?_, hinstruction _ (by decide +kernel)⟩
  · exact .cons ⟨rfl, rfl, by decide⟩ (.cons ⟨rfl, rfl, by decide⟩ .nil)
  · refine (hquery _ _ _ _ (by decide +kernel) (by decide +kernel) ?_).2
    intro filter hfilter
    simp only [hostileFilters, List.mem_cons, List.not_mem_nil, or_false] at hfilter
    rcases hfilter with rfl | rfl
    · exact ⟨by decide +kernel, by decide +kernel⟩
    · exact (by decide +kernel : '\x00' ∉ "x'; /*".toList)

def longName : String := String.ofList (List.replicate 60 'a')

def longNamed : Idl :=
  { address := "", instructions := [], accounts := [⟨longName, []⟩], types := [] }

def longIndex : Statement := btreeIndex "s" longName "slot_updated"

def longIndexName : String := "idx_" ++ longName ++ "_slot_updated"

/-- The index of the account's table has a name of 77 bytes, and its token denotes the first
63 of them. -/
theorem sql_text_cuts_index_name :
    longIndex ∈ buildDdlStatements longNamed "s" ∧ Piece.name longIndexName ∈ longIndex.pieces ∧
      '\x00' ∉ longIndexName.toList ∧
      ∃ tokens, lex longIndex.toSql = some tokens ∧ .ident longIndexName ∉ tokens ∧
        .ident (pgIdentifier longIndexName) ∈ tokens := by
  have htable : sanitizeIdentifier longName = longName := by decide +kernel
  have hmem : longIndex ∈ buildDdlStatements longNamed "s" := by
    simp [longIndex, buildDdlStatements, generateIndexes, longNamed, htable]
  have hname : Piece.name longIndexName ∈ longIndex.pieces := by
    simp only [longIndex, btreeIndex, Statement.pieces, IndexDef.pieces, List.mem_cons]
    exact .inr (.inr (.inl rfl))
  have hnamed := buildDdlStatements_wellNamed longNamed (by decide +kernel : '\x00' ∉ "s".toList)
  obtain ⟨hlex, -, -⟩ := readsAs_statement (hnamed longIndex hmem)
  refine ⟨hmem, hname, by decide +kernel, ?_⟩
  rw [hlex]
  decide +kernel

end Solarix.Storage
