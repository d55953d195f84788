import Solarix.Api.Filters
import Solarix.Core.SqlLexer
import Solarix.Json

/-!
# Queries

`storage/queries.rs`: the text and the bound values of a `SELECT` with filters.  Each filter
becomes a condition.  The text of a condition has the filter's column in it, never its value.
-/

namespace Solarix.Api

def FilterOp.asSql : FilterOp → String
  | .eq => "="
  | .ne => "!="
  | .gt => ">"
  | .gte => ">="
  | .lt => "<"
  | .lte => "<="
  | .contains => "@>"
  | .inList => "= ANY"

end Solarix.Api

namespace Solarix.Storage

open Solarix.Core Solarix.Api

inductive QueryTarget where
  | instructions (schema : String)
  | accounts (schema table : String)
  deriving DecidableEq, Repr

/-! ## The query builder -/

inductive Bind where
  | text (s : String)
  | texts (values : List String)
  | json (value : Json)
  | int (z : Int)

structure QueryBuilder where
  sql : String
  binds : List Bind

namespace QueryBuilder

def push (qb : QueryBuilder) (text : String) : QueryBuilder := { qb with sql := qb.sql ++ text }

/-- The placeholder of a value has its place among the bound values. -/
def pushBind (qb : QueryBuilder) (bind : Bind) : QueryBuilder where
  sql := qb.sql ++ ("$" ++ toString (qb.binds.length + 1))
  binds := qb.binds ++ [bind]

end QueryBuilder

def inValues (value : String) : List String :=
  ((splitAll ',' value).map trim).filter fun s => !s.isEmpty

def escapeJsonbKey (key : String) : String :=
  String.ofList (key.toList.flatMap fun c => if c = '\'' then [c, c] else [c])

/-- The value that an equality on a JSON field is compared with.  `parse` is
`serde_json::from_str`. -/
def filterJson (parse : String → Option Json) (value : String) : Json :=
  (parse value).getD (.str value)

def appendFilterClause (parse : String → Option Json) (qb : QueryBuilder)
    (filter : ResolvedFilter) : QueryBuilder :=
  match filter.columnExpr, filter.op with
  | .promoted column _, .inList =>
      let values := inValues filter.value
      if values.isEmpty then qb.push "FALSE"
      else ((qb.push (quoteIdent column ++ "::text = ANY(")).pushBind (.texts values)).push ")"
  | .promoted column pgType, op =>
      let qb := (qb.push (quoteIdent column ++ " " ++ op.asSql ++ " ")).pushBind
        (.text filter.value)
      match pgType with
      | some t => qb.push ("::" ++ t)
      | none => qb
  | .jsonb field, .eq | .jsonb field, .contains =>
      (qb.push "\"data\" @> ").pushBind
        (.json (Json.ofEntries [(field, filterJson parse filter.value)]))
  | .jsonb field, .inList =>
      let values := inValues filter.value
      if values.isEmpty then qb.push "FALSE"
      else
        ((qb.push ("\"data\"->>'" ++ escapeJsonbKey field ++ "' = ANY(")).pushBind
          (.texts values)).push ")"
  | .jsonb field, op =>
      (qb.push ("(\"data\"->>'" ++ escapeJsonbKey field ++ "') " ++ op.asSql ++ " ")).pushBind
        (.text filter.value)

def QueryTarget.qualifiedTable : QueryTarget → String
  | .instructions schema => qualify schema "_instructions"
  | .accounts schema table => qualify schema table

def QueryTarget.selectCols : QueryTarget → String
  | .instructions _ =>
      "\"signature\", \"slot\", \"block_time\", \"instruction_name\", \"args\", \"accounts\", \"data\""
  | .accounts _ _ => "\"pubkey\", \"slot_updated\", \"lamports\", \"data\""

/-- One turn of the loop of `build_query_base`. -/
def appendCondition (parse : String → Option Json) (state : QueryBuilder × Bool)
    (filter : ResolvedFilter) : QueryBuilder × Bool :=
  (appendFilterClause parse (state.1.push (if state.2 then " AND " else " WHERE ")) filter, true)

/-- The second component says whether there is a `WHERE`. -/
def buildQueryBase (parse : String → Option Json) (target : QueryTarget)
    (filters : List ResolvedFilter) : QueryBuilder × Bool :=
  filters.foldl (appendCondition parse)
    (⟨"SELECT " ++ target.selectCols ++ " FROM " ++ target.qualifiedTable, []⟩, false)

def QueryTarget.orderBy : QueryTarget → String
  | .instructions _ => "\"slot\" DESC, \"signature\" DESC"
  | .accounts _ _ => "\"slot_updated\" DESC"

def appendOrderAndLimit (qb : QueryBuilder) (target : QueryTarget) (limit offset : Int) :
    QueryBuilder :=
  let qb := (((qb.push " ORDER BY ").push target.orderBy).push " LIMIT ").pushBind (.int limit)
  if 0 < offset then (qb.push " OFFSET ").pushBind (.int offset) else qb

def buildQuery (parse : String → Option Json) (target : QueryTarget)
    (filters : List ResolvedFilter) (limit offset : Int) : QueryBuilder :=
  appendOrderAndLimit (buildQueryBase parse target filters).1 target limit offset

/-! ## Conditions -/

/-- What `append_filter_clause` appends. -/
inductive Condition where
  | never
  /-- The column's text is one of the values. -/
  | columnAny (column : String) (values : List String)
  | columnOp (column : String) (op : FilterOp) (value : String) (cast : Option String)
  /-- `data` contains the object. -/
  | dataContains (field : String) (value : Json)
  /-- The text of a field of `data` is one of the values. -/
  | fieldAny (field : String) (values : List String)
  | fieldOp (field : String) (op : FilterOp) (value : String)

def filterCondition (parse : String → Option Json) (filter : ResolvedFilter) : Condition :=
  match filter.columnExpr, filter.op with
  | .promoted column _, .inList =>
      if (inValues filter.value).isEmpty then .never
      else .columnAny column (inValues filter.value)
  | .promoted column pgType, op => .columnOp column op filter.value pgType
  | .jsonb field, .eq | .jsonb field, .contains =>
      .dataContains field (filterJson parse filter.value)
  | .jsonb field, .inList =>
      if (inValues filter.value).isEmpty then .never
      else .fieldAny field (inValues filter.value)
  | .jsonb field, op => .fieldOp field op filter.value

namespace Condition

def castPieces : Option String → List Piece
  | some t => [.fixed "::", .fixed t]
  | none => []

/-- The text of a condition whose value has the placeholder `n`. -/
def pieces (n : Nat) : Condition → List Piece
  | .never => [.fixed "FALSE"]
  | .columnAny column _ => [.name column, .fixed "::text = ANY(", .param n, .fixed ")"]
  | .columnOp column op _ cast =>
      [.name column, .fixed " ", .fixed op.asSql, .fixed " ", .param n] ++ castPieces cast
  | .dataContains _ _ => [.fixed "\"data\" @> ", .param n]
  | .fieldAny field _ =>
      [.fixed "\"data\"->>", .key field, .fixed " = ANY(", .param n, .fixed ")"]
  | .fieldOp field op _ =>
      [.fixed "(\"data\"->>", .key field, .fixed ") ", .fixed op.asSql, .fixed " ", .param n]

def binds : Condition → List Bind
  | .never => []
  | .columnAny _ values => [.texts values]
  | .columnOp _ _ value _ => [.text value]
  | .dataContains field value => [.json (Json.ofEntries [(field, value)])]
  | .fieldAny _ values => [.texts values]
  | .fieldOp _ _ value => [.text value]

end Condition

theorem quoteIdent_eq (name : String) : quoteIdent name = quoted '"' name := by
  apply String.toList_injective
  simp [quoteIdent, quoted, doubled]

theorem fieldAny_text (field rest : String) :
    "\"data\"->>'" ++ (escapeJsonbKey field ++ ("' = ANY(" ++ rest)) =
      "\"data\"->>" ++ (quoted '\'' field ++ (" = ANY(" ++ rest)) := by
  apply String.toList_injective
  simp [escapeJsonbKey, quoted, doubled]

theorem fieldOp_text (field rest : String) :
    "(\"data\"->>'" ++ (escapeJsonbKey field ++ ("') " ++ rest)) =
      "(\"data\"->>" ++ (quoted '\'' field ++ (") " ++ rest)) := by
  apply String.toList_injective
  simp [escapeJsonbKey, quoted, doubled]

def QueryBuilder.add (qb : QueryBuilder) (condition : Condition) : QueryBuilder where
  sql := qb.sql ++ renderPieces (condition.pieces (qb.binds.length + 1))
  binds := qb.binds ++ condition.binds

theorem appendFilterClause_eq (parse : String → Option Json) (qb : QueryBuilder)
    (filter : ResolvedFilter) :
    appendFilterClause parse qb filter = qb.add (filterCondition parse filter) := by
  obtain ⟨expr, op, value⟩ := filter
  cases expr with
  | promoted column pgType =>
      by_cases hin : op = .inList
      · subst hin
        simp only [appendFilterClause, filterCondition]
        split
        · simp [QueryBuilder.push, QueryBuilder.add, Condition.pieces, Condition.binds, Piece.text]
        · simp [QueryBuilder.push, QueryBuilder.pushBind, QueryBuilder.add, Condition.pieces,
            Condition.binds, Piece.text, quoteIdent_eq, String.append_assoc]
      · have happend : appendFilterClause parse qb ⟨.promoted column pgType, op, value⟩ =
            match pgType with
            | some t => ((qb.push (quoteIdent column ++ " " ++ op.asSql ++ " ")).pushBind
                (.text value)).push ("::" ++ t)
            | none => (qb.push (quoteIdent column ++ " " ++ op.asSql ++ " ")).pushBind
                (.text value) := by
          cases op <;> first | rfl | exact absurd rfl hin
        have hcondition : filterCondition parse ⟨.promoted column pgType, op, value⟩ =
            .columnOp column op value pgType := by
          cases op <;> first | rfl | exact absurd rfl hin
        rw [happend, hcondition]
        cases pgType <;>
          simp [QueryBuilder.push, QueryBuilder.pushBind, QueryBuilder.add, Condition.pieces,
            Condition.binds, Condition.castPieces, Piece.text, quoteIdent_eq,
            String.append_assoc]
  | jsonb field =>
      cases op with
      | eq | contains =>
          simp [appendFilterClause, filterCondition, QueryBuilder.push, QueryBuilder.pushBind,
            QueryBuilder.add, Condition.pieces, Condition.binds, Piece.text,
            String.append_assoc]
      | inList =>
          simp only [appendFilterClause, filterCondition]
          split
          · simp [QueryBuilder.push, QueryBuilder.add, Condition.pieces, Condition.binds,
              Piece.text]
          · simp [QueryBuilder.push, QueryBuilder.pushBind, QueryBuilder.add,
              Condition.pieces, Condition.binds, Piece.text, fieldAny_text,
              String.append_assoc]
      | _ =>
          simp [appendFilterClause, filterCondition, QueryBuilder.push, QueryBuilder.pushBind,
            QueryBuilder.add, Condition.pieces, Condition.binds, Piece.text, fieldOp_text,
            String.append_assoc]

/-! ## The whole query -/

def conditionPieces : Nat → List Condition → List (List Piece)
  | _, [] => []
  | n, condition :: conditions =>
      condition.pieces n :: conditionPieces (n + condition.binds.length) conditions

def wherePieces (conjuncts : List (List Piece)) : List Piece :=
  if conjuncts.isEmpty then [] else .fixed " WHERE " :: separated " AND " conjuncts

def QueryTarget.schema : QueryTarget → String
  | .instructions schema => schema
  | .accounts schema _ => schema

def QueryTarget.table : QueryTarget → String
  | .instructions _ => "_instructions"
  | .accounts _ table => table

def QueryTarget.selectPieces (target : QueryTarget) : List Piece :=
  [.fixed "SELECT ", .fixed target.selectCols, .fixed " FROM ", .name target.schema, .fixed ".",
    .name target.table]

def orderPieces (target : QueryTarget) (n : Nat) (offset : Int) : List Piece :=
  [.fixed " ORDER BY ", .fixed target.orderBy, .fixed " LIMIT ", .param n] ++
    if 0 < offset then [.fixed " OFFSET ", .param (n + 1)] else []

def queryPieces (target : QueryTarget) (conditions : List Condition) (offset : Int) :
    List Piece :=
  target.selectPieces ++ wherePieces (conditionPieces 1 conditions) ++
    orderPieces target (1 + (conditions.flatMap Condition.binds).length) offset

/-- The bound values: those of the filters in order, the limit and the offset. -/
def queryBinds (conditions : List Condition) (limit offset : Int) : List Bind :=
  conditions.flatMap Condition.binds ++ .int limit :: if 0 < offset then [.int offset] else []

theorem foldl_appendCondition (parse : String → Option Json) (qb : QueryBuilder)
    (filters : List ResolvedFilter) :
    filters.foldl (appendCondition parse) (qb, true) =
      (⟨qb.sql ++ renderPieces ((conditionPieces (qb.binds.length + 1)
          (filters.map (filterCondition parse))).flatMap (.fixed " AND " :: ·)),
        qb.binds ++ (filters.map (filterCondition parse)).flatMap Condition.binds⟩, true) := by
  induction filters generalizing qb with
  | nil => simp [conditionPieces]
  | cons filter filters ih =>
      rw [List.foldl_cons, appendCondition, appendFilterClause_eq, ih]
      simp [QueryBuilder.add, QueryBuilder.push, conditionPieces, Piece.text,
        String.append_assoc, Nat.add_right_comm]

theorem renderPieces_selectPieces (target : QueryTarget) :
    renderPieces target.selectPieces =
      "SELECT " ++ target.selectCols ++ " FROM " ++ target.qualifiedTable := by
  cases target <;>
    simp [QueryTarget.selectPieces, QueryTarget.qualifiedTable, QueryTarget.schema,
      QueryTarget.table, qualify, quoteIdent_eq, Piece.text, String.append_assoc]

theorem buildQueryBase_eq (parse : String → Option Json) (target : QueryTarget)
    (filters : List ResolvedFilter) :
    (buildQueryBase parse target filters).1 =
      ⟨renderPieces (target.selectPieces ++
          wherePieces (conditionPieces 1 (filters.map (filterCondition parse)))),
        (filters.map (filterCondition parse)).flatMap Condition.binds⟩ := by
  unfold buildQueryBase
  rw [← renderPieces_selectPieces]
  cases filters with
  | nil => simp [wherePieces, conditionPieces]
  | cons filter filters =>
      rw [List.foldl_cons, appendCondition, appendFilterClause_eq, foldl_appendCondition]
      simp [QueryBuilder.add, QueryBuilder.push, conditionPieces, wherePieces, separated,
        Piece.text, String.append_assoc, Nat.add_comm]

theorem buildQuery_eq (parse : String → Option Json) (target : QueryTarget)
    (filters : List ResolvedFilter) (limit offset : Int) :
    buildQuery parse target filters limit offset =
      ⟨renderPieces (queryPieces target (filters.map (filterCondition parse)) offset),
        queryBinds (filters.map (filterCondition parse)) limit offset⟩ := by
  unfold buildQuery
  rw [buildQueryBase_eq]
  unfold appendOrderAndLimit queryPieces orderPieces queryBinds
  split <;>
    simp [QueryBuilder.push, QueryBuilder.pushBind, Piece.text, String.append_assoc,
      Nat.add_comm]

/-! ## Independence of the values -/

/-- The filters differ in their values only, and both lists of an `_in` are empty or none. -/
def SameShape (f g : ResolvedFilter) : Prop :=
  f.columnExpr = g.columnExpr ∧ f.op = g.op ∧
    (f.op = .inList → ((inValues f.value).isEmpty ↔ (inValues g.value).isEmpty))

section Shape

variable (parse : String → Option Json) {f g : ResolvedFilter}

theorem SameShape.condition (h : SameShape f g) (n : Nat) :
    (filterCondition parse f).pieces n = (filterCondition parse g).pieces n ∧
      (filterCondition parse f).binds.length = (filterCondition parse g).binds.length := by
  obtain ⟨expr, op, value⟩ := f
  obtain ⟨_, _, value'⟩ := g
  obtain ⟨rfl, rfl, hin⟩ := h
  cases op with
  | inList =>
      have hempty := hin rfl
      by_cases hvalues : (inValues value).isEmpty
      · have hvalues' := hempty.mp hvalues
        cases expr <;> simp [filterCondition, hvalues, hvalues']
      · have hvalues' := mt hempty.mpr hvalues
        cases expr <;>
          simp [filterCondition, hvalues, hvalues', Condition.pieces, Condition.binds]
  | _ => cases expr <;> exact ⟨rfl, rfl⟩

theorem conditionPieces_congr {fs gs : List ResolvedFilter} (h : List.Forall₂ SameShape fs gs)
    (n : Nat) :
    conditionPieces n (fs.map (filterCondition parse)) =
      conditionPieces n (gs.map (filterCondition parse)) ∧
    ((fs.map (filterCondition parse)).flatMap Condition.binds).length =
      ((gs.map (filterCondition parse)).flatMap Condition.binds).length := by
  induction h generalizing n with
  | nil => exact ⟨rfl, rfl⟩
  | @cons f g fs gs hfg _ ih =>
      obtain ⟨hpieces, hlength⟩ := hfg.condition parse n
      obtain ⟨hlater, htotal⟩ := ih (n + (filterCondition parse f).binds.length)
      simp only [List.map_cons, conditionPieces, List.flatMap_cons, List.length_append]
      exact ⟨by rw [hpieces, hlater, hlength], by rw [hlength, htotal]⟩

theorem sql_congr {fs gs : List ResolvedFilter} (target : QueryTarget)
    (h : List.Forall₂ SameShape fs gs) {limit limit' offset offset' : Int}
    (hoffset : 0 < offset ↔ 0 < offset') :
    (buildQuery parse target fs limit offset).sql =
      (buildQuery parse target gs limit' offset').sql := by
  obtain ⟨hpieces, hlength⟩ := conditionPieces_congr parse h 1
  rw [buildQuery_eq, buildQuery_eq]
  simp only [queryPieces, orderPieces, hpieces, hlength, hoffset]

end Shape

/-! ## The tokens of a query -/

def castTexts : List String := promotedTypes.map PgType.toSql

/-- The names are texts that PostgreSQL can hold, and the type is a column type. -/
def Condition.WellNamed : Condition → Prop
  | .columnAny column _ => '\x00' ∉ column.toList
  | .columnOp column _ _ cast => '\x00' ∉ column.toList ∧ ∀ t ∈ cast, t ∈ castTexts
  | .fieldAny field _ => '\x00' ∉ field.toList
  | .fieldOp field _ _ => '\x00' ∉ field.toList
  | .never | .dataContains _ _ => True

section Tokens

variable {cs ds : List Char} {n : Nat} {pieces : List Piece} {numbers : List Nat}

theorem asSql_plain (op : FilterOp) : PlainText op.asSql := by
  cases op <;> exact .intro rfl rfl

theorem castTexts_eq : castTexts =
    ["BOOLEAN", "SMALLINT", "INTEGER", "BIGINT", "REAL", "DOUBLE PRECISION", "NUMERIC(39,0)",
      "NUMERIC(78,0)", "TEXT", "BYTEA"] := by
  decide +kernel

theorem cast_plain {t : String} (ht : t ∈ castTexts) : PlainText t := by
  rw [castTexts_eq] at ht
  simp only [List.mem_cons, List.not_mem_nil, or_false] at ht
  rcases ht with rfl | rfl | rfl | rfl | rfl | rfl | rfl | rfl | rfl | rfl <;>
    exact .intro rfl rfl

theorem Condition.WellNamed.readable {condition : Condition} (h : condition.WellNamed) (n : Nat) :
    Readable (condition.pieces n) (List.range' n condition.binds.length) := by
  cases condition with
  | never => exact .fixed rfl .nil
  | columnAny column values =>
      exact .name h (.fixed rfl (.param (.fixed rfl .nil)))
  | columnOp column op value cast =>
      obtain ⟨hcolumn, hcast⟩ := h
      refine .name hcolumn (.fixed rfl ((asSql_plain op).readable
        (.fixed rfl (.param ?_))))
      cases cast with
      | none => exact .nil
      | some t => exact .fixed rfl ((cast_plain (hcast t rfl)).readable .nil)
  | dataContains field value => exact .fixed rfl (.param .nil)
  | fieldAny field values =>
      exact .fixed rfl (.key h (.fixed rfl (.param
        (.fixed rfl .nil))))
  | fieldOp field op value =>
      exact .fixed rfl (.key h (.fixed rfl
        ((asSql_plain op).readable (.fixed rfl (.param .nil)))))

theorem Condition.WellNamed.isChain {condition : Condition} (h : condition.WellNamed)
    (hclean : (LexState.run .start cs).map Prod.snd = some .start) :
    List.IsChain Joins (Piece.fixed (String.ofList cs) :: condition.pieces n ++
      [Piece.fixed (String.ofList (' ' :: ds))]) := by
  cases condition with
  | never =>
      exact .cons_cons (.clean hclean (Piece.first_ofList _ _))
        (.cons_cons (.texts rfl) (.singleton _))
  | columnAny column values =>
      exact .cons_cons (.clean hclean rfl) (.cons_cons (.name (by simp))
        (.cons_cons (.clean rfl rfl) (.cons_cons (.param rfl)
          (.cons_cons (.texts rfl) (.singleton _)))))
  | columnOp column op value cast =>
      have hop := asSql_plain op
      refine .cons_cons (.clean hclean rfl) (.cons_cons (.name (by simp))
        (.cons_cons (hop.joins_of_clean rfl) (.cons_cons (hop.joins (by simp))
          (.cons_cons (.clean rfl rfl) ?_))))
      cases cast with
      | none => exact .cons_cons (.param rfl) (.singleton _)
      | some t =>
          have htype := cast_plain (h.2 t rfl)
          exact .cons_cons (.param rfl)
            (.cons_cons (htype.joins_of_clean rfl)
              (.cons_cons (htype.joins (by simp)) (.singleton _)))
  | dataContains field value =>
      exact .cons_cons (.clean hclean (Piece.first_ofList _ _))
        (.cons_cons (.clean rfl rfl) (.cons_cons (.param rfl)
          (.singleton _)))
  | fieldAny field values =>
      exact .cons_cons (.clean hclean (Piece.first_ofList _ _))
        (.cons_cons (.fixed rfl rfl) (.cons_cons (.key rfl)
          (.cons_cons (.clean rfl rfl) (.cons_cons (.param rfl)
            (.cons_cons (.texts rfl) (.singleton _))))))
  | fieldOp field op value =>
      have hop := asSql_plain op
      exact .cons_cons (.clean hclean (Piece.first_ofList _ _))
        (.cons_cons (.fixed rfl rfl) (.cons_cons (.key rfl)
          (.cons_cons (hop.joins_of_clean rfl) (.cons_cons (hop.joins (by simp))
            (.cons_cons (.clean rfl rfl) (.cons_cons (.param rfl)
              (.singleton _)))))))

theorem mem_conditionPieces {conditions : List Condition} {block : List Piece}
    (h : block ∈ conditionPieces n conditions) :
    ∃ condition ∈ conditions, ∃ m, block = condition.pieces m := by
  induction conditions generalizing n with
  | nil => cases h
  | cons condition conditions ih =>
      rcases List.mem_cons.mp h with rfl | h
      · exact ⟨condition, List.mem_cons_self, n, rfl⟩
      · obtain ⟨other, hmem, m, rfl⟩ := ih h
        exact ⟨other, List.mem_cons_of_mem _ hmem, m, rfl⟩

theorem conjuncts_readable {conditions : List Condition}
    (h : ∀ condition ∈ conditions, condition.WellNamed) :
    Readable (separated " AND " (conditionPieces n conditions))
      (List.range' n (conditions.flatMap Condition.binds).length) := by
  induction conditions generalizing n with
  | nil => exact .nil
  | cons condition conditions ih =>
      obtain ⟨hcondition, hconditions⟩ := List.forall_mem_cons.mp h
      rw [List.flatMap_cons, List.length_append, ← List.range'_append_1]
      have hfirst := hcondition.readable n
      have hlater := @ih (n + condition.binds.length) hconditions
      cases conditions with
      | nil => exact hfirst.append .nil
      | cons following conditions => exact hfirst.append (.fixed rfl hlater)

theorem wherePieces_readable {conditions : List Condition}
    (h : ∀ condition ∈ conditions, condition.WellNamed) :
    Readable (wherePieces (conditionPieces n conditions))
      (List.range' n (conditions.flatMap Condition.binds).length) := by
  cases conditions with
  | nil => exact .nil
  | cons condition conditions => exact .fixed rfl (conjuncts_readable h)

theorem wherePieces_isChain {conditions : List Condition} {name : String}
    (h : ∀ condition ∈ conditions, condition.WellNamed) :
    List.IsChain Joins (.name name :: wherePieces (conditionPieces n conditions) ++
      [.fixed " ORDER BY "]) := by
  have hconjuncts : List.IsChain Joins (.fixed " WHERE " ::
      separated " AND " (conditionPieces n conditions) ++ [.fixed " ORDER BY "]) := by
    refine separated_isChain (.texts rfl) ?_
    intro block hblock p hp q hq
    obtain ⟨condition, hmem, m, rfl⟩ := mem_conditionPieces hblock
    have hcondition := h condition hmem
    simp only [List.mem_cons, List.not_mem_nil, or_false] at hp hq
    rcases hp with rfl | rfl <;> rcases hq with rfl | rfl <;>
      exact hcondition.isChain rfl
  cases conditions with
  | nil => exact .cons_cons (.name (by simp)) (.singleton _)
  | cons condition conditions => exact .cons_cons (.name (by simp)) hconjuncts

theorem orderPieces_readable (target : QueryTarget) (n : Nat) (offset : Int) :
    Readable (orderPieces target n offset)
      (List.range' n (1 + if 0 < offset then 1 else 0)) := by
  have horder : Readable [.fixed " ORDER BY ", .fixed target.orderBy, .fixed " LIMIT ", .param n]
      [n] := by
    cases target <;>
      exact .fixed rfl (.fixed rfl
        (.fixed rfl (.param .nil)))
  unfold orderPieces
  split
  · exact horder.append (.fixed rfl (.param .nil))
  · exact horder.append .nil

theorem orderPieces_isChain (target : QueryTarget) (n : Nat) (offset : Int) :
    (orderPieces target n offset).IsChain Joins := by
  have hoffset : List.IsChain Joins (.fixed " LIMIT " :: .param n ::
      if 0 < offset then [.fixed " OFFSET ", .param (n + 1)] else []) := by
    split
    · exact .cons_cons (.clean rfl rfl) (.cons_cons (.param rfl)
        (.cons_cons (.clean rfl rfl) (.singleton _)))
    · exact .cons_cons (.clean rfl rfl) (.singleton _)
  cases target <;>
    exact .cons_cons (.texts rfl) (.cons_cons (.texts rfl) hoffset)

theorem selectPieces_readable {target : QueryTarget} (hschema : '\x00' ∉ target.schema.toList)
    (htable : '\x00' ∉ target.table.toList) : Readable target.selectPieces [] := by
  have hend : Readable [.fixed " FROM ", .name target.schema, .fixed ".", .name target.table] [] :=
    .fixed rfl (.name hschema (.fixed rfl (.name htable .nil)))
  cases target <;> exact .fixed (by decide +kernel) (.fixed (by decide +kernel) hend)

theorem selectPieces_isChain (target : QueryTarget) : target.selectPieces.IsChain Joins := by
  have hend : List.IsChain Joins [.fixed " FROM ", .name target.schema, .fixed ".",
      .name target.table] :=
    .cons_cons (.clean rfl rfl) (.cons_cons (.name (by simp))
      (.cons_cons (.fixed rfl rfl) (.singleton _)))
  cases target <;>
    exact .cons_cons (.texts (by decide +kernel)) (.cons_cons (.texts (by decide +kernel)) hend)

theorem queryPieces_isChain {target : QueryTarget} {conditions : List Condition} {offset : Int}
    (h : ∀ condition ∈ conditions, condition.WellNamed) :
    (queryPieces target conditions offset).IsChain Joins := by
  have hselect : target.selectPieces =
      [.fixed "SELECT ", .fixed target.selectCols, .fixed " FROM ", .name target.schema,
        .fixed "."] ++ [.name target.table] := rfl
  have horder := orderPieces_isChain target
    (1 + (conditions.flatMap Condition.binds).length) offset
  have hfirst := selectPieces_isChain target
  have hwhere := @wherePieces_isChain 1 conditions target.table h
  obtain ⟨rest, hrest⟩ : ∃ rest, orderPieces target
      (1 + (conditions.flatMap Condition.binds).length) offset = .fixed " ORDER BY " :: rest :=
    ⟨_, rfl⟩
  unfold queryPieces
  rw [hselect] at hfirst ⊢
  rw [hrest] at horder ⊢
  refine List.isChain_split.mpr ⟨?_, horder⟩
  rw [List.append_assoc, List.append_assoc, List.singleton_append]
  exact List.isChain_split.mpr ⟨hfirst, hwhere⟩

/-- The tokens of a query: the names of the target and of the filters, each one token, one
conjunct for each filter, and the placeholders numbered in the order of the bound values. -/
theorem readsAs_buildQuery (parse : String → Option Json) {target : QueryTarget}
    {filters : List ResolvedFilter} (limit offset : Int)
    (hschema : '\x00' ∉ target.schema.toList) (htable : '\x00' ∉ target.table.toList)
    (hfilters : ∀ filter ∈ filters, (filterCondition parse filter).WellNamed) :
    ReadsAs (buildQuery parse target filters limit offset).sql
      (queryPieces target (filters.map (filterCondition parse)) offset)
      (List.range' 1 (buildQuery parse target filters limit offset).binds.length) := by
  have hconditions : ∀ condition ∈ filters.map (filterCondition parse), condition.WellNamed := by
    simpa using hfilters
  have hcount : List.range' 1 (queryBinds (filters.map (filterCondition parse)) limit
      offset).length =
      List.range' 1 ((filters.map (filterCondition parse)).flatMap Condition.binds).length ++
        List.range' (1 + ((filters.map (filterCondition parse)).flatMap Condition.binds).length)
          (1 + if 0 < offset then 1 else 0) := by
    rw [List.range'_append_1]
    unfold queryBinds
    congr 1
    split <;> simp
  rw [buildQuery_eq]
  refine readsAs_renderPieces ?_ (queryPieces_isChain hconditions)
  simp only [hcount]
  exact ((selectPieces_readable hschema htable).append
    (wherePieces_readable hconditions)).append (orderPieces_readable target _ offset)

end Tokens

def NamedExpr : ColumnExpr → Prop
  | .promoted column pgType => '\x00' ∉ column.toList ∧ ∀ t ∈ pgType, t ∈ castTexts
  | .jsonb field => '\x00' ∉ field.toList

theorem NamedExpr.condition {filter : ResolvedFilter} (h : NamedExpr filter.columnExpr)
    (parse : String → Option Json) : (filterCondition parse filter).WellNamed := by
  obtain ⟨expr, op, value⟩ := filter
  cases op with
  | inList =>
      by_cases hvalues : (inValues value).isEmpty
      · cases expr <;> simp [filterCondition, hvalues, Condition.WellNamed]
      · cases expr with
        | promoted column pgType =>
            simpa [filterCondition, hvalues, Condition.WellNamed] using h.1
        | jsonb field =>
            have hfield : '\x00' ∉ field.toList := h
            simpa [filterCondition, hvalues, Condition.WellNamed] using hfield
  | eq | contains =>
      cases expr with
      | promoted column pgType => exact h
      | jsonb field => trivial
  | _ => cases expr <;> exact h

theorem resolveColumn_named {fields : List IdlField} {types : List IdlTypeDef}
    {context : FilterContext} {name : String} {expr : ColumnExpr}
    (h : resolveColumn fields types context name = .ok expr) (hname : '\x00' ∉ name.toList) :
    NamedExpr expr := by
  rcases resolveColumn_eq_ok h with
    ⟨pgType, hmem, rfl⟩ | ⟨_, field, _, ⟨pgType, htype, rfl⟩ | ⟨_, rfl⟩⟩
  · refine ⟨hname, ?_⟩
    rintro t ⟨⟩
    have hfixed : ∀ column ∈ context.fixedColumns, column.2 ∈ castTexts := by
      cases context <;> decide +kernel
    exact hfixed _ hmem
  · refine ⟨hname, ?_⟩
    rintro t ⟨⟩
    exact List.mem_map_of_mem (mapIdlTypeToPg_mem htype)
  · exact hname

end Solarix.Storage
