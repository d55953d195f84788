import Solarix.Storage.Containment
import Solarix.Storage.PromotedValues
import Solarix.Storage.Queries

/-!
# The rows that a filter selects

What the conditions of `append_filter_clause` say of a row, with PostgreSQL's operators as
parameters.  A condition may fail, and it may be `NULL`.
-/

namespace Solarix.Storage

open Solarix.Core Solarix.Api

/-- The operators of PostgreSQL on the values of columns.  `less` is the order of the type,
with `NaN` above the other floating point numbers.  `castOther` is the cast to a type that
is no `CastType`, `acceptsText` and `acceptsJson` say which bound values are taken. -/
structure PgOperators (pg : PgCasts) where
  equal : pg.Value → pg.Value → Bool
  less : pg.Value → pg.Value → Bool
  ofFloat : Nat → pg.Numeric
  numericText : pg.Numeric → String
  floatingText : pg.Floating → String
  castOther : String → String → Option pg.Value
  acceptsText : String → Bool
  acceptsJson : Json → Bool

structure PgOperators.Documented {pg : PgCasts} (ops : PgOperators pg) : Prop where
  equal_self : ∀ v, v ≠ .null → ops.equal v v = true
  equal_boolean : ∀ b b', ops.equal (.boolean b) (.boolean b') = decide (b = b')
  equal_integer : ∀ z z', ops.equal (.integer z) (.integer z') = decide (z = z')
  equal_text : ∀ s s', ops.equal (.text s) (.text s') = decide (s = s')
  castOther_ne_null : ∀ type text, ops.castOther type text ≠ some .null

/-- A row of the table, with the `jsonb` of its `data`, which keeps one value for a key. -/
structure QueryRow (pg : PgCasts) where
  columns : String → pg.Value
  data : Json
  distinctKeys : data.DistinctKeys

namespace PgOperators

variable {pg : PgCasts} (ops : PgOperators pg)

/-! ## Values -/

/-- `$1::type`. -/
def castTo (type text : String) : Option pg.Value :=
  match type with
  | "BOOLEAN" => pg.cast text .boolean
  | "SMALLINT" => pg.cast text .smallint
  | "INTEGER" => pg.cast text .integer
  | "BIGINT" => pg.cast text .bigint
  | "REAL" => pg.cast text .real
  | "DOUBLE PRECISION" => pg.cast text .doublePrecision
  | "TEXT" => some (.text text)
  | type => ops.castOther type text

def bound (cast : Option String) (text : String) : Option pg.Value :=
  match cast with
  | some type => ops.castTo type text
  | none => some (.text text)

/-- `column::text`, `none` for `NULL`. -/
def columnText : pg.Value → Option String
  | .null => none
  | .boolean b => some (if b then "true" else "false")
  | .integer z => some (toString z)
  | .numeric n => some (ops.numericText n)
  | .floating x => some (ops.floatingText x)
  | .text s => some s

def operator : FilterOp → Option (pg.Value → pg.Value → Bool)
  | .eq => some ops.equal
  | .ne => some fun a b => !ops.equal a b
  | .gt => some fun a b => ops.less b a
  | .gte => some fun a b => !ops.less a b
  | .lt => some ops.less
  | .lte => some fun a b => !ops.less b a
  | .contains | .inList => none

/-- `a op b`; the inner `none` is `NULL`. -/
def compare (op : FilterOp) : pg.Value → pg.Value → Option (Option Bool)
  | .null, _ | _, .null => (ops.operator op).map fun _ => none
  | a, b => (ops.operator op).map fun f => some (f a b)

/-- `text = ANY(values)`. -/
def anyOf (text : Option String) (values : List String) : Option Bool :=
  text.map fun text => values.any fun value => ops.equal (.text text) (.text value)

def textValue : Option String → pg.Value
  | some text => .text text
  | none => .null

/-! ### JSON -/

/-- The numbers of `jsonb` are `NUMERIC`. -/
def number : Json → Option pg.Numeric
  | .int z => some (pg.ofInt z)
  | .float bits => some (ops.ofFloat bits)
  | _ => none

def sameScalar : Json → Json → Bool
  | .null, .null => true
  | .bool b, .bool b' => b == b'
  | .str s, .str s' => s == s'
  | a, b =>
      match ops.number a, ops.number b with
      | some m, some n => ops.equal (.numeric m) (.numeric n)
      | _, _ => false

/-- `stored @> value`. -/
def holds (stored value : Json) : Bool := Json.contains ops.sameScalar stored value

/-! ## Conditions -/

/-- The value of a condition on a row.  The outer `none` is an error, the inner one `NULL`. -/
def eval (row : QueryRow pg) : Condition → Option (Option Bool)
  | .never => some (some false)
  | .columnAny column values =>
      if values.all ops.acceptsText then
        some (ops.anyOf (ops.columnText (row.columns column)) values)
      else none
  | .columnOp column op value cast =>
      if ops.acceptsText value then
        (ops.bound cast value).bind (ops.compare op (row.columns column))
      else none
  | .dataContains field value =>
      if ops.acceptsJson (Json.ofEntries [(field, value)]) then
        some (some (ops.holds row.data (Json.ofEntries [(field, value)])))
      else none
  | .fieldAny field values =>
      if values.all ops.acceptsText then some (ops.anyOf (pg.extract row.data field) values)
      else none
  | .fieldOp field op value =>
      if ops.acceptsText value then
        ops.compare op (textValue (pg.extract row.data field)) (.text value)
      else none

variable (parse : String → Option Json) (filter : ResolvedFilter) (row : QueryRow pg)

def Succeeds : Prop := (ops.eval row (filterCondition parse filter)).isSome = true

instance : Decidable (ops.Succeeds parse filter row) := inferInstanceAs (Decidable (_ = true))

/-- `WHERE` keeps the rows of which the condition is true. -/
def selects : Bool := ops.eval row (filterCondition parse filter) == some (some true)

section Comparison

variable {ops}

theorem castTo_ne_null (hops : ops.Documented) {type text : String} {value : pg.Value}
    (h : ops.castTo type text = some value) : value ≠ .null := by
  rintro rfl
  unfold castTo at h
  split at h
  case h_8 => exact hops.castOther_ne_null _ _ h
  all_goals simp [PgCasts.cast] at h

theorem bound_ne_null (hops : ops.Documented) {cast : Option String} {text : String}
    {value : pg.Value} (h : ops.bound cast text = some value) : value ≠ .null := by
  cases cast with
  | some type => exact castTo_ne_null hops h
  | none =>
      cases h
      simp

theorem compare_of_ne_null {op : FilterOp} {a b : pg.Value} (ha : a ≠ .null) (hb : b ≠ .null) :
    ops.compare op a b = (ops.operator op).map fun f => some (f a b) := by
  unfold compare
  split
  · exact absurd rfl ha
  · exact absurd rfl hb
  · rfl

variable {row : QueryRow pg} {column v : String} {cast : Option String} {op : FilterOp}

theorem exists_bound (hops : ops.Documented)
    (h : (ops.eval row (.columnOp column op v cast)).isSome = true) :
    ops.acceptsText v = true ∧ ∃ value, ops.bound cast v = some value ∧ value ≠ .null := by
  rw [eval] at h
  split at h
  · rename_i haccepts
    cases hbound : ops.bound cast v with
    | none => simp [hbound] at h
    | some value => exact ⟨haccepts, value, rfl, bound_ne_null hops hbound⟩
  · simp at h

theorem eval_columnOp (haccepts : ops.acceptsText v = true) {value : pg.Value}
    (hbound : ops.bound cast v = some value) :
    ops.eval row (.columnOp column op v cast) = ops.compare op (row.columns column) value := by
  rw [eval, if_pos haccepts, hbound, Option.bind_some]

end Comparison

section Scalars

variable {ops}

theorem sameScalar_self (hops : ops.Documented) {value : Json} (hleaf : value.isLeaf = true) :
    ops.sameScalar value value = true := by
  cases value with
  | arr items => simp [Json.isLeaf] at hleaf
  | obj entries => simp [Json.isLeaf] at hleaf
  | int z | float bits => exact hops.equal_self _ (by simp)
  | _ => simp [sameScalar]

theorem holds_self (hops : ops.Documented) {value : Json} (hkeys : value.DistinctKeys) :
    ops.holds value value = true :=
  Json.contains_self (fun _ hleaf => sameScalar_self hops hleaf) hkeys

theorem holds_str (s : String) (value : Json) :
    ops.holds (.str s) value = true ↔ value = .str s := by
  unfold holds
  cases value with
  | str s' => rw [Json.contains_leaf rfl, sameScalar, beq_iff_eq, Json.str.injEq, eq_comm]
  | _ => simp [Json.contains, sameScalar, number]

theorem holds_eq_str (s : String) (stored : Json) :
    ops.holds stored (.str s) = true ↔ stored = .str s := by
  unfold holds
  rw [Json.contains_leaf rfl]
  cases stored with
  | str s' => simp [sameScalar]
  | _ => simp [sameScalar, number]

end Scalars

end PgOperators

/-! ### Without doubles -/

mutual

/-- PostgreSQL's text of a JSON value without doubles, and with no character to be escaped. -/
def spacedText : Json → String
  | .null => "null"
  | .bool b => if b then "true" else "false"
  | .int z => toString z
  | .float _ => ""
  | .str s => "\"" ++ s ++ "\""
  | .arr items => "[" ++ ", ".intercalate (spacedItems items) ++ "]"
  | .obj entries => "\x7b" ++ ", ".intercalate (spacedEntries entries) ++ "\x7d"

def spacedItems : List Json → List String
  | [] => []
  | item :: items => spacedText item :: spacedItems items

def spacedEntries : List (String × Json) → List String
  | [] => []
  | (key, value) :: entries =>
      ("\"" ++ key ++ "\": " ++ spacedText value) :: spacedEntries entries

end

def PgCasts.spaced : PgCasts := { PgCasts.plain with jsonText := spacedText }

theorem documented_spaced : PgCasts.spaced.Documented where
  ofInt_injective := documented_plain.ofInt_injective
  exceedsBigint_ofInt := documented_plain.exceedsBigint_ofInt
  boolean_true := documented_plain.boolean_true
  boolean_false := documented_plain.boolean_false
  decimal z := ⟨(documented_plain.decimal z).integer, (documented_plain.decimal z).numeric⟩
  hexadecimal bytes hne :=
    ⟨(documented_plain.hexadecimal bytes hne).integer,
      (documented_plain.hexadecimal bytes hne).numeric⟩

def PgOperators.plain : PgOperators PgCasts.spaced where
  equal
    | .boolean b, .boolean b' => decide (b = b')
    | .integer z, .integer z' => decide (z = z')
    | .numeric (m : Int), .numeric (n : Int) => m == n
    | .floating _, .floating _ => true
    | .text s, .text s' => decide (s = s')
    | _, _ => false
  less
    | .boolean b, .boolean b' => !b && b'
    | .integer z, .integer z' => decide (z < z')
    | .numeric (m : Int), .numeric (n : Int) => decide (m < n)
    | .text s, .text s' => decide (s < s')
    | _, _ => false
  ofFloat _ := (0 : Int)
  numericText (n : Int) := toString n
  floatingText _ := ""
  castOther _ _ := none
  acceptsText s := !s.toList.contains '\x00'
  acceptsJson _ := true

theorem operators_documented_plain : PgOperators.plain.Documented where
  equal_self v hv := by
    cases v with
    | null => exact absurd rfl hv
    | numeric n => exact @beq_self_eq_true Int _ _ n
    | floating x => rfl
    | _ => exact decide_eq_true rfl
  equal_boolean _ _ := rfl
  equal_integer _ _ := rfl
  equal_text _ _ := rfl
  castOther_ne_null _ _ := by simp [PgOperators.plain]

/-! ## Equality and inequality -/

/-- The filtered field is there, and it is not `NULL`. -/
def QueryRow.Has {pg : PgCasts} (row : QueryRow pg) : ColumnExpr → Prop
  | .promoted column _ => row.columns column ≠ .null
  | .jsonb field => ∃ stored, row.data.field? field = some stored ∧ stored ≠ .null

/-- What is documented of the texts: in JSON a string stands in quotes, and `serde_json` reads
back a value from PostgreSQL's text of it, up to 127 levels deep and without doubles. -/
structure ReadsTexts (pg : PgCasts) (parse : String → Option Json) (stored : Json)
    (v : String) : Prop where
  quoted : parse v ≠ some (.str v)
  readBack : stored.Exact 127 → (∀ s, stored ≠ .str s) → pg.textOf stored = some v →
    parse v = some stored

section Partition

variable {pg : PgCasts} (ops : PgOperators pg) (parse : String → Option Json)

/-- The value of the filter is spelt as the stored value is.  For a string: it is not the
string in quotes, nor the string itself where that is a JSON text.  For another value: it is
PostgreSQL's text of the value or no JSON text of anything contained in it, and the text of a
value with a double is read back. -/
def SpeltAsStored (v : String) : Json → Prop
  | .str s => parse v ≠ some (.str s) ∧ (v = s → parse v = none)
  | stored =>
      (∀ json, parse v = some json → ops.holds stored json = true →
        pg.textOf stored = some v) ∧
      (pg.textOf stored = some v → stored.Exact 127 ∨
        ∃ json, parse v = some json ∧ ops.holds stored json = true)

def SpeltFor (v : String) (row : QueryRow pg) : ColumnExpr → Prop
  | .promoted _ _ => True
  | .jsonb field => ∀ stored, row.data.field? field = some stored →
      SpeltAsStored ops parse v stored

variable {ops parse} {row : QueryRow pg} {field v : String} {stored : Json}

theorem selects_jsonb_eq (hfield : row.data.field? field = some stored)
    (hok : ops.Succeeds parse ⟨.jsonb field, .eq, v⟩ row) :
    ops.selects parse ⟨.jsonb field, .eq, v⟩ row = true ↔
      ops.holds stored (filterJson parse v) = true := by
  unfold PgOperators.Succeeds at hok
  unfold PgOperators.selects
  simp only [filterCondition, PgOperators.eval] at hok ⊢
  split at hok
  · rename_i haccepts
    rw [if_pos haccepts, PgOperators.holds, Json.contains_singleton, hfield]
    simp [PgOperators.holds]
  · simp at hok

theorem selects_jsonb_ne (hops : ops.Documented) (hfield : row.data.field? field = some stored)
    (hnull : stored ≠ .null) (hok : ops.Succeeds parse ⟨.jsonb field, .ne, v⟩ row) :
    ops.selects parse ⟨.jsonb field, .ne, v⟩ row = true ↔ ¬ pg.textOf stored = some v := by
  obtain ⟨text, htext⟩ : ∃ text, pg.textOf stored = some text := by
    cases stored <;> first | exact absurd rfl hnull | exact ⟨_, rfl⟩
  have hextract : pg.extract row.data field = some text := by
    rw [PgCasts.extract, hfield, Option.bind_some, htext]
  unfold PgOperators.Succeeds at hok
  unfold PgOperators.selects
  simp only [filterCondition, PgOperators.eval, hextract, PgOperators.textValue] at hok ⊢
  split at hok
  · rename_i haccepts
    rw [if_pos haccepts, htext]
    simp [PgOperators.compare, PgOperators.operator, hops.equal_text]
  · simp at hok

theorem holds_filterJson (hstored : ∀ s, stored ≠ .str s) :
    ops.holds stored (filterJson parse v) = true ↔
      ∃ json, parse v = some json ∧ ops.holds stored json = true := by
  unfold filterJson
  cases hparse : parse v with
  | none => simp [PgOperators.holds_eq_str, hstored]
  | some json => simp

theorem speltAsStored_iff (hops : ops.Documented) (hkeys : stored.DistinctKeys)
    (hreads : ReadsTexts pg parse stored v) :
    SpeltAsStored ops parse v stored ↔
      (ops.holds stored (filterJson parse v) = true ↔ pg.textOf stored = some v) := by
  by_cases hstr : ∃ s, stored = .str s
  · obtain ⟨s, rfl⟩ := hstr
    rw [SpeltAsStored, PgOperators.holds_str, PgCasts.textOf, Option.some.injEq, filterJson]
    cases hparse : parse v with
    | none => simp [eq_comm]
    | some json =>
        have hquoted : json ≠ .str v := fun h => hreads.quoted (h ▸ hparse)
        simp only [Option.getD_some, ne_eq, Option.some.injEq, reduceCtorEq, imp_false]
        constructor
        · rintro ⟨hjson, hv⟩
          exact iff_of_false hjson fun h => hv h.symm
        · intro hiff
          have hv : ¬ v = s := by
            rintro rfl
            exact hquoted (hiff.mpr rfl)
          exact ⟨fun hjson => hv (hiff.mp hjson).symm, hv⟩
  · have hne : ∀ s, stored ≠ .str s := fun s h => hstr ⟨s, h⟩
    have hspelt : SpeltAsStored ops parse v stored ↔
        (∀ json, parse v = some json → ops.holds stored json = true →
          pg.textOf stored = some v) ∧
        (pg.textOf stored = some v → stored.Exact 127 ∨
          ∃ json, parse v = some json ∧ ops.holds stored json = true) := by
      cases stored <;> first | exact absurd rfl (hne _) | rfl
    rw [hspelt, holds_filterJson hne]
    constructor
    · rintro ⟨hto, hfrom⟩
      refine ⟨fun ⟨json, hparse, hholds⟩ => hto json hparse hholds, fun htext => ?_⟩
      rcases hfrom htext with hexact | hjson
      · exact ⟨stored, hreads.readBack hexact hne htext, PgOperators.holds_self hops hkeys⟩
      · exact hjson
    · intro hiff
      exact ⟨fun json hparse hholds => hiff.mp ⟨json, hparse, hholds⟩,
        fun htext => .inr (hiff.mpr htext)⟩

theorem QueryRow.distinctKeys_field (hfield : row.data.field? field = some stored) :
    stored.DistinctKeys := by
  have hkeys := row.distinctKeys
  cases hdata : row.data with
  | obj entries =>
      rw [hdata, Json.DistinctKeys, Json.everyObject_obj] at hkeys
      rw [hdata, Json.field?, Option.map_eq_some_iff] at hfield
      obtain ⟨entry, hentry, rfl⟩ := hfield
      exact hkeys.2 entry (List.mem_of_find?_eq_some hentry)
  | _ => simp [hdata, Json.field?] at hfield

theorem xor_promoted (hops : ops.Documented) {column : String} {cast : Option String}
    (hrow : row.columns column ≠ .null)
    (heq : ops.Succeeds parse ⟨.promoted column cast, .eq, v⟩ row) :
    Xor (ops.selects parse ⟨.promoted column cast, .eq, v⟩ row = true)
      (ops.selects parse ⟨.promoted column cast, .ne, v⟩ row = true) := by
  obtain ⟨haccepts, value, hbound, hvalue⟩ := PgOperators.exists_bound hops heq
  simp only [PgOperators.selects, filterCondition]
  rw [PgOperators.eval_columnOp haccepts hbound, PgOperators.eval_columnOp haccepts hbound,
    PgOperators.compare_of_ne_null hrow hvalue, PgOperators.compare_of_ne_null hrow hvalue]
  cases hequal : ops.equal (row.columns column) value <;>
    simp [PgOperators.operator, hequal, Xor]

end Partition

/-- Exactly one of the filters with `=` and `!=` selects a row. -/
theorem eq_ne_partition_iff (pg : PgCasts) (ops : PgOperators pg) (hops : ops.Documented)
    (parse : String → Option Json) (expr : ColumnExpr) (v : String) (row : QueryRow pg)
    (hrow : row.Has expr) (heq : ops.Succeeds parse ⟨expr, .eq, v⟩ row)
    (hne : ops.Succeeds parse ⟨expr, .ne, v⟩ row)
    (hreads : ∀ field, expr = .jsonb field → ∀ stored, row.data.field? field = some stored →
      ReadsTexts pg parse stored v) :
    Xor (ops.selects parse ⟨expr, .eq, v⟩ row = true)
      (ops.selects parse ⟨expr, .ne, v⟩ row = true) ↔ SpeltFor ops parse v row expr := by
  cases expr with
  | promoted column cast => exact iff_of_true (xor_promoted hops hrow heq) trivial
  | jsonb field =>
      obtain ⟨stored, hfield, hnull⟩ := hrow
      have hspelt : SpeltFor ops parse v row (.jsonb field) ↔
          SpeltAsStored ops parse v stored := by simp [SpeltFor, hfield]
      rw [hspelt, speltAsStored_iff hops (QueryRow.distinctKeys_field hfield)
        (hreads field rfl stored hfield), selects_jsonb_eq hfield heq,
        selects_jsonb_ne hops hfield hnull hne, xor_iff_iff_not, not_not]

def readIntegers (text : String) : Option Json :=
  match text.toList with
  | '[' :: rest =>
      if rest.getLast? = some ']' then
        ((rest.dropLast.splitOn ',').mapM fun item =>
          (parseDecimal (trim (String.ofList item))).map Json.int).map .arr
      else none
  | _ => (parseDecimal text).map .int

def rowOfField (field : String) (value : Json) (h : value.DistinctKeys) :
    QueryRow PgCasts.spaced where
  columns _ := .null
  data := .obj [(field, value)]
  distinctKeys := (Json.everyObject_obj _).mpr
    ⟨List.nodup_singleton field, List.forall_mem_singleton.mpr h⟩

def amountsRow : QueryRow PgCasts.spaced :=
  rowOfField "amounts" (.arr [.int 1, .int 2])
    ((Json.everyObject_arr _).mpr (by simp [Json.EveryObject]))

theorem readIntegers_amounts :
    readIntegers "[1, 2]" = some (.arr [.int 1, .int 2]) := by
  rfl

theorem eq_ne_partition_amounts :
    Xor (PgOperators.plain.selects readIntegers ⟨.jsonb "amounts", .eq, "[1, 2]"⟩ amountsRow = true)
      (PgOperators.plain.selects readIntegers ⟨.jsonb "amounts", .ne, "[1, 2]"⟩ amountsRow =
        true) := by
  refine (eq_ne_partition_iff PgCasts.spaced PgOperators.plain operators_documented_plain
    readIntegers (.jsonb "amounts") "[1, 2]" amountsRow ⟨.arr [.int 1, .int 2], rfl, by simp⟩
    (by decide +kernel) (by decide +kernel) ?_).mpr ?_
  · rintro field ⟨⟩ stored ⟨⟩
    refine ⟨?_, fun _ _ _ => readIntegers_amounts⟩
    rw [readIntegers_amounts]
    simp
  · rintro stored ⟨⟩
    have htext : PgCasts.spaced.textOf (.arr [.int 1, .int 2]) = some "[1, 2]" := by
      decide +kernel
    exact ⟨fun _ _ _ => htext, fun _ => .inl (by simp [Json.Exact, Json.ExactItems])⟩

/-- Without the blank both filters select the row with the list. -/
theorem eq_ne_amounts_both :
    amountsRow.Has (.jsonb "amounts") ∧
      PgOperators.plain.selects readIntegers ⟨.jsonb "amounts", .eq, "[1,2]"⟩ amountsRow = true ∧
      PgOperators.plain.selects readIntegers ⟨.jsonb "amounts", .ne, "[1,2]"⟩ amountsRow =
        true := by
  exact ⟨⟨.arr [.int 1, .int 2], rfl, by simp⟩, by decide +kernel, by decide +kernel⟩

/-! ## Lists of values -/

/-- The values that a list can have: without commas, and without blanks at their ends. -/
def Listable (v : String) : Prop := v ≠ "" ∧ ',' ∉ v.toList ∧ trim v = v

instance (v : String) : Decidable (Listable v) := inferInstanceAs (Decidable (_ ∧ _ ∧ _))

theorem inValues_intercalate {values : List String} (h : ∀ v ∈ values, Listable v) :
    inValues (",".intercalate values) = values := by
  by_cases hne : values = []
  · subst hne
    decide +kernel
  · unfold inValues
    change ((splitAll ',' ((String.singleton ',').intercalate values)).map trim).filter _ = _
    rw [splitAll_intercalate hne fun v hv => (h v hv).2.1]
    have htrim : values.map trim = values := by
      conv_rhs => rw [← List.map_id values]
      exact List.map_congr_left fun v hv => (h v hv).2.2
    rw [htrim, List.filter_eq_self]
    intro v hv
    simp [(h v hv).1]

/-- The types of which PostgreSQL prints each value in one way. -/
def listTypes : List PgType := [.boolean, .smallint, .integer, .bigint, .text]

def OfType {pg : PgCasts} : PgType → pg.Value → Prop
  | _, .null => True
  | .boolean, .boolean _ => True
  | .smallint, .integer z => InBits 16 z
  | .integer, .integer z => InBits 32 z
  | .bigint, .integer z => InBits 64 z
  | .text, .text _ => True
  | _, _ => False

section Lists

variable {pg : PgCasts} {ops : PgOperators pg} {parse : String → Option Json}
  {column v text : String} {type : PgType} {values : List String} {row : QueryRow pg}
  {x y : pg.Value}

theorem castTo_columnText (hpg : pg.Documented) (htype : type ∈ listTypes) (hx : OfType type x)
    (htext : ops.columnText x = some text) : ops.castTo type.toSql text = some x := by
  cases type with
  | boolean =>
      cases x with
      | boolean b =>
          cases htext
          cases b with
          | true => simp [PgOperators.castTo, PgType.toSql, PgCasts.cast, hpg.boolean_true]
          | false => simp [PgOperators.castTo, PgType.toSql, PgCasts.cast, hpg.boolean_false]
      | null => cases htext
      | _ => cases hx
  | smallint | integer | bigint =>
      cases x with
      | integer z =>
          cases htext
          exact congrArg (Option.map PgCasts.Value.integer)
            (((hpg.decimal z).integer _ (by decide)).trans (if_pos hx))
      | null => cases htext
      | _ => cases hx
  | text =>
      cases x with
      | text s =>
          cases htext
          rfl
      | null => cases htext
      | _ => cases hx
  | _ => simp [listTypes] at htype

theorem equal_castTo (hops : ops.Documented) (htype : type ∈ listTypes) (hx : OfType type x)
    (hnull : x ≠ .null) (hcast : ops.castTo type.toSql v = some y) :
    ops.equal x y = true ↔ x = y := by
  cases type with
  | boolean =>
      cases x with
      | boolean b =>
          obtain ⟨b', -, rfl⟩ := Option.map_eq_some_iff.mp hcast
          simp [hops.equal_boolean]
      | null => exact absurd rfl hnull
      | _ => cases hx
  | smallint | integer | bigint =>
      cases x with
      | integer z =>
          obtain ⟨z', -, rfl⟩ := Option.map_eq_some_iff.mp hcast
          simp [hops.equal_integer]
      | null => exact absurd rfl hnull
      | _ => cases hx
  | text =>
      cases x with
      | text s =>
          cases hcast
          simp [hops.equal_text]
      | null => exact absurd rfl hnull
      | _ => cases hx
  | _ => simp [listTypes] at htype

/-- `_eq` selects the rows that have the value that the text is cast to. -/
theorem selects_eq_iff (hops : ops.Documented) (htype : type ∈ listTypes)
    (hx : OfType type (row.columns column))
    (hok : ops.Succeeds parse ⟨.promoted column (some type.toSql), .eq, v⟩ row) :
    ops.selects parse ⟨.promoted column (some type.toSql), .eq, v⟩ row = true ↔
      ops.castTo type.toSql v = some (row.columns column) := by
  obtain ⟨haccepts, y, hcast, hy⟩ := PgOperators.exists_bound hops hok
  simp only [PgOperators.selects, filterCondition]
  rw [PgOperators.eval_columnOp haccepts hcast, show ops.castTo type.toSql v = some y from hcast,
    Option.some.injEq]
  by_cases hnull : row.columns column = .null
  · rw [hnull]
    simp [PgOperators.compare, PgOperators.operator, hy]
  · rw [PgOperators.compare_of_ne_null hnull hy]
    simp [PgOperators.operator, equal_castTo hops htype hx hnull hcast, eq_comm]

theorem selects_in_iff (hops : ops.Documented) (hlist : ∀ v ∈ values, Listable v)
    (haccepts : ∀ v ∈ values, ops.acceptsText v = true) (cast : Option String) :
    ops.selects parse ⟨.promoted column cast, .inList, ",".intercalate values⟩ row = true ↔
      ∃ text ∈ values, ops.columnText (row.columns column) = some text := by
  unfold PgOperators.selects
  simp only [filterCondition, inValues_intercalate hlist]
  cases values with
  | nil => simp [PgOperators.eval]
  | cons value values =>
      have hall : (value :: values).all ops.acceptsText = true := List.all_eq_true.mpr haccepts
      simp only [List.isEmpty_cons, if_false, Bool.false_eq_true, PgOperators.eval, hall, if_true]
      cases htext : ops.columnText (row.columns column) with
      | none => simp [PgOperators.anyOf]
      | some text => simp [PgOperators.anyOf, hops.equal_text]

end Lists

/-- `_in` selects the rows of a table that `_eq` selects for some value of the list. -/
theorem in_eq_union_iff (pg : PgCasts) (hpg : pg.Documented) (ops : PgOperators pg)
    (hops : ops.Documented) (parse : String → Option Json) (column : String) (type : PgType)
    (htype : type ∈ listTypes) (values : List String) (hlist : ∀ v ∈ values, Listable v)
    (table : List (QueryRow pg)) (htable : ∀ row ∈ table, OfType type (row.columns column))
    (hok : ∀ v ∈ values, ∀ row ∈ table,
      ops.Succeeds parse ⟨.promoted column (some type.toSql), .eq, v⟩ row) :
    (table.filter fun row =>
        ops.selects parse ⟨.promoted column (some type.toSql), .inList, ",".intercalate values⟩
          row) =
      (table.filter fun row => values.any fun v =>
        ops.selects parse ⟨.promoted column (some type.toSql), .eq, v⟩ row) ↔
    ∀ row ∈ table, ∀ v ∈ values, ops.castTo type.toSql v = some (row.columns column) →
      ∃ text ∈ values, ops.columnText (row.columns column) = some text := by
  have hin : ∀ row ∈ table, (ops.selects parse
      ⟨.promoted column (some type.toSql), .inList, ",".intercalate values⟩ row = true ↔
      ∃ text ∈ values, ops.columnText (row.columns column) = some text) := fun row hrow =>
    selects_in_iff hops hlist
      (fun v hv => (PgOperators.exists_bound hops (hok v hv row hrow)).1) _
  have heq : ∀ row ∈ table, ∀ v ∈ values, (ops.selects parse
      ⟨.promoted column (some type.toSql), .eq, v⟩ row = true ↔
      ops.castTo type.toSql v = some (row.columns column)) := fun row hrow v hv =>
    selects_eq_iff hops htype (htable row hrow) (hok v hv row hrow)
  constructor
  · intro hfilter row hrow v hv hcast
    have hmem : row ∈ table.filter fun row => values.any fun v =>
        ops.selects parse ⟨.promoted column (some type.toSql), .eq, v⟩ row :=
      List.mem_filter.mpr ⟨hrow, List.any_eq_true.mpr ⟨v, hv, (heq row hrow v hv).mpr hcast⟩⟩
    rw [← hfilter] at hmem
    exact (hin row hrow).mp (List.mem_filter.mp hmem).2
  · intro hspelt
    apply List.filter_congr
    intro row hrow
    rw [Bool.eq_iff_iff, hin row hrow, List.any_eq_true]
    constructor
    · rintro ⟨text, hmem, htext⟩
      exact ⟨text, hmem, (heq row hrow text hmem).mpr
        (castTo_columnText hpg htype (htable row hrow) htext)⟩
    · rintro ⟨v, hv, hselects⟩
      exact hspelt row hrow v hv ((heq row hrow v hv).mp hselects)

def slotRow (slot : Int) : QueryRow PgCasts.spaced where
  columns _ := .integer slot
  data := .obj []
  distinctKeys := (Json.everyObject_obj _).mpr (by simp)

theorem in_eq_union_slots :
    ([slotRow 5, slotRow 7].filter fun row =>
        PgOperators.plain.selects readIntegers ⟨.promoted "slot" (some "BIGINT"), .inList, "5,6"⟩
          row) =
      ([slotRow 5, slotRow 7].filter fun row => ["5", "6"].any fun v =>
        PgOperators.plain.selects readIntegers ⟨.promoted "slot" (some "BIGINT"), .eq, v⟩ row) := by
  have hfive : PgOperators.plain.castTo "BIGINT" "5" = some (.integer 5) := rfl
  have hsix : PgOperators.plain.castTo "BIGINT" "6" = some (.integer 6) := rfl
  have htext : Int.repr 5 = "5" := by decide +kernel
  apply (in_eq_union_iff PgCasts.spaced documented_spaced PgOperators.plain
    operators_documented_plain readIntegers "slot" .bigint (by decide) ["5", "6"]
    (by decide +kernel) [slotRow 5, slotRow 7] ?_ ?_).mpr
  · simp [slotRow, PgType.toSql, hfive, hsix, PgOperators.columnText, htext]
  · simp only [List.forall_mem_cons]
    exact ⟨show InBits 64 5 by decide, show InBits 64 7 by decide, List.forall_mem_nil _⟩
  · simp only [List.forall_mem_cons]
    decide +kernel

/-- A slot that is spelt with a zero in front is found by `_eq` and not by `_in`. -/
theorem in_eq_slots_differ :
    Listable "05" ∧
      PgOperators.plain.selects readIntegers ⟨.promoted "slot" (some "BIGINT"), .eq, "05"⟩
        (slotRow 5) = true ∧
      PgOperators.plain.selects readIntegers ⟨.promoted "slot" (some "BIGINT"), .inList, "05"⟩
        (slotRow 5) = false := by
  decide +kernel

end Solarix.Storage
