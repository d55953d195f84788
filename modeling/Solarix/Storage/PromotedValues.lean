import Solarix.Decoder.Accepted
import Solarix.Storage.Promoted

/-!
# Promoted values

What PostgreSQL makes of the expressions for promoted columns on a decoded account, against
the scalar that the account's bytes hold.
-/

namespace Solarix.Storage

open Solarix.Core
open Solarix.Decoder

/-! ## Casts -/

def InBits (bits : Nat) (z : Int) : Prop := -2 ^ (bits - 1) ≤ z ∧ z < 2 ^ (bits - 1)

instance (bits : Nat) (z : Int) : Decidable (InBits bits z) := by
  unfold InBits
  infer_instance

/-- The casts of PostgreSQL; `none` is an error.  `Numeric` and `Floating` are its numbers
that are not machine integers, and `jsonText` is the text of a JSON number with a fraction,
an array or an object. -/
structure PgCasts where
  Numeric : Type
  Floating : Type
  ofInt : Int → Numeric
  exceedsBigint : Numeric → Bool
  boolean : String → Option Bool
  integer : Nat → String → Option Int
  numeric : String → Option Numeric
  floating : Nat → String → Option Floating
  jsonText : Json → String

namespace PgCasts

/-- A text that is read as an integer by every numeric type that has room for it. -/
structure ReadsInteger (pg : PgCasts) (text : String) (z : Int) : Prop where
  integer : ∀ bits ∈ [16, 32, 64],
    pg.integer bits text = if InBits bits z then some z else none
  numeric : pg.numeric text = some (pg.ofInt z)

/-- What PostgreSQL documents of the texts that the decoder writes.  Integers may be
decimal or, from version 16 on, hexadecimal. -/
structure Documented (pg : PgCasts) : Prop where
  ofInt_injective : Function.Injective pg.ofInt
  exceedsBigint_ofInt : ∀ z, pg.exceedsBigint (pg.ofInt z) = decide (9223372036854775807 < z)
  boolean_true : pg.boolean "true" = some true
  boolean_false : pg.boolean "false" = some false
  decimal : ∀ z : Int, pg.ReadsInteger (toString z) z
  hexadecimal : ∀ bytes, bytes ≠ [] → pg.ReadsInteger ("0x" ++ hexEncode bytes) (beNat bytes)

inductive Value (pg : PgCasts) where
  | null
  | boolean (b : Bool)
  | integer (z : Int)
  | numeric (n : pg.Numeric)
  | floating (x : pg.Floating)
  | text (s : String)

variable (pg : PgCasts)

def cast (text : String) : CastType → Option pg.Value
  | .boolean => (pg.boolean text).map .boolean
  | .smallint => (pg.integer 16 text).map .integer
  | .integer => (pg.integer 32 text).map .integer
  | .bigint => (pg.integer 64 text).map .integer
  | .real => (pg.floating 32 text).map .floating
  | .doublePrecision => (pg.floating 64 text).map .floating
  | .numeric => (pg.numeric text).map .numeric

/-- `data->>'key'`, `none` for `NULL`. -/
def textOf : Json → Option String
  | .null => none
  | .bool b => some (if b then "true" else "false")
  | .int z => some (toString z)
  | .str s => some s
  | json => some (pg.jsonText json)

def extract (data : Json) (key : String) : Option String := (data.field? key).bind pg.textOf

/-- The value of an expression.  A cast of `NULL` is `NULL`, and so is `NULL > n`, which
selects the `ELSE` branch of the guard. -/
def eval (data : Json) : ExtractExpr → Option pg.Value
  | .text key => some ((pg.extract data key).elim .null .text)
  | .cast key ty => (pg.extract data key).elim (some .null) fun text => pg.cast text ty
  | .guardedBigint key =>
      (pg.extract data key).elim (some .null) fun text =>
        (pg.numeric text).bind fun n =>
          if pg.exceedsBigint n then some .null else pg.cast text .bigint
  | .null => some .null

end PgCasts

/-! ### Integers and booleans -/

def hexDigitValue (c : Char) : Option Nat :=
  if c.isDigit then some (c.toNat - 48)
  else if 'a' ≤ c ∧ c ≤ 'f' then some (c.toNat - 87)
  else none

def parseHexDigits (n : Nat) : List Char → Option Nat
  | [] => some n
  | c :: cs => (hexDigitValue c).bind fun digit => parseHexDigits (16 * n + digit) cs

def parseDecimal (text : String) : Option Int :=
  let (negative, digits) := splitSign text.toList
  if digits ≠ [] ∧ digits.all Char.isDigit then
    let n : Int := Nat.ofDigitChars 10 digits 0
    some (if negative then -n else n)
  else none

def parseNumber (text : String) : Option Int :=
  match text.toList with
  | '0' :: 'x' :: digits => (parseHexDigits 0 digits).map Int.ofNat
  | _ => parseDecimal text

/-- Casts that read integers and the two booleans, and no other text. -/
def PgCasts.plain : PgCasts where
  Numeric := Int
  Floating := Unit
  ofInt := id
  exceedsBigint z := decide (9223372036854775807 < z)
  boolean text := if text = "true" then some true else if text = "false" then some false else none
  integer bits text := (parseNumber text).filter fun z => decide (InBits bits z)
  numeric := parseNumber
  floating _ _ := none
  jsonText _ := ""

theorem hexDigitValue_hexDigit : ∀ n < 16, hexDigitValue (hexDigit n) = some n := by
  decide

theorem parseHexDigits_hexEncode (bytes : List UInt8) (n : Nat) :
    parseHexDigits n (hexEncode bytes).toList =
      some (256 ^ bytes.length * n + beNat bytes) := by
  rw [toList_hexEncode]
  induction bytes generalizing n with
  | nil => simp [parseHexDigits, beNat, leNat]
  | cons b bytes ih =>
      have hb := b.toNat_lt
      rw [List.flatMap_cons]
      simp only [List.cons_append, List.nil_append, parseHexDigits,
        hexDigitValue_hexDigit _ (show b.toNat / 16 < 16 by omega),
        hexDigitValue_hexDigit _ (show b.toNat % 16 < 16 by omega), Option.bind_some]
      rw [ih, beNat_cons, List.length_cons]
      have hsplit : 16 * (16 * n + b.toNat / 16) + b.toNat % 16 = 256 * n + b.toNat := by omega
      rw [hsplit]
      ring_nf

theorem parseNumber_toString (z : Int) : parseNumber (toString z) = some z := by
  have hx := not_mem_toString (show 'x'.isDigit = false by decide) (by decide) z
  unfold parseNumber
  split
  · rename_i digits hlist
    rw [hlist] at hx
    simp at hx
  · unfold parseDecimal
    rw [splitSign_toString]
    simp only
    rw [if_pos ⟨Nat.toDigits_ne_nil, all_isDigit_toDigits _⟩, Nat.ofDigitChars_ten_toDigits,
      signed_natAbs]

theorem parseNumber_hexEncode (bytes : List UInt8) :
    parseNumber ("0x" ++ hexEncode bytes) = some (beNat bytes : Int) := by
  have hlist : ("0x" ++ hexEncode bytes).toList = '0' :: 'x' :: (hexEncode bytes).toList := by
    simp
  unfold parseNumber
  rw [hlist]
  simp [parseHexDigits_hexEncode]

theorem readsInteger_plain {text : String} {z : Int} (h : parseNumber text = some z) :
    PgCasts.plain.ReadsInteger text z := by
  refine ⟨fun bits _ => ?_, h⟩
  change (parseNumber text).filter _ = _
  rw [h]
  split <;> simp_all

theorem documented_plain : PgCasts.plain.Documented where
  ofInt_injective := Function.injective_id
  exceedsBigint_ofInt _ := rfl
  boolean_true := rfl
  boolean_false := rfl
  decimal z := readsInteger_plain (parseNumber_toString z)
  hexadecimal bytes _ := readsInteger_plain (parseNumber_hexEncode bytes)

/-! ## Scalars on chain -/

/-- The value of a field of scalar type.  A 256-bit integer is given by its bytes, the
least significant first. -/
inductive Scalar where
  | none
  | bool (b : Bool)
  | int (t : IntType) (z : Int)
  | word256 (signed : Bool) (bytes : List UInt8)
  | text (s : String)

def word256Value (signed : Bool) (bytes : List UInt8) : Int :=
  if signed then toSigned 256 (leNat bytes) else leNat bytes

/-- The scalar of a value of the type, through `Option`, `COption`, aliases and type
parameters; `none` for a value that is no scalar. -/
def scalarOf (env : Externs) (registry : TypeRegistry) :
    Generics → IdlType → BorshValue → Option Scalar
  | _, _, .bool b => some (.bool b)
  | _, _, .int t z => some (.int t z)
  | _, .u256, .word256 bytes => some (.word256 false bytes)
  | _, .i256, .word256 bytes => some (.word256 true bytes)
  | _, _, .string s => some (.text s)
  | _, _, .pubkey bytes => some (.text (env.bs58Encode bytes))
  | _, _, .none => some .none
  | g, .option inner, .some x => scalarOf env registry g inner x
  | _, _, .coptionNone _ => some .none
  | g, .defined _ (.type inner :: _), .coptionSome x => scalarOf env registry g inner x
  | g, .defined name args, .alias x =>
      match registry.types name with
      | some ⟨_, _, generics, .type aliased⟩ =>
          scalarOf env registry (bindGenerics g generics args) aliased x
      | _ => none
  | g, .generic name, .generic x =>
      match g name with
      | some ty => scalarOf env registry g ty x
      | none => none
  | _, _, _ => none

def Scalar.toJson : Scalar → Json
  | .none => .null
  | .bool b => .bool b
  | .int t z => intToJson t z
  | .word256 _ bytes => .str ("0x" ++ hexEncode bytes)
  | .text s => .str s

theorem render_eq_toJson {env : Externs} {registry : TypeRegistry} {g : Generics}
    {ty : IdlType} {x : BorshValue} {scalar : Scalar}
    (h : scalarOf env registry g ty x = some scalar) : x.render env = scalar.toJson := by
  fun_induction scalarOf env registry g ty x with
  | case8 _ _ _ ih => exact ih h
  | case10 _ _ _ _ _ ih => exact ih h
  | case11 _ _ _ _ _ _ _ _ _ ih => exact ih h
  | case13 _ _ _ _ _ ih => exact ih h
  | case12 | case14 | case15 => cases h
  | _ =>
      cases h
      rfl

/-! ## One column -/

/-- The value of the column is the scalar.  `NULL` stands for `None` and for a `u64` that
`BIGINT` has no room for. -/
def Faithful (pg : PgCasts) : Scalar → pg.Value → Prop
  | .none, .null => True
  | .bool b, .boolean b' => b' = b
  | .int _ z, .integer z' => z' = z
  | .int _ z, .numeric n => n = pg.ofInt z
  | .int .u64 z, .null => 9223372036854775807 < z
  | .word256 signed bytes, .integer z => z = word256Value signed bytes
  | .word256 signed bytes, .numeric n => n = pg.ofInt (word256Value signed bytes)
  | .text s, .text s' => s' = s
  | _, _ => False

/-- The 256-bit integer is the same in both byte orders, and not negative. -/
def Palindromic (signed : Bool) (bytes : List UInt8) : Prop :=
  bytes.reverse = bytes ∧ (signed = true → leNat bytes < 2 ^ 255)

def FitsColumn : PgType → Scalar → Prop
  | _, .none => True
  | .boolean, .bool _ => True
  | .smallint, .int _ z => InBits 16 z
  | .integer, .int _ z => InBits 32 z
  | .bigint, .int t z => InBits 64 z ∨ t = .u64 ∧ 9223372036854775807 < z
  | .numeric _, .int _ _ => True
  | .smallint, .word256 signed bytes => Palindromic signed bytes ∧ leNat bytes < 2 ^ 15
  | .integer, .word256 signed bytes => Palindromic signed bytes ∧ leNat bytes < 2 ^ 31
  | .bigint, .word256 signed bytes => Palindromic signed bytes ∧ leNat bytes < 2 ^ 63
  | .numeric _, .word256 signed bytes => Palindromic signed bytes
  | .text, .text _ => True
  | _, _ => False

theorem beNat_eq_word256Value_iff {signed : Bool} {bytes : List UInt8}
    (hlength : bytes.length = 32) :
    (beNat bytes : Int) = word256Value signed bytes ↔ Palindromic signed bytes := by
  have hlt := leNat_lt bytes
  rw [hlength] at hlt
  unfold word256Value Palindromic
  cases signed with
  | false => simp [← beNat_eq_leNat_iff]
  | true =>
      simp only [if_true, forall_const, ← beNat_eq_leNat_iff, toSigned]
      split <;> omega

section Column

variable {pg : PgCasts} {text : String} {z : Int} {P : pg.Value → Prop}

theorem exists_integer_iff (h : pg.ReadsInteger text z) {bits : Nat}
    (hbits : bits ∈ [16, 32, 64]) :
    (∃ value, (pg.integer bits text).map .integer = some value ∧ P value) ↔
      InBits bits z ∧ P (.integer z) := by
  rw [h.integer bits hbits]
  split <;> simp [*]

theorem exists_numeric_iff (h : pg.ReadsInteger text z) :
    (∃ value, pg.cast text .numeric = some value ∧ P value) ↔ P (.numeric (pg.ofInt z)) := by
  simp [PgCasts.cast, h.numeric]

theorem exists_guarded_iff (hpg : pg.Documented) (h : pg.ReadsInteger text z) :
    (∃ value, ((pg.numeric text).bind fun n =>
        if pg.exceedsBigint n then some .null else pg.cast text .bigint) = some value ∧ P value) ↔
      9223372036854775807 < z ∧ P .null ∨ InBits 64 z ∧ P (.integer z) := by
  rw [h.numeric, Option.bind_some, hpg.exceedsBigint_ofInt]
  by_cases hz : 9223372036854775807 < z
  · have hbits : ¬ InBits 64 z := by
      unfold InBits
      omega
    simp [hz, hbits]
  · have hcast := exists_integer_iff h (show 64 ∈ [16, 32, 64] by decide) (P := P)
    simpa [hz, PgCasts.cast] using hcast

/-- The types of promoted columns, floating point and `BYTEA` apart. -/
def exactTypes : List PgType :=
  [.boolean, .smallint, .integer, .bigint, .numeric 39, .numeric 78, .text]

theorem exists_eval_iff (hpg : pg.Documented) (h : pg.ReadsInteger text z) {data : Json}
    {key : String} (htext : pg.extract data key = some text) {pgType : PgType}
    (hexact : pgType ∈ exactTypes) (hboolean : ∀ b, ¬ P (.boolean b)) (hp : ∀ s, ¬ P (.text s)) :
    (∃ value, pg.eval data (buildPromotedExtractExpr ⟨key, pgType.dataType⟩) = some value ∧
        P value) ↔
      match pgType with
      | .smallint => InBits 16 z ∧ P (.integer z)
      | .integer => InBits 32 z ∧ P (.integer z)
      | .bigint => 9223372036854775807 < z ∧ P .null ∨ InBits 64 z ∧ P (.integer z)
      | .numeric _ => P (.numeric (pg.ofInt z))
      | _ => False := by
  simp only [exactTypes, List.mem_cons, List.not_mem_nil, or_false] at hexact
  rcases hexact with rfl | rfl | rfl | rfl | rfl | rfl | rfl <;>
    simp only [PgType.dataType, buildPromotedExtractExpr, PgCasts.eval, htext, Option.elim_some]
  · rw [iff_false, not_exists]
    rintro value ⟨hvalue, hP⟩
    obtain ⟨b, _, rfl⟩ := Option.map_eq_some_iff.mp hvalue
    exact hboolean b hP
  · exact exists_integer_iff h (by decide)
  · exact exists_integer_iff h (by decide)
  · exact exists_guarded_iff hpg h
  · exact exists_numeric_iff h
  · exact exists_numeric_iff h
  · simp [hp]

theorem textOf_intToJson (t : IntType) (z : Int) :
    pg.textOf (intToJson t z) = some (toString z) := by
  cases t <;> rfl

def Scalar.Sized : Scalar → Prop
  | .word256 _ bytes => bytes.length = 32
  | _ => True

variable {data : Json} {key : String} {pgType : PgType}

theorem faithful_int_iff (hpg : pg.Documented) {t : IntType}
    (hfield : data.field? key = some (Scalar.int t z).toJson) (hexact : pgType ∈ exactTypes) :
    (∃ value, pg.eval data (buildPromotedExtractExpr ⟨key, pgType.dataType⟩) = some value ∧
        Faithful pg (.int t z) value) ↔
      FitsColumn pgType (.int t z) := by
  have htext : pg.extract data key = some (toString z) := by
    rw [PgCasts.extract, hfield, Option.bind_some]
    exact textOf_intToJson t z
  rw [exists_eval_iff hpg (hpg.decimal z) htext hexact (fun _ => id) (fun _ => id)]
  simp only [exactTypes, List.mem_cons, List.not_mem_nil, or_false] at hexact
  rcases hexact with rfl | rfl | rfl | rfl | rfl | rfl | rfl <;> simp only [FitsColumn, Faithful]
  · simp
  · simp
  · cases t <;> simp [or_comm]

theorem faithful_word256_iff (hpg : pg.Documented) {signed : Bool} {bytes : List UInt8}
    (hlength : bytes.length = 32)
    (hfield : data.field? key = some (Scalar.word256 signed bytes).toJson)
    (hexact : pgType ∈ exactTypes) :
    (∃ value, pg.eval data (buildPromotedExtractExpr ⟨key, pgType.dataType⟩) = some value ∧
        Faithful pg (.word256 signed bytes) value) ↔
      FitsColumn pgType (.word256 signed bytes) := by
  have htext : pg.extract data key = some ("0x" ++ hexEncode bytes) := by
    rw [PgCasts.extract, hfield]
    rfl
  have hnonempty : bytes ≠ [] := List.ne_nil_of_length_pos (by omega)
  have hbits (bits : Nat) : InBits bits (beNat bytes : Int) ∧ Palindromic signed bytes ↔
      Palindromic signed bytes ∧ leNat bytes < 2 ^ (bits - 1) := by
    rw [and_comm]
    refine and_congr_right fun hsame => ?_
    have hcast : ((2 ^ (bits - 1) : Nat) : Int) = 2 ^ (bits - 1) := by push_cast; rfl
    rw [beNat_eq_leNat_iff.mpr hsame.1, InBits]
    omega
  rw [exists_eval_iff hpg (hpg.hexadecimal bytes hnonempty) htext hexact (fun _ => id)
    (fun _ => id)]
  simp only [exactTypes, List.mem_cons, List.not_mem_nil, or_false] at hexact
  rcases hexact with rfl | rfl | rfl | rfl | rfl | rfl | rfl <;>
    simp only [FitsColumn, Faithful, beNat_eq_word256Value_iff hlength, hpg.ofInt_injective.eq_iff]
  · exact hbits 16
  · exact hbits 32
  · rw [and_false, false_or]
    exact hbits 64

theorem kind_of_eval (htext : pg.extract data key = some text) (hexact : pgType ∈ exactTypes)
    {value : pg.Value}
    (heval : pg.eval data (buildPromotedExtractExpr ⟨key, pgType.dataType⟩) = some value) :
    match value with
    | .null => pgType = .bigint
    | .boolean b => pgType = .boolean ∧ pg.boolean text = some b
    | .text s => pgType = .text ∧ s = text
    | .integer _ => pgType = .smallint ∨ pgType = .integer ∨ pgType = .bigint
    | .numeric _ => pgType = .numeric 39 ∨ pgType = .numeric 78
    | .floating _ => False := by
  simp only [exactTypes, List.mem_cons, List.not_mem_nil, or_false] at hexact
  rcases hexact with rfl | rfl | rfl | rfl | rfl | rfl | rfl <;>
    simp only [PgType.dataType, buildPromotedExtractExpr, PgCasts.eval, htext, Option.elim_some,
      PgCasts.cast] at heval
  · obtain ⟨b, hb, rfl⟩ := Option.map_eq_some_iff.mp heval
    exact ⟨rfl, hb⟩
  · obtain ⟨_, _, rfl⟩ := Option.map_eq_some_iff.mp heval
    exact Or.inl rfl
  · obtain ⟨_, _, rfl⟩ := Option.map_eq_some_iff.mp heval
    exact Or.inr (Or.inl rfl)
  · obtain ⟨n, _, heval⟩ := Option.bind_eq_some_iff.mp heval
    split at heval
    · cases heval
      rfl
    · obtain ⟨_, _, rfl⟩ := Option.map_eq_some_iff.mp heval
      exact Or.inr (Or.inr rfl)
  · obtain ⟨_, _, rfl⟩ := Option.map_eq_some_iff.mp heval
    exact Or.inl rfl
  · obtain ⟨_, _, rfl⟩ := Option.map_eq_some_iff.mp heval
    exact Or.inr rfl
  · cases heval
    exact ⟨rfl, rfl⟩

theorem faithful_none (hfield : data.field? key = some Scalar.none.toJson) :
    pg.eval data (buildPromotedExtractExpr ⟨key, pgType.dataType⟩) = some .null := by
  have htext : pg.extract data key = none := by
    rw [PgCasts.extract, hfield]
    rfl
  cases pgType <;> simp [PgType.dataType, buildPromotedExtractExpr, PgCasts.eval, htext]

theorem faithful_bool_iff (hpg : pg.Documented) {b : Bool}
    (hfield : data.field? key = some (Scalar.bool b).toJson) (hexact : pgType ∈ exactTypes) :
    (∃ value, pg.eval data (buildPromotedExtractExpr ⟨key, pgType.dataType⟩) = some value ∧
        Faithful pg (.bool b) value) ↔
      FitsColumn pgType (.bool b) := by
  have htext : pg.extract data key = some (if b then "true" else "false") := by
    rw [PgCasts.extract, hfield]
    rfl
  constructor
  · rintro ⟨value, heval, hfaithful⟩
    have hkind := kind_of_eval htext hexact heval
    cases value <;> simp only [Faithful] at hfaithful
    rw [hkind.1]
    trivial
  · intro hfits
    have htype : pgType = .boolean := by
      cases pgType <;> first | rfl | exact hfits.elim
    subst htype
    refine ⟨.boolean b, ?_, rfl⟩
    have hread : pg.boolean (if b then "true" else "false") = some b := by
      cases b
      · exact hpg.boolean_false
      · exact hpg.boolean_true
    simp [PgType.dataType, buildPromotedExtractExpr, PgCasts.eval, htext, PgCasts.cast, hread]

theorem faithful_text_iff {s : String}
    (hfield : data.field? key = some (Scalar.text s).toJson) (hexact : pgType ∈ exactTypes) :
    (∃ value, pg.eval data (buildPromotedExtractExpr ⟨key, pgType.dataType⟩) = some value ∧
        Faithful pg (.text s) value) ↔
      FitsColumn pgType (.text s) := by
  have htext : pg.extract data key = some s := by
    rw [PgCasts.extract, hfield]
    rfl
  constructor
  · rintro ⟨value, heval, hfaithful⟩
    have hkind := kind_of_eval htext hexact heval
    cases value <;> simp only [Faithful] at hfaithful
    rw [hkind.1]
    trivial
  · intro hfits
    have htype : pgType = .text := by
      cases pgType <;> first | rfl | exact hfits.elim
    subst htype
    exact ⟨.text s, by simp [PgType.dataType, buildPromotedExtractExpr, PgCasts.eval, htext], rfl⟩

theorem faithful_iff_fits (hpg : pg.Documented) {scalar : Scalar} (hsized : scalar.Sized)
    (hfield : data.field? key = some scalar.toJson) (hexact : pgType ∈ exactTypes) :
    (∃ value, pg.eval data (buildPromotedExtractExpr ⟨key, pgType.dataType⟩) = some value ∧
        Faithful pg scalar value) ↔
      FitsColumn pgType scalar := by
  cases scalar with
  | int t z => exact faithful_int_iff hpg hfield hexact
  | word256 signed bytes => exact faithful_word256_iff hpg hsized hfield hexact
  | none =>
      have hfits : FitsColumn pgType .none := by
        cases pgType <;> trivial
      exact iff_of_true ⟨.null, faithful_none hfield, trivial⟩ hfits
  | bool b => exact faithful_bool_iff hpg hfield hexact
  | text s => exact faithful_text_iff hfield hexact

end Column

/-! ## Accounts -/

section Account

variable {env : Externs} {registry : TypeRegistry} {g : Generics}

theorem sized_scalarOf {ty : IdlType} {x : BorshValue} {scalar : Scalar}
    (hx : HasType registry g ty x) (h : scalarOf env registry g ty x = some scalar) :
    scalar.Sized := by
  fun_induction scalarOf env registry g ty x with
  | case3 _ bytes =>
      cases hx with
      | u256 _ length =>
          cases h
          exact length
  | case4 _ bytes =>
      cases hx with
      | i256 _ length =>
          cases h
          exact length
  | case8 _ _ _ ih =>
      cases hx with
      | some value => exact ih value h
  | case10 _ _ _ _ _ ih =>
      cases hx with
      | coptionSome _ _ value => exact ih value h
      | @defined _ _ _ typedef _ _ _ _ body =>
          generalize typedef.ty = ty at body
          cases body
  | case11 g name args x _ _ _ _ hresolved ih =>
      cases hx with
      | defined _ resolved _ body =>
          rw [hresolved] at resolved
          cases resolved
          cases body with
          | type value => exact ih value h
  | case13 _ _ _ _ hbound ih =>
      cases hx with
      | generic bound value =>
          rw [hbound] at bound
          cases bound
          exact ih value h
  | case12 | case14 | case15 => cases h
  | _ =>
      cases h
      trivial

/-- The type and the value of the named field of an account.  A name that is given twice
stands for its last field. -/
def fieldOf (typedef : IdlTypeDef) (x : BorshValue) (name : String) :
    Option (IdlType × BorshValue) :=
  match typedef.ty, x with
  | .struct (some (.named fields)), .struct _ xs =>
      ((fields.zip xs).reverse.find? fun p => p.1.name == name).map fun p => (p.1.ty, p.2)
  | _, _ => none

/-- The account's bytes hold this scalar for the field of the name. -/
def OnChain (env : Externs) (registry : TypeRegistry) (data : DataSlice) (account : IdlAccount)
    (name : String) (scalar : Scalar) : Prop :=
  ∃ typedef x ty y, AccountAt registry data account typedef x ∧
    fieldOf typedef x name = some (ty, y) ∧
    scalarOf env registry Generics.empty ty y = some scalar

theorem field?_render (env : Externs) {typedef : IdlTypeDef} {x y : BorshValue}
    {name : String} {ty : IdlType} (hbody : HasBody registry g typedef.ty x)
    (h : fieldOf typedef x name = some (ty, y)) :
    (x.render env).field? name = some (y.render env) ∧ HasType registry g ty y := by
  obtain ⟨_, _, _, body⟩ := typedef
  cases hbody with
  | enum => cases h
  | type => cases h
  | @struct _ fields xs length items =>
      match fields with
      | none => cases h
      | some (.tuple types) => cases h
      | some (.named fields) =>
          obtain ⟨⟨field, value⟩, hfind, hp⟩ := Option.map_eq_some_iff.mp h
          cases hp
          refine ⟨?_, ?_⟩
          · rw [BorshValue.render, BorshValue.renderAll_eq_map]
            change (Json.ofEntries ((fields.map IdlField.name).zip _)).field? name = _
            rw [List.zip_map, Json.field?_ofEntries, ← List.map_reverse, List.find?_map]
            simp only [Function.comp_def, Prod.map_fst, hfind]
            rfl
          · have hmem := List.mem_reverse.mp (List.mem_of_find?_eq_some hfind)
            apply items (field.ty, value)
            change _ ∈ (fields.map IdlField.ty).zip xs
            rw [List.zip_map_left]
            exact List.mem_map.mpr ⟨_, hmem, rfl⟩

theorem mem_exactTypes {field : IdlField} {types : List IdlTypeDef} {pgType : PgType}
    (htype : mapIdlTypeToPg field.ty types = some pgType)
    (hexact : pgType ∉ [.real, .doublePrecision, .bytea]) : pgType ∈ exactTypes := by
  have hmem := mapIdlTypeToPg_mem htype
  revert hmem hexact
  simp only [promotedTypes, exactTypes, List.mem_cons, List.not_mem_nil, or_false]
  tauto

theorem faithful_iff_of_onChain {pg : PgCasts} (hpg : pg.Documented) {self : ChainparserDecoder}
    {programId pubkey : String} {data : DataSlice} {idl : Idl} {account : IdlAccount}
    (hfound : findAccountWithFallback env data.bytes idl = .ok account) {decoded : DecodedAccount}
    (hdecoded : (self.decodeAccount env programId pubkey data idl).1 = .ok decoded)
    {name : String} {scalar : Scalar}
    (hchain : OnChain env (self.registryFor idl) data account name scalar) {pgType : PgType}
    (hexact : pgType ∈ exactTypes) :
    (∃ value, pg.eval decoded.data (buildPromotedExtractExpr ⟨name, pgType.dataType⟩) =
        some value ∧ Faithful pg scalar value) ↔
      FitsColumn pgType scalar := by
  obtain ⟨typedef, x, ty, y, haccount, hfieldOf, hscalar⟩ := hchain
  obtain ⟨hrender, htyped⟩ := field?_render env haccount.body hfieldOf
  have hdata : decoded.data = x.render env := by
    have hother : (self.decodeAccount env programId pubkey data idl).1 =
        .ok (.fromDecoded programId account.name pubkey (x.render env)) :=
      decodeAccount_eq_ok.mpr ⟨account, hfound, typedef, x, haccount, rfl⟩
    rw [hdecoded] at hother
    cases hother
    rfl
  have hkey : decoded.data.field? name = some scalar.toJson := by
    rw [hdata, hrender, render_eq_toJson hscalar]
  exact faithful_iff_fits hpg (sized_scalarOf htyped hscalar) hkey hexact

/-- The column of a field gets the field's value if and only if the column type has room for
it as the decoder writes it. -/
theorem promoted_value_faithful_iff (env : Externs) (pg : PgCasts) (hpg : pg.Documented)
    (self : ChainparserDecoder) (programId pubkey : String) (data : DataSlice) (idl : Idl)
    (account : IdlAccount) (hfound : findAccountWithFallback env data.bytes idl = .ok account)
    (decoded : DecodedAccount)
    (hdecoded : (self.decodeAccount env programId pubkey data idl).1 = .ok decoded)
    (field : IdlField) (column : ColumnDef)
    (hcolumn : promotedColumn account.name idl.types field = some column)
    (hname : sanitizeIdentifier field.name = field.name)
    (hexact : column.pgType ∉ [.real, .doublePrecision, .bytea]) :
    (∃ scalar, OnChain env (self.registryFor idl) data account field.name scalar ∧
      ∃ value, pg.eval decoded.data (buildPromotedExtractExpr (.ofColumn column)) = some value ∧
        Faithful pg scalar value) ↔
      ∃ scalar, OnChain env (self.registryFor idl) data account field.name scalar ∧
        FitsColumn column.pgType scalar := by
  obtain ⟨pgType, htype, _, rfl⟩ := promotedColumn_eq_some.mp hcolumn
  rw [PromotedColumn.ofColumn, hname]
  apply exists_congr
  intro scalar
  apply and_congr_right
  intro hchain
  exact faithful_iff_of_onChain hpg hfound hdecoded hchain (mem_exactTypes htype hexact)

def vaultIdl : Idl := accountIdl "Vault" [⟨"count", .int .u32⟩]

def vaultData (n : Nat) : DataSlice := ⟨1 :: leBytes 4 n, by simp [isizeMax]⟩

theorem onChain_vault {n : Nat} (h : n < 256 ^ 4) :
    OnChain Externs.minimal (.fromIdl vaultIdl) (vaultData n) ⟨"Vault", [1]⟩ "count"
      (.int .u32 (intOfPattern .u32 n)) := by
  refine ⟨⟨"Vault", .borsh, [], .struct (some (.named [⟨"count", .int .u32⟩]))⟩,
    .struct (.named ["count"]) [.int .u32 (intOfPattern .u32 n)], .int .u32, _, ?_, rfl, rfl⟩
  refine ⟨rfl, rfl, ?_, ?_, ?_, ?_⟩
  · refine @HasBody.struct _ _ (some (.named [⟨"count", .int .u32⟩])) _ rfl ?_
    intro p hp
    obtain rfl := List.mem_singleton.mp hp
    exact .int _ (inRange_intOfPattern h)
  · show 2 < maxDecodeDepth + 2
    decide
  · exact ⟨trivial, trivial⟩
  · have hencode : BorshValue.encode (.struct (.named ["count"])
        [.int .u32 (intOfPattern .u32 n)]) = leBytes 4 n := by
      have hpattern := intToPattern_intOfPattern (show n < 256 ^ IntType.u32.width from h)
      simp [BorshValue.encode, BorshValue.encodeAll, hpattern, IntType.width]
    rw [hencode]
    exact ⟨by simp [DataSlice.len, vaultData, discLen], List.prefix_rfl⟩

/-- A count of five. -/
theorem promoted_value_faithful_iff_vault :
    ∃ scalar, OnChain Externs.minimal (.fromIdl vaultIdl) (vaultData 5) ⟨"Vault", [1]⟩
        "count" scalar ∧
      ∃ value, PgCasts.plain.eval (.obj [("count", .int 5)])
          (buildPromotedExtractExpr ⟨"count", "integer"⟩) = some value ∧
        Faithful .plain scalar value := by
  refine (promoted_value_faithful_iff Externs.minimal .plain documented_plain
    ChainparserDecoder.new "prog" "key" (vaultData 5) vaultIdl ⟨"Vault", [1]⟩ rfl
    (.fromDecoded "prog" "Vault" "key" (.obj [("count", .int 5)])) rfl ⟨"count", .int .u32⟩
    ⟨"count", .integer, "", .field "Vault" "count"⟩ rfl rfl (by decide)).mpr ?_
  refine ⟨_, onChain_vault (by decide), ?_⟩
  show InBits 32 _
  decide

/-- The count 2147483648 is decoded, and the cast to `INTEGER` refuses it. -/
theorem promoted_u32_refused :
    (ChainparserDecoder.new.decodeAccount Externs.minimal "prog" "key" (vaultData 2147483648)
        vaultIdl).1 =
        .ok (.fromDecoded "prog" "Vault" "key" (.obj [("count", .int 2147483648)])) ∧
      promotedColumn "Vault" vaultIdl.types ⟨"count", .int .u32⟩ =
        some ⟨"count", .integer, "", .field "Vault" "count"⟩ ∧
      OnChain Externs.minimal (.fromIdl vaultIdl) (vaultData 2147483648) ⟨"Vault", [1]⟩ "count"
        (.int .u32 2147483648) ∧
      ∀ pg : PgCasts, pg.Documented → pg.eval (.obj [("count", .int 2147483648)])
        (buildPromotedExtractExpr ⟨"count", "integer"⟩) = none := by
  refine ⟨by rfl, by rfl, onChain_vault (by decide), fun pg hpg => ?_⟩
  have hcast : pg.integer 32 (toString (2147483648 : Int)) = none :=
    (hpg.decimal 2147483648).integer 32 (by decide)
  change (pg.integer 32 (toString (2147483648 : Int))).map _ = none
  rw [hcast, Option.map_none]

end Account

end Solarix.Storage
