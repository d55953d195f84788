import Solarix.Decoder.DecodeType

/-!
# Borsh values and their layout

What the decoder is for, said without the decoder: the values of an IDL type,
their Borsh encoding and their JSON rendering.  A `COption` that is `None`
carries the bytes of its unused body, since any body is a valid encoding.
-/

namespace Solarix.Decoder

open Solarix.Core

/-- How the fields of a struct or variant are labelled. -/
inductive Shape where
  | unit
  | named (names : List String)
  | tuple

/-- A value of an IDL type.  `alias` and `generic` mark that the value was
reached through a type alias or a type parameter; they have no bytes. -/
inductive BorshValue where
  | bool (b : Bool)
  | int (t : IntType) (z : Int)
  | float (format : FloatFormat) (bits : Nat)
  | word256 (bytes : List UInt8)
  | string (s : String)
  | bytes (bytes : List UInt8)
  | pubkey (bytes : List UInt8)
  | none
  | some (x : BorshValue)
  | vec (xs : List BorshValue)
  | array (xs : List BorshValue)
  | coptionNone (body : List UInt8)
  | coptionSome (x : BorshValue)
  | struct (shape : Shape) (xs : List BorshValue)
  | enum (tag : Nat) (variant : String) (shape : Shape) (xs : List BorshValue)
  | alias (x : BorshValue)
  | generic (x : BorshValue)

/-! ## Encoding -/

def intToPattern (t : IntType) (z : Int) : Nat := ofSigned t.bits z

namespace BorshValue

mutual

def encode : BorshValue → List UInt8
  | .bool b => [if b then 1 else 0]
  | .int t z => leBytes t.width (intToPattern t z)
  | .float format bits => leBytes format.width bits
  | .word256 bs => bs
  | .string s => leBytes 4 (utf8Bytes s).length ++ utf8Bytes s
  | .bytes bs => leBytes 4 bs.length ++ bs
  | .pubkey bs => bs
  | .none => [0]
  | .some x => 1 :: encode x
  | .vec xs => leBytes 4 xs.length ++ encodeAll xs
  | .array xs => encodeAll xs
  | .coptionNone body => leBytes 4 0 ++ body
  | .coptionSome x => leBytes 4 1 ++ encode x
  | .struct _ xs => encodeAll xs
  | .enum tag _ _ xs => UInt8.ofNat tag :: encodeAll xs
  | .alias x => encode x
  | .generic x => encode x

def encodeAll : List BorshValue → List UInt8
  | [] => []
  | x :: xs => encode x ++ encodeAll xs

end

theorem encodeAll_eq_flatMap (xs : List BorshValue) :
    encodeAll xs = xs.flatMap encode := by
  induction xs with
  | nil => rfl
  | cons x xs ih => rw [encodeAll, ih, List.flatMap_cons]

/-! ## Rendering -/

def renderStruct : Shape → List Json → Json
  | .unit, _ => Json.ofEntries []
  | .named names, vals => Json.ofEntries (names.zip vals)
  | .tuple, vals => .arr vals

/-- The JSON of a variant's payload; a tuple of one field is not wrapped. -/
def renderVariant : Shape → List Json → Json
  | .tuple, [val] => val
  | shape, vals => renderStruct shape vals

mutual

def render (env : Externs) : BorshValue → Json
  | .bool b => .bool b
  | .int t z => intToJson t z
  | .float format bits => format.toJson bits
  | .word256 bs => .str ("0x" ++ hexEncode bs)
  | .string s => .str s
  | .bytes bs => .arr (bs.map fun b => .int b.toNat)
  | .pubkey bs => .str (env.bs58Encode bs)
  | .none => .null
  | .some x => render env x
  | .vec xs => .arr (renderAll env xs)
  | .array xs => .arr (renderAll env xs)
  | .coptionNone _ => .null
  | .coptionSome x => render env x
  | .struct shape xs => renderStruct shape (renderAll env xs)
  | .enum _ variant shape xs =>
      Json.ofEntries [(variant, renderVariant shape (renderAll env xs))]
  | .alias x => render env x
  | .generic x => render env x

def renderAll (env : Externs) : List BorshValue → List Json
  | [] => []
  | x :: xs => render env x :: renderAll env xs

end

theorem renderAll_eq_map (env : Externs) (xs : List BorshValue) :
    renderAll env xs = xs.map (render env) := by
  induction xs with
  | nil => rfl
  | cons x xs ih => rw [renderAll, ih, List.map_cons]

/-! ## Nesting and array sizes -/

mutual

/-- Nesting as the decoder counts it: one for each `Option`, `Vec`, `Array`,
`COption` and type parameter, two for each definition on the way to a leaf. -/
def nesting : BorshValue → Nat
  | .some x => 1 + nesting x
  | .vec xs => nestingAll 1 xs
  | .array xs => nestingAll 1 xs
  | .coptionSome x => 1 + nesting x
  | .struct _ xs => nestingAll 2 xs
  | .enum _ _ _ xs => nestingAll 2 xs
  | .alias x => 2 + nesting x
  | .generic x => 1 + nesting x
  | _ => 0

def nestingAll (step : Nat) : List BorshValue → Nat
  | [] => 0
  | x :: xs => max (step + nesting x) (nestingAll step xs)

end

theorem nestingAll_le {step bound : Nat} {xs : List BorshValue} :
    nestingAll step xs ≤ bound ↔ ∀ x ∈ xs, step + nesting x ≤ bound := by
  induction xs with
  | nil => simp [nestingAll]
  | cons x xs ih => simp [nestingAll, ih]

mutual

/-- Every fixed array of the value has room for its items as JSON values:
`Vec::with_capacity` accepts its length. -/
def Fits : BorshValue → Prop
  | .some x => Fits x
  | .vec xs => FitsAll xs
  | .array xs => xs.length * valueSize ≤ isizeMax ∧ FitsAll xs
  | .coptionSome x => Fits x
  | .struct _ xs => FitsAll xs
  | .enum _ _ _ xs => FitsAll xs
  | .alias x => Fits x
  | .generic x => Fits x
  | _ => True

def FitsAll : List BorshValue → Prop
  | [] => True
  | x :: xs => Fits x ∧ FitsAll xs

end

theorem fitsAll_iff {xs : List BorshValue} : FitsAll xs ↔ ∀ x ∈ xs, Fits x := by
  induction xs with
  | nil => simp [FitsAll]
  | cons x xs ih => simp [FitsAll, ih]

end BorshValue

/-! ## Typing -/

def InRange (t : IntType) (z : Int) : Prop :=
  if t.signed then -2 ^ (t.bits - 1) ≤ z ∧ z < 2 ^ (t.bits - 1) else 0 ≤ z ∧ z < 2 ^ t.bits

instance (t : IntType) (z : Int) : Decidable (InRange t z) := inferInstanceAs (Decidable (ite ..))

def fieldTypes : Option IdlDefinedFields → List IdlType
  | none => []
  | some (.named fields) => fields.map IdlField.ty
  | some (.tuple types) => types

def fieldShape : Option IdlDefinedFields → Shape
  | none => .unit
  | some (.named fields) => .named (fields.map IdlField.name)
  | some (.tuple _) => .tuple

mutual

/-- `x` is a value of the type, with the type parameters in scope bound by `g`. -/
inductive HasType (registry : TypeRegistry) : Generics → IdlType → BorshValue → Prop where
  | bool (g : Generics) (b : Bool) : HasType registry g .bool (.bool b)
  | int (g : Generics) {t : IntType} {z : Int} (range : InRange t z) :
      HasType registry g (.int t) (.int t z)
  | f32 (g : Generics) {bits : Nat} (range : bits < 256 ^ 4) :
      HasType registry g .f32 (.float .single bits)
  | f64 (g : Generics) {bits : Nat} (range : bits < 256 ^ 8) :
      HasType registry g .f64 (.float .double bits)
  | u256 (g : Generics) {bytes : List UInt8} (length : bytes.length = 32) :
      HasType registry g .u256 (.word256 bytes)
  | i256 (g : Generics) {bytes : List UInt8} (length : bytes.length = 32) :
      HasType registry g .i256 (.word256 bytes)
  | string (g : Generics) {s : String} (length : (utf8Bytes s).length < 256 ^ 4) :
      HasType registry g .string (.string s)
  | bytes (g : Generics) {bytes : List UInt8} (length : bytes.length < 256 ^ 4) :
      HasType registry g .bytes (.bytes bytes)
  | pubkey (g : Generics) {bytes : List UInt8} (length : bytes.length = 32) :
      HasType registry g .pubkey (.pubkey bytes)
  | none (g : Generics) (inner : IdlType) : HasType registry g (.option inner) .none
  | some {g : Generics} {inner : IdlType} {x : BorshValue}
      (value : HasType registry g inner x) : HasType registry g (.option inner) (.some x)
  | vec {g : Generics} {inner : IdlType} {xs : List BorshValue}
      (length : xs.length < 256 ^ 4) (items : ∀ x ∈ xs, HasType registry g inner x) :
      HasType registry g (.vec inner) (.vec xs)
  | array {g : Generics} {inner : IdlType} {xs : List BorshValue}
      (items : ∀ x ∈ xs, HasType registry g inner x) :
      HasType registry g (.array inner (.value xs.length)) (.array xs)
  | coptionNone (g : Generics) {inner : IdlType} (args : List IdlGenericArg)
      {body : List UInt8} (size : fixedSize registry inner = Option.some body.length) :
      HasType registry g (.defined "COption" (.type inner :: args)) (.coptionNone body)
  | coptionSome {g : Generics} {inner : IdlType} (args : List IdlGenericArg)
      {x : BorshValue} {n : Nat} (size : fixedSize registry inner = Option.some n)
      (value : HasType registry g inner x) :
      HasType registry g (.defined "COption" (.type inner :: args)) (.coptionSome x)
  | defined {g : Generics} {name : String} {args : List IdlGenericArg}
      {typedef : IdlTypeDef} {x : BorshValue} (notCoption : name ≠ "COption")
      (resolved : registry.types name = Option.some typedef)
      (borsh : typedef.serialization = .borsh)
      (body : HasBody registry (bindGenerics g typedef.generics args) typedef.ty x) :
      HasType registry g (.defined name args) x
  | generic {g : Generics} {name : String} {ty : IdlType} {x : BorshValue}
      (bound : g name = Option.some ty) (value : HasType registry g ty x) :
      HasType registry g (.generic name) (.generic x)

inductive HasBody (registry : TypeRegistry) : Generics → IdlTypeDefTy → BorshValue → Prop where
  | struct {g : Generics} {fields : Option IdlDefinedFields} {xs : List BorshValue}
      (length : (fieldTypes fields).length = xs.length)
      (items : ∀ p ∈ (fieldTypes fields).zip xs, HasType registry g p.1 p.2) :
      HasBody registry g (.struct fields) (.struct (fieldShape fields) xs)
  | enum {g : Generics} {variants : List IdlEnumVariant} {tag : Nat}
      {variant : IdlEnumVariant} {xs : List BorshValue} (small : tag < 256)
      (found : variants[tag]? = Option.some variant)
      (length : (fieldTypes variant.fields).length = xs.length)
      (items : ∀ p ∈ (fieldTypes variant.fields).zip xs, HasType registry g p.1 p.2) :
      HasBody registry g (.enum variants)
        (.enum tag variant.name (fieldShape variant.fields) xs)
  | type {g : Generics} {aliased : IdlType} {x : BorshValue}
      (value : HasType registry g aliased x) :
      HasBody registry g (.type aliased) (.alias x)

end

abbrev HasTypes (registry : TypeRegistry) (g : Generics) :
    List IdlType → List BorshValue → Prop :=
  List.Forall₂ (HasType registry g)

theorem hasTypes_iff_zip {registry : TypeRegistry} {g : Generics} {tys : List IdlType}
    {xs : List BorshValue} :
    HasTypes registry g tys xs ↔
      tys.length = xs.length ∧ ∀ p ∈ tys.zip xs, HasType registry g p.1 p.2 := by
  unfold HasTypes
  rw [List.forall₂_iff_zip]
  simp only [Prod.forall]

/-- `x` is a value of the type that the decoder can take in with `levels` calls of
nesting left. -/
structure Within (registry : TypeRegistry) (g : Generics) (levels : Nat) (ty : IdlType)
    (x : BorshValue) : Prop where
  typed : HasType registry g ty x
  nested : x.nesting < levels
  fits : x.Fits

/-! ## Integers -/

theorem bits_pos (t : IntType) : 0 < t.bits := by
  cases t <;> decide

theorem two_pow_bits (t : IntType) : 2 ^ t.bits = 256 ^ t.width := by
  unfold IntType.bits
  rw [Nat.pow_mul]

theorem intOfPattern_intToPattern {t : IntType} {z : Int} (h : InRange t z) :
    intOfPattern t (intToPattern t z) = z := by
  unfold InRange at h
  unfold intOfPattern intToPattern
  split at h
  · rename_i hs
    rw [if_pos hs, toSigned_ofSigned (bits_pos t) h.1 h.2]
  · rename_i hs
    rw [if_neg hs, ofSigned, Int.emod_eq_of_lt h.1 h.2]
    omega

theorem intToPattern_lt (t : IntType) (z : Int) : intToPattern t z < 256 ^ t.width := by
  have hpos : (0 : Int) < 2 ^ t.bits := Int.pow_pos (by decide)
  have hlt := Int.emod_lt_of_pos z hpos
  have hcast : ((2 ^ t.bits : Nat) : Int) = 2 ^ t.bits := by push_cast; rfl
  rw [← two_pow_bits]
  unfold intToPattern ofSigned
  omega

theorem inRange_intOfPattern {t : IntType} {n : Nat} (h : n < 256 ^ t.width) :
    InRange t (intOfPattern t n) := by
  rw [← two_pow_bits] at h
  unfold InRange intOfPattern
  split
  · exact toSigned_bounds (bits_pos t) h
  · exact ⟨by omega, by exact_mod_cast h⟩

theorem intToPattern_intOfPattern {t : IntType} {n : Nat} (h : n < 256 ^ t.width) :
    intToPattern t (intOfPattern t n) = n := by
  rw [← two_pow_bits] at h
  unfold intToPattern intOfPattern
  split
  · exact ofSigned_toSigned h
  · rw [ofSigned, Int.emod_eq_of_lt (by omega) (by exact_mod_cast h)]
    simp

/-! ## Static sizes agree with the layout -/

theorem sumSizes_mono {size size' : IdlType → Option Nat}
    (h : ∀ ty n, size ty = some n → size' ty = some n) {types : List IdlType}
    {total n : Nat} (hn : sumSizes size total types = some n) :
    sumSizes size' total types = some n := by
  induction types generalizing total with
  | nil => exact hn
  | cons ty types ih =>
      obtain ⟨s, hs, hrest⟩ := Option.bind_eq_some_iff.mp hn
      obtain ⟨t, ht, hrest⟩ := Option.bind_eq_some_iff.mp hrest
      rw [sumSizes, h ty s hs, Option.bind_some, ht, Option.bind_some]
      exact ih hrest

theorem fixedSizeStep_mono {registry : TypeRegistry} {size size' : IdlType → Option Nat}
    (h : ∀ ty n, size ty = some n → size' ty = some n) {ty : IdlType} {n : Nat}
    (hn : fixedSizeStep registry size ty = some n) :
    fixedSizeStep registry size' ty = some n := by
  unfold fixedSizeStep at hn ⊢
  split at hn <;> try exact hn
  · obtain ⟨s, hs, hrest⟩ := Option.bind_eq_some_iff.mp hn
    rw [h _ s hs, Option.bind_some]
    exact hrest
  · split at hn
    · rename_i hname
      rw [if_pos hname]
      split at hn
      · obtain ⟨s, hs, hrest⟩ := Option.bind_eq_some_iff.mp hn
        rw [h _ s hs, Option.bind_some]
        exact hrest
      · cases hn
    · rename_i hname
      rw [if_neg hname]
      obtain ⟨typedef, htd, hrest⟩ := Option.bind_eq_some_iff.mp hn
      rw [htd, Option.bind_some]
      split at hrest
      · exact sumSizes_mono h hrest
      · exact sumSizes_mono h hrest
      · exact h _ n hrest
      · cases hrest

theorem fixedSizeAt_mono {registry : TypeRegistry} {levels levels' : Nat}
    (hle : levels ≤ levels') {ty : IdlType} {n : Nat}
    (h : fixedSizeAt registry levels ty = some n) :
    fixedSizeAt registry levels' ty = some n := by
  induction levels generalizing levels' ty n with
  | zero => cases h
  | succ levels ih =>
      obtain ⟨k, rfl⟩ : ∃ k, levels' = k + 1 := ⟨levels' - 1, by omega⟩
      rw [fixedSizeAt] at h ⊢
      exact fixedSizeStep_mono (fun ty n => ih (by omega)) h

theorem fixedSizeAt_unique {registry : TypeRegistry} {levels levels' : Nat}
    {ty : IdlType} {n m : Nat} (hn : fixedSizeAt registry levels ty = some n)
    (hm : fixedSizeAt registry levels' ty = some m) : n = m := by
  have hn' := fixedSizeAt_mono (le_max_left levels levels') hn
  have hm' := fixedSizeAt_mono (le_max_right levels levels') hm
  rw [hn'] at hm'
  exact Option.some.inj hm'

theorem sumSizes_eq_length {size : IdlType → Option Nat} {types : List IdlType}
    {xs : List BorshValue}
    (h : List.Forall₂ (fun ty x => ∀ s, size ty = some s → x.encode.length = s) types xs)
    {total n : Nat} (hn : sumSizes size total types = some n) :
    n = total + (xs.flatMap BorshValue.encode).length := by
  induction h generalizing total with
  | nil => simpa [sumSizes, eq_comm] using hn
  | cons hx _ ih =>
      obtain ⟨s, hs, hrest⟩ := Option.bind_eq_some_iff.mp hn
      obtain ⟨t, ht, hrest⟩ := Option.bind_eq_some_iff.mp hrest
      obtain ⟨_, rfl⟩ := checkedAdd_eq_some.mp ht
      rw [ih hrest, List.flatMap_cons, List.length_append, hx s hs]
      omega

theorem length_flatMap_encode {xs : List BorshValue} {s : Nat}
    (h : ∀ x ∈ xs, x.encode.length = s) :
    (xs.flatMap BorshValue.encode).length = s * xs.length := by
  induction xs with
  | nil => rfl
  | cons x xs ih =>
      rw [List.flatMap_cons, List.length_append, h x (by simp),
        ih (fun y hy => h y (by simp [hy])), List.length_cons, Nat.mul_succ]
      omega

theorem length_encode_of_fixedSizeAt {registry : TypeRegistry} {levels : Nat}
    {g : Generics} {ty : IdlType} {x : BorshValue} {n : Nat}
    (hx : HasType registry g ty x) (hn : fixedSizeAt registry levels ty = some n) :
    x.encode.length = n := by
  induction levels generalizing g ty x n with
  | zero => cases hn
  | succ levels ih =>
      rw [fixedSizeAt] at hn
      cases hx with
      | array items =>
          obtain ⟨s, hs, hmul⟩ := Option.bind_eq_some_iff.mp hn
          obtain ⟨_, rfl⟩ := checkedMul_eq_some.mp hmul
          rw [BorshValue.encode, BorshValue.encodeAll_eq_flatMap]
          exact length_flatMap_encode fun x hx => ih (items x hx) hs
      | coptionNone _ args size =>
          obtain ⟨s, hs, hadd⟩ := Option.bind_eq_some_iff.mp hn
          obtain ⟨_, rfl⟩ := checkedAdd_eq_some.mp hadd
          rw [BorshValue.encode, List.length_append, length_leBytes,
            fixedSizeAt_unique hs size]
      | coptionSome args size value =>
          obtain ⟨s, hs, hadd⟩ := Option.bind_eq_some_iff.mp hn
          obtain ⟨_, rfl⟩ := checkedAdd_eq_some.mp hadd
          rw [BorshValue.encode, List.length_append, length_leBytes, ih value hs]
      | @defined _ _ _ typedef _ notCoption resolved _ body =>
          rw [fixedSizeStep, if_neg notCoption, resolved, Option.bind_some] at hn
          generalize typedef.ty = ty at hn body
          cases body with
          | @struct _ fields xs length items =>
              have hxs := (hasTypes_iff_zip.mpr ⟨length, items⟩).imp
                fun ty x hx s (hs : fixedSizeAt registry levels ty = some s) => ih hx hs
              rw [BorshValue.encode, BorshValue.encodeAll_eq_flatMap]
              match fields with
              | some (.named fields) => simpa using (sumSizes_eq_length hxs hn).symm
              | some (.tuple types) => simpa using (sumSizes_eq_length hxs hn).symm
              | none => cases hn
          | enum => cases hn
          | type value =>
              rw [BorshValue.encode]
              exact ih value hn
      | int => simpa [fixedSizeStep, BorshValue.encode] using hn
      | f32 => simpa [fixedSizeStep, BorshValue.encode, FloatFormat.width,
          FloatFormat.single] using hn
      | f64 => simpa [fixedSizeStep, BorshValue.encode, FloatFormat.width,
          FloatFormat.double] using hn
      | bool => simpa [fixedSizeStep, BorshValue.encode] using hn
      | u256 _ length => simpa [fixedSizeStep, BorshValue.encode, length] using hn
      | i256 _ length => simpa [fixedSizeStep, BorshValue.encode, length] using hn
      | pubkey _ length => simpa [fixedSizeStep, BorshValue.encode, length] using hn
      | string => cases hn
      | bytes => cases hn
      | none => cases hn
      | some => cases hn
      | vec => cases hn
      | generic => cases hn

end Solarix.Decoder
