import Mathlib.Logic.Relation
import Solarix.Decoder.Alike
import Solarix.Decoder.Sound

/-!
# The rendering keeps the value

Two values of one type with the same JSON are the same value, up to the unused body of a
`COption` that is `None`.  The type must not use floats or type parameters, its names
must tell its fields and variants apart, and no optional may stand directly in another.
-/

namespace Solarix.Decoder

open Solarix.Core
open BorshValue (encode encodeAll encodeAll_eq_flatMap render renderAll renderAll_eq_map
  renderStruct renderVariant nestingAll_le)

/-! ## Values up to padding -/

namespace BorshValue

mutual

/-- The value with the unused bodies of its `COption`s zeroed. -/
def blank : BorshValue → BorshValue
  | .some x => .some (blank x)
  | .vec xs => .vec (blankAll xs)
  | .array xs => .array (blankAll xs)
  | .coptionNone body => .coptionNone (List.replicate body.length 0)
  | .coptionSome x => .coptionSome (blank x)
  | .struct shape xs => .struct shape (blankAll xs)
  | .enum tag variant shape xs => .enum tag variant shape (blankAll xs)
  | .alias x => .alias (blank x)
  | .generic x => .generic (blank x)
  | x => x

def blankAll : List BorshValue → List BorshValue
  | [] => []
  | x :: xs => blank x :: blankAll xs

end

mutual

/-- The encoding with `none` for the bytes of an unused body. -/
def masked : BorshValue → List (Option UInt8)
  | .some x => Option.some 1 :: masked x
  | .vec xs => (leBytes 4 xs.length).map Option.some ++ maskedAll xs
  | .array xs => maskedAll xs
  | .coptionNone body => (leBytes 4 0).map Option.some ++ List.replicate body.length Option.none
  | .coptionSome x => (leBytes 4 1).map Option.some ++ masked x
  | .struct _ xs => maskedAll xs
  | .enum tag _ _ xs => Option.some (UInt8.ofNat tag) :: maskedAll xs
  | .alias x => masked x
  | .generic x => masked x
  | x => (encode x).map Option.some

def maskedAll : List BorshValue → List (Option UInt8)
  | [] => []
  | x :: xs => masked x ++ maskedAll xs

end

theorem blankAll_eq_map (xs : List BorshValue) : blankAll xs = xs.map blank := by
  induction xs with
  | nil => rfl
  | cons x xs ih => rw [blankAll, ih, List.map_cons]

def Shows (shown : Option UInt8) (b : UInt8) : Prop :=
  shown = Option.none ∨ shown = Option.some b

theorem shows_map (bs : List UInt8) : List.Forall₂ Shows (bs.map Option.some) bs := by
  induction bs with
  | nil => exact .nil
  | cons b bs ih => exact .cons (.inr rfl) ih

theorem shows_replicate (bs : List UInt8) :
    List.Forall₂ Shows (List.replicate bs.length Option.none) bs := by
  induction bs with
  | nil => exact .nil
  | cons b bs ih => exact .cons (.inl rfl) ih

mutual

theorem shows_masked (x : BorshValue) : List.Forall₂ Shows x.masked x.encode := by
  match x with
  | .some x =>
      rw [masked, encode]
      exact .cons (.inr rfl) (shows_masked x)
  | .vec xs =>
      rw [masked, encode]
      exact List.rel_append (shows_map _) (shows_maskedAll xs)
  | .array xs =>
      rw [masked, encode]
      exact shows_maskedAll xs
  | .coptionNone body =>
      rw [masked, encode]
      exact List.rel_append (shows_map _) (shows_replicate body)
  | .coptionSome x =>
      rw [masked, encode]
      exact List.rel_append (shows_map _) (shows_masked x)
  | .struct shape xs =>
      rw [masked, encode]
      exact shows_maskedAll xs
  | .enum tag variant shape xs =>
      rw [masked, encode]
      exact .cons (.inr rfl) (shows_maskedAll xs)
  | .alias x =>
      rw [masked, encode]
      exact shows_masked x
  | .generic x =>
      rw [masked, encode]
      exact shows_masked x
  | .bool _ | .int _ _ | .float _ _ | .word256 _ | .string _ | .bytes _ | .pubkey _ | .none =>
      exact shows_map _

theorem shows_maskedAll (xs : List BorshValue) :
    List.Forall₂ Shows (maskedAll xs) (encodeAll xs) := by
  cases xs with
  | nil => exact .nil
  | cons x xs =>
      rw [maskedAll, encodeAll]
      exact List.rel_append (shows_masked x) (shows_maskedAll xs)

end

mutual

theorem masked_blank (x : BorshValue) : x.blank.masked = x.masked := by
  match x with
  | .some x => rw [blank, masked, masked, masked_blank x]
  | .vec xs =>
      rw [blank, masked, masked, maskedAll_blankAll xs, blankAll_eq_map, List.length_map]
  | .array xs => rw [blank, masked, masked, maskedAll_blankAll xs]
  | .coptionNone body => rw [blank, masked, masked, List.length_replicate]
  | .coptionSome x => rw [blank, masked, masked, masked_blank x]
  | .struct shape xs => rw [blank, masked, masked, maskedAll_blankAll xs]
  | .enum tag variant shape xs => rw [blank, masked, masked, maskedAll_blankAll xs]
  | .alias x => rw [blank, masked, masked, masked_blank x]
  | .generic x => rw [blank, masked, masked, masked_blank x]
  | .bool _ | .int _ _ | .float _ _ | .word256 _ | .string _ | .bytes _ | .pubkey _ | .none =>
      rfl

theorem maskedAll_blankAll (xs : List BorshValue) : maskedAll (blankAll xs) = maskedAll xs := by
  cases xs with
  | nil => rfl
  | cons x xs => rw [blankAll, maskedAll, maskedAll, masked_blank x, maskedAll_blankAll xs]

end

theorem bytes_of_blank_eq {x y : BorshValue} (h : x.blank = y.blank) :
    x.encode.length = y.encode.length ∧
      ∀ i : Nat, x.masked[i]? ≠ Option.some Option.none → x.encode[i]? = y.encode[i]? := by
  have hmasked : x.masked = y.masked := by rw [← masked_blank x, h, masked_blank y]
  have hx := shows_masked x
  have hy := shows_masked y
  rw [← hmasked] at hy
  refine ⟨hx.length_eq.symm.trans hy.length_eq, fun i hi => ?_⟩
  by_cases hlt : i < x.masked.length
  · have hltx : i < x.encode.length := hx.length_eq ▸ hlt
    have hlty : i < y.encode.length := hy.length_eq ▸ hlt
    have hshowx := List.forall₂_iff_get.mp hx |>.2 i hlt hltx
    have hshowy := List.forall₂_iff_get.mp hy |>.2 i hlt hlty
    rw [List.getElem?_eq_getElem hlt] at hi
    simp only [Shows, List.get_eq_getElem] at hshowx hshowy
    rcases hshowx with hnone | hsome
    · exact absurd (congrArg Option.some hnone) hi
    · rw [hsome] at hshowy
      rw [List.getElem?_eq_getElem hltx, List.getElem?_eq_getElem hlty]
      simpa using hshowy
  · rw [List.getElem?_eq_none (by rw [← hx.length_eq]; omega),
      List.getElem?_eq_none (by rw [← hy.length_eq]; omega)]

end BorshValue

/-! ## Types whose values can be told apart -/

def fieldNames : Option IdlDefinedFields → List String
  | some (.named fields) => fields.map IdlField.name
  | _ => []

/-- The names in a definition tell its fields and variants apart. -/
def DistinctNames : IdlTypeDefTy → Prop
  | .struct fields => (fieldNames fields).Nodup
  | .enum variants =>
      (variants.map IdlEnumVariant.name).Nodup ∧
        ∀ variant ∈ variants, (fieldNames variant.fields).Nodup
  | .type _ => True

/-- An `Option` or a `COption`, possibly through aliases. -/
inductive OptionLike (registry : TypeRegistry) : IdlType → Prop where
  | option (inner : IdlType) : OptionLike registry (.option inner)
  | coption (args : List IdlGenericArg) : OptionLike registry (.defined "COption" args)
  | aliased {name : String} {args : List IdlGenericArg} {typedef : IdlTypeDef} {ty : IdlType}
      (notCoption : name ≠ "COption") (resolved : registry.types name = some typedef)
      (body : typedef.ty = .type ty) (below : OptionLike registry ty) :
      OptionLike registry (.defined name args)

inductive Part (registry : TypeRegistry) : IdlType → IdlType → Prop where
  | option (inner : IdlType) : Part registry (.option inner) inner
  | vec (inner : IdlType) : Part registry (.vec inner) inner
  | array (inner : IdlType) (len : IdlArrayLen) : Part registry (.array inner len) inner
  | coption (inner : IdlType) (args : List IdlGenericArg) :
      Part registry (.defined "COption" (.type inner :: args)) inner
  | body {name : String} {args : List IdlGenericArg} {typedef : IdlTypeDef} {ty : IdlType}
      (notCoption : name ≠ "COption") (resolved : registry.types name = some typedef)
      (mem : ty ∈ bodyTypes typedef.ty) : Part registry (.defined name args) ty

def Plain (registry : TypeRegistry) : IdlType → Prop
  | .f32 | .f64 | .generic _ => False
  | .option inner => ¬ OptionLike registry inner
  | .defined name args =>
      if name = "COption" then
        ∀ inner, args.head? = some (.type inner) → ¬ OptionLike registry inner
      else ∀ typedef, registry.types name = some typedef → DistinctNames typedef.ty
  | _ => True

/-- The type and all that it is made of are free of floats and type parameters, have
distinct names, and no optional stands directly in an optional. -/
def Lossless (registry : TypeRegistry) (ty : IdlType) : Prop :=
  ∀ part, Relation.ReflTransGen (Part registry) ty part → Plain registry part

section Lossless

variable {registry : TypeRegistry} {env : Externs}

theorem Lossless.plain {ty : IdlType} (h : Lossless registry ty) : Plain registry ty :=
  h ty .refl

theorem Lossless.part {ty part : IdlType} (h : Lossless registry ty)
    (hpart : Part registry ty part) :
    Lossless registry part :=
  fun other hother => h other (.head hpart hother)

/-! ### Nothing but an optional is `null` -/

theorem renderStruct_ne_null (shape : Shape) (vals : List Json) :
    renderStruct shape vals ≠ .null := by
  cases shape <;> simp [renderStruct, Json.ofEntries]

theorem render_ne_null {g : Generics} {ty : IdlType} {x : BorshValue}
    (hty : Lossless registry ty) (hopt : ¬ OptionLike registry ty)
    (hx : HasType registry g ty x) : x.render env ≠ .null := by
  -- Only an alias passes the question on; it is one level nearer to a leaf.
  obtain ⟨levels, hlevels⟩ : ∃ levels, x.nesting < levels := ⟨_, Nat.lt_succ_self _⟩
  induction levels generalizing g ty x with
  | zero => exact absurd hlevels (Nat.not_lt_zero _)
  | succ levels ih =>
      cases hx with
      | int => simp only [render, intToJson]; split <;> simp
      | none => exact absurd (.option _) hopt
      | some => exact absurd (.option _) hopt
      | coptionNone => exact absurd (.coption _) hopt
      | coptionSome => exact absurd (.coption _) hopt
      | @defined _ name args typedef x notCoption resolved borsh body =>
          cases hbody : typedef.ty with
          | struct fields =>
              rw [hbody] at body
              cases body with
              | struct length items => exact renderStruct_ne_null _ _
          | enum variants =>
              rw [hbody] at body
              cases body with
              | enum => simp [render, Json.ofEntries]
          | type aliased =>
              rw [hbody] at body
              cases body with
              | @type _ _ x value =>
                  simp only [BorshValue.nesting] at hlevels
                  rw [render]
                  refine ih (hty.part (.body notCoption resolved ?_)) ?_ value (by omega)
                  · simp [hbody, bodyTypes]
                  · exact fun h => hopt (.aliased notCoption resolved hbody h)
      | generic => exact hty.plain.elim
      | f32 => exact hty.plain.elim
      | f64 => exact hty.plain.elim
      | _ => simp [render]

/-! ### Scalars -/

theorem hexDigit_inj : ∀ n < 16, ∀ m < 16, hexDigit n = hexDigit m → n = m := by
  decide

theorem hexEncode_inj {bs bs' : List UInt8} (h : hexEncode bs = hexEncode bs') : bs = bs' := by
  have hlist := congrArg String.toList h
  rw [toList_hexEncode, toList_hexEncode] at hlist
  clear h
  induction bs generalizing bs' with
  | nil =>
      cases bs' with
      | nil => rfl
      | cons b' bs' => simp at hlist
  | cons b bs ih =>
      cases bs' with
      | nil => simp at hlist
      | cons b' bs' =>
          simp only [List.flatMap_cons, List.cons_append, List.nil_append, List.cons.injEq] at hlist
          obtain ⟨hhigh, hlow, hrest⟩ := hlist
          have hb := b.toNat_lt
          have hb' := b'.toNat_lt
          have hhigh := hexDigit_inj _ (by omega) _ (by omega) hhigh
          have hlow := hexDigit_inj _ (by omega) _ (by omega) hlow
          have hbyte : b = b' := UInt8.toNat_inj.mp (by omega)
          rw [hbyte, ih hrest]

theorem intToJson_inj {t : IntType} {z z' : Int} (h : intToJson t z = intToJson t z') :
    z = z' := by
  unfold intToJson at h
  split at h
  · exact toString_int_inj (Json.str.inj h)
  · exact toString_int_inj (Json.str.inj h)
  · exact Json.int.inj h

theorem bytesToJson_inj {bs bs' : List UInt8}
    (h : (bs.map fun b => Json.int b.toNat) = bs'.map fun b => Json.int b.toNat) : bs = bs' := by
  refine List.map_injective_iff.mpr (fun b b' hb => ?_) h
  have hint := Json.int.inj hb
  exact UInt8.toNat_inj.mp (by omega)

/-! ### Lists of values -/

theorem blankAll_eq {xs ys : List BorshValue} (h : renderAll env xs = renderAll env ys)
    (hitem : ∀ p ∈ xs.zip ys, p.1.render env = p.2.render env → p.1.blank = p.2.blank) :
    BorshValue.blankAll xs = BorshValue.blankAll ys := by
  induction xs generalizing ys with
  | nil =>
      cases ys with
      | nil => rfl
      | cons y ys => simp [renderAll] at h
  | cons x xs ih =>
      cases ys with
      | nil => simp [renderAll] at h
      | cons y ys =>
          simp only [renderAll, List.cons.injEq] at h
          rw [List.zip_cons_cons, List.forall_mem_cons] at hitem
          rw [BorshValue.blankAll, BorshValue.blankAll, hitem.1 h.1, ih h.2 hitem.2]

theorem common_type {g : Generics} {tys : List IdlType} {xs ys : List BorshValue}
    (hxs : HasTypes registry g tys xs) (hys : HasTypes registry g tys ys) :
    ∀ p ∈ xs.zip ys, ∃ ty ∈ tys, HasType registry g ty p.1 ∧ HasType registry g ty p.2 := by
  induction hxs generalizing ys with
  | nil => simp
  | @cons ty x tys xs hx _ ih =>
      cases hys with
      | @cons _ y _ ys hy hys =>
          rw [List.zip_cons_cons, List.forall_mem_cons]
          refine ⟨⟨ty, by simp, hx, hy⟩, fun p hp => ?_⟩
          obtain ⟨ty', hmem, hp⟩ := ih hys p hp
          exact ⟨ty', by simp [hmem], hp⟩

theorem renderStruct_inj {fields : Option IdlDefinedFields} (hnodup : (fieldNames fields).Nodup)
    {vals vals' : List Json} (hlength : (fieldTypes fields).length = vals.length)
    (hlength' : (fieldTypes fields).length = vals'.length)
    (h : renderStruct (fieldShape fields) vals = renderStruct (fieldShape fields) vals') :
    vals = vals' := by
  match fields with
  | none =>
      rw [List.length_eq_zero_iff.mp hlength.symm, List.length_eq_zero_iff.mp hlength'.symm]
  | some (.named fields) =>
      simp only [fieldTypes, List.length_map] at hlength hlength'
      exact Json.ofEntries_zip_inj hnodup (by simpa [fieldNames] using hlength)
        (by simpa [fieldNames] using hlength') h
  | some (.tuple types) => exact Json.arr.inj h

theorem renderVariant_inj {fields : Option IdlDefinedFields} (hnodup : (fieldNames fields).Nodup)
    {vals vals' : List Json} (hlength : (fieldTypes fields).length = vals.length)
    (hlength' : (fieldTypes fields).length = vals'.length)
    (h : renderVariant (fieldShape fields) vals = renderVariant (fieldShape fields) vals') :
    vals = vals' := by
  match fields with
  | none => exact renderStruct_inj hnodup hlength hlength' h
  | some (.named fields) => exact renderStruct_inj hnodup hlength hlength' h
  | some (.tuple types) =>
      -- A tuple of one field is not wrapped, and both have as many fields as the variant.
      match vals, vals' with
      | [val], [val'] => exact congrArg (fun val => [val]) h
      | [], [] => rfl
      | _ :: _ :: _, _ :: _ :: _ => exact Json.arr.inj h
      | [], _ :: _ =>
          simp only [List.length_cons, List.length_nil] at hlength hlength'
          omega
      | _ :: _, [] =>
          simp only [List.length_cons, List.length_nil] at hlength hlength'
          omega
      | [_], _ :: _ :: _ =>
          simp only [List.length_cons, List.length_nil] at hlength hlength'
          omega
      | _ :: _ :: _, [_] =>
          simp only [List.length_cons, List.length_nil] at hlength hlength'
          omega

theorem tag_eq_of_name {variants : List IdlEnumVariant} {tag tag' : Nat}
    {variant variant' : IdlEnumVariant} (hnodup : (variants.map IdlEnumVariant.name).Nodup)
    (hfound : variants[tag]? = some variant) (hfound' : variants[tag']? = some variant')
    (hname : variant.name = variant'.name) : tag = tag' := by
  have hlt := (List.getElem?_eq_some_iff.mp hfound).1
  apply (List.getElem?_inj (by simpa using hlt) hnodup).mp
  rw [List.getElem?_map, List.getElem?_map, hfound, hfound', Option.map_some, Option.map_some,
    hname]

/-! ### The induction -/

/-- Base58 tells 32-byte keys apart. -/
def KeysDistinct (env : Externs) : Prop :=
  ∀ key key' : List UInt8, key.length = 32 → key'.length = 32 →
    env.bs58Encode key = env.bs58Encode key' → key = key'

/-- Values of the type with less than `levels` nesting are told apart by their rendering. -/
def ToldApart (env : Externs) (registry : TypeRegistry) (levels : Nat) : Prop :=
  ∀ (g : Generics) (ty : IdlType) (x y : BorshValue), Lossless registry ty →
    HasType registry g ty x → HasType registry g ty y → x.nesting < levels →
    x.render env = y.render env → x.blank = y.blank

theorem blankAll_items {levels : Nat} (ih : ToldApart env registry levels) {g : Generics}
    {inner : IdlType} (hinner : Lossless registry inner) {xs ys : List BorshValue}
    (hxs : ∀ x ∈ xs, HasType registry g inner x) (hys : ∀ y ∈ ys, HasType registry g inner y)
    (hlevels : BorshValue.nestingAll 1 xs < levels + 1)
    (h : renderAll env xs = renderAll env ys) :
    BorshValue.blankAll xs = BorshValue.blankAll ys := by
  refine blankAll_eq h fun p hp hrender => ?_
  obtain ⟨hx, hy⟩ := List.of_mem_zip hp
  exact ih g inner _ _ hinner (hxs _ hx) (hys _ hy) (nesting_lt_of_nestingAll hlevels _ hx) hrender

theorem blankAll_fields {levels : Nat} (ih : ToldApart env registry levels) {g : Generics}
    {tys : List IdlType} (htys : ∀ ty ∈ tys, Lossless registry ty) {xs ys : List BorshValue}
    (hxs : HasTypes registry g tys xs) (hys : HasTypes registry g tys ys)
    (hlevels : BorshValue.nestingAll 2 xs < levels + 1)
    (h : renderAll env xs = renderAll env ys) :
    BorshValue.blankAll xs = BorshValue.blankAll ys := by
  refine blankAll_eq h fun p hp hrender => ?_
  obtain ⟨ty, hty, hx, hy⟩ := common_type hxs hys p hp
  have hle := nestingAll_le.mp (Nat.le_of_lt_succ hlevels) p.1 (List.of_mem_zip hp).1
  exact ih g ty _ _ (htys ty hty) hx hy (by omega) hrender

theorem blank_body {levels : Nat} (ih : ToldApart env registry levels) {g : Generics}
    {body : IdlTypeDefTy} (hnames : DistinctNames body)
    (htys : ∀ ty ∈ bodyTypes body, Lossless registry ty) {x y : BorshValue}
    (hx : HasBody registry g body x) (hy : HasBody registry g body y)
    (hlevels : x.nesting < levels + 1) (h : x.render env = y.render env) :
    x.blank = y.blank := by
  cases hx with
  | @struct _ fields xs length items =>
      cases hy with
      | @struct _ _ ys length' items' =>
          simp only [render, renderAll_eq_map] at h
          have hvals := renderStruct_inj hnames (by simpa using length) (by simpa using length') h
          rw [← renderAll_eq_map, ← renderAll_eq_map] at hvals
          rw [BorshValue.blank, BorshValue.blank,
            blankAll_fields ih htys (hasTypes_iff_zip.mpr ⟨length, items⟩)
              (hasTypes_iff_zip.mpr ⟨length', items'⟩) hlevels hvals]
  | @enum _ variants tag variant xs small found length items =>
      cases hy with
      | @enum _ _ tag' variant' ys small' found' length' items' =>
          simp only [render, renderAll_eq_map] at h
          obtain ⟨hname, hpayload⟩ : variant.name = variant'.name ∧
              renderVariant (fieldShape variant.fields) (xs.map (render env)) =
                renderVariant (fieldShape variant'.fields) (ys.map (render env)) := by
            simpa [Json.ofEntries, Json.insert] using h
          obtain rfl := tag_eq_of_name hnames.1 found found' hname
          obtain rfl : variant = variant' := Option.some.inj (found.symm.trans found')
          have hmem := List.mem_of_getElem? found
          have hvals := renderVariant_inj (hnames.2 variant hmem) (by simpa using length)
            (by simpa using length') hpayload
          rw [← renderAll_eq_map, ← renderAll_eq_map] at hvals
          have hfields : ∀ ty ∈ fieldTypes variant.fields, Lossless registry ty :=
            fun ty hty => htys ty (List.mem_flatMap.mpr ⟨variant, hmem, hty⟩)
          rw [BorshValue.blank, BorshValue.blank,
            blankAll_fields ih hfields (hasTypes_iff_zip.mpr ⟨length, items⟩)
              (hasTypes_iff_zip.mpr ⟨length', items'⟩) hlevels hvals]
  | @type _ aliased x value =>
      cases hy with
      | @type _ _ y value' =>
          simp only [BorshValue.nesting] at hlevels
          simp only [render] at h
          rw [BorshValue.blank, BorshValue.blank, ih g aliased x y
            (htys aliased (by simp [bodyTypes])) value value' (by omega) h]

theorem toldApart_succ {levels : Nat} (hkeys : KeysDistinct env)
    (ih : ToldApart env registry levels) : ToldApart env registry (levels + 1) := by
  intro g ty x y hty hx hy hlevels h
  cases hx with
  | bool _ b =>
      cases hy
      rw [Json.bool.inj h]
  | int _ range =>
      cases hy
      simp only [render] at h
      rw [intToJson_inj h]
  | f32 => exact hty.plain.elim
  | f64 => exact hty.plain.elim
  | u256 =>
      cases hy
      simp only [render, Json.str.injEq, String.append_right_inj] at h
      rw [hexEncode_inj h]
  | i256 =>
      cases hy
      simp only [render, Json.str.injEq, String.append_right_inj] at h
      rw [hexEncode_inj h]
  | string =>
      cases hy
      rw [Json.str.inj h]
  | bytes =>
      cases hy
      simp only [render, Json.arr.injEq] at h
      rw [bytesToJson_inj h]
  | pubkey _ length =>
      cases hy with
      | pubkey _ length' =>
          simp only [render, Json.str.injEq] at h
          rw [hkeys _ _ length length' h]
  | none _ inner =>
      cases hy with
      | none => rfl
      | some value =>
          simp only [render] at h
          exact absurd h.symm (render_ne_null (hty.part (.option inner)) hty.plain value)
  | @some _ inner x value =>
      cases hy with
      | none =>
          simp only [render] at h
          exact absurd h (render_ne_null (hty.part (.option inner)) hty.plain value)
      | @some _ _ y value' =>
          simp only [BorshValue.nesting] at hlevels
          simp only [render] at h
          rw [BorshValue.blank, BorshValue.blank, ih g inner x y (hty.part (.option inner))
            value value' (by omega) h]
  | @vec _ inner xs length items =>
      cases hy with
      | @vec _ _ ys length' items' =>
          rw [BorshValue.blank, BorshValue.blank,
            blankAll_items ih (hty.part (.vec inner)) items items' hlevels (Json.arr.inj h)]
  | @array _ inner xs items =>
      generalize hlen : IdlArrayLen.value xs.length = len at hy hty
      cases hy with
      | @array _ _ ys items' =>
          rw [BorshValue.blank, BorshValue.blank, blankAll_items ih
            (hty.part (.array inner _)) items items' hlevels (Json.arr.inj h)]
  | @coptionNone _ inner args body size =>
      cases hy with
      | @coptionNone _ _ _ body' size' =>
          have hlength := Option.some.inj (size.symm.trans size')
          rw [BorshValue.blank, BorshValue.blank, hlength]
      | coptionSome _ size' value =>
          have hinner : ¬ OptionLike registry inner := by simpa [Plain] using hty.plain
          simp only [render] at h
          exact absurd h.symm (render_ne_null (hty.part (.coption inner args)) hinner value)
      | defined notCoption => exact absurd rfl notCoption
  | @coptionSome _ inner args x _ size value =>
      cases hy with
      | coptionNone =>
          have hinner : ¬ OptionLike registry inner := by simpa [Plain] using hty.plain
          simp only [render] at h
          exact absurd h (render_ne_null (hty.part (.coption inner args)) hinner value)
      | @coptionSome _ _ _ y _ size' value' =>
          simp only [BorshValue.nesting] at hlevels
          simp only [render] at h
          rw [BorshValue.blank, BorshValue.blank, ih g inner x y
            (hty.part (.coption inner args)) value value' (by omega) h]
      | defined notCoption => exact absurd rfl notCoption
  | @defined _ name args typedef x notCoption resolved borsh body =>
      cases hy with
      | coptionNone => exact absurd rfl notCoption
      | coptionSome => exact absurd rfl notCoption
      | @defined _ _ _ typedef' y _ resolved' _ body' =>
          obtain rfl : typedef = typedef' := Option.some.inj (resolved.symm.trans resolved')
          have hplain := hty.plain
          simp only [Plain, if_neg notCoption] at hplain
          exact blank_body ih (hplain typedef resolved)
            (fun ty hmem => hty.part (.body notCoption resolved hmem)) body body' hlevels h
  | generic => exact hty.plain.elim

theorem toldApart (hkeys : KeysDistinct env) (levels : Nat) : ToldApart env registry levels := by
  induction levels with
  | zero =>
      intro g ty x y _ _ _ hlevels
      exact absurd hlevels (Nat.not_lt_zero _)
  | succ levels ih => exact toldApart_succ hkeys ih

end Lossless

/-- Two inputs that decode to the same JSON are encodings of the same value, up to the
bytes that the mask hides. -/
theorem decode_rendering_injective (env : Externs) (hkeys : KeysDistinct env)
    (registry : TypeRegistry) (g : Generics) (ty : IdlType) (depth : Nat)
    (hty : Lossless registry ty) (data data' : DataSlice) (v : Json) (n n' : Nat)
    (h : decodeType env registry data g ty depth 0 = .ok (v, n))
    (h' : decodeType env registry data' g ty depth 0 = .ok (v, n')) :
    n = n' ∧ ∃ x x',
      (HasType registry g ty x ∧ x.encode = data.bytes.take n ∧ x.render env = v) ∧
      (HasType registry g ty x' ∧ x'.encode = data'.bytes.take n' ∧ x'.render env = v) ∧
      x.blank = x'.blank ∧
      ∀ i < n, x.masked[i]? ≠ some none → data.bytes[i]? = data'.bytes[i]? := by
  obtain ⟨x, hx, hv, rfl, hat⟩ := decodeTypeAt_sound _ g ty 0 v n (Nat.zero_le _) h
  obtain ⟨x', hx', hv', rfl, hat'⟩ := decodeTypeAt_sound _ g ty 0 v n' (Nat.zero_le _) h'
  have hblank := toldApart hkeys _ g ty x x' hty hx.typed hx'.typed hx.nested (hv.symm.trans hv')
  obtain ⟨hlength, hbytes⟩ := BorshValue.bytes_of_blank_eq hblank
  have htake : data.bytes.take x.encode.length = x.encode := by simpa using hat.take_drop
  have htake' : data'.bytes.take x'.encode.length = x'.encode := by simpa using hat'.take_drop
  refine ⟨hlength, x, x', ⟨hx.typed, htake.symm, hv.symm⟩, ⟨hx'.typed, htake'.symm, hv'.symm⟩,
    hblank, ?_⟩
  intro i hi hshown
  have heq := hbytes i hshown
  rw [← htake, ← htake', List.getElem?_take_of_lt hi,
    List.getElem?_take_of_lt (hlength ▸ hi)] at heq
  exact heq

/-- For inputs without keys: the text of a key is its bytes in hexadecimal. -/
def hexKeys : Externs := { Externs.minimal with bs58Encode := hexEncode }

theorem keysDistinct_hexKeys : KeysDistinct hexKeys :=
  fun _ _ _ _ h => hexEncode_inj h

theorem lossless_coption_u8 :
    Lossless ⟨fun _ => none⟩ (.defined "COption" [.type (.int .u8)]) := by
  intro part hpart
  rcases hpart.cases_head with rfl | ⟨inner, hinner, hrest⟩
  · simp only [Plain, if_true, List.head?_cons, Option.some.injEq]
    rintro _ ⟨⟩ hoption
    cases hoption
  · cases hinner with
    | coption =>
        rcases hrest.cases_head with rfl | ⟨_, hnone, _⟩
        · trivial
        · cases hnone
    | body notCoption => exact absurd rfl notCoption

/-- Two `None`s whose unused bodies differ. -/
theorem decode_rendering_injective_coption :
    let ty : IdlType := .defined "COption" [.type (.int .u8)]
    let data : DataSlice := ⟨[0, 0, 0, 0, 7], by simp [isizeMax]⟩
    let data' : DataSlice := ⟨[0, 0, 0, 0, 9, 1], by simp [isizeMax]⟩
    5 = 5 ∧ ∃ x x',
      (HasType ⟨fun _ => none⟩ Generics.empty ty x ∧ x.encode = data.bytes.take 5 ∧
        x.render hexKeys = .null) ∧
      (HasType ⟨fun _ => none⟩ Generics.empty ty x' ∧ x'.encode = data'.bytes.take 5 ∧
        x'.render hexKeys = .null) ∧
      x.blank = x'.blank ∧
      ∀ i < 5, x.masked[i]? ≠ some none → data.bytes[i]? = data'.bytes[i]? := by
  intro ty data data'
  exact decode_rendering_injective hexKeys keysDistinct_hexKeys ⟨fun _ => none⟩ Generics.empty ty 0
    lossless_coption_u8 data data' .null 5 5 rfl rfl

end Solarix.Decoder
