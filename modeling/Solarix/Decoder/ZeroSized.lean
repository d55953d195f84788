import Solarix.Decoder.Sound

/-!
# Zero-sized types and the length of vectors

The number of items of a decoded vector is bounded by the bytes behind its length
prefix as long as every item takes at least one byte.  The types whose items may
take none are those that `zeroSized` finds.
-/

namespace Solarix.Decoder

open Solarix.Core
open BorshValue (encode encodeAll encodeAll_eq_flatMap nestingAll_le fitsAll_iff)

/-- One level of `zeroSizedAt`; `below` and `belowDefined` are one and two levels deeper. -/
def zeroSizedStep (registry : TypeRegistry) (below belowDefined : Generics → IdlType → Bool)
    (g : Generics) : IdlType → Bool
  | .array inner (.value n) =>
      n == 0 || (decide (n * valueSize ≤ isizeMax) && below g inner)
  | .defined name args =>
      name != "COption" &&
        match registry.types name with
        | some typedef =>
            typedef.serialization == .borsh &&
              match typedef.ty with
              | .struct fields =>
                  (fieldTypes fields).all (belowDefined (bindGenerics g typedef.generics args))
              | .enum _ => false
              | .type aliased => belowDefined (bindGenerics g typedef.generics args) aliased
        | none => false
  | .generic name =>
      match g name with
      | some ty => below g ty
      | none => false
  | _ => false

/-- The type has a value without any bytes: an empty struct or array, or a struct, array
or alias of such types, within `levels` calls of nesting. -/
def zeroSizedAt (registry : TypeRegistry) : Nat → Generics → IdlType → Bool
  | 0 => fun _ _ => false
  | levels + 1 =>
      zeroSizedStep registry (zeroSizedAt registry levels)
        (match levels with
          | 0 => fun _ _ => false
          | levels + 1 => zeroSizedAt registry levels)

section ZeroSized

variable {registry : TypeRegistry}

theorem zeroSizedAt_succ (levels : Nat) :
    zeroSizedAt registry (levels + 1) =
      zeroSizedStep registry (zeroSizedAt registry levels)
        (zeroSizedAt registry (levels - 1)) := by
  cases levels <;> rfl

def HasEmpty (registry : TypeRegistry) (g : Generics) (levels : Nat) (ty : IdlType) : Prop :=
  ∃ x, Within registry g levels ty x ∧ x.encode = []

theorem exists_forall₂ {α β : Type} {P : α → β → Prop} {as : List α}
    (h : ∀ a ∈ as, ∃ b, P a b) : ∃ bs, List.Forall₂ P as bs := by
  induction as with
  | nil => exact ⟨[], .nil⟩
  | cons a as ih =>
      obtain ⟨b, hb⟩ := h a (by simp)
      obtain ⟨bs, hbs⟩ := ih fun a ha => h a (by simp [ha])
      exact ⟨b :: bs, .cons hb hbs⟩

theorem encodeAll_eq_nil {xs : List BorshValue} :
    encodeAll xs = [] ↔ ∀ x ∈ xs, x.encode = [] := by
  rw [encodeAll_eq_flatMap, List.flatMap_eq_nil_iff]

/-! ### Arrays -/

theorem HasEmpty.array_zero {levels : Nat} {g : Generics} {inner : IdlType} :
    HasEmpty registry g (levels + 1) (.array inner (.value 0)) := by
  refine ⟨.array [], ⟨@HasType.array _ g inner [] (by simp), ?_, ?_⟩, rfl⟩
  · simp [BorshValue.nesting, BorshValue.nestingAll]
  · simp [BorshValue.Fits, BorshValue.FitsAll]

theorem HasEmpty.array {levels n : Nat} {g : Generics} {inner : IdlType}
    (hcapacity : n * valueSize ≤ isizeMax) (h : HasEmpty registry g levels inner) :
    HasEmpty registry g (levels + 1) (.array inner (.value n)) := by
  obtain ⟨x, hx, hempty⟩ := h
  have hmem : ∀ y ∈ List.replicate n x, y = x := fun y hy => List.eq_of_mem_replicate hy
  have htyped := @HasType.array registry g inner (List.replicate n x) fun y hy => by
    rw [hmem y hy]
    exact hx.typed
  rw [List.length_replicate] at htyped
  refine ⟨.array (List.replicate n x), ⟨htyped, ?_, ?_, ?_⟩, ?_⟩
  · apply Nat.lt_succ_of_le
    apply nestingAll_le.mpr
    intro y hy
    have hnested := hx.nested
    rw [hmem y hy]
    omega
  · rw [List.length_replicate]
    exact hcapacity
  · refine fitsAll_iff.mpr fun y hy => ?_
    rw [hmem y hy]
    exact hx.fits
  · refine encodeAll_eq_nil.mpr fun y hy => ?_
    rw [hmem y hy]
    exact hempty

/-! ### Definitions -/

theorem HasEmpty.struct {levels : Nat} {g : Generics} {name : String}
    {args : List IdlGenericArg} {typedef : IdlTypeDef} {fields : Option IdlDefinedFields}
    (hname : name ≠ "COption") (hresolved : registry.types name = some typedef)
    (hborsh : typedef.serialization = .borsh) (hty : typedef.ty = .struct fields)
    (h : ∀ ty ∈ fieldTypes fields,
      HasEmpty registry (bindGenerics g typedef.generics args) (levels - 1) ty) :
    HasEmpty registry g (levels + 1) (.defined name args) := by
  obtain ⟨xs, hxs⟩ := exists_forall₂ h
  obtain ⟨hlength, hzip⟩ := List.forall₂_iff_zip.mp hxs
  have hitems : ∀ x ∈ xs, ∃ ty, Within registry (bindGenerics g typedef.generics args)
      (levels - 1) ty x ∧ x.encode = [] := by
    intro x hx
    obtain ⟨ty, hp⟩ : ∃ ty, (ty, x) ∈ (fieldTypes fields).zip xs := by
      rw [← List.map_snd_zip (hlength.ge : xs.length ≤ (fieldTypes fields).length)] at hx
      obtain ⟨⟨ty, y⟩, hp, rfl⟩ := List.mem_map.mp hx
      exact ⟨ty, hp⟩
    exact ⟨ty, hzip hp⟩
  refine ⟨.struct (fieldShape fields) xs, ⟨.defined hname hresolved hborsh ?_, ?_, ?_⟩, ?_⟩
  · rw [hty]
    exact .struct hlength fun p hp => (hzip hp).1.typed
  · apply Nat.lt_succ_of_le
    apply nestingAll_le.mpr
    intro x hx
    obtain ⟨ty, hwithin, _⟩ := hitems x hx
    have hnested := hwithin.nested
    omega
  · refine fitsAll_iff.mpr fun x hx => ?_
    obtain ⟨ty, hwithin, _⟩ := hitems x hx
    exact hwithin.fits
  · refine encodeAll_eq_nil.mpr fun x hx => ?_
    obtain ⟨ty, _, hempty⟩ := hitems x hx
    exact hempty

theorem HasEmpty.alias {levels : Nat} {g : Generics} {name : String}
    {args : List IdlGenericArg} {typedef : IdlTypeDef} {aliased : IdlType}
    (hname : name ≠ "COption") (hresolved : registry.types name = some typedef)
    (hborsh : typedef.serialization = .borsh) (hty : typedef.ty = .type aliased)
    (h : HasEmpty registry (bindGenerics g typedef.generics args) (levels - 1) aliased) :
    HasEmpty registry g (levels + 1) (.defined name args) := by
  obtain ⟨x, hx, hempty⟩ := h
  have hnested := hx.nested
  refine ⟨.alias x, ⟨.defined hname hresolved hborsh ?_, ?_, hx.fits⟩, hempty⟩
  · rw [hty]
    exact .type hx.typed
  · simp only [BorshValue.nesting]
    omega

/-! ### The test finds exactly these types -/

theorem HasEmpty.of_zeroSizedStep {levels : Nat} {below belowDefined : Generics → IdlType → Bool}
    (hbelow : ∀ g ty, below g ty = true → HasEmpty registry g levels ty)
    (hdefined : ∀ g ty, belowDefined g ty = true → HasEmpty registry g (levels - 1) ty)
    {g : Generics} {ty : IdlType}
    (h : zeroSizedStep registry below belowDefined g ty = true) :
    HasEmpty registry g (levels + 1) ty := by
  cases ty with
  | array inner len =>
      cases len with
      | generic name => cases h
      | value n =>
          simp only [zeroSizedStep, Bool.or_eq_true, beq_iff_eq, Bool.and_eq_true,
            decide_eq_true_eq] at h
          rcases h with rfl | ⟨hcapacity, hinner⟩
          · exact .array_zero
          · exact .array hcapacity (hbelow g inner hinner)
  | defined name args =>
      simp only [zeroSizedStep, Bool.and_eq_true, bne_iff_ne, ne_eq] at h
      obtain ⟨hname, h⟩ := h
      cases hresolved : registry.types name with
      | none => simp [hresolved] at h
      | some typedef =>
          simp only [hresolved, Bool.and_eq_true, beq_iff_eq] at h
          obtain ⟨hborsh, h⟩ := h
          cases hty : typedef.ty with
          | struct fields =>
              simp only [hty, List.all_eq_true] at h
              exact .struct hname hresolved hborsh hty fun ty hmem => hdefined _ ty (h ty hmem)
          | enum variants => simp [hty] at h
          | type aliased =>
              simp only [hty] at h
              exact .alias hname hresolved hborsh hty (hdefined _ aliased h)
  | generic name =>
      simp only [zeroSizedStep] at h
      cases hbound : g name with
      | none => simp [hbound] at h
      | some ty =>
          simp only [hbound] at h
          obtain ⟨x, hx, hempty⟩ := hbelow g ty h
          have hnested := hx.nested
          refine ⟨.generic x, ⟨.generic hbound hx.typed, ?_, hx.fits⟩, hempty⟩
          simp only [BorshValue.nesting]
          omega
  | _ => cases h

theorem zeroSizedStep_of_hasEmpty {levels : Nat} {below belowDefined : Generics → IdlType → Bool}
    (hbelow : ∀ g ty, HasEmpty registry g levels ty → below g ty = true)
    (hdefined : ∀ g ty, HasEmpty registry g (levels - 1) ty → belowDefined g ty = true)
    {g : Generics} {ty : IdlType} (h : HasEmpty registry g (levels + 1) ty) :
    zeroSizedStep registry below belowDefined g ty = true := by
  obtain ⟨x, ⟨typed, nested, fits⟩, hempty⟩ := h
  have hlength := congrArg List.length hempty
  cases typed with
  | @array _ inner xs items =>
      simp only [zeroSizedStep, Bool.or_eq_true, beq_iff_eq, Bool.and_eq_true, decide_eq_true_eq]
      cases xs with
      | nil => exact .inl rfl
      | cons x xs =>
          refine .inr ⟨fits.1, hbelow g inner ⟨x, ⟨items x (by simp), ?_, fits.2.1⟩, ?_⟩⟩
          · have hle := nestingAll_le.mp (Nat.le_of_lt_succ nested) x (by simp)
            omega
          · exact encodeAll_eq_nil.mp hempty x (by simp)
  | @defined _ name args typedef x notCoption resolved borsh body =>
      simp only [zeroSizedStep, Bool.and_eq_true, bne_iff_ne, ne_eq, notCoption,
        not_false_eq_true, resolved, borsh, beq_self_eq_true, true_and]
      generalize typedef.ty = ty at body
      cases body with
      | @struct _ fields xs length items =>
          simp only [List.all_eq_true]
          intro ty hty
          obtain ⟨x, hp⟩ : ∃ x, (ty, x) ∈ (fieldTypes fields).zip xs := by
            rw [← List.map_fst_zip (length.le : (fieldTypes fields).length ≤ xs.length)] at hty
            obtain ⟨⟨ty', x⟩, hp, rfl⟩ := List.mem_map.mp hty
            exact ⟨x, hp⟩
          have hx : x ∈ xs := (List.of_mem_zip hp).2
          have hle := nestingAll_le.mp (Nat.le_of_lt_succ nested) x hx
          exact hdefined _ ty ⟨x, ⟨items _ hp, by omega, fitsAll_iff.mp fits x hx⟩,
            encodeAll_eq_nil.mp hempty x hx⟩
      | enum => simp [encode] at hempty
      | @type _ aliased x value =>
          simp only [BorshValue.nesting] at nested
          exact hdefined _ aliased ⟨x, ⟨value, by omega, fits⟩, hempty⟩
  | @generic _ name ty x bound value =>
      simp only [BorshValue.nesting] at nested
      simp only [zeroSizedStep, bound]
      exact hbelow g ty ⟨x, ⟨value, by omega, fits⟩, hempty⟩
  | @int _ t z range => cases t <;> simp [encode, IntType.width] at hlength
  | u256 _ length => simp [encode, length] at hlength
  | i256 _ length => simp [encode, length] at hlength
  | pubkey _ length => simp [encode, length] at hlength
  | f32 => simp [encode, FloatFormat.width, FloatFormat.single] at hlength
  | f64 => simp [encode, FloatFormat.width, FloatFormat.double] at hlength
  | _ => simp [encode] at hlength

theorem zeroSizedAt_iff (levels : Nat) (g : Generics) (ty : IdlType) :
    zeroSizedAt registry levels g ty = true ↔ HasEmpty registry g levels ty := by
  induction levels using Nat.strong_induction_on generalizing g ty with
  | _ levels ih =>
      match levels with
      | 0 =>
          constructor
          · intro h
            cases h
          · rintro ⟨x, hx, _⟩
            exact absurd hx.nested (Nat.not_lt_zero _)
      | levels + 1 =>
          rw [zeroSizedAt_succ]
          constructor
          · exact .of_zeroSizedStep (fun g ty => (ih levels (by omega) g ty).mp)
              (fun g ty => (ih (levels - 1) (by omega) g ty).mp)
          · exact zeroSizedStep_of_hasEmpty (fun g ty => (ih levels (by omega) g ty).mpr)
              (fun g ty => (ih (levels - 1) (by omega) g ty).mpr)

/-! ## Vectors -/

theorem length_le_length_encodeAll {xs : List BorshValue} (h : ∀ x ∈ xs, x.encode ≠ []) :
    xs.length ≤ (encodeAll xs).length := by
  induction xs with
  | nil => simp
  | cons x xs ih =>
      have hx := List.length_pos_of_ne_nil (h x (by simp))
      have hxs := ih fun y hy => h y (by simp [hy])
      rw [encodeAll, List.length_append, List.length_cons]
      omega

/-- The items of a decoded vector whose type is not zero-sized lie in the bytes behind its
length. -/
theorem length_items_le {env : Externs} {data : DataSlice} {g : Generics} {inner : IdlType}
    {levels offset consumed : Nat} {items : List Json}
    (hsized : zeroSizedAt registry levels g inner = false)
    (h : decodeTypeAt env registry data (levels + 1) g (.vec inner) offset =
      .ok (.arr items, consumed)) :
    items.length ≤ data.len - (offset + 4) := by
  rw [decodeTypeAt_succ] at h
  simp only [decodeStep] at h
  obtain ⟨⟨count, _⟩, hcount, h⟩ := Outcome.bind_eq_ok.mp h
  obtain ⟨_, _, hat⟩ := readLe_eq_ok hcount
  have hprefix := hat.add_length_le
  rw [length_leBytes] at hprefix
  obtain ⟨_, _, h⟩ := Outcome.bind_eq_ok.mp h
  obtain ⟨⟨vals, total⟩, hvals, h⟩ := Outcome.bind_eq_ok.mp h
  cases h
  obtain ⟨xs, hlength, htyped, hnested, hfits, rfl, _, hitems⟩ :=
    readEach_items (decodeTypeAt_sound levels g inner) hprefix hvals
  have hne : ∀ x ∈ xs, x.encode ≠ [] := by
    intro x hx hempty
    have hwithin : Within registry g levels inner x :=
      ⟨htyped x hx, nesting_lt_of_nestingAll hnested x hx, fitsAll_iff.mp hfits x hx⟩
    rw [(zeroSizedAt_iff levels g inner).mpr ⟨x, hwithin, hempty⟩] at hsized
    cases hsized
  have hle := length_le_length_encodeAll hne
  have hinside := hitems.add_length_le
  rw [BorshValue.renderAll_eq_map, List.length_map]
  omega

def singleton : DataSlice := ⟨leBytes 4 1, by simp [isizeMax]⟩

theorem decode_singleton {env : Externs} {g : Generics} {inner : IdlType} {levels : Nat}
    (h : zeroSizedAt registry levels g inner = true) :
    ∃ item, decodeTypeAt env registry singleton (levels + 1) g (.vec inner) 0 =
      .ok (.arr [item], 4) := by
  obtain ⟨x, ⟨typed, nested, fits⟩, hempty⟩ := (zeroSizedAt_iff levels g inner).mp h
  have hvec : Within registry g (levels + 1) (.vec inner) (.vec [x]) := by
    refine ⟨.vec (by simp) (by simpa using typed), ?_, ?_⟩
    · simp only [BorshValue.nesting, BorshValue.nestingAll]
      omega
    · exact ⟨fits, trivial⟩
  have hencode : (BorshValue.vec [x]).encode = leBytes 4 1 := by
    simp [encode, encodeAll, hempty]
  have hat : singleton.At 0 (BorshValue.vec [x]).encode := by
    rw [hencode]
    exact ⟨by simp [singleton], by simp [singleton]⟩
  refine ⟨x.render env, ?_⟩
  rw [decodeTypeAt_complete hvec 0 hat, hencode, length_leBytes]
  rfl

end ZeroSized

/-- A decoded vector never has more items than there are bytes behind its length, for
exactly the item types that are not zero-sized. -/
theorem decode_vec_length_le_iff (env : Externs) (registry : TypeRegistry) (g : Generics)
    (inner : IdlType) (depth : Nat) :
    (∀ (data : DataSlice) (offset : Nat) (items : List Json) (consumed : Nat),
      decodeType env registry data g (.vec inner) depth offset = .ok (.arr items, consumed) →
        items.length ≤ data.len - (offset + 4)) ↔
      zeroSizedAt registry (maxDecodeDepth - depth) g inner = false := by
  by_cases hdepth : depth ≤ maxDecodeDepth
  · have hlevels : maxDecodeDepth + 1 - depth = maxDecodeDepth - depth + 1 := by omega
    unfold decodeType
    rw [hlevels]
    constructor
    · intro h
      rw [Bool.eq_false_iff]
      intro hzero
      obtain ⟨item, hitem⟩ := decode_singleton hzero
      have hle := h singleton 0 [item] 4 hitem
      simp [singleton, DataSlice.len] at hle
    · intro hsized data offset items consumed h
      exact length_items_le hsized h
  · -- Beyond the depth limit nothing is decoded at all.
    have hlevels : maxDecodeDepth + 1 - depth = 0 := by omega
    have hbelow : maxDecodeDepth - depth = 0 := by omega
    unfold decodeType
    rw [hlevels, hbelow]
    simp [decodeTypeAt, zeroSizedAt, malformed]

def unitRegistry : TypeRegistry where
  types name := if name = "Unit" then some ⟨"Unit", .borsh, [], .struct none⟩ else none

/-- A vector of two units takes four bytes. -/
theorem decode_vec_of_units :
    ¬ ∀ (registry : TypeRegistry) (inner : IdlType) (data : DataSlice) (items : List Json)
      (consumed : Nat),
      decodeType Externs.minimal registry data Generics.empty (.vec inner) 0 0 =
        .ok (.arr items, consumed) → items.length ≤ data.len - 4 := by
  intro h
  have hle := h unitRegistry (.defined "Unit" []) ⟨[2, 0, 0, 0], by simp [isizeMax]⟩
    [Json.ofEntries [], Json.ofEntries []] 4 (by rfl)
  simp [DataSlice.len] at hle

end Solarix.Decoder
