import Solarix.Decoder.Accepted

/-!
# Decoding undoes encoding

The round trip through `decode_instruction` and `decode_account`.  A value whose
arrays have room decodes to its rendering; any other value leads the decoder to an
oversized array, where it panics.
-/

namespace Solarix.Decoder

open Solarix.Core
open BorshValue (encode encodeAll encodeAll_eq_flatMap render renderAll renderStruct
  nestingAll_le fitsAll_iff)

section Oversized

variable {registry : TypeRegistry}

theorem encodeAll_append (xs ys : List BorshValue) :
    encodeAll (xs ++ ys) = encodeAll xs ++ encodeAll ys := by
  simp only [encodeAll_eq_flatMap, List.flatMap_append]

theorem exists_first_oversized {xs : List BorshValue} (h : ¬ BorshValue.FitsAll xs) :
    ∃ pre y post, xs = pre ++ y :: post ∧ (∀ x ∈ pre, x.Fits) ∧ ¬ y.Fits := by
  induction xs with
  | nil => exact absurd trivial h
  | cons x xs ih =>
      by_cases hx : x.Fits
      · obtain ⟨pre, y, post, rfl, hpre, hy⟩ := ih fun hxs => h ⟨hx, hxs⟩
        exact ⟨x :: pre, y, post, rfl, List.forall_mem_cons.mpr ⟨hx, hpre⟩, hy⟩
      · exact ⟨[], x, xs, rfl, by simp, hx⟩

theorem hasTypes_split {g : Generics} {levels : Nat} {tys : List IdlType}
    {pre post : List BorshValue} {y : BorshValue}
    (h : HasTypes registry g tys (pre ++ y :: post))
    (hnest : ∀ x ∈ pre, x.nesting < levels) (hfits : ∀ x ∈ pre, x.Fits) :
    ∃ done ty rest, tys = done ++ ty :: rest ∧
      List.Forall₂ (Within registry g levels) done pre ∧ HasType registry g ty y := by
  have hpre := List.forall₂_take_append tys pre (y :: post) h
  have hpost := List.forall₂_drop_append tys pre (y :: post) h
  obtain ⟨ty, rest, hy, _, hdrop⟩ := List.forall₂_cons_right_iff.mp hpost
  refine ⟨tys.take pre.length, ty, rest, ?_, ?_, hy⟩
  · rw [← hdrop, List.take_append_drop]
  · rw [List.forall₂_iff_zip] at hpre ⊢
    refine ⟨hpre.1, fun {ty x} hp => ?_⟩
    have hx := (List.of_mem_zip hp).2
    exact ⟨hpre.2 hp, hnest x hx, hfits x hx⟩

variable {g : Generics} {levels : Nat}

theorem fieldsHit_of_not_fits (rest : List UInt8) {tys : List IdlType}
    {xs : List BorshValue}
    (hhit : ∀ ty y rest, HasType registry g ty y → y.nesting < levels → ¬ y.Fits →
      Hits registry ⟨g, levels, ty, y.encode ++ rest⟩)
    (hxs : HasTypes registry g tys xs) (hnest : ∀ x ∈ xs, x.nesting < levels)
    (hfits : ¬ BorshValue.FitsAll xs) :
    FieldsHit registry g levels tys (encodeAll xs ++ rest) := by
  obtain ⟨pre, y, post, rfl, hpre, hy⟩ := exists_first_oversized hfits
  obtain ⟨done, ty, rest', rfl, hdone, hty⟩ :=
    hasTypes_split hxs (fun x hx => hnest x (by simp [hx])) hpre
  refine ⟨done, ty, rest', pre, y.encode ++ (encodeAll post ++ rest), rfl, hdone, ?_, ?_⟩
  · simp only [encodeAll_append, encodeAll, List.append_assoc]
  · exact hhit ty y _ hty (hnest y (by simp)) hy

theorem bodyHits_of_not_fits (rest : List UInt8) {body : IdlTypeDefTy} {x : BorshValue}
    (hhit : ∀ ty y rest, HasType registry g ty y → y.nesting < levels → ¬ y.Fits →
      Hits registry ⟨g, levels, ty, y.encode ++ rest⟩)
    (hx : HasBody registry g body x) (hnest : x.nesting < levels + 2) (hfits : ¬ x.Fits) :
    BodyHits registry g levels body (x.encode ++ rest) := by
  have hitems {xs : List BorshValue} (h : BorshValue.nestingAll 2 xs < levels + 2) :
      ∀ x ∈ xs, x.nesting < levels := by
    intro x hx
    have := nestingAll_le.mp (Nat.le_of_lt_succ h) x hx
    omega
  cases hx with
  | @struct _ fields xs length items =>
      obtain ⟨done, ty, rest', pre, bs, hsplit, hpre, hbytes, hhits⟩ :=
        fieldsHit_of_not_fits rest hhit (hasTypes_iff_zip.mpr ⟨length, items⟩)
          (hitems hnest) hfits
      exact ⟨_, by rw [encode, hbytes]; exact .struct hsplit hpre, hhits⟩
  | @enum _ variants tag variant xs small found length items =>
      obtain ⟨done, ty, rest', pre, bs, hsplit, hpre, hbytes, hhits⟩ :=
        fieldsHit_of_not_fits rest hhit (hasTypes_iff_zip.mpr ⟨length, items⟩)
          (hitems hnest) hfits
      have htag : (UInt8.ofNat tag).toNat = tag := by
        rw [UInt8.toNat_ofNat']
        omega
      refine ⟨_, ?_, hhits⟩
      rw [encode, List.cons_append, hbytes]
      exact .enum (by rw [htag]; exact found) hsplit hpre
  | @type _ aliased y value =>
      simp only [BorshValue.nesting] at hnest
      exact ⟨_, .type aliased _, hhit aliased y rest value (by omega) hfits⟩

theorem hits_of_not_fits {ty : IdlType} {x : BorshValue} {rest : List UInt8}
    (hx : HasType registry g ty x) (hnest : x.nesting < levels) (hfits : ¬ x.Fits) :
    Hits registry ⟨g, levels, ty, x.encode ++ rest⟩ := by
  induction levels using Nat.strong_induction_on generalizing g ty x rest with
  | _ levels ih =>
      obtain ⟨levels, rfl⟩ : ∃ k, levels = k + 1 := ⟨levels - 1, by omega⟩
      cases hx with
      | @some _ inner y value =>
          simp only [BorshValue.nesting] at hnest
          exact Hits.of_child (.option ..) (ih levels (by omega) value (by omega) hfits)
      | @vec _ inner xs length items =>
          obtain ⟨pre, y, post, rfl, hpre, hy⟩ := exists_first_oversized hfits
          have hn := nesting_lt_of_nestingAll hnest
          have hbytes : (BorshValue.vec (pre ++ y :: post)).encode ++ rest =
              leBytes 4 (pre ++ y :: post).length ++
                (encodeAll pre ++ (y.encode ++ (encodeAll post ++ rest))) := by
            simp only [encode, encodeAll_append, encodeAll, List.append_assoc]
          rw [hbytes]
          apply Hits.of_child (.vec length (by simp) fun x hx =>
            ⟨items x (by simp [hx]), hn x (by simp [hx]), hpre x hx⟩)
          exact ih levels (by omega) (items y (by simp)) (hn y (by simp)) hy
      | @array _ inner xs items =>
          by_cases hlarge : xs.length * valueSize ≤ isizeMax
          · obtain ⟨pre, y, post, rfl, hpre, hy⟩ :=
              exists_first_oversized fun h => hfits ⟨hlarge, h⟩
            have hn := nesting_lt_of_nestingAll hnest
            have hbytes : (BorshValue.array (pre ++ y :: post)).encode ++ rest =
                encodeAll pre ++ (y.encode ++ (encodeAll post ++ rest)) := by
              simp only [encode, encodeAll_append, encodeAll, List.append_assoc]
            rw [hbytes]
            apply Hits.of_child (.array hlarge (by simp) fun x hx =>
              ⟨items x (by simp [hx]), hn x (by simp [hx]), hpre x hx⟩)
            exact ih levels (by omega) (items y (by simp)) (hn y (by simp)) hy
          · exact ⟨_, .refl, .array (Nat.lt_of_not_le hlarge)⟩
      | @coptionSome _ inner args y size sized value =>
          simp only [BorshValue.nesting] at hnest
          by_cases hlarge : 4 + size ≤ usizeMax
          · rw [encode, List.append_assoc]
            exact Hits.of_child (.coption sized hlarge)
              (ih levels (by omega) value (by omega) hfits)
          · refine ⟨_, .refl, .coption sized (Nat.lt_of_not_le hlarge) ?_⟩
            simp [encode, List.length_append, length_leBytes]
      | @defined _ name args typedef _ notCoption resolved borsh body =>
          have hnest' : x.nesting < levels - 1 + 2 := by omega
          obtain ⟨site, hchild, hsite⟩ := bodyHits_of_not_fits rest
            (fun ty y rest hy hn hf => ih (levels - 1) (by omega) hy hn hf) body hnest' hfits
          exact Hits.of_child (.defined notCoption resolved borsh hchild) hsite
      | @generic _ name ty y bound value =>
          simp only [BorshValue.nesting] at hnest
          rw [encode]
          exact Hits.of_child (.generic bound) (ih levels (by omega) value (by omega) hfits)
      | bool | int | f32 | f64 | u256 | i256 | string | bytes | pubkey | none | coptionNone =>
          exact absurd trivial hfits

end Oversized

/-! ## The round trip -/

section RoundTrip

variable {env : Externs} {data : DataSlice}

theorem decodeArgs_encode {registry : TypeRegistry} {programId : String}
    {ix : IdlInstruction} {xs : List BorshValue} {rest : List UInt8}
    (hdata : data.bytes = instructionDisc env ix ++ encodeAll xs ++ rest)
    (hxs : HasTypes registry Generics.empty (ix.args.map IdlField.ty) xs)
    (hnest : ∀ x ∈ xs, x.nesting ≤ maxDecodeDepth) :
    ChainparserDecoder.decodeArgs env registry programId data ix =
        .ok (.fromDecoded programId ix.name
          (renderStruct (.named (ix.args.map IdlField.name)) (renderAll env xs))) ↔
      BorshValue.FitsAll xs := by
  have hat := DataSlice.at_of_eq_append hdata
  rw [length_instructionDisc] at hat
  constructor
  · intro h
    by_contra hfits
    have hp : ¬ (ChainparserDecoder.decodeArgs env registry programId data ix).Panics := by
      rw [h]
      exact Outcome.not_panics_ok _
    apply hp
    apply (decodeArgs_panics_iff hat.1).mpr
    rw [hat.drop_eq]
    exact fieldsHit_of_not_fits _ (fun ty y rest hy hn hf => hits_of_not_fits hy hn hf) hxs
      (fun x hx => Nat.lt_succ_of_le (hnest x hx)) hfits
  · intro hfits
    refine (decodeArgs_eq_ok hat.1).mpr ⟨xs, ⟨?_, hat⟩, rfl⟩
    rw [List.forall₂_iff_zip]
    refine ⟨hxs.length_eq, fun {ty x} hp => ?_⟩
    have hx := (List.of_mem_zip hp).2
    exact ⟨(hasTypes_iff_zip.mp hxs).2 _ hp, Nat.lt_succ_of_le (hnest x hx),
      fitsAll_iff.mp hfits x hx⟩

theorem decodeAccountData_encode {registry : TypeRegistry} {programId pubkey : String}
    {account : IdlAccount} {typedef : IdlTypeDef} {x : BorshValue} {rest : List UInt8}
    (hdata : data.bytes = accountDisc env account ++ encode x ++ rest)
    (hresolved : registry.types account.name = some typedef)
    (hborsh : typedef.serialization = .borsh)
    (hx : HasBody registry Generics.empty typedef.ty x)
    (hnest : x.nesting ≤ maxDecodeDepth + 1) :
    ChainparserDecoder.decodeAccountData env registry programId pubkey data account =
        .ok (.fromDecoded programId account.name pubkey (render env x)) ↔
      x.Fits := by
  have hat := DataSlice.at_of_eq_append hdata
  rw [length_accountDisc] at hat
  constructor
  · intro h
    by_contra hfits
    have hp : ¬ (ChainparserDecoder.decodeAccountData env registry programId pubkey data
        account).Panics := by
      rw [h]
      exact Outcome.not_panics_ok _
    apply hp
    apply (decodeAccountData_panics_iff hat.1).mpr
    refine ⟨typedef, hresolved, hborsh, ?_⟩
    rw [hat.drop_eq]
    exact bodyHits_of_not_fits _ (fun ty y rest hy hn hf => hits_of_not_fits hy hn hf) hx
      (by omega) hfits
  · intro hfits
    have haccount : AccountAt registry data account typedef x :=
      ⟨hresolved, hborsh, hx, Nat.lt_succ_of_le hnest, hfits, hat⟩
    exact decodeAccountData_eq_ok.mpr ⟨typedef, x, haccount, rfl⟩

/-- A fresh decoder reads back the arguments of an instruction, and the fields of an
account, exactly when every fixed array among them has room for its items. -/
theorem decode_encode_iff_fits (env : Externs) (idl : Idl) (programId pubkey : String)
    (data : DataSlice) (rest : List UInt8) :
    (∀ (ix : IdlInstruction) (xs : List BorshValue),
      PrefixFree IdlInstruction.discriminator
        (fun ix => computeInstructionDiscriminator env ix.name) idl.instructions →
      ix ∈ idl.instructions →
      HasTypes (.fromIdl idl) Generics.empty (ix.args.map IdlField.ty) xs →
      (∀ x ∈ xs, x.nesting ≤ maxDecodeDepth) →
      data.bytes = instructionDisc env ix ++ encodeAll xs ++ rest →
      ((ChainparserDecoder.new.decodeInstruction env programId data idl).1 =
          .ok (.fromDecoded programId ix.name
            (renderStruct (.named (ix.args.map IdlField.name)) (renderAll env xs))) ↔
        BorshValue.FitsAll xs)) ∧
    (∀ (account : IdlAccount) (typedef : IdlTypeDef) (x : BorshValue),
      PrefixFree IdlAccount.discriminator
        (fun acct => computeAccountDiscriminator env acct.name) idl.accounts →
      account ∈ idl.accounts →
      (TypeRegistry.fromIdl idl).types account.name = some typedef →
      typedef.serialization = .borsh →
      HasBody (.fromIdl idl) Generics.empty typedef.ty x →
      x.nesting ≤ maxDecodeDepth + 1 →
      data.bytes = accountDisc env account ++ encode x ++ rest →
      ((ChainparserDecoder.new.decodeAccount env programId pubkey data idl).1 =
          .ok (.fromDecoded programId account.name pubkey (render env x)) ↔
        x.Fits)) := by
  refine ⟨?_, ?_⟩
  · intro ix xs hfree hmem hxs hnest hdata
    have hfind : findInstructionWithFallback env data.bytes idl = .ok ix := by
      apply findWithFallback_of_prefix hfree hmem
      rw [hdata, List.append_assoc]
      exact List.prefix_append ..
    rw [ChainparserDecoder.decodeInstruction_fst, hfind, Outcome.ok_bind, registryFor_new]
    exact decodeArgs_encode hdata hxs hnest
  · intro account typedef x hfree hmem hresolved hborsh hx hnest hdata
    have hfind : findAccountWithFallback env data.bytes idl = .ok account := by
      apply findWithFallback_of_prefix hfree hmem
      rw [hdata, List.append_assoc]
      exact List.prefix_append ..
    rw [ChainparserDecoder.decodeAccount_fst, hfind, Outcome.ok_bind, registryFor_new]
    exact decodeAccountData_encode hdata hresolved hborsh hx hnest

end RoundTrip

def kindType : IdlTypeDefTy := .enum [⟨"Up", none⟩, ⟨"Down", some (.tuple [.int .u8])⟩]

def pointFields : IdlDefinedFields :=
  .named [⟨"kind", .defined "Kind" []⟩, ⟨"note", .defined "COption" [.type .bool]⟩,
    ⟨"history", .vec (.int .u8)⟩]

/-- The argument is a list of `COption`s; the account has an enum, a `COption` and a list. -/
def pointIdl : Idl where
  address := "prog"
  instructions := [⟨"set", [1], [⟨"flags", .vec (.defined "COption" [.type .bool])⟩]⟩]
  accounts := [⟨"Point", [2]⟩]
  types := [⟨"Kind", .borsh, [], kindType⟩, ⟨"Point", .borsh, [], .struct (some pointFields)⟩]

def flagsValue : BorshValue := .vec [.coptionNone [7], .coptionSome (.bool true)]

def pointValue : BorshValue :=
  .struct (.named ["kind", "note", "history"])
    [.enum 1 "Down" .tuple [.int .u8 5], .coptionNone [9], .vec [.int .u8 3, .int .u8 4]]

theorem hasType_flagsValue :
    HasType (.fromIdl pointIdl) Generics.empty (.vec (.defined "COption" [.type .bool]))
      flagsValue := by
  refine .vec (by decide) ?_
  simp only [List.forall_mem_cons, List.not_mem_nil, false_implies, implies_true, and_true]
  exact ⟨.coptionNone _ _ rfl, .coptionSome _ (n := 1) rfl (.bool _ true)⟩

theorem hasBody_pointValue :
    HasBody (.fromIdl pointIdl) Generics.empty (.struct (some pointFields)) pointValue := by
  have hkind : HasBody (.fromIdl pointIdl) (bindGenerics Generics.empty [] []) kindType
      (.enum 1 "Down" .tuple [.int .u8 5]) := by
    refine @HasBody.enum _ _ _ 1 ⟨"Down", some (.tuple [.int .u8])⟩ [.int .u8 5] (by decide) rfl
      rfl ?_
    intro p hp
    cases List.mem_singleton.mp hp
    exact .int _ (by decide)
  refine @HasBody.struct _ _ (some pointFields) _ rfl ?_
  simp only [pointFields, fieldTypes, List.map_cons, List.map_nil, List.zip_cons_cons,
    List.zip_nil_left, List.forall_mem_cons, List.not_mem_nil, false_implies, implies_true,
    and_true]
  refine ⟨@HasType.defined _ _ _ _ ⟨"Kind", .borsh, [], kindType⟩ _ (by decide) rfl rfl hkind,
    .coptionNone _ _ rfl, .vec (by decide) ?_⟩
  simp only [List.forall_mem_cons, List.not_mem_nil, false_implies, implies_true, and_true]
  exact ⟨.int _ (by decide), .int _ (by decide)⟩

/-- The bytes 7 and 9 are padding. -/
theorem decode_encode_iff_fits_point :
    ((ChainparserDecoder.new.decodeInstruction Externs.minimal "prog"
        ⟨[1, 2, 0, 0, 0, 0, 0, 0, 0, 7, 1, 0, 0, 0, 1, 9], by decide⟩ pointIdl).1 =
      .ok (.fromDecoded "prog" "set"
        (renderStruct (.named ["flags"]) (renderAll Externs.minimal [flagsValue])))) ∧
    (ChainparserDecoder.new.decodeAccount Externs.minimal "prog" "key"
        ⟨[2, 1, 5, 0, 0, 0, 0, 9, 2, 0, 0, 0, 3, 4, 9], by decide⟩ pointIdl).1 =
      .ok (.fromDecoded "prog" "Point" "key" (render Externs.minimal pointValue)) := by
  constructor
  · refine ((decode_encode_iff_fits Externs.minimal pointIdl "prog" "key" _ [9]).1
      ⟨"set", [1], [⟨"flags", .vec (.defined "COption" [.type .bool])⟩]⟩ [flagsValue]
      (List.pairwise_singleton ..) (List.mem_singleton_self _) (.cons hasType_flagsValue .nil)
      ?_ rfl).mpr ?_
    · rw [List.forall_mem_singleton]
      decide
    · simp [BorshValue.FitsAll, BorshValue.Fits, flagsValue]
  · refine ((decode_encode_iff_fits Externs.minimal pointIdl "prog" "key" _ [9]).2
      ⟨"Point", [2]⟩ ⟨"Point", .borsh, [], .struct (some pointFields)⟩ pointValue
      (List.pairwise_singleton ..) (List.mem_singleton_self _) rfl rfl hasBody_pointValue
      (by decide) rfl).mpr ?_
    simp [BorshValue.FitsAll, BorshValue.Fits, pointValue]

def oversizedValue : BorshValue := .array (List.replicate (2 ^ 58) (.struct .unit []))

theorem encodeAll_oversizedValue : encodeAll [oversizedValue] = [] := by
  simp only [oversizedValue, encodeAll, encode, List.append_nil, encodeAll_eq_flatMap]
  rw [List.flatMap_eq_nil_iff]
  intro x hx
  rw [List.eq_of_mem_replicate hx]
  rfl

theorem hasType_oversizedValue :
    HasType (.fromIdl oversizedIdl) Generics.empty
      (.array (.defined "Unit" []) (.value (2 ^ 58))) oversizedValue := by
  have hbody : HasBody (.fromIdl oversizedIdl) Generics.empty (.struct none)
      (.struct .unit []) := @HasBody.struct _ _ none [] rfl (by simp [fieldTypes])
  have hunit : HasType (.fromIdl oversizedIdl) Generics.empty (.defined "Unit" [])
      (.struct .unit []) :=
    @HasType.defined _ _ _ _ ⟨"Unit", .borsh, [], .struct none⟩ _ (by decide) rfl rfl hbody
  have hitems : ∀ x ∈ List.replicate (2 ^ 58) (BorshValue.struct .unit []),
      HasType (.fromIdl oversizedIdl) Generics.empty (.defined "Unit" []) x := by
    intro x hx
    rw [List.eq_of_mem_replicate hx]
    exact hunit
  have harray := HasType.array hitems
  rw [List.length_replicate] at harray
  exact harray

theorem nesting_oversizedValue : oversizedValue.nesting ≤ maxDecodeDepth := by
  unfold oversizedValue
  rw [BorshValue.nesting, nestingAll_le]
  intro x hx
  rw [List.eq_of_mem_replicate hx]
  decide

theorem decode_encode_oversized_array :
    PrefixFree IdlInstruction.discriminator
      (fun ix => computeInstructionDiscriminator Externs.minimal ix.name)
      oversizedIdl.instructions ∧
    (∀ ix ∈ oversizedIdl.instructions,
      HasTypes (.fromIdl oversizedIdl) Generics.empty (ix.args.map IdlField.ty)
        [oversizedValue] ∧
      (∀ x ∈ [oversizedValue], x.nesting ≤ maxDecodeDepth) ∧
      oversizedData.bytes =
        instructionDisc Externs.minimal ix ++ encodeAll [oversizedValue] ++ [] ∧
      (ChainparserDecoder.new.decodeInstruction Externs.minimal "prog" oversizedData
          oversizedIdl).1 ≠
        .ok (.fromDecoded "prog" ix.name
          (renderStruct (.named ["items"]) (renderAll Externs.minimal [oversizedValue])))) := by
  refine ⟨List.pairwise_singleton .., ?_⟩
  intro ix hix
  cases List.mem_singleton.mp hix
  refine ⟨.cons hasType_oversizedValue .nil, ?_, ?_, ?_⟩
  · intro x hx
    rw [List.mem_singleton.mp hx]
    exact nesting_oversizedValue
  · rw [encodeAll_oversizedValue]
    rfl
  · have hpanic : (ChainparserDecoder.new.decodeInstruction Externs.minimal "prog"
        oversizedData oversizedIdl).1 = Outcome.panic .capacityOverflow := rfl
    rw [hpanic]
    exact Outcome.panic_ne_ok _ _

end Solarix.Decoder
