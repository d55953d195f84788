import Solarix.Decoder.Complete

/-!
# What the decoder accepts

Whatever bytes `decode_type` accepts are the encoding of a value of the type, and
the JSON it returns is that value's rendering.  Together with the converse in
`Decoder.Complete` this makes the result a function of the consumed bytes alone.
-/

namespace Solarix.Decoder

open Solarix.Core
open BorshValue (encode encodeAll encodeAll_eq_flatMap render renderAll renderAll_eq_map
  renderStruct renderVariant nestingAll_le fitsAll_iff)

section Sound

variable {env : Externs} {registry : TypeRegistry} {data : DataSlice}

abbrev SoundValue (env : Externs) (data : DataSlice) (r : Reader DecodeError Json)
    (Spec : BorshValue → Prop) : Prop :=
  Sound data encode (render env) r Spec

theorem readBlob_eq_ok {start size : Nat} {bs : List UInt8}
    (h : readBlob data start = .ok (bs, size)) :
    bs.length < 256 ^ 4 ∧ size = 4 + bs.length ∧
      data.At start (leBytes 4 bs.length ++ bs) := by
  unfold readBlob at h
  obtain ⟨⟨len, m⟩, hlen, h⟩ := Outcome.bind_eq_ok.mp h
  obtain ⟨_, hlt, hhead⟩ := readLe_eq_ok hlen
  obtain ⟨start', hstart, h⟩ := Outcome.bind_eq_ok.mp h
  obtain ⟨_, rfl⟩ := addUsize_eq_ok.mp hstart
  obtain ⟨bs', hbs, h⟩ := Outcome.bind_eq_ok.mp h
  obtain ⟨htail, rfl⟩ := takeBytes_eq_ok hbs
  obtain ⟨size', hsize, h⟩ := Outcome.bind_eq_ok.mp h
  obtain ⟨_, rfl⟩ := addUsize_eq_ok.mp hsize
  cases h
  exact ⟨hlt, rfl, DataSlice.at_append.mpr ⟨hhead, by rw [length_leBytes]; exact htail⟩⟩

/-! ## Fields -/

theorem readEach_values {decode : IdlType → Reader DecodeError Json}
    {Spec : IdlType → BorshValue → Prop}
    (hdecode : ∀ ty, SoundValue env data (decode ty) (Spec ty)) {tys : List IdlType}
    {offset consumed total : Nat} {vals : List Json}
    (hoff : offset + consumed ≤ data.len)
    (h : readEach decode tys offset consumed = .ok (vals, total)) :
    ∃ xs, List.Forall₂ Spec tys xs ∧ vals = renderAll env xs ∧
      total = consumed + (encodeAll xs).length ∧
      data.At (offset + consumed) (encodeAll xs) := by
  obtain ⟨xs, hxs, rfl, htotal, hat⟩ := readEach_sound (fun ty _ => hdecode ty) hoff h
  rw [← encodeAll_eq_flatMap] at htotal hat
  exact ⟨xs, hxs, (renderAll_eq_map env xs).symm, htotal, hat⟩

theorem decodeNamed_sound {decode : IdlType → Reader DecodeError Json}
    {Spec : IdlType → BorshValue → Prop}
    (hdecode : ∀ ty, SoundValue env data (decode ty) (Spec ty)) {fields : List IdlField}
    {offset consumed total : Nat} {v : Json} (hoff : offset + consumed ≤ data.len)
    (h : decodeNamed decode fields offset consumed = .ok (v, total)) :
    ∃ xs, List.Forall₂ Spec (fields.map IdlField.ty) xs ∧
      v = renderStruct (.named (fields.map IdlField.name)) (renderAll env xs) ∧
      total = consumed + (encodeAll xs).length ∧
      data.At (offset + consumed) (encodeAll xs) := by
  unfold decodeNamed at h
  obtain ⟨⟨vals, n⟩, hvals, h⟩ := Outcome.bind_eq_ok.mp h
  rw [readEach_map] at hvals
  obtain ⟨xs, hxs, rfl, rfl, hat⟩ := readEach_values hdecode hoff hvals
  cases h
  exact ⟨xs, hxs, rfl, rfl, hat⟩

theorem decodeTuple_sound {decode : IdlType → Reader DecodeError Json}
    {Spec : IdlType → BorshValue → Prop}
    (hdecode : ∀ ty, SoundValue env data (decode ty) (Spec ty)) {types : List IdlType}
    {offset consumed total : Nat} {v : Json} (hoff : offset + consumed ≤ data.len)
    (h : decodeTuple decode types offset consumed = .ok (v, total)) :
    ∃ xs, List.Forall₂ Spec types xs ∧ v = .arr (renderAll env xs) ∧
      total = consumed + (encodeAll xs).length ∧
      data.At (offset + consumed) (encodeAll xs) := by
  unfold decodeTuple at h
  obtain ⟨⟨vals, n⟩, hvals, h⟩ := Outcome.bind_eq_ok.mp h
  obtain ⟨xs, hxs, rfl, rfl, hat⟩ := readEach_values hdecode hoff hvals
  cases h
  exact ⟨xs, hxs, rfl, rfl, hat⟩

theorem decodeStructFields_sound {decode : IdlType → Reader DecodeError Json}
    {Spec : IdlType → BorshValue → Prop}
    (hdecode : ∀ ty, SoundValue env data (decode ty) (Spec ty))
    {fields : Option IdlDefinedFields} {offset total : Nat} {v : Json}
    (hoff : offset ≤ data.len)
    (h : decodeStructFields decode fields offset = .ok (v, total)) :
    ∃ xs, List.Forall₂ Spec (fieldTypes fields) xs ∧
      v = renderStruct (fieldShape fields) (renderAll env xs) ∧
      total = (encodeAll xs).length ∧ data.At offset (encodeAll xs) := by
  match fields with
  | none =>
      cases h
      exact ⟨[], .nil, rfl, rfl, DataSlice.at_nil hoff⟩
  | some (.named fields) =>
      obtain ⟨xs, hxs, hv, htotal, hat⟩ :=
        decodeNamed_sound hdecode (show offset + 0 ≤ data.len from hoff) h
      exact ⟨xs, hxs, hv, by omega, hat⟩
  | some (.tuple types) =>
      obtain ⟨xs, hxs, hv, htotal, hat⟩ :=
        decodeTuple_sound hdecode (show offset + 0 ≤ data.len from hoff) h
      exact ⟨xs, hxs, hv, by omega, hat⟩

theorem decodePayload_sound {decode : IdlType → Reader DecodeError Json}
    {Spec : IdlType → BorshValue → Prop}
    (hdecode : ∀ ty, SoundValue env data (decode ty) (Spec ty))
    {fields : Option IdlDefinedFields} {offset consumed total : Nat} {v : Json}
    (hoff : offset + consumed ≤ data.len)
    (h : decodePayload decode fields offset consumed = .ok (v, total)) :
    ∃ xs, List.Forall₂ Spec (fieldTypes fields) xs ∧
      v = renderVariant (fieldShape fields) (renderAll env xs) ∧
      total = consumed + (encodeAll xs).length ∧
      data.At (offset + consumed) (encodeAll xs) := by
  match fields with
  | none =>
      cases h
      exact ⟨[], .nil, rfl, rfl, DataSlice.at_nil hoff⟩
  | some (.named fields) => exact decodeNamed_sound hdecode hoff h
  | some (.tuple []) =>
      cases h
      exact ⟨[], .nil, rfl, rfl, DataSlice.at_nil hoff⟩
  | some (.tuple [ty]) =>
      simp only [decodePayload] at h
      obtain ⟨start, hstart, h⟩ := Outcome.bind_eq_ok.mp h
      obtain ⟨_, rfl⟩ := addUsize_eq_ok.mp hstart
      obtain ⟨⟨val, n⟩, hval, h⟩ := Outcome.bind_eq_ok.mp h
      obtain ⟨x, hx, rfl, rfl, hat⟩ := hdecode ty _ _ _ hoff hval
      obtain ⟨total', htotal, h⟩ := Outcome.bind_eq_ok.mp h
      obtain ⟨_, rfl⟩ := addUsize_eq_ok.mp htotal
      cases h
      have henc : encodeAll [x] = x.encode := List.append_nil _
      exact ⟨[x], .cons hx .nil, rfl, by rw [henc], by rw [henc]; exact hat⟩
  | some (.tuple (ty₁ :: ty₂ :: types)) =>
      obtain ⟨xs, hxs, rfl, htotal, hat⟩ := decodeTuple_sound hdecode hoff h
      refine ⟨xs, hxs, ?_, htotal, hat⟩
      obtain ⟨x₁, x₂, xs', rfl⟩ : ∃ x₁ x₂ xs', xs = x₁ :: x₂ :: xs' := by
        cases hxs with
        | cons _ hrest =>
            cases hrest
            exact ⟨_, _, _, rfl⟩
      rfl

theorem within_items {g : Generics} {levels step bound : Nat} {tys : List IdlType}
    {xs : List BorshValue} (hbound : ∀ n < levels, step + n ≤ bound)
    (h : List.Forall₂ (Within registry g levels) tys xs) :
    HasTypes registry g tys xs ∧ BorshValue.nestingAll step xs ≤ bound ∧
      BorshValue.FitsAll xs := by
  induction h with
  | nil => exact ⟨.nil, Nat.zero_le _, trivial⟩
  | cons hx _ ih =>
      obtain ⟨htypes, hnest, hfits⟩ := ih
      exact ⟨.cons hx.typed htypes, Nat.max_le.mpr ⟨hbound _ hx.nested, hnest⟩,
        hx.fits, hfits⟩

theorem decodeTypedef_sound {decode : IdlType → Reader DecodeError Json} {g : Generics}
    {levels : Nat}
    (hdecode : ∀ ty, SoundValue env data (decode ty) (Within registry g (levels - 1) ty))
    (typedef : IdlTypeDef) :
    SoundValue env data (decodeTypedef data decode typedef) fun x =>
      HasBody registry g typedef.ty x ∧ x.nesting < levels + 1 ∧ x.Fits := by
  intro start v n hstart h
  have hbound : ∀ n < levels - 1, 2 + n ≤ levels := by omega
  unfold decodeTypedef at h
  generalize typedef.ty = body at h ⊢
  cases body with
  | struct fields =>
      obtain ⟨xs, hxs, rfl, rfl, hat⟩ := decodeStructFields_sound hdecode hstart h
      obtain ⟨htypes, hnest, hfits⟩ := within_items hbound hxs
      obtain ⟨hlen, hitems⟩ := hasTypes_iff_zip.mp htypes
      exact ⟨.struct (fieldShape fields) xs,
        ⟨.struct hlen hitems, Nat.lt_succ_of_le hnest, hfits⟩, rfl, rfl, hat⟩
  | enum variants =>
      simp only at h
      obtain ⟨_, _, h⟩ := Outcome.bind_eq_ok.mp h
      obtain ⟨tag, htag, h⟩ := Outcome.bind_eq_ok.mp h
      have hhead := DataSlice.index_eq_ok htag
      split at h
      · simp [malformed] at h
      · rename_i variant hvariant
        obtain ⟨⟨payload, consumed⟩, hpayload, h⟩ := Outcome.bind_eq_ok.mp h
        obtain ⟨xs, hxs, rfl, rfl, hat⟩ :=
          decodePayload_sound hdecode hhead.add_length_le hpayload
        obtain ⟨htypes, hnest, hfits⟩ := within_items hbound hxs
        obtain ⟨hlen, hitems⟩ := hasTypes_iff_zip.mp htypes
        cases h
        refine ⟨.enum tag.toNat variant.name (fieldShape variant.fields) xs,
          ⟨.enum tag.toNat_lt hvariant hlen hitems, Nat.lt_succ_of_le hnest, hfits⟩,
          rfl, ?_, ?_⟩
        · simp [encode, Nat.add_comm]
        · simp only [encode, UInt8.ofNat_toNat]
          exact DataSlice.at_cons.mpr ⟨hhead, hat⟩
  | type aliased =>
      obtain ⟨x, hx, rfl, rfl, hat⟩ := hdecode aliased start v n hstart h
      have hnest := hx.nested
      exact ⟨.alias x, ⟨.type hx.typed, by simp only [BorshValue.nesting]; omega, hx.fits⟩,
        rfl, rfl, hat⟩

/-! ## Types -/

theorem TypeRegistry.resolve_eq_ok {name : String} {typedef : IdlTypeDef} :
    registry.resolve name = .ok typedef ↔ registry.types name = some typedef := by
  unfold TypeRegistry.resolve
  split
  · rename_i td htd
    simp [htd]
  · rename_i hnone
    simp [hnone, malformed]

theorem TypeRegistry.resolve_not_panics (name : String) :
    ¬ (registry.resolve name).Panics := by
  unfold TypeRegistry.resolve
  split <;> simp [malformed]

theorem resolveArrayLen_eq_ok {len : IdlArrayLen} {n : Nat} :
    resolveArrayLen len = .ok n ↔ len = .value n := by
  cases len <;> simp [resolveArrayLen, malformed]

theorem withCapacity_eq_ok {count : Nat} {u : Unit} :
    (withCapacity valueSize count : Result Unit) = .ok u ↔
      count * valueSize ≤ isizeMax := by
  unfold withCapacity
  split
  · rename_i h
    simp [h]
  · rename_i h
    simp [h]

theorem decodeCoption_sound {decode : IdlType → Reader DecodeError Json} {g : Generics}
    {levels : Nat}
    (hdecode : ∀ ty, SoundValue env data (decode ty) (Within registry g levels ty))
    (args : List IdlGenericArg) :
    SoundValue env data (decodeCoption registry data decode args)
      (Within registry g (levels + 1) (.defined "COption" args)) := by
  intro start v n hstart h
  unfold decodeCoption at h
  split at h
  · rename_i inner hargs
    obtain ⟨rest, rfl⟩ := List.head?_eq_some_iff.mp hargs
    split at h
    · simp [unsupported] at h
    · rename_i size hsize
      obtain ⟨⟨tag, m⟩, htag, h⟩ := Outcome.bind_eq_ok.mp h
      obtain ⟨rfl, _, hhead⟩ := readLe_eq_ok htag
      obtain ⟨total, htotal, h⟩ := Outcome.bind_eq_ok.mp h
      obtain ⟨_, rfl⟩ := addUsize_eq_ok.mp htotal
      simp only at h
      split at h
      · rename_i h0
        rw [h0] at hhead
        obtain ⟨_, hle, h⟩ := Outcome.bind_eq_ok.mp h
        rw [ensureBytes_eq_ok] at hle
        cases h
        have hbody : ((data.bytes.drop (start + 4)).take size).length = size :=
          DataSlice.length_take_drop (by omega)
        refine ⟨.coptionNone ((data.bytes.drop (start + 4)).take size),
          ⟨.coptionNone g rest (by rw [hbody]; exact hsize), by simp [BorshValue.nesting],
            trivial⟩, rfl, ?_, ?_⟩
        · simp only [encode, List.length_append, length_leBytes, hbody]
        · exact DataSlice.at_append.mpr
            ⟨hhead, by rw [length_leBytes]; exact DataSlice.at_take_drop (by omega)⟩
      · split at h
        · rename_i h1
          rw [h1] at hhead
          obtain ⟨start', hstart', h⟩ := Outcome.bind_eq_ok.mp h
          obtain ⟨_, rfl⟩ := addUsize_eq_ok.mp hstart'
          obtain ⟨⟨val, k⟩, hval, h⟩ := Outcome.bind_eq_ok.mp h
          have hle := hhead.add_length_le
          rw [length_leBytes] at hle
          obtain ⟨x, hx, rfl, rfl, hat⟩ := hdecode inner _ _ _ hle hval
          have hlen : x.encode.length = size := length_encode_of_fixedSizeAt hx.typed hsize
          have hnest := hx.nested
          cases h
          refine ⟨.coptionSome x, ⟨.coptionSome rest hsize hx.typed,
            by simp only [BorshValue.nesting]; omega, hx.fits⟩, rfl, ?_, ?_⟩
          · simp only [encode, List.length_append, length_leBytes, hlen]
          · exact DataSlice.at_append.mpr ⟨hhead, by rw [length_leBytes]; exact hat⟩
        · simp [malformed] at h
  · simp [unsupported] at h

theorem readEach_items {read : Reader DecodeError Json} {g : Generics} {levels : Nat}
    {inner : IdlType} (hread : SoundValue env data read (Within registry g levels inner))
    {count offset consumed total : Nat} {vals : List Json}
    (hoff : offset + consumed ≤ data.len)
    (h : readEach (fun _ : Unit => read) (List.replicate count ()) offset consumed =
      .ok (vals, total)) :
    ∃ xs, xs.length = count ∧ (∀ x ∈ xs, HasType registry g inner x) ∧
      BorshValue.nestingAll 1 xs < levels + 1 ∧ BorshValue.FitsAll xs ∧
      vals = renderAll env xs ∧ total = consumed + (encodeAll xs).length ∧
      data.At (offset + consumed) (encodeAll xs) := by
  obtain ⟨xs, hxs, rfl, htotal, hat⟩ := readEach_sound (fun _ _ => hread) hoff h
  have hlen : xs.length = count := by
    rw [← hxs.length_eq, List.length_replicate]
  have hwithin : ∀ x ∈ xs, Within registry g levels inner x := forall_of_forall₂ hxs
  rw [← encodeAll_eq_flatMap] at htotal hat
  refine ⟨xs, hlen, fun x hx => (hwithin x hx).typed, ?_,
    fitsAll_iff.mpr fun x hx => (hwithin x hx).fits, (renderAll_eq_map env xs).symm,
    htotal, hat⟩
  apply Nat.lt_succ_of_le
  apply nestingAll_le.mpr
  intro x hx
  have := (hwithin x hx).nested
  omega

section Arms

variable {below belowDefined : Generics → IdlType → Reader DecodeError Json} {levels : Nat}

theorem bool_sound (g : Generics) :
    SoundValue env data (decodeStep env registry data below belowDefined g .bool)
      (Within registry g (levels + 1) .bool) := by
  intro start v n hstart h
  simp only [decodeStep] at h
  obtain ⟨_, _, h⟩ := Outcome.bind_eq_ok.mp h
  obtain ⟨b, hb, h⟩ := Outcome.bind_eq_ok.mp h
  have hat := DataSlice.index_eq_ok hb
  split at h
  · rename_i h0
    cases h
    rw [h0] at hat
    exact ⟨.bool false, ⟨.bool g false, Nat.succ_pos _, trivial⟩, rfl, rfl, hat⟩
  · split at h
    · rename_i h1
      cases h
      rw [h1] at hat
      exact ⟨.bool true, ⟨.bool g true, Nat.succ_pos _, trivial⟩, rfl, rfl, hat⟩
    · simp [malformed] at h

theorem int_sound (g : Generics) (t : IntType) :
    SoundValue env data (decodeStep env registry data below belowDefined g (.int t))
      (Within registry g (levels + 1) (.int t)) := by
  intro start v n hstart h
  simp only [decodeStep] at h
  obtain ⟨⟨k, m⟩, hk, h⟩ := Outcome.bind_eq_ok.mp h
  obtain ⟨rfl, hlt, hat⟩ := readLe_eq_ok hk
  cases h
  refine ⟨.int t (intOfPattern t k),
    ⟨.int g (inRange_intOfPattern hlt), Nat.succ_pos _, trivial⟩, rfl,
    (length_leBytes ..).symm, ?_⟩
  rw [encode, intToPattern_intOfPattern hlt]
  exact hat

theorem string_sound (g : Generics) :
    SoundValue env data (decodeStep env registry data below belowDefined g .string)
      (Within registry g (levels + 1) .string) := by
  intro start v n hstart h
  simp only [decodeStep] at h
  obtain ⟨⟨bs, size⟩, hbs, h⟩ := Outcome.bind_eq_ok.mp h
  obtain ⟨hlen, rfl, hat⟩ := readBlob_eq_ok hbs
  simp only at h
  split at h
  · rename_i s hs
    rw [decodeUtf8_eq_some] at hs
    subst hs
    cases h
    exact ⟨.string s, ⟨.string g hlen, Nat.succ_pos _, trivial⟩, rfl, by simp [encode], hat⟩
  · simp [malformed] at h

theorem option_sound {g : Generics} {inner : IdlType}
    (hbelow : SoundValue env data (below g inner) (Within registry g levels inner)) :
    SoundValue env data (decodeStep env registry data below belowDefined g (.option inner))
      (Within registry g (levels + 1) (.option inner)) := by
  intro start v n hstart h
  simp only [decodeStep] at h
  obtain ⟨_, _, h⟩ := Outcome.bind_eq_ok.mp h
  obtain ⟨b, hb, h⟩ := Outcome.bind_eq_ok.mp h
  have hhead := DataSlice.index_eq_ok hb
  split at h
  · rename_i h0
    cases h
    rw [h0] at hhead
    exact ⟨.none, ⟨.none g inner, Nat.succ_pos _, trivial⟩, rfl, rfl, hhead⟩
  · split at h
    · rename_i h1
      rw [h1] at hhead
      obtain ⟨start', hstart', h⟩ := Outcome.bind_eq_ok.mp h
      obtain ⟨_, rfl⟩ := addUsize_eq_ok.mp hstart'
      obtain ⟨⟨val, k⟩, hval, h⟩ := Outcome.bind_eq_ok.mp h
      obtain ⟨x, hx, rfl, rfl, hat⟩ := hbelow _ _ _ hhead.add_length_le hval
      obtain ⟨total, htotal, h⟩ := Outcome.bind_eq_ok.mp h
      obtain ⟨_, rfl⟩ := addUsize_eq_ok.mp htotal
      cases h
      have hnest := hx.nested
      exact ⟨.some x, ⟨.some hx.typed, by simp only [BorshValue.nesting]; omega, hx.fits⟩,
        rfl, by simp [encode, Nat.add_comm], DataSlice.at_cons.mpr ⟨hhead, hat⟩⟩
    · simp [malformed] at h

theorem vec_sound {g : Generics} {inner : IdlType}
    (hbelow : SoundValue env data (below g inner) (Within registry g levels inner)) :
    SoundValue env data (decodeStep env registry data below belowDefined g (.vec inner))
      (Within registry g (levels + 1) (.vec inner)) := by
  intro start v n hstart h
  simp only [decodeStep] at h
  obtain ⟨⟨count, m⟩, hcount, h⟩ := Outcome.bind_eq_ok.mp h
  obtain ⟨_, hlt, hhead⟩ := readLe_eq_ok hcount
  obtain ⟨_, _, h⟩ := Outcome.bind_eq_ok.mp h
  obtain ⟨⟨items, consumed⟩, hitems, h⟩ := Outcome.bind_eq_ok.mp h
  have hle := hhead.add_length_le
  rw [length_leBytes] at hle
  obtain ⟨xs, rfl, htyped, hnest, hfits, rfl, rfl, hat⟩ := readEach_items hbelow hle hitems
  cases h
  exact ⟨.vec xs, ⟨.vec hlt htyped, hnest, hfits⟩, rfl, by simp [encode],
    DataSlice.at_append.mpr ⟨hhead, by rw [length_leBytes]; exact hat⟩⟩

theorem array_sound {g : Generics} {inner : IdlType}
    (hbelow : SoundValue env data (below g inner) (Within registry g levels inner))
    (len : IdlArrayLen) :
    SoundValue env data (decodeStep env registry data below belowDefined g (.array inner len))
      (Within registry g (levels + 1) (.array inner len)) := by
  intro start v n hstart h
  simp only [decodeStep] at h
  obtain ⟨count, hcount, h⟩ := Outcome.bind_eq_ok.mp h
  obtain ⟨_, hcapacity, h⟩ := Outcome.bind_eq_ok.mp h
  obtain ⟨⟨items, consumed⟩, hitems, h⟩ := Outcome.bind_eq_ok.mp h
  obtain ⟨xs, rfl, htyped, hnest, hfits, rfl, rfl, hat⟩ :=
    readEach_items hbelow (show start + 0 ≤ data.len from hstart) hitems
  cases h
  rw [resolveArrayLen_eq_ok.mp hcount]
  exact ⟨.array xs, ⟨.array htyped, hnest, withCapacity_eq_ok.mp hcapacity, hfits⟩,
    rfl, by simp [encode], hat⟩

theorem defined_sound {g : Generics}
    (hbelow : ∀ ty, SoundValue env data (below g ty) (Within registry g levels ty))
    (hbelowDefined : ∀ g ty,
      SoundValue env data (belowDefined g ty) (Within registry g (levels - 1) ty))
    (name : String) (args : List IdlGenericArg) :
    SoundValue env data (decodeStep env registry data below belowDefined g (.defined name args))
      (Within registry g (levels + 1) (.defined name args)) := by
  intro start v n hstart h
  simp only [decodeStep] at h
  split at h
  · rename_i hname
    subst hname
    exact decodeCoption_sound hbelow args start v n hstart h
  · rename_i hname
    obtain ⟨typedef, htypedef, h⟩ := Outcome.bind_eq_ok.mp h
    obtain ⟨_, hborsh, h⟩ := Outcome.bind_eq_ok.mp h
    obtain ⟨x, ⟨hbody, hnest, hfits⟩, hv, hn, hat⟩ :=
      decodeTypedef_sound (hbelowDefined _) typedef start v n hstart h
    exact ⟨x, ⟨.defined hname (TypeRegistry.resolve_eq_ok.mp htypedef)
      (checkSerialization_eq_ok.mp hborsh) hbody, hnest, hfits⟩, hv, hn, hat⟩

theorem decodeStep_sound
    (hbelow : ∀ g ty, SoundValue env data (below g ty) (Within registry g levels ty))
    (hbelowDefined : ∀ g ty,
      SoundValue env data (belowDefined g ty) (Within registry g (levels - 1) ty))
    (g : Generics) (ty : IdlType) :
    SoundValue env data (decodeStep env registry data below belowDefined g ty)
      (Within registry g (levels + 1) ty) := by
  cases ty with
  | bool => exact bool_sound g
  | int t => exact int_sound g t
  | f32 =>
      intro start v n hstart h
      simp only [decodeStep] at h
      obtain ⟨⟨k, m⟩, hk, h⟩ := Outcome.bind_eq_ok.mp h
      obtain ⟨rfl, hlt, hat⟩ := readLe_eq_ok hk
      cases h
      exact ⟨.float .single k, ⟨.f32 g hlt, Nat.succ_pos _, trivial⟩, rfl,
        (length_leBytes ..).symm, hat⟩
  | f64 =>
      intro start v n hstart h
      simp only [decodeStep] at h
      obtain ⟨⟨k, m⟩, hk, h⟩ := Outcome.bind_eq_ok.mp h
      obtain ⟨rfl, hlt, hat⟩ := readLe_eq_ok hk
      cases h
      exact ⟨.float .double k, ⟨.f64 g hlt, Nat.succ_pos _, trivial⟩, rfl,
        (length_leBytes ..).symm, hat⟩
  | u256 =>
      intro start v n hstart h
      simp only [decodeStep] at h
      obtain ⟨bs, hbs, h⟩ := Outcome.bind_eq_ok.mp h
      obtain ⟨hat, hlen⟩ := takeBytes_eq_ok hbs
      cases h
      exact ⟨.word256 bs, ⟨.u256 g hlen, Nat.succ_pos _, trivial⟩, rfl, hlen.symm, hat⟩
  | i256 =>
      intro start v n hstart h
      simp only [decodeStep] at h
      obtain ⟨bs, hbs, h⟩ := Outcome.bind_eq_ok.mp h
      obtain ⟨hat, hlen⟩ := takeBytes_eq_ok hbs
      cases h
      exact ⟨.word256 bs, ⟨.i256 g hlen, Nat.succ_pos _, trivial⟩, rfl, hlen.symm, hat⟩
  | string => exact string_sound g
  | bytes =>
      intro start v n hstart h
      simp only [decodeStep] at h
      obtain ⟨⟨bs, size⟩, hbs, h⟩ := Outcome.bind_eq_ok.mp h
      obtain ⟨hlen, rfl, hat⟩ := readBlob_eq_ok hbs
      cases h
      exact ⟨.bytes bs, ⟨.bytes g hlen, Nat.succ_pos _, trivial⟩, rfl, by simp [encode], hat⟩
  | pubkey =>
      intro start v n hstart h
      simp only [decodeStep] at h
      obtain ⟨bs, hbs, h⟩ := Outcome.bind_eq_ok.mp h
      obtain ⟨hat, hlen⟩ := takeBytes_eq_ok hbs
      cases h
      exact ⟨.pubkey bs, ⟨.pubkey g hlen, Nat.succ_pos _, trivial⟩, rfl, hlen.symm, hat⟩
  | option inner => exact option_sound (hbelow g inner)
  | vec inner => exact vec_sound (hbelow g inner)
  | array inner len => exact array_sound (hbelow g inner) len
  | defined name args => exact defined_sound (hbelow g) hbelowDefined name args
  | generic name =>
      intro start v n hstart h
      simp only [decodeStep] at h
      split at h
      · rename_i ty hty
        obtain ⟨x, hx, hv, hn, hat⟩ := hbelow g ty start v n hstart h
        have hnest := hx.nested
        exact ⟨.generic x, ⟨.generic hty hx.typed, by simp only [BorshValue.nesting]; omega,
          hx.fits⟩, hv, hn, hat⟩
      · simp [malformed] at h

end Arms

-- The fields of a definition are decoded two levels down, so the induction is strong.
theorem decodeTypeAt_sound (levels : Nat) (g : Generics) (ty : IdlType) :
    SoundValue env data (decodeTypeAt env registry data levels g ty)
      (Within registry g levels ty) := by
  induction levels using Nat.strong_induction_on generalizing g ty with
  | _ levels ih =>
      match levels with
      | 0 =>
          intro start v n hstart h
          simp [decodeTypeAt, malformed] at h
      | levels + 1 =>
          rw [decodeTypeAt_succ]
          apply decodeStep_sound
          · exact ih levels (by omega)
          · exact ih (levels - 1) (by omega)

/-! ## Locality -/

/-- An accepted input lies inside the data, is the encoding of a value whose rendering
is returned, and the same bytes give the same result wherever they stand. -/
theorem decodeType_sound_local (env : Externs) (registry : TypeRegistry) (data : DataSlice)
    (g : Generics) (ty : IdlType) (depth offset : Nat) (v : Json) (n : Nat)
    (hoff : offset ≤ data.len)
    (h : decodeType env registry data g ty depth offset = .ok (v, n)) :
    offset + n ≤ data.len ∧
      (∃ x, HasType registry g ty x ∧ x.encode = (data.bytes.drop offset).take n ∧
        x.render env = v) ∧
      ∀ (data' : DataSlice) (offset' : Nat),
        data'.At offset' ((data.bytes.drop offset).take n) →
        decodeType env registry data' g ty depth offset' = .ok (v, n) := by
  obtain ⟨x, hx, rfl, rfl, hat⟩ := decodeTypeAt_sound _ g ty offset v n hoff h
  rw [hat.take_drop]
  refine ⟨hat.add_length_le, ⟨x, hx.typed, rfl, rfl⟩, ?_⟩
  intro data' offset' hat'
  exact decodeTypeAt_complete hx offset' hat'

theorem decodeType_sound_local_vec :
    let data : DataSlice := ⟨[9, 2, 0, 0, 0, 1, 0, 7], by decide⟩
    1 + 6 ≤ data.len ∧
      (∃ x, HasType ⟨fun _ => none⟩ Generics.empty (.vec .bool) x ∧
        x.encode = (data.bytes.drop 1).take 6 ∧
        x.render Externs.minimal = .arr [.bool true, .bool false]) ∧
      ∀ (data' : DataSlice) (offset' : Nat),
        data'.At offset' ((data.bytes.drop 1).take 6) →
        decodeType Externs.minimal ⟨fun _ => none⟩ data' Generics.empty (.vec .bool) 0 offset' =
          .ok (.arr [.bool true, .bool false], 6) := by
  intro data
  apply decodeType_sound_local
  · decide
  · rfl

end Sound

end Solarix.Decoder
