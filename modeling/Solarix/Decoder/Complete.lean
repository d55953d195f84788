import Solarix.Decoder.Layout

/-!
# Decoding an encoding

On the bytes of a well-typed value the decoder returns the value's rendering and
consumes exactly its bytes, whatever stands before and after them.
-/

namespace Solarix.Decoder

open Solarix.Core
open BorshValue (encode encodeAll encodeAll_eq_flatMap render renderAll renderAll_eq_map
  renderStruct renderVariant nestingAll_le fitsAll_iff)

section Complete

variable {env : Externs} {registry : TypeRegistry} {data : DataSlice}

abbrev ReadsValue (env : Externs) (data : DataSlice) (r : Reader DecodeError Json)
    (x : BorshValue) : Prop :=
  Reads data encode (render env) r x

theorem ensureBytes_of_at {start : Nat} {b : UInt8} (h : data.At start [b]) :
    ensureBytes data start 1 = .ok () :=
  ensureBytes_of_le h.add_length_le

theorem readBlob_of_at {start : Nat} {bs : List UInt8} (hlen : bs.length < 256 ^ 4)
    (h : data.At start (leBytes 4 bs.length ++ bs)) :
    readBlob data start = .ok (bs, 4 + bs.length) := by
  obtain ⟨hhead, htail⟩ := DataSlice.at_append.mp h
  rw [length_leBytes] at htail
  have hmax := data.len_lt_usizeMax
  have hle := htail.add_length_le
  unfold readBlob
  rw [readLe_of_at hhead (length_leBytes ..) (leNat_leBytes hlen), Outcome.ok_bind]
  simp only
  rw [addUsize_of_le (by omega), Outcome.ok_bind, takeBytes_of_at htail rfl,
    Outcome.ok_bind, addUsize_of_le (by omega), Outcome.ok_bind]

theorem withCapacity_of_le {count : Nat} (h : count * valueSize ≤ isizeMax) :
    (withCapacity valueSize count : Result Unit) = .ok () := if_pos h

theorem withCapacity_hint (count : Nat) :
    (withCapacity valueSize (min count 1024) : Result Unit) = .ok () := by
  apply withCapacity_of_le
  have h : min count 1024 ≤ 1024 := Nat.min_le_right _ _
  unfold valueSize isizeMax
  omega

/-! ## Fields -/

theorem decodeNamed_of_at {decode : IdlType → Reader DecodeError Json}
    {fields : List IdlField} {xs : List BorshValue}
    (hread : List.Forall₂ (fun ty x => ReadsValue env data (decode ty) x)
      (fields.map IdlField.ty) xs)
    {offset consumed : Nat} (hat : data.At (offset + consumed) (encodeAll xs)) :
    decodeNamed decode fields offset consumed =
      .ok (renderStruct (.named (fields.map IdlField.name)) (renderAll env xs),
        consumed + (encodeAll xs).length) := by
  rw [encodeAll_eq_flatMap] at hat ⊢
  unfold decodeNamed
  rw [readEach_map, readEach_complete hread hat, Outcome.ok_bind, renderAll_eq_map]
  rfl

theorem decodeTuple_of_at {decode : IdlType → Reader DecodeError Json}
    {types : List IdlType} {xs : List BorshValue}
    (hread : List.Forall₂ (fun ty x => ReadsValue env data (decode ty) x) types xs)
    {offset consumed : Nat} (hat : data.At (offset + consumed) (encodeAll xs)) :
    decodeTuple decode types offset consumed =
      .ok (.arr (renderAll env xs), consumed + (encodeAll xs).length) := by
  rw [encodeAll_eq_flatMap] at hat ⊢
  unfold decodeTuple
  rw [readEach_complete hread hat, Outcome.ok_bind, renderAll_eq_map]

theorem decodeStructFields_of_at {decode : IdlType → Reader DecodeError Json}
    {fields : Option IdlDefinedFields} {xs : List BorshValue}
    (hread : List.Forall₂ (fun ty x => ReadsValue env data (decode ty) x)
      (fieldTypes fields) xs)
    {offset : Nat} (hat : data.At offset (encodeAll xs)) :
    decodeStructFields decode fields offset =
      .ok (renderStruct (fieldShape fields) (renderAll env xs), (encodeAll xs).length) := by
  match fields with
  | none =>
      cases hread
      rfl
  | some (.named fields) =>
      have h := decodeNamed_of_at hread (show data.At (offset + 0) _ from hat)
      rw [Nat.zero_add] at h
      exact h
  | some (.tuple types) =>
      have h := decodeTuple_of_at hread (show data.At (offset + 0) _ from hat)
      rw [Nat.zero_add] at h
      exact h

theorem decodePayload_of_at {decode : IdlType → Reader DecodeError Json}
    {fields : Option IdlDefinedFields} {xs : List BorshValue}
    (hread : List.Forall₂ (fun ty x => ReadsValue env data (decode ty) x)
      (fieldTypes fields) xs)
    {offset consumed : Nat} (hat : data.At (offset + consumed) (encodeAll xs)) :
    decodePayload decode fields offset consumed =
      .ok (renderVariant (fieldShape fields) (renderAll env xs),
        consumed + (encodeAll xs).length) := by
  match fields with
  | none =>
      cases hread
      rfl
  | some (.named fields) => exact decodeNamed_of_at hread hat
  | some (.tuple []) =>
      cases hread
      rfl
  | some (.tuple [ty]) =>
      obtain ⟨x, rfl, hx⟩ : ∃ x, xs = [x] ∧ ReadsValue env data (decode ty) x := by
        cases hread with
        | cons hx hnil =>
            cases hnil
            exact ⟨_, rfl, hx⟩
      have hmax := data.len_lt_usizeMax
      have hle := hat.add_length_le
      simp only [encodeAll, List.append_nil] at hat hle ⊢
      simp only [decodePayload]
      rw [addUsize_of_le (by omega), Outcome.ok_bind, hx _ hat, Outcome.ok_bind]
      simp only
      rw [addUsize_of_le (by omega), Outcome.ok_bind]
      rfl
  | some (.tuple (ty₁ :: ty₂ :: types)) =>
      have h := decodeTuple_of_at hread hat
      obtain ⟨x₁, x₂, xs', rfl⟩ : ∃ x₁ x₂ xs', xs = x₁ :: x₂ :: xs' := by
        cases hread with
        | cons _ hrest =>
            cases hrest
            exact ⟨_, _, _, rfl⟩
      exact h

/-- Children of a definition are two levels below it. -/
theorem forall₂_reads {decode : IdlType → Reader DecodeError Json} {g : Generics}
    {tys : List IdlType} {xs : List BorshValue} {levels : Nat}
    (hread : ∀ ty y, Within registry g (levels - 2) ty y → ReadsValue env data (decode ty) y)
    (length : tys.length = xs.length)
    (items : ∀ p ∈ tys.zip xs, HasType registry g p.1 p.2)
    (hnest : BorshValue.nestingAll 2 xs < levels) (hfits : BorshValue.FitsAll xs) :
    List.Forall₂ (fun ty x => ReadsValue env data (decode ty) x) tys xs := by
  rw [List.forall₂_iff_zip]
  refine ⟨length, fun {ty x} hp => ?_⟩
  have hx : x ∈ xs := (List.of_mem_zip hp).2
  have hn := nestingAll_le.mp (Nat.le_sub_one_of_lt hnest) x hx
  exact hread ty x ⟨items _ hp, by omega, fitsAll_iff.mp hfits x hx⟩

theorem decodeTypedef_of_at {decode : IdlType → Reader DecodeError Json}
    {g : Generics} {typedef : IdlTypeDef} {x : BorshValue} {levels : Nat}
    (hread : ∀ ty y, Within registry g (levels - 2) ty y → ReadsValue env data (decode ty) y)
    (hx : HasBody registry g typedef.ty x) (hnest : x.nesting < levels) (hfits : x.Fits) :
    ReadsValue env data (decodeTypedef data decode typedef) x := by
  intro start hat
  unfold decodeTypedef
  generalize typedef.ty = body at hx ⊢
  cases hx with
  | @struct _ fields xs length items =>
      exact decodeStructFields_of_at (forall₂_reads hread length items hnest hfits) hat
  | @enum _ variants tag variant xs small found length items =>
      obtain ⟨hhead, htail⟩ := DataSlice.at_cons.mp hat
      have htag : (UInt8.ofNat tag).toNat = tag := by
        rw [UInt8.toNat_ofNat']
        omega
      simp only
      rw [ensureBytes_of_at hhead, Outcome.ok_bind, hhead.index, Outcome.ok_bind, htag, found]
      simp only
      rw [decodePayload_of_at (forall₂_reads hread length items hnest hfits) htail,
        Outcome.ok_bind]
      simp only [encode, List.length_cons, render]
      rw [Nat.add_comm]
  | @type _ aliased y value =>
      simp only [BorshValue.nesting] at hnest
      exact hread aliased y ⟨value, by omega, hfits⟩ start hat

/-! ## Types -/

theorem decodeCoption_none_of_at {decode : IdlType → Reader DecodeError Json}
    {inner : IdlType} {args : List IdlGenericArg} {body : List UInt8}
    (size : fixedSize registry inner = some body.length) :
    ReadsValue env data (decodeCoption registry data decode (.type inner :: args))
      (.coptionNone body) := by
  intro start hat
  have hmax := data.len_lt_usizeMax
  have hle := hat.add_length_le
  obtain ⟨hhead, _⟩ := DataSlice.at_append.mp hat
  simp only [encode, List.length_append, length_leBytes] at hle
  simp only [decodeCoption, List.head?_cons, size]
  rw [readLe_of_at hhead (length_leBytes ..) (leNat_leBytes (by decide)), Outcome.ok_bind]
  simp only
  rw [addUsize_of_le (by omega), Outcome.ok_bind, if_pos trivial, ensureBytes_of_le hle,
    Outcome.ok_bind]
  simp [encode, render]

theorem decodeCoption_some_of_at {decode : IdlType → Reader DecodeError Json}
    {g : Generics} {inner : IdlType} {args : List IdlGenericArg} {x : BorshValue} {n : Nat}
    (size : fixedSize registry inner = some n) (value : HasType registry g inner x)
    (hread : ReadsValue env data (decode inner) x) :
    ReadsValue env data (decodeCoption registry data decode (.type inner :: args))
      (.coptionSome x) := by
  intro start hat
  have hmax := data.len_lt_usizeMax
  have hn : x.encode.length = n := length_encode_of_fixedSizeAt value size
  obtain ⟨hhead, htail⟩ := DataSlice.at_append.mp hat
  rw [length_leBytes] at htail
  have hle := htail.add_length_le
  simp only [decodeCoption, List.head?_cons, size]
  rw [readLe_of_at hhead (length_leBytes ..) (leNat_leBytes (by decide)), Outcome.ok_bind]
  simp only
  rw [addUsize_of_le (by omega), Outcome.ok_bind, if_neg (by decide), if_pos trivial,
    addUsize_of_le (by omega), Outcome.ok_bind, hread _ htail, Outcome.ok_bind]
  simp [encode, render, hn]

section Arms

variable {below belowDefined : Generics → IdlType → Reader DecodeError Json} {g : Generics}
  {inner : IdlType}

theorem some_of_at {x : BorshValue} (hread : ReadsValue env data (below g inner) x) :
    ReadsValue env data (decodeStep env registry data below belowDefined g (.option inner))
      (.some x) := by
  intro start hat
  have hmax := data.len_lt_usizeMax
  obtain ⟨hhead, htail⟩ := DataSlice.at_cons.mp hat
  have hle := htail.add_length_le
  simp only [decodeStep]
  rw [ensureBytes_of_at hhead, Outcome.ok_bind, hhead.index, Outcome.ok_bind,
    if_neg (by decide), if_pos rfl, addUsize_of_le (by omega), Outcome.ok_bind,
    hread _ htail, Outcome.ok_bind]
  simp only
  rw [addUsize_of_le (by omega), Outcome.ok_bind]
  simp [render, encode, Nat.add_comm]

theorem nesting_lt_of_nestingAll {levels : Nat} {xs : List BorshValue}
    (h : BorshValue.nestingAll 1 xs < levels + 1) : ∀ x ∈ xs, x.nesting < levels := by
  intro x hx
  have hle := nestingAll_le.mp (Nat.le_of_lt_succ h) x hx
  omega

theorem forall_reads {decode : Reader DecodeError Json} {levels : Nat} {xs : List BorshValue}
    (hread : ∀ y, Within registry g levels inner y → ReadsValue env data decode y)
    (items : ∀ x ∈ xs, HasType registry g inner x)
    (hnest : BorshValue.nestingAll 1 xs < levels + 1) (hfits : BorshValue.FitsAll xs) :
    ∀ x ∈ xs, ReadsValue env data decode x := by
  intro x hx
  exact hread x ⟨items x hx, nesting_lt_of_nestingAll hnest x hx, fitsAll_iff.mp hfits x hx⟩

theorem vec_of_at {xs : List BorshValue} (length : xs.length < 256 ^ 4)
    (hread : ∀ x ∈ xs, ReadsValue env data (below g inner) x) :
    ReadsValue env data (decodeStep env registry data below belowDefined g (.vec inner))
      (.vec xs) := by
  intro start hat
  simp only [encode, encodeAll_eq_flatMap] at hat
  obtain ⟨hhead, htail⟩ := DataSlice.at_append.mp hat
  rw [length_leBytes] at htail
  simp only [decodeStep]
  rw [readLe_of_at hhead (length_leBytes ..) (leNat_leBytes length), Outcome.ok_bind]
  simp only
  rw [withCapacity_hint, Outcome.ok_bind,
    readEach_complete (forall₂_replicate hread) htail, Outcome.ok_bind]
  simp [render, encode, encodeAll_eq_flatMap, renderAll_eq_map]

theorem array_of_at {xs : List BorshValue} (hcapacity : xs.length * valueSize ≤ isizeMax)
    (hread : ∀ x ∈ xs, ReadsValue env data (below g inner) x) :
    ReadsValue env data
      (decodeStep env registry data below belowDefined g (.array inner (.value xs.length)))
      (.array xs) := by
  intro start hat
  simp only [encode, encodeAll_eq_flatMap] at hat
  simp only [decodeStep, resolveArrayLen]
  rw [Outcome.ok_bind, withCapacity_of_le hcapacity, Outcome.ok_bind,
    readEach_complete (forall₂_replicate hread) (show data.At (start + 0) _ from hat),
    Outcome.ok_bind]
  simp [render, encode, encodeAll_eq_flatMap, renderAll_eq_map]

end Arms

/-- The decoder reads back every well-typed value that stays within its nesting
budget and whose arrays fit. -/
theorem decodeTypeAt_complete {levels : Nat} {g : Generics} {ty : IdlType} {x : BorshValue}
    (hx : Within registry g levels ty x) :
    ReadsValue env data (decodeTypeAt env registry data levels g ty) x := by
  induction levels using Nat.strong_induction_on generalizing g ty x with
  | _ levels ih =>
      obtain ⟨hx, hnest, hfits⟩ := hx
      obtain ⟨levels, rfl⟩ : ∃ k, levels = k + 1 := ⟨levels - 1, by omega⟩
      rw [decodeTypeAt_succ]
      intro start hat
      cases hx with
      | bool _ b =>
          simp only [decodeStep]
          rw [ensureBytes_of_at hat, Outcome.ok_bind, hat.index, Outcome.ok_bind]
          cases b <;> rfl
      | @int _ t z range =>
          simp only [decodeStep]
          rw [readLe_of_at hat (length_leBytes ..) (leNat_leBytes (intToPattern_lt t z)),
            Outcome.ok_bind]
          simp [render, encode, intOfPattern_intToPattern range]
      | f32 _ range =>
          simp only [decodeStep]
          rw [readLe_of_at hat (show _ = 4 from length_leBytes ..) (leNat_leBytes range),
            Outcome.ok_bind]
          rfl
      | f64 _ range =>
          simp only [decodeStep]
          rw [readLe_of_at hat (show _ = 8 from length_leBytes ..) (leNat_leBytes range),
            Outcome.ok_bind]
          rfl
      | u256 _ length =>
          simp only [decodeStep]
          rw [takeBytes_of_at hat length, Outcome.ok_bind]
          simp [render, encode, length]
      | i256 _ length =>
          simp only [decodeStep]
          rw [takeBytes_of_at hat length, Outcome.ok_bind]
          simp [render, encode, length]
      | @string _ s length =>
          simp only [decodeStep]
          rw [readBlob_of_at length hat, Outcome.ok_bind]
          simp [decodeUtf8_eq_some.mpr rfl, render, encode]
      | bytes _ length =>
          simp only [decodeStep]
          rw [readBlob_of_at length hat, Outcome.ok_bind]
          simp [render, encode]
      | pubkey _ length =>
          simp only [decodeStep]
          rw [takeBytes_of_at hat length, Outcome.ok_bind]
          simp [render, encode, length]
      | none _ inner =>
          simp only [decodeStep]
          rw [ensureBytes_of_at hat, Outcome.ok_bind, hat.index, Outcome.ok_bind]
          rfl
      | some value =>
          simp only [BorshValue.nesting] at hnest
          exact some_of_at (ih levels (by omega) ⟨value, by omega, hfits⟩) start hat
      | vec length items =>
          exact vec_of_at length
            (forall_reads (fun _ => ih levels (by omega)) items hnest hfits) start hat
      | array items =>
          exact array_of_at hfits.1
            (forall_reads (fun _ => ih levels (by omega)) items hnest hfits.2) start hat
      | coptionNone _ args size =>
          simp only [decodeStep, if_true]
          exact decodeCoption_none_of_at size start hat
      | coptionSome args size value =>
          simp only [BorshValue.nesting] at hnest
          simp only [decodeStep, if_true]
          exact decodeCoption_some_of_at size value
            (ih levels (by omega) ⟨value, by omega, hfits⟩) start hat
      | @defined _ name args typedef _ notCoption resolved borsh body =>
          simp only [decodeStep]
          rw [if_neg notCoption, TypeRegistry.resolve, resolved]
          simp only [Outcome.ok_bind]
          rw [checkSerialization_eq_ok (u := ()) |>.mpr borsh, Outcome.ok_bind]
          exact decodeTypedef_of_at (fun ty y hy => ih (levels - 1) (by omega) hy) body hnest
            hfits start hat
      | @generic _ name ty y bound value =>
          simp only [BorshValue.nesting] at hnest
          simp only [decodeStep, bound]
          exact ih levels (by omega) ⟨value, by omega, hfits⟩ start hat

end Complete

end Solarix.Decoder
