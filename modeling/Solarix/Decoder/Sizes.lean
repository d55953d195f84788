import Solarix.Decoder.Sound

/-!
# Static sizes and consumed bytes

`fixed_size` looks at the type only, `decode_type` at the bytes.  Where both give an
answer it is the same number, at every offset and at every depth, so that a `COption`
ends where its inner value does.
-/

namespace Solarix.Decoder

open Solarix.Core

theorem sumSizes_eq_some {size : IdlType → Option Nat} {types : List IdlType}
    {total n : Nat} (h : sumSizes size total types = some n) :
    ∃ sizes, List.Forall₂ (fun ty s => size ty = some s) types sizes ∧
      n = total + sizes.sum := by
  induction types generalizing total with
  | nil =>
      cases h
      exact ⟨[], .nil, rfl⟩
  | cons ty types ih =>
      obtain ⟨s, hs, h⟩ := Option.bind_eq_some_iff.mp h
      obtain ⟨next, hnext, h⟩ := Option.bind_eq_some_iff.mp h
      obtain ⟨_, rfl⟩ := checkedAdd_eq_some.mp hnext
      obtain ⟨sizes, hsizes, rfl⟩ := ih h
      refine ⟨s :: sizes, .cons hs hsizes, ?_⟩
      rw [List.sum_cons]
      omega

section Consumed

variable {env : Externs} {registry : TypeRegistry} {data : DataSlice}
  {size : IdlType → Option Nat} {decode : IdlType → Reader DecodeError Json}

theorem readLe_consumes (n : Nat) : Consumes (readLe data n) n := by
  intro start v m h
  exact (readLe_eq_ok h).1

/-! ## Fields -/

theorem readEach_sized {types : List IdlType} {offset n total : Nat} {vals : List Json}
    (hdecode : ∀ ty s, size ty = some s → Consumes (decode ty) s)
    (hsize : sumSizes size 0 types = some n)
    (h : readEach decode types offset 0 = .ok (vals, total)) : total = n := by
  obtain ⟨sizes, hsizes, rfl⟩ := sumSizes_eq_some hsize
  exact readEach_consumes (hsizes.imp fun ty s hs => hdecode ty s hs) h

theorem decodeNamed_consumes {fields : List IdlField} {n : Nat}
    (hdecode : ∀ ty s, size ty = some s → Consumes (decode ty) s)
    (hsize : sumSizes size 0 (fields.map IdlField.ty) = some n) :
    Consumes (fun offset => decodeNamed decode fields offset 0) n := by
  intro start v m h
  obtain ⟨⟨vals, total⟩, hvals, h⟩ := Outcome.bind_eq_ok.mp h
  cases h
  rw [readEach_map] at hvals
  exact readEach_sized hdecode hsize hvals

theorem decodeTuple_consumes {types : List IdlType} {n : Nat}
    (hdecode : ∀ ty s, size ty = some s → Consumes (decode ty) s)
    (hsize : sumSizes size 0 types = some n) :
    Consumes (fun offset => decodeTuple decode types offset 0) n := by
  intro start v m h
  obtain ⟨⟨vals, total⟩, hvals, h⟩ := Outcome.bind_eq_ok.mp h
  cases h
  exact readEach_sized hdecode hsize hvals

/-! ## `COption` -/

theorem decodeCoption_eq_ok {args : List IdlGenericArg} {start m : Nat} {v : Json}
    (h : decodeCoption registry data decode args start = .ok (v, m)) :
    ∃ inner rest n, args = .type inner :: rest ∧ fixedSize registry inner = some n ∧
      m = 4 + n ∧
      ((data.At start (leBytes 4 0) ∧ v = .null) ∨
        (data.At start (leBytes 4 1) ∧ ∃ k, decode inner (start + 4) = .ok (v, k))) := by
  unfold decodeCoption at h
  split at h
  · rename_i inner hargs
    obtain ⟨rest, rfl⟩ := List.head?_eq_some_iff.mp hargs
    split at h
    · simp [unsupported] at h
    · rename_i n hsize
      obtain ⟨⟨tag, k⟩, htag, h⟩ := Outcome.bind_eq_ok.mp h
      obtain ⟨_, _, hhead⟩ := readLe_eq_ok htag
      obtain ⟨total, htotal, h⟩ := Outcome.bind_eq_ok.mp h
      obtain ⟨_, rfl⟩ := addUsize_eq_ok.mp htotal
      refine ⟨inner, rest, n, rfl, hsize, ?_⟩
      simp only at h
      split at h
      · rename_i hzero
        obtain ⟨_, _, h⟩ := Outcome.bind_eq_ok.mp h
        cases h
        exact ⟨rfl, Or.inl ⟨hzero ▸ hhead, rfl⟩⟩
      · split at h
        · rename_i hone
          obtain ⟨next, hnext, h⟩ := Outcome.bind_eq_ok.mp h
          obtain ⟨_, rfl⟩ := addUsize_eq_ok.mp hnext
          obtain ⟨⟨val, k⟩, hval, h⟩ := Outcome.bind_eq_ok.mp h
          cases h
          exact ⟨rfl, Or.inr ⟨hone ▸ hhead, k, hval⟩⟩
        · simp [malformed] at h
  · simp [unsupported] at h

theorem decodeCoption_consumes {inner : IdlType} {rest : List IdlGenericArg} {n : Nat}
    (hsize : fixedSize registry inner = some n) :
    Consumes (decodeCoption registry data decode (.type inner :: rest)) (4 + n) := by
  intro start v m h
  obtain ⟨inner', rest', n', hargs, hsize', rfl, _⟩ := decodeCoption_eq_ok h
  cases hargs
  rw [hsize] at hsize'
  cases hsize'
  rfl

/-! ## One level -/

variable {below belowDefined : Generics → IdlType → Reader DecodeError Json}

theorem array_consumes {g : Generics} {inner : IdlType} {count s : Nat}
    (hbelow : Consumes (below g inner) s) :
    Consumes (decodeStep env registry data below belowDefined g
      (.array inner (.value count))) (s * count) := by
  intro start v m h
  obtain ⟨_, hcount, h⟩ := Outcome.bind_eq_ok.mp h
  cases hcount
  obtain ⟨_, _, h⟩ := Outcome.bind_eq_ok.mp h
  obtain ⟨⟨items, total⟩, hitems, h⟩ := Outcome.bind_eq_ok.mp h
  cases h
  have hsizes : List.Forall₂ (fun (_ : Unit) n => Consumes (below g inner) n)
      (List.replicate count ()) (List.replicate count s) := by
    have hall : ∀ n ∈ List.replicate count s, Consumes (below g inner) n := by
      intro n hn
      rw [(List.mem_replicate.mp hn).2]
      exact hbelow
    simpa using forall₂_replicate hall
  rw [readEach_consumes hsizes hitems]
  simp [Nat.mul_comm]

theorem defined_consumes {g : Generics} {name : String} {args : List IdlGenericArg} {n : Nat}
    (hname : name ≠ "COption")
    (hdecode : ∀ g ty s, size ty = some s → Consumes (belowDefined g ty) s)
    (h : fixedSizeStep registry size (.defined name args) = some n) :
    Consumes (decodeStep env registry data below belowDefined g (.defined name args)) n := by
  rw [fixedSizeStep, if_neg hname] at h
  obtain ⟨typedef, htypedef, h⟩ := Option.bind_eq_some_iff.mp h
  intro start v m hdecoded
  simp only [decodeStep, if_neg hname] at hdecoded
  obtain ⟨typedef', htypedef', hdecoded⟩ := Outcome.bind_eq_ok.mp hdecoded
  rw [TypeRegistry.resolve_eq_ok, htypedef] at htypedef'
  cases htypedef'
  obtain ⟨_, _, hdecoded⟩ := Outcome.bind_eq_ok.mp hdecoded
  unfold decodeTypedef at hdecoded
  split at h
  · rename_i fields hty
    rw [hty] at hdecoded
    exact decodeNamed_consumes (hdecode _) h start v m hdecoded
  · rename_i types hty
    rw [hty] at hdecoded
    exact decodeTuple_consumes (hdecode _) h start v m hdecoded
  · rename_i aliased hty
    rw [hty] at hdecoded
    exact hdecode _ aliased n h start v m hdecoded
  · cases h

theorem decodeStep_consumes
    (hbelow : ∀ g ty s, size ty = some s → Consumes (below g ty) s)
    (hbelowDefined : ∀ g ty s, size ty = some s → Consumes (belowDefined g ty) s)
    (hsize : ∀ ty s, size ty = some s → fixedSize registry ty = some s)
    {g : Generics} {ty : IdlType} {n : Nat} (h : fixedSizeStep registry size ty = some n) :
    Consumes (decodeStep env registry data below belowDefined g ty) n := by
  cases ty with
  | bool =>
      cases h
      intro start v m h
      obtain ⟨_, _, h⟩ := Outcome.bind_eq_ok.mp h
      obtain ⟨_, _, h⟩ := Outcome.bind_eq_ok.mp h
      split at h
      · cases h
        rfl
      · split at h
        · cases h
          rfl
        · simp [malformed] at h
  | int t =>
      cases h
      intro start v m h
      obtain ⟨⟨k, size⟩, hk, h⟩ := Outcome.bind_eq_ok.mp h
      cases h
      exact readLe_consumes _ _ _ _ hk
  | f32 =>
      cases h
      intro start v m h
      obtain ⟨⟨k, size⟩, hk, h⟩ := Outcome.bind_eq_ok.mp h
      cases h
      exact readLe_consumes _ _ _ _ hk
  | f64 =>
      cases h
      intro start v m h
      obtain ⟨⟨k, size⟩, hk, h⟩ := Outcome.bind_eq_ok.mp h
      cases h
      exact readLe_consumes _ _ _ _ hk
  | u256 =>
      cases h
      intro start v m h
      obtain ⟨_, _, h⟩ := Outcome.bind_eq_ok.mp h
      cases h
      rfl
  | i256 =>
      cases h
      intro start v m h
      obtain ⟨_, _, h⟩ := Outcome.bind_eq_ok.mp h
      cases h
      rfl
  | pubkey =>
      cases h
      intro start v m h
      obtain ⟨_, _, h⟩ := Outcome.bind_eq_ok.mp h
      cases h
      rfl
  | array inner len =>
      cases len with
      | value count =>
          obtain ⟨s, hs, h⟩ := Option.bind_eq_some_iff.mp h
          obtain ⟨_, rfl⟩ := checkedMul_eq_some.mp h
          exact array_consumes (hbelow g inner s hs)
      | generic name => cases h
  | defined name args =>
      by_cases hname : name = "COption"
      · rw [fixedSizeStep, if_pos hname] at h
        split at h
        · rename_i inner hargs
          obtain ⟨rest, rfl⟩ := List.head?_eq_some_iff.mp hargs
          obtain ⟨s, hs, h⟩ := Option.bind_eq_some_iff.mp h
          obtain ⟨_, rfl⟩ := checkedAdd_eq_some.mp h
          intro start v m hdecoded
          simp only [decodeStep, if_pos hname] at hdecoded
          exact decodeCoption_consumes (hsize inner s hs) start v m hdecoded
        · cases h
      · exact defined_consumes hname hbelowDefined h
  | string => cases h
  | bytes => cases h
  | option inner => cases h
  | vec inner => cases h
  | generic name => cases h

/-- The two recursions count their depth from different places: the induction is on the
levels of the size, for any number of levels of the decoder. -/
theorem decodeTypeAt_consumes {sizeLevels : Nat} (hlevels : sizeLevels ≤ maxDecodeDepth + 1)
    (levels : Nat) {g : Generics} {ty : IdlType} {n : Nat}
    (h : fixedSizeAt registry sizeLevels ty = some n) :
    Consumes (decodeTypeAt env registry data levels g ty) n := by
  induction sizeLevels generalizing levels g ty n with
  | zero => cases h
  | succ sizeLevels ih =>
      cases levels with
      | zero =>
          intro start v m hdecoded
          simp [decodeTypeAt, malformed] at hdecoded
      | succ levels =>
          have hbelow : ∀ levels g ty s, fixedSizeAt registry sizeLevels ty = some s →
              Consumes (decodeTypeAt env registry data levels g ty) s :=
            fun levels g ty s hs => ih (by omega) levels hs
          rw [decodeTypeAt_succ]
          rw [fixedSizeAt] at h
          exact decodeStep_consumes (hbelow levels) (hbelow _)
            (fun ty s hs => fixedSizeAt_mono (by omega) hs) h

end Consumed

/-- The static size is what the decoder consumes.  A `COption` therefore takes the same
bytes with a value and without, and ends where its inner value ends. -/
theorem fixed_size_agrees_with_decode_type (env : Externs) (registry : TypeRegistry)
    (data : DataSlice) (generics : Generics) (depth offset : Nat) :
    (∀ ty n v m, fixedSize registry ty = some n →
      decodeType env registry data generics ty depth offset = .ok (v, m) → m = n) ∧
    (∀ args v m,
      decodeType env registry data generics (.defined "COption" args) depth offset =
        .ok (v, m) →
      ∃ inner rest n, args = .type inner :: rest ∧ fixedSize registry inner = some n ∧
        m = 4 + n ∧
        ((data.At offset (leBytes 4 0) ∧ v = .null) ∨
          (data.At offset (leBytes 4 1) ∧
            decodeType env registry data generics inner (depth + 1) (offset + 4) =
              .ok (v, n)))) := by
  constructor
  · intro ty n v m hsize h
    exact decodeTypeAt_consumes le_rfl _ hsize offset v m h
  · intro args v m h
    unfold decodeType at h
    cases hlevels : maxDecodeDepth + 1 - depth with
    | zero =>
        rw [hlevels] at h
        simp [decodeTypeAt, malformed] at h
    | succ levels =>
        have hbelow : maxDecodeDepth + 1 - (depth + 1) = levels := by omega
        rw [hlevels, decodeTypeAt_succ] at h
        simp only [decodeStep, if_true] at h
        obtain ⟨inner, rest, n, hargs, hsize, hm, hv⟩ := decodeCoption_eq_ok h
        refine ⟨inner, rest, n, hargs, hsize, hm, hv.imp_right ?_⟩
        rintro ⟨htag, k, hk⟩
        refine ⟨htag, ?_⟩
        have hkn : k = n := decodeTypeAt_consumes le_rfl levels hsize _ v k hk
        rw [decodeType, hbelow, ← hkn]
        exact hk

def coptionPair : IdlType := .array (.defined "COption" [.type (.int .u16)]) (.value 2)

def coptionPairData : DataSlice := ⟨[1, 0, 0, 0, 7, 0, 0, 0, 0, 0, 9, 9], by decide⟩

theorem fixed_size_agrees_with_decode_type_pair :
    decodeType Externs.minimal ⟨fun _ => none⟩ coptionPairData Generics.empty coptionPair 0 0 =
        .ok (.arr [.int 7, .null], 12) ∧
      ∃ n, fixedSize ⟨fun _ => none⟩ coptionPair = some n ∧ 12 = n := by
  have hdecode : decodeType Externs.minimal ⟨fun _ => none⟩ coptionPairData Generics.empty
      coptionPair 0 0 = .ok (.arr [.int 7, .null], 12) := rfl
  have hagree := fixed_size_agrees_with_decode_type Externs.minimal ⟨fun _ => none⟩
    coptionPairData Generics.empty 0 0
  exact ⟨hdecode, 12, rfl, hagree.1 coptionPair 12 _ 12 rfl hdecode⟩

end Solarix.Decoder
