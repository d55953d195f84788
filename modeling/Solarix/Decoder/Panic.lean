import Solarix.Decoder.Moves

/-!
# Where the decoder panics

`Oversized` is a place where an allocation or an addition overflows.  The decoder panics
exactly when it can move from where it starts to such a place.
-/

namespace Solarix.Decoder

open Solarix.Core
open BorshValue (encode encodeAll encodeAll_eq_flatMap render)

/-- A site whose own step overflows: a fixed array with no room for its items, or a
`COption` whose total size is no `usize`. -/
inductive Oversized (registry : TypeRegistry) : Site → Prop where
  | array {g : Generics} {levels : Nat} {inner : IdlType} {count : Nat}
      {bs : List UInt8} (large : isizeMax < count * valueSize) :
      Oversized registry ⟨g, levels + 1, .array inner (.value count), bs⟩
  | coption {g : Generics} {levels : Nat} {inner : IdlType} {args : List IdlGenericArg}
      {size : Nat} {bs : List UInt8} (sized : fixedSize registry inner = some size)
      (large : usizeMax < 4 + size) (tag : 4 ≤ bs.length) :
      Oversized registry ⟨g, levels + 1, .defined "COption" (.type inner :: args), bs⟩

def Hits (registry : TypeRegistry) (site : Site) : Prop :=
  ∃ spot, Relation.ReflTransGen (Child registry) site spot ∧ Oversized registry spot

theorem Hits.of_child {registry : TypeRegistry} {site next : Site}
    (hchild : Child registry site next) (h : Hits registry next) : Hits registry site := by
  obtain ⟨spot, hreach, hspot⟩ := h
  exact ⟨spot, .head hchild hreach, hspot⟩

/-! ## The fields of a definition -/

section Panics

variable {env : Externs} {registry : TypeRegistry} {data : DataSlice}

def FieldPanics (env : Externs) (registry : TypeRegistry) (data : DataSlice) (levels : Nat)
    (g : Generics) (tys : List IdlType) (start : Nat) : Prop :=
  ∃ done ty rest xs, tys = done ++ ty :: rest ∧
    List.Forall₂ (Within registry g levels) done xs ∧ data.At start (encodeAll xs) ∧
    (decodeTypeAt env registry data levels g ty (start + (encodeAll xs).length)).Panics

theorem readEach_panics_iff_field {levels : Nat} {g : Generics} {tys : List IdlType}
    {offset consumed : Nat} (hoff : offset + consumed ≤ data.len) :
    (readEach (decodeTypeAt env registry data levels g) tys offset consumed).Panics ↔
      FieldPanics env registry data levels g tys (offset + consumed) := by
  rw [readEach_panics_iff (fun ty _ => decodeTypeAt_sound levels g ty)
    (fun _ _ _ hx => decodeTypeAt_complete hx) hoff]
  simp only [FieldPanics, encodeAll_eq_flatMap]

theorem decodeNamed_panics_iff {levels : Nat} {g : Generics} {fields : List IdlField}
    {offset consumed : Nat} (hoff : offset + consumed ≤ data.len) :
    (decodeNamed (decodeTypeAt env registry data levels g) fields offset consumed).Panics ↔
      FieldPanics env registry data levels g (fields.map IdlField.ty) (offset + consumed) := by
  unfold decodeNamed
  rw [readEach_map, Outcome.panics_bind, readEach_panics_iff_field hoff]
  simp

theorem decodeTuple_panics_iff {levels : Nat} {g : Generics} {tys : List IdlType}
    {offset consumed : Nat} (hoff : offset + consumed ≤ data.len) :
    (decodeTuple (decodeTypeAt env registry data levels g) tys offset consumed).Panics ↔
      FieldPanics env registry data levels g tys (offset + consumed) := by
  unfold decodeTuple
  rw [Outcome.panics_bind, readEach_panics_iff_field hoff]
  simp

theorem not_fieldPanics_nil {levels : Nat} {g : Generics} {start : Nat} :
    ¬ FieldPanics env registry data levels g [] start := by
  rintro ⟨done, ty, rest, xs, h, _⟩
  simp at h

theorem fieldPanics_singleton {levels : Nat} {g : Generics} {ty : IdlType} {start : Nat}
    (hstart : start ≤ data.len) :
    FieldPanics env registry data levels g [ty] start ↔
      (decodeTypeAt env registry data levels g ty start).Panics := by
  constructor
  · rintro ⟨done, ty', rest, xs, h, hxs, _, hp⟩
    cases done with
    | nil =>
        cases h
        cases hxs
        exact hp
    | cons _ done => simp at h
  · intro h
    exact ⟨[], ty, [], [], rfl, .nil, DataSlice.at_nil hstart, h⟩

theorem decodeStructFields_panics_iff {levels : Nat} {g : Generics}
    {fields : Option IdlDefinedFields} {offset : Nat} (hoff : offset ≤ data.len) :
    (decodeStructFields (decodeTypeAt env registry data levels g) fields offset).Panics ↔
      FieldPanics env registry data levels g (fieldTypes fields) offset := by
  match fields with
  | none => simp [decodeStructFields, fieldTypes, not_fieldPanics_nil]
  | some (.named fields) =>
      exact decodeNamed_panics_iff (show offset + 0 ≤ data.len from hoff)
  | some (.tuple tys) => exact decodeTuple_panics_iff (show offset + 0 ≤ data.len from hoff)

theorem decodePayload_panics_iff {levels : Nat} {g : Generics}
    {fields : Option IdlDefinedFields} {offset consumed : Nat}
    (hoff : offset + consumed ≤ data.len) :
    (decodePayload (decodeTypeAt env registry data levels g) fields offset consumed).Panics ↔
      FieldPanics env registry data levels g (fieldTypes fields) (offset + consumed) := by
  match fields with
  | none => simp [decodePayload, fieldTypes, not_fieldPanics_nil]
  | some (.named fields) => exact decodeNamed_panics_iff hoff
  | some (.tuple []) => exact decodeTuple_panics_iff hoff
  | some (.tuple [ty]) =>
      have hmax := data.len_lt_usizeMax
      simp only [decodePayload, fieldTypes]
      rw [fieldPanics_singleton hoff, addUsize_of_le (by omega), Outcome.ok_bind,
        Outcome.panics_bind]
      apply or_iff_left
      rintro ⟨⟨v, n⟩, hv, h⟩
      obtain ⟨x, _, _, rfl, hat⟩ := decodeTypeAt_sound levels g ty _ v n hoff hv
      have hle := hat.add_length_le
      simp only at h
      rw [addUsize_of_le (by omega), Outcome.ok_bind] at h
      exact Outcome.not_panics_ok _ h
  | some (.tuple (_ :: _ :: _)) => exact decodeTuple_panics_iff hoff

/-! ## One move -/

def SitePanics (env : Externs) (registry : TypeRegistry) (data : DataSlice)
    (site : Site) : Prop :=
  ∃ start ≤ data.len, data.bytes.drop start = site.bytes ∧
    (decodeTypeAt env registry data site.levels site.generics site.ty start).Panics

theorem sitePanics_iff {levels : Nat} {g : Generics} {ty : IdlType} {start : Nat}
    (hstart : start ≤ data.len) :
    SitePanics env registry data ⟨g, levels, ty, data.bytes.drop start⟩ ↔
      (decodeTypeAt env registry data levels g ty start).Panics := by
  constructor
  · rintro ⟨start', hstart', hdrop, hp⟩
    rw [DataSlice.drop_inj hstart' hstart hdrop] at hp
    exact hp
  · intro h
    exact ⟨start, hstart, rfl, h⟩

theorem PassesThrough.panics {α : Type} {x : Result α} {site : Site}
    (h : PassesThrough env registry data x site) (hp : SitePanics env registry data site) :
    x.Panics := by
  obtain ⟨here, hhere, hbytes, f, rfl⟩ := h
  obtain ⟨there, hthere, hbytes', hp⟩ := hp
  rw [DataSlice.drop_inj hthere hhere (hbytes'.trans hbytes.symm)] at hp
  exact Outcome.panics_bind.mpr (Or.inl hp)

theorem sitePanics_after {levels : Nat} {g : Generics} {ty : IdlType} {start : Nat}
    {bs rest : List UInt8} (hstart : start ≤ data.len)
    (hdrop : data.bytes.drop start = bs ++ rest) :
    SitePanics env registry data ⟨g, levels, ty, rest⟩ ↔
      (decodeTypeAt env registry data levels g ty (start + bs.length)).Panics := by
  obtain ⟨hat, rfl⟩ := DataSlice.at_of_drop_eq hstart hdrop
  exact sitePanics_iff hat.add_length_le

theorem fieldPanics_iff {levels : Nat} {g : Generics} {tys : List IdlType} {start : Nat}
    (hstart : start ≤ data.len) :
    FieldPanics env registry data levels g tys start ↔
      ∃ done ty rest xs bs, tys = done ++ ty :: rest ∧
        List.Forall₂ (Within registry g levels) done xs ∧
        data.bytes.drop start = encodeAll xs ++ bs ∧
        SitePanics env registry data ⟨g, levels, ty, bs⟩ := by
  constructor
  · rintro ⟨done, ty, rest, xs, hsplit, hxs, hat, hp⟩
    exact ⟨done, ty, rest, xs, _, hsplit, hxs, hat.drop_eq,
      (sitePanics_after hstart hat.drop_eq).mpr hp⟩
  · rintro ⟨done, ty, rest, xs, bs, hsplit, hxs, hdrop, hp⟩
    exact ⟨done, ty, rest, xs, hsplit, hxs, (DataSlice.at_of_drop_eq hstart hdrop).1,
      (sitePanics_after hstart hdrop).mp hp⟩

theorem index_bind_panics_iff {α : Type} {start : Nat} {f : UInt8 → Result α}
    (hstart : start ≤ data.len) :
    (do ensureBytes data start 1; let tag ← data.index start; f tag).Panics ↔
      ∃ tag bs, data.bytes.drop start = tag :: bs ∧ (f tag).Panics := by
  constructor
  · intro h
    rw [Outcome.panics_bind_of_not (ensureBytes_not_panics _ _ _)] at h
    obtain ⟨_, hle, h⟩ := h
    rw [ensureBytes_eq_ok] at hle
    cases hdrop : data.bytes.drop start with
    | nil =>
        have := List.drop_eq_nil_iff.mp hdrop
        unfold DataSlice.len at hle
        omega
    | cons tag bs =>
        rw [(index_of_drop_eq hstart hdrop).2, Outcome.ok_bind] at h
        exact ⟨tag, bs, rfl, h⟩
  · rintro ⟨tag, bs, hdrop, h⟩
    obtain ⟨hensure, hindex⟩ := index_of_drop_eq hstart hdrop
    rw [hensure, Outcome.ok_bind, hindex, Outcome.ok_bind]
    exact h

theorem bodyChild_of_panics {levels : Nat} {g : Generics} {typedef : IdlTypeDef} {start : Nat}
    (hstart : start ≤ data.len)
    (h : (decodeTypedef data (decodeTypeAt env registry data levels g) typedef start).Panics) :
    ∃ site, BodyChild registry g levels typedef.ty (data.bytes.drop start) site ∧
      SitePanics env registry data site := by
  unfold decodeTypedef at h
  generalize typedef.ty = body at h ⊢
  cases body with
  | struct fields =>
      simp only at h
      rw [decodeStructFields_panics_iff hstart, fieldPanics_iff hstart] at h
      obtain ⟨done, ty, rest, xs, bs, hsplit, hxs, hdrop, hp⟩ := h
      exact ⟨_, by rw [hdrop]; exact .struct hsplit hxs, hp⟩
  | enum variants =>
      simp only at h
      obtain ⟨tag, bs, hdrop, h⟩ := (index_bind_panics_iff hstart).mp h
      split at h
      · simp [malformed] at h
      · rename_i variant hvariant
        have hat := (DataSlice.at_of_drop_eq hstart (show _ = [tag] ++ bs from hdrop)).1
        have hle : start + 1 ≤ data.len := hat.add_length_le
        rw [Outcome.panics_bind, decodePayload_panics_iff hle, fieldPanics_iff hle] at h
        rcases h with ⟨done, ty, rest, xs, bs', hsplit, hxs, hbs', hp⟩ | ⟨_, _, h⟩
        · have hbytes := hat.drop_eq
          rw [List.length_singleton, hbs', List.singleton_append] at hbytes
          exact ⟨_, by rw [hbytes]; exact .enum hvariant hsplit hxs, hp⟩
        · simp at h
  | type aliased =>
      simp only at h
      exact ⟨_, .type aliased _, (sitePanics_iff hstart).mpr h⟩

theorem decodeTypedef_panics_iff {levels : Nat} {g : Generics} {typedef : IdlTypeDef}
    {start : Nat} (hstart : start ≤ data.len) :
    (decodeTypedef data (decodeTypeAt env registry data levels g) typedef start).Panics ↔
      ∃ site, BodyChild registry g levels typedef.ty (data.bytes.drop start) site ∧
        SitePanics env registry data site := by
  constructor
  · exact bodyChild_of_panics hstart
  · rintro ⟨site, hchild, hp⟩
    exact (passesThrough_typedef hstart hchild).panics hp

theorem addUsize_panics_iff {a b : Nat} :
    (addUsize a b : Result Nat).Panics ↔ usizeMax < a + b := by
  unfold addUsize
  split
  · rename_i h
    simpa using h
  · rename_i h
    simpa using h

theorem withCapacity_panics_iff {count : Nat} :
    (withCapacity valueSize count : Result Unit).Panics ↔ isizeMax < count * valueSize := by
  unfold withCapacity
  split
  · rename_i h
    simpa using h
  · rename_i h
    simpa using h

theorem readLe_bind_panics_iff {α : Type} {start size : Nat} {f : Nat × Nat → Result α}
    (hstart : start ≤ data.len) :
    (readLe data size start >>= f).Panics ↔
      ∃ n bs, n < 256 ^ size ∧ data.bytes.drop start = leBytes size n ++ bs ∧
        (f (n, size)).Panics := by
  rw [Outcome.panics_bind_of_not (readLe_not_panics _ _ _)]
  constructor
  · rintro ⟨⟨n, m⟩, hn, h⟩
    obtain ⟨rfl, hlt, hat⟩ := readLe_eq_ok hn
    exact ⟨n, _, hlt, hat.drop_eq, h⟩
  · rintro ⟨n, bs, hlt, hdrop, h⟩
    exact ⟨_, readLe_of_drop_eq hlt hstart hdrop, h⟩

theorem readBlob_not_panics {start : Nat} (hstart : start ≤ data.len) :
    ¬ (readBlob data start).Panics := by
  unfold readBlob
  rw [readLe_bind_panics_iff hstart]
  rintro ⟨n, bs, hn, hdrop, h⟩
  have hat := (DataSlice.at_of_drop_eq hstart hdrop).1
  have hle := hat.add_length_le
  have hmax := data.len_lt_usizeMax
  rw [length_leBytes] at hle
  simp only at h
  rw [addUsize_of_le (by omega), Outcome.ok_bind,
    Outcome.panics_bind_of_not (takeBytes_not_panics _ _ _)] at h
  obtain ⟨_, _, h⟩ := h
  rw [addUsize_of_le (by unfold usizeMax; omega), Outcome.ok_bind] at h
  simp at h

def IsScalar : IdlType → Prop
  | .bool | .int _ | .f32 | .f64 | .u256 | .i256 | .string | .bytes | .pubkey => True
  | _ => False

theorem decodeStep_scalar_not_panics
    {below belowDefined : Generics → IdlType → Reader DecodeError Json} {g : Generics}
    {ty : IdlType} {start : Nat} (hty : IsScalar ty) (hstart : start ≤ data.len) :
    ¬ (decodeStep env registry data below belowDefined g ty start).Panics := by
  cases ty with
  | bool =>
      simp only [decodeStep]
      rw [index_bind_panics_iff hstart]
      rintro ⟨tag, bs, _, h⟩
      split at h
      · simp at h
      · split at h <;> simp [malformed] at h
  | int t =>
      simp only [decodeStep]
      rw [readLe_bind_panics_iff hstart]
      simp
  | f32 =>
      simp only [decodeStep]
      rw [readLe_bind_panics_iff hstart]
      simp
  | f64 =>
      simp only [decodeStep]
      rw [readLe_bind_panics_iff hstart]
      simp
  | u256 =>
      simp only [decodeStep]
      rw [Outcome.panics_bind_of_not (takeBytes_not_panics _ _ _)]
      simp
  | i256 =>
      simp only [decodeStep]
      rw [Outcome.panics_bind_of_not (takeBytes_not_panics _ _ _)]
      simp
  | pubkey =>
      simp only [decodeStep]
      rw [Outcome.panics_bind_of_not (takeBytes_not_panics _ _ _)]
      simp
  | string =>
      simp only [decodeStep]
      rw [Outcome.panics_bind_of_not (readBlob_not_panics hstart)]
      rintro ⟨⟨bs, size⟩, _, h⟩
      simp only at h
      split at h <;> simp [malformed] at h
  | bytes =>
      simp only [decodeStep]
      rw [Outcome.panics_bind_of_not (readBlob_not_panics hstart)]
      simp
  | option | vec | array | defined | generic => exact hty.elim

def StepPanics (env : Externs) (registry : TypeRegistry) (data : DataSlice)
    (site : Site) : Prop :=
  Oversized registry site ∨ ∃ next, Child registry site next ∧ SitePanics env registry data next

theorem panics_of_oversized {site : Site} {start : Nat} (h : Oversized registry site)
    (hdrop : data.bytes.drop start = site.bytes) :
    (decodeTypeAt env registry data site.levels site.generics site.ty start).Panics := by
  cases h with
  | array large =>
      simp only [decodeTypeAt_succ, decodeStep, resolveArrayLen, Outcome.ok_bind]
      rw [Outcome.panics_bind, withCapacity_panics_iff]
      exact Or.inl large
  | @coption g levels inner args size bs sized large tag =>
      have hlen := congrArg List.length hdrop
      rw [List.length_drop] at hlen
      simp only at hlen
      have hat : data.At start ((data.bytes.drop start).take 4) :=
        DataSlice.at_take_drop (by unfold DataSlice.len; omega)
      have hlen4 : ((data.bytes.drop start).take 4).length = 4 := by
        rw [hdrop, List.length_take]
        simp only
        omega
      simp only [decodeTypeAt_succ, decodeStep, decodeCoption, if_true, List.head?_cons, sized]
      rw [readLe_of_at hat hlen4 rfl, Outcome.ok_bind]
      simp only
      rw [Outcome.panics_bind, addUsize_panics_iff]
      exact Or.inl large

theorem option_panics {levels : Nat} {g : Generics} {inner : IdlType} {start : Nat}
    (hstart : start ≤ data.len)
    (h : (decodeTypeAt env registry data (levels + 1) g (.option inner) start).Panics) :
    StepPanics env registry data ⟨g, levels + 1, .option inner, data.bytes.drop start⟩ := by
  have hmax := data.len_lt_usizeMax
  rw [decodeTypeAt_succ] at h
  simp only [decodeStep] at h
  obtain ⟨tag, bs, hdrop, h⟩ := (index_bind_panics_iff hstart).mp h
  have hat := (DataSlice.at_of_drop_eq hstart (show _ = [tag] ++ bs from hdrop)).1
  have hle : start + 1 ≤ data.len := hat.add_length_le
  split at h
  · simp at h
  · split at h
    · rename_i htag
      rw [addUsize_of_le (by omega), Outcome.ok_bind, Outcome.panics_bind] at h
      rcases h with h | ⟨⟨v, n⟩, hv, h⟩
      · rw [hdrop, htag]
        refine Or.inr ⟨_, .option g levels inner bs, ?_⟩
        exact (sitePanics_after hstart (show _ = [tag] ++ bs from hdrop)).mpr h
      · obtain ⟨x, _, _, rfl, hx⟩ := decodeTypeAt_sound levels g inner _ v n hle hv
        have hle' := hx.add_length_le
        simp only at h
        rw [addUsize_of_le (by omega), Outcome.ok_bind] at h
        simp at h
    · simp [malformed] at h

theorem items_panics {levels : Nat} {g : Generics} {inner : IdlType} {count : Nat}
    {offset consumed : Nat} (hoff : offset + consumed ≤ data.len)
    (h : (readEach (fun _ : Unit => decodeTypeAt env registry data levels g inner)
      (List.replicate count ()) offset consumed).Panics) :
    ∃ xs bs, xs.length < count ∧ (∀ x ∈ xs, Within registry g levels inner x) ∧
      data.bytes.drop (offset + consumed) = encodeAll xs ++ bs ∧
      SitePanics env registry data ⟨g, levels, inner, bs⟩ := by
  rw [readEach_replicate_panics_iff (decodeTypeAt_sound levels g inner)
    (fun _ hx => decodeTypeAt_complete hx) hoff] at h
  simp only [← encodeAll_eq_flatMap] at h
  obtain ⟨xs, hlt, hxs, hat, hp⟩ := h
  exact ⟨xs, _, hlt, hxs, hat.drop_eq, (sitePanics_after hoff hat.drop_eq).mpr hp⟩

theorem vec_panics {levels : Nat} {g : Generics} {inner : IdlType} {start : Nat}
    (hstart : start ≤ data.len)
    (h : (decodeTypeAt env registry data (levels + 1) g (.vec inner) start).Panics) :
    StepPanics env registry data ⟨g, levels + 1, .vec inner, data.bytes.drop start⟩ := by
  rw [decodeTypeAt_succ] at h
  simp only [decodeStep] at h
  obtain ⟨count, bs, hcount, hdrop, h⟩ := (readLe_bind_panics_iff hstart).mp h
  simp only [withCapacity_hint, Outcome.ok_bind] at h
  obtain ⟨hat, hbs⟩ := DataSlice.at_of_drop_eq hstart hdrop
  have hle := hat.add_length_le
  rw [length_leBytes] at hle hbs
  rw [Outcome.panics_bind] at h
  rcases h with h | ⟨_, _, h⟩
  · obtain ⟨xs, bs', hlt, hxs, hbs', hp⟩ := items_panics hle h
    rw [hdrop, hbs, hbs']
    exact Or.inr ⟨_, .vec hcount hlt hxs, hp⟩
  · simp at h

theorem array_panics {levels : Nat} {g : Generics} {inner : IdlType} {len : IdlArrayLen}
    {start : Nat} (hstart : start ≤ data.len)
    (h : (decodeTypeAt env registry data (levels + 1) g (.array inner len) start).Panics) :
    StepPanics env registry data ⟨g, levels + 1, .array inner len, data.bytes.drop start⟩ := by
  have hstart' : start + 0 ≤ data.len := hstart
  rw [decodeTypeAt_succ] at h
  simp only [decodeStep] at h
  cases len with
  | generic name => simp [resolveArrayLen, malformed] at h
  | value count =>
      simp only [resolveArrayLen, Outcome.ok_bind] at h
      rw [Outcome.panics_bind, withCapacity_panics_iff] at h
      rcases h with h | ⟨_, hcap, h⟩
      · exact Or.inl (.array h)
      · rw [Outcome.panics_bind] at h
        rcases h with h | ⟨_, _, h⟩
        · obtain ⟨xs, bs, hlt, hxs, hdrop, hp⟩ := items_panics hstart' h
          rw [Nat.add_zero] at hdrop
          rw [hdrop]
          exact Or.inr ⟨_, .array (withCapacity_eq_ok.mp hcap) hlt hxs, hp⟩
        · simp at h

theorem coption_panics {levels : Nat} {g : Generics} {args : List IdlGenericArg} {start : Nat}
    (hstart : start ≤ data.len)
    (h : (decodeTypeAt env registry data (levels + 1) g (.defined "COption" args) start).Panics) :
    StepPanics env registry data
      ⟨g, levels + 1, .defined "COption" args, data.bytes.drop start⟩ := by
  have hmax := data.len_lt_usizeMax
  rw [decodeTypeAt_succ] at h
  simp only [decodeStep, if_true] at h
  unfold decodeCoption at h
  split at h
  · rename_i inner hargs
    obtain ⟨rest, rfl⟩ := List.head?_eq_some_iff.mp hargs
    split at h
    · simp [unsupported] at h
    · rename_i size hsize
      obtain ⟨tag, bs, _, hdrop, h⟩ := (readLe_bind_panics_iff hstart).mp h
      simp only at h
      rw [Outcome.panics_bind, addUsize_panics_iff] at h
      rcases h with h | ⟨total, htotal, h⟩
      · refine Or.inl (.coption hsize h ?_)
        rw [hdrop, List.length_append, length_leBytes]
        omega
      · obtain ⟨hfits, rfl⟩ := addUsize_eq_ok.mp htotal
        have hat := (DataSlice.at_of_drop_eq hstart hdrop).1
        have hle := hat.add_length_le
        rw [length_leBytes] at hle
        split at h
        · rw [Outcome.panics_bind_of_not (ensureBytes_not_panics _ _ _)] at h
          simp at h
        · split at h
          · rename_i htag
            rw [addUsize_of_le (by omega), Outcome.ok_bind, Outcome.panics_bind] at h
            rcases h with h | ⟨_, _, h⟩
            · rw [hdrop, htag]
              refine Or.inr ⟨_, .coption hsize hfits, ?_⟩
              rw [sitePanics_after hstart hdrop, length_leBytes]
              exact h
            · simp at h
          · simp [malformed] at h
  · simp [unsupported] at h

theorem defined_panics {levels : Nat} {g : Generics} {name : String} {args : List IdlGenericArg}
    {start : Nat} (hname : name ≠ "COption") (hstart : start ≤ data.len)
    (h : (decodeTypeAt env registry data (levels + 1) g (.defined name args) start).Panics) :
    StepPanics env registry data ⟨g, levels + 1, .defined name args, data.bytes.drop start⟩ := by
  rw [decodeTypeAt_succ] at h
  simp only [decodeStep] at h
  rw [if_neg hname, Outcome.panics_bind] at h
  rcases h with h | ⟨typedef, htypedef, h⟩
  · exact absurd h (TypeRegistry.resolve_not_panics _)
  · rw [Outcome.panics_bind_of_not (checkSerialization_not_panics _)] at h
    obtain ⟨_, hborsh, h⟩ := h
    obtain ⟨site, hbody, hp⟩ := bodyChild_of_panics hstart h
    exact Or.inr ⟨site, .defined hname (TypeRegistry.resolve_eq_ok.mp htypedef)
      (checkSerialization_eq_ok.mp hborsh) hbody, hp⟩

theorem generic_panics {levels : Nat} {g : Generics} {name : String} {start : Nat}
    (hstart : start ≤ data.len)
    (h : (decodeTypeAt env registry data (levels + 1) g (.generic name) start).Panics) :
    StepPanics env registry data ⟨g, levels + 1, .generic name, data.bytes.drop start⟩ := by
  rw [decodeTypeAt_succ] at h
  simp only [decodeStep] at h
  split at h
  · rename_i ty hty
    exact Or.inr ⟨_, .generic hty, (sitePanics_iff hstart).mpr h⟩
  · simp [malformed] at h

theorem decodeTypeAt_panics_iff_step {levels : Nat} {g : Generics} {ty : IdlType}
    {start : Nat} (hstart : start ≤ data.len) :
    (decodeTypeAt env registry data levels g ty start).Panics ↔
      StepPanics env registry data ⟨g, levels, ty, data.bytes.drop start⟩ := by
  constructor
  · intro h
    cases levels with
    | zero => simp [decodeTypeAt, malformed] at h
    | succ levels =>
        have hscalar (hty : IsScalar ty) :
            ¬ (decodeTypeAt env registry data (levels + 1) g ty start).Panics := by
          rw [decodeTypeAt_succ]
          exact decodeStep_scalar_not_panics hty hstart
        cases ty with
        | option inner => exact option_panics hstart h
        | vec inner => exact vec_panics hstart h
        | array inner len => exact array_panics hstart h
        | generic name => exact generic_panics hstart h
        | defined name args =>
            by_cases hname : name = "COption"
            · subst hname
              exact coption_panics hstart h
            · exact defined_panics hname hstart h
        | bool | int | f32 | f64 | u256 | i256 | bytes | string | pubkey =>
            exact absurd h (hscalar trivial)
  · rintro (h | ⟨next, hchild, hp⟩)
    · exact panics_of_oversized h rfl
    · exact (passesThrough_child hchild hstart rfl).panics hp

/-! ## Whole runs -/

theorem sitePanics_iff_step {site : Site} (hsite : site.bytes <:+ data.bytes) :
    SitePanics env registry data site ↔ StepPanics env registry data site := by
  obtain ⟨g, levels, ty, bytes⟩ := site
  have hstart : data.bytes.length - bytes.length ≤ data.len := Nat.sub_le ..
  have hbytes := List.suffix_iff_eq_drop.mp hsite
  simp only at hbytes
  rw [hbytes, sitePanics_iff hstart]
  exact decodeTypeAt_panics_iff_step hstart

/-- The decoder panics exactly when it gets to an oversized place.  One way by
induction on the moves, the other on the levels left. -/
theorem sitePanics_iff_hits {site : Site} (hsite : site.bytes <:+ data.bytes) :
    SitePanics env registry data site ↔ Hits registry site := by
  constructor
  · intro h
    induction hlevels : site.levels using Nat.strong_induction_on generalizing site with
    | _ levels ih =>
        rcases (sitePanics_iff_step hsite).mp h with h | ⟨next, hchild, hp⟩
        · exact ⟨site, .refl, h⟩
        · apply Hits.of_child hchild
          exact ih _ (hlevels ▸ hchild.levels_lt) (hchild.suffix.trans hsite) hp rfl
  · rintro ⟨spot, hreach, hspot⟩
    induction hreach using Relation.ReflTransGen.head_induction_on with
    | refl => exact (sitePanics_iff_step hsite).mpr (Or.inl hspot)
    | head hchild _ ih =>
        apply (sitePanics_iff_step hsite).mpr
        exact Or.inr ⟨_, hchild, ih (hchild.suffix.trans hsite)⟩

def FieldsHit (registry : TypeRegistry) (g : Generics) (levels : Nat) (tys : List IdlType)
    (bytes : List UInt8) : Prop :=
  ∃ done ty rest xs bs, tys = done ++ ty :: rest ∧
    List.Forall₂ (Within registry g levels) done xs ∧ bytes = encodeAll xs ++ bs ∧
    Hits registry ⟨g, levels, ty, bs⟩

theorem fieldPanics_iff_hit {levels : Nat} {g : Generics} {tys : List IdlType} {start : Nat}
    (hstart : start ≤ data.len) :
    FieldPanics env registry data levels g tys start ↔
      FieldsHit registry g levels tys (data.bytes.drop start) := by
  rw [fieldPanics_iff hstart]
  have hsuffix {xs : List BorshValue} {bs : List UInt8}
      (h : data.bytes.drop start = encodeAll xs ++ bs) : bs <:+ data.bytes := by
    apply (List.suffix_append (encodeAll xs) bs).trans
    rw [← h]
    exact List.drop_suffix ..
  constructor
  · rintro ⟨done, ty, rest, xs, bs, hsplit, hxs, hdrop, hp⟩
    exact ⟨done, ty, rest, xs, bs, hsplit, hxs, hdrop,
      (sitePanics_iff_hits (hsuffix hdrop)).mp hp⟩
  · rintro ⟨done, ty, rest, xs, bs, hsplit, hxs, hdrop, hp⟩
    exact ⟨done, ty, rest, xs, bs, hsplit, hxs, hdrop,
      (sitePanics_iff_hits (hsuffix hdrop)).mpr hp⟩

def BodyHits (registry : TypeRegistry) (g : Generics) (levels : Nat) (body : IdlTypeDefTy)
    (bytes : List UInt8) : Prop :=
  ∃ site, BodyChild registry g levels body bytes site ∧ Hits registry site

theorem decodeTypedef_panics_iff_hits {levels : Nat} {g : Generics} {typedef : IdlTypeDef}
    {start : Nat} (hstart : start ≤ data.len) :
    (decodeTypedef data (decodeTypeAt env registry data levels g) typedef start).Panics ↔
      BodyHits registry g levels typedef.ty (data.bytes.drop start) := by
  rw [decodeTypedef_panics_iff hstart]
  have hsuffix {site : Site}
      (h : BodyChild registry g levels typedef.ty (data.bytes.drop start) site) :
      site.bytes <:+ data.bytes := h.suffix.trans (List.drop_suffix ..)
  constructor
  · rintro ⟨site, hbody, hp⟩
    exact ⟨site, hbody, (sitePanics_iff_hits (hsuffix hbody)).mp hp⟩
  · rintro ⟨site, hbody, hp⟩
    exact ⟨site, hbody, (sitePanics_iff_hits (hsuffix hbody)).mpr hp⟩

end Panics

end Solarix.Decoder
