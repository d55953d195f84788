import Mathlib.Logic.Relation
import Solarix.Decoder.Sound

/-!
# The moves of the decoder

The decoder follows the layout of the type through the data.  `Child` is one move of it, from a
value to a value inside that it starts to decode.
-/

namespace Solarix.Decoder

open Solarix.Core
open BorshValue (encode encodeAll encodeAll_eq_flatMap render)

/-- A call of `decode_type`: the bindings in scope, the levels left, the type and
the bytes from the offset on. -/
structure Site where
  generics : Generics
  levels : Nat
  ty : IdlType
  bytes : List UInt8

/-- A field, or an aliased type, of a definition's body that is decoded after the
fields before it. -/
inductive BodyChild (registry : TypeRegistry) (g : Generics) (levels : Nat) :
    IdlTypeDefTy → List UInt8 → Site → Prop where
  | struct {fields : Option IdlDefinedFields} {done rest : List IdlType} {ty : IdlType}
      {xs : List BorshValue} {bs : List UInt8}
      (split : fieldTypes fields = done ++ ty :: rest)
      (before : List.Forall₂ (Within registry g levels) done xs) :
      BodyChild registry g levels (.struct fields) (encodeAll xs ++ bs) ⟨g, levels, ty, bs⟩
  | enum {variants : List IdlEnumVariant} {tag : UInt8} {variant : IdlEnumVariant}
      {done rest : List IdlType} {ty : IdlType} {xs : List BorshValue} {bs : List UInt8}
      (found : variants[tag.toNat]? = some variant)
      (split : fieldTypes variant.fields = done ++ ty :: rest)
      (before : List.Forall₂ (Within registry g levels) done xs) :
      BodyChild registry g levels (.enum variants) (tag :: (encodeAll xs ++ bs))
        ⟨g, levels, ty, bs⟩
  | type (aliased : IdlType) (bs : List UInt8) :
      BodyChild registry g levels (.type aliased) bs ⟨g, levels, aliased, bs⟩

inductive Child (registry : TypeRegistry) : Site → Site → Prop where
  | option (g : Generics) (levels : Nat) (inner : IdlType) (bs : List UInt8) :
      Child registry ⟨g, levels + 1, .option inner, 1 :: bs⟩ ⟨g, levels, inner, bs⟩
  | vec {g : Generics} {levels : Nat} {inner : IdlType} {count : Nat}
      {xs : List BorshValue} {bs : List UInt8} (small : count < 256 ^ 4)
      (more : xs.length < count) (before : ∀ x ∈ xs, Within registry g levels inner x) :
      Child registry
        ⟨g, levels + 1, .vec inner, leBytes 4 count ++ (encodeAll xs ++ bs)⟩
        ⟨g, levels, inner, bs⟩
  | array {g : Generics} {levels : Nat} {inner : IdlType} {count : Nat}
      {xs : List BorshValue} {bs : List UInt8} (fits : count * valueSize ≤ isizeMax)
      (more : xs.length < count) (before : ∀ x ∈ xs, Within registry g levels inner x) :
      Child registry ⟨g, levels + 1, .array inner (.value count), encodeAll xs ++ bs⟩
        ⟨g, levels, inner, bs⟩
  | coption {g : Generics} {levels : Nat} {inner : IdlType} {args : List IdlGenericArg}
      {size : Nat} {bs : List UInt8} (sized : fixedSize registry inner = some size)
      (fits : 4 + size ≤ usizeMax) :
      Child registry
        ⟨g, levels + 1, .defined "COption" (.type inner :: args), leBytes 4 1 ++ bs⟩
        ⟨g, levels, inner, bs⟩
  | defined {g : Generics} {levels : Nat} {name : String} {args : List IdlGenericArg}
      {typedef : IdlTypeDef} {bs : List UInt8} {site : Site} (notCoption : name ≠ "COption")
      (resolved : registry.types name = some typedef)
      (borsh : typedef.serialization = .borsh)
      (body : BodyChild registry (bindGenerics g typedef.generics args) (levels - 1)
        typedef.ty bs site) :
      Child registry ⟨g, levels + 1, .defined name args, bs⟩ site
  | generic {g : Generics} {levels : Nat} {name : String} {ty : IdlType}
      {bs : List UInt8} (bound : g name = some ty) :
      Child registry ⟨g, levels + 1, .generic name, bs⟩ ⟨g, levels, ty, bs⟩

section Measure

variable {registry : TypeRegistry}

theorem BodyChild.levels_eq {g : Generics} {levels : Nat} {body : IdlTypeDefTy}
    {bs : List UInt8} {site : Site} (h : BodyChild registry g levels body bs site) :
    site.levels = levels := by
  cases h <;> rfl

theorem Child.levels_lt {site next : Site} (h : Child registry site next) :
    next.levels < site.levels := by
  cases h with
  | defined _ _ _ body =>
      rw [body.levels_eq]
      simp only
      omega
  | option | vec | array | coption | generic => exact Nat.lt_succ_self _

theorem BodyChild.suffix {g : Generics} {levels : Nat} {body : IdlTypeDefTy}
    {bs : List UInt8} {site : Site} (h : BodyChild registry g levels body bs site) :
    site.bytes <:+ bs := by
  cases h with
  | struct => exact List.suffix_append ..
  | enum => exact (List.suffix_append ..).trans (List.suffix_cons ..)
  | type => exact List.suffix_rfl

theorem Child.suffix {site next : Site} (h : Child registry site next) :
    next.bytes <:+ site.bytes := by
  cases h with
  | option => exact List.suffix_cons ..
  | vec => exact (List.suffix_append ..).trans (List.suffix_append ..)
  | array => exact List.suffix_append ..
  | coption => exact List.suffix_append ..
  | defined _ _ _ body => exact body.suffix
  | generic => exact List.suffix_rfl

end Measure

/-! ## A move is made -/

section Pass

variable {env : Externs} {registry : TypeRegistry} {data : DataSlice}

def PassesThrough (env : Externs) (registry : TypeRegistry) (data : DataSlice) {α : Type}
    (x : Result α) (site : Site) : Prop :=
  ∃ start ≤ data.len, data.bytes.drop start = site.bytes ∧ ∃ f,
    x = decodeTypeAt env registry data site.levels site.generics site.ty start >>= f

theorem PassesThrough.bind {α β : Type} {x : Result α} {site : Site}
    (h : PassesThrough env registry data x site) (k : α → Result β) :
    PassesThrough env registry data (x >>= k) site := by
  obtain ⟨start, hstart, hbytes, f, rfl⟩ := h
  exact ⟨start, hstart, hbytes, _, bind_assoc _ f k⟩

variable {levels : Nat} {g : Generics} {ty : IdlType} {start : Nat}

theorem passesThrough_after {bs rest : List UInt8} (hstart : start ≤ data.len)
    (hdrop : data.bytes.drop start = bs ++ rest) :
    PassesThrough env registry data (decodeTypeAt env registry data levels g ty (start + bs.length))
      ⟨g, levels, ty, rest⟩ := by
  obtain ⟨hat, hrest⟩ := DataSlice.at_of_drop_eq hstart hdrop
  exact ⟨start + bs.length, hat.add_length_le, hrest.symm, .ok, (bind_pure _).symm⟩

theorem passesThrough_fields {done rest : List IdlType} {xs : List BorshValue} {bs : List UInt8}
    (before : List.Forall₂ (Within registry g levels) done xs) {consumed : Nat}
    (hstart : start + consumed ≤ data.len)
    (hdrop : data.bytes.drop (start + consumed) = encodeAll xs ++ bs) :
    PassesThrough env registry data
      (readEach (decodeTypeAt env registry data levels g) (done ++ ty :: rest) start consumed)
      ⟨g, levels, ty, bs⟩ := by
  have hreads : List.Forall₂ (fun ty x =>
      ReadsValue env data (decodeTypeAt env registry data levels g ty) x) done xs :=
    before.imp fun _ _ h => decodeTypeAt_complete h
  obtain ⟨hat, hrest⟩ := DataSlice.at_of_drop_eq hstart hdrop
  rw [encodeAll_eq_flatMap] at hat hrest
  obtain ⟨f, hf⟩ := readEach_append_cons hreads hat ty rest
  exact ⟨_, hat.add_length_le, hrest.symm, f, hf⟩

theorem passesThrough_named {fields : List IdlField} {done rest : List IdlType}
    {xs : List BorshValue} {bs : List UInt8}
    (split : fields.map IdlField.ty = done ++ ty :: rest)
    (before : List.Forall₂ (Within registry g levels) done xs) {consumed : Nat}
    (hstart : start + consumed ≤ data.len)
    (hdrop : data.bytes.drop (start + consumed) = encodeAll xs ++ bs) :
    PassesThrough env registry data
      (decodeNamed (decodeTypeAt env registry data levels g) fields start consumed)
      ⟨g, levels, ty, bs⟩ := by
  unfold decodeNamed
  rw [readEach_map (decodeTypeAt env registry data levels g), split]
  exact (passesThrough_fields before hstart hdrop).bind _

theorem passesThrough_structFields {fields : Option IdlDefinedFields} {done rest : List IdlType}
    {xs : List BorshValue} {bs : List UInt8} (split : fieldTypes fields = done ++ ty :: rest)
    (before : List.Forall₂ (Within registry g levels) done xs) (hstart : start ≤ data.len)
    (hdrop : data.bytes.drop start = encodeAll xs ++ bs) :
    PassesThrough env registry data
      (decodeStructFields (decodeTypeAt env registry data levels g) fields start)
      ⟨g, levels, ty, bs⟩ := by
  match fields with
  | none => simp [fieldTypes] at split
  | some (.named fields) => exact passesThrough_named split before hstart hdrop
  | some (.tuple types) =>
      simp only [fieldTypes] at split
      subst split
      have hstart' : start + 0 ≤ data.len := hstart
      exact (passesThrough_fields before hstart' hdrop).bind _

theorem passesThrough_payload {fields : Option IdlDefinedFields} {done rest : List IdlType}
    {xs : List BorshValue} {bs : List UInt8} (split : fieldTypes fields = done ++ ty :: rest)
    (before : List.Forall₂ (Within registry g levels) done xs) {consumed : Nat}
    (hstart : start + consumed ≤ data.len)
    (hdrop : data.bytes.drop (start + consumed) = encodeAll xs ++ bs) :
    PassesThrough env registry data
      (decodePayload (decodeTypeAt env registry data levels g) fields start consumed)
      ⟨g, levels, ty, bs⟩ := by
  have htuple {types : List IdlType} (split : types = done ++ ty :: rest) :
      PassesThrough env registry data
        (decodeTuple (decodeTypeAt env registry data levels g) types start consumed)
        ⟨g, levels, ty, bs⟩ := by
    subst split
    exact (passesThrough_fields before hstart hdrop).bind _
  match fields with
  | none => simp [fieldTypes] at split
  | some (.named fields) => exact passesThrough_named split before hstart hdrop
  | some (.tuple []) => exact htuple split
  | some (.tuple (_ :: _ :: _)) => exact htuple split
  | some (.tuple [field]) =>
      have hmax := data.len_lt_usizeMax
      obtain ⟨rfl, rfl, _⟩ : done = [] ∧ field = ty ∧ rest = [] := by
        cases done with
        | nil => simpa [fieldTypes] using split
        | cons _ done => simp [fieldTypes] at split
      cases before
      simp only [decodePayload]
      rw [addUsize_of_le (by omega), Outcome.ok_bind]
      have hbytes : data.bytes.drop (start + consumed) = [] ++ bs := hdrop
      exact (passesThrough_after hstart hbytes).bind _

theorem index_of_drop_eq {tag : UInt8} {bs : List UInt8}
    (hstart : start ≤ data.len) (hdrop : data.bytes.drop start = tag :: bs) :
    ensureBytes data start 1 = .ok () ∧ (data.index start : Result UInt8) = .ok tag := by
  have hat := (DataSlice.at_of_drop_eq hstart (show _ = [tag] ++ bs from hdrop)).1
  exact ⟨ensureBytes_of_at hat, hat.index⟩

theorem readLe_of_drop_eq {size n : Nat} {bs : List UInt8} (hn : n < 256 ^ size)
    (hstart : start ≤ data.len) (hdrop : data.bytes.drop start = leBytes size n ++ bs) :
    readLe data size start = .ok (n, size) :=
  readLe_of_at (DataSlice.at_of_drop_eq hstart hdrop).1 (length_leBytes ..)
    (leNat_leBytes hn)

theorem passesThrough_typedef {typedef : IdlTypeDef} {site : Site} (hstart : start ≤ data.len)
    (h : BodyChild registry g levels typedef.ty (data.bytes.drop start) site) :
    PassesThrough env registry data
      (decodeTypedef data (decodeTypeAt env registry data levels g) typedef start) site := by
  unfold decodeTypedef
  generalize typedef.ty = body at h ⊢
  generalize hdrop : data.bytes.drop start = bytes at h
  cases h with
  | struct split before => exact passesThrough_structFields split before hstart hdrop
  | @enum _ tag variant done rest ty xs bs found split before =>
      obtain ⟨hensure, hindex⟩ := index_of_drop_eq hstart hdrop
      obtain ⟨hat, hrest⟩ :=
        DataSlice.at_of_drop_eq hstart (show _ = [tag] ++ (encodeAll xs ++ bs) from hdrop)
      simp only
      rw [hensure, Outcome.ok_bind, hindex, Outcome.ok_bind]
      simp only [found]
      exact (passesThrough_payload split before hat.add_length_le hrest.symm).bind _
  | type => exact ⟨start, hstart, hdrop, .ok, (bind_pure _).symm⟩

theorem passesThrough_items {inner : IdlType} {count : Nat} {xs : List BorshValue}
    {bs : List UInt8} (more : xs.length < count)
    (before : ∀ x ∈ xs, Within registry g levels inner x) {consumed : Nat}
    (hstart : start + consumed ≤ data.len)
    (hdrop : data.bytes.drop (start + consumed) = encodeAll xs ++ bs) :
    PassesThrough env registry data
      (readEach (fun _ : Unit => decodeTypeAt env registry data levels g inner)
        (List.replicate count ()) start consumed) ⟨g, levels, inner, bs⟩ := by
  have hsplit : List.replicate count inner =
      List.replicate xs.length inner ++ inner :: List.replicate (count - xs.length - 1) inner := by
    rw [← List.replicate_succ, List.replicate_append_replicate]
    congr 1
    omega
  have hdone : List.Forall₂ (Within registry g levels) (List.replicate xs.length inner) xs := by
    have hunits := forall₂_replicate before
    rw [← List.map_replicate (f := fun _ : Unit => inner) (a := ())]
    exact List.forall₂_map_left_iff.mpr hunits
  rw [readEach_map (decodeTypeAt env registry data levels g) (fun _ : Unit => inner),
    List.map_replicate, hsplit]
  exact passesThrough_fields hdone hstart hdrop

/-- The decoder at a site that it can leave goes on with what it decodes at the next. -/
theorem passesThrough_child {site next : Site} (h : Child registry site next)
    (hstart : start ≤ data.len) (hdrop : data.bytes.drop start = site.bytes) :
    PassesThrough env registry data
      (decodeTypeAt env registry data site.levels site.generics site.ty start) next := by
  have hmax := data.len_lt_usizeMax
  cases h with
  | option g levels inner bs =>
      have hdrop' : data.bytes.drop start = [1] ++ bs := hdrop
      have hle : start + 1 ≤ data.len :=
        (DataSlice.at_of_drop_eq hstart hdrop').1.add_length_le
      obtain ⟨hensure, hindex⟩ := index_of_drop_eq hstart hdrop
      simp only [decodeTypeAt_succ, decodeStep]
      rw [hensure, Outcome.ok_bind, hindex, Outcome.ok_bind, if_neg (by decide), if_pos rfl,
        addUsize_of_le (by omega), Outcome.ok_bind]
      exact (passesThrough_after hstart hdrop').bind _
  | @vec g levels inner count xs bs small more before =>
      obtain ⟨hat, hrest⟩ := DataSlice.at_of_drop_eq hstart hdrop
      have hle := hat.add_length_le
      rw [length_leBytes] at hle hrest
      simp only [decodeTypeAt_succ, decodeStep]
      rw [readLe_of_drop_eq small hstart hdrop, Outcome.ok_bind]
      simp only [withCapacity_hint, Outcome.ok_bind]
      exact (passesThrough_items more before hle hrest.symm).bind _
  | @array g levels inner count xs bs fits more before =>
      simp only [decodeTypeAt_succ, decodeStep, resolveArrayLen, Outcome.ok_bind]
      rw [withCapacity_of_le fits, Outcome.ok_bind]
      have hstart' : start + 0 ≤ data.len := hstart
      exact (passesThrough_items more before hstart' hdrop).bind _
  | @coption g levels inner args size bs sized fits =>
      have hle := (DataSlice.at_of_drop_eq hstart hdrop).1.add_length_le
      rw [length_leBytes] at hle
      simp only [decodeTypeAt_succ, decodeStep, decodeCoption, if_true, List.head?_cons, sized]
      rw [readLe_of_drop_eq (by decide) hstart hdrop, Outcome.ok_bind]
      simp only
      rw [addUsize_of_le fits, Outcome.ok_bind, if_neg (by decide), if_pos trivial,
        addUsize_of_le (by omega), Outcome.ok_bind]
      have hafter := @passesThrough_after env registry data levels g inner start _ _ hstart hdrop
      rw [length_leBytes] at hafter
      exact hafter.bind _
  | defined notCoption resolved borsh body =>
      simp only [decodeTypeAt_succ, decodeStep, if_neg notCoption]
      rw [TypeRegistry.resolve_eq_ok.mpr resolved, Outcome.ok_bind,
        (checkSerialization_eq_ok (u := ())).mpr borsh, Outcome.ok_bind]
      exact passesThrough_typedef hstart (hdrop ▸ body)
  | generic bound =>
      simp only [decodeTypeAt_succ, decodeStep, bound]
      exact ⟨start, hstart, hdrop, .ok, (bind_pure _).symm⟩

end Pass

end Solarix.Decoder
