import Solarix.Decoder.Layout

/-!
# Definitions that are decoded alike

Two definitions of the same shape give the same decoder when the types at the same places
do.  Everything that compares two decoders over two registries goes through these lemmas.
-/

namespace Solarix.Decoder

open Solarix.Core

def bodyTypes : IdlTypeDefTy → List IdlType
  | .struct fields => fieldTypes fields
  | .enum variants => variants.flatMap fun variant => fieldTypes variant.fields
  | .type aliased => [aliased]

section Same

variable (R : IdlType → IdlType → Prop)

def SameFields : Option IdlDefinedFields → Option IdlDefinedFields → Prop
  | none, none => True
  | some (.named fields), some (.named fields') =>
      List.Forall₂ (fun field field' => field.name = field'.name ∧ R field.ty field'.ty)
        fields fields'
  | some (.tuple types), some (.tuple types') => List.Forall₂ R types types'
  | _, _ => False

def SameBody : IdlTypeDefTy → IdlTypeDefTy → Prop
  | .struct fields, .struct fields' => SameFields R fields fields'
  | .enum variants, .enum variants' =>
      List.Forall₂ (fun variant variant' => variant.name = variant'.name ∧
        SameFields R variant.fields variant'.fields) variants variants'
  | .type aliased, .type aliased' => R aliased aliased'
  | _, _ => False

end Same

section Same

variable {R Q : IdlType → IdlType → Prop}

theorem forall₂_imp_mem {α β : Type} {P Q : α → β → Prop} {as : List α} {bs : List β}
    (himp : ∀ a ∈ as, ∀ b, P a b → Q a b) (h : List.Forall₂ P as bs) : List.Forall₂ Q as bs := by
  induction h with
  | nil => exact .nil
  | cons hab _ ih =>
      rw [List.forall_mem_cons] at himp
      exact .cons (himp.1 _ hab) (ih himp.2)

theorem sameFields_refl {fields : Option IdlDefinedFields}
    (h : ∀ ty ∈ fieldTypes fields, R ty ty) : SameFields R fields fields := by
  match fields with
  | none => trivial
  | some (.named fields) =>
      refine List.forall₂_same.mpr fun field hfield => ?_
      exact ⟨rfl, h field.ty (List.mem_map_of_mem hfield)⟩
  | some (.tuple types) => exact List.forall₂_same.mpr h

theorem sameBody_refl {body : IdlTypeDefTy} (h : ∀ ty ∈ bodyTypes body, R ty ty) :
    SameBody R body body := by
  match body with
  | .struct fields => exact sameFields_refl h
  | .enum variants =>
      refine List.forall₂_same.mpr fun variant hvariant => ⟨rfl, sameFields_refl fun ty hty => ?_⟩
      exact h ty (List.mem_flatMap.mpr ⟨variant, hvariant, hty⟩)
  | .type aliased => exact h aliased (by simp [bodyTypes])

theorem sameFields_imp {fields fields' : Option IdlDefinedFields}
    (himp : ∀ ty ∈ fieldTypes fields, ∀ ty', R ty ty' → Q ty ty')
    (h : SameFields R fields fields') : SameFields Q fields fields' := by
  match fields, fields' with
  | none, none => trivial
  | some (.named fields), some (.named fields') =>
      refine forall₂_imp_mem (fun field hfield field' hsame => ?_) h
      exact ⟨hsame.1, himp field.ty (List.mem_map_of_mem hfield) field'.ty hsame.2⟩
  | some (.tuple types), some (.tuple types') => exact forall₂_imp_mem himp h

theorem sameBody_imp {body body' : IdlTypeDefTy}
    (himp : ∀ ty ∈ bodyTypes body, ∀ ty', R ty ty' → Q ty ty')
    (h : SameBody R body body') : SameBody Q body body' := by
  match body, body' with
  | .struct fields, .struct fields' => exact sameFields_imp himp h
  | .enum variants, .enum variants' =>
      refine forall₂_imp_mem (fun variant hvariant variant' hsame => ⟨hsame.1, ?_⟩) h
      refine sameFields_imp (fun ty hty => himp ty ?_) hsame.2
      exact List.mem_flatMap.mpr ⟨variant, hvariant, hty⟩
  | .type aliased, .type aliased' => exact himp aliased (by simp [bodyTypes]) aliased' h

end Same

/-! ## Decoders -/

section Decode

variable {data : DataSlice} {decode decode' : IdlType → Reader DecodeError Json}
  {R : IdlType → IdlType → Prop}

/-- The two types are decoded alike. -/
def Alike (decode decode' : IdlType → Reader DecodeError Json) (ty ty' : IdlType) : Prop :=
  decode ty = decode' ty'

/-- Types that are decoded one after another are decoded as those that `R` relates to them, each
at the place where the loop comes to it. -/
def AlikeFrom (decode decode' : IdlType → Reader DecodeError Json) (R : IdlType → IdlType → Prop)
    (types : List IdlType) (offset consumed : Nat) : Prop :=
  ∀ done ty rest vals total, types = done ++ ty :: rest →
    readEach decode done offset consumed = .ok (vals, total) → ∀ ty', R ty ty' →
      decode ty (offset + total) = decode' ty' (offset + total)

def BodyAlikeAt (data : DataSlice) (decode decode' : IdlType → Reader DecodeError Json)
    (R : IdlType → IdlType → Prop) (offset : Nat) : IdlTypeDefTy → Prop
  | .struct fields => AlikeFrom decode decode' R (fieldTypes fields) offset 0
  | .enum variants => ∀ tag variant, ensureBytes data offset 1 = .ok () →
      data.index offset = (.ok tag : Result UInt8) → variants[tag.toNat]? = some variant →
      AlikeFrom decode decode' R (fieldTypes variant.fields) offset 1
  | .type aliased => ∀ ty', R aliased ty' → decode aliased offset = decode' ty' offset

theorem alikeFrom_alike (types : List IdlType) (offset consumed : Nat) :
    AlikeFrom decode decode' (Alike decode decode') types offset consumed :=
  fun _ _ _ _ _ _ _ _ halike => congrFun halike _

theorem bodyAlikeAt_alike (offset : Nat) (body : IdlTypeDefTy) :
    BodyAlikeAt data decode decode' (Alike decode decode') offset body := by
  cases body with
  | struct fields => exact alikeFrom_alike _ offset 0
  | enum variants => exact fun _ variant _ _ _ => alikeFrom_alike _ offset 1
  | type aliased => exact fun _ halike => congrFun halike offset

theorem decodeTuple_same {types types' : List IdlType} (h : List.Forall₂ R types types')
    {offset consumed : Nat} (hat : AlikeFrom decode decode' R types offset consumed) :
    decodeTuple decode types offset consumed = decodeTuple decode' types' offset consumed := by
  unfold decodeTuple
  rw [readEach_congr h hat]

theorem decodeNamed_same {fields fields' : List IdlField}
    (h : SameFields R (some (.named fields)) (some (.named fields'))) {offset consumed : Nat}
    (hat : AlikeFrom decode decode' R (fields.map IdlField.ty) offset consumed) :
    decodeNamed decode fields offset consumed = decodeNamed decode' fields' offset consumed := by
  have hnames : fields.map IdlField.name = fields'.map IdlField.name := by
    rw [← List.forall₂_eq_eq_eq, List.forall₂_map_left_iff, List.forall₂_map_right_iff]
    exact List.Forall₂.imp (fun _ _ hfield => hfield.1) h
  have htypes : List.Forall₂ R (fields.map IdlField.ty) (fields'.map IdlField.ty) := by
    rw [List.forall₂_map_left_iff, List.forall₂_map_right_iff]
    exact List.Forall₂.imp (fun _ _ hfield => hfield.2) h
  unfold decodeNamed
  rw [readEach_map decode, readEach_map decode', hnames, readEach_congr htypes hat]

theorem decodeStructFields_same {fields fields' : Option IdlDefinedFields}
    (h : SameFields R fields fields') {offset : Nat}
    (hat : AlikeFrom decode decode' R (fieldTypes fields) offset 0) :
    decodeStructFields decode fields offset = decodeStructFields decode' fields' offset := by
  match fields, fields' with
  | none, none => rfl
  | some (.named _), some (.named _) => exact decodeNamed_same h hat
  | some (.tuple _), some (.tuple _) => exact decodeTuple_same h hat

theorem decodePayload_same {fields fields' : Option IdlDefinedFields}
    (h : SameFields R fields fields') {offset consumed : Nat}
    (hat : AlikeFrom decode decode' R (fieldTypes fields) offset consumed) :
    decodePayload decode fields offset consumed =
      decodePayload decode' fields' offset consumed := by
  match fields, fields' with
  | none, none => rfl
  | some (.named _), some (.named _) => exact decodeNamed_same h hat
  | some (.tuple types), some (.tuple types') =>
      -- A tuple of one field has an arm of its own.
      cases h with
      | nil => exact decodeTuple_same .nil hat
      | @cons ty _ _ _ hty hrest =>
          cases hrest with
          | nil =>
              simp only [decodePayload]
              refine Outcome.bind_congr fun start hstart => ?_
              obtain ⟨_, rfl⟩ := addUsize_eq_ok.mp hstart
              rw [hat [] ty [] [] consumed rfl rfl _ hty]
          | cons hty' hrest => exact decodeTuple_same (.cons hty (.cons hty' hrest)) hat

theorem forall₂_getElem? {α β : Type} {R : α → β → Prop} {as : List α} {bs : List β}
    (h : List.Forall₂ R as bs) (i : Nat) :
    (as[i]? = none ∧ bs[i]? = none) ∨ ∃ a b, as[i]? = some a ∧ bs[i]? = some b ∧ R a b := by
  induction h generalizing i with
  | nil => simp
  | @cons a b as bs hab _ ih =>
      cases i with
      | zero => exact .inr ⟨a, b, rfl, rfl, hab⟩
      | succ i => simpa using ih i

theorem decodeTypedef_same {typedef typedef' : IdlTypeDef}
    (h : SameBody R typedef.ty typedef'.ty) {offset : Nat}
    (hat : BodyAlikeAt data decode decode' R offset typedef.ty) :
    decodeTypedef data decode typedef offset = decodeTypedef data decode' typedef' offset := by
  unfold decodeTypedef
  generalize typedef.ty = body at h hat ⊢
  generalize typedef'.ty = body' at h ⊢
  match body, body' with
  | .struct _, .struct _ => exact decodeStructFields_same h hat
  | .type _, .type _ => exact hat _ h
  | .enum variants, .enum variants' =>
      simp only
      refine Outcome.bind_congr fun _ hensure => ?_
      refine Outcome.bind_congr fun tag htag => ?_
      rcases forall₂_getElem? h tag.toNat with ⟨hnone, hnone'⟩ | ⟨a, b, ha, hb, hname, hfields⟩
      · rw [hnone, hnone', List.Forall₂.length_eq h]
      · simp only [ha, hb, hname, decodePayload_same hfields (hat tag a hensure htag ha)]

end Decode

/-! ## Sizes -/

theorem sumSizes_same {size size' : IdlType → Option Nat} {types types' : List IdlType}
    (h : List.Forall₂ (fun ty ty' => size ty = size' ty') types types') (total : Nat) :
    sumSizes size total types = sumSizes size' total types' := by
  induction h generalizing total with
  | nil => rfl
  | cons hty _ ih =>
      simp only [sumSizes, hty]
      apply Option.bind_congr
      intro s _
      apply Option.bind_congr
      intro total _
      exact ih total

def bodySize (size : IdlType → Option Nat) : IdlTypeDefTy → Option Nat
  | .struct (some (.named fields)) => sumSizes size 0 (fields.map IdlField.ty)
  | .struct (some (.tuple types)) => sumSizes size 0 types
  | .type aliased => size aliased
  | _ => none

theorem fixedSizeStep_defined {registry : TypeRegistry} {size : IdlType → Option Nat}
    {name : String} (hname : name ≠ "COption") (args : List IdlGenericArg) :
    fixedSizeStep registry size (.defined name args) =
      (registry.types name).bind fun typedef => bodySize size typedef.ty := by
  simp only [fixedSizeStep, if_neg hname]
  rfl

theorem bodySize_same {size size' : IdlType → Option Nat} {body body' : IdlTypeDefTy}
    (h : SameBody (fun ty ty' => size ty = size' ty') body body') :
    bodySize size body = bodySize size' body' := by
  match body, body' with
  | .struct none, .struct none => rfl
  | .struct (some (.named fields)), .struct (some (.named fields')) =>
      refine sumSizes_same ?_ 0
      rw [List.forall₂_map_left_iff, List.forall₂_map_right_iff]
      exact List.Forall₂.imp (fun _ _ hfield => hfield.2) h
  | .struct (some (.tuple _)), .struct (some (.tuple _)) => exact sumSizes_same h 0
  | .type _, .type _ => exact h
  | .enum _, .enum _ => rfl

end Solarix.Decoder
