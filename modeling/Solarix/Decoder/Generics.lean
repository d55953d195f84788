import Solarix.Decoder.Alike

/-!
# Generic definitions

A definition with type parameters stands for its instances: the bodies with the arguments
put in place of the parameters.  The monomorphic form of a type has every definition replaced
by its instance.
-/

namespace Solarix.Decoder

open Solarix.Core

/-! ## Substitution -/

mutual

def subst (σ : Generics) : IdlType → IdlType
  | .option inner => .option (subst σ inner)
  | .vec inner => .vec (subst σ inner)
  | .array inner len => .array (subst σ inner) len
  | .defined name args => .defined name (substArgs σ args)
  | .generic name => (σ name).getD (.generic name)
  | ty => ty

def substArgs (σ : Generics) : List IdlGenericArg → List IdlGenericArg
  | [] => []
  | .type ty :: args => .type (subst σ ty) :: substArgs σ args
  | .const value :: args => .const value :: substArgs σ args

end

mutual

theorem subst_empty (ty : IdlType) : subst Generics.empty ty = ty := by
  match ty with
  | .option inner => rw [subst, subst_empty inner]
  | .vec inner => rw [subst, subst_empty inner]
  | .array inner len => rw [subst, subst_empty inner]
  | .defined name args => rw [subst, substArgs_empty args]
  | .generic name => rfl
  | .bool | .int _ | .f32 | .f64 | .u256 | .i256 | .bytes | .string | .pubkey => rfl

theorem substArgs_empty (args : List IdlGenericArg) : substArgs Generics.empty args = args := by
  match args with
  | [] => rfl
  | .type ty :: args => rw [substArgs, subst_empty ty, substArgs_empty args]
  | .const value :: args => rw [substArgs, substArgs_empty args]

end

def substFields (σ : Generics) : Option IdlDefinedFields → Option IdlDefinedFields
  | none => none
  | some (.named fields) =>
      some (.named (fields.map fun field => ⟨field.name, subst σ field.ty⟩))
  | some (.tuple types) => some (.tuple (types.map (subst σ)))

def substBody (σ : Generics) : IdlTypeDefTy → IdlTypeDefTy
  | .struct fields => .struct (substFields σ fields)
  | .enum variants =>
      .enum (variants.map fun variant => ⟨variant.name, substFields σ variant.fields⟩)
  | .type aliased => .type (subst σ aliased)

def instanceBody (typedef : IdlTypeDef) (args : List IdlGenericArg) : IdlTypeDefTy :=
  substBody (bindGenerics Generics.empty typedef.generics args) typedef.ty

/-! ## Monomorphic types -/

def isLeaf : IdlType → Bool
  | .bool | .int _ | .f32 | .f64 | .u256 | .i256 | .string | .bytes | .pubkey => true
  | _ => false

def MonoStep (registry registry' : TypeRegistry) (below belowDefined : IdlType → IdlType → Prop) :
    IdlType → IdlType → Prop
  | .option inner, .option inner' => below inner inner'
  | .vec inner, .vec inner' => below inner inner'
  | .array inner (.value n), .array inner' (.value n') => n = n' ∧ below inner inner'
  | .defined name args, .defined name' args' =>
      if name = "COption" then
        name' = "COption" ∧ ∃ inner inner', args.head? = some (.type inner) ∧
          args'.head? = some (.type inner') ∧ below inner inner'
      else
        name' ≠ "COption" ∧ ∃ typedef typedef', registry.types name = some typedef ∧
          registry'.types name' = some typedef' ∧
          typedef'.serialization = typedef.serialization ∧
          SameBody belowDefined (instanceBody typedef args) typedef'.ty
  | ty, ty' => isLeaf ty = true ∧ ty' = ty

/-- The second type, over the second registry, is the first type with every definition
replaced by its instance.  It is finite and within `levels` calls of nesting, and no
parameter occurs in it. -/
def MonoAt (registry registry' : TypeRegistry) : Nat → IdlType → IdlType → Prop
  | 0 => fun _ _ => False
  | levels + 1 =>
      MonoStep registry registry' (MonoAt registry registry' levels)
        (match levels with
          | 0 => fun _ _ => False
          | levels + 1 => MonoAt registry registry' levels)

theorem monoAt_succ {registry registry' : TypeRegistry} (levels : Nat) :
    MonoAt registry registry' (levels + 1) =
      MonoStep registry registry' (MonoAt registry registry' levels)
        (MonoAt registry registry' (levels - 1)) := by
  cases levels <;> rfl

def Monomorphises (registry registry' : TypeRegistry) (ty ty' : IdlType) : Prop :=
  MonoAt registry registry' (maxDecodeDepth + 1) ty ty'

def instanceSizeStep (registry : TypeRegistry) (size : IdlType → Option Nat) (ty : IdlType) :
    Option Nat :=
  match ty with
  | .defined _ args =>
      fixedSizeStep
        ⟨fun name => (registry.types name).map fun typedef =>
          { typedef with ty := instanceBody typedef args }⟩ size ty
  | _ => fixedSizeStep registry size ty

/-- The static size of a closed type, counted over the instances of its definitions. -/
def instanceSizeAt (registry : TypeRegistry) : Nat → IdlType → Option Nat
  | 0 => fun _ => none
  | levels + 1 => instanceSizeStep registry (instanceSizeAt registry levels)

def instanceSize (registry : TypeRegistry) (ty : IdlType) : Option Nat :=
  instanceSizeAt registry (maxDecodeDepth + 1) ty

/-! ## Bindings -/

/-- Bindings of parameters, the latest first.  The type that a parameter is bound to is kept
with the bindings that were visible where it is written. -/
inductive Scope where
  | empty
  | bind (name : String) (ty : IdlType) (scope rest : Scope)

namespace Scope

def find? (name : String) : Scope → Option (IdlType × Scope)
  | .empty => none
  | .bind bound ty scope rest => if name = bound then some (ty, scope) else rest.find? name

/-- The map that the decoder keeps: the types as they are written. -/
def types (g : Scope) : Generics := fun name => (g.find? name).map Prod.fst

/-- What the parameters stand for: each type with its own bindings substituted. -/
def closed : Scope → Generics
  | .empty => Generics.empty
  | .bind bound ty scope rest => fun name =>
      if name = bound then some (subst scope.closed ty) else rest.closed name

/-- The parameters of a definition bound to arguments that are written in the scope
`caller`, over the bindings of `g`. -/
def bindAll (caller : Scope) : Scope → List IdlTypeDefGeneric → List IdlGenericArg → Scope
  | g, .type name :: defs, .type ty :: args => bindAll caller (.bind name ty caller g) defs args
  | g, _ :: defs, _ :: args => bindAll caller g defs args
  | g, _, _ => g

theorem types_bind (name : String) (ty : IdlType) (scope rest : Scope) :
    (Scope.bind name ty scope rest).types =
      fun n => if n = name then some ty else rest.types n := by
  funext n
  simp only [types, find?]
  split <;> rfl

theorem types_bindAll (caller g : Scope) (defs : List IdlTypeDefGeneric)
    (args : List IdlGenericArg) :
    (bindAll caller g defs args).types = bindGenerics g.types defs args := by
  induction defs generalizing g args with
  | nil => simp only [bindAll, bindGenerics]
  | cons d defs ih =>
      cases args with
      | nil => simp only [bindAll, bindGenerics]
      | cons a args => cases d <;> cases a <;> simp only [bindAll, bindGenerics, ih, types_bind]

theorem closed_bindAll (caller g : Scope) (defs : List IdlTypeDefGeneric)
    (args : List IdlGenericArg) :
    (bindAll caller g defs args).closed =
      bindGenerics g.closed defs (substArgs caller.closed args) := by
  induction defs generalizing g args with
  | nil => simp only [bindAll, bindGenerics]
  | cons d defs ih =>
      cases args with
      | nil => simp only [bindAll, substArgs, bindGenerics]
      | cons a args =>
          cases d <;> cases a <;> simp only [bindAll, substArgs, bindGenerics, ih, closed]

theorem closed_of_find? {g : Scope} {name : String} {ty : IdlType} {scope : Scope}
    (h : g.find? name = some (ty, scope)) : g.closed name = some (subst scope.closed ty) := by
  induction g with
  | empty => cases h
  | bind bound ty' scope' rest _ ih =>
      simp only [find?] at h
      simp only [closed]
      split at h
      · rename_i heq
        cases h
        rw [if_pos heq]
      · rename_i hne
        rw [if_neg hne]
        exact ih h

end Scope
/-! ## Forms and sizes -/

section Forms

variable {registry registry' : TypeRegistry}

theorem sameFields_of_subst {σ : Generics} {R : IdlType → IdlType → Prop}
    {fields fields' : Option IdlDefinedFields} (h : SameFields R (substFields σ fields) fields') :
    SameFields (fun ty ty' => R (subst σ ty) ty') fields fields' := by
  match fields, fields' with
  | none, none => trivial
  | some (.named fields), some (.named fields') =>
      simpa only [substFields, SameFields, List.forall₂_map_left_iff] using h
  | some (.tuple types), some (.tuple types') =>
      simpa only [substFields, SameFields, List.forall₂_map_left_iff] using h

theorem sameBody_of_subst {σ : Generics} {R : IdlType → IdlType → Prop}
    {body body' : IdlTypeDefTy} (h : SameBody R (substBody σ body) body') :
    SameBody (fun ty ty' => R (subst σ ty) ty') body body' := by
  match body, body' with
  | .struct fields, .struct fields' => exact sameFields_of_subst h
  | .enum variants, .enum variants' =>
      simp only [substBody, SameBody, List.forall₂_map_left_iff] at h
      exact List.Forall₂.imp (fun _ _ hsame => ⟨hsame.1, sameFields_of_subst hsame.2⟩) h
  | .type aliased, .type aliased' => exact h

theorem instanceSizeAt_eq {ty ty' : IdlType} {levels : Nat} (sizeLevels : Nat)
    (h : MonoAt registry registry' levels ty ty') :
    instanceSizeAt registry sizeLevels ty = fixedSizeAt registry' sizeLevels ty' := by
  induction sizeLevels generalizing levels ty ty' with
  | zero => rfl
  | succ sizeLevels ih =>
      cases levels with
      | zero => exact h.elim
      | succ levels =>
          rw [monoAt_succ] at h
          rw [instanceSizeAt, fixedSizeAt]
          unfold MonoStep at h
          split at h
          · rfl
          · rfl
          · obtain ⟨rfl, hinner⟩ := h
            simp only [instanceSizeStep, fixedSizeStep, ih hinner]
          · rename_i name args name' args'
            split at h
            · rename_i hname
              obtain ⟨rfl, inner, inner', hargs, hargs', hinner⟩ := h
              simp only [instanceSizeStep, fixedSizeStep, hname, if_true, hargs, hargs', ih hinner]
            · rename_i hname
              obtain ⟨hname', typedef, typedef', hresolved, hresolved', _, hbody⟩ := h
              simp only [instanceSizeStep]
              rw [fixedSizeStep_defined hname, fixedSizeStep_defined hname', hresolved']
              simp only [hresolved, Option.map_some, Option.bind_some]
              exact bodySize_same (sameBody_imp (fun ty _ ty' hty => ih hty) hbody)
          · obtain ⟨hleaf, rfl⟩ := h
            cases ty' <;> first | rfl | cases hleaf

theorem sumSizes_subst {σ : Generics} {size size' : IdlType → Option Nat}
    (hsize : ∀ ty n, size ty = some n → size' (subst σ ty) = some n) {types : List IdlType}
    {total n : Nat} (h : sumSizes size total types = some n) :
    sumSizes size' total (types.map (subst σ)) = some n := by
  induction types generalizing total with
  | nil => exact h
  | cons ty types ih =>
      obtain ⟨s, hs, h⟩ := Option.bind_eq_some_iff.mp h
      obtain ⟨total', htotal, h⟩ := Option.bind_eq_some_iff.mp h
      simp only [List.map_cons, sumSizes, hsize ty s hs, Option.bind_some, htotal, ih h]

theorem bodySize_subst {σ : Generics} {size size' : IdlType → Option Nat}
    (hsize : ∀ ty n, size ty = some n → size' (subst σ ty) = some n) {body : IdlTypeDefTy}
    {n : Nat} (h : bodySize size body = some n) : bodySize size' (substBody σ body) = some n := by
  match body with
  | .struct none => cases h
  | .struct (some (.named fields)) =>
      have hsum := sumSizes_subst hsize h
      simpa only [substBody, substFields, bodySize, List.map_map, Function.comp_def] using hsum
  | .struct (some (.tuple types)) => exact sumSizes_subst hsize h
  | .enum variants => cases h
  | .type aliased => exact hsize aliased n h

theorem instanceSizeAt_of_fixedSizeAt {σ : Generics} {ty : IdlType} {size : Nat} (levels : Nat)
    (h : fixedSizeAt registry levels ty = some size) :
    instanceSizeAt registry levels (subst σ ty) = some size := by
  induction levels generalizing σ ty size with
  | zero => cases h
  | succ levels ih =>
      rw [fixedSizeAt] at h
      rw [instanceSizeAt]
      cases ty with
      | option inner => cases h
      | vec inner => cases h
      | generic name => cases h
      | array inner len =>
          cases len with
          | generic name => cases h
          | value n =>
              obtain ⟨s, hs, hn⟩ := Option.bind_eq_some_iff.mp h
              simp only [subst, instanceSizeStep, fixedSizeStep, ih hs, Option.bind_some, hn]
      | defined name args =>
          simp only [subst, instanceSizeStep]
          by_cases hname : name = "COption"
          · subst hname
            simp only [fixedSizeStep, if_true] at h ⊢
            cases args with
            | nil => cases h
            | cons arg args =>
                cases arg with
                | const value => cases h
                | type inner =>
                    obtain ⟨s, hs, hn⟩ := Option.bind_eq_some_iff.mp h
                    simp only [substArgs, List.head?_cons, ih hs, Option.bind_some, hn]
          · rw [fixedSizeStep_defined hname] at h ⊢
            obtain ⟨typedef, hresolved, hbody⟩ := Option.bind_eq_some_iff.mp h
            simp only [hresolved, Option.map_some, Option.bind_some]
            exact bodySize_subst (fun ty n hty => ih hty) hbody
      | _ => exact h

/-! ### What a monomorphic form looks like -/

variable {levels : Nat} {inner ty' : IdlType}

theorem MonoAt.leaf {ty : IdlType} (hleaf : isLeaf ty = true)
    (h : MonoAt registry registry' levels ty ty') : (∃ k, levels = k + 1) ∧ ty' = ty := by
  cases levels with
  | zero => exact h.elim
  | succ levels =>
      rw [monoAt_succ] at h
      cases ty <;> first | exact ⟨⟨levels, rfl⟩, h.2⟩ | cases hleaf

theorem MonoAt.option (h : MonoAt registry registry' levels (.option inner) ty') :
    ∃ k inner', levels = k + 1 ∧ ty' = .option inner' ∧
      MonoAt registry registry' k inner inner' := by
  cases levels with
  | zero => exact h.elim
  | succ levels =>
      rw [monoAt_succ] at h
      cases ty' with
      | option inner' => exact ⟨levels, inner', rfl, rfl, h⟩
      | _ => exact absurd h.1 (by simp [isLeaf])

theorem MonoAt.vec (h : MonoAt registry registry' levels (.vec inner) ty') :
    ∃ k inner', levels = k + 1 ∧ ty' = .vec inner' ∧ MonoAt registry registry' k inner inner' := by
  cases levels with
  | zero => exact h.elim
  | succ levels =>
      rw [monoAt_succ] at h
      cases ty' with
      | vec inner' => exact ⟨levels, inner', rfl, rfl, h⟩
      | _ => exact absurd h.1 (by simp [isLeaf])

theorem MonoAt.array {len : IdlArrayLen}
    (h : MonoAt registry registry' levels (.array inner len) ty') :
    ∃ k inner', levels = k + 1 ∧ ty' = .array inner' len ∧
      MonoAt registry registry' k inner inner' := by
  cases levels with
  | zero => exact h.elim
  | succ levels =>
      rw [monoAt_succ] at h
      cases len with
      | generic name => exact absurd h.1 (by simp [isLeaf])
      | value n =>
          cases ty' with
          | array inner' len' =>
              cases len' with
              | generic name => exact absurd h.1 (by simp [isLeaf])
              | value n' =>
                  obtain ⟨rfl, hinner⟩ := h
                  exact ⟨levels, inner', rfl, rfl, hinner⟩
          | _ => exact absurd h.1 (by simp [isLeaf])

theorem MonoAt.coption {args : List IdlGenericArg}
    (h : MonoAt registry registry' levels (.defined "COption" args) ty') :
    ∃ k args' inner inner', levels = k + 1 ∧ ty' = .defined "COption" args' ∧
      args.head? = some (.type inner) ∧ args'.head? = some (.type inner') ∧
      MonoAt registry registry' k inner inner' := by
  cases levels with
  | zero => exact h.elim
  | succ levels =>
      rw [monoAt_succ] at h
      cases ty' with
      | defined name' args' =>
          obtain ⟨rfl, inner, inner', hargs, hargs', hinner⟩ := h
          exact ⟨levels, args', inner, inner', rfl, rfl, hargs, hargs', hinner⟩
      | _ => exact absurd h.1 (by simp [isLeaf])

theorem MonoAt.defined {name : String} {args : List IdlGenericArg} (hname : name ≠ "COption")
    (h : MonoAt registry registry' levels (.defined name args) ty') :
    ∃ k name' args' typedef typedef', levels = k + 1 ∧ ty' = .defined name' args' ∧
      name' ≠ "COption" ∧ registry.types name = some typedef ∧
      registry'.types name' = some typedef' ∧
      typedef'.serialization = typedef.serialization ∧
      SameBody (MonoAt registry registry' (k - 1)) (instanceBody typedef args) typedef'.ty := by
  cases levels with
  | zero => exact h.elim
  | succ levels =>
      rw [monoAt_succ] at h
      cases ty' with
      | defined name' args' =>
          simp only [MonoStep, if_neg hname] at h
          obtain ⟨hname', typedef, typedef', h⟩ := h
          exact ⟨levels, name', args', typedef, typedef', rfl, rfl, hname', h⟩
      | _ => exact absurd h.1 (by simp [isLeaf])

end Forms

end Solarix.Decoder
