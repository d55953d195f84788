import Solarix.Core.Traverse
import Solarix.Decoder.Generics
import Solarix.Decoder.Moves

/-!
# Instances of generic definitions

The decoder does not substitute.  It keeps a map from parameter names to the arguments as they
are written and looks a name up where it meets it, in the map of the innermost definition.  It
decodes the instance from bytes on which each lookup finds the type that the parameter stands
for.
-/

namespace Solarix.Decoder

open Solarix.Core
open BorshValue (encodeAll encodeAll_eq_flatMap)

/-! ## Places -/

/-- A call of `decode_type`, where `g` holds all bindings that were made on the way and `scope`
those of the parameters that the type may mention. -/
structure Place where
  g : Scope
  scope : Scope
  levels : Nat
  ty : IdlType
  bytes : List UInt8

namespace Place

def site (p : Place) : Site := ⟨p.g.types, p.levels, p.ty, p.bytes⟩

def inside (registry : TypeRegistry) (p : Place) : Scope × Scope :=
  match p.ty with
  | .defined name args =>
      if name = "COption" then (p.g, p.scope)
      else
        match registry.types name with
        | some typedef =>
            (.bindAll p.scope p.g typedef.generics args,
              .bindAll p.scope .empty typedef.generics args)
        | none => (p.g, p.scope)
  | .generic name =>
      match p.g.find? name with
      | some (_, tyScope) => (p.g, tyScope)
      | none => (p.g, p.scope)
  | _ => (p.g, p.scope)

def start (ty : IdlType) (bytes : List UInt8) : Place :=
  ⟨.empty, .empty, maxDecodeDepth + 1, ty, bytes⟩

end Place

def Enters (registry : TypeRegistry) (p q : Place) : Prop :=
  Child registry p.site q.site ∧ (q.g, q.scope) = p.inside registry

def Meets (registry : TypeRegistry) (p : Place) (kind : Place → Prop) : Prop :=
  ∃ q, Relation.ReflTransGen (Enters registry) p q ∧ kind q

/-- A place where the decoder gives up though the instance can be read: the levels are used up
by lookups, a parameter has no binding, or the argument of a `COption` has no static size as it
is written. -/
inductive Lost (registry : TypeRegistry) : Place → Prop where
  | deep (g scope : Scope) (ty : IdlType) (bytes : List UInt8) :
      Lost registry ⟨g, scope, 0, ty, bytes⟩
  | unbound {g scope : Scope} {levels : Nat} {name : String} {bytes : List UInt8}
      (missing : g.find? name = none) : Lost registry ⟨g, scope, levels + 1, .generic name, bytes⟩
  | unsized {g scope : Scope} {levels : Nat} {args : List IdlGenericArg} {inner : IdlType}
      {bytes : List UInt8} (head : args.head? = some (.type inner))
      (written : fixedSize registry inner = none)
      (sized : instanceSize registry (subst scope.closed inner) ≠ none) :
      Lost registry ⟨g, scope, levels + 1, .defined "COption" args, bytes⟩

/-- A lookup that finds a later binding of the name, of a type other than the one that the
parameter stands for. -/
inductive Captured : Place → Prop where
  | lookup {g scope tyScope : Scope} {levels : Nat} {name : String} {ty : IdlType}
      {bytes : List UInt8} (found : g.find? name = some (ty, tyScope))
      (other : subst tyScope.closed ty ≠ subst scope.closed (.generic name)) :
      Captured ⟨g, scope, levels + 1, .generic name, bytes⟩

structure Clear (registry : TypeRegistry) (p : Place) : Prop where
  notLost : ¬ Meets registry p (Lost registry)
  notCaptured : ¬ Meets registry p Captured

section Clear

variable {registry : TypeRegistry} {p q : Place}

theorem Meets.of_enters {kind : Place → Prop} (henters : Enters registry p q)
    (h : Meets registry q kind) : Meets registry p kind := by
  obtain ⟨spot, hreach, hspot⟩ := h
  exact ⟨spot, .head henters hreach, hspot⟩

theorem Meets.self {kind : Place → Prop} (h : kind p) : Meets registry p kind := ⟨p, .refl, h⟩

theorem Clear.enters (h : Clear registry p) (henters : Enters registry p q) : Clear registry q where
  notLost hlost := h.notLost (hlost.of_enters henters)
  notCaptured hcaptured := h.notCaptured (hcaptured.of_enters henters)

end Clear
/-! ## The decoder follows the instance -/

section Follow

variable {registry registry' : TypeRegistry} {env : Externs} {data : DataSlice}

theorem fixedSize_eq_instanceSize {g scope : Scope} {levels : Nat} {inner : IdlType}
    {rest : List IdlGenericArg} {bytes : List UInt8}
    (hclear : Clear registry
      ⟨g, scope, levels + 1, .defined "COption" (.type inner :: rest), bytes⟩) :
    fixedSize registry inner = instanceSize registry (subst scope.closed inner) := by
  cases hwritten : fixedSize registry inner with
  | some size => exact (instanceSizeAt_of_fixedSizeAt _ hwritten).symm
  | none =>
      by_contra hsized
      exact hclear.notLost (.self (.unsized rfl hwritten (Ne.symm hsized)))

theorem decodeStep_leaf {ty : IdlType} (hleaf : isLeaf ty = true)
    (below belowDefined below' belowDefined' : Generics → IdlType → Reader DecodeError Json)
    (g g' : Generics) :
    decodeStep env registry data below belowDefined g ty =
      decodeStep env registry' data below' belowDefined' g' ty := by
  cases ty <;> first | (cases hleaf; done) | rfl

theorem substArgs_head? {σ : Generics} {args : List IdlGenericArg} {closed : IdlType}
    (h : (substArgs σ args).head? = some (.type closed)) :
    ∃ inner, args.head? = some (.type inner) ∧ closed = subst σ inner := by
  match args with
  | [] => cases h
  | .type ty :: args =>
      cases h
      exact ⟨ty, rfl, rfl⟩
  | .const value :: args => cases h

/-- With `levels` calls of nesting left, the decoder reads the bytes at a place that is clear as
it reads them by the monomorphic form. -/
def Follows (env : Externs) (registry registry' : TypeRegistry) (data : DataSlice)
    (levels : Nat) : Prop :=
  ∀ {levels' : Nat} {g scope : Scope} {ty ty' : IdlType} {start : Nat} (g' : Generics),
    start ≤ data.len → Clear registry ⟨g, scope, levels, ty, data.bytes.drop start⟩ →
    MonoAt registry registry' levels' (subst scope.closed ty) ty' →
    decodeTypeAt env registry data levels g.types ty start =
      decodeTypeAt env registry' data levels' g' ty' start

section Arms

variable {levels levels' : Nat} {g scope : Scope} {ty' : IdlType} {start : Nat}

theorem follows_leaf {ty : IdlType} (hleaf : isLeaf ty = true) (g' : Generics)
    (hmono : MonoAt registry registry' levels' (subst scope.closed ty) ty') :
    decodeTypeAt env registry data (levels + 1) g.types ty =
      decodeTypeAt env registry' data levels' g' ty' := by
  have hsubst : subst scope.closed ty = ty := by
    cases ty <;> first | rfl | cases hleaf
  rw [hsubst] at hmono
  obtain ⟨⟨k, rfl⟩, rfl⟩ := hmono.leaf hleaf
  rw [decodeTypeAt_succ, decodeTypeAt_succ]
  exact decodeStep_leaf hleaf _ _ _ _ _ _

theorem alikeFrom_of_clear (hbelow : Follows env registry registry' data levels) (g' : Generics)
    {types : List IdlType} {consumed : Nat} (hstart : start + consumed ≤ data.len)
    (hclear : ∀ done ty rest xs bs, types = done ++ ty :: rest →
      List.Forall₂ (Within registry g.types levels) done xs →
      data.bytes.drop (start + consumed) = encodeAll xs ++ bs →
      Clear registry ⟨g, scope, levels, ty, bs⟩) :
    AlikeFrom (decodeTypeAt env registry data levels g.types)
      (decodeTypeAt env registry' data levels' g')
      (fun ty ty' => MonoAt registry registry' levels' (subst scope.closed ty) ty') types start
      consumed := by
  intro done ty rest vals total hsplit hdone ty' hmono
  obtain ⟨xs, hxs, -, rfl, hat⟩ :=
    readEach_sound (fun ty _ => decodeTypeAt_sound levels g.types ty) hstart hdone
  have hle := hat.add_length_le
  rw [← Nat.add_assoc]
  rw [← encodeAll_eq_flatMap] at hat hle ⊢
  exact hbelow g' hle (hclear done ty rest xs _ hsplit hxs hat.drop_eq) hmono

theorem items_follow (hbelow : Follows env registry registry' data levels) (g' : Generics)
    {inner inner' : IdlType} (hmono : MonoAt registry registry' levels' (subst scope.closed inner)
      inner') {count consumed : Nat} (hstart : start + consumed ≤ data.len)
    (hclear : ∀ xs bs, xs.length < count →
      (∀ x ∈ xs, Within registry g.types levels inner x) →
      data.bytes.drop (start + consumed) = encodeAll xs ++ bs →
      Clear registry ⟨g, scope, levels, inner, bs⟩) :
    readEach (fun _ : Unit => decodeTypeAt env registry data levels g.types inner)
        (List.replicate count ()) start consumed =
      readEach (fun _ : Unit => decodeTypeAt env registry' data levels' g' inner')
        (List.replicate count ()) start consumed := by
  rw [readEach_map (decodeTypeAt env registry data levels g.types) (fun _ : Unit => inner),
    readEach_map (decodeTypeAt env registry' data levels' g') (fun _ : Unit => inner'),
    List.map_replicate, List.map_replicate]
  have htypes : List.Forall₂
      (fun ty ty' => MonoAt registry registry' levels' (subst scope.closed ty) ty')
      (List.replicate count inner) (List.replicate count inner') := by
    induction count with
    | zero => exact .nil
    | succ count ih => exact .cons hmono (ih fun xs bs hlt => hclear xs bs (by omega))
  refine readEach_congr htypes (alikeFrom_of_clear hbelow g' hstart ?_)
  intro done ty rest xs bs hsplit hxs hdrop
  have hinner : ∀ ty' ∈ done ++ ty :: rest, ty' = inner := by
    rw [← hsplit]
    exact fun ty' hty' => List.eq_of_mem_replicate hty'
  have hlength := congrArg List.length hsplit
  rw [List.length_replicate, List.length_append, List.length_cons, hxs.length_eq] at hlength
  rw [hinner ty (by simp)]
  refine hclear xs bs (by omega) (fun x hx => ?_) hdrop
  obtain ⟨ty', hty', hwithin⟩ := exists_of_mem_forall₂ hxs.flip hx
  rw [← hinner ty' (by simp [hty'])]
  exact hwithin

theorem follows_option (hbelow : Follows env registry registry' data levels) (g' : Generics)
    {inner : IdlType}
    (hclear : Clear registry ⟨g, scope, levels + 1, .option inner, data.bytes.drop start⟩)
    (hmono : MonoAt registry registry' levels' (subst scope.closed (.option inner)) ty') :
    decodeTypeAt env registry data (levels + 1) g.types (.option inner) start =
      decodeTypeAt env registry' data levels' g' ty' start := by
  obtain ⟨k, inner', rfl, rfl, hinner⟩ := hmono.option
  rw [decodeTypeAt_succ, decodeTypeAt_succ]
  simp only [decodeStep]
  refine Outcome.bind_congr fun _ hensure => Outcome.bind_congr fun tag htag => ?_
  split
  · rfl
  · split
    · rename_i hone
      refine Outcome.bind_congr fun next hnext => ?_
      obtain ⟨_, rfl⟩ := addUsize_eq_ok.mp hnext
      have hat := DataSlice.index_eq_ok htag
      have hdrop := hat.drop_eq
      rw [hone] at hdrop
      rw [hdrop] at hclear
      have hbelow' := hbelow g' hat.add_length_le (hclear.enters ⟨.option _ _ _ _, rfl⟩) hinner
      rw [List.length_singleton] at hbelow'
      rw [hbelow']
    · rfl

theorem follows_vec (hbelow : Follows env registry registry' data levels) (g' : Generics)
    {inner : IdlType}
    (hclear : Clear registry ⟨g, scope, levels + 1, .vec inner, data.bytes.drop start⟩)
    (hmono : MonoAt registry registry' levels' (subst scope.closed (.vec inner)) ty') :
    decodeTypeAt env registry data (levels + 1) g.types (.vec inner) start =
      decodeTypeAt env registry' data levels' g' ty' start := by
  obtain ⟨k, inner', rfl, rfl, hinner⟩ := hmono.vec
  rw [decodeTypeAt_succ, decodeTypeAt_succ]
  simp only [decodeStep]
  refine Outcome.bind_congr fun counted hread => Outcome.bind_congr fun _ _ => ?_
  obtain ⟨count, m⟩ := counted
  obtain ⟨-, hsmall, hat⟩ := readLe_eq_ok hread
  have hle := hat.add_length_le
  have hdrop := hat.drop_eq
  rw [length_leBytes] at hle hdrop
  rw [items_follow hbelow g' hinner hle]
  intro xs bs hmore hbefore hrest
  rw [hdrop, hrest] at hclear
  exact hclear.enters ⟨.vec hsmall hmore hbefore, rfl⟩

theorem follows_array (hbelow : Follows env registry registry' data levels) (g' : Generics)
    {inner : IdlType} {len : IdlArrayLen} (hstart : start ≤ data.len)
    (hclear : Clear registry ⟨g, scope, levels + 1, .array inner len, data.bytes.drop start⟩)
    (hmono : MonoAt registry registry' levels' (subst scope.closed (.array inner len)) ty') :
    decodeTypeAt env registry data (levels + 1) g.types (.array inner len) start =
      decodeTypeAt env registry' data levels' g' ty' start := by
  obtain ⟨k, inner', rfl, rfl, hinner⟩ := hmono.array
  rw [decodeTypeAt_succ, decodeTypeAt_succ]
  simp only [decodeStep]
  refine Outcome.bind_congr fun count hcount => Outcome.bind_congr fun _ hcapacity => ?_
  cases len with
  | generic name => cases hcount
  | value n =>
      cases hcount
      have hstart' : start + 0 ≤ data.len := hstart
      rw [items_follow hbelow g' hinner hstart']
      intro xs bs hmore hbefore hrest
      rw [Nat.add_zero] at hrest
      rw [hrest] at hclear
      exact hclear.enters ⟨.array (withCapacity_eq_ok.mp hcapacity) hmore hbefore, rfl⟩

theorem follows_coption (hbelow : Follows env registry registry' data levels) (g' : Generics)
    {args : List IdlGenericArg}
    (hclear : Clear registry
      ⟨g, scope, levels + 1, .defined "COption" args, data.bytes.drop start⟩)
    (hmono : MonoAt registry registry' levels' (subst scope.closed (.defined "COption" args)) ty') :
    decodeTypeAt env registry data (levels + 1) g.types (.defined "COption" args) start =
      decodeTypeAt env registry' data levels' g' ty' start := by
  obtain ⟨k, args', closed, inner', rfl, rfl, hargs, hargs', hinner⟩ := hmono.coption
  obtain ⟨inner, hhead, rfl⟩ := substArgs_head? hargs
  obtain ⟨rest, rfl⟩ := List.head?_eq_some_iff.mp hhead
  have hsizes : fixedSize registry inner = fixedSize registry' inner' :=
    (fixedSize_eq_instanceSize hclear).trans (instanceSizeAt_eq _ hinner)
  rw [decodeTypeAt_succ, decodeTypeAt_succ]
  simp only [decodeStep, if_true, decodeCoption, List.head?_cons, hargs', ← hsizes]
  cases hsize : fixedSize registry inner with
  | none => rfl
  | some size =>
      refine Outcome.bind_congr fun tagged hread => Outcome.bind_congr fun total htotal => ?_
      obtain ⟨tag, m⟩ := tagged
      obtain ⟨hfits, rfl⟩ := addUsize_eq_ok.mp htotal
      dsimp only
      split
      · rfl
      · split
        · rename_i hone
          refine Outcome.bind_congr fun next hnext => ?_
          obtain ⟨_, rfl⟩ := addUsize_eq_ok.mp hnext
          obtain ⟨-, -, hat⟩ := readLe_eq_ok hread
          have hle := hat.add_length_le
          have hdrop := hat.drop_eq
          rw [length_leBytes] at hle hdrop
          rw [hdrop, hone] at hclear
          rw [hbelow g' hle (hclear.enters ⟨.coption hsize hfits, rfl⟩) hinner]
        · rfl

theorem bodyAlikeAt_of_clear (hbelow : Follows env registry registry' data levels)
    (g' : Generics) {body : IdlTypeDefTy} (hstart : start ≤ data.len)
    (hclear : ∀ ty bs, BodyChild registry g.types levels body (data.bytes.drop start)
        ⟨g.types, levels, ty, bs⟩ → Clear registry ⟨g, scope, levels, ty, bs⟩) :
    BodyAlikeAt data (decodeTypeAt env registry data levels g.types)
      (decodeTypeAt env registry' data levels' g')
      (fun ty ty' => MonoAt registry registry' levels' (subst scope.closed ty) ty') start body := by
  cases body with
  | struct fields =>
      have hstart' : start + 0 ≤ data.len := hstart
      refine alikeFrom_of_clear hbelow g' hstart' fun done ty rest xs bs hsplit hxs hdrop => ?_
      rw [Nat.add_zero] at hdrop
      rw [hdrop] at hclear
      exact hclear ty bs (.struct hsplit hxs)
  | enum variants =>
      intro tag variant _ htag hfound
      have hat := DataSlice.index_eq_ok htag
      refine alikeFrom_of_clear hbelow g' hat.add_length_le
        fun done ty rest xs bs hsplit hxs hdrop => ?_
      have hbytes : data.bytes.drop start = tag :: (encodeAll xs ++ bs) := by
        rw [← hdrop]
        exact hat.drop_eq
      rw [hbytes] at hclear
      exact hclear ty bs (.enum hfound hsplit hxs)
  | type aliased =>
      intro ty' hmono
      exact hbelow g' hstart (hclear aliased _ (.type aliased _)) hmono

/-- The bindings that the decoder adds for a definition are, without those of its callers,
the scope of the definition's body. -/
theorem follows_defined (hbelow : Follows env registry registry' data (levels - 1))
    (g' : Generics) {name : String} (hname : name ≠ "COption") {args : List IdlGenericArg}
    (hstart : start ≤ data.len)
    (hclear : Clear registry ⟨g, scope, levels + 1, .defined name args, data.bytes.drop start⟩)
    (hmono : MonoAt registry registry' levels' (subst scope.closed (.defined name args)) ty') :
    decodeTypeAt env registry data (levels + 1) g.types (.defined name args) start =
      decodeTypeAt env registry' data levels' g' ty' start := by
  obtain ⟨k, name', args', typedef, typedef', rfl, rfl, hname', hresolved, hresolved',
    hserialization, hbody⟩ := hmono.defined hname
  have hclosed : (Scope.bindAll scope .empty typedef.generics args).closed =
      bindGenerics Generics.empty typedef.generics (substArgs scope.closed args) :=
    Scope.closed_bindAll ..
  rw [instanceBody, ← hclosed] at hbody
  rw [decodeTypeAt_succ, decodeTypeAt_succ]
  simp only [decodeStep, if_neg hname, if_neg hname', TypeRegistry.resolve, hresolved,
    hresolved', hserialization, Outcome.ok_bind]
  refine Outcome.bind_congr fun _ hborsh => ?_
  rw [← Scope.types_bindAll scope]
  refine decodeTypedef_same (sameBody_of_subst hbody)
    (bodyAlikeAt_of_clear hbelow _ hstart fun ty bs hchild => ?_)
  refine hclear.enters ⟨.defined hname hresolved (checkSerialization_eq_ok.mp hborsh) ?_, ?_⟩
  · rw [Scope.types_bindAll] at hchild
    simp only [Place.site, Scope.types_bindAll]
    exact hchild
  · simp only [Place.inside, if_neg hname, hresolved]

/-- A lookup costs one level; what it finds is read in the scope where it was written. -/
theorem follows_generic (hbelow : Follows env registry registry' data levels) (g' : Generics)
    {name : String} (hstart : start ≤ data.len)
    (hclear : Clear registry ⟨g, scope, levels + 1, .generic name, data.bytes.drop start⟩)
    (hmono : MonoAt registry registry' levels' (subst scope.closed (.generic name)) ty') :
    decodeTypeAt env registry data (levels + 1) g.types (.generic name) start =
      decodeTypeAt env registry' data levels' g' ty' start := by
  cases hfound : g.find? name with
  | none => exact absurd (.self (.unbound hfound)) hclear.notLost
  | some binding =>
      obtain ⟨bound, boundScope⟩ := binding
      have htypes : g.types name = some bound := by
        rw [Scope.types, hfound]
        rfl
      have hsame : subst boundScope.closed bound = subst scope.closed (.generic name) := by
        by_contra hother
        exact hclear.notCaptured (.self (.lookup hfound hother))
      rw [← hsame] at hmono
      rw [decodeTypeAt_succ]
      simp only [decodeStep, htypes]
      refine hbelow g' hstart (hclear.enters ⟨.generic htypes, ?_⟩) hmono
      simp only [Place.inside, hfound]

end Arms

theorem follows_succ {levels : Nat} (hbelow : Follows env registry registry' data levels)
    (hdefined : Follows env registry registry' data (levels - 1)) :
    Follows env registry registry' data (levels + 1) := by
  intro levels' g scope ty ty' start g' hstart hclear hmono
  cases hleaf : isLeaf ty with
  | true => exact congrFun (follows_leaf hleaf g' hmono) start
  | false =>
      cases ty with
      | option inner => exact follows_option hbelow g' hclear hmono
      | vec inner => exact follows_vec hbelow g' hclear hmono
      | array inner len => exact follows_array hbelow g' hstart hclear hmono
      | defined name args =>
          by_cases hname : name = "COption"
          · subst hname
            exact follows_coption hbelow g' hclear hmono
          · exact follows_defined hdefined g' hname hstart hclear hmono
      | generic name => exact follows_generic hbelow g' hstart hclear hmono
      | _ => cases hleaf

theorem follows (levels : Nat) : Follows env registry registry' data levels := by
  induction levels using Nat.strong_induction_on with
  | _ levels ih =>
      cases levels with
      | zero => exact fun _ _ hclear _ => absurd (.self (.deep _ _ _ _)) hclear.notLost
      | succ levels => exact follows_succ (ih levels (by omega)) (ih (levels - 1) (by omega))

/-! ### Where it gives up -/

theorem lost_ne_ok {p : Place} (h : Lost registry p) (start : Nat) (result : Json × Nat) :
    decodeTypeAt env registry data p.levels p.g.types p.ty start ≠ .ok result := by
  cases h with
  | deep g scope ty bytes => simp [decodeTypeAt, malformed]
  | @unbound g _ _ name _ missing =>
      have htypes : g.types name = none := by
        rw [Scope.types, missing]
        rfl
      simp [decodeTypeAt_succ, decodeStep, htypes, malformed]
  | unsized head written _ =>
      simp [decodeTypeAt_succ, decodeStep, decodeCoption, head, written, unsupported]

theorem ne_ok_of_meets_lost {p : Place} (h : Meets registry p (Lost registry)) {start : Nat}
    (hstart : start ≤ data.len) (hdrop : data.bytes.drop start = p.bytes) (result : Json × Nat) :
    decodeTypeAt env registry data p.levels p.g.types p.ty start ≠ .ok result := by
  obtain ⟨spot, hreach, hlost⟩ := h
  induction hreach using Relation.ReflTransGen.head_induction_on generalizing start result with
  | refl => exact lost_ne_ok hlost start result
  | head henters _ ih =>
      intro hok
      obtain ⟨next, hnext, hbytes, f, hpass⟩ :=
        @passesThrough_child env _ _ _ _ _ henters.1 hstart hdrop
      obtain ⟨value, hvalue, _⟩ := Outcome.bind_eq_ok.mp (hpass.symm.trans hok)
      exact ih hnext hbytes value hvalue

end Follow

/-- A generic type is decoded as its monomorphic form from bytes on which every lookup of a
parameter finds the type that it stands for and the decoder does not give up.  Where it gives up
there is no value. -/
theorem decode_generic_of_clear (env : Externs) (registry registry' : TypeRegistry)
    (ty ty' : IdlType) (hmono : Monomorphises registry registry' ty ty') (data : DataSlice)
    (offset : Nat) (hoff : offset ≤ data.len) :
    (Clear registry (.start ty (data.bytes.drop offset)) →
      decodeType env registry data Generics.empty ty 0 offset =
        decodeType env registry' data Generics.empty ty' 0 offset) ∧
    (Meets registry (.start ty (data.bytes.drop offset)) (Lost registry) →
      ∀ v n, decodeType env registry data Generics.empty ty 0 offset ≠ .ok (v, n)) := by
  have hclosed : subst Scope.empty.closed ty = ty := subst_empty ty
  have hmono' : MonoAt registry registry' (maxDecodeDepth + 1) (subst Scope.empty.closed ty)
      ty' := by
    rw [hclosed]
    exact hmono
  constructor
  · intro hclear
    exact @follows registry registry' env data _ _ .empty .empty ty ty' offset Generics.empty hoff
      hclear hmono'
  · intro hlost v n
    exact ne_ok_of_meets_lost hlost hoff rfl (v, n)

/-! ### Types that are clear on all bytes -/

def ScopedStep (registry : TypeRegistry) (below belowDefined : Scope → Scope → IdlType → Prop)
    (g scope : Scope) : IdlType → Prop
  | .option inner => below g scope inner
  | .vec inner => below g scope inner
  | .array inner _ => below g scope inner
  | .defined name args =>
      if name = "COption" then
        ∀ inner, args.head? = some (.type inner) →
          fixedSize registry inner = instanceSize registry (subst scope.closed inner) ∧
            below g scope inner
      else
        ∀ typedef, registry.types name = some typedef →
          ∀ ty ∈ bodyTypes typedef.ty,
            belowDefined (.bindAll scope g typedef.generics args)
              (.bindAll scope .empty typedef.generics args) ty
  | .generic name =>
      ∃ ty tyScope, scope.find? name = some (ty, tyScope) ∧ g.find? name = some (ty, tyScope) ∧
        below g tyScope ty
  | _ => True

/-- With `levels` calls of nesting left every parameter of the type, inside a definition too, is
found in `g` as it is bound in `scope`, and the size of every `COption` argument, taken as it is
written, is that of its instance. -/
def ScopedAt (registry : TypeRegistry) : Nat → Scope → Scope → IdlType → Prop
  | 0 => fun _ _ _ => False
  | levels + 1 =>
      ScopedStep registry (ScopedAt registry levels)
        (match levels with
          | 0 => fun _ _ _ => False
          | levels + 1 => ScopedAt registry levels)

theorem scopedAt_succ {registry : TypeRegistry} (levels : Nat) :
    ScopedAt registry (levels + 1) =
      ScopedStep registry (ScopedAt registry levels) (ScopedAt registry (levels - 1)) := by
  cases levels <;> rfl

def Scoped (registry : TypeRegistry) (ty : IdlType) : Prop :=
  ScopedAt registry (maxDecodeDepth + 1) .empty .empty ty

theorem BodyChild.mem_bodyTypes {registry : TypeRegistry} {g : Generics} {levels : Nat}
    {body : IdlTypeDefTy} {bytes : List UInt8} {site : Site}
    (h : BodyChild registry g levels body bytes site) : site.ty ∈ bodyTypes body := by
  cases h with
  | struct split _ => simp [bodyTypes, split]
  | @enum _ tag variant _ _ _ _ _ found split _ =>
      exact List.mem_flatMap.mpr ⟨variant, List.mem_of_getElem? found, by simp [split]⟩
  | type aliased _ => simp [bodyTypes]

theorem ScopedAt.enters {registry : TypeRegistry} {p q : Place}
    (h : ScopedAt registry p.levels p.g p.scope p.ty) (henters : Enters registry p q) :
    ScopedAt registry q.levels q.g q.scope q.ty := by
  obtain ⟨g, scope, levels, ty, bytes⟩ := p
  obtain ⟨g', scope', levels', ty', bytes'⟩ := q
  obtain ⟨hchild, hinside⟩ := henters
  generalize hp : Place.site _ = site at hchild
  generalize hq : Place.site _ = next at hchild
  cases hchild with
  | option | vec | array =>
      cases hp
      obtain ⟨_, rfl, rfl, rfl⟩ := Site.mk.inj hq
      cases hinside
      rw [scopedAt_succ] at h
      exact h
  | coption =>
      cases hp
      obtain ⟨_, rfl, rfl, rfl⟩ := Site.mk.inj hq
      cases hinside
      rw [scopedAt_succ] at h
      exact (h _ rfl).2
  | defined notCoption resolved _ body =>
      cases hp
      subst hq
      rw [scopedAt_succ] at h
      simp only [ScopedStep, if_neg notCoption] at h
      simp only [Place.inside, if_neg notCoption, resolved] at hinside
      cases hinside
      have hlevels := body.levels_eq
      have hmem := body.mem_bodyTypes
      simp only [Place.site] at hlevels hmem
      rw [hlevels]
      exact h _ resolved _ hmem
  | generic bound =>
      cases hp
      obtain ⟨_, rfl, rfl, rfl⟩ := Site.mk.inj hq
      rw [scopedAt_succ] at h
      obtain ⟨found, foundScope, _, hfound, hbelow⟩ := h
      simp only [Place.inside, hfound] at hinside
      cases hinside
      rw [Scope.types, hfound] at bound
      cases bound
      exact hbelow

theorem clear_of_scoped {registry : TypeRegistry} {ty : IdlType} (h : Scoped registry ty)
    (bytes : List UInt8) : Clear registry (.start ty bytes) := by
  have hreached : ∀ q, Relation.ReflTransGen (Enters registry) (.start ty bytes) q →
      ScopedAt registry q.levels q.g q.scope q.ty := by
    intro q hreach
    induction hreach with
    | refl => exact h
    | tail _ henters ih => exact ih.enters henters
  constructor
  · rintro ⟨q, hreach, hlost⟩
    have hscoped := hreached q hreach
    cases hlost with
    | deep => exact hscoped
    | unbound missing =>
        rw [scopedAt_succ] at hscoped
        obtain ⟨_, _, _, hfound, _⟩ := hscoped
        cases missing.symm.trans hfound
    | unsized head written sized =>
        rw [scopedAt_succ] at hscoped
        have hsize := (hscoped _ head).1
        rw [written] at hsize
        exact sized hsize.symm
  · rintro ⟨q, hreach, hcaptured⟩
    have hscoped := hreached q hreach
    cases hcaptured with
    | lookup found other =>
        rw [scopedAt_succ] at hscoped
        obtain ⟨bound, boundScope, hscope, hfound, _⟩ := hscoped
        cases found.symm.trans hfound
        apply other
        rw [subst, Scope.closed_of_find? hscope, Option.getD_some]

/-! ### Nested generics -/

/-- `Wrapper<T> { value: T }`, and `Outer<P> { inner: Wrapper<P> }` for a parameter `P`. -/
def nestedRegistry (param : String) : TypeRegistry where
  types name :=
    if name = "Wrapper" then
      some ⟨"Wrapper", .borsh, [.type "T"],
        .struct (some (.named [⟨"value", .generic "T"⟩]))⟩
    else if name = "Outer" then
      some ⟨"Outer", .borsh, [.type param],
        .struct (some (.named [⟨"inner", .defined "Wrapper" [.type (.generic param)]⟩]))⟩
    else none

def instanceRegistry : TypeRegistry where
  types name :=
    if name = "WrapperU8" then
      some ⟨"WrapperU8", .borsh, [], .struct (some (.named [⟨"value", .int .u8⟩]))⟩
    else if name = "OuterU8" then
      some ⟨"OuterU8", .borsh, [],
        .struct (some (.named [⟨"inner", .defined "WrapperU8" []⟩]))⟩
    else none

def outerU8 : IdlType := .defined "Outer" [.type (.int .u8)]

theorem monomorphises_outerU8 (param : String) :
    Monomorphises (nestedRegistry param) instanceRegistry outerU8 (.defined "OuterU8" []) := by
  refine ⟨by decide, _, _, rfl, rfl, rfl, .cons ⟨rfl, ?_⟩ .nil⟩
  refine ⟨by decide, _, _, rfl, rfl, rfl, .cons ⟨rfl, ?_⟩ .nil⟩
  simp [subst, substArgs, bindGenerics, MonoAt, MonoStep, isLeaf]

theorem scoped_outerU8 : Scoped (nestedRegistry "P") outerU8 := by
  rintro _ ⟨⟩ _ hty
  obtain rfl := List.mem_singleton.mp hty
  rintro _ ⟨⟩ _ hty
  obtain rfl := List.mem_singleton.mp hty
  exact ⟨_, _, rfl, rfl, _, _, rfl, rfl, trivial⟩

/-- A parameter that is bound to itself is looked up until the levels are used up. -/
theorem meets_lost_of_self {registry : TypeRegistry} {g tyScope : Scope} {name : String}
    (hself : g.find? name = some (.generic name, tyScope)) (scope : Scope) (levels : Nat)
    (bytes : List UInt8) :
    Meets registry ⟨g, scope, levels, .generic name, bytes⟩ (Lost registry) := by
  induction levels generalizing scope with
  | zero => exact .self (.deep g scope _ bytes)
  | succ levels ih =>
      have htypes : g.types name = some (.generic name) := by
        rw [Scope.types, hself]
        rfl
      refine Meets.of_enters ⟨.generic htypes, ?_⟩ (ih tyScope)
      simp only [Place.inside, hself]

theorem enters_field {registry : TypeRegistry} {name field : String} {typedef : IdlTypeDef}
    {ty : IdlType} {rest : List IdlField} (hname : name ≠ "COption")
    (hresolved : registry.types name = some typedef)
    (hborsh : typedef.serialization = .borsh)
    (hbody : typedef.ty = .struct (some (.named (⟨field, ty⟩ :: rest)))) (g scope : Scope)
    (levels : Nat) (args : List IdlGenericArg) (bytes : List UInt8) :
    Enters registry ⟨g, scope, levels + 1, .defined name args, bytes⟩
      ⟨.bindAll scope g typedef.generics args, .bindAll scope .empty typedef.generics args,
        levels - 1, ty, bytes⟩ := by
  refine ⟨.defined hname hresolved hborsh ?_, ?_⟩
  · have hsplit : fieldTypes (some (.named (⟨field, ty⟩ :: rest))) =
        [] ++ ty :: rest.map IdlField.ty := rfl
    have hsite : BodyChild registry (bindGenerics g.types typedef.generics args) (levels - 1)
        (.struct (some (.named (⟨field, ty⟩ :: rest)))) bytes
        ⟨bindGenerics g.types typedef.generics args, levels - 1, ty, bytes⟩ :=
      .struct hsplit .nil
    rw [← Scope.types_bindAll scope] at hsite
    rw [hbody]
    simpa only [Place.site, Scope.types_bindAll] using hsite
  · simp only [Place.inside, if_neg hname, hresolved]

theorem meets_lost_outerU8 (bytes : List UInt8) :
    Meets (nestedRegistry "T") (.start outerU8 bytes) (Lost (nestedRegistry "T")) := by
  have houter := enters_field (by decide) (show (nestedRegistry "T").types "Outer" = _ from rfl)
    rfl rfl .empty .empty maxDecodeDepth [.type (.int .u8)] bytes
  have hwrapper := enters_field (by decide)
    (show (nestedRegistry "T").types "Wrapper" = _ from rfl) rfl rfl
    (.bind "T" (.int .u8) .empty .empty) (.bind "T" (.int .u8) .empty .empty) 62
    [.type (.generic "T")] bytes
  exact (Meets.of_enters hwrapper (meets_lost_of_self rfl _ _ _)).of_enters houter

/-- `Inner<T, U> { value: U }`, and `Outer<T> { inner: Inner<i256, T> }`. -/
def capturingRegistry : TypeRegistry where
  types name :=
    if name = "Inner" then
      some ⟨"Inner", .borsh, [.type "T", .type "U"],
        .struct (some (.named [⟨"value", .generic "U"⟩]))⟩
    else if name = "Outer" then
      some ⟨"Outer", .borsh, [.type "T"],
        .struct (some (.named [⟨"inner", .defined "Inner" [.type .i256, .type (.generic "T")]⟩]))⟩
    else none

def wideRegistry : TypeRegistry where
  types name :=
    if name = "InnerU256" then
      some ⟨"InnerU256", .borsh, [], .struct (some (.named [⟨"value", .u256⟩]))⟩
    else if name = "OuterU256" then
      some ⟨"OuterU256", .borsh, [],
        .struct (some (.named [⟨"inner", .defined "InnerU256" []⟩]))⟩
    else none

def outerU256 : IdlType := .defined "Outer" [.type .u256]

theorem monomorphises_outerU256 :
    Monomorphises capturingRegistry wideRegistry outerU256 (.defined "OuterU256" []) := by
  refine ⟨by decide, _, _, rfl, rfl, rfl, .cons ⟨rfl, ?_⟩ .nil⟩
  refine ⟨by decide, _, _, rfl, rfl, rfl, .cons ⟨rfl, ?_⟩ .nil⟩
  simp [subst, substArgs, bindGenerics, MonoAt, MonoStep, isLeaf]

theorem meets_captured_outerU256 (bytes : List UInt8) :
    Meets capturingRegistry (.start outerU256 bytes) Captured := by
  have houter := enters_field (by decide) (show capturingRegistry.types "Outer" = _ from rfl)
    rfl rfl .empty .empty maxDecodeDepth [.type .u256] bytes
  have hinner := enters_field (by decide) (show capturingRegistry.types "Inner" = _ from rfl)
    rfl rfl (.bind "T" .u256 .empty .empty) (.bind "T" .u256 .empty .empty) 62
    [.type .i256, .type (.generic "T")] bytes
  have hlookup : Enters capturingRegistry
      ⟨.bindAll (.bind "T" .u256 .empty .empty) (.bind "T" .u256 .empty .empty)
          [.type "T", .type "U"] [.type .i256, .type (.generic "T")],
        .bindAll (.bind "T" .u256 .empty .empty) .empty
          [.type "T", .type "U"] [.type .i256, .type (.generic "T")], 61, .generic "U", bytes⟩
      ⟨_, .bind "T" .u256 .empty .empty, 60, .generic "T", bytes⟩ := ⟨.generic rfl, rfl⟩
  have hcaptured : Captured
      ⟨.bindAll (.bind "T" .u256 .empty .empty) (.bind "T" .u256 .empty .empty)
          [.type "T", .type "U"] [.type .i256, .type (.generic "T")],
        .bind "T" .u256 .empty .empty, 60, .generic "T", bytes⟩ :=
    .lookup rfl (by simp [subst, Scope.closed])
  exact (((Meets.self hcaptured).of_enters hlookup).of_enters hinner).of_enters houter

theorem alike_struct {env : Externs} {registry registry' : TypeRegistry} {data : DataSlice}
    {levels : Nat} {g g' : Generics} {name name' field : String} {args args' : List IdlGenericArg}
    {defs defs' : List IdlTypeDefGeneric} {ty ty' : IdlType} (hname : name ≠ "COption")
    (hname' : name' ≠ "COption")
    (hresolved : registry.types name =
      some ⟨name, .borsh, defs, .struct (some (.named [⟨field, ty⟩]))⟩)
    (hresolved' : registry'.types name' =
      some ⟨name', .borsh, defs', .struct (some (.named [⟨field, ty'⟩]))⟩)
    (h : Alike (decodeTypeAt env registry data (levels - 1) (bindGenerics g defs args))
      (decodeTypeAt env registry' data (levels - 1) (bindGenerics g' defs' args')) ty ty') :
    Alike (decodeTypeAt env registry data (levels + 1) g)
      (decodeTypeAt env registry' data (levels + 1) g') (.defined name args)
      (.defined name' args') := by
  funext start
  simp only [decodeTypeAt_succ, decodeStep, if_neg hname, if_neg hname', TypeRegistry.resolve,
    hresolved, hresolved', Outcome.ok_bind]
  refine Outcome.bind_congr fun _ _ => ?_
  have hsame : SameBody (Alike
      (decodeTypeAt env registry data (levels - 1) (bindGenerics g defs args))
      (decodeTypeAt env registry' data (levels - 1) (bindGenerics g' defs' args')))
      (.struct (some (.named [⟨field, ty⟩]))) (.struct (some (.named [⟨field, ty'⟩]))) :=
    List.Forall₂.cons ⟨rfl, h⟩ .nil
  exact decodeTypedef_same hsame (bodyAlikeAt_alike start _)

theorem decode_outerU256 (env : Externs) (data : DataSlice) (offset : Nat) :
    decodeType env capturingRegistry data Generics.empty outerU256 0 offset =
      decodeType env wideRegistry data Generics.empty (.defined "OuterU256" []) 0 offset := by
  have hvalue : Alike
      (decodeTypeAt env capturingRegistry data 61 (bindGenerics
        (bindGenerics Generics.empty [.type "T"] [.type .u256]) [.type "T", .type "U"]
        [.type .i256, .type (.generic "T")]))
      (decodeTypeAt env wideRegistry data 61 Generics.empty) (.generic "U") .u256 := rfl
  have hinner := @alike_struct env capturingRegistry wideRegistry data 62 _ Generics.empty
    "Inner" "InnerU256" _ _ [] _ _ _ _ (by decide) (by decide) rfl rfl hvalue
  have houter := @alike_struct env capturingRegistry wideRegistry data 64 Generics.empty
    Generics.empty "Outer" "OuterU256" _ [.type .u256] [] _ _ _ _ (by decide) (by decide) rfl rfl
    hinner
  exact congrFun houter offset

/-- With two names for the two parameters the instance is read; with one name there is no value;
and a capture may do no harm. -/
theorem decode_generic_of_clear_outer :
    decodeType Externs.minimal (nestedRegistry "P") ⟨[7], by simp [isizeMax]⟩ Generics.empty
        outerU8 0 0 =
      decodeType Externs.minimal instanceRegistry ⟨[7], by simp [isizeMax]⟩ Generics.empty
        (.defined "OuterU8" []) 0 0 ∧
    (∀ v n, decodeType Externs.minimal (nestedRegistry "T") ⟨[7], by simp [isizeMax]⟩
      Generics.empty outerU8 0 0 ≠ .ok (v, n)) ∧
    Monomorphises capturingRegistry wideRegistry outerU256 (.defined "OuterU256" []) ∧
    ∀ (data : DataSlice) (offset : Nat),
      Meets capturingRegistry (.start outerU256 (data.bytes.drop offset)) Captured ∧
        decodeType Externs.minimal capturingRegistry data Generics.empty outerU256 0 offset =
          decodeType Externs.minimal wideRegistry data Generics.empty (.defined "OuterU256" []) 0
            offset := by
  refine ⟨?_, ?_, monomorphises_outerU256,
    fun data offset => ⟨meets_captured_outerU256 _, decode_outerU256 _ data offset⟩⟩
  · exact (decode_generic_of_clear _ _ _ _ _ (monomorphises_outerU8 "P") ⟨[7], by simp [isizeMax]⟩
      0 (Nat.zero_le _)).1 (clear_of_scoped scoped_outerU8 _)
  · exact (decode_generic_of_clear _ _ _ _ _ (monomorphises_outerU8 "T") ⟨[7], by simp [isizeMax]⟩
      0 (Nat.zero_le _)).2 (meets_lost_outerU8 _)

/-- With one name for both, the inner parameter is looked up for ever. -/
theorem decode_generic_of_shared_name :
    ¬ ∀ (registry registry' : TypeRegistry) (name : String) (args : List IdlGenericArg)
      (ty' : IdlType), Monomorphises registry registry' (.defined name args) ty' →
      ∀ (data : DataSlice) (v : Json) (n : Nat),
        decodeType Externs.minimal registry data Generics.empty (.defined name args) 0 0 =
            .ok (v, n) ↔
          decodeType Externs.minimal registry' data Generics.empty ty' 0 0 = .ok (v, n) := by
  intro h
  have hiff := h (nestedRegistry "T") instanceRegistry "Outer" [.type (.int .u8)]
    (.defined "OuterU8" []) (monomorphises_outerU8 "T") ⟨[7], by simp [isizeMax]⟩
    (Json.ofEntries [("inner", Json.ofEntries [("value", .int 7)])]) 1
  have hok := hiff.mpr (by rfl)
  have hfails : (decodeType Externs.minimal (nestedRegistry "T") ⟨[7], by simp [isizeMax]⟩
      Generics.empty (.defined "Outer" [.type (.int .u8)]) 0 0).isOk = false := by decide +kernel
  rw [hok] at hfails
  cases hfails

end Solarix.Decoder
