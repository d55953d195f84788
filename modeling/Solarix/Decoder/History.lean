import Solarix.Decoder.Alike
import Solarix.Decoder.Program

/-!
# Calls on one decoder

`ChainparserDecoder` keeps the registry of every program address it has seen.  A call on a
used decoder gives what it gives on a fresh one as long as the registry that is kept for the
address has the same definitions of the types that the call uses.
-/

namespace Solarix.Decoder

open Solarix.Core

/-! ## The types a call uses -/

mutual

/-- The definitions that a type names.  `COption` is not looked up. -/
def mentions : IdlType → List String
  | .option inner => mentions inner
  | .vec inner => mentions inner
  | .array inner _ => mentions inner
  | .defined name args => if name = "COption" then argMentions args else name :: argMentions args
  | _ => []

def argMentions : List IdlGenericArg → List String
  | [] => []
  | .type ty :: args => mentions ty ++ argMentions args
  | .const _ :: args => argMentions args

end

def fieldMentions (fields : Option IdlDefinedFields) : List String :=
  (fieldTypes fields).flatMap mentions

def bodyMentions : IdlTypeDefTy → List String
  | .struct fields => fieldMentions fields
  | .enum variants => variants.flatMap fun variant => fieldMentions variant.fields
  | .type aliased => mentions aliased

inductive Used (registry : TypeRegistry) (names : List String) : String → Prop where
  | named {name : String} (h : name ∈ names) : Used registry names name
  | within {name name' : String} {typedef : IdlTypeDef} (h : Used registry names name)
      (resolved : registry.types name = some typedef)
      (mentioned : name' ∈ bodyMentions typedef.ty) :
      Used registry names name'

def AgreeOn (names : List String) (registry registry' : TypeRegistry) : Prop :=
  ∀ name, Used registry names name → registry.types name = registry'.types name

/-! ## Decoding looks at these definitions only -/

section Congruence

variable {env : Externs} {registry registry' : TypeRegistry} {data : DataSlice}
  {S : String → Prop}

/-- The registries agree on a set of names that is closed under what its definitions name. -/
structure AgreeWithin (S : String → Prop) (registry registry' : TypeRegistry) : Prop where
  agree : ∀ name, S name → registry.types name = registry'.types name
  closed : ∀ name typedef, S name → registry.types name = some typedef →
    ∀ name' ∈ bodyMentions typedef.ty, S name'

def TypeWithin (S : String → Prop) (ty : IdlType) : Prop := ∀ name ∈ mentions ty, S name

def GenericsWithin (S : String → Prop) (g : Generics) : Prop :=
  ∀ name ty, g name = some ty → TypeWithin S ty

theorem typeWithin_of_body {body : IdlTypeDefTy} (hbody : ∀ name ∈ bodyMentions body, S name) :
    ∀ ty ∈ bodyTypes body, TypeWithin S ty := by
  intro ty hty name hname
  apply hbody
  cases body with
  | struct fields => exact List.mem_flatMap.mpr ⟨ty, hty, hname⟩
  | enum variants =>
      obtain ⟨variant, hvariant, hty⟩ := List.mem_flatMap.mp hty
      exact List.mem_flatMap.mpr ⟨variant, hvariant, List.mem_flatMap.mpr ⟨ty, hty, hname⟩⟩
  | type aliased =>
      rw [List.mem_singleton.mp hty] at hname
      exact hname

theorem fixedSizeStep_congr (h : AgreeWithin S registry registry')
    {size size' : IdlType → Option Nat} (hsize : ∀ ty, TypeWithin S ty → size ty = size' ty)
    {ty : IdlType} (hty : TypeWithin S ty) :
    fixedSizeStep registry size ty = fixedSizeStep registry' size' ty := by
  cases ty with
  | array inner len =>
      cases len with
      | value n => simp only [fixedSizeStep, hsize inner hty]
      | generic name => rfl
  | defined name args =>
      by_cases hname : name = "COption"
      · subst hname
        rcases args with _ | ⟨_ | _, args⟩
        · rfl
        · rename_i inner
          have hinner : TypeWithin S inner := by
            intro name' hmem
            apply hty
            simp [mentions, argMentions, hmem]
          simp only [fixedSizeStep, if_true, List.head?_cons, hsize inner hinner]
        · rfl
      · have hmem : S name := hty name (by simp [mentions, hname])
        rw [fixedSizeStep_defined hname, fixedSizeStep_defined hname, ← h.agree name hmem]
        apply Option.bind_congr
        intro typedef hresolved
        apply bodySize_same
        apply sameBody_refl
        exact fun ty hbody => hsize ty
          (typeWithin_of_body (h.closed name typedef hmem hresolved) ty hbody)
  | _ => rfl

theorem fixedSize_congr (h : AgreeWithin S registry registry') {ty : IdlType}
    (hty : TypeWithin S ty) : fixedSize registry ty = fixedSize registry' ty := by
  unfold fixedSize
  generalize maxDecodeDepth + 1 = levels
  induction levels generalizing ty with
  | zero => rfl
  | succ levels ih => exact fixedSizeStep_congr h (fun ty hty => ih hty) hty

/-! ### The parts of `decode_type` -/

section Parts

variable {decode decode' : IdlType → Reader DecodeError Json}

theorem decodeTypedef_congr {typedef : IdlTypeDef}
    (h : ∀ ty, TypeWithin S ty → decode ty = decode' ty)
    (hbody : ∀ name ∈ bodyMentions typedef.ty, S name) :
    decodeTypedef data decode typedef = decodeTypedef data decode' typedef := by
  have hsame : SameBody (Alike decode decode') typedef.ty typedef.ty :=
    sameBody_refl fun ty hty => h ty (typeWithin_of_body hbody ty hty)
  funext offset
  exact decodeTypedef_same hsame (bodyAlikeAt_alike offset typedef.ty)

theorem decodeCoption_congr (h : AgreeWithin S registry registry')
    (hdecode : ∀ ty, TypeWithin S ty → decode ty = decode' ty) {args : List IdlGenericArg}
    (hargs : ∀ name ∈ argMentions args, S name) :
    decodeCoption registry data decode args = decodeCoption registry' data decode' args := by
  funext offset
  rcases args with _ | ⟨_ | _, args⟩
  · rfl
  · rename_i inner
    have hinner : TypeWithin S inner :=
      fun name hname => hargs name (by simp [argMentions, hname])
    unfold decodeCoption
    simp only [List.head?_cons, fixedSize_congr h hinner, hdecode inner hinner]
  · rfl

end Parts

theorem genericsWithin_bind {g : Generics} (hg : GenericsWithin S g)
    (defs : List IdlTypeDefGeneric) {args : List IdlGenericArg}
    (hargs : ∀ name ∈ argMentions args, S name) : GenericsWithin S (bindGenerics g defs args) := by
  induction args generalizing g defs with
  | nil =>
      rcases defs with _ | ⟨_ | _, defs⟩ <;> exact hg
  | cons arg args ih =>
      have hrest : ∀ name ∈ argMentions args, S name := by
        intro name hname
        apply hargs
        cases arg <;> simp [argMentions, hname]
      rcases defs with _ | ⟨_ | _, defs⟩
      · exact hg
      · cases arg with
        | type ty =>
            refine ih ?_ defs hrest
            intro name bound hbound
            simp only at hbound
            split at hbound
            · cases hbound
              exact fun name' hname' => hargs name' (by simp [argMentions, hname'])
            · exact hg name bound hbound
        | const value => exact ih hg defs hrest
      · exact ih hg defs hrest

theorem decodeStep_congr (h : AgreeWithin S registry registry')
    {below below' belowDefined belowDefined' : Generics → IdlType → Reader DecodeError Json}
    (hbelow : ∀ g ty, GenericsWithin S g → TypeWithin S ty → below g ty = below' g ty)
    (hdefined : ∀ g ty, GenericsWithin S g → TypeWithin S ty →
      belowDefined g ty = belowDefined' g ty)
    {g : Generics} (hg : GenericsWithin S g) {ty : IdlType} (hty : TypeWithin S ty) :
    decodeStep env registry data below belowDefined g ty =
      decodeStep env registry' data below' belowDefined' g ty := by
  funext offset
  cases ty with
  | option inner => simp only [decodeStep, hbelow g inner hg hty]
  | vec inner => simp only [decodeStep, hbelow g inner hg hty]
  | array inner len => simp only [decodeStep, hbelow g inner hg hty]
  | defined name args =>
      have hargs : ∀ name' ∈ argMentions args, S name' := by
        intro name' hname'
        apply hty
        unfold mentions
        split
        · exact hname'
        · exact List.mem_cons_of_mem _ hname'
      simp only [decodeStep]
      split
      · exact congrFun (decodeCoption_congr h (fun ty hty => hbelow g ty hg hty) hargs) offset
      · rename_i hname
        have hmem : S name := hty name (by simp [mentions, hname])
        simp only [TypeRegistry.resolve, ← h.agree name hmem]
        cases hresolved : registry.types name with
        | none => rfl
        | some typedef =>
            have hlocal := genericsWithin_bind hg typedef.generics hargs
            rw [Outcome.ok_bind, Outcome.ok_bind, decodeTypedef_congr
              (fun ty hty => hdefined _ ty hlocal hty) (h.closed name typedef hmem hresolved)]
  | generic name =>
      simp only [decodeStep]
      cases hbound : g name with
      | none => rfl
      | some resolved => exact congrFun (hbelow g resolved hg (hg name resolved hbound)) offset
  | _ => rfl

theorem decodeTypeAt_congr (h : AgreeWithin S registry registry') (levels : Nat) {g : Generics}
    (hg : GenericsWithin S g) {ty : IdlType} (hty : TypeWithin S ty) :
    decodeTypeAt env registry data levels g ty = decodeTypeAt env registry' data levels g ty := by
  induction levels using Nat.strong_induction_on generalizing g ty with
  | _ levels ih =>
      cases levels with
      | zero => rfl
      | succ levels =>
          rw [decodeTypeAt_succ, decodeTypeAt_succ]
          exact decodeStep_congr h (fun g ty hg hty => ih levels (by omega) hg hty)
            (fun g ty hg hty => ih (levels - 1) (by omega) hg hty) hg hty

end Congruence

theorem agreeWithin_used {names : List String} {registry registry' : TypeRegistry}
    (h : AgreeOn names registry registry') :
    AgreeWithin (Used registry names) registry registry' where
  agree := h
  closed _ _ hname hresolved _ hmem := .within hname hresolved hmem

theorem genericsWithin_empty {S : String → Prop} : GenericsWithin S Generics.empty := by
  intro name ty h
  cases h

/-! ## Sequences of calls -/

inductive Call where
  | instruction (programId : String) (data : DataSlice) (idl : Idl)
  | account (programId pubkey : String) (data : DataSlice) (idl : Idl)

inductive CallResult where
  | instruction (result : Result DecodedInstruction)
  | account (result : Result DecodedAccount)

namespace Call

def idl : Call → Idl
  | .instruction _ _ idl => idl
  | .account _ _ _ idl => idl

def run (env : Externs) (self : ChainparserDecoder) : Call → CallResult × ChainparserDecoder
  | .instruction programId data idl =>
      let (result, self) := self.decodeInstruction env programId data idl
      (.instruction result, self)
  | .account programId pubkey data idl =>
      let (result, self) := self.decodeAccount env programId pubkey data idl
      (.account result, self)

/-- The types that the call starts from; `none` when no discriminator of the IDL matches. -/
def roots (env : Externs) : Call → Option (List String)
  | .instruction _ data idl =>
      match findInstructionWithFallback env data.bytes idl with
      | .ok ix => some ((ix.args.map IdlField.ty).flatMap mentions)
      | .error _ => none
  | .account _ _ data idl =>
      match findAccountWithFallback env data.bytes idl with
      | .ok acct => some [acct.name]
      | .error _ => none

end Call

def decodeCalls (env : Externs) : ChainparserDecoder → List Call → List CallResult
  | _, [] => []
  | self, call :: calls =>
      let (result, self) := call.run env self
      result :: decodeCalls env self calls

/-- The IDL whose registry is kept for an address: that of the first call that used one. -/
def keptIdl (env : Externs) (calls : List Call) (address : String) : Option Idl :=
  (calls.find? fun call => call.idl.address == address && (call.roots env).isSome).map Call.idl

/-- Whenever a registry is kept for the address of a call's IDL, it has the definitions of
the IDL for all types that the call uses. -/
def SharesTypes (env : Externs) (calls : List Call) : Prop :=
  ∀ before call after, calls = before ++ call :: after →
    ∀ kept names, keptIdl env before call.idl.address = some kept →
      call.roots env = some names → AgreeOn names (.fromIdl kept) (.fromIdl call.idl)

section Calls

variable {env : Externs}

def decoderAfter (env : Externs) (calls : List Call) : ChainparserDecoder where
  registryCache address := (keptIdl env calls address).map .fromIdl

theorem keptIdl_append (before : List Call) (call : Call) (address : String) :
    keptIdl env (before ++ [call]) address =
      (keptIdl env before address).or
        (if call.idl.address = address ∧ (call.roots env).isSome then some call.idl else none) := by
  unfold keptIdl
  rw [List.find?_append]
  cases before.find? fun call => call.idl.address == address && (call.roots env).isSome with
  | some found => rfl
  | none =>
      rw [Option.none_or, Option.map_none, Option.none_or]
      by_cases h : call.idl.address = address ∧ (call.roots env).isSome = true
      · rw [if_pos h, List.find?_cons_of_pos (by simpa using h)]
        rfl
      · rw [if_neg h, List.find?_cons_of_neg (by simpa using h)]
        rfl

theorem run_snd (self : ChainparserDecoder) (call : Call) :
    (call.run env self).2 =
      if (call.roots env).isSome then (self.getOrBuildRegistry call.idl).2 else self := by
  cases call with
  | instruction programId data idl =>
      cases hfind : findInstructionWithFallback env data.bytes idl with
      | error e => simp [Call.run, ChainparserDecoder.decodeInstruction, Call.roots, hfind]
      | ok ix => simp [Call.run, ChainparserDecoder.decodeInstruction, Call.roots, Call.idl, hfind]
  | account programId pubkey data idl =>
      cases hfind : findAccountWithFallback env data.bytes idl with
      | error e => simp [Call.run, ChainparserDecoder.decodeAccount, Call.roots, hfind]
      | ok account =>
          simp [Call.run, ChainparserDecoder.decodeAccount, Call.roots, Call.idl, hfind]

theorem run_decoderAfter (before : List Call) (call : Call) :
    (call.run env (decoderAfter env before)).2 = decoderAfter env (before ++ [call]) := by
  rw [run_snd]
  unfold decoderAfter
  simp only [keptIdl_append]
  cases hroots : call.roots env with
  | none => simp
  | some names =>
      simp only [Option.isSome_some, if_true, and_true, ChainparserDecoder.getOrBuildRegistry]
      cases hkept : keptIdl env before call.idl.address with
      | some kept =>
          simp only [Option.map_some]
          congr 1
          funext address
          by_cases haddress : call.idl.address = address
          · rw [← haddress, hkept]
            rfl
          · rw [if_neg haddress, Option.or_none]
      | none =>
          simp only [Option.map_none]
          congr 1
          funext address
          by_cases haddress : call.idl.address = address
          · rw [← haddress, if_pos rfl, if_pos rfl, hkept]
            rfl
          · rw [if_neg haddress, if_neg (Ne.symm haddress), Option.or_none]

theorem registryFor_decoderAfter (before : List Call) (idl : Idl) :
    (decoderAfter env before).registryFor idl =
      match keptIdl env before idl.address with
      | some kept => .fromIdl kept
      | none => .fromIdl idl := by
  simp only [ChainparserDecoder.registryFor, decoderAfter]
  cases keptIdl env before idl.address <;> rfl

theorem decodeArgs_congr {registry registry' : TypeRegistry} {programId : String}
    {data : DataSlice} {ix : IdlInstruction}
    (h : AgreeOn ((ix.args.map IdlField.ty).flatMap mentions) registry registry') :
    ChainparserDecoder.decodeArgs env registry programId data ix =
      ChainparserDecoder.decodeArgs env registry' programId data ix := by
  have hsame : SameFields (Alike
      (fun ty => decodeType env registry data Generics.empty ty 0)
      (fun ty => decodeType env registry' data Generics.empty ty 0))
      (some (.named ix.args)) (some (.named ix.args)) := by
    apply sameFields_refl
    intro ty hty
    refine decodeTypeAt_congr (agreeWithin_used h) _ genericsWithin_empty ?_
    exact fun name hname => .named (List.mem_flatMap.mpr ⟨ty, hty, hname⟩)
  unfold ChainparserDecoder.decodeArgs
  rw [decodeNamed_same hsame (alikeFrom_alike _ _ _)]

theorem decodeAccountData_congr {registry registry' : TypeRegistry} {programId pubkey : String}
    {data : DataSlice} {account : IdlAccount} (h : AgreeOn [account.name] registry registry') :
    ChainparserDecoder.decodeAccountData env registry programId pubkey data account =
      ChainparserDecoder.decodeAccountData env registry' programId pubkey data account := by
  have hname : Used registry [account.name] account.name := .named (by simp)
  unfold ChainparserDecoder.decodeAccountData
  simp only [TypeRegistry.resolve, ← h account.name hname]
  cases hresolved : registry.types account.name with
  | none => simp only [malformed, Outcome.fail_bind]
  | some typedef =>
      have hdecode : decodeTypedef data
          (fun ty => decodeType env registry data Generics.empty ty 1) typedef =
          decodeTypedef data (fun ty => decodeType env registry' data Generics.empty ty 1)
            typedef := by
        refine decodeTypedef_congr (S := Used registry [account.name]) ?_
          fun name hmem => .within hname hresolved hmem
        intro ty hty
        exact decodeTypeAt_congr (agreeWithin_used h) _ genericsWithin_empty hty
      simp only [Outcome.ok_bind, hdecode]

theorem run_fst {before : List Call} {call : Call}
    (h : ∀ kept names, keptIdl env before call.idl.address = some kept →
      call.roots env = some names → AgreeOn names (.fromIdl kept) (.fromIdl call.idl)) :
    (call.run env (decoderAfter env before)).1 = (call.run env .new).1 := by
  cases call with
  | instruction programId data idl =>
      simp only [Call.run, ChainparserDecoder.decodeInstruction_fst, registryFor_decoderAfter,
        registryFor_new]
      simp only [Call.idl, Call.roots] at h
      cases hfind : findInstructionWithFallback env data.bytes idl with
      | error e => rw [Outcome.error_bind, Outcome.error_bind]
      | ok ix =>
          rw [hfind] at h
          rw [Outcome.ok_bind, Outcome.ok_bind]
          cases hkept : keptIdl env before idl.address with
          | none => simp only
          | some kept => simp only [decodeArgs_congr (h kept _ hkept rfl)]
  | account programId pubkey data idl =>
      simp only [Call.run, ChainparserDecoder.decodeAccount_fst, registryFor_decoderAfter,
        registryFor_new]
      simp only [Call.idl, Call.roots] at h
      cases hfind : findAccountWithFallback env data.bytes idl with
      | error e => rw [Outcome.error_bind, Outcome.error_bind]
      | ok account =>
          rw [hfind] at h
          rw [Outcome.ok_bind, Outcome.ok_bind]
          cases hkept : keptIdl env before idl.address with
          | none => simp only
          | some kept => simp only [decodeAccountData_congr (h kept _ hkept rfl)]

theorem decodeCalls_decoderAfter {before calls : List Call}
    (h : SharesTypes env (before ++ calls)) :
    decodeCalls env (decoderAfter env before) calls =
      calls.map fun call => (call.run env .new).1 := by
  induction calls generalizing before with
  | nil => rfl
  | cons call calls ih =>
      have hrest : SharesTypes env ((before ++ [call]) ++ calls) := by
        rw [List.append_assoc]
        exact h
      simp only [List.map_cons, decodeCalls, run_decoderAfter,
        run_fst (h before call calls rfl), ih hrest]

end Calls

/-- On a decoder that is used again and again, every call gives what it gives on a fresh
one, as long as the registry that is kept for an address has the definitions that the IDL
of the call has for the types it uses. -/
theorem decode_calls_of_shared_types (env : Externs) (calls : List Call)
    (h : SharesTypes env calls) :
    decodeCalls env .new calls = calls.map fun call => (call.run env .new).1 := by
  have hnew : decoderAfter env [] = .new := rfl
  rw [← @decodeCalls_decoderAfter env [] calls h, hnew]

/-! ### Versions of one program -/

def versionIdl (up : IdlType) (others : List IdlTypeDef) : Idl where
  address := "prog"
  instructions := []
  accounts := [⟨"Point", [2]⟩]
  types := ⟨"Point", .borsh, [], .struct (some (.named [⟨"up", up⟩]))⟩ :: others

def versionCall (byte : UInt8) (up : IdlType) (others : List IdlTypeDef) : Call :=
  .account "prog" "key" ⟨[2, byte], by simp [isizeMax]⟩ (versionIdl up others)

theorem used_version {name : String}
    (h : Used (.fromIdl (versionIdl .bool [])) ["Point"] name) : name = "Point" := by
  induction h with
  | named hmem => simpa using hmem
  | within _ hresolved hmem ih =>
      subst ih
      cases hresolved
      cases hmem

theorem roots_version (byte : UInt8) (up : IdlType) (others : List IdlTypeDef) :
    (versionCall byte up others).roots Externs.minimal = some ["Point"] := by
  simp [versionCall, versionIdl, Call.roots, findAccountWithFallback, findWithFallback,
    findByDiscriminator, startsWith]

theorem idl_version (byte : UInt8) (up : IdlType) (others : List IdlTypeDef) :
    (versionCall byte up others).idl = versionIdl up others := rfl

theorem address_version (up : IdlType) (others : List IdlTypeDef) :
    (versionIdl up others).address = "prog" := rfl

/-- The second version has one more type. -/
theorem decode_calls_of_shared_types_version :
    decodeCalls Externs.minimal .new
        [versionCall 1 .bool [], versionCall 0 .bool [⟨"Side", .borsh, [], .struct none⟩]] =
      [versionCall 1 .bool [], versionCall 0 .bool [⟨"Side", .borsh, [], .struct none⟩]].map
        fun call => (call.run Externs.minimal .new).1 := by
  apply decode_calls_of_shared_types
  intro before call after hcalls kept names hkept hroots
  rcases before with _ | ⟨first, _ | ⟨second, before⟩⟩
  · cases hkept
  · obtain ⟨rfl, rfl, -⟩ : first = versionCall 1 .bool [] ∧
        call = versionCall 0 .bool [⟨"Side", .borsh, [], .struct none⟩] ∧ after = [] := by
      simpa using hcalls.symm
    obtain rfl : versionIdl .bool [] = kept := by
      simpa [keptIdl, roots_version, idl_version, address_version] using hkept
    obtain rfl : ["Point"] = names := by
      simpa [roots_version] using hroots
    intro name hused
    cases used_version hused
    rfl
  · simp at hcalls

def CallResult.isOk : CallResult → Bool
  | .instruction result => result.isOk
  | .account result => result.isOk

/-- In the second version the field is a `u8`, and it is read as the `bool` of the first. -/
theorem decode_calls_of_two_versions :
    decodeCalls Externs.minimal .new [versionCall 1 .bool [], versionCall 7 (.int .u8) []] ≠
      [versionCall 1 .bool [], versionCall 7 (.int .u8) []].map
        fun call => (call.run Externs.minimal .new).1 := by
  intro h
  have hok := congrArg (List.map CallResult.isOk) h
  have hused : (decodeCalls Externs.minimal .new
      [versionCall 1 .bool [], versionCall 7 (.int .u8) []]).map CallResult.isOk =
      [true, false] := by decide +kernel
  have hfresh : ([versionCall 1 .bool [], versionCall 7 (.int .u8) []].map
      fun call => (call.run Externs.minimal .new).1).map CallResult.isOk = [true, true] := by
    decide +kernel
  rw [hused, hfresh] at hok
  cases hok

end Solarix.Decoder
