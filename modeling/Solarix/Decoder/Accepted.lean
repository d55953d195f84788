import Solarix.Decoder.Program

/-!
# What the decoder accepts

An instruction or an account is decoded exactly when values of the IDL's types stand
behind the discriminator, and the result is their rendering.
-/

namespace Solarix.Decoder

open Solarix.Core
open BorshValue (encode encodeAll render renderAll renderStruct)

section Accepted

variable {env : Externs} {registry : TypeRegistry} {data : DataSlice}

/-- The data holds these argument values behind the discriminator. -/
structure ArgumentsAt (registry : TypeRegistry) (data : DataSlice) (ix : IdlInstruction)
    (xs : List BorshValue) : Prop where
  values : List.Forall₂ (Within registry Generics.empty (maxDecodeDepth + 1))
    (ix.args.map IdlField.ty) xs
  placed : data.At (discLen ix.discriminator) (encodeAll xs)

structure AccountAt (registry : TypeRegistry) (data : DataSlice) (account : IdlAccount)
    (typedef : IdlTypeDef) (x : BorshValue) : Prop where
  resolved : registry.types account.name = some typedef
  borsh : typedef.serialization = .borsh
  body : HasBody registry Generics.empty typedef.ty x
  nested : x.nesting < maxDecodeDepth + 2
  fits : x.Fits
  placed : data.At (discLen account.discriminator) (encode x)

theorem decodeArgs_eq_ok {programId : String} {ix : IdlInstruction}
    {decoded : DecodedInstruction} (hdisc : discLen ix.discriminator ≤ data.len) :
    ChainparserDecoder.decodeArgs env registry programId data ix = .ok decoded ↔
      ∃ xs, ArgumentsAt registry data ix xs ∧
        decoded = .fromDecoded programId ix.name
          (renderStruct (.named (ix.args.map IdlField.name)) (renderAll env xs)) := by
  unfold ChainparserDecoder.decodeArgs
  constructor
  · intro h
    obtain ⟨⟨args, total⟩, hargs, h⟩ := Outcome.bind_eq_ok.mp h
    cases h
    obtain ⟨xs, hxs, rfl, _, hat⟩ := decodeNamed_sound
      (fun ty => decodeTypeAt_sound (maxDecodeDepth + 1) Generics.empty ty)
      (show 0 + discLen ix.discriminator ≤ data.len by omega) hargs
    rw [Nat.zero_add] at hat
    exact ⟨xs, ⟨hxs, hat⟩, rfl⟩
  · rintro ⟨xs, ⟨hvalues, hat⟩, rfl⟩
    have hread : List.Forall₂ (fun ty x => ReadsValue env data
        (decodeType env registry data Generics.empty ty 0) x) (ix.args.map IdlField.ty) xs :=
      hvalues.imp fun _ _ hx => decodeTypeAt_complete hx
    rw [decodeNamed_of_at hread (show data.At (0 + _) _ by rw [Nat.zero_add]; exact hat),
      Outcome.ok_bind]

theorem decodeAccountData_eq_ok {programId pubkey : String} {account : IdlAccount}
    {decoded : DecodedAccount} :
    ChainparserDecoder.decodeAccountData env registry programId pubkey data account =
        .ok decoded ↔
      ∃ typedef x, AccountAt registry data account typedef x ∧
        decoded = .fromDecoded programId account.name pubkey (render env x) := by
  unfold ChainparserDecoder.decodeAccountData
  constructor
  · intro h
    obtain ⟨typedef, hresolved, h⟩ := Outcome.bind_eq_ok.mp h
    obtain ⟨_, hborsh, h⟩ := Outcome.bind_eq_ok.mp h
    rw [TypeRegistry.resolve_eq_ok] at hresolved
    rw [checkSerialization_eq_ok] at hborsh
    simp only at h
    split at h
    · simp [malformed] at h
    · rename_i hlen
      obtain ⟨⟨value, consumed⟩, hvalue, h⟩ := Outcome.bind_eq_ok.mp h
      obtain ⟨_, _, h⟩ := Outcome.bind_eq_ok.mp h
      cases h
      have hsound : SoundValue env data
          (decodeTypedef data (fun ty => decodeType env registry data Generics.empty ty 1)
            typedef) fun x =>
          HasBody registry Generics.empty typedef.ty x ∧ x.nesting < maxDecodeDepth + 2 ∧
            x.Fits :=
        decodeTypedef_sound (fun ty => decodeTypeAt_sound maxDecodeDepth Generics.empty ty)
          typedef
      obtain ⟨x, ⟨hbody, hnest, hfits⟩, rfl, _, hat⟩ := hsound _ _ _ (by omega) hvalue
      exact ⟨typedef, x, ⟨hresolved, hborsh, hbody, hnest, hfits, hat⟩, rfl⟩
  · rintro ⟨typedef, x, h, rfl⟩
    have hbelow (ty : IdlType) (y : BorshValue)
        (hy : Within registry Generics.empty (maxDecodeDepth + 2 - 2) ty y) :
        ReadsValue env data (decodeType env registry data Generics.empty ty 1) y :=
      decodeTypeAt_complete hy
    have hread := decodeTypedef_of_at hbelow h.body h.nested h.fits
    have hstart := h.placed.1
    have hend := h.placed.add_length_le
    have hmax := data.len_lt_usizeMax
    rw [TypeRegistry.resolve_eq_ok.mpr h.resolved, Outcome.ok_bind,
      checkSerialization_eq_ok (u := ()) |>.mpr h.borsh, Outcome.ok_bind]
    simp only
    rw [if_neg (by omega), hread _ h.placed, Outcome.ok_bind]
    simp only
    rw [addUsize_of_le (by omega), Outcome.ok_bind]

theorem decodeInstruction_eq_ok {self : ChainparserDecoder} {programId : String} {idl : Idl}
    {decoded : DecodedInstruction} :
    (self.decodeInstruction env programId data idl).1 = .ok decoded ↔
      ∃ ix, findInstructionWithFallback env data.bytes idl = .ok ix ∧
        ∃ xs, ArgumentsAt (self.registryFor idl) data ix xs ∧
          decoded = .fromDecoded programId ix.name
            (renderStruct (.named (ix.args.map IdlField.name)) (renderAll env xs)) := by
  rw [ChainparserDecoder.decodeInstruction_fst, Outcome.bind_eq_ok]
  apply exists_congr
  intro ix
  apply and_congr_right
  intro hfind
  exact decodeArgs_eq_ok (discLen_le_of_instruction hfind)

theorem decodeAccount_eq_ok {self : ChainparserDecoder} {programId pubkey : String} {idl : Idl}
    {decoded : DecodedAccount} :
    (self.decodeAccount env programId pubkey data idl).1 = .ok decoded ↔
      ∃ account, findAccountWithFallback env data.bytes idl = .ok account ∧
        ∃ typedef x, AccountAt (self.registryFor idl) data account typedef x ∧
          decoded = .fromDecoded programId account.name pubkey (render env x) := by
  rw [ChainparserDecoder.decodeAccount_fst, Outcome.bind_eq_ok]
  simp only [decodeAccountData_eq_ok]

end Accepted

end Solarix.Decoder
