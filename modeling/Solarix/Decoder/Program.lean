import Mathlib.Data.List.Pairwise
import Solarix.Decoder.Panic
import Solarix.Types

/-!
# Decoding instructions and accounts

The discriminator lookup and `ChainparserDecoder`, with the registry cache as
explicit state.
-/

namespace Solarix.Decoder

open Solarix.Core
open BorshValue (encode encodeAll render renderAll renderStruct)

/-! ## Discriminators -/

/-- `data.len() >= disc.len() && data[..disc.len()] == disc[..]`. -/
def startsWith (data disc : List UInt8) : Bool :=
  decide (disc.length ≤ data.length) && data.take disc.length == disc

theorem startsWith_iff {data disc : List UInt8} :
    startsWith data disc = true ↔ disc <+: data := by
  unfold startsWith
  rw [Bool.and_eq_true, decide_eq_true_iff, beq_iff_eq, List.prefix_iff_eq_take, eq_comm]
  constructor
  · intro h
    exact h.2
  · intro h
    refine ⟨?_, h⟩
    rw [h]
    exact List.length_take_le' ..

section Find

variable {α : Type} (disc computed : α → List UInt8)

def findByDiscriminator (data : List UInt8) (entries : List α) : Option α :=
  entries.find? fun entry => !(disc entry).isEmpty && startsWith data (disc entry)

def findByComputed (data : List UInt8) (entries : List α) : Option α :=
  entries.find? fun entry => (disc entry).isEmpty && startsWith data (computed entry)

def unknownHex (data : List UInt8) : String :=
  if 8 ≤ data.length then hexEncode (data.take 8) else hexEncode data

def findWithFallback (data : List UInt8) (entries : List α) : Result α :=
  match findByDiscriminator disc data entries with
  | some entry => .ok entry
  | none =>
      match findByComputed disc computed data entries with
      | some entry => .ok entry
      | none => Outcome.fail (.unknownDiscriminator (unknownHex data))

/-- The explicit discriminator, or the computed one where there is none. -/
def effective (entry : α) : List UInt8 :=
  if (disc entry).isEmpty then computed entry else disc entry

/-- No entry's effective discriminator starts with another entry's. -/
def PrefixFree (entries : List α) : Prop :=
  entries.Pairwise fun a b =>
    ¬ effective disc computed a <+: effective disc computed b ∧
      ¬ effective disc computed b <+: effective disc computed a

variable {disc computed}

theorem PrefixFree.eq_of_prefix {entries : List α} (h : PrefixFree disc computed entries)
    {a b : α} (ha : a ∈ entries) (hb : b ∈ entries) {data : List UInt8}
    (hda : effective disc computed a <+: data) (hdb : effective disc computed b <+: data) :
    a = b := by
  by_contra hne
  have : Std.Symm fun a b => ¬ effective disc computed a <+: effective disc computed b ∧
      ¬ effective disc computed b <+: effective disc computed a := ⟨fun _ _ hab => hab.symm⟩
  obtain ⟨hab, hba⟩ := List.Pairwise.forall h ha hb hne
  rcases List.prefix_or_prefix_of_prefix hda hdb with hp | hp
  · exact hab hp
  · exact hba hp

theorem findByDiscriminator_some (computed : α → List UInt8) {data : List UInt8}
    {entries : List α} {entry : α}
    (h : findByDiscriminator disc data entries = some entry) :
    entry ∈ entries ∧ effective disc computed entry <+: data := by
  have hp := List.find?_some h
  rw [Bool.and_eq_true, Bool.not_eq_true', startsWith_iff] at hp
  refine ⟨List.mem_of_find?_eq_some h, ?_⟩
  rw [effective, if_neg (by rw [hp.1]; decide)]
  exact hp.2

theorem findByComputed_some {data : List UInt8} {entries : List α} {entry : α}
    (h : findByComputed disc computed data entries = some entry) :
    entry ∈ entries ∧ effective disc computed entry <+: data := by
  have hp := List.find?_some h
  rw [Bool.and_eq_true, startsWith_iff] at hp
  refine ⟨List.mem_of_find?_eq_some h, ?_⟩
  rw [effective, if_pos hp.1]
  exact hp.2

theorem findWithFallback_of_prefix {data : List UInt8} {entries : List α} {entry : α}
    (hfree : PrefixFree disc computed entries) (hmem : entry ∈ entries)
    (hfront : effective disc computed entry <+: data) :
    findWithFallback disc computed data entries = .ok entry := by
  unfold findWithFallback
  cases hexplicit : findByDiscriminator disc data entries with
  | some found =>
      obtain ⟨hfound, hp⟩ := findByDiscriminator_some computed hexplicit
      rw [hfree.eq_of_prefix hfound hmem hp hfront]
  | none =>
      have hnone := List.find?_eq_none.mp hexplicit entry hmem
      have hempty : (disc entry).isEmpty = true := by
        by_contra hne
        apply hnone
        rw [effective, if_neg hne] at hfront
        rw [Bool.and_eq_true, startsWith_iff]
        exact ⟨by simpa using hne, hfront⟩
      cases hcomputed : findByComputed disc computed data entries with
      | some found =>
          obtain ⟨hfound, hp⟩ := findByComputed_some hcomputed
          rw [hfree.eq_of_prefix hfound hmem hp hfront]
      | none =>
          have hnone' := List.find?_eq_none.mp hcomputed entry hmem
          rw [effective, if_pos hempty] at hfront
          exact absurd (by rw [hempty, startsWith_iff.mpr hfront]; rfl) hnone'

end Find

def computeInstructionDiscriminator (env : Externs) (name : String) : List UInt8 :=
  (env.sha256 (utf8Bytes ("global:" ++ name))).take 8

def computeAccountDiscriminator (env : Externs) (name : String) : List UInt8 :=
  (env.sha256 (utf8Bytes ("account:" ++ name))).take 8

/-- The comparison with a computed discriminator is one of eight bytes. -/
theorem length_computeDiscriminator (env : Externs) (bytes : List UInt8) :
    ((env.sha256 bytes).take 8).length = 8 := by
  rw [List.length_take, env.sha256_length]
  rfl

def findInstructionWithFallback (env : Externs) (data : List UInt8) (idl : Idl) :
    Result IdlInstruction :=
  findWithFallback IdlInstruction.discriminator
    (fun ix => computeInstructionDiscriminator env ix.name) data idl.instructions

def findAccountWithFallback (env : Externs) (data : List UInt8) (idl : Idl) :
    Result IdlAccount :=
  findWithFallback IdlAccount.discriminator
    (fun acct => computeAccountDiscriminator env acct.name) data idl.accounts

def discLen (discriminator : List UInt8) : Nat :=
  if discriminator.isEmpty then 8 else discriminator.length

def instructionDisc (env : Externs) : IdlInstruction → List UInt8 :=
  effective IdlInstruction.discriminator
    (fun ix => computeInstructionDiscriminator env ix.name)

def accountDisc (env : Externs) : IdlAccount → List UInt8 :=
  effective IdlAccount.discriminator
    (fun acct => computeAccountDiscriminator env acct.name)

theorem length_effective {α : Type} {disc computed : α → List UInt8} (entry : α)
    (hcomputed : (computed entry).length = 8) :
    (effective disc computed entry).length = discLen (disc entry) := by
  unfold effective discLen
  split
  · exact hcomputed
  · rfl

theorem length_instructionDisc (env : Externs) (ix : IdlInstruction) :
    (instructionDisc env ix).length = discLen ix.discriminator :=
  length_effective ix (length_computeDiscriminator env _)

theorem length_accountDisc (env : Externs) (account : IdlAccount) :
    (accountDisc env account).length = discLen account.discriminator :=
  length_effective account (length_computeDiscriminator env _)

theorem prefix_of_findWithFallback {α : Type} {disc computed : α → List UInt8}
    {data : List UInt8} {entries : List α} {entry : α}
    (h : findWithFallback disc computed data entries = .ok entry) :
    effective disc computed entry <+: data := by
  unfold findWithFallback at h
  split at h
  · rename_i found hfound
    cases h
    exact (findByDiscriminator_some computed hfound).2
  · split at h
    · rename_i found hfound
      cases h
      exact (findByComputed_some hfound).2
    · simp at h

theorem findWithFallback_not_panics {α : Type} {disc computed : α → List UInt8}
    {data : List UInt8} {entries : List α} :
    ¬ (findWithFallback disc computed data entries).Panics := by
  unfold findWithFallback
  split
  · exact Outcome.not_panics_ok _
  · split
    · exact Outcome.not_panics_ok _
    · exact Outcome.not_panics_fail _

/-! ## The decoder -/

/-- The registries built so far, by program address. -/
structure ChainparserDecoder where
  registryCache : String → Option TypeRegistry

namespace ChainparserDecoder

def new : ChainparserDecoder := ⟨fun _ => none⟩

def registryFor (self : ChainparserDecoder) (idl : Idl) : TypeRegistry :=
  (self.registryCache idl.address).getD (.fromIdl idl)

/-- The decoder after a lookup: a registry that was built is kept. -/
def getOrBuildRegistry (self : ChainparserDecoder) (idl : Idl) :
    TypeRegistry × ChainparserDecoder :=
  match self.registryCache idl.address with
  | some existing => (existing, self)
  | none =>
      let registry := TypeRegistry.fromIdl idl
      (registry, ⟨fun key => if key = idl.address then some registry else self.registryCache key⟩)

theorem getOrBuildRegistry_fst (self : ChainparserDecoder) (idl : Idl) :
    (self.getOrBuildRegistry idl).1 = self.registryFor idl := by
  unfold getOrBuildRegistry registryFor
  cases self.registryCache idl.address <;> rfl

def decodeArgs (env : Externs) (registry : TypeRegistry) (programId : String)
    (data : DataSlice) (ix : IdlInstruction) : Result DecodedInstruction := do
  let (args, _) ← decodeNamed (fun ty => decodeType env registry data Generics.empty ty 0)
    ix.args 0 (discLen ix.discriminator)
  .ok (.fromDecoded programId ix.name args)

def decodeInstruction (env : Externs) (self : ChainparserDecoder) (programId : String)
    (data : DataSlice) (idl : Idl) : Result DecodedInstruction × ChainparserDecoder :=
  match findInstructionWithFallback env data.bytes idl with
  | .error e => (.error e, self)
  | .ok ix =>
      let (registry, self) := self.getOrBuildRegistry idl
      (decodeArgs env registry programId data ix, self)

/-- The definition an account's name resolves to.  Its fields are at depth 1. -/
def decodeAccountData (env : Externs) (registry : TypeRegistry) (programId pubkey : String)
    (data : DataSlice) (account : IdlAccount) : Result DecodedAccount := do
  let typedef ← registry.resolve account.name
  checkSerialization typedef.serialization
  let discLen := discLen account.discriminator
  if data.len < discLen then
    malformed (s!"account data too short: {data.len} bytes, need at least {discLen} " ++
      "for discriminator")
  else do
    let (value, consumed) ← decodeTypedef data
      (fun ty => decodeType env registry data Generics.empty ty 1) typedef discLen
    let _ ← addUsize discLen consumed
    .ok (.fromDecoded programId account.name pubkey value)

def decodeAccount (env : Externs) (self : ChainparserDecoder) (programId pubkey : String)
    (data : DataSlice) (idl : Idl) : Result DecodedAccount × ChainparserDecoder :=
  match findAccountWithFallback env data.bytes idl with
  | .error e => (.error e, self)
  | .ok account =>
      let (registry, self) := self.getOrBuildRegistry idl
      (decodeAccountData env registry programId pubkey data account, self)

theorem registryFor_getOrBuildRegistry (self : ChainparserDecoder) (idl : Idl) :
    (self.getOrBuildRegistry idl).2.registryFor idl = self.registryFor idl := by
  unfold getOrBuildRegistry registryFor
  cases h : self.registryCache idl.address <;> simp [h]

theorem registryFor_decodeInstruction (env : Externs) (self : ChainparserDecoder)
    (programId : String) (data : DataSlice) (idl : Idl) :
    (self.decodeInstruction env programId data idl).2.registryFor idl = self.registryFor idl := by
  unfold decodeInstruction
  cases findInstructionWithFallback env data.bytes idl with
  | error e => rfl
  | ok ix => exact registryFor_getOrBuildRegistry self idl

theorem decodeInstruction_fst (env : Externs) (self : ChainparserDecoder)
    (programId : String) (data : DataSlice) (idl : Idl) :
    (self.decodeInstruction env programId data idl).1 =
      findInstructionWithFallback env data.bytes idl >>=
        decodeArgs env (self.registryFor idl) programId data := by
  unfold decodeInstruction
  cases findInstructionWithFallback env data.bytes idl with
  | error e => rfl
  | ok ix =>
      rw [Outcome.ok_bind, ← getOrBuildRegistry_fst]

theorem decodeAccount_fst (env : Externs) (self : ChainparserDecoder)
    (programId pubkey : String) (data : DataSlice) (idl : Idl) :
    (self.decodeAccount env programId pubkey data idl).1 =
      findAccountWithFallback env data.bytes idl >>=
        decodeAccountData env (self.registryFor idl) programId pubkey data := by
  unfold decodeAccount
  cases findAccountWithFallback env data.bytes idl with
  | error e => rfl
  | ok account =>
      rw [Outcome.ok_bind, ← getOrBuildRegistry_fst]

end ChainparserDecoder

theorem registryFor_new (idl : Idl) :
    ChainparserDecoder.new.registryFor idl = .fromIdl idl := rfl

/-! ## Panics -/

/-- The instruction that the data starts with leads the decoder, through its
arguments, to an array or `COption` that is too large. -/
def InstructionHits (env : Externs) (registry : TypeRegistry) (data : List UInt8)
    (idl : Idl) : Prop :=
  ∃ ix, findInstructionWithFallback env data idl = .ok ix ∧
    FieldsHit registry Generics.empty (maxDecodeDepth + 1) (ix.args.map IdlField.ty)
      (data.drop (discLen ix.discriminator))

def AccountHits (env : Externs) (registry : TypeRegistry) (data : List UInt8)
    (idl : Idl) : Prop :=
  ∃ account typedef, findAccountWithFallback env data idl = .ok account ∧
    registry.types account.name = some typedef ∧ typedef.serialization = .borsh ∧
    BodyHits registry Generics.empty maxDecodeDepth typedef.ty
      (data.drop (discLen account.discriminator))

section Program

variable {env : Externs} {registry : TypeRegistry} {data : DataSlice}

theorem discLen_le_of_instruction {idl : Idl} {ix : IdlInstruction}
    (h : findInstructionWithFallback env data.bytes idl = .ok ix) :
    discLen ix.discriminator ≤ data.len := by
  rw [← length_instructionDisc env ix]
  exact (prefix_of_findWithFallback h).length_le

theorem discLen_le_of_account {idl : Idl} {account : IdlAccount}
    (h : findAccountWithFallback env data.bytes idl = .ok account) :
    discLen account.discriminator ≤ data.len := by
  rw [← length_accountDisc env account]
  exact (prefix_of_findWithFallback h).length_le

theorem decodeArgs_panics_iff {programId : String} {ix : IdlInstruction}
    (hle : discLen ix.discriminator ≤ data.len) :
    (ChainparserDecoder.decodeArgs env registry programId data ix).Panics ↔
      FieldsHit registry Generics.empty (maxDecodeDepth + 1) (ix.args.map IdlField.ty)
        (data.bytes.drop (discLen ix.discriminator)) := by
  have hle' : 0 + discLen ix.discriminator ≤ data.len := by omega
  unfold ChainparserDecoder.decodeArgs decodeType
  rw [Outcome.panics_bind, decodeNamed_panics_iff hle', fieldPanics_iff_hit hle', Nat.zero_add]
  simp

theorem decodeAccountData_panics_iff {programId pubkey : String} {account : IdlAccount}
    (hle : discLen account.discriminator ≤ data.len) :
    (ChainparserDecoder.decodeAccountData env registry programId pubkey data account).Panics ↔
      ∃ typedef, registry.types account.name = some typedef ∧
        typedef.serialization = .borsh ∧
        BodyHits registry Generics.empty maxDecodeDepth typedef.ty
          (data.bytes.drop (discLen account.discriminator)) := by
  have hmax := data.len_lt_usizeMax
  unfold ChainparserDecoder.decodeAccountData
  constructor
  · intro h
    rw [Outcome.panics_bind] at h
    rcases h with h | ⟨typedef, htypedef, h⟩
    · exact absurd h (TypeRegistry.resolve_not_panics _)
    · rw [Outcome.panics_bind_of_not (checkSerialization_not_panics _)] at h
      obtain ⟨_, hborsh, h⟩ := h
      simp only at h
      rw [if_neg (by omega), Outcome.panics_bind] at h
      refine ⟨typedef, TypeRegistry.resolve_eq_ok.mp htypedef,
        checkSerialization_eq_ok.mp hborsh, ?_⟩
      rcases h with h | ⟨⟨v, n⟩, hv, h⟩
      · exact (decodeTypedef_panics_iff_hits hle).mp h
      · have hdecode (ty : IdlType) : SoundValue env data
            (decodeType env registry data Generics.empty ty 1)
            (Within registry Generics.empty (maxDecodeDepth + 1 - 1) ty) :=
          decodeTypeAt_sound _ Generics.empty ty
        obtain ⟨x, _, _, rfl, hat⟩ := decodeTypedef_sound hdecode typedef _ v n hle hv
        have hle' := hat.add_length_le
        simp only at h
        rw [addUsize_of_le (by omega), Outcome.ok_bind] at h
        simp at h
  · rintro ⟨typedef, hresolved, hborsh, hits⟩
    rw [TypeRegistry.resolve_eq_ok.mpr hresolved, Outcome.ok_bind,
      checkSerialization_eq_ok (u := ()) |>.mpr hborsh, Outcome.ok_bind]
    simp only
    rw [if_neg (by omega), Outcome.panics_bind]
    exact Or.inl ((decodeTypedef_panics_iff_hits hle).mpr hits)

theorem ChainparserDecoder.decodeInstruction_panics_iff (env : Externs)
    (self : ChainparserDecoder) (programId : String) (data : DataSlice) (idl : Idl) :
    (self.decodeInstruction env programId data idl).1.Panics ↔
      InstructionHits env (self.registryFor idl) data.bytes idl := by
  rw [ChainparserDecoder.decodeInstruction_fst]
  unfold findInstructionWithFallback
  rw [Outcome.panics_bind_of_not findWithFallback_not_panics]
  constructor
  · rintro ⟨ix, hix, h⟩
    exact ⟨ix, hix, (decodeArgs_panics_iff (discLen_le_of_instruction hix)).mp h⟩
  · rintro ⟨ix, hix, h⟩
    exact ⟨ix, hix, (decodeArgs_panics_iff (discLen_le_of_instruction hix)).mpr h⟩

theorem ChainparserDecoder.decodeAccount_panics_iff (env : Externs) (self : ChainparserDecoder)
    (programId pubkey : String) (data : DataSlice) (idl : Idl) :
    (self.decodeAccount env programId pubkey data idl).1.Panics ↔
      AccountHits env (self.registryFor idl) data.bytes idl := by
  rw [ChainparserDecoder.decodeAccount_fst]
  unfold findAccountWithFallback
  rw [Outcome.panics_bind_of_not findWithFallback_not_panics]
  constructor
  · rintro ⟨account, hfound, h⟩
    obtain ⟨typedef, h⟩ :=
      (decodeAccountData_panics_iff (discLen_le_of_account hfound)).mp h
    exact ⟨account, typedef, hfound, h⟩
  · rintro ⟨account, typedef, hfound, h⟩
    exact ⟨account, hfound,
      (decodeAccountData_panics_iff (discLen_le_of_account hfound)).mpr ⟨typedef, h⟩⟩

/-- Both entry points return `Ok` or `Err` exactly when the data does not lead them to
an array or `COption` that is too large. -/
theorem decoder_returns_iff (env : Externs) (self : ChainparserDecoder)
    (programId pubkey : String) (data : DataSlice) (idl : Idl) :
    ((self.decodeInstruction env programId data idl).1.Returns ↔
      ¬ InstructionHits env (self.registryFor idl) data.bytes idl) ∧
    ((self.decodeAccount env programId pubkey data idl).1.Returns ↔
      ¬ AccountHits env (self.registryFor idl) data.bytes idl) := by
  refine ⟨?_, ?_⟩
  · rw [Outcome.returns_iff_not_panics, ChainparserDecoder.decodeInstruction_panics_iff]
  · rw [Outcome.returns_iff_not_panics, ChainparserDecoder.decodeAccount_panics_iff]

end Program

/-- One instruction, whose argument is an array of 2^58 values of a type without bytes. -/
def oversizedIdl : Idl where
  address := "prog"
  instructions := [⟨"fill", [1], [⟨"items", .array (.defined "Unit" []) (.value (2 ^ 58))⟩]⟩]
  accounts := []
  types := [⟨"Unit", .borsh, [], .struct none⟩]

def oversizedData : DataSlice := ⟨[1], by decide⟩

theorem decodeInstruction_oversized_not_returns :
    ¬ (ChainparserDecoder.new.decodeInstruction Externs.minimal "prog" oversizedData
      oversizedIdl).1.Returns := by
  rw [Outcome.returns_iff_not_panics, not_not]
  exact ⟨.capacityOverflow, rfl⟩

end Solarix.Decoder
