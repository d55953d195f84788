import Solarix.Core.LittleEndian
import Solarix.Core.Reader
import Solarix.Core.Text
import Solarix.Externs
import Solarix.Idl
import Solarix.Json

/-!
# Decoder errors, the type registry and the scalar readers

The helpers of `decoder/mod.rs` that `decode_type` is built from.
-/

namespace Solarix.Decoder

open Solarix.Core

inductive DecodeError where
  | unknownDiscriminator (hex : String)
  | deserializationFailed (message : String)
  | idlNotLoaded (program : String)
  | unsupportedType (message : String)
  deriving DecidableEq, Repr

abbrev Result (α : Type) := Outcome DecodeError α

/-- `Err(DecodeError::DeserializationFailed(message))`. -/
def malformed {α : Type} (message : String) : Result α :=
  Outcome.fail (.deserializationFailed message)

/-- `Err(DecodeError::UnsupportedType(message))`. -/
def unsupported {α : Type} (message : String) : Result α :=
  Outcome.fail (.unsupportedType message)

/-! ## Type registry -/

/-- The named types of an IDL.  A later definition replaces an earlier one of
the same name. -/
structure TypeRegistry where
  types : String → Option IdlTypeDef

namespace TypeRegistry

def fromIdl (idl : Idl) : TypeRegistry where
  types := idl.types.foldl
    (fun types td name => if name = td.name then some td else types name)
    (fun _ => none)

def resolve (registry : TypeRegistry) (name : String) : Result IdlTypeDef :=
  match registry.types name with
  | some td => .ok td
  | none => malformed s!"unknown type: {name}"

end TypeRegistry

/-- Bindings of type parameters, `HashMap<String, IdlType>`. -/
abbrev Generics := String → Option IdlType

def Generics.empty : Generics := fun _ => none

/-- The bindings for the body of a definition: its type parameters are bound to
the arguments in order, over what was bound before. -/
def bindGenerics (generics : Generics) :
    List IdlTypeDefGeneric → List IdlGenericArg → Generics
  | .type name :: defs, .type ty :: args =>
      bindGenerics (fun n => if n = name then some ty else generics n) defs args
  | _ :: defs, _ :: args => bindGenerics generics defs args
  | _, _ => generics

def checkSerialization : IdlSerialization → Result Unit
  | .borsh => .ok ()
  | .bytemuck => unsupported "Bytemuck serialization is not supported"
  | .bytemuckUnsafe => unsupported "BytemuckUnsafe serialization is not supported"
  | .custom _ => unsupported "non-Borsh serialization is not supported"

theorem checkSerialization_eq_ok {ser : IdlSerialization} {u : Unit} :
    checkSerialization ser = .ok u ↔ ser = .borsh := by
  cases ser <;> simp [checkSerialization, unsupported]

theorem checkSerialization_not_panics (ser : IdlSerialization) :
    ¬ (checkSerialization ser).Panics := by
  cases ser <;> simp [checkSerialization, unsupported]

/-! ## Hexadecimal -/

def hexDigit (n : Nat) : Char :=
  if n < 10 then Char.ofNat (48 + n) else Char.ofNat (87 + n)

/-- `format!("{b:02x}")`. -/
def hexByte (b : UInt8) : String :=
  String.ofList [hexDigit (b.toNat / 16), hexDigit (b.toNat % 16)]

def hexEncode (bytes : List UInt8) : String := String.join (bytes.map hexByte)

theorem toList_hexEncode (bytes : List UInt8) :
    (hexEncode bytes).toList =
      bytes.flatMap fun b => [hexDigit (b.toNat / 16), hexDigit (b.toNat % 16)] := by
  unfold hexEncode
  induction bytes with
  | nil => rfl
  | cons b bytes ih =>
      rw [List.map_cons, List.flatMap_cons, ← ih]
      simp [String.join_cons, hexByte]

/-! ## Scalars -/

def ensureBytes (data : DataSlice) (offset needed : Nat) : Result Unit :=
  match checkedAdd offset needed with
  | some stop =>
      if data.len < stop then
        malformed s!"unexpected EOF: need {needed} bytes at offset {offset}, have {data.len}"
      else .ok ()
  | none =>
      malformed s!"unexpected EOF: need {needed} bytes at offset {offset}, have {data.len}"

/-- The bytes `data[offset..offset + size]`, after `ensure_bytes`. -/
def takeBytes (data : DataSlice) (size offset : Nat) : Result (List UInt8) := do
  ensureBytes data offset size
  let stop ← addUsize offset size
  data.slice offset stop

/-- The `read_le!` readers, as the unsigned number in the bytes read. -/
def readLe (data : DataSlice) (size : Nat) : Reader DecodeError Nat := fun offset => do
  let buf ← takeBytes data size offset
  .ok (leNat buf, size)

/-- The integer that `from_le_bytes` gives for the unsigned pattern `n`. -/
def intOfPattern (t : IntType) (n : Nat) : Int :=
  if t.signed then toSigned t.bits n else n

/-- Integers up to 64 bits become JSON numbers, wider ones decimal strings. -/
def intToJson (t : IntType) (z : Int) : Json :=
  match t with
  | .u128 | .i128 => .str (toString z)
  | _ => .int z

structure FloatFormat where
  exponentBits : Nat
  mantissaBits : Nat

def FloatFormat.single : FloatFormat := ⟨8, 23⟩

def FloatFormat.double : FloatFormat := ⟨11, 52⟩

namespace FloatFormat

def width (f : FloatFormat) : Nat := (1 + f.exponentBits + f.mantissaBits) / 8

def exponent (f : FloatFormat) (bits : Nat) : Nat :=
  bits / 2 ^ f.mantissaBits % 2 ^ f.exponentBits

def mantissa (f : FloatFormat) (bits : Nat) : Nat := bits % 2 ^ f.mantissaBits

def negative (f : FloatFormat) (bits : Nat) : Bool :=
  bits / 2 ^ (f.exponentBits + f.mantissaBits) = 1

def isFinite (f : FloatFormat) (bits : Nat) : Bool :=
  f.exponent bits ≠ 2 ^ f.exponentBits - 1

/-- `format_non_finite_f32` and `format_non_finite_f64`. -/
def formatNonFinite (f : FloatFormat) (bits : Nat) : String :=
  if f.mantissa bits ≠ 0 then "NaN"
  else if f.negative bits then "-Infinity"
  else "Infinity"

/-- The double equal to a finite float of the format, by its bits.  The
conversion is exact; a subnormal single becomes a normal double. -/
def toDouble (f : FloatFormat) (bits : Nat) : Nat :=
  let sign := if f.negative bits then 2 ^ 63 else 0
  let bias := 2 ^ (f.exponentBits - 1) - 1
  let m := f.mantissa bits
  if f.exponentBits = 11 then bits
  else if f.exponent bits = 0 then
    if m = 0 then sign
    else
      let top := Nat.log2 m
      sign + (top + 1024 - bias - f.mantissaBits) * 2 ^ 52
        + (m * 2 ^ (52 - top)) % 2 ^ 52
  else sign + (f.exponent bits + 1023 - bias) * 2 ^ 52 + m * 2 ^ (52 - f.mantissaBits)

def toJson (f : FloatFormat) (bits : Nat) : Json :=
  if f.isFinite bits then .float (f.toDouble bits) else .str (f.formatNonFinite bits)

end FloatFormat

/-! ## What the readers accept -/

theorem ensureBytes_of_le {data : DataSlice} {offset needed : Nat}
    (h : offset + needed ≤ data.len) : ensureBytes data offset needed = .ok () := by
  have hmax := data.len_lt_usizeMax
  unfold ensureBytes
  rw [checkedAdd_eq_some.mpr ⟨by omega, rfl⟩]
  simp only
  rw [if_neg (by omega)]

theorem ensureBytes_eq_ok {data : DataSlice} {offset needed : Nat} {u : Unit} :
    ensureBytes data offset needed = .ok u ↔ offset + needed ≤ data.len := by
  constructor
  · intro h
    unfold ensureBytes at h
    split at h
    · rename_i stop hstop
      obtain ⟨_, rfl⟩ := checkedAdd_eq_some.mp hstop
      split at h
      · simp [malformed] at h
      · omega
    · simp [malformed] at h
  · exact ensureBytes_of_le

theorem ensureBytes_not_panics (data : DataSlice) (offset needed : Nat) :
    ¬ (ensureBytes data offset needed).Panics := by
  unfold ensureBytes
  split
  · split <;> simp [malformed]
  · simp [malformed]

theorem takeBytes_of_at {data : DataSlice} {offset size : Nat} {bs : List UInt8}
    (h : data.At offset bs) (hsize : bs.length = size) :
    takeBytes data size offset = .ok bs := by
  have hmax := data.len_lt_usizeMax
  have hle := h.add_length_le
  subst hsize
  unfold takeBytes
  rw [ensureBytes_of_le hle, Outcome.ok_bind, addUsize_of_le (by omega),
    Outcome.ok_bind, h.slice]

theorem takeBytes_eq_ok {data : DataSlice} {offset size : Nat} {bs : List UInt8}
    (h : takeBytes data size offset = .ok bs) :
    data.At offset bs ∧ bs.length = size := by
  unfold takeBytes at h
  obtain ⟨_, _, h⟩ := Outcome.bind_eq_ok.mp h
  obtain ⟨stop, hstop, h⟩ := Outcome.bind_eq_ok.mp h
  obtain ⟨_, rfl⟩ := addUsize_eq_ok.mp hstop
  exact DataSlice.slice_eq_ok h

theorem takeBytes_not_panics (data : DataSlice) (size offset : Nat) :
    ¬ (takeBytes data size offset).Panics := by
  intro h
  have hmax := data.len_lt_usizeMax
  unfold takeBytes at h
  rw [Outcome.panics_bind_of_not (ensureBytes_not_panics _ _ _)] at h
  obtain ⟨_, hle, h⟩ := h
  rw [ensureBytes_eq_ok] at hle
  rw [addUsize_of_le (by omega), Outcome.ok_bind] at h
  unfold DataSlice.slice at h
  rw [if_pos ⟨by omega, hle⟩] at h
  simp at h

theorem readLe_of_at {data : DataSlice} {offset size n : Nat} {bs : List UInt8}
    (h : data.At offset bs) (hsize : bs.length = size) (hn : leNat bs = n) :
    readLe data size offset = .ok (n, size) := by
  unfold readLe
  rw [takeBytes_of_at h hsize, Outcome.ok_bind, hn]

theorem readLe_eq_ok {data : DataSlice} {offset size n m : Nat}
    (h : readLe data size offset = .ok (n, m)) :
    m = size ∧ n < 256 ^ size ∧ data.At offset (leBytes size n) := by
  unfold readLe at h
  obtain ⟨bs, hbs, h⟩ := Outcome.bind_eq_ok.mp h
  cases h
  obtain ⟨hat, rfl⟩ := takeBytes_eq_ok hbs
  exact ⟨rfl, leNat_lt bs, by rw [leBytes_leNat]; exact hat⟩

theorem readLe_not_panics (data : DataSlice) (size offset : Nat) :
    ¬ (readLe data size offset).Panics := by
  unfold readLe
  rw [Outcome.panics_bind_of_not (takeBytes_not_panics _ _ _)]
  simp

end Solarix.Decoder
