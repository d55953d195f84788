import Solarix.Decoder.Basic

/-!
# The recursive type decoder

`decode_type`, `decode_coption`, `decode_typedef`, `decode_struct_fields` and
`fixed_size`.  The source counts the nesting depth upwards and gives up above
`MAX_DECODE_DEPTH`; here the same budget is counted downwards, so that the
recursion is structural: `levels` is `MAX_DECODE_DEPTH + 1 - depth`.
-/

namespace Solarix.Decoder

open Solarix.Core

def maxDecodeDepth : Nat := 64

/-- `size_of::<serde_json::Value>()`. -/
def valueSize : Nat := 32

/-! ## Static sizes -/

/-- `total = total.checked_add(fixed_size_inner(ty)?)?` over the types. -/
def sumSizes (size : IdlType → Option Nat) : Nat → List IdlType → Option Nat
  | total, [] => some total
  | total, ty :: types =>
      (size ty).bind fun s => (checkedAdd total s).bind fun total => sumSizes size total types

/-- One level of `fixed_size_inner`; `size` is the function one level deeper.
`IdlType::Array` with a generic length falls into the last arm. -/
def fixedSizeStep (registry : TypeRegistry) (size : IdlType → Option Nat) :
    IdlType → Option Nat
  | .bool => some 1
  | .int t => some t.width
  | .f32 => some 4
  | .f64 => some 8
  | .u256 | .i256 => some 32
  | .pubkey => some 32
  | .array inner (.value n) => (size inner).bind fun s => checkedMul s n
  | .string | .bytes => none
  | .vec _ | .option _ => none
  | .defined name args =>
      if name = "COption" then
        match args.head? with
        | some (.type inner) => (size inner).bind fun s => checkedAdd 4 s
        | _ => none
      else
        (registry.types name).bind fun typedef =>
          match typedef.ty with
          | .struct (some (.named fields)) => sumSizes size 0 (fields.map IdlField.ty)
          | .struct (some (.tuple types)) => sumSizes size 0 types
          | .type aliased => size aliased
          | _ => none
  | _ => none

def fixedSizeAt (registry : TypeRegistry) : Nat → IdlType → Option Nat
  | 0 => fun _ => none
  | levels + 1 => fixedSizeStep registry (fixedSizeAt registry levels)

def fixedSize (registry : TypeRegistry) (ty : IdlType) : Option Nat :=
  fixedSizeAt registry (maxDecodeDepth + 1) ty

/-! ## Decoding -/

def resolveArrayLen : IdlArrayLen → Result Nat
  | .value n => .ok n
  | .generic name => malformed s!"unresolved generic array length: {name}"

section Decode

variable (env : Externs) (registry : TypeRegistry) (data : DataSlice)

def decodeNamed (decode : IdlType → Reader DecodeError Json) (fields : List IdlField)
    (offset consumed : Nat) : Result (Json × Nat) := do
  let (vals, total) ← readEach (fun field : IdlField => decode field.ty) fields offset consumed
  .ok (Json.ofEntries ((fields.map IdlField.name).zip vals), total)

/-- The fields of a tuple struct or variant, as an array.  The capacity is the
length of a live `Vec<IdlType>` of larger elements, so it cannot overflow. -/
def decodeTuple (decode : IdlType → Reader DecodeError Json) (types : List IdlType)
    (offset consumed : Nat) : Result (Json × Nat) := do
  let (vals, total) ← readEach decode types offset consumed
  .ok (.arr vals, total)

def decodeStructFields (decode : IdlType → Reader DecodeError Json)
    (fields : Option IdlDefinedFields) : Reader DecodeError Json := fun offset =>
  match fields with
  | none => .ok (Json.ofEntries [], 0)
  | some (.named fields) => decodeNamed decode fields offset 0
  | some (.tuple types) => decodeTuple decode types offset 0

/-- The payload of an enum variant; a tuple of one field is not wrapped. -/
def decodePayload (decode : IdlType → Reader DecodeError Json)
    (fields : Option IdlDefinedFields) (offset consumed : Nat) : Result (Json × Nat) :=
  match fields with
  | none => .ok (Json.ofEntries [], consumed)
  | some (.named fields) => decodeNamed decode fields offset consumed
  | some (.tuple [ty]) => do
      let start ← addUsize offset consumed
      let (val, n) ← decode ty start
      let consumed ← addUsize consumed n
      .ok (val, consumed)
  | some (.tuple types) => decodeTuple decode types offset consumed

/-- `decode` is `decode_type` one level below this definition. -/
def decodeTypedef (decode : IdlType → Reader DecodeError Json) (typedef : IdlTypeDef) :
    Reader DecodeError Json := fun offset =>
  match typedef.ty with
  | .struct fields => decodeStructFields decode fields offset
  | .enum variants => do
      ensureBytes data offset 1
      let tag ← data.index offset
      match variants[tag.toNat]? with
      | none =>
          malformed s!"enum variant index {tag.toNat} out of range (max {variants.length})"
      | some variant => do
          let (payload, consumed) ← decodePayload decode variant.fields offset 1
          .ok (Json.ofEntries [(variant.name, payload)], consumed)
  | .type aliased => decode aliased offset

/-- `decode` is `decode_type` one level below the `COption`. -/
def decodeCoption (decode : IdlType → Reader DecodeError Json)
    (genericArgs : List IdlGenericArg) : Reader DecodeError Json := fun offset =>
  match genericArgs.head? with
  | some (.type innerType) =>
      match fixedSize registry innerType with
      | none => unsupported "COption with variable-size inner type"
      | some innerSize => do
          let (tag, _) ← readLe data 4 offset
          let totalConsumed ← addUsize 4 innerSize
          if tag = 0 then do
            ensureBytes data offset totalConsumed
            .ok (.null, totalConsumed)
          else if tag = 1 then do
            let start ← addUsize offset 4
            let (val, _) ← decode innerType start
            .ok (val, totalConsumed)
          else malformed s!"invalid COption tag: {tag}"
  | _ => unsupported "COption requires exactly one type argument"

def readBlob : Reader DecodeError (List UInt8) := fun offset => do
  let (len, _) ← readLe data 4 offset
  let start ← addUsize offset 4
  let bytes ← takeBytes data len start
  let size ← addUsize 4 len
  .ok (bytes, size)

/-- The body of `decode_type` after the depth check.  `below` decodes one level
deeper, `belowDefined` two levels deeper, as the fields of a definition are. -/
def decodeStep (below belowDefined : Generics → IdlType → Reader DecodeError Json)
    (generics : Generics) (ty : IdlType) : Reader DecodeError Json := fun offset =>
  match ty with
  | .bool => do
      ensureBytes data offset 1
      let val ← data.index offset
      if val = 0 then .ok (.bool false, 1)
      else if val = 1 then .ok (.bool true, 1)
      else malformed s!"invalid bool byte: 0x{hexByte val}"
  | .int t => do
      let (v, n) ← readLe data t.width offset
      .ok (intToJson t (intOfPattern t v), n)
  | .f32 => do
      let (v, n) ← readLe data 4 offset
      .ok (FloatFormat.single.toJson v, n)
  | .f64 => do
      let (v, n) ← readLe data 8 offset
      .ok (FloatFormat.double.toJson v, n)
  | .u256 | .i256 => do
      let bytes ← takeBytes data 32 offset
      .ok (.str ("0x" ++ hexEncode bytes), 32)
  | .string => do
      let (bytes, size) ← readBlob data offset
      match decodeUtf8 bytes with
      | some s => .ok (.str s, size)
      | none => malformed s!"invalid UTF-8: {env.utf8Error bytes}"
  | .bytes => do
      let (bytes, size) ← readBlob data offset
      .ok (.arr (bytes.map fun b => .int b.toNat), size)
  | .pubkey => do
      let bytes ← takeBytes data 32 offset
      .ok (.str (env.bs58Encode bytes), 32)
  | .option inner => do
      ensureBytes data offset 1
      let tag ← data.index offset
      if tag = 0 then .ok (.null, 1)
      else if tag = 1 then do
        let start ← addUsize offset 1
        let (val, consumed) ← below generics inner start
        let total ← addUsize 1 consumed
        .ok (val, total)
      else malformed s!"invalid Option tag: 0x{hexByte tag}"
  | .vec inner => do
      let (count, _) ← readLe data 4 offset
      withCapacity valueSize (min count 1024)
      let (items, consumed) ←
        readEach (fun _ : Unit => below generics inner) (List.replicate count ()) offset 4
      .ok (.arr items, consumed)
  | .array inner len => do
      let count ← resolveArrayLen len
      withCapacity valueSize count
      let (items, consumed) ←
        readEach (fun _ : Unit => below generics inner) (List.replicate count ()) offset 0
      .ok (.arr items, consumed)
  | .defined name genericArgs =>
      if name = "COption" then decodeCoption registry data (below generics) genericArgs offset
      else do
        let typedef ← registry.resolve name
        checkSerialization typedef.serialization
        let localGenerics := bindGenerics generics typedef.generics genericArgs
        decodeTypedef data (belowDefined localGenerics) typedef offset
  | .generic name =>
      match generics name with
      | some resolved => below generics resolved offset
      | none => malformed s!"unresolved generic: {name}"

/-- `decode_type` with `levels` calls of nesting left. -/
def decodeTypeAt : Nat → Generics → IdlType → Reader DecodeError Json
  | 0 => fun _ _ _ => malformed "max decode depth exceeded"
  | levels + 1 =>
      decodeStep env registry data (decodeTypeAt levels)
        (match levels with
          | 0 => fun _ _ _ => malformed "max decode depth exceeded"
          | levels + 1 => decodeTypeAt levels)

def decodeType (generics : Generics) (ty : IdlType) (depth : Nat) :
    Reader DecodeError Json :=
  decodeTypeAt env registry data (maxDecodeDepth + 1 - depth) generics ty

theorem decodeTypeAt_succ (levels : Nat) :
    decodeTypeAt env registry data (levels + 1) =
      decodeStep env registry data (decodeTypeAt env registry data levels)
        (decodeTypeAt env registry data (levels - 1)) := by
  cases levels <;> rfl

end Decode

end Solarix.Decoder
