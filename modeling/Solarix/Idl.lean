import Solarix.Core.Outcome

/-!
# Anchor IDL

The part of `anchor_lang_idl_spec` that the decoder reads.  Docs, metadata,
events, errors and constants are left out: no modelled function looks at them.
-/

namespace Solarix

/-- The integer types of at most 128 bits. -/
inductive IntType where
  | u8 | i8 | u16 | i16 | u32 | i32 | u64 | i64 | u128 | i128
  deriving DecidableEq, Repr

namespace IntType

def width : IntType → Nat
  | .u8 | .i8 => 1
  | .u16 | .i16 => 2
  | .u32 | .i32 => 4
  | .u64 | .i64 => 8
  | .u128 | .i128 => 16

def bits (t : IntType) : Nat := 8 * t.width

def signed : IntType → Bool
  | .u8 | .u16 | .u32 | .u64 | .u128 => false
  | .i8 | .i16 | .i32 | .i64 | .i128 => true

end IntType

inductive IdlArrayLen where
  | generic (name : String)
  | value (n : Nat)
  deriving DecidableEq, Repr

mutual

/-- `IdlType`, with the ten integer variants up to 128 bits folded into `int`. -/
inductive IdlType where
  | bool
  | int (t : IntType)
  | f32
  | f64
  | u256
  | i256
  | bytes
  | string
  | pubkey
  | option (inner : IdlType)
  | vec (inner : IdlType)
  | array (inner : IdlType) (len : IdlArrayLen)
  | defined (name : String) (generics : List IdlGenericArg)
  | generic (name : String)

inductive IdlGenericArg where
  | type (ty : IdlType)
  | const (value : String)

end

structure IdlField where
  name : String
  ty : IdlType

inductive IdlDefinedFields where
  | named (fields : List IdlField)
  | tuple (types : List IdlType)

structure IdlEnumVariant where
  name : String
  fields : Option IdlDefinedFields

inductive IdlTypeDefTy where
  | struct (fields : Option IdlDefinedFields)
  | enum (variants : List IdlEnumVariant)
  | type (aliased : IdlType)

inductive IdlSerialization where
  | borsh
  | bytemuck
  | bytemuckUnsafe
  | custom (name : String)
  deriving DecidableEq, Repr

inductive IdlTypeDefGeneric where
  | type (name : String)
  | const (name : String) (ty : String)

structure IdlTypeDef where
  name : String
  serialization : IdlSerialization
  generics : List IdlTypeDefGeneric
  ty : IdlTypeDefTy

structure IdlInstruction where
  name : String
  discriminator : List UInt8
  args : List IdlField

structure IdlAccount where
  name : String
  discriminator : List UInt8

structure Idl where
  address : String
  instructions : List IdlInstruction
  accounts : List IdlAccount
  types : List IdlTypeDef

end Solarix
