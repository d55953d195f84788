import Solarix.Decoder.Basic

/-!
# RPC replies

The `Raw*` types of `rpc.rs`, their deserialisation, `parse_block` and the parsing
half of `get_transaction`.  The two parsers are separate in the source and separate
here.
-/

namespace Solarix.Pipeline

open Solarix.Decoder (DecodeError)

inductive PipelineError where
  | rpcFailed (message : String)
  | webSocketDisconnect (message : String)
  | rateLimited
  | decode (error : DecodeError)
  | storage (message : String)
  | slotSkipped (message : String)
  | fatal (message : String)
  deriving DecidableEq, Repr

def displayDecodeError : DecodeError → String
  | .unknownDiscriminator hex => s!"unknown discriminator: {hex}"
  | .deserializationFailed message => s!"deserialization failed: {message}"
  | .idlNotLoaded program => s!"IDL not loaded for program: {program}"
  | .unsupportedType message => s!"unsupported type: {message}"

def PipelineError.display : PipelineError → String
  | .rpcFailed message => s!"RPC call failed: {message}"
  | .webSocketDisconnect message => s!"WebSocket disconnected: {message}"
  | .rateLimited => "rate limited"
  | .decode error => s!"decode error: {displayDecodeError error}"
  | .storage message => s!"storage error: {message}"
  | .slotSkipped message => s!"slot skipped: {message}"
  | .fatal message => s!"fatal: {message}"

/-! ## Deserialisation

What `#[derive(Deserialize)]` does: a struct is an object, or an array of its fields in their
order.  In an object a missing `Option` is `None` and other keys are ignored; a number must
be an integer in the range of its type. -/

/-- The fields of a struct by name.  In an array, only those from the place `needed` on, which
have a default, may be missing. -/
def asStruct (fields : List String) (needed : Nat) : Json → Option Json
  | .obj entries => some (.obj entries)
  | .arr items =>
      if needed ≤ items.length ∧ items.length ≤ fields.length then
        some (.obj (fields.zip items))
      else none
  | _ => none

def asString : Json → Option String
  | .str s => some s
  | _ => none

def asInt (low high : Int) : Json → Option Int
  | .int z => if low ≤ z ∧ z < high then some z else none
  | _ => none

def asU8 (v : Json) : Option UInt8 := (asInt 0 (2 ^ 8) v).map fun z => UInt8.ofNat z.toNat

def asU64 (v : Json) : Option Nat := (asInt 0 (2 ^ 64) v).map Int.toNat

def asI64 : Json → Option Int := asInt (-2 ^ 63) (2 ^ 63)

def asVec {α : Type} (parse : Json → Option α) : Json → Option (List α)
  | .arr items => items.mapM parse
  | _ => none

def required {α : Type} (key : String) (parse : Json → Option α) (v : Json) : Option α :=
  (v.field? key).bind parse

/-- A field of type `Option<T>`. -/
def optional {α : Type} (key : String) (parse : Json → Option α) (v : Json) :
    Option (Option α) :=
  match v.field? key with
  | none | some .null => some none
  | some w => (parse w).map some

/-- A `Vec` field with `#[serde(default)]`. -/
def defaulted {α : Type} (key : String) (parse : Json → Option α) (v : Json) :
    Option (List α) :=
  match v.field? key with
  | none => some []
  | some w => asVec parse w

structure RawInstruction where
  programIdIndex : UInt8
  data : String
  accounts : List UInt8

structure RawMessage where
  accountKeys : List String
  instructions : List RawInstruction

structure RawTransactionPayload where
  message : RawMessage
  signatures : List String

structure RawInnerInstructionGroup where
  index : UInt8
  instructions : List RawInstruction

structure RawLoadedAddresses where
  writable : List String
  readonly : List String

structure RawTransactionMeta where
  err : Option Json
  innerInstructions : Option (List RawInnerInstructionGroup)
  loadedAddresses : Option RawLoadedAddresses

structure RawBlockTransaction where
  transaction : RawTransactionPayload
  txMeta : Option RawTransactionMeta

structure RawGetBlockResult where
  blockTime : Option Int
  transactions : Option (List RawBlockTransaction)

structure RawGetTransactionResult where
  slot : Nat
  transaction : RawTransactionPayload
  txMeta : Option RawTransactionMeta
  blockTime : Option Int

def RawInstruction.fromValue (v : Json) : Option RawInstruction := do
  let v ← asStruct ["programIdIndex", "data", "accounts"] 3 v
  let programIdIndex ← required "programIdIndex" asU8 v
  let data ← required "data" asString v
  let accounts ← required "accounts" (asVec asU8) v
  some ⟨programIdIndex, data, accounts⟩

def RawMessage.fromValue (v : Json) : Option RawMessage := do
  let v ← asStruct ["accountKeys", "instructions"] 2 v
  let accountKeys ← required "accountKeys" (asVec asString) v
  let instructions ← required "instructions" (asVec RawInstruction.fromValue) v
  some ⟨accountKeys, instructions⟩

def RawTransactionPayload.fromValue (v : Json) : Option RawTransactionPayload := do
  let v ← asStruct ["message", "signatures"] 2 v
  let message ← required "message" RawMessage.fromValue v
  let signatures ← required "signatures" (asVec asString) v
  some ⟨message, signatures⟩

def RawInnerInstructionGroup.fromValue (v : Json) : Option RawInnerInstructionGroup := do
  let v ← asStruct ["index", "instructions"] 2 v
  let index ← required "index" asU8 v
  let instructions ← required "instructions" (asVec RawInstruction.fromValue) v
  some ⟨index, instructions⟩

def RawLoadedAddresses.fromValue (v : Json) : Option RawLoadedAddresses := do
  let v ← asStruct ["writable", "readonly"] 0 v
  let writable ← defaulted "writable" asString v
  let readonly ← defaulted "readonly" asString v
  some ⟨writable, readonly⟩

def RawTransactionMeta.fromValue (v : Json) : Option RawTransactionMeta := do
  let v ← asStruct ["err", "innerInstructions", "loadedAddresses"] 2 v
  let err ← optional "err" some v
  let innerInstructions ←
    optional "innerInstructions" (asVec RawInnerInstructionGroup.fromValue) v
  let loadedAddresses ← optional "loadedAddresses" RawLoadedAddresses.fromValue v
  some ⟨err, innerInstructions, loadedAddresses⟩

def RawBlockTransaction.fromValue (v : Json) : Option RawBlockTransaction := do
  let v ← asStruct ["transaction", "meta"] 2 v
  let transaction ← required "transaction" RawTransactionPayload.fromValue v
  let txMeta ← optional "meta" RawTransactionMeta.fromValue v
  some ⟨transaction, txMeta⟩

def RawGetBlockResult.fromValue (v : Json) : Option RawGetBlockResult := do
  let v ← asStruct ["blockTime", "transactions"] 2 v
  let blockTime ← optional "blockTime" asI64 v
  let transactions ← optional "transactions" (asVec RawBlockTransaction.fromValue) v
  some ⟨blockTime, transactions⟩

def RawGetTransactionResult.fromValue (v : Json) : Option RawGetTransactionResult := do
  let v ← asStruct ["slot", "transaction", "meta", "blockTime"] 4 v
  let slot ← required "slot" asU64 v
  let transaction ← required "transaction" RawTransactionPayload.fromValue v
  let txMeta ← optional "meta" RawTransactionMeta.fromValue v
  let blockTime ← optional "blockTime" asI64 v
  some ⟨slot, transaction, txMeta, blockTime⟩

/-! ## Parsed types -/

structure RpcInstruction where
  programIdIndex : UInt8
  data : List UInt8
  accounts : List UInt8

structure RpcInnerInstructionGroup where
  index : UInt8
  instructions : List RpcInstruction

structure RpcTransaction where
  signature : String
  slot : Nat
  success : Bool
  accountKeys : List String
  instructions : List RpcInstruction
  innerInstructions : List RpcInnerInstructionGroup

structure RpcBlock where
  slot : Nat
  blockTime : Option Int
  transactions : List RpcTransaction

/-! ## Parsing -/

section Parse

variable (env : Externs)

def parseRawInstruction (raw : RawInstruction) : Except PipelineError RpcInstruction :=
  match env.bs58Decode raw.data with
  | .error e => .error (.rpcFailed s!"base58 decode failed: {e}")
  | .ok data => .ok ⟨raw.programIdIndex, data, raw.accounts⟩

def parseRawInnerInstructionGroup (raw : RawInnerInstructionGroup) :
    Except PipelineError RpcInnerInstructionGroup := do
  let instructions ← raw.instructions.mapM (parseRawInstruction env)
  .ok ⟨raw.index, instructions⟩

/-- `meta.err.is_none()`, true without metadata. -/
def rawSuccess (txMeta : Option RawTransactionMeta) : Bool :=
  (txMeta.map fun m => m.err.isNone).getD true

def parseInner (txMeta : Option RawTransactionMeta) :
    Except PipelineError (List RpcInnerInstructionGroup) :=
  match txMeta.bind RawTransactionMeta.innerInstructions with
  | none => .ok []
  | some groups => groups.mapM (parseRawInnerInstructionGroup env)

def withLoadedAddresses (accountKeys : List String) (txMeta : Option RawTransactionMeta) :
    List String :=
  match txMeta.bind RawTransactionMeta.loadedAddresses with
  | none => accountKeys
  | some loaded => accountKeys ++ loaded.writable ++ loaded.readonly

/-- One transaction in the loop of `parse_block`; `none` for one that is filtered out. -/
def parseBlockTransaction (slot : Nat) (indexFailedTxs : Bool) (raw : RawBlockTransaction) :
    Except PipelineError (Option RpcTransaction) :=
  let success := rawSuccess raw.txMeta
  if !indexFailedTxs && !success then .ok none
  else do
    let signature := raw.transaction.signatures.head?.getD ""
    let instructions ← raw.transaction.message.instructions.mapM (parseRawInstruction env)
    let innerInstructions ← parseInner env raw.txMeta
    let accountKeys := withLoadedAddresses raw.transaction.message.accountKeys raw.txMeta
    .ok (some ⟨signature, slot, success, accountKeys, instructions, innerInstructions⟩)

def parseBlock (slot : Nat) (value : Json) (indexFailedTxs : Bool) :
    Except PipelineError RpcBlock :=
  match RawGetBlockResult.fromValue value with
  | none => .error (.rpcFailed s!"block parse failed: {env.serdeError value}")
  | some raw => do
      let transactions ←
        (raw.transactions.getD []).mapM (parseBlockTransaction env slot indexFailedTxs)
      .ok ⟨slot, raw.blockTime, transactions.reduceOption⟩

/-- `get_transaction` on the reply of the node. -/
def getTransaction (reply : Option Json) : Except PipelineError (Option RpcTransaction) :=
  match reply with
  | none => .ok none
  | some value =>
      match RawGetTransactionResult.fromValue value with
      | none => .error (.rpcFailed s!"getTransaction parse failed: {env.serdeError value}")
      | some raw =>
          let success := rawSuccess raw.txMeta
          match raw.transaction.signatures.head? with
          | none => .error (.rpcFailed "getTransaction: transaction has no signatures")
          | some sig => do
              let instructions ←
                raw.transaction.message.instructions.mapM (parseRawInstruction env)
              let innerInstructions ← parseInner env raw.txMeta
              let accountKeys :=
                withLoadedAddresses raw.transaction.message.accountKeys raw.txMeta
              .ok (some ⟨sig, raw.slot, success, accountKeys, instructions, innerInstructions⟩)

end Parse

end Solarix.Pipeline
