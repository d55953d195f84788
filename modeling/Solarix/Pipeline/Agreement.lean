import Mathlib.Data.List.ReduceOption
import Solarix.Core.Traverse
import Solarix.Pipeline.Decode

/-!
# Backfill and streaming rows

The same transaction reaches `_instructions` along two paths: in the `getBlock` reply
of its slot through `parse_block` and `decode_block`, and in its `getTransaction` reply
through `get_transaction` and `decode_transaction`.
-/

namespace Solarix.Pipeline

open Solarix.Core
open Solarix.Storage (Store InstructionRecord decomposeInstruction)

section Paths

variable (env : Externs) (decoder : InstructionDecoder) (programId : String)
  (indexFailedTxs : Bool)

def Kept (raw : RawBlockTransaction) : Prop :=
  indexFailedTxs = true ∨ rawSuccess raw.txMeta = true

end Paths

/-! ## The parsed transaction -/

section Parsed

variable {env : Externs} {decoder : InstructionDecoder} {programId : String}
  {indexFailedTxs : Bool} {slot : Nat} {sig : String} {raw : RawBlockTransaction}

end Parsed

/-! ## The rows of the two paths -/

section Rows

variable {env : Externs} {decoder : InstructionDecoder} {programId : String}
  {indexFailedTxs : Bool} {slot : Nat} {blockTime : Option Int} {sig : String}
  {raw : RawBlockTransaction} {before after : List Json} {block reply : Json}

end Rows

/-! ## A transaction with a block time -/

end Solarix.Pipeline
