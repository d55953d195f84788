import Solarix.Json

/-!
# Shared data types

`types.rs`: what the decoder returns and the pipeline completes.
-/

namespace Solarix

structure DecodedInstruction where
  signature : String
  slot : Nat
  blockTime : Option Int
  instructionName : String
  args : Json
  programId : String
  accounts : List String
  instructionIndex : UInt8
  innerIndex : Option UInt8

namespace DecodedInstruction

/-- The decoder's output, before the pipeline fills in where it was found. -/
def fromDecoded (programId instructionName : String) (args : Json) : DecodedInstruction where
  signature := ""
  slot := 0
  blockTime := none
  instructionName := instructionName
  args := args
  programId := programId
  accounts := []
  instructionIndex := 0
  innerIndex := none

end DecodedInstruction

structure DecodedAccount where
  pubkey : String
  slotUpdated : Nat
  lamports : Nat
  data : Json
  accountType : String
  programId : String

namespace DecodedAccount

def fromDecoded (programId accountType pubkey : String) (data : Json) : DecodedAccount where
  pubkey := pubkey
  slotUpdated := 0
  lamports := 0
  data := data
  accountType := accountType
  programId := programId

end DecodedAccount

end Solarix
