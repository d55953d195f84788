import Solarix.Storage.Writer

/-!
# The `indexer_state` row

The row of a program that the pipeline, its writer tasks and the shutdown update.
`last_heartbeat` and `error_message` are left out: no modelled function reads them.
-/

namespace Solarix.Pipeline

open Solarix.Core
open Solarix.Storage (slotToI64)

inductive IndexerStatus where
  | initializing
  | backfilling
  | idle
  | failed
  | streaming
  | catchingUp
  | error
  | stopped
  deriving DecidableEq, Repr

structure IndexerState where
  status : IndexerStatus
  lastProcessedSlot : Option Int
  totalInstructions : Int
  totalAccounts : Int
  deriving DecidableEq, Repr

namespace IndexerState

def registered : IndexerState where
  status := .initializing
  lastProcessedSlot := none
  totalInstructions := 0
  totalAccounts := 0

/-- `update_indexer_state`; the slot is bound `as i64`. -/
def update (row : IndexerState) (status : IndexerStatus) (lastSlot : Option Nat) :
    IndexerState :=
  { row with
    status := status
    lastProcessedSlot :=
      match lastSlot with
      | none => row.lastProcessedSlot
      | some slot => some (max (row.lastProcessedSlot.getD 0) (slotToI64 slot)) }

def incrementCounters (row : IndexerState) (instructions accounts : Nat) : IndexerState :=
  { row with
    totalInstructions := row.totalInstructions + instructions
    totalAccounts := row.totalAccounts + accounts }

end IndexerState

end Solarix.Pipeline
