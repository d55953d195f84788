import Mathlib.Logic.Function.Basic
import Solarix.Pipeline.Backfill
import Solarix.Pipeline.ColdStart
import Solarix.Pipeline.IndexerState
import Solarix.Pipeline.Stream

/-!
# The indexer of a program

The tables and the `indexer_state` row of one program, and the processes that write them:
`run` with its backfill and its streaming task, the catch-up after a reconnect, the
shutdown and the restarts.  The tasks interleave freely, every database call may fail, and a
process may end between any two of them.  `run_account_snapshot` has no caller.
-/

namespace Solarix.Pipeline

open Solarix.Core
open Solarix.Storage (Store Stream)

structure Setting where
  ledger : Ledger
  transactions : String → RpcTransaction
  decoder : InstructionDecoder
  programId : String
  indexFailedTxs : Bool
  startSlot : Option Nat
  backfillChunkSize : Nat
  channelCapacity : Nat
  maxConsecutiveFetchFailures : Nat

structure Database where
  store : Store
  row : IndexerState

structure Filling where
  /-- The tasks, with the tables as their last step left them. -/
  tasks : BackfillState
  stop : Nat
  /-- `total_instructions` of the writer task. -/
  totalInstructions : Nat
  /-- The writer task has been through the update of the counters. -/
  counted : Bool

inductive Live where
  | unsubscribed
  /-- With the slot of the event whose heartbeat may be due. -/
  | session (stream : StreamState) (processed : Option Nat)
  | disconnected (slot : Nat)
  | reconnecting (slot : Nat)
  | catchup (filling : Filling)
  | failing
  | ended

structure Process where
  backfill : Option Filling
  /-- The end of the backfill chunk whose heartbeat is due. -/
  chunkEnd : Option Nat
  /-- The end of the first range, as long as the tail is not decided. -/
  tail : Option Nat
  live : Live
  /-- The checkpoint that `graceful_shutdown` has read. -/
  stopping : Option (Option Nat)

structure Indexer where
  db : Database
  process : Option Process

inductive IndexerAction where
  /-- `run`, with the answer of `get_slot` and the error of the first update. -/
  | start (chainTip : Except PipelineError Nat) (error : Option String)
  | backfill (action : BackfillAction)
  | backfillHeartbeat (error : Option String)
  | countBackfill (error : Option String)
  /-- `run_backfill` joins its writer and records the outcome. -/
  | endBackfill (error : Option String)
  | tail (tailEnd : Except PipelineError Nat) (error : Option String)
  /-- The top of the loop of `run_streaming`, which ends when it is cancelled or the update
  fails. -/
  | subscribe (error : Option String)
  | stream (action : StreamAction)
  | heartbeat (error : Option String)
  | catchingUp (error : Option String)
  | giveUp (error : Option String)
  /-- The stream is connected again, `mini_backfill` reads the chain tip. -/
  | reconnected (chainTip : Except PipelineError Nat)
  | catchup (action : BackfillAction)
  | countCatchup (error : Option String)
  | endCatchup
  | readMaxCheckpointSlot
  | stop (error : Option String)
  | crash

/-! ## Fillings -/

def Filling.withStore (filling : Filling) (store : Store) : BackfillState :=
  { filling.tasks with store := store }

def Filling.over (store : Store) (start stop chunkSize : Nat) : Filling where
  tasks := .over store start stop chunkSize
  stop := stop
  totalInstructions := 0
  counted := false

namespace Database

/-- `update_indexer_state`; a failed update is logged, or ends the caller. -/
def updateState (db : Database) (status : IndexerStatus) (lastSlot : Option Nat)
    (error : Option String) : Database :=
  if error = none then { db with row := db.row.update status lastSlot } else db

/-- The end of `writer_task`. -/
def count (db : Database) (totalInstructions : Nat) (error : Option String) : Database :=
  if totalInstructions > 0 ∧ error = none then
    { db with row := db.row.incrementCounters totalInstructions 0 }
  else db

/-- `read_max_checkpoint_slot`; a negative slot counts as none. -/
def maxCheckpointSlot (db : Database) : Option Nat :=
  let slots := [Stream.backfill, .realtime, .catchup, .accounts].filterMap fun stream =>
    (db.store.checkpoints stream).map fun checkpoint => checkpoint.lastSlot
  match slots.max? with
  | some slot => if slot ≥ 0 then some slot.toNat else none
  | none => none

end Database

section Indexer

variable (setting : Setting)

/-- A step of the tasks of a filling.  The rows that a write adds are counted. -/
def fillStep (stream : Stream) (db : Database) (filling : Filling) (action : BackfillAction) :
    Option (Database × Filling) :=
  match action with
  | .otherTask _ => none
  | action =>
      (backfillStep setting.ledger setting.decoder setting.programId setting.indexFailedTxs
        setting.channelCapacity stream (filling.withStore db.store) action).map fun tasks =>
          ({ db with store := tasks.store },
            { filling with
              tasks := tasks
              totalInstructions := filling.totalInstructions +
                (tasks.store.instructions.length - db.store.instructions.length) })

/-- The update of the counters, once the writer task has left its loop. -/
def countStep (db : Database) (filling : Filling) (error : Option String) :
    Option (Database × Filling) :=
  match filling.tasks.writer, filling.counted with
  | .finished (.ok ()), false =>
      some (db.count filling.totalInstructions error, { filling with counted := true })
  | _, _ => none

def Filling.joined (filling : Filling) : Option (Except PipelineError Unit) :=
  match filling.tasks.writer with
  | .finished (.ok ()) => if filling.counted then filling.tasks.returned else none
  | _ => filling.tasks.returned

/-- `run_backfill` up to its loop: the filling, if the range has something left, or the error
of the update. -/
def beginBackfill (db : Database) (startSlot endSlot : Nat) (error : Option String) :
    Database × Except PipelineError (Option Filling) :=
  let start := effectiveStart (db.store.checkpointSlot .backfill) startSlot
  if start > endSlot then (db, .ok none)
  else
    match error with
    | none =>
        (db.updateState .backfilling (some start) none,
          .ok (some (.over db.store start endSlot setting.backfillChunkSize)))
    | some e => (db, .error (.storage e))

def Process.chunkBegun (process : Process) (filling : Filling) : BackfillAction → Option Nat
  | .listChunk _ => filling.tasks.chunks.head?.map Prod.snd
  | _ => process.chunkEnd

def backfillProcessStep (db : Database) (process : Process) :
    IndexerAction → Option (Database × Process)
  | .backfill action => do
      let filling ← process.backfill
      let (db, next) ← fillStep setting .backfill db filling action
      some (db, { process with
        backfill := some next
        chunkEnd := process.chunkBegun filling action })
  | .backfillHeartbeat error => do
      let filling ← process.backfill
      let chunkEnd ← process.chunkEnd
      if filling.tasks.producer = none ∧ filling.tasks.sending = none ∧
          (filling.tasks.cancelled ∨ filling.tasks.pending = []) then
        some (db.updateState .backfilling (some chunkEnd) error,
          { process with chunkEnd := none })
      else none
  | .countBackfill error => do
      let filling ← process.backfill
      let (db, filling) ← countStep db filling error
      some (db, { process with backfill := some filling })
  | .endBackfill error => do
      let filling ← process.backfill
      match ← filling.joined with
      | .ok () =>
          if filling.tasks.cancelled then some (db, { process with backfill := none })
          else
            some (db.updateState .idle (some filling.stop) error,
              { process with backfill := none })
      | .error _ =>
          some (db.updateState .failed none error,
            { process with backfill := none, tail := none })
  | .tail tailEnd error =>
      match process.backfill, process.tail, tailEnd with
      | none, some endSlot, .ok tailEnd =>
          if tailEnd > endSlot then
            let (db, begun) := beginBackfill setting db (endSlot + 1) tailEnd error
            -- a tail that fails is left to the streaming task
            some (db, { process with backfill := begun.toOption.join, tail := none })
          else some (db, { process with tail := none })
      | none, some _, .error _ => some (db, { process with tail := none })
      | _, _, _ => none
  | _ => none

def Live.after (stream : StreamState) (action : StreamAction) : Live :=
  match stream.ended with
  | none =>
      match action with
      | .event event .found _ =>
          if FilteredOut setting.indexFailedTxs event then .session stream none
          else .session stream (some event.slot)
      | _ => .session stream none
  | some .cancelled => .ended
  | some (.disconnect slot) => .disconnected slot
  | some (.fatal _) => .failing

def liveProcessStep (db : Database) (process : Process) :
    IndexerAction → Option (Database × Process)
  | .subscribe error =>
      match process.live with
      | .unsubscribed =>
          if error = none then
            some (db.updateState .streaming none none,
              { process with live := .session (.start db.store) none })
          else some (db, { process with live := .ended })
      | _ => none
  | .stream action =>
      match process.live, action with
      | _, .otherTask .. => none
      | .session stream _, action => do
          let stream ← streamStep setting.transactions setting.decoder setting.programId
            setting.indexFailedTxs setting.maxConsecutiveFetchFailures
            { stream with store := db.store } action
          some ({ db with store := stream.store },
            { process with live := .after setting stream action })
      | _, _ => none
  | .heartbeat error =>
      match process.live with
      | .session stream (some slot) =>
          some (db.updateState .streaming (some slot) error,
            { process with live := .session stream none })
      | _ => none
  | .catchingUp error =>
      match process.live with
      | .disconnected slot =>
          some (db.updateState .catchingUp (some slot) error,
            { process with live := .reconnecting slot })
      | _ => none
  | .giveUp error =>
      match process.live with
      | .failing => some (db.updateState .error none error, { process with live := .ended })
      | .reconnecting _ =>
          some (db.updateState .error none error, { process with live := .ended })
      | _ => none
  | .reconnected chainTip =>
      match process.live, chainTip with
      | .reconnecting slot, .ok chainTip =>
          if slot > 0 then
            some (db, { process with
              live := .catchup (.over db.store (saturatingAdd slot 1) chainTip
                setting.backfillChunkSize) })
          else some (db, { process with live := .unsubscribed })
      | .reconnecting slot, .error _ =>
          if slot > 0 then some (db, { process with live := .ended })
          else some (db, { process with live := .unsubscribed })
      | _, _ => none
  | .catchup action =>
      match process.live with
      | .catchup filling => do
          let (db, filling) ← fillStep setting .catchup db filling action
          some (db, { process with live := .catchup filling })
      | _ => none
  | .countCatchup error =>
      match process.live with
      | .catchup filling => do
          let (db, filling) ← countStep db filling error
          some (db, { process with live := .catchup filling })
      | _ => none
  | .endCatchup =>
      match process.live with
      | .catchup filling => do
          match ← filling.joined with
          | .ok () => some (db, { process with live := .unsubscribed })
          | .error _ => some (db, { process with live := .ended })
      | _ => none
  | _ => none

def startProcess (db : Database) (chainTip : Except PipelineError Nat) (error : Option String) :
    Database × Process :=
  match chainTip.bind fun tip =>
      determineInitialState db.store.checkpointSlot tip setting.startSlot with
  | .error _ => (db, ⟨none, none, none, .ended, none⟩)
  | .ok .stream => (db, ⟨none, none, none, .unsubscribed, none⟩)
  | .ok (.backfill startSlot endSlot) =>
      match beginBackfill setting db startSlot endSlot error with
      | (db, .ok filling) => (db, ⟨filling, none, some endSlot, .unsubscribed, none⟩)
      | (db, .error _) => (db, ⟨none, none, none, .unsubscribed, none⟩)

def indexerStep (st : Indexer) (action : IndexerAction) : Option Indexer :=
  match st.process, action with
  | none, .start chainTip error =>
      let (db, process) := startProcess setting st.db chainTip error
      some ⟨db, some process⟩
  | some process, .readMaxCheckpointSlot =>
      some { st with process := some { process with stopping := some st.db.maxCheckpointSlot } }
  | some process, .stop error => do
      let lastSlot ← process.stopping
      some ⟨st.db.updateState .stopped lastSlot error, none⟩
  | some _, .crash => some { st with process := none }
  | some process, action =>
      match backfillProcessStep setting st.db process action with
      | some (db, process) => some ⟨db, some process⟩
      | none =>
          (liveProcessStep setting st.db process action).map fun (db, process) =>
            ⟨db, some process⟩
  | none, _ => none

def Indexer.registered : Indexer := ⟨⟨.empty, .registered⟩, none⟩

/-! ## What a step can do -/

def Process.filling (process : Process) : Stream → Option Filling
  | .backfill => process.backfill
  | .catchup =>
      match process.live with
      | .catchup filling => some filling
      | _ => none
  | _ => none

def Indexer.filling (st : Indexer) (stream : Stream) : Option Filling :=
  st.process.bind fun process => process.filling stream

def Indexer.reconnectSlot (st : Indexer) : Option Nat :=
  st.process.bind fun process =>
    match process.live with
    | .reconnecting slot => some slot
    | _ => none

def StateUpdate (row row' : IndexerState) : Prop :=
  row' = row ∨ ∃ status lastSlot, row' = row.update status lastSlot

inductive IndexerEffect (st : Indexer) : IndexerAction → Indexer → Prop where
  | update {action : IndexerAction} {st' : Indexer} (hstore : st'.db.store = st.db.store)
      (hrow : StateUpdate st.db.row st'.db.row) (hfilling : st'.filling = st.filling) :
      IndexerEffect st action st'
  /-- A filling ends. -/
  | join {action : IndexerAction} {st' : Indexer} (stream : Stream) (filling : Filling)
      {result : Except PipelineError Unit} (hold : st.filling stream = some filling)
      (hjoined : filling.joined = some result) (hstore : st'.db.store = st.db.store)
      (hrow : StateUpdate st.db.row st'.db.row)
      (hfilling : st'.filling = Function.update st.filling stream none) :
      IndexerEffect st action st'
  /-- The process ends. -/
  | halt {action : IndexerAction} {st' : Indexer}
      (hhalt : action = .crash ∨ ∃ error, action = .stop error)
      (hstore : st'.db.store = st.db.store) (hrow : StateUpdate st.db.row st'.db.row)
      (hfilling : st'.filling = fun _ => none) : IndexerEffect st action st'
  | beginBackfill {action : IndexerAction} {st' : Indexer} (startSlot endSlot : Nat)
      (haction : ∃ error, action = .start (.ok endSlot) error ∨ action = .tail (.ok endSlot) error)
      (hold : st.filling .backfill = none) (hstore : st'.db.store = st.db.store)
      (hrow : StateUpdate st.db.row st'.db.row)
      (hfilling : st'.filling = Function.update st.filling .backfill
        (some (.over st.db.store (effectiveStart (st.db.store.checkpointSlot .backfill) startSlot)
          endSlot setting.backfillChunkSize))) : IndexerEffect st action st'
  | beginCatchup {st' : Indexer} {slot : Nat} (chainTip : Nat)
      (hslot : st.reconnectSlot = some slot) (hpos : slot > 0) (hold : st.filling .catchup = none)
      (hdb : st'.db = st.db)
      (hfilling : st'.filling = Function.update st.filling .catchup
        (some (.over st.db.store (saturatingAdd slot 1) chainTip setting.backfillChunkSize))) :
      IndexerEffect st (.reconnected (.ok chainTip)) st'
  | fill {action : IndexerAction} {st' : Indexer} (stream : Stream) (filling next : Filling)
      (taskAction : BackfillAction) (hold : st.filling stream = some filling)
      (haction : action = .backfill taskAction ∧ stream = .backfill ∨
        action = .catchup taskAction ∧ stream = .catchup)
      (hstep : fillStep setting stream st.db filling taskAction = some (st'.db, next))
      (hfilling : st'.filling = Function.update st.filling stream (some next)) :
      IndexerEffect st action st'
  | count {action : IndexerAction} {st' : Indexer} (stream : Stream) (filling next : Filling)
      (error : Option String) (hold : st.filling stream = some filling)
      (haction : action = .countBackfill error ∧ stream = .backfill ∨
        action = .countCatchup error ∧ stream = .catchup)
      (hstep : countStep st.db filling error = some (st'.db, next))
      (hfilling : st'.filling = Function.update st.filling stream (some next)) :
      IndexerEffect st action st'
  /-- The transaction of an event is written. -/
  | write {st' : Indexer} (event : StreamEvent)
      (hfiltered : ¬ FilteredOut setting.indexFailedTxs event)
      (hinstructions : eventInstructions setting.transactions setting.decoder setting.programId
        setting.indexFailedTxs event ≠ [])
      (hstore : st'.db.store = st.db.store.writeBlock .realtime
        (eventInstructions setting.transactions setting.decoder setting.programId
          setting.indexFailedTxs event) event.slot (some event.signature))
      (hrow : st'.db.row = st.db.row) (hfilling : st'.filling = st.filling) :
      IndexerEffect st (.stream (.event event .found none)) st'

end Indexer

section Effects

variable {setting : Setting} {st st' : Indexer} {db db' : Database} {process process' : Process}
  {action : IndexerAction}

theorem filling_stream {stream : Stream} {filling : Filling}
    (h : st.filling stream = some filling) :
    stream = .backfill ∨ stream = .catchup := by
  obtain ⟨db, _ | process⟩ := st
  · cases h
  · cases stream with
    | backfill => exact .inl rfl
    | catchup => exact .inr rfl
    | realtime => cases h
    | accounts => cases h

theorem StateUpdate.refl (row : IndexerState) : StateUpdate row row := .inl rfl

theorem updateState_store (db : Database) (status : IndexerStatus) (lastSlot : Option Nat)
    (error : Option String) : (db.updateState status lastSlot error).store = db.store := by
  unfold Database.updateState
  split <;> rfl

theorem updateState_row (db : Database) (status : IndexerStatus) (lastSlot : Option Nat)
    (error : Option String) : StateUpdate db.row (db.updateState status lastSlot error).row := by
  unfold Database.updateState
  split
  · exact .inr ⟨status, lastSlot, rfl⟩
  · exact .refl _

theorem IndexerEffect.of_updateState (status : IndexerStatus) (lastSlot : Option Nat)
    (error : Option String) (hfilling : process'.filling = process.filling) :
    IndexerEffect setting ⟨db, some process⟩ action
      ⟨db.updateState status lastSlot error, some process'⟩ :=
  .update (updateState_store ..) (updateState_row ..) hfilling

theorem IndexerEffect.of_process (hfilling : process'.filling = process.filling) :
    IndexerEffect setting ⟨db, some process⟩ action ⟨db, some process'⟩ :=
  .update rfl (.refl _) hfilling

theorem filling_live (process : Process) (live : Live) :
    Process.filling { process with live := live } =
      Function.update process.filling .catchup
        (match live with
          | .catchup filling => some filling
          | _ => none) := by
  funext stream
  cases stream <;> simp [Process.filling, Function.update]

theorem filling_backfill (process : Process) (filling : Option Filling)
    (chunkEnd tail : Option Nat) :
    Process.filling { process with backfill := filling, chunkEnd := chunkEnd, tail := tail } =
      Function.update process.filling .backfill filling := by
  funext stream
  cases stream <;> simp [Process.filling, Function.update]

theorem effect_of_beginBackfill {startSlot endSlot : Nat} {error : Option String}
    {chunkEnd tail : Option Nat} (hold : process.backfill = none) :
    IndexerEffect setting ⟨db, some process⟩ (.tail (.ok endSlot) error)
      ⟨(beginBackfill setting db startSlot endSlot error).1, some { process with
        backfill := (beginBackfill setting db startSlot endSlot error).2.toOption.join
        chunkEnd := chunkEnd
        tail := tail }⟩ := by
  have hnone : Process.filling { process with
      backfill := none, chunkEnd := chunkEnd, tail := tail } = process.filling := by
    rw [filling_backfill, Function.update_eq_self_iff]
    exact hold.symm
  unfold beginBackfill
  simp only
  split
  · exact .of_process hnone
  · cases error with
    | some e => exact .of_process hnone
    | none =>
        exact .beginBackfill startSlot endSlot ⟨none, .inr rfl⟩ hold (updateState_store ..)
          (updateState_row ..) (filling_backfill process _ _ _)

theorem effect_of_backfillProcessStep
    (hstep : backfillProcessStep setting db process action = some (db', process')) :
    IndexerEffect setting ⟨db, some process⟩ action ⟨db', some process'⟩ := by
  cases action with
  | backfill taskAction =>
      simp only [backfillProcessStep, Option.bind_eq_bind, Option.bind_eq_some_iff] at hstep
      obtain ⟨filling, hfilling, ⟨next, filling'⟩, hfill, hnext⟩ := hstep
      cases hnext
      exact .fill .backfill _ _ taskAction hfilling (.inl ⟨rfl, rfl⟩) hfill
        (filling_backfill process _ _ _)
  | backfillHeartbeat error =>
      simp only [backfillProcessStep, Option.bind_eq_bind, Option.bind_eq_some_iff] at hstep
      obtain ⟨filling, hfilling, chunkEnd, hchunkEnd, hnext⟩ := hstep
      split at hnext
      · cases hnext
        exact .of_updateState _ _ _ rfl
      · cases hnext
  | countBackfill error =>
      simp only [backfillProcessStep, Option.bind_eq_bind, Option.bind_eq_some_iff] at hstep
      obtain ⟨filling, hfilling, ⟨next, filling'⟩, hcount, hnext⟩ := hstep
      cases hnext
      exact .count .backfill _ _ error hfilling (.inl ⟨rfl, rfl⟩) hcount
        (filling_backfill process _ _ _)
  | endBackfill error =>
      simp only [backfillProcessStep, Option.bind_eq_bind, Option.bind_eq_some_iff] at hstep
      obtain ⟨filling, hfilling, result, hjoined, hnext⟩ := hstep
      cases result with
      | ok _ =>
          simp only at hnext
          split at hnext
          · cases hnext
            exact .join .backfill _ hfilling hjoined rfl (.refl _) (filling_backfill process _ _ _)
          · cases hnext
            exact .join .backfill _ hfilling hjoined (updateState_store ..) (updateState_row ..)
              (filling_backfill process _ _ _)
      | error e =>
          cases hnext
          exact .join .backfill _ hfilling hjoined (updateState_store ..) (updateState_row ..)
            (filling_backfill process _ _ _)
  | tail tailEnd error =>
      simp only [backfillProcessStep] at hstep
      split at hstep
      · rename_i hbackfill _
        split at hstep
        · cases hstep
          exact effect_of_beginBackfill hbackfill
        · cases hstep
          exact .of_process rfl
      · cases hstep
        exact .of_process rfl
      · cases hstep
  | _ => cases hstep

inductive TaskEffect (tasks : BackfillState) (action : BackfillAction) (tasks' : BackfillState) :
    Prop where
  | keep (hstore : tasks'.store = tasks.store) (hwriter : tasks'.writer = tasks.writer)
  | write {batch : WriteBatch} {rest : List WriteBatch} (hchannel : tasks.channel = batch :: rest)
      (hopen : ∀ result, tasks.writer ≠ .finished result)
      (hstore : tasks'.store = batch.write tasks.store) (hwriter : tasks'.writer = tasks.writer)
  /-- The receive loop ends with a failed write. -/
  | fail {error : String} (haction : action = .receive (some error))
      (hopen : ∀ result, tasks.writer ≠ .finished result) (hstore : tasks'.store = tasks.store)
  | leave (hopen : ∀ result, tasks.writer ≠ .finished result)
      (hstore : tasks'.store = tasks.store)
      (hwriter : tasks'.writer = .draining ∨ tasks'.writer = .finished (.ok ()))

theorem taskEffect_of_backfillStep {ledger : Ledger} {decoder : InstructionDecoder}
    {programId : String} {indexFailedTxs : Bool} {channelCapacity : Nat} {stream : Stream}
    {tasks tasks' : BackfillState} {action : BackfillAction}
    (hother : ∀ batch, action ≠ .otherTask batch)
    (hstep : backfillStep ledger decoder programId indexFailedTxs channelCapacity stream tasks
      action = some tasks') : TaskEffect tasks action tasks' := by
  cases action with
  | cancel =>
      cases hstep
      exact .keep rfl rfl
  | listChunk answer =>
      simp only [backfillStep] at hstep
      split at hstep
      · split at hstep <;> cases hstep <;> exact .keep rfl rfl
      · cases hstep
  | fetch error =>
      simp only [backfillStep] at hstep
      split at hstep
      · cases hstep
        cases error <;> exact .keep rfl rfl
      · cases hstep
  | send =>
      simp only [backfillStep] at hstep
      split at hstep
      · cases hstep
        exact .keep rfl rfl
      · split at hstep
        · cases hstep
          exact .keep rfl rfl
        · cases hstep
      · cases hstep
  | endChunks =>
      simp only [backfillStep] at hstep
      split at hstep
      · split at hstep
        · cases hstep
          exact .keep rfl rfl
        · cases hstep
      · cases hstep
  | receive error =>
      simp only [backfillStep] at hstep
      split at hstep
      · rename_i hwriter hchannel
        cases hstep
        exact .write hchannel (by simp [hwriter]) rfl rfl
      · rename_i hwriter _
        cases hstep
        exact .fail rfl (by simp [hwriter]) rfl
      · cases hstep
  | beginDrain =>
      simp only [backfillStep] at hstep
      split at hstep
      · rename_i hwriter
        split at hstep
        · cases hstep
          exact .leave (by simp [hwriter]) rfl (.inl rfl)
        · cases hstep
      · cases hstep
  | drain error =>
      simp only [backfillStep] at hstep
      split at hstep
      · rename_i hwriter hchannel
        cases hstep
        exact .write hchannel (by simp [hwriter]) rfl rfl
      · cases hstep
        exact .keep rfl rfl
      · cases hstep
  | endWriter =>
      simp only [backfillStep] at hstep
      split at hstep
      · rename_i hwriter _ _
        cases hstep
        exact .leave (by simp [hwriter]) rfl (.inr rfl)
      · rename_i hwriter _
        cases hstep
        exact .leave (by simp [hwriter]) rfl (.inr rfl)
      · cases hstep
  | otherTask batch => exact absurd rfl (hother batch)

theorem fillStep_eq_some {stream : Stream} {filling next : Filling} {taskAction : BackfillAction}
    (hstep : fillStep setting stream db filling taskAction = some (db', next)) :
    backfillStep setting.ledger setting.decoder setting.programId setting.indexFailedTxs
        setting.channelCapacity stream (filling.withStore db.store) taskAction =
          some next.tasks ∧
      TaskEffect (filling.withStore db.store) taskAction next.tasks ∧
      db' = { db with store := next.tasks.store } ∧
      next = { filling with
        tasks := next.tasks
        totalInstructions := filling.totalInstructions +
          (db'.store.instructions.length - db.store.instructions.length) } := by
  unfold fillStep at hstep
  split at hstep
  · cases hstep
  · rename_i hother
    rw [Option.map_eq_some_iff] at hstep
    obtain ⟨tasks, htasks, hnext⟩ := hstep
    cases hnext
    exact ⟨htasks, taskEffect_of_backfillStep hother htasks, rfl, rfl⟩

theorem fillStep_store {stream : Stream} {filling next : Filling} {taskAction : BackfillAction}
    (hstep : fillStep setting stream db filling taskAction = some (db', next)) :
    db'.row = db.row ∧ (db'.store = db.store ∨ ∃ batch rest,
      filling.tasks.channel = batch :: rest ∧ db'.store = batch.write db.store) := by
  obtain ⟨-, heffect, rfl, -⟩ := fillStep_eq_some hstep
  refine ⟨rfl, ?_⟩
  cases heffect with
  | keep hstore hwriter => exact .inl hstore
  | write hchannel hopen hstore hwriter => exact .inr ⟨_, _, hchannel, hstore⟩
  | fail haction hopen hstore => exact .inl hstore
  | leave hopen hstore hwriter => exact .inl hstore

theorem count_store (db : Database) (totalInstructions : Nat) (error : Option String) :
    (db.count totalInstructions error).store = db.store := by
  unfold Database.count
  split <;> rfl

theorem countStep_eq_some {filling next : Filling} {error : Option String}
    (hstep : countStep db filling error = some (db', next)) :
    filling.tasks.writer = .finished (.ok ()) ∧ filling.counted = false ∧
      db' = db.count filling.totalInstructions error ∧
      next = { filling with counted := true } := by
  unfold countStep at hstep
  split at hstep
  · rename_i hwriter hcounted
    cases hstep
    exact ⟨hwriter, hcounted, rfl, rfl⟩
  · cases hstep

theorem streamStep_store {stream stream' : StreamState} {action : StreamAction}
    (hother : ∀ s instructions slot signature,
      action ≠ .otherTask s instructions slot signature)
    (hstep : streamStep setting.transactions setting.decoder setting.programId
      setting.indexFailedTxs setting.maxConsecutiveFetchFailures stream action = some stream') :
    stream'.store = stream.store ∨ ∃ event, action = .event event .found none ∧
      ¬ FilteredOut setting.indexFailedTxs event ∧
      eventInstructions setting.transactions setting.decoder setting.programId
        setting.indexFailedTxs event ≠ [] ∧
      stream'.store = stream.store.writeBlock .realtime
        (eventInstructions setting.transactions setting.decoder setting.programId
          setting.indexFailedTxs event) event.slot (some event.signature) := by
  unfold streamStep at hstep
  split at hstep
  · exact absurd rfl (hother _ _ _ _)
  · rename_i event reply writeError _
    split at hstep
    · cases hstep
      exact .inl rfl
    · rename_i hfiltered
      cases hstep
      cases reply with
      | notFound => exact .inl rfl
      | failed e =>
          refine .inl ?_
          simp only [fetchEvent]
          split <;> rfl
      | found =>
          simp only [fetchEvent]
          split
          · exact .inl rfl
          · rename_i hinstructions
            cases writeError with
            | some e => exact .inl rfl
            | none => exact .inr ⟨event, rfl, hfiltered, by simpa using hinstructions, rfl⟩
  · cases hstep
    exact .inl rfl
  · cases hstep
    exact .inl rfl
  · cases hstep
    exact .inl rfl
  · cases hstep

theorem filling_unless_catchup {live live' : Live} (hlive : process.live = live)
    (hold : ∀ filling, live ≠ .catchup filling) (hnew : ∀ filling, live' ≠ .catchup filling) :
    Process.filling { process with live := live' } = process.filling := by
  rw [filling_live, Function.update_eq_self_iff]
  simp only [Process.filling, hlive]

theorem filling_session {stream : StreamState} {processed : Option Nat}
    (hlive : process.live = .session stream processed) {next : StreamState}
    {action : StreamAction} :
    Process.filling { process with live := .after setting next action } = process.filling := by
  refine filling_unless_catchup hlive (by simp) ?_
  intro filling
  unfold Live.after
  repeat' split
  all_goals simp

theorem effect_of_liveProcessStep
    (hstep : liveProcessStep setting db process action = some (db', process')) :
    IndexerEffect setting ⟨db, some process⟩ action ⟨db', some process'⟩ := by
  cases action with
  | subscribe error =>
      simp only [liveProcessStep] at hstep
      split at hstep
      · rename_i hlive
        split at hstep
        · cases hstep
          exact .of_updateState _ _ _ (filling_unless_catchup hlive (by simp) (by simp))
        · cases hstep
          exact .of_process (filling_unless_catchup hlive (by simp) (by simp))
      · cases hstep
  | stream taskAction =>
      simp only [liveProcessStep] at hstep
      split at hstep
      · cases hstep
      · rename_i hlive hother
        simp only [Option.bind_eq_bind, Option.bind_eq_some_iff] at hstep
        obtain ⟨next, hnext, hstep⟩ := hstep
        cases hstep
        obtain hstore | ⟨event, rfl, hfiltered, hinstructions, hstore⟩ :=
          streamStep_store hother hnext
        · exact .update hstore (.refl _) (filling_session hlive)
        · exact .write event hfiltered hinstructions hstore rfl (filling_session hlive)
      · cases hstep
  | heartbeat error =>
      simp only [liveProcessStep] at hstep
      split at hstep
      · rename_i hlive
        cases hstep
        exact .of_updateState _ _ _ (filling_unless_catchup hlive (by simp) (by simp))
      · cases hstep
  | catchingUp error =>
      simp only [liveProcessStep] at hstep
      split at hstep
      · rename_i hlive
        cases hstep
        exact .of_updateState _ _ _ (filling_unless_catchup hlive (by simp) (by simp))
      · cases hstep
  | giveUp error =>
      simp only [liveProcessStep] at hstep
      split at hstep
      · rename_i hlive
        cases hstep
        exact .of_updateState _ _ _ (filling_unless_catchup hlive (by simp) (by simp))
      · rename_i hlive
        cases hstep
        exact .of_updateState _ _ _ (filling_unless_catchup hlive (by simp) (by simp))
      · cases hstep
  | reconnected chainTip =>
      simp only [liveProcessStep] at hstep
      split at hstep
      · rename_i hlive
        split at hstep
        · rename_i hpos
          cases hstep
          refine .beginCatchup _ ?_ hpos ?_ rfl (filling_live process _)
          · simp only [Indexer.reconnectSlot, Option.bind_some, hlive]
          · simp only [Indexer.filling, Option.bind_some, Process.filling, hlive]
        · cases hstep
          exact .of_process (filling_unless_catchup hlive (by simp) (by simp))
      · rename_i hlive
        split at hstep <;> cases hstep
        · exact .of_process (filling_unless_catchup hlive (by simp) (by simp))
        · exact .of_process (filling_unless_catchup hlive (by simp) (by simp))
      · cases hstep
  | catchup taskAction =>
      simp only [liveProcessStep] at hstep
      split at hstep
      · rename_i hlive
        simp only [Option.bind_eq_bind, Option.bind_eq_some_iff] at hstep
        obtain ⟨⟨next, filling'⟩, hfill, hnext⟩ := hstep
        cases hnext
        refine .fill .catchup _ _ taskAction ?_ (.inr ⟨rfl, rfl⟩) hfill (filling_live process _)
        simp only [Indexer.filling, Option.bind_some, Process.filling, hlive]
      · cases hstep
  | countCatchup error =>
      simp only [liveProcessStep] at hstep
      split at hstep
      · rename_i hlive
        simp only [Option.bind_eq_bind, Option.bind_eq_some_iff] at hstep
        obtain ⟨⟨next, filling'⟩, hcount, hnext⟩ := hstep
        cases hnext
        refine .count .catchup _ _ error ?_ (.inr ⟨rfl, rfl⟩) hcount (filling_live process _)
        simp only [Indexer.filling, Option.bind_some, Process.filling, hlive]
      · cases hstep
  | endCatchup =>
      simp only [liveProcessStep] at hstep
      split at hstep
      · rename_i filling hlive
        have hold : Indexer.filling ⟨db, some process⟩ .catchup = some filling := by
          simp only [Indexer.filling, Option.bind_some, Process.filling, hlive]
        simp only [Option.bind_eq_bind, Option.bind_eq_some_iff] at hstep
        obtain ⟨result, hjoined, hnext⟩ := hstep
        cases result with
        | ok _ =>
            cases hnext
            exact .join .catchup _ hold hjoined rfl (.refl _) (filling_live process _)
        | error e =>
            cases hnext
            exact .join .catchup _ hold hjoined rfl (.refl _) (filling_live process _)
      · cases hstep
  | _ => cases hstep

theorem effect_of_startProcess (chainTip : Except PipelineError Nat) (error : Option String) :
    IndexerEffect setting ⟨db, none⟩ (.start chainTip error)
      ⟨(startProcess setting db chainTip error).1,
        some (startProcess setting db chainTip error).2⟩ := by
  have hidle : ∀ (db' : Database) (chunkEnd tail : Option Nat) (live : Live),
      (∀ filling, live ≠ .catchup filling) →
      Indexer.filling ⟨db', some ⟨none, chunkEnd, tail, live, none⟩⟩ =
        Indexer.filling ⟨db, none⟩ := by
    intro db' chunkEnd tail live hlive
    funext stream
    cases stream with
    | catchup => cases live <;> simp [Indexer.filling, Process.filling] at hlive ⊢
    | _ => rfl
  unfold startProcess
  split
  · exact .update rfl (.refl _) (hidle _ _ _ _ (by simp))
  · exact .update rfl (.refl _) (hidle _ _ _ _ (by simp))
  · rename_i startSlot endSlot hinitial
    obtain ⟨tip, rfl, hinitial⟩ := bind_eq_ok_iff.mp hinitial
    obtain ⟨-, rfl, -⟩ := determineInitialState_backfill hinitial
    unfold beginBackfill
    simp only
    by_cases hstart :
        effectiveStart (db.store.checkpointSlot .backfill) startSlot > endSlot
    · rw [if_pos hstart]
      exact .update rfl (.refl _) (hidle _ _ _ _ (by simp))
    · rw [if_neg hstart]
      cases error with
      | some e => exact .update rfl (.refl _) (hidle _ _ _ _ (by simp))
      | none =>
          refine .beginBackfill startSlot _ ⟨none, .inl rfl⟩ rfl (updateState_store ..)
            (updateState_row ..) ?_
          funext stream
          cases stream <;> rfl

theorem effect_of_indexerStep (hstep : indexerStep setting st action = some st') :
    IndexerEffect setting st action st' := by
  obtain ⟨db, _ | process⟩ := st
  · cases action with
    | start chainTip error =>
        cases hstep
        exact effect_of_startProcess chainTip error
    | _ => cases hstep
  · have hgeneral : (match backfillProcessStep setting db process action with
        | some (db, process) => some (Indexer.mk db (some process))
        | none => (liveProcessStep setting db process action).map fun (db, process) =>
            ⟨db, some process⟩) = some st' →
        IndexerEffect setting ⟨db, some process⟩ action st' := by
      intro h
      split at h
      · rename_i hbackfill
        cases h
        exact effect_of_backfillProcessStep hbackfill
      · rw [Option.map_eq_some_iff] at h
        obtain ⟨⟨db', process'⟩, hlive, h⟩ := h
        cases h
        exact effect_of_liveProcessStep hlive
    cases action with
    | readMaxCheckpointSlot =>
        cases hstep
        exact .of_process rfl
    | stop error =>
        simp only [indexerStep, Option.bind_eq_bind, Option.bind_eq_some_iff] at hstep
        obtain ⟨lastSlot, _, hstep⟩ := hstep
        cases hstep
        exact .halt (.inr ⟨error, rfl⟩) (updateState_store ..) (updateState_row ..) rfl
    | crash =>
        cases hstep
        exact .halt (.inl rfl) rfl (.refl _) rfl
    | _ => exact hgeneral hstep

end Effects

def swapSetting (startSlot : Option Nat) : Setting where
  ledger := swapLedger
  transactions := swapTransactions
  decoder := swapDecoder
  programId := "program"
  indexFailedTxs := false
  startSlot := startSlot
  backfillChunkSize := 50000
  channelCapacity := 256
  maxConsecutiveFetchFailures := 100

end Solarix.Pipeline
