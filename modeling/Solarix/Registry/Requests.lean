import Solarix.Core.Steps
import Solarix.Registry.Registration

/-!
# Requests in flight

`do_register` and `delete_program` with `drop_tables`, for one program, as tasks that share
the IDL cache and the database.  A task is interrupted between its lock sections and its
calls to the database; one step of the system is one of these, with its outcome.
-/

namespace Solarix.Registry

open Solarix.Core
open Solarix.Api (ApiError)

inductive Request where
  | register (idl : Option Json)
  | hardDelete

/-- What a registration carries from its preparation on: `own` is the IDL that the request
itself supplied or fetched. -/
structure Registration where
  data : RegistrationData
  own : Option String
  autoFetched : Bool

inductive Phase where
  | readingCache
  | fetching
  | caching (idlJson : String) (source : IdlSource)
  | preparing (idlJson own : Option String) (autoFetched : Bool)
  | writing (reg : Registration)
  | generating (reg : Registration)
  | updating (reg : Registration)
  | marking (reg : Registration) (e : RegistrationError)
  | rollingBack (reg : Registration) (e : RegistrationError)
  | selecting
  | dropping (schemaName : String)
  | deleting
  | removing

inductive Event where
  | readCache
  | fetch (fromChain fromBundled : Except IdlError String)
  | insertFetched
  | prepare
  | writeRegistration (faults : Faults)
  | generateSchema (faults : Faults)
  | updateStatus (fault : Option String)
  | markError (fault : Option String)
  | rollback
  | selectSchema (fault : Option String)
  | dropSchema (fault : Option String)
  | deleteRows (faults : Faults)
  | removeProgram

/-- A response other than an error: 201 or 200. -/
inductive Response where
  | created
  | deleted
  deriving DecidableEq, Repr

inductive Next where
  | go (phase : Phase)
  | answer (outcome : Except ApiError Response) (own : Option String)

/-- After a failed commit: a rollback of the cache entry if the request has added it. -/
def Registration.failed (reg : Registration) (e : RegistrationError) : Next :=
  if !reg.data.wasCached || reg.autoFetched then .go (.rollingBack reg e)
  else .answer (.error e.toApi) reg.own

section Advance

variable (env : Externs) (codec : IdlCodec) (programId : String)

def Request.start : Request → Phase
  | .register (some idl) => .preparing (some (codec.toStr idl)) (some (codec.toStr idl)) false
  | .register none => .readingCache
  | .hardDelete => .selecting

def advance (manager : IdlManager) (db : ProgramDb) :
    Phase → Event → Option (IdlManager × ProgramDb × Next)
  -- auto_fetch_idl
  | .readingCache, .readCache =>
      if (manager.getCached programId).isSome then
        some (manager, db, .go (.preparing none none false))
      else some (manager, db, .go .fetching)
  | .fetching, .fetch fromChain fromBundled =>
      match fetchIdlStandalone fromChain fromBundled with
      | .error e => some (manager, db, .answer (.error (.idlError e.display)) none)
      | .ok (idlJson, source) => some (manager, db, .go (.caching idlJson source))
  | .caching idlJson source, .insertFetched =>
      match manager.insertFetchedIdl env codec programId idlJson source with
      | .error e => some (manager, db, .answer (.error (.idlError e.display)) (some idlJson))
      | .ok manager => some (manager, db, .go (.preparing none (some idlJson) true))
  -- prepare_registration
  | .preparing idlJson own autoFetched, .prepare =>
      match manager.prepareRegistration env codec programId idlJson with
      | (.error e, manager) => some (manager, db, .answer (.error e.toApi) own)
      | (.ok data, manager) => some (manager, db, .go (.writing ⟨data, own, autoFetched⟩))
  -- commit_registration; the metadata seeding writes rows of `_metadata` only, and its
  -- failure is ignored
  | .writing reg, .writeRegistration faults =>
      match writeRegistration faults reg.data db with
      | .error e => some (manager, db, reg.failed e)
      | .ok db => some (manager, db, .go (.generating reg))
  | .generating reg, .generateSchema faults =>
      match generateSchema faults reg.data.idl.toIdl reg.data.schemaName db with
      | .error e => some (manager, db, .go (.marking reg (.schemaFailed e)))
      | .ok db => some (manager, db, .go (.updating reg))
  | .updating reg, .updateStatus fault =>
      match fault with
      | some message => some (manager, db, .go (.marking reg (.databaseError message)))
      | none => some (manager, db.updateProgramStatus .schemaCreated,
          .answer (.ok .created) reg.own)
  | .marking reg e, .markError fault =>
      match fault with
      | some _ => some (manager, db, reg.failed e)
      | none => some (manager, db.updateProgramStatus .error, reg.failed e)
  | .rollingBack reg e, .rollback =>
      some (manager.removeCached programId, db, .answer (.error e.toApi) reg.own)
  -- delete_program and hard_delete
  | .selecting, .selectSchema fault =>
      match fault, db.program with
      | some message, _ => some (manager, db, .answer (.error (.queryFailed message)) none)
      | none, none => some (manager, db, .answer (.error (.programNotFound programId)) none)
      | none, some row => some (manager, db, .go (.dropping row.schemaName))
  | .dropping schemaName, .dropSchema fault =>
      match fault with
      | some message => some (manager, db, .answer (.error (.storageError message)) none)
      | none => some (manager, db.dropSchema schemaName, .go .deleting)
  | .deleting, .deleteRows faults =>
      match deleteRows faults db with
      | .error e => some (manager, db, .answer (.error e) none)
      | .ok db => some (manager, db, .go .removing)
  | .removing, .removeProgram =>
      some (manager.removeCached programId, db, .answer (.ok .deleted) none)
  | _, _ => none

inductive Awaits : Phase → Event → Prop where
  | readCache : Awaits .readingCache .readCache
  | fetch (fromChain fromBundled : Except IdlError String) :
      Awaits .fetching (.fetch fromChain fromBundled)
  | insertFetched (idlJson : String) (source : IdlSource) :
      Awaits (.caching idlJson source) .insertFetched
  | prepare (idlJson own : Option String) (autoFetched : Bool) :
      Awaits (.preparing idlJson own autoFetched) .prepare
  | writeRegistration (reg : Registration) (faults : Faults) :
      Awaits (.writing reg) (.writeRegistration faults)
  | generateSchema (reg : Registration) (faults : Faults) :
      Awaits (.generating reg) (.generateSchema faults)
  | updateStatus (reg : Registration) (fault : Option String) :
      Awaits (.updating reg) (.updateStatus fault)
  | markError (reg : Registration) (e : RegistrationError) (fault : Option String) :
      Awaits (.marking reg e) (.markError fault)
  | rollback (reg : Registration) (e : RegistrationError) :
      Awaits (.rollingBack reg e) .rollback
  | selectSchema (fault : Option String) : Awaits .selecting (.selectSchema fault)
  | dropSchema (schemaName : String) (fault : Option String) :
      Awaits (.dropping schemaName) (.dropSchema fault)
  | deleteRows (faults : Faults) : Awaits .deleting (.deleteRows faults)
  | removeProgram : Awaits .removing .removeProgram

theorem awaits_of_advance {manager : IdlManager} {db : ProgramDb} {phase : Phase} {event : Event}
    {next : IdlManager × ProgramDb × Next}
    (h : advance env codec programId manager db phase event = some next) :
    Awaits phase event := by
  cases phase <;> cases event <;> first | constructor | cases h

theorem prepare_cases {manager manager' : IdlManager} {db db' : ProgramDb}
    {idlJson own : Option String} {autoFetched : Bool} {next : Next}
    (h : advance env codec programId manager db (.preparing idlJson own autoFetched) .prepare =
      some (manager', db', next)) :
    db' = db ∧
      ((∃ entry, manager.cache programId = some entry ∧ manager' = manager ∧
          next = .go (.writing ⟨.ofEntry programId entry true, own, autoFetched⟩)) ∨
        (manager.cache programId = none ∧ ∃ json entry, idlJson = some json ∧
          readIdl env codec json .manual = .ok entry ∧ manager' = manager.insert programId entry ∧
          next = .go (.writing ⟨.ofEntry programId entry false, own, autoFetched⟩)) ∨
        (manager.cache programId = none ∧ manager' = manager ∧
          ∃ e, next = .answer (.error e) own)) := by
  simp only [advance] at h
  cases hcache : manager.cache programId with
  | some entry =>
      rw [prepareRegistration_cached hcache] at h
      cases h
      exact ⟨rfl, Or.inl ⟨entry, rfl, rfl, rfl⟩⟩
  | none =>
      cases idlJson with
      | none =>
          rw [prepareRegistration_missing hcache] at h
          cases h
          exact ⟨rfl, Or.inr (Or.inr ⟨rfl, rfl, _, rfl⟩)⟩
      | some json =>
          rw [prepareRegistration_upload hcache] at h
          cases hread : readIdl env codec json .manual with
          | error e =>
              rw [hread] at h
              cases h
              exact ⟨rfl, Or.inr (Or.inr ⟨rfl, rfl, _, rfl⟩)⟩
          | ok entry =>
              rw [hread] at h
              cases h
              exact ⟨rfl, Or.inr (Or.inl ⟨rfl, json, entry, rfl, hread, rfl, rfl⟩)⟩

/-! ## The system -/

structure Task where
  request : Request
  before : ProgramDb
  phase : Phase

structure Answer where
  request : Request
  own : Option String
  outcome : Except ApiError Response
  before : ProgramDb
  after : ProgramDb

/-- The cache, the database, the requests in flight and the answers given, the last one
first. -/
structure System where
  manager : IdlManager
  db : ProgramDb
  tasks : Nat → Option Task
  answers : List Answer

namespace System

def initial : System := ⟨.empty, .empty, fun _ => none, []⟩

def Quiet (s : System) : Prop := ∀ i, s.tasks i = none

end System

inductive Action where
  | arrive (i : Nat) (request : Request)
  | advance (i : Nat) (event : Event)

def System.finish (s : System) (i : Nat) (task : Task) (manager : IdlManager) (db : ProgramDb) :
    Next → System
  | .go phase =>
      { s with
        manager := manager
        db := db
        tasks := Function.update s.tasks i (some { task with phase := phase }) }
  | .answer outcome own =>
      { s with
        manager := manager
        db := db
        tasks := Function.update s.tasks i none
        answers := ⟨task.request, own, outcome, task.before, db⟩ :: s.answers }

def step (s : System) : Action → Option System
  | .arrive i request =>
      match s.tasks i with
      | some _ => none
      | none =>
          some { s with
            tasks := Function.update s.tasks i (some ⟨request, s.db, request.start codec⟩) }
  | .advance i event =>
      match s.tasks i with
      | none => none
      | some task =>
          (advance env codec programId s.manager s.db task.phase event).map
            fun (manager, db, next) => s.finish i task manager db next

variable {env codec programId} {s s' : System} {i : Nat}

theorem step_arrive_eq_some {request : Request} :
    step env codec programId s (.arrive i request) = some s' ↔
      s.tasks i = none ∧ s' = { s with
        tasks := Function.update s.tasks i (some ⟨request, s.db, request.start codec⟩) } := by
  cases htask : s.tasks i with
  | some task => simp [step, htask]
  | none => simp [step, htask, eq_comm]

theorem step_advance_eq_some {event : Event} :
    step env codec programId s (.advance i event) = some s' ↔
      ∃ task manager db next, s.tasks i = some task ∧
        advance env codec programId s.manager s.db task.phase event =
          some (manager, db, next) ∧
        s' = s.finish i task manager db next := by
  cases htask : s.tasks i with
  | none => simp [step, htask]
  | some task => simp [step, htask, eq_comm]

end Advance

/-! ## Sample runs -/

def noFaults : Faults := fun _ => none

def commitActions (i : Nat) : List Action :=
  [.advance i (.writeRegistration noFaults), .advance i (.generateSchema noFaults),
    .advance i (.updateStatus none)]

def registerActions (i : Nat) (name : String) : List Action :=
  [.arrive i (.register (some (sampleJson name))), .advance i .prepare] ++ commitActions i

end Solarix.Registry
