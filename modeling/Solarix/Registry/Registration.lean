import Solarix.Api.Filters
import Solarix.Registry.IdlManager
import Solarix.Storage.Schema
import Solarix.Storage.WriteBlock

/-!
# Registration and deletion of a program

The parts of `registry.rs` and of the handlers that run between two await points: the
preparation under the write lock, and the statements and transactions on the database.
The database is seen from one program: its rows in `programs` and `indexer_state`, and the
schemas.  A call to the database may fail for reasons of its own; it then leaves the
database as it was, and so does a transaction one of whose calls fails.
-/

namespace Solarix.Registry

open Solarix.Core
open Solarix.Storage (TableDef Statement StorageError)
open Solarix.Api (ApiError)

inductive RegistrationError where
  | idl (e : IdlError)
  | alreadyRegistered (programId : String)
  | databaseError (message : String)
  | schemaFailed (e : StorageError)
  deriving DecidableEq, Repr

def RegistrationError.toApi : RegistrationError → ApiError
  | .idl e => .idlError e.display
  | .alreadyRegistered programId => .programAlreadyRegistered programId
  | .databaseError message => .storageError message
  | .schemaFailed e => .storageError e.display

/-! ## Preparation -/

structure RegistrationData where
  programId : String
  programName : String
  schemaName : String
  idlHash : String
  idlSource : String
  idl : IdlDocument
  idlJson : String
  wasCached : Bool

def RegistrationData.ofEntry (programId : String) (entry : CachedIdl) (wasCached : Bool) :
    RegistrationData where
  programId := programId
  programName := entry.idl.metadata.name
  schemaName := Storage.deriveSchemaName entry.idl.metadata.name programId
  idlHash := entry.hash
  idlSource := entry.source.asStr
  idl := entry.idl
  idlJson := entry.rawJson
  wasCached := wasCached

section Prepare

variable (env : Externs) (codec : IdlCodec)

/-- `ProgramRegistry::prepare_registration`, with the cache it leaves.  An uploaded IDL is
ignored when the program is in the cache. -/
def IdlManager.prepareRegistration (manager : IdlManager) (programId : String)
    (idlJson : Option String) : Except RegistrationError RegistrationData × IdlManager :=
  let wasCached := (manager.getCached programId).isSome
  let uploaded : Except RegistrationError IdlManager :=
    match idlJson with
    | some json =>
        if wasCached then .ok manager
        else (manager.uploadIdl env codec programId json).mapError .idl
    | none => if wasCached then .ok manager else .error (.idl (.notFound programId))
  match uploaded with
  | .error e => (.error e, manager)
  | .ok manager =>
      match manager.getCachedEntry programId with
      | none => (.error (.idl (.notFound programId)), manager)
      | some cached => (.ok (.ofEntry programId cached wasCached), manager)

variable {env codec} {manager : IdlManager} {programId : String}

theorem prepareRegistration_cached {entry : CachedIdl} (h : manager.cache programId = some entry)
    (idlJson : Option String) :
    manager.prepareRegistration env codec programId idlJson =
      (.ok (.ofEntry programId entry true), manager) := by
  cases idlJson <;>
    simp [IdlManager.prepareRegistration, IdlManager.getCached, IdlManager.getCachedEntry, h]

theorem prepareRegistration_upload (h : manager.cache programId = none) (idlJson : String) :
    manager.prepareRegistration env codec programId (some idlJson) =
      match readIdl env codec idlJson .manual with
      | .ok entry => (.ok (.ofEntry programId entry false), manager.insert programId entry)
      | .error e => (.error (.idl e), manager) := by
  unfold IdlManager.prepareRegistration IdlManager.uploadIdl IdlManager.insertFetchedIdl
  cases hread : readIdl env codec idlJson .manual with
  | error e => simp [IdlManager.getCached, h, hread, bind, Except.bind, Except.mapError]
  | ok entry =>
      simp [IdlManager.getCached, IdlManager.getCachedEntry, h, hread, bind, Except.bind,
        Except.mapError]

theorem prepareRegistration_missing (h : manager.cache programId = none) :
    manager.prepareRegistration env codec programId none =
      (.error (.idl (.notFound programId)), manager) := by
  simp [IdlManager.prepareRegistration, IdlManager.getCached, h]

end Prepare

/-! ## The database -/

inductive ProgramStatus where
  | registered
  | schemaCreated
  | error
  deriving DecidableEq, Repr

structure ProgramRow where
  programName : String
  schemaName : String
  idlHash : String
  idlSource : String
  idlJson : String
  status : ProgramStatus
  deriving DecidableEq, Repr

structure IndexerStateRow where
  status : String
  totalInstructions : Nat
  totalAccounts : Nat
  deriving DecidableEq, Repr

abbrev Schemas := String → Option (List TableDef)

structure ProgramDb where
  program : Option ProgramRow
  indexerState : Option IndexerStateRow
  schemas : Schemas

def ProgramDb.empty : ProgramDb := ⟨none, none, fun _ => none⟩

/-- The error of each call of an operation to the database, counted from zero, if it has
one. -/
abbrev Faults := Nat → Option String

def attempt (faults : Faults) (call : Nat) : Except String Unit :=
  match faults call with
  | some message => .error message
  | none => .ok ()

def RegistrationData.row (data : RegistrationData) : ProgramRow where
  programName := data.programName
  schemaName := data.schemaName
  idlHash := data.idlHash
  idlSource := data.idlSource
  idlJson := data.idlJson
  status := .registered

/-- `write_registration`.  The first insert leaves out a program that has a row. -/
def writeRegistration (faults : Faults) (data : RegistrationData) (db : ProgramDb) :
    Except RegistrationError ProgramDb := do
  -- BEGIN and INSERT INTO "programs"
  (attempt faults 0).mapError .databaseError
  (attempt faults 1).mapError .databaseError
  match db.program with
  | some _ => .error (.alreadyRegistered data.programId)
  | none => do
      -- INSERT INTO "indexer_state" and COMMIT
      (attempt faults 2).mapError .databaseError
      match db.indexerState with
      | some _ => .error (.databaseError "duplicate key value violates unique constraint")
      | none => do
          (attempt faults 3).mapError .databaseError
          .ok { db with program := some data.row, indexerState := some ⟨"initializing", 0, 0⟩ }

/-- `update_program_status`; no row is updated when there is none. -/
def ProgramDb.updateProgramStatus (db : ProgramDb) (status : ProgramStatus) : ProgramDb :=
  { db with program := db.program.map fun row => { row with status := status } }

/-- One DDL statement.  Indexes are not kept. -/
def execDdl (schemas : Schemas) : Statement → Except String Schemas
  | .createSchema name =>
      .ok fun key => if key = name then some ((schemas name).getD []) else schemas key
  | .createTable table =>
      match schemas table.schema with
      | none => .error s!"schema {table.schema} does not exist"
      | some tables =>
          if tables.any fun t => t.name == table.name then .ok schemas
          else if (table.columns.map Storage.ColumnDef.name).Nodup then
            .ok fun key => if key = table.schema then some (tables ++ [table]) else schemas key
          else .error s!"a column of {table.name} is specified more than once"
  | .createIndex index =>
      match schemas index.schema with
      | none => .error s!"schema {index.schema} does not exist"
      | some tables =>
          if tables.any fun t => t.name == index.table then .ok schemas
          else .error s!"relation {index.table} does not exist"

/-- A batch of statements, from the call of number `call` on. -/
def runDdl (faults : Faults) : Nat → List Statement → Schemas → Except String Schemas
  | call, [], schemas => do
      attempt faults call
      .ok schemas
  | call, statement :: statements, schemas => do
      attempt faults call
      let schemas ← execDdl schemas statement
      runDdl faults (call + 1) statements schemas

/-- `generate_schema`; the batch is one implicit transaction. -/
def generateSchema (faults : Faults) (idl : Idl) (schemaName : String) (db : ProgramDb) :
    Except StorageError ProgramDb :=
  match runDdl faults 0 (Storage.buildDdlStatements idl schemaName) db.schemas with
  | .error e => .error (.ddlFailed s!"DDL failed for {schemaName}: {e}")
  | .ok schemas => .ok { db with schemas := schemas }

/-- `DROP SCHEMA IF EXISTS .. CASCADE`. -/
def ProgramDb.dropSchema (db : ProgramDb) (schemaName : String) : ProgramDb :=
  { db with schemas := fun key => if key = schemaName then none else db.schemas key }

/-- The transaction of `hard_delete`: `BEGIN`, the two deletes and `COMMIT`. -/
def deleteRows (faults : Faults) (db : ProgramDb) : Except ApiError ProgramDb := do
  (attempt faults 0).mapError .storageError
  (attempt faults 1).mapError .storageError
  (attempt faults 2).mapError .storageError
  (attempt faults 3).mapError .storageError
  .ok { db with program := none, indexerState := none }

/-! ## What the operations do -/

section Operations

variable {faults : Faults} {db db' : ProgramDb}

theorem writeRegistration_eq_ok {data : RegistrationData}
    (h : writeRegistration faults data db = .ok db') :
    db.program = none ∧
      db' = { db with program := some data.row, indexerState := some ⟨"initializing", 0, 0⟩ } := by
  obtain ⟨_, _, h⟩ := except_bind_eq_ok.mp h
  obtain ⟨_, _, h⟩ := except_bind_eq_ok.mp h
  split at h
  · cases h
  · rename_i hprogram
    obtain ⟨_, _, h⟩ := except_bind_eq_ok.mp h
    split at h
    · cases h
    · obtain ⟨_, _, h⟩ := except_bind_eq_ok.mp h
      cases h
      exact ⟨hprogram, rfl⟩

theorem deleteRows_eq_ok (h : deleteRows faults db = .ok db') :
    db' = { db with program := none, indexerState := none } := by
  obtain ⟨_, _, h⟩ := except_bind_eq_ok.mp h
  obtain ⟨_, _, h⟩ := except_bind_eq_ok.mp h
  obtain ⟨_, _, h⟩ := except_bind_eq_ok.mp h
  obtain ⟨_, _, h⟩ := except_bind_eq_ok.mp h
  cases h
  rfl

def requiredTables (idl : Idl) : List String :=
  ["_metadata", "_checkpoints", "_instructions"] ++
    idl.accounts.map fun account => Storage.sanitizeIdentifier account.name

def Schemas.Complete (schemas : Schemas) (schemaName : String) (idl : Idl) : Prop :=
  ∃ tables, schemas schemaName = some tables ∧
    ∀ name ∈ requiredTables idl, ∃ table ∈ tables, table.name = name

def Schemas.Has (schemas : Schemas) (schemaName name : String) : Prop :=
  ∃ tables, schemas schemaName = some tables ∧ ∃ table ∈ tables, table.name = name

theorem has_of_execDdl {schemas schemas' : Schemas} {statement : Statement}
    {schemaName name : String} (h : execDdl schemas statement = .ok schemas') (hhas : schemas.Has schemaName name) :
    schemas'.Has schemaName name := by
  obtain ⟨tables, htables, table, hmem, hname⟩ := hhas
  cases statement with
  | createSchema other =>
      cases h
      by_cases hother : schemaName = other
      · subst hother
        exact ⟨tables, by simp [htables], table, hmem, hname⟩
      · exact ⟨tables, by simp [hother, htables], table, hmem, hname⟩
  | createTable new =>
      simp only [execDdl] at h
      split at h
      · cases h
      · rename_i old hold
        split at h
        · cases h
          exact ⟨tables, htables, table, hmem, hname⟩
        · split at h
          · cases h
            by_cases hother : schemaName = new.schema
            · subst hother
              rw [htables] at hold
              cases hold
              exact ⟨tables ++ [new], by simp, table, List.mem_append_left _ hmem, hname⟩
            · exact ⟨tables, by simp [hother, htables], table, hmem, hname⟩
          · cases h
  | createIndex index =>
      simp only [execDdl] at h
      split at h
      · cases h
      · split at h
        · cases h
          exact ⟨tables, htables, table, hmem, hname⟩
        · cases h

theorem has_of_createTable {schemas schemas' : Schemas} {table : TableDef}
    (h : execDdl schemas (.createTable table) = .ok schemas') :
    schemas'.Has table.schema table.name := by
  simp only [execDdl] at h
  split at h
  · cases h
  · rename_i tables htables
    split at h
    · rename_i hany
      cases h
      obtain ⟨old, hmem, hname⟩ := List.any_eq_true.mp hany
      exact ⟨tables, htables, old, hmem, by simpa using hname⟩
    · split at h
      · cases h
        exact ⟨tables ++ [table], by simp, table, by simp, rfl⟩
      · cases h

theorem has_of_runDdl {statements : List Statement} {call : Nat} {schemas schemas' : Schemas}
    (h : runDdl faults call statements schemas = .ok schemas') :
    (∀ schemaName name, schemas.Has schemaName name → schemas'.Has schemaName name) ∧
      ∀ table, .createTable table ∈ statements → schemas'.Has table.schema table.name := by
  induction statements generalizing call schemas with
  | nil =>
      obtain ⟨_, _, h⟩ := except_bind_eq_ok.mp h
      cases h
      exact ⟨fun _ _ hhas => hhas, fun table hmem => by cases hmem⟩
  | cons statement statements ih =>
      obtain ⟨_, _, h⟩ := except_bind_eq_ok.mp h
      obtain ⟨next, hexec, h⟩ := except_bind_eq_ok.mp h
      obtain ⟨hkeeps, hcreates⟩ := ih h
      refine ⟨fun schemaName name hhas => hkeeps _ _ (has_of_execDdl hexec hhas), ?_⟩
      intro table hmem
      rcases List.mem_cons.mp hmem with rfl | hmem
      · exact hkeeps _ _ (has_of_createTable hexec)
      · exact hcreates table hmem

theorem exists_createTable (idl : Idl) (schemaName : String) :
    ∀ name ∈ requiredTables idl, ∃ table, .createTable table ∈
      Storage.buildDdlStatements idl schemaName ∧ table.schema = schemaName ∧
        table.name = name := by
  intro name hname
  unfold Storage.buildDdlStatements
  simp only [requiredTables, List.cons_append, List.nil_append, List.mem_cons,
    List.mem_map] at hname
  rcases hname with rfl | rfl | rfl | ⟨account, hmem, rfl⟩
  · exact ⟨Storage.generateMetadataTable schemaName, by simp, rfl, rfl⟩
  · exact ⟨Storage.generateCheckpointsTable schemaName, by simp, rfl, rfl⟩
  · exact ⟨Storage.instructionsTable schemaName, by simp [Storage.generateInstructionsTable],
      rfl, rfl⟩
  · exact ⟨Storage.accountTable idl schemaName account.name,
      by simpa using Or.inr (Or.inr (Or.inl ⟨account, hmem, rfl⟩)), rfl, rfl⟩

theorem generateSchema_eq_ok {idl : Idl} {schemaName : String}
    (h : generateSchema faults idl schemaName db = .ok db') :
    db'.program = db.program ∧ db'.indexerState = db.indexerState ∧
      db'.schemas.Complete schemaName idl := by
  unfold generateSchema at h
  split at h
  · cases h
  · rename_i schemas hrun
    cases h
    refine ⟨rfl, rfl, ?_⟩
    have hhas : ∀ name ∈ requiredTables idl, schemas.Has schemaName name := by
      intro name hname
      obtain ⟨table, hmem, rfl, rfl⟩ := exists_createTable idl schemaName name hname
      exact (has_of_runDdl hrun).2 table hmem
    obtain ⟨tables, htables, _⟩ := hhas "_metadata" (by simp [requiredTables])
    refine ⟨tables, htables, fun name hname => ?_⟩
    obtain ⟨tables', htables', hfound⟩ := hhas name hname
    rw [htables] at htables'
    cases htables'
    exact hfound

end Operations

end Solarix.Registry
