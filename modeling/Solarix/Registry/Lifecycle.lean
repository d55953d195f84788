import Solarix.Registry.CacheAgreement

/-!
# The lifecycle of a program under failures

Registrations and hard deletes of one program, one after the other, each call to the
database failing or not.  A row that says that the schema was created has its schema with all
tables, until a hard delete fails after `DROP SCHEMA`, which runs before the transaction that
deletes the rows and outside of it.
-/

namespace Solarix.Registry

open Solarix.Core

/-! ## The property -/

def Sequential (s : System) : Action → Prop
  | .arrive _ _ => s.Quiet
  | .advance _ _ => True

def Request.isDelete : Request → Bool
  | .register _ => false
  | .hardDelete => true

def Event.isDeleteRows : Event → Bool
  | .deleteRows _ => true
  | _ => false

def Answer.isFailedDelete (answer : Answer) : Bool :=
  answer.request.isDelete && !answer.outcome.isOk

def Answer.LostSchema (answer : Answer) : Prop :=
  answer.isFailedDelete = true ∧ answer.after.schemas ≠ answer.before.schemas

def sinceCreated (answers : List Answer) : List Answer :=
  answers.takeWhile fun answer => !answer.isCreated

def ProgramDb.HasTables (codec : IdlCodec) (db : ProgramDb) (row : ProgramRow) : Prop :=
  ∃ idl, codec.Parses row.idlJson idl ∧ db.schemas.Complete row.schemaName idl.toIdl

def ProgramDb.Healthy (codec : IdlCodec) (db : ProgramDb) : Prop :=
  ∀ row, db.program = some row → row.status = .schemaCreated →
    db.indexerState ≠ none ∧ db.HasTables codec row

/-- The same, but for a schema that a failed delete has dropped since the registration. -/
def Settled (codec : IdlCodec) (db : ProgramDb) (answers : List Answer) : Prop :=
  ∀ row, db.program = some row → row.status = .schemaCreated →
    db.indexerState ≠ none ∧
      (db.HasTables codec row ∨ ∃ answer ∈ sinceCreated answers, answer.LostSchema)

/-! ## The invariant -/

def Phase.isDelete : Phase → Bool
  | .selecting => true
  | .dropping _ => true
  | .deleting => true
  | .removing => true
  | _ => false

structure Registration.Written (codec : IdlCodec) (reg : Registration) (db : ProgramDb) :
    Prop where
  parses : codec.Parses reg.data.idlJson reg.data.idl
  state : db.indexerState ≠ none
  row : ∃ row, db.program = some row ∧ row.idlJson = reg.data.idlJson ∧
    row.schemaName = reg.data.schemaName ∧ row.status ≠ .schemaCreated

def LifecyclePhase (codec : IdlCodec) (before db : ProgramDb) (answers : List Answer) :
    Phase → Prop
  | .writing reg => Settled codec db answers ∧ codec.Parses reg.data.idlJson reg.data.idl
  | .generating reg => reg.Written codec db
  | .updating reg =>
      reg.Written codec db ∧ db.schemas.Complete reg.data.schemaName reg.data.idl.toIdl
  | .marking _ _ => NotCreated db.program
  | .selecting => db = before ∧ Settled codec db answers
  | .dropping schemaName => db = before ∧ Settled codec db answers ∧
      ∃ row, db.program = some row ∧ row.schemaName = schemaName
  -- here the row may say that there is a schema while there is none
  | .deleting => Settled codec before answers ∧
      ∃ row, before.program = some row ∧ db = before.dropSchema row.schemaName
  | .removing => db.program = none
  | _ => Settled codec db answers

structure LifecycleInv (codec : IdlCodec) (programId : String) (s : System) : Prop where
  single : ∀ i j task task', s.tasks i = some task → s.tasks j = some task' → i = j
  cached : ∀ entry, s.manager.cache programId = some entry →
    codec.Parses entry.rawJson entry.idl
  phases : ∀ i task, s.tasks i = some task → task.request.isDelete = task.phase.isDelete ∧
    LifecyclePhase codec task.before s.db s.answers task.phase
  quiet : s.Quiet → Settled codec s.db s.answers

theorem settled_of_notCreated {codec : IdlCodec} {db : ProgramDb} {answers : List Answer}
    (h : NotCreated db.program) : Settled codec db answers :=
  fun row hrow hstatus => absurd hstatus (h row hrow)

theorem Settled.cons {codec : IdlCodec} {db : ProgramDb} {answers : List Answer}
    (h : Settled codec db answers) {answer : Answer} (hanswer : answer.isCreated = false) :
    Settled codec db (answer :: answers) := by
  intro row hrow hstatus
  obtain ⟨hstate, htables | ⟨lost, hmem, hlost⟩⟩ := h row hrow hstatus
  · exact ⟨hstate, Or.inl htables⟩
  · refine ⟨hstate, Or.inr ⟨lost, ?_, hlost⟩⟩
    simp only [sinceCreated, List.takeWhile_cons, hanswer, Bool.not_false, if_true]
    exact List.mem_cons_of_mem answer hmem

theorem Settled.of_lost {codec : IdlCodec} {db : ProgramDb} {answers : List Answer}
    (h : Settled codec db answers) (schemaName : String) {answer : Answer}
    (hcreated : answer.isCreated = false) (hfailed : answer.isFailedDelete = true)
    (hbefore : answer.before = db) (hafter : answer.after = db.dropSchema schemaName) :
    Settled codec (db.dropSchema schemaName) (answer :: answers) := by
  by_cases hschemas : (db.dropSchema schemaName).schemas = db.schemas
  · have hsame : db.dropSchema schemaName = db := by
      show ({ db with schemas := (db.dropSchema schemaName).schemas } : ProgramDb) = db
      rw [hschemas]
    rw [hsame]
    exact h.cons hcreated
  · intro row hrow hstatus
    refine ⟨(h row hrow hstatus).1, Or.inr ⟨answer, ?_, hfailed, ?_⟩⟩
    · simp [sinceCreated, hcreated]
    · rw [hbefore, hafter]
      exact hschemas

/-! ## One step -/

section Step

variable {env : Externs} {codec : IdlCodec} {programId : String} {s : System} {i : Nat}
  {task : Task} {manager : IdlManager} {db : ProgramDb} {next : Next}

theorem LifecycleInv.go (hinv : LifecycleInv codec programId s) (htask : s.tasks i = some task)
    {phase : Phase}
    (hcached : ∀ entry, manager.cache programId = some entry →
      codec.Parses entry.rawJson entry.idl)
    (hdelete : phase.isDelete = task.phase.isDelete)
    (hphase : LifecyclePhase codec task.before db s.answers phase) :
    LifecycleInv codec programId (s.finish i task manager db (.go phase)) where
  single j k task' task'' hj hk := by
    have honly {j : Nat} {task' : Task}
        (hj : (s.finish i task manager db (.go phase)).tasks j = some task') : j = i := by
      rcases System.finish_cases hj with ⟨_, hj⟩ | ⟨hj, _⟩
      · exact hinv.single j i task' task hj htask
      · exact hj
    rw [honly hj, honly hk]
  cached := hcached
  phases j task' hj := by
    by_cases hji : j = i
    · subst hji
      rw [System.finish_tasks, Function.update_self] at hj
      cases hj
      exact ⟨(hinv.phases j task htask).1.trans hdelete.symm, hphase⟩
    · rw [System.finish_tasks, Function.update_of_ne hji] at hj
      exact absurd (hinv.single j i task' task hj htask) hji
  quiet hquiet := by
    have hi := hquiet i
    rw [System.finish_tasks, Function.update_self] at hi
    cases hi

theorem LifecycleInv.answer (hinv : LifecycleInv codec programId s)
    (htask : s.tasks i = some task) {outcome : Except Api.ApiError Response} {own : Option String}
    (hcached : ∀ entry, manager.cache programId = some entry →
      codec.Parses entry.rawJson entry.idl)
    (hsettled : Settled codec db (⟨task.request, own, outcome, task.before, db⟩ :: s.answers)) :
    LifecycleInv codec programId (s.finish i task manager db (.answer outcome own)) := by
  have hquiet : ∀ j, (s.finish i task manager db (.answer outcome own)).tasks j = none := by
    intro j
    rw [System.finish_tasks]
    by_cases hji : j = i
    · rw [hji, Function.update_self]
      rfl
    · rw [Function.update_of_ne hji]
      by_contra hsome
      obtain ⟨task', htask'⟩ := Option.ne_none_iff_exists'.mp hsome
      exact hji (hinv.single j i task' task htask' htask)
  exact {
    single := fun j k task' task'' hj => by
      rw [hquiet j] at hj
      cases hj
    cached := hcached
    phases := fun j task' hj => by
      rw [hquiet j] at hj
      cases hj
    quiet := fun _ => hsettled }

theorem LifecycleInv.failed (hinv : LifecycleInv codec programId s)
    (htask : s.tasks i = some task) (hdelete : task.phase.isDelete = false)
    (hsettled : Settled codec db s.answers) (reg : Registration) (e : RegistrationError) :
    LifecycleInv codec programId (s.finish i task s.manager db (reg.failed e)) := by
  unfold Registration.failed
  split
  · exact hinv.go htask hinv.cached hdelete.symm hsettled
  · exact hinv.answer htask hinv.cached (hsettled.cons rfl)

theorem LifecycleInv.phase (hinv : LifecycleInv codec programId s)
    (htask : s.tasks i = some task) {phase : Phase} (hphase : task.phase = phase) :
    LifecyclePhase codec task.before s.db s.answers phase := by
  rw [← hphase]
  exact (hinv.phases i task htask).2

theorem parses_insert {entry : CachedIdl} {idlJson : String} {source : IdlSource}
    (hread : readIdl env codec idlJson source = .ok entry) (other : CachedIdl)
    (h : (manager.insert programId entry).cache programId = some other) :
    codec.Parses other.rawJson other.idl := by
  rw [IdlManager.cache_insert] at h
  cases h
  obtain ⟨hparses, hentry⟩ := readIdl_eq_ok hread
  rw [hentry]
  exact hparses

variable (hinv : LifecycleInv codec programId s) (htask : s.tasks i = some task)

include hinv htask

theorem lifecycle_insertFetched {idlJson : String} {source : IdlSource}
    (hphase : task.phase = .caching idlJson source)
    (h : advance env codec programId s.manager s.db (.caching idlJson source) .insertFetched =
      some (manager, db, next)) :
    LifecycleInv codec programId (s.finish i task manager db next) := by
  have hsettled : Settled codec s.db s.answers := hinv.phase htask hphase
  simp only [advance] at h
  split at h
  · cases h
    exact hinv.answer htask hinv.cached (hsettled.cons rfl)
  · rename_i inserted hinserted
    cases h
    obtain ⟨entry, hread, rfl⟩ := insertFetchedIdl_eq_ok.mp hinserted
    exact hinv.go htask (parses_insert hread) (by rw [hphase]; rfl) hsettled

theorem lifecycle_prepare {idlJson own : Option String} {autoFetched : Bool}
    (hphase : task.phase = .preparing idlJson own autoFetched)
    (h : advance env codec programId s.manager s.db (.preparing idlJson own autoFetched) .prepare =
      some (manager, db, next)) :
    LifecycleInv codec programId (s.finish i task manager db next) := by
  have hsettled : Settled codec s.db s.answers := hinv.phase htask hphase
  have hdelete : false = task.phase.isDelete := by
    rw [hphase]
    rfl
  obtain ⟨rfl, ⟨entry, hcache, rfl, rfl⟩ | ⟨_, json, entry, _, hread, rfl, rfl⟩ |
    ⟨_, rfl, e, rfl⟩⟩ := prepare_cases env codec programId h
  · exact hinv.go htask hinv.cached hdelete ⟨hsettled, hinv.cached entry hcache⟩
  · have hparses : ∀ other, (s.manager.insert programId entry).cache programId = some other →
        codec.Parses other.rawJson other.idl := parses_insert hread
    exact hinv.go htask hparses hdelete
      ⟨hsettled, hparses entry (IdlManager.cache_insert _ _ _)⟩
  · exact hinv.answer htask hinv.cached (hsettled.cons rfl)

theorem lifecycle_write {reg : Registration} (hphase : task.phase = .writing reg) {faults : Faults}
    (h : advance env codec programId s.manager s.db (.writing reg) (.writeRegistration faults) =
      some (manager, db, next)) :
    LifecycleInv codec programId (s.finish i task manager db next) := by
  obtain ⟨hsettled, hparses⟩ := hinv.phase htask hphase
  simp only [advance] at h
  split at h
  · cases h
    exact hinv.failed htask (by rw [hphase]; rfl) hsettled reg _
  · rename_i written hwritten
    cases h
    obtain ⟨_, rfl⟩ := writeRegistration_eq_ok hwritten
    refine hinv.go htask hinv.cached (by rw [hphase]; rfl) ⟨hparses, by simp, ?_⟩
    exact ⟨reg.data.row, rfl, rfl, rfl, by simp [RegistrationData.row]⟩

theorem lifecycle_generate {reg : Registration} (hphase : task.phase = .generating reg)
    {faults : Faults}
    (h : advance env codec programId s.manager s.db (.generating reg) (.generateSchema faults) =
      some (manager, db, next)) :
    LifecycleInv codec programId (s.finish i task manager db next) := by
  obtain ⟨hparses, hstate, hrow⟩ := hinv.phase htask hphase
  simp only [advance] at h
  split at h
  · cases h
    obtain ⟨row, hprogram, _, _, hstatus⟩ := hrow
    refine hinv.go htask hinv.cached (by rw [hphase]; rfl) ?_
    exact notCreated_of_row hprogram hstatus
  · rename_i generated hgenerated
    cases h
    obtain ⟨hprogram, hindexer, hcomplete⟩ := generateSchema_eq_ok hgenerated
    refine hinv.go htask hinv.cached (by rw [hphase]; rfl) ⟨⟨hparses, ?_, ?_⟩, hcomplete⟩
    · rw [hindexer]
      exact hstate
    · rw [hprogram]
      exact hrow

theorem lifecycle_update {reg : Registration} (hphase : task.phase = .updating reg)
    {fault : Option String}
    (h : advance env codec programId s.manager s.db (.updating reg) (.updateStatus fault) =
      some (manager, db, next)) :
    LifecycleInv codec programId (s.finish i task manager db next) := by
  obtain ⟨⟨hparses, hstate, row, hprogram, hjson, hname, hstatus⟩, hcomplete⟩ :=
    hinv.phase htask hphase
  cases fault with
  | some message =>
      cases h
      refine hinv.go htask hinv.cached (by rw [hphase]; rfl) ?_
      exact notCreated_of_row hprogram hstatus
  | none =>
      cases h
      refine hinv.answer htask hinv.cached fun other hother _ => ⟨hstate, Or.inl ?_⟩
      obtain rfl : { row with status := .schemaCreated } = other := by
        simpa [ProgramDb.updateProgramStatus, hprogram] using hother
      refine ⟨reg.data.idl, ?_, ?_⟩
      · show codec.Parses row.idlJson reg.data.idl
        rw [hjson]
        exact hparses
      · show s.db.schemas.Complete row.schemaName reg.data.idl.toIdl
        rw [hname]
        exact hcomplete

theorem lifecycle_mark {reg : Registration} {e : RegistrationError}
    (hphase : task.phase = .marking reg e) {fault : Option String}
    (h : advance env codec programId s.manager s.db (.marking reg e) (.markError fault) =
      some (manager, db, next)) :
    LifecycleInv codec programId (s.finish i task manager db next) := by
  have hnot : NotCreated s.db.program := hinv.phase htask hphase
  have hdelete : task.phase.isDelete = false := by
    rw [hphase]
    rfl
  cases fault with
  | some message =>
      cases h
      exact hinv.failed htask hdelete (settled_of_notCreated hnot) reg e
  | none =>
      cases h
      refine hinv.failed htask hdelete (settled_of_notCreated ?_) reg e
      exact notCreated_markError s.db

theorem lifecycle_select (hphase : task.phase = .selecting) {fault : Option String}
    (h : advance env codec programId s.manager s.db .selecting (.selectSchema fault) =
      some (manager, db, next)) :
    LifecycleInv codec programId (s.finish i task manager db next) := by
  obtain ⟨hbefore, hsettled⟩ := hinv.phase htask hphase
  simp only [advance] at h
  split at h
  · cases h
    exact hinv.answer htask hinv.cached (hsettled.cons rfl)
  · cases h
    exact hinv.answer htask hinv.cached (hsettled.cons rfl)
  · rename_i row hrow
    cases h
    refine hinv.go htask hinv.cached (by rw [hphase]; rfl) ?_
    exact ⟨hbefore, hsettled, row, hrow, rfl⟩

theorem lifecycle_drop {schemaName : String} (hphase : task.phase = .dropping schemaName)
    {fault : Option String}
    (h : advance env codec programId s.manager s.db (.dropping schemaName) (.dropSchema fault) =
      some (manager, db, next)) :
    LifecycleInv codec programId (s.finish i task manager db next) := by
  obtain ⟨hbefore, hsettled, row, hrow, rfl⟩ := hinv.phase htask hphase
  cases fault with
  | some message =>
      cases h
      exact hinv.answer htask hinv.cached (hsettled.cons rfl)
  | none =>
      cases h
      refine hinv.go htask hinv.cached (by rw [hphase]; rfl) ?_
      rw [hbefore] at hsettled hrow ⊢
      exact ⟨hsettled, row, hrow, rfl⟩

theorem lifecycle_deleteRows (hphase : task.phase = .deleting) {faults : Faults}
    (h : advance env codec programId s.manager s.db .deleting (.deleteRows faults) =
      some (manager, db, next)) :
    LifecycleInv codec programId (s.finish i task manager db next) := by
  obtain ⟨hsettled, row, _, hdb⟩ := hinv.phase htask hphase
  simp only [advance] at h
  split at h
  · rename_i e _
    cases h
    refine hinv.answer htask hinv.cached ?_
    have hdelete : task.request.isDelete = true := by
      rw [(hinv.phases i task htask).1, hphase]
      rfl
    rw [hdb]
    refine hsettled.of_lost row.schemaName rfl ?_ rfl rfl
    simp only [Answer.isFailedDelete, hdelete]
    rfl
  · rename_i deleted hdeleted
    cases h
    refine hinv.go htask hinv.cached (by rw [hphase]; rfl) ?_
    rw [deleteRows_eq_ok hdeleted]
    rfl

theorem lifecycle_advance {event : Event}
    (h : advance env codec programId s.manager s.db task.phase event =
      some (manager, db, next)) :
    LifecycleInv codec programId (s.finish i task manager db next) := by
  have hawaits := awaits_of_advance env codec programId h
  generalize hphase : task.phase = phase at h hawaits
  cases hawaits with
  | readCache =>
      have hsettled : Settled codec s.db s.answers := hinv.phase htask hphase
      simp only [advance] at h
      split at h <;> cases h <;>
        exact hinv.go htask hinv.cached (by rw [hphase]; rfl) hsettled
  | fetch fromChain fromBundled =>
      have hsettled : Settled codec s.db s.answers := hinv.phase htask hphase
      simp only [advance] at h
      split at h
      · cases h
        exact hinv.answer htask hinv.cached (hsettled.cons rfl)
      · cases h
        exact hinv.go htask hinv.cached (by rw [hphase]; rfl) hsettled
  | insertFetched => exact lifecycle_insertFetched hinv htask hphase h
  | prepare => exact lifecycle_prepare hinv htask hphase h
  | writeRegistration => exact lifecycle_write hinv htask hphase h
  | generateSchema => exact lifecycle_generate hinv htask hphase h
  | updateStatus => exact lifecycle_update hinv htask hphase h
  | markError => exact lifecycle_mark hinv htask hphase h
  | rollback reg e =>
      have hsettled : Settled codec s.db s.answers := hinv.phase htask hphase
      cases h
      refine hinv.answer htask ?_ (hsettled.cons rfl)
      simp
  | selectSchema => exact lifecycle_select hinv htask hphase h
  | dropSchema => exact lifecycle_drop hinv htask hphase h
  | deleteRows => exact lifecycle_deleteRows hinv htask hphase h
  | removeProgram =>
      have hprogram : s.db.program = none := hinv.phase htask hphase
      cases h
      refine hinv.answer htask (by simp) (settled_of_notCreated ?_)
      rw [hprogram]
      exact fun row hrow => by cases hrow

/-- The rows are as they were when a delete returns an error, and so are the schemas unless
the error is one of the transaction. -/
theorem failedDelete_keeps {event : Event} {outcome : Except Api.ApiError Response}
    {own : Option String} (hdelete : task.request.isDelete = true) (herror : outcome.isOk = false)
    (h : advance env codec programId s.manager s.db task.phase event =
      some (manager, db, .answer outcome own)) :
    db.program = task.before.program ∧ db.indexerState = task.before.indexerState ∧
      (event.isDeleteRows = false → db.schemas = task.before.schemas) := by
  rw [(hinv.phases i task htask).1] at hdelete
  have hawaits := awaits_of_advance env codec programId h
  generalize hphase : task.phase = phase at h hawaits hdelete
  cases hawaits with
  | selectSchema fault =>
      obtain ⟨hbefore, _⟩ := hinv.phase htask hphase
      simp only [advance] at h
      split at h <;> cases h <;> exact ⟨by rw [hbefore], by rw [hbefore], fun _ => by rw [hbefore]⟩
  | dropSchema schemaName fault =>
      obtain ⟨hbefore, _⟩ := hinv.phase htask hphase
      simp only [advance] at h
      split at h <;> cases h
      exact ⟨by rw [hbefore], by rw [hbefore], fun _ => by rw [hbefore]⟩
  | deleteRows faults =>
      obtain ⟨_, row, _, hdb⟩ := hinv.phase htask hphase
      simp only [advance] at h
      split at h <;> cases h
      exact ⟨by rw [hdb]; rfl, by rw [hdb]; rfl, fun hevent => by cases hevent⟩
  | removeProgram =>
      cases h
      cases herror
  | _ => cases hdelete

end Step

/-! ## Runs -/

section Runs

variable {env : Externs} {codec : IdlCodec} {programId : String} {s s' : System}

theorem lifecycle_arrive (hinv : LifecycleInv codec programId s) (hquiet : s.Quiet) (i : Nat)
    (request : Request) :
    LifecycleInv codec programId (s.finish i ⟨request, s.db, request.start codec⟩ s.manager s.db
      (.go (request.start codec))) := by
  have hsettled := hinv.quiet hquiet
  have honly {j : Nat} {task : Task} (hj : (s.finish i ⟨request, s.db, request.start codec⟩
      s.manager s.db (.go (request.start codec))).tasks j = some task) :
      j = i ∧ task = ⟨request, s.db, request.start codec⟩ := by
    rw [System.finish_tasks] at hj
    by_cases hji : j = i
    · subst hji
      rw [Function.update_self] at hj
      cases hj
      exact ⟨rfl, rfl⟩
    · rw [Function.update_of_ne hji, hquiet j] at hj
      cases hj
  refine ⟨?_, hinv.cached, ?_, fun _ => hsettled⟩
  · intro j k task task' hj hk
    rw [(honly hj).1, (honly hk).1]
  · intro j task hj
    rw [(honly hj).2]
    rcases request with (_ | idl) | _
    · exact ⟨rfl, hsettled⟩
    · exact ⟨rfl, hsettled⟩
    · exact ⟨rfl, rfl, hsettled⟩

theorem lifecycle_step (hinv : LifecycleInv codec programId s) {action : Action}
    (hallowed : Sequential s action) (h : step env codec programId s action = some s') :
    LifecycleInv codec programId s' := by
  cases action with
  | arrive i request =>
      obtain ⟨_, rfl⟩ := step_arrive_eq_some.mp h
      exact lifecycle_arrive hinv hallowed i request
  | advance i event =>
      obtain ⟨task, manager, db, next, htask, hadvance, rfl⟩ := step_advance_eq_some.mp h
      exact lifecycle_advance hinv htask hadvance

theorem lifecycle_initial : LifecycleInv codec programId .initial where
  single i j task task' hi := by cases hi
  cached entry hentry := by cases hentry
  phases i task hi := by cases hi
  quiet _ row hrow := by cases hrow

theorem lifecycle_failedDelete (hinv : LifecycleInv codec programId s) {i : Nat} {event : Event}
    {answer : Answer} (h : step env codec programId s (.advance i event) = some s')
    (hanswers : s'.answers = answer :: s.answers) (hfailed : answer.isFailedDelete = true) :
    answer.after.program = answer.before.program ∧
      answer.after.indexerState = answer.before.indexerState ∧
      (event.isDeleteRows = false → answer.after.schemas = answer.before.schemas) := by
  obtain ⟨task, manager, db, next, htask, hadvance, rfl⟩ := step_advance_eq_some.mp h
  cases next with
  | go phase => exact absurd hanswers.symm (List.cons_ne_self answer s.answers)
  | answer outcome own =>
      obtain ⟨rfl, _⟩ := List.cons.inj hanswers
      simp only [Answer.isFailedDelete, Bool.and_eq_true, Bool.not_eq_true'] at hfailed
      exact failedDelete_keeps hinv htask hfailed.1 hfailed.2 hadvance

end Runs

/-- Registrations and hard deletes one after the other, any call failing.  Between two of
them, a row that says that the schema was created has its row in `indexer_state`, and its
schema with all tables unless a failed delete has dropped it since.  A hard delete that
returns an error leaves the rows as they were, and the schemas too when the error is not one
of the transaction after `DROP SCHEMA`. -/
theorem lifecycle_under_failures (env : Externs) (codec : IdlCodec) (programId : String)
    (s : System) (hreach : Reaches (step env codec programId) Sequential .initial s) :
    (s.Quiet → Settled codec s.db s.answers) ∧
      ∀ i event s' answer, step env codec programId s (.advance i event) = some s' →
        s'.answers = answer :: s.answers → answer.isFailedDelete = true →
        answer.after.program = answer.before.program ∧
          answer.after.indexerState = answer.before.indexerState ∧
          (event.isDeleteRows = false → answer.after.schemas = answer.before.schemas) := by
  have hinv : LifecycleInv codec programId s :=
    hreach.invariant lifecycle_initial fun s a s' hinv hallowed hstep =>
      lifecycle_step hinv hallowed hstep
  refine ⟨hinv.quiet, ?_⟩
  intro i event s' answer hstep hanswers hfailed
  exact lifecycle_failedDelete hinv hstep hanswers hfailed

/-! ### Deletes that fail -/

theorem allowed_register : AllowedActions (step Externs.minimal .sample "prog") Sequential
    .initial (registerActions 0 "a") := by
  refine ⟨fun i => rfl, fun s' _ => allowedActions_of_forall ?_ s'⟩
  simp [commitActions, Sequential]

def thenDelete (events : List Event) : List Action :=
  registerActions 0 "a" ++ .arrive 0 .hardDelete :: events.map (Action.advance 0)

theorem reaches_thenDelete {events : List Event} {s : System}
    (hs : runActions (step Externs.minimal .sample "prog") .initial (thenDelete events) = some s) :
    Reaches (step Externs.minimal .sample "prog") Sequential .initial s := by
  refine Reaches.of_runActions .start (allowed_register.append fun s₁ hs₁ => ?_) hs
  refine ⟨quiet_of_register hs₁, fun s' _ => allowedActions_of_forall ?_ s'⟩
  simp [Sequential]

/-- The state after the registration, and a delete whose `DROP SCHEMA` fails. -/
theorem lifecycle_under_failures_refused :
    (∃ s, runActions (step Externs.minimal .sample "prog") .initial (registerActions 0 "a") =
        some s ∧
      s.db.program.map ProgramRow.status = some .schemaCreated ∧
      Settled .sample s.db s.answers) ∧
    ∃ s s' answer,
      runActions (step Externs.minimal .sample "prog") .initial
        (thenDelete [.selectSchema none]) = some s ∧
      step Externs.minimal .sample "prog" s (.advance 0 (.dropSchema (some "timeout"))) = some s' ∧
      s'.answers = answer :: s.answers ∧ answer.isFailedDelete = true ∧
      answer.after.schemas = answer.before.schemas := by
  constructor
  · obtain ⟨s, hs, hstatus⟩ := exists_run (registerActions 0 "a")
      (fun s => s.db.program.map ProgramRow.status) (some .schemaCreated) (by decide)
    refine ⟨s, hs, hstatus, ?_⟩
    have hreach := Reaches.of_runActions .start allowed_register hs
    exact (lifecycle_under_failures Externs.minimal .sample "prog" s hreach).1
      (quiet_of_register hs)
  · obtain ⟨s, hs, htask⟩ := exists_run (thenDelete [.selectSchema none])
      (fun s => (s.tasks 0).map fun task => (task.request, task.phase))
      (some (.hardDelete, .dropping (Storage.deriveSchemaName "a" "prog"))) rfl
    obtain ⟨task, htask, hfields⟩ := Option.map_eq_some_iff.mp htask
    obtain ⟨hrequest, hphase⟩ := Prod.mk.inj hfields
    have hstep : step Externs.minimal .sample "prog" s
        (.advance 0 (.dropSchema (some "timeout"))) =
          some (s.finish 0 task s.manager s.db
            (.answer (.error (.storageError "timeout")) none)) := by
      simp [step, htask, hphase, advance]
    have hfailed : Answer.isFailedDelete ⟨task.request, none,
        .error (.storageError "timeout"), task.before, s.db⟩ = true := by
      rw [hrequest]
      rfl
    refine ⟨s, _, _, hs, hstep, rfl, hfailed, ?_⟩
    obtain ⟨_, _, hschemas⟩ := (lifecycle_under_failures Externs.minimal .sample "prog" s
      (reaches_thenDelete hs)).2 0 _ _ _ hstep rfl hfailed
    exact hschemas rfl

def lostSchemaActions : List Action :=
  thenDelete [.selectSchema none, .dropSchema none, .deleteRows fun _ => some "timeout"]

/-- The schema is gone and the row still says that it was created. -/
theorem failed_delete_loses_schema :
    ∃ s, Reaches (step Externs.minimal .sample "prog") Sequential .initial s ∧ s.Quiet ∧
      s.db.program.map ProgramRow.status = some .schemaCreated ∧
      ¬ s.db.Healthy .sample ∧
      ∃ answer ∈ s.answers, answer.isFailedDelete = true ∧
        answer.after.schemas ≠ answer.before.schemas := by
  obtain ⟨s, hs, hview⟩ := exists_run lostSchemaActions
    (fun s => (s.db.program.map fun row => (row.status, (s.db.schemas row.schemaName).isSome),
      s.answers.head?.map fun answer => (answer.isFailedDelete,
        (answer.after.schemas (Storage.deriveSchemaName "a" "prog")).isSome,
        (answer.before.schemas (Storage.deriveSchemaName "a" "prog")).isSome)))
    (some (.schemaCreated, false), some (true, false, true)) (by decide)
  obtain ⟨hprogram, hanswer⟩ := Prod.mk.inj hview
  obtain ⟨row, hrow, hfields⟩ := Option.map_eq_some_iff.mp hprogram
  obtain ⟨hstatus, hgone⟩ := Prod.mk.inj hfields
  refine ⟨s, reaches_thenDelete hs, ?_, ?_, ?_, ?_⟩
  · refine quiet_of_run hs fun i => ?_
    rcases i with _ | i <;> rfl
  · rw [hrow, Option.map_some, hstatus]
  · intro hhealthy
    obtain ⟨_, idl, _, tables, htables, _⟩ := hhealthy row hrow hstatus
    rw [htables] at hgone
    cases hgone
  · obtain ⟨answer, hhead, hfields⟩ := Option.map_eq_some_iff.mp hanswer
    obtain ⟨hfailed, hschemas⟩ := Prod.mk.inj hfields
    obtain ⟨hafter, hbefore⟩ := Prod.mk.inj hschemas
    refine ⟨answer, List.mem_of_head? hhead, hfailed, fun hsame => ?_⟩
    rw [hsame, hbefore] at hafter
    cases hafter

end Solarix.Registry
