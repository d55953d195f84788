import Solarix.Registry.Requests

/-!
# Cache and database agree

When no request is in flight, the cache has the IDL of the program's row.  Requests that
overlap can break this; it holds in every run in which no request takes over, replaces or
removes a cache entry that another one still works with.
-/

namespace Solarix.Registry

open Solarix.Core

/-! ## Agreement -/

def Answer.isCreated (answer : Answer) : Bool :=
  match answer.outcome with
  | .ok .created => true
  | _ => false

def lastCreated (answers : List Answer) : Option String :=
  (answers.find? Answer.isCreated).bind Answer.own

/-- A row with a schema has its IDL in the cache, and it is the one of the request that was
answered 201; a program without a row is not in the cache. -/
structure Agree (cache : Option CachedIdl) (program : Option ProgramRow) (answers : List Answer) :
    Prop where
  created : ∀ row, program = some row → row.status = .schemaCreated →
    (∃ entry, cache = some entry ∧ entry.rawJson = row.idlJson) ∧
      lastCreated answers = some row.idlJson
  missing : program = none → cache = none

/-! ## Undisturbed steps -/

/-- The request added the cache entry, and removes it when the commit fails. -/
def Registration.adds (reg : Registration) : Bool := !reg.data.wasCached || reg.autoFetched

def Phase.adds : Phase → Bool
  | .preparing _ _ autoFetched => autoFetched
  | .writing reg => reg.adds
  | .generating reg => reg.adds
  | .updating reg => reg.adds
  | .marking reg _ => reg.adds
  | .rollingBack reg _ => reg.adds
  | _ => false

def Phase.registering : Phase → Bool
  | .preparing _ _ autoFetched => autoFetched
  | .writing _ => true
  | .generating _ => true
  | .updating _ => true
  | .marking _ _ => true
  | .rollingBack _ _ => true
  | _ => false

def Phase.isRemoving : Phase → Bool
  | .removing => true
  | _ => false

def System.Other (s : System) (i : Nat) (kind : Phase → Bool) : Prop :=
  ∃ j task, j ≠ i ∧ s.tasks j = some task ∧ kind task.phase = true

/-- The step does not disturb another request: a fetched IDL is cached only where there is
none; the entry of a request that has not written its row is not used by another one; no
entry is added or used between the commit of a delete and its removal from the cache; and
no row is deleted while a registration works with its entry. -/
def Undisturbed (programId : String) (s : System) : Action → Prop
  | .advance i .insertFetched =>
      s.manager.cache programId = none ∧ ¬ s.Other i Phase.isRemoving
  | .advance i .prepare =>
      ¬ s.Other i Phase.isRemoving ∧
        (s.db.program = none → ∀ task, s.tasks i = some task → task.phase.adds = false →
          s.manager.cache programId = none)
  | .advance i (.deleteRows _) => ¬ s.Other i Phase.registering
  | _ => True

/-! ## The invariant -/

def NotCreated (program : Option ProgramRow) : Prop :=
  ∀ row, program = some row → row.status ≠ .schemaCreated

theorem notCreated_of_row {program : Option ProgramRow} {row : ProgramRow}
    (hrow : program = some row) (hstatus : row.status ≠ .schemaCreated) : NotCreated program := by
  intro other hother
  rw [hrow] at hother
  cases hother
  exact hstatus

theorem notCreated_markError (db : ProgramDb) :
    NotCreated (db.updateProgramStatus .error).program := by
  intro row hrow
  obtain ⟨old, _, rfl⟩ := Option.map_eq_some_iff.mp hrow
  simp

structure Registration.Owned (reg : Registration) (cache : Option CachedIdl) : Prop where
  adds : reg.adds = true
  own : reg.own = some reg.data.idlJson
  cached : ∃ entry, cache = some entry ∧ entry.rawJson = reg.data.idlJson

def PhaseInv (cache : Option CachedIdl) (program : Option ProgramRow) : Phase → Prop
  | .preparing idlJson own true =>
      idlJson = none ∧ (∃ entry, cache = some entry ∧ own = some entry.rawJson) ∧
        NotCreated program
  | .preparing idlJson own false => ∀ json, idlJson = some json → own = some json
  | .writing reg => reg.Owned cache ∧ NotCreated program ∨ reg.adds = false ∧ program ≠ none
  | .generating reg => reg.Owned cache ∧
      ∃ row, program = some row ∧ row.idlJson = reg.data.idlJson ∧ row.status ≠ .schemaCreated
  | .updating reg => reg.Owned cache ∧
      ∃ row, program = some row ∧ row.idlJson = reg.data.idlJson ∧ row.status ≠ .schemaCreated
  | .marking reg _ => reg.Owned cache ∧ NotCreated program
  | .rollingBack reg _ => reg.Owned cache ∧ NotCreated program
  | .removing => program = none
  | _ => True

def System.Excludes (s : System) (kind kind' : Phase → Bool) : Prop :=
  ∀ i task, s.tasks i = some task → kind task.phase = true → ¬ s.Other i kind'

structure SystemInv (programId : String) (s : System) : Prop where
  phases : ∀ i task, s.tasks i = some task →
    PhaseInv (s.manager.cache programId) s.db.program task.phase
  unique : s.Excludes Phase.adds Phase.adds
  removing : s.Excludes Phase.isRemoving Phase.registering
  settled : (∀ i task, s.tasks i = some task →
      task.phase.adds = false ∧ task.phase.isRemoving = false) →
    Agree (s.manager.cache programId) s.db.program s.answers

/-! ## One step -/

theorem Agree.cons {cache : Option CachedIdl} {program : Option ProgramRow}
    {answers : List Answer} (h : Agree cache program answers) {answer : Answer}
    (hanswer : answer.isCreated = false) : Agree cache program (answer :: answers) := by
  have hlast : lastCreated (answer :: answers) = lastCreated answers := by
    unfold lastCreated
    rw [List.find?_cons_of_neg (by simp [hanswer])]
  refine ⟨fun row hrow hstatus => ?_, h.missing⟩
  rw [hlast]
  exact h.created row hrow hstatus

theorem PhaseInv.of_adds {cache : Option CachedIdl} {program : Option ProgramRow} {phase : Phase}
    (h : PhaseInv cache program phase) (hadds : phase.adds = true) :
    cache ≠ none ∧ NotCreated program := by
  have howned (reg : Registration) (howned : reg.Owned cache) : cache ≠ none := by
    obtain ⟨entry, hentry, _⟩ := howned.cached
    simp [hentry]
  cases phase with
  | preparing idlJson own autoFetched =>
      obtain rfl : autoFetched = true := hadds
      obtain ⟨_, ⟨entry, hentry, _⟩, hnot⟩ := h
      exact ⟨by simp [hentry], hnot⟩
  | writing reg =>
      rcases h with ⟨h, hnot⟩ | ⟨h, _⟩
      · exact ⟨howned reg h, hnot⟩
      · have hadds : reg.adds = true := hadds
        rw [h] at hadds
        cases hadds
  | generating reg =>
      obtain ⟨h, row, hprogram, _, hstatus⟩ := h
      exact ⟨howned reg h, notCreated_of_row hprogram hstatus⟩
  | updating reg =>
      obtain ⟨h, row, hprogram, _, hstatus⟩ := h
      exact ⟨howned reg h, notCreated_of_row hprogram hstatus⟩
  | marking reg e => exact ⟨howned reg h.1, h.2⟩
  | rollingBack reg e => exact ⟨howned reg h.1, h.2⟩
  | _ => cases hadds

theorem Phase.registering_of_adds {phase : Phase} (h : phase.adds = true) :
    phase.registering = true := by
  cases phase <;> first | rfl | exact h

/-- The invariant of a request that has added no entry does not look at the entry, and at
the row only to the extent of the hypotheses. -/
theorem PhaseInv.congr {cache cache' : Option CachedIdl} {program program' : Option ProgramRow}
    {phase : Phase} (h : PhaseInv cache program phase) (hadds : phase.adds = false)
    (hremoving : phase.isRemoving = true → program' = none)
    (hregistering : phase.registering = true → program ≠ none → program' ≠ none) :
    PhaseInv cache' program' phase := by
  have howned (reg : Registration) (howned : reg.Owned cache) : reg.adds ≠ false := by
    simp [howned.adds]
  cases phase with
  | preparing idlJson own autoFetched =>
      obtain rfl : autoFetched = false := hadds
      exact h
  | writing reg =>
      rcases h with ⟨h, _⟩ | ⟨hadds, hprogram⟩
      · exact absurd hadds (howned reg h)
      · exact Or.inr ⟨hadds, hregistering rfl hprogram⟩
  | generating reg => exact absurd hadds (howned reg h.1)
  | updating reg => exact absurd hadds (howned reg h.1)
  | marking reg e => exact absurd hadds (howned reg h.1)
  | rollingBack reg e => exact absurd hadds (howned reg h.1)
  | removing => exact hremoving rfl
  | _ => trivial

def Next.phase? : Next → Option Phase
  | .go phase => some phase
  | .answer _ _ => none

section Step

variable {programId : String} {s : System} {i : Nat} {task : Task}

@[simp] theorem System.finish_manager (manager : IdlManager) (db : ProgramDb) (next : Next) :
    (s.finish i task manager db next).manager = manager := by
  cases next <;> rfl

@[simp] theorem System.finish_db (manager : IdlManager) (db : ProgramDb) (next : Next) :
    (s.finish i task manager db next).db = db := by
  cases next <;> rfl

theorem System.finish_tasks (manager : IdlManager) (db : ProgramDb) (next : Next) :
    (s.finish i task manager db next).tasks =
      Function.update s.tasks i (next.phase?.map fun phase => { task with phase := phase }) := by
  cases next <;> rfl

theorem System.finish_cases {manager : IdlManager} {db : ProgramDb} {next : Next} {j : Nat}
    {task' : Task} (h : (s.finish i task manager db next).tasks j = some task') :
    j ≠ i ∧ s.tasks j = some task' ∨ j = i ∧ next.phase? = some task'.phase := by
  rw [System.finish_tasks] at h
  by_cases hj : j = i
  · subst hj
    rw [Function.update_self] at h
    obtain ⟨phase, hphase, rfl⟩ := Option.map_eq_some_iff.mp h
    exact Or.inr ⟨rfl, hphase⟩
  · rw [Function.update_of_ne hj] at h
    exact Or.inl ⟨hj, h⟩

theorem System.Other.of_finish {manager : IdlManager} {db : ProgramDb} {next : Next} {j : Nat}
    {kind : Phase → Bool} (h : (s.finish i task manager db next).Other j kind) :
    (∃ k task', k ≠ j ∧ k ≠ i ∧ s.tasks k = some task' ∧ kind task'.phase = true) ∨
      i ≠ j ∧ ∃ phase, next.phase? = some phase ∧ kind phase = true := by
  obtain ⟨k, task', hk, htask', hkind⟩ := h
  rcases System.finish_cases htask' with ⟨hki, htask'⟩ | ⟨rfl, hphase⟩
  · exact Or.inl ⟨k, task', hk, hki, htask', hkind⟩
  · exact Or.inr ⟨hk, task'.phase, hphase, hkind⟩

theorem System.Excludes.finish {kind kind' : Phase → Bool} (h : s.Excludes kind kind')
    {manager : IdlManager} {db : ProgramDb} {next : Next}
    (hkind : ∀ phase, next.phase? = some phase → kind phase = true → ¬ s.Other i kind')
    (hkind' : ∀ phase, next.phase? = some phase → kind' phase = true → ¬ s.Other i kind) :
    (s.finish i task manager db next).Excludes kind kind' := by
  intro j task' htask' hphase hother
  rcases System.finish_cases htask' with ⟨hj, htask'⟩ | ⟨rfl, hnext⟩
  · rcases hother.of_finish with ⟨k, other, hkj, _, hk⟩ | ⟨_, phase, hnext, hphase'⟩
    · exact h j task' htask' hphase ⟨k, other, hkj, hk⟩
    · exact hkind' phase hnext hphase' ⟨j, task', hj, htask', hphase⟩
  · rcases hother.of_finish with ⟨k, other, hkj, _, hk⟩ | ⟨hne, _⟩
    · exact hkind _ hnext hphase ⟨k, other, hkj, hk⟩
    · exact hne rfl

theorem SystemInv.finish (hinv : SystemInv programId s) {manager : IdlManager} {db : ProgramDb}
    {next : Next}
    (hothers : ∀ j task', j ≠ i → s.tasks j = some task' →
      PhaseInv (manager.cache programId) db.program task'.phase)
    (hself : ∀ phase, next.phase? = some phase →
      PhaseInv (manager.cache programId) db.program phase ∧
        (phase.adds = true → ¬ s.Other i Phase.adds) ∧
        (phase.isRemoving = true → ¬ s.Other i Phase.registering) ∧
        (phase.registering = true → ¬ s.Other i Phase.isRemoving))
    (hsettled : ¬ s.Other i Phase.adds → ¬ s.Other i Phase.isRemoving →
      (∀ phase, next.phase? = some phase → phase.adds = false ∧ phase.isRemoving = false) →
      Agree (manager.cache programId) db.program (s.finish i task manager db next).answers) :
    SystemInv programId (s.finish i task manager db next) where
  phases j task' htask' := by
    rw [System.finish_manager, System.finish_db]
    rcases System.finish_cases htask' with ⟨hj, htask'⟩ | ⟨_, hphase⟩
    · exact hothers j task' hj htask'
    · exact (hself _ hphase).1
  unique :=
    hinv.unique.finish (fun phase h => (hself phase h).2.1) (fun phase h => (hself phase h).2.1)
  removing :=
    hinv.removing.finish (fun phase h => (hself phase h).2.2.1)
      (fun phase h => (hself phase h).2.2.2)
  settled h := by
    have hother : ∀ k, k ≠ i → ∀ task', s.tasks k = some task' →
        task'.phase.adds = false ∧ task'.phase.isRemoving = false := by
      intro k hk task' htask'
      refine h k task' ?_
      rw [System.finish_tasks, Function.update_of_ne hk]
      exact htask'
    have hnext : ∀ phase, next.phase? = some phase →
        phase.adds = false ∧ phase.isRemoving = false := by
      intro phase hphase
      refine h i { task with phase := phase } ?_
      rw [System.finish_tasks, Function.update_self, hphase, Option.map_some]
    rw [System.finish_manager, System.finish_db]
    refine hsettled ?_ ?_ hnext
    · rintro ⟨k, task', hk, htask', hadds⟩
      rw [(hother k hk task' htask').1] at hadds
      cases hadds
    · rintro ⟨k, task', hk, htask', hremoving⟩
      rw [(hother k hk task' htask').2] at hremoving
      cases hremoving

theorem SystemInv.adds_eq_false (hinv : SystemInv programId s)
    (hcache : s.manager.cache programId = none) {j : Nat} {task' : Task}
    (htask' : s.tasks j = some task') : task'.phase.adds = false := by
  by_contra h
  exact ((hinv.phases j task' htask').of_adds (Bool.eq_true_of_not_eq_false h)).1 hcache

theorem SystemInv.delete (hinv : SystemInv programId s)
    (hother : ¬ s.Other i Phase.registering) {manager : IdlManager} {db : ProgramDb}
    {next : Next} (hprogram : db.program = none)
    (hself : next = .go .removing ∨
      (∃ outcome own, next = .answer outcome own) ∧ manager.cache programId = none) :
    SystemInv programId (s.finish i task manager db next) := by
  apply hinv.finish
  · intro j task' hj htask'
    have hregistering : task'.phase.registering = false :=
      Bool.eq_false_iff.mpr fun h => hother ⟨j, task', hj, htask', h⟩
    refine (hinv.phases j task' htask').congr ?_ (fun _ => hprogram) ?_
    · exact Bool.eq_false_iff.mpr fun h =>
        hother ⟨j, task', hj, htask', Phase.registering_of_adds h⟩
    · simp [hregistering]
  · intro phase hphase
    rcases hself with rfl | ⟨⟨outcome, own, rfl⟩, _⟩
    · cases hphase
      exact ⟨hprogram, by simp [Phase.adds], fun _ => hother, by simp [Phase.registering]⟩
    · cases hphase
  · intro _ _ hnext
    rcases hself with rfl | ⟨_, hcache⟩
    · have hremoving := (hnext .removing rfl).2
      cases hremoving
    · rw [hprogram, hcache]
      exact ⟨fun row hrow => (by cases hrow), fun _ => rfl⟩

variable (hinv : SystemInv programId s) (htask : s.tasks i = some task)

include hinv htask

theorem SystemInv.agree (hadds : task.phase.adds = false)
    (hremoving : task.phase.isRemoving = false) (hother : ¬ s.Other i Phase.adds)
    (hother' : ¬ s.Other i Phase.isRemoving) :
    Agree (s.manager.cache programId) s.db.program s.answers := by
  refine hinv.settled fun j task' htask' => ?_
  by_cases hj : j = i
  · subst hj
    rw [htask] at htask'
    cases htask'
    exact ⟨hadds, hremoving⟩
  · exact ⟨Bool.eq_false_iff.mpr fun h => hother ⟨j, task', hj, htask', h⟩,
      Bool.eq_false_iff.mpr fun h => hother' ⟨j, task', hj, htask', h⟩⟩

theorem SystemInv.neutral (hadds : task.phase.adds = false)
    (hremoving : task.phase.isRemoving = false) {manager : IdlManager} {db : ProgramDb}
    {next : Next} (hcache : manager.cache programId = s.manager.cache programId)
    (hprogram : db.program = s.db.program)
    (hnext : match next with
      | .go phase => PhaseInv (s.manager.cache programId) s.db.program phase ∧
          phase.adds = false ∧ phase.isRemoving = false ∧
          (phase.registering = true → ¬ s.Other i Phase.isRemoving)
      | .answer outcome _ => outcome ≠ .ok .created) :
    SystemInv programId (s.finish i task manager db next) := by
  apply hinv.finish
  · intro j task' _ htask'
    rw [hcache, hprogram]
    exact hinv.phases j task' htask'
  · intro phase hphase
    rw [hcache, hprogram]
    cases next with
    | answer outcome own => cases hphase
    | go phase' =>
        cases hphase
        obtain ⟨hphase, hadds, hremoving, hregistering⟩ := hnext
        refine ⟨hphase, ?_, ?_, hregistering⟩
        · simp [hadds]
        · simp [hremoving]
  · intro hother hother' _
    have hagree := hinv.agree htask hadds hremoving hother hother'
    rw [hcache, hprogram]
    cases next with
    | go phase => exact hagree
    | answer outcome own =>
        apply hagree.cons
        unfold Answer.isCreated
        split
        · rename_i heq
          exact absurd heq hnext
        · rfl

/-! ### The steps that touch the entry or the row -/

theorem SystemInv.add (hcache : s.manager.cache programId = none)
    (hremoving : task.phase.isRemoving = false) (hother : ¬ s.Other i Phase.isRemoving)
    {entry : CachedIdl} {phase : Phase} (hadds : phase.adds = true)
    (hphase : NotCreated s.db.program → PhaseInv (some entry) s.db.program phase)
    (hphaseRemoving : phase.isRemoving = false) :
    SystemInv programId
      (s.finish i task (s.manager.insert programId entry) s.db (.go phase)) := by
  have hnone : ¬ s.Other i Phase.adds := by
    rintro ⟨j, task', _, htask', h⟩
    rw [hinv.adds_eq_false hcache htask'] at h
    cases h
  have hagree := hinv.agree htask (hinv.adds_eq_false hcache htask) hremoving hnone hother
  have hnot : NotCreated s.db.program := by
    intro row hrow hstatus
    obtain ⟨⟨other, hentry, _⟩, _⟩ := hagree.created row hrow hstatus
    rw [hcache] at hentry
    cases hentry
  apply hinv.finish
  · intro j task' hj htask'
    refine (hinv.phases j task' htask').congr (hinv.adds_eq_false hcache htask') ?_ ?_
    · intro h
      exact absurd ⟨j, task', hj, htask', h⟩ hother
    · exact fun _ h => h
  · intro phase' hphase'
    cases hphase'
    rw [IdlManager.cache_insert]
    refine ⟨hphase hnot, fun _ => hnone, ?_, fun _ => hother⟩
    simp [hphaseRemoving]
  · intro _ _ hnext
    rw [(hnext phase rfl).1] at hadds
    cases hadds

theorem SystemInv.not_other_removing (hregistering : task.phase.registering = true) :
    ¬ s.Other i Phase.isRemoving := by
  rintro ⟨j, task', hj, htask', h⟩
  exact hinv.removing j task' htask' h ⟨i, task, Ne.symm hj, htask, hregistering⟩

theorem SystemInv.others (hadds : task.phase.adds = true) {cache : Option CachedIdl}
    {program : Option ProgramRow} (hprogram : s.db.program ≠ none → program ≠ none) :
    ∀ j task', j ≠ i → s.tasks j = some task' → PhaseInv cache program task'.phase := by
  intro j task' hj htask'
  refine (hinv.phases j task' htask').congr ?_ ?_ fun _ => hprogram
  · exact Bool.eq_false_iff.mpr fun h =>
      hinv.unique i task htask hadds ⟨j, task', hj, htask', h⟩
  · intro h
    exact absurd ⟨j, task', hj, htask', h⟩
      (hinv.not_other_removing htask (Phase.registering_of_adds hadds))

theorem SystemInv.keep (hadds : task.phase.adds = true) {db : ProgramDb} {phase : Phase}
    (hprogram : s.db.program ≠ none → db.program ≠ none)
    (hphase : PhaseInv (s.manager.cache programId) db.program phase)
    (hphaseAdds : phase.adds = true) (hphaseRemoving : phase.isRemoving = false) :
    SystemInv programId (s.finish i task s.manager db (.go phase)) := by
  have hnone := hinv.unique i task htask hadds
  have hother := hinv.not_other_removing htask (Phase.registering_of_adds hadds)
  apply hinv.finish (hinv.others htask hadds hprogram)
  · intro phase' hphase'
    cases hphase'
    refine ⟨hphase, fun _ => hnone, ?_, fun _ => hother⟩
    simp [hphaseRemoving]
  · intro _ _ hnext
    rw [(hnext phase rfl).1] at hphaseAdds
    cases hphaseAdds

theorem SystemInv.settle (hadds : task.phase.adds = true) {manager : IdlManager} {db : ProgramDb}
    {outcome : Except Api.ApiError Response} {own : Option String}
    (hprogram : s.db.program ≠ none → db.program ≠ none)
    (hagree : Agree (manager.cache programId) db.program
      (s.finish i task manager db (.answer outcome own)).answers) :
    SystemInv programId (s.finish i task manager db (.answer outcome own)) := by
  apply hinv.finish (hinv.others htask hadds hprogram)
  · intro phase hphase
    cases hphase
  · exact fun _ _ _ => hagree

end Step

section Advance

variable {env : Externs} {codec : IdlCodec} {programId : String} {s : System} {i : Nat}
  {task : Task} (hinv : SystemInv programId s) (htask : s.tasks i = some task)
  {manager : IdlManager} {db : ProgramDb} {next : Next}

include hinv htask

theorem inv_insertFetched {idlJson : String} {source : IdlSource}
    (hphase : task.phase = .caching idlJson source)
    (hcache : s.manager.cache programId = none) (hother : ¬ s.Other i Phase.isRemoving)
    (h : advance env codec programId s.manager s.db (.caching idlJson source) .insertFetched =
      some (manager, db, next)) :
    SystemInv programId (s.finish i task manager db next) := by
  simp only [advance] at h
  split at h
  · cases h
    exact hinv.neutral htask (by rw [hphase]; rfl) (by rw [hphase]; rfl) rfl rfl (by simp)
  · rename_i inserted hinserted
    cases h
    obtain ⟨entry, hread, rfl⟩ := insertFetchedIdl_eq_ok.mp hinserted
    have hraw : entry.rawJson = idlJson := by rw [(readIdl_eq_ok hread).2]
    refine hinv.add htask hcache (by rw [hphase]; rfl) hother rfl ?_ rfl
    intro hnot
    exact ⟨rfl, ⟨entry, rfl, by rw [hraw]⟩, hnot⟩

theorem inv_prepare {idlJson own : Option String} {autoFetched : Bool}
    (hphase : task.phase = .preparing idlJson own autoFetched)
    (hother : ¬ s.Other i Phase.isRemoving)
    (hunused : s.db.program = none → autoFetched = false → s.manager.cache programId = none)
    (h : advance env codec programId s.manager s.db (.preparing idlJson own autoFetched) .prepare =
      some (manager, db, next)) :
    SystemInv programId (s.finish i task manager db next) := by
  have hself := hinv.phases i task htask
  rw [hphase] at hself
  obtain ⟨rfl, ⟨entry, hcache, rfl, rfl⟩ | ⟨hcache, json, entry, rfl, hread, rfl, rfl⟩ |
    ⟨hcache, rfl, e, rfl⟩⟩ := prepare_cases env codec programId h
  · cases autoFetched with
    | true =>
        obtain ⟨_, ⟨entry', hentry', hown⟩, hnot⟩ := hself
        rw [hcache] at hentry'
        cases hentry'
        refine hinv.keep htask (by rw [hphase]; rfl) id ?_ rfl rfl
        exact Or.inl ⟨⟨rfl, hown, entry, hcache, rfl⟩, hnot⟩
    | false =>
        have hprogram : s.db.program ≠ none := by
          intro hnone
          rw [hunused hnone rfl] at hcache
          cases hcache
        refine hinv.neutral htask (by rw [hphase]; rfl) (by rw [hphase]; rfl) rfl rfl ?_
        exact ⟨Or.inr ⟨rfl, hprogram⟩, rfl, rfl, fun _ => hother⟩
  · cases autoFetched with
    | true => cases hself.1
    | false =>
        have hraw : entry.rawJson = json := by rw [(readIdl_eq_ok hread).2]
        refine hinv.add htask hcache (by rw [hphase]; rfl) hother rfl ?_ rfl
        intro hnot
        refine Or.inl ⟨⟨rfl, ?_, entry, rfl, rfl⟩, hnot⟩
        show own = some entry.rawJson
        rw [hraw]
        exact hself json rfl
  · have hadds := hinv.adds_eq_false hcache htask
    exact hinv.neutral htask hadds (by rw [hphase]; rfl) rfl rfl (by simp)

theorem inv_write {reg : Registration} (hphase : task.phase = .writing reg) {faults : Faults}
    (h : advance env codec programId s.manager s.db (.writing reg) (.writeRegistration faults) =
      some (manager, db, next)) :
    SystemInv programId (s.finish i task manager db next) := by
  have hself := hinv.phases i task htask
  rw [hphase] at hself
  simp only [advance] at h
  rcases hself with ⟨howned, hnot⟩ | ⟨hadds, hprogram⟩
  · have hadds : task.phase.adds = true := by
      rw [hphase]
      exact howned.adds
    split at h
    · cases h
      have hfailed : reg.failed ‹_› = .go (.rollingBack reg ‹_›) := if_pos howned.adds
      rw [hfailed]
      exact hinv.keep htask hadds id ⟨howned, hnot⟩ howned.adds rfl
    · rename_i written hwritten
      cases h
      obtain ⟨_, rfl⟩ := writeRegistration_eq_ok hwritten
      refine hinv.keep htask hadds (fun _ => by simp) ?_ howned.adds rfl
      exact ⟨howned, reg.data.row, rfl, rfl, by simp [RegistrationData.row]⟩
  · split at h
    · cases h
      have hfailed : reg.failed ‹_› = .answer (.error (‹RegistrationError›).toApi) reg.own :=
        if_neg (by rw [← Registration.adds, hadds]; decide)
      rw [hfailed]
      exact hinv.neutral htask (by rw [hphase]; exact hadds) (by rw [hphase]; rfl) rfl rfl (by simp)
    · rename_i written hwritten
      exact absurd (writeRegistration_eq_ok hwritten).1 hprogram

theorem inv_generate {reg : Registration} (hphase : task.phase = .generating reg)
    {faults : Faults}
    (h : advance env codec programId s.manager s.db (.generating reg) (.generateSchema faults) =
      some (manager, db, next)) :
    SystemInv programId (s.finish i task manager db next) := by
  have hself := hinv.phases i task htask
  rw [hphase] at hself
  obtain ⟨howned, row, hrow, hjson, hstatus⟩ := hself
  have hadds : task.phase.adds = true := by
    rw [hphase]
    exact howned.adds
  simp only [advance] at h
  split at h
  · cases h
    exact hinv.keep htask hadds id ⟨howned, notCreated_of_row hrow hstatus⟩ howned.adds rfl
  · rename_i generated hgenerated
    cases h
    obtain ⟨hprogram, _, _⟩ := generateSchema_eq_ok hgenerated
    refine hinv.keep htask hadds (by rw [hprogram]; exact id) ?_ howned.adds rfl
    exact ⟨howned, row, by rw [hprogram, hrow], hjson, hstatus⟩

theorem inv_update {reg : Registration} (hphase : task.phase = .updating reg)
    {fault : Option String}
    (h : advance env codec programId s.manager s.db (.updating reg) (.updateStatus fault) =
      some (manager, db, next)) :
    SystemInv programId (s.finish i task manager db next) := by
  have hself := hinv.phases i task htask
  rw [hphase] at hself
  obtain ⟨howned, row, hrow, hjson, hstatus⟩ := hself
  have hadds : task.phase.adds = true := by
    rw [hphase]
    exact howned.adds
  cases fault with
  | some message =>
      cases h
      exact hinv.keep htask hadds id ⟨howned, notCreated_of_row hrow hstatus⟩ howned.adds rfl
  | none =>
      cases h
      have hprogram : (s.db.updateProgramStatus .schemaCreated).program =
          some { row with status := .schemaCreated } := by
        simp [ProgramDb.updateProgramStatus, hrow]
      refine hinv.settle htask hadds (by rw [hprogram]; simp) ?_
      rw [hprogram]
      refine ⟨fun other hother _ => ?_, fun hnone => (by cases hnone)⟩
      cases hother
      obtain ⟨entry, hentry, hraw⟩ := howned.cached
      refine ⟨⟨entry, hentry, hraw.trans hjson.symm⟩, ?_⟩
      show reg.own = some row.idlJson
      rw [howned.own, hjson]

theorem inv_mark {reg : Registration} {e : RegistrationError}
    (hphase : task.phase = .marking reg e) {fault : Option String}
    (h : advance env codec programId s.manager s.db (.marking reg e) (.markError fault) =
      some (manager, db, next)) :
    SystemInv programId (s.finish i task manager db next) := by
  have hself := hinv.phases i task htask
  rw [hphase] at hself
  obtain ⟨howned, hnot⟩ := hself
  have hadds : task.phase.adds = true := by
    rw [hphase]
    exact howned.adds
  have hfailed : reg.failed e = .go (.rollingBack reg e) := if_pos howned.adds
  cases fault with
  | some message =>
      cases h
      rw [hfailed]
      exact hinv.keep htask hadds id ⟨howned, hnot⟩ howned.adds rfl
  | none =>
      cases h
      rw [hfailed]
      refine hinv.keep htask hadds ?_ ⟨howned, notCreated_markError s.db⟩ howned.adds rfl
      simp [ProgramDb.updateProgramStatus]

theorem inv_rollback {reg : Registration} {e : RegistrationError}
    (hphase : task.phase = .rollingBack reg e)
    (h : advance env codec programId s.manager s.db (.rollingBack reg e) .rollback =
      some (manager, db, next)) :
    SystemInv programId (s.finish i task manager db next) := by
  have hself := hinv.phases i task htask
  rw [hphase] at hself
  obtain ⟨howned, hnot⟩ := hself
  cases h
  refine hinv.settle htask (by rw [hphase]; exact howned.adds) id ?_
  rw [IdlManager.cache_removeCached]
  exact ⟨fun row hrow hstatus => absurd hstatus (hnot row hrow), fun _ => rfl⟩

theorem inv_deleteRows (hphase : task.phase = .deleting)
    (hother : ¬ s.Other i Phase.registering) {faults : Faults}
    (h : advance env codec programId s.manager s.db .deleting (.deleteRows faults) =
      some (manager, db, next)) :
    SystemInv programId (s.finish i task manager db next) := by
  simp only [advance] at h
  split at h
  · cases h
    exact hinv.neutral htask (by rw [hphase]; rfl) (by rw [hphase]; rfl) rfl rfl (by simp)
  · rename_i deleted hdeleted
    cases h
    refine hinv.delete hother ?_ (Or.inl rfl)
    rw [deleteRows_eq_ok hdeleted]

theorem inv_removeProgram (hphase : task.phase = .removing)
    (h : advance env codec programId s.manager s.db .removing .removeProgram =
      some (manager, db, next)) :
    SystemInv programId (s.finish i task manager db next) := by
  have hself := hinv.phases i task htask
  rw [hphase] at hself
  cases h
  refine hinv.delete (hinv.removing i task htask (by rw [hphase]; rfl)) hself
    (Or.inr ⟨⟨_, _, rfl⟩, ?_⟩)
  exact IdlManager.cache_removeCached _ _

theorem inv_advance {event : Event} (hallowed : Undisturbed programId s (.advance i event))
    (h : advance env codec programId s.manager s.db task.phase event =
      some (manager, db, next)) :
    SystemInv programId (s.finish i task manager db next) := by
  have hawaits := awaits_of_advance env codec programId h
  generalize hphase : task.phase = phase at h hawaits
  cases hawaits with
  | insertFetched => exact inv_insertFetched hinv htask hphase hallowed.1 hallowed.2 h
  | prepare =>
      refine inv_prepare hinv htask hphase hallowed.1 (fun hnone hadds => ?_) h
      exact hallowed.2 hnone task htask (by rw [hphase]; exact hadds)
  | writeRegistration => exact inv_write hinv htask hphase h
  | generateSchema => exact inv_generate hinv htask hphase h
  | updateStatus => exact inv_update hinv htask hphase h
  | markError => exact inv_mark hinv htask hphase h
  | rollback => exact inv_rollback hinv htask hphase h
  | deleteRows => exact inv_deleteRows hinv htask hphase hallowed h
  | removeProgram => exact inv_removeProgram hinv htask hphase h
  | readCache | fetch | selectSchema | dropSchema =>
      simp only [advance] at h
      split at h <;> cases h <;>
        exact hinv.neutral htask (by rw [hphase]; rfl) (by rw [hphase]; rfl) rfl rfl
          (by simp [PhaseInv, Phase.adds, Phase.isRemoving, Phase.registering])

end Advance

/-! ## Runs -/

section Runs

variable {env : Externs} {codec : IdlCodec} {programId : String} {s s' : System}

theorem inv_arrive (hinv : SystemInv programId s) {i : Nat} (hfree : s.tasks i = none)
    (request : Request) :
    SystemInv programId (s.finish i ⟨request, s.db, request.start codec⟩ s.manager s.db
      (.go (request.start codec))) := by
  have hstart : PhaseInv (s.manager.cache programId) s.db.program (request.start codec) ∧
      (request.start codec).adds = false ∧ (request.start codec).isRemoving = false ∧
      (request.start codec).registering = false := by
    rcases request with (_ | idl) | _
    · exact ⟨trivial, rfl, rfl, rfl⟩
    · exact ⟨fun _ h => h, rfl, rfl, rfl⟩
    · exact ⟨trivial, rfl, rfl, rfl⟩
  obtain ⟨hphase, hadds, hremoving, hregistering⟩ := hstart
  apply hinv.finish
  · exact fun j task' _ htask' => hinv.phases j task' htask'
  · intro phase hnext
    cases hnext
    refine ⟨hphase, ?_, ?_, ?_⟩
    · simp [hadds]
    · simp [hremoving]
    · simp [hregistering]
  · intro hother hother' _
    refine hinv.settled fun j task' htask' => ?_
    have hj : j ≠ i := by
      rintro rfl
      rw [hfree] at htask'
      cases htask'
    exact ⟨Bool.eq_false_iff.mpr fun h => hother ⟨j, task', hj, htask', h⟩,
      Bool.eq_false_iff.mpr fun h => hother' ⟨j, task', hj, htask', h⟩⟩

theorem inv_step (hinv : SystemInv programId s) {action : Action}
    (hallowed : Undisturbed programId s action)
    (h : step env codec programId s action = some s') : SystemInv programId s' := by
  cases action with
  | arrive i request =>
      obtain ⟨hfree, rfl⟩ := step_arrive_eq_some.mp h
      exact inv_arrive hinv hfree request
  | advance i event =>
      obtain ⟨task, manager, db, next, htask, hadvance, rfl⟩ := step_advance_eq_some.mp h
      exact inv_advance hinv htask hallowed hadvance

theorem inv_initial : SystemInv programId .initial where
  phases i task htask := by cases htask
  unique i task htask := by cases htask
  removing i task htask := by cases htask
  settled _ := ⟨fun row hrow => (by cases hrow), fun _ => rfl⟩

end Runs

/-- In every run in which no request disturbs another one, the cache and the database agree
whenever no request is in flight. -/
theorem registry_cache_agrees (env : Externs) (codec : IdlCodec) (programId : String) (s : System)
    (hreach : Reaches (step env codec programId) (Undisturbed programId) .initial s)
    (hquiet : s.Quiet) : Agree (s.manager.cache programId) s.db.program s.answers := by
  have hinv := hreach.invariant inv_initial fun s a s' hinv hallowed hstep =>
    inv_step hinv hallowed hstep
  refine hinv.settled fun i task htask => ?_
  rw [hquiet i] at htask
  cases htask

/-! ### Two requests that overlap -/

theorem exists_run {β : Type} (actions : List Action) (view : System → β) (seen : β)
    (h : (runActions (step Externs.minimal .sample "prog") .initial actions).map view =
      some seen) :
    ∃ s, runActions (step Externs.minimal .sample "prog") .initial actions = some s ∧
      view s = seen :=
  Option.map_eq_some_iff.mp h

theorem quiet_of_run {actions : List Action} {s : System}
    (hs : runActions (step Externs.minimal .sample "prog") .initial actions = some s)
    (h : ∀ i, (runActions (step Externs.minimal .sample "prog") .initial actions).map
      (fun s => (s.tasks i).isSome) = some false) : s.Quiet := by
  intro i
  have htask := h i
  rw [hs] at htask
  simpa using htask

theorem quiet_of_register {s : System}
    (hs : runActions (step Externs.minimal .sample "prog") .initial (registerActions 0 "a") =
      some s) : s.Quiet := by
  refine quiet_of_run hs fun i => ?_
  rcases i with _ | i <;> rfl

theorem undisturbed_prepare {programId : String} {s : System} {i : Nat}
    (hremoving : ∀ j, ((s.tasks j).map fun task => task.phase.isRemoving) ≠ some true)
    (hwritten : s.db.program = none → s.manager.cache programId = none) :
    Undisturbed programId s (.advance i .prepare) := by
  refine ⟨?_, fun hnone _ _ _ => hwritten hnone⟩
  rintro ⟨j, task, -, htask, hphase⟩
  have hj := hremoving j
  rw [htask, Option.map_some, hphase] at hj
  exact hj rfl

/-- Two uploads overlap: the second one uses the entry of the first one, whose row is written
by then, and is refused. -/
def interleavedActions : List Action :=
  [.arrive 0 (.register (some (sampleJson "a"))), .arrive 1 (.register (some (sampleJson "b"))),
    .advance 0 .prepare, .advance 0 (.writeRegistration noFaults), .advance 1 .prepare,
    .advance 0 (.generateSchema noFaults), .advance 1 (.writeRegistration noFaults),
    .advance 0 (.updateStatus none)]

theorem interleavedActions_undisturbed :
    AllowedActions (step Externs.minimal .sample "prog") (Undisturbed "prog") .initial
      interleavedActions := by
  refine ⟨trivial, fun s₁ h₁ => ⟨trivial, fun s₂ h₂ => ⟨?_, fun s₃ h₃ => ⟨trivial, fun s₄ h₄ =>
    ⟨?_, fun s₅ _ => allowedActions_of_forall ?_ s₅⟩⟩⟩⟩⟩
  · cases h₁
    cases h₂
    refine undisturbed_prepare (fun j => ?_) fun _ => rfl
    rcases j with _ | _ | j <;> nofun
  · cases h₁
    cases h₂
    cases h₃
    cases h₄
    refine undisturbed_prepare (fun j => ?_) nofun
    rcases j with _ | _ | j <;> nofun
  · simp only [List.forall_mem_cons, List.not_mem_nil, false_implies, implies_true, and_true]
    exact ⟨fun _ => trivial, fun _ => trivial, fun _ => trivial⟩

theorem registry_cache_agrees_interleaved :
    ∃ s, runActions (step Externs.minimal .sample "prog") .initial interleavedActions = some s ∧
      s.db.program.map ProgramRow.status = some .schemaCreated ∧
      s.answers.map (fun answer => answer.outcome.isOk) = [true, false] ∧
      Agree (s.manager.cache "prog") s.db.program s.answers := by
  obtain ⟨s, hs, hview⟩ := exists_run interleavedActions
    (fun s => (s.db.program.map ProgramRow.status,
      s.answers.map fun answer => answer.outcome.isOk))
    (some .schemaCreated, [true, false]) (by decide)
  obtain ⟨hstatus, hanswers⟩ := Prod.mk.inj hview
  have hquiet : s.Quiet := by
    refine quiet_of_run hs fun i => ?_
    rcases i with _ | _ | i <;> rfl
  exact ⟨s, hs, hstatus, hanswers, registry_cache_agrees Externs.minimal .sample "prog" s
    (Reaches.of_runActions .start interleavedActions_undisturbed hs) hquiet⟩

/-- Here the second one uses the entry before the row is written and commits, and the first
one, refused, removes the entry. -/
def overlappingActions : List Action :=
  [.arrive 0 (.register (some (sampleJson "a"))), .arrive 1 (.register (some (sampleJson "b"))),
    .advance 0 .prepare, .advance 1 .prepare] ++ commitActions 1 ++
  [.advance 0 (.writeRegistration noFaults), .advance 0 .rollback]

theorem overlapping_uploads_disagree :
    ∃ s, Reaches (step Externs.minimal .sample "prog") (fun _ _ => True) .initial s ∧ s.Quiet ∧
      s.db.program.map ProgramRow.status = some .schemaCreated ∧
      s.db.program.map ProgramRow.idlJson = some (sampleText "a") ∧
      lastCreated s.answers = some (sampleText "b") ∧
      s.manager.cache "prog" = none ∧
      ¬ Agree (s.manager.cache "prog") s.db.program s.answers := by
  obtain ⟨s, hs, hview⟩ := exists_run overlappingActions
    (fun s => (s.db.program.map ProgramRow.status, s.db.program.map ProgramRow.idlJson,
      lastCreated s.answers, (s.manager.cache "prog").isSome))
    (some .schemaCreated, some (sampleText "a"), some (sampleText "b"), false)
    (by decide)
  simp only [Prod.mk.injEq] at hview
  obtain ⟨hstatus, hjson, hlast, hcache⟩ := hview
  have hcache : s.manager.cache "prog" = none := by simpa using hcache
  refine ⟨s, ?_, ?_, hstatus, hjson, hlast, hcache, ?_⟩
  · exact Reaches.of_runActions .start (allowedActions_of_forall (fun _ _ _ => trivial) _) hs
  · refine quiet_of_run hs fun i => ?_
    rcases i with _ | _ | i <;> rfl
  · intro hagree
    obtain ⟨row, hrow, hrowStatus⟩ := Option.map_eq_some_iff.mp hstatus
    obtain ⟨⟨entry, hentry, _⟩, _⟩ := hagree.created row hrow hrowStatus
    rw [hcache] at hentry
    cases hentry

end Solarix.Registry
