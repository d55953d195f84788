import Solarix.Core.Steps
import Solarix.Registry.Registration

/-!
# Runs of the IDL cache

The operations on the cache in the order in which the code performs their effects, so that a
call that fails midway leaves what it has done by then.  Three of them read an IDL and put
it in the cache; the others look an entry up or remove one.
-/

namespace Solarix.Registry

open Solarix.Core

/-- An operation on the cache: it may fail, and keeps the cache it has by then. -/
abbrev CacheM (ε : Type) := ExceptT ε (StateM IdlManager)

def CacheM.from {ε α : Type} (manager : IdlManager) (op : CacheM ε α) : Except ε α × IdlManager :=
  op.run.run manager

section Operations

variable (env : Externs) (codec : IdlCodec)

/-- What the three insertions do with a text. -/
def cacheIdl (programId idlJson : String) (source : IdlSource) : CacheM IdlError IdlDocument := do
  let rawValue ← (codec.fromStr idlJson).mapError IdlError.parseFailed
  validateIdl rawValue
  let hash := computeIdlHash env codec idlJson
  let idl ← (codec.fromValue rawValue).mapError IdlError.parseFailed
  modify fun manager => manager.insert programId ⟨idl, hash, source, idlJson⟩
  return idl

namespace CacheM

def uploadIdl (programId idlJson : String) : CacheM IdlError IdlDocument :=
  cacheIdl env codec programId idlJson .manual

def insertFetchedIdl (programId idlJson : String) (source : IdlSource) :
    CacheM IdlError IdlDocument :=
  cacheIdl env codec programId idlJson source

/-- `get_idl`, with the outcomes of the two fetches that it makes for a program that is not
in the cache. -/
def getIdl (programId : String) (fromChain fromBundled : Except IdlError String) :
    CacheM IdlError IdlDocument := do
  match (← get).getCached programId with
  | some idl => return idl
  | none =>
      let (idlJson, source) ← fetchIdlStandalone fromChain fromBundled
      cacheIdl env codec programId idlJson source

def removeCached {ε : Type} (programId : String) : CacheM ε Unit :=
  modify fun manager => manager.removeCached programId

def rollbackCache {ε : Type} (programId : String) : CacheM ε Unit := removeCached programId

def prepareRegistration (programId : String) (idlJson : Option String) :
    CacheM RegistrationError RegistrationData :=
  ExceptT.mk fun manager => manager.prepareRegistration env codec programId idlJson

end CacheM

end Operations

inductive CacheOp where
  | uploadIdl (programId idlJson : String)
  | insertFetchedIdl (programId idlJson : String) (source : IdlSource)
  | getIdl (programId : String) (fromChain fromBundled : Except IdlError String)
  | removeCached (programId : String)
  | prepareRegistration (programId : String) (idlJson : Option String)
  | rollbackCache (programId : String)

def CacheOp.programId : CacheOp → String
  | .uploadIdl programId _ => programId
  | .insertFetchedIdl programId _ _ => programId
  | .getIdl programId _ _ => programId
  | .removeCached programId => programId
  | .prepareRegistration programId _ => programId
  | .rollbackCache programId => programId

inductive CacheReply where
  | idl (idl : IdlDocument)
  | registration (data : RegistrationData)
  | removed

section Run

variable (env : Externs) (codec : IdlCodec)

def CacheOp.run : CacheOp → CacheM RegistrationError CacheReply
  | .uploadIdl programId idlJson =>
      .idl <$> ExceptT.adapt .idl (CacheM.uploadIdl env codec programId idlJson)
  | .insertFetchedIdl programId idlJson source =>
      .idl <$> ExceptT.adapt .idl (CacheM.insertFetchedIdl env codec programId idlJson source)
  | .getIdl programId fromChain fromBundled =>
      .idl <$> ExceptT.adapt .idl (CacheM.getIdl env codec programId fromChain fromBundled)
  | .removeCached programId => (fun _ => .removed) <$> CacheM.removeCached programId
  | .prepareRegistration programId idlJson =>
      .registration <$> CacheM.prepareRegistration env codec programId idlJson
  | .rollbackCache programId => (fun _ => .removed) <$> CacheM.rollbackCache programId

def cacheStep (manager : IdlManager) (op : CacheOp) : Option IdlManager :=
  some ((op.run env codec).from manager).2

end Run

/-! ## What one operation does -/

section Effects

variable {env : Externs} {codec : IdlCodec} {manager : IdlManager} {programId : String}

section Rules

variable {ε ε' α β : Type}

theorem from_bind (op : CacheM ε α) (next : α → CacheM ε β) :
    (op >>= next).from manager =
      match op.from manager with
      | (.ok a, manager') => (next a).from manager'
      | (.error e, manager') => (.error e, manager') := by
  cases h : op.from manager with
  | mk result manager' =>
      have hop : op manager = (result, manager') := h
      simp only [CacheM.from, ExceptT.run, StateT.run, bind, ExceptT.bind, ExceptT.mk,
        StateT.bind, ExceptT.bindCont, hop]
      cases result <;> rfl

@[simp] theorem from_map (f : α → β) (op : CacheM ε α) :
    (f <$> op).from manager = ((op.from manager).1.map f, (op.from manager).2) := by
  rw [map_eq_pure_bind, from_bind]
  cases op.from manager with
  | mk result manager' => cases result <;> rfl

@[simp] theorem from_lift (result : Except ε α) :
    CacheM.from manager (liftM result : CacheM ε α) = (result, manager) := rfl

@[simp] theorem from_adapt (f : ε → ε') (op : CacheM ε α) :
    CacheM.from manager (ExceptT.adapt f op) =
      ((op.from manager).1.mapError f, (op.from manager).2) := by
  have hrun : (ExceptT.adapt f op).run = Except.mapError f <$> op.run := ExceptT.run_adapt f op
  rw [CacheM.from, hrun]
  rfl

@[simp] theorem from_modify (f : IdlManager → IdlManager) :
    CacheM.from manager (modify f : CacheM ε PUnit) = (.ok ⟨⟩, f manager) := rfl

@[simp] theorem from_get :
    CacheM.from manager (get : CacheM ε IdlManager) = (.ok manager, manager) := rfl

@[simp] theorem from_pure (a : α) :
    CacheM.from manager (pure a : CacheM ε α) = (.ok a, manager) := rfl

end Rules

theorem from_cacheIdl (idlJson : String) (source : IdlSource) :
    (cacheIdl env codec programId idlJson source).from manager =
      match readIdl env codec idlJson source with
      | .ok entry => (.ok entry.idl, manager.insert programId entry)
      | .error e => (.error e, manager) := by
  unfold cacheIdl readIdl
  simp only [from_bind, from_lift, from_modify, from_pure]
  cases (codec.fromStr idlJson).mapError IdlError.parseFailed with
  | error e => rfl
  | ok value =>
      cases hvalid : validateIdl value with
      | error e => simp [hvalid, bind, Except.bind]
      | ok _ =>
          cases hidl : (codec.fromValue value).mapError IdlError.parseFailed with
          | error e => simp [hvalid, hidl, bind, Except.bind]
          | ok idl => simp [hvalid, hidl, bind, Except.bind]

theorem from_getIdl (fromChain fromBundled : Except IdlError String) :
    (CacheM.getIdl env codec programId fromChain fromBundled).from manager =
      match manager.cache programId with
      | some entry => (.ok entry.idl, manager)
      | none =>
          match fetchIdlStandalone fromChain fromBundled with
          | .ok (idlJson, source) => (cacheIdl env codec programId idlJson source).from manager
          | .error e => (.error e, manager) := by
  unfold CacheM.getIdl IdlManager.getCached
  simp only [from_bind, from_get]
  cases manager.cache programId with
  | some entry => simp
  | none =>
      simp only [Option.map_none, from_bind, from_lift]
      cases fetchIdlStandalone fromChain fromBundled with
      | error e => rfl
      | ok fetched => rfl

def CacheReply.Carries (programId : String) (entry : CachedIdl) : CacheReply → Prop
  | .idl document => document = entry.idl
  | .registration data => ∃ wasCached, data = .ofEntry programId entry wasCached
  | .removed => False

inductive CacheEffect (env : Externs) (codec : IdlCodec) (manager : IdlManager)
    (programId : String) : Except RegistrationError CacheReply × IdlManager → Prop
  | failed (e : RegistrationError) : CacheEffect env codec manager programId (.error e, manager)
  | answered {entry : CachedIdl} {reply : CacheReply}
      (hentry : manager.cache programId = some entry) (hreply : reply.Carries programId entry) :
      CacheEffect env codec manager programId (.ok reply, manager)
  | added {idlJson : String} {source : IdlSource} {entry : CachedIdl} {reply : CacheReply}
      (hread : readIdl env codec idlJson source = .ok entry)
      (hreply : reply.Carries programId entry) :
      CacheEffect env codec manager programId (.ok reply, manager.insert programId entry)
  | removed :
      CacheEffect env codec manager programId (.ok .removed, manager.removeCached programId)

theorem effect_cacheIdl (idlJson : String) (source : IdlSource) :
    CacheEffect env codec manager programId
      (CacheM.from manager (CacheReply.idl <$> ExceptT.adapt RegistrationError.idl
        (cacheIdl env codec programId idlJson source))) := by
  rw [from_map, from_adapt, from_cacheIdl]
  cases hread : readIdl env codec idlJson source with
  | error e => exact .failed (.idl e)
  | ok entry => exact .added hread rfl

theorem effect_getIdl (fromChain fromBundled : Except IdlError String) :
    CacheEffect env codec manager programId
      (CacheM.from manager (CacheReply.idl <$> ExceptT.adapt RegistrationError.idl
        (CacheM.getIdl env codec programId fromChain fromBundled))) := by
  have hcacheIdl := @effect_cacheIdl env codec manager programId
  simp only [from_map, from_adapt] at hcacheIdl ⊢
  rw [from_getIdl]
  cases hcache : manager.cache programId with
  | some entry => exact .answered hcache rfl
  | none =>
      cases fetchIdlStandalone fromChain fromBundled with
      | error e => exact .failed (.idl e)
      | ok fetched => exact hcacheIdl fetched.1 fetched.2

theorem effect_prepareRegistration (idlJson : Option String) :
    CacheEffect env codec manager programId
      (CacheM.from manager (CacheReply.registration <$>
        CacheM.prepareRegistration env codec programId idlJson)) := by
  rw [from_map]
  change CacheEffect env codec manager programId
    ((manager.prepareRegistration env codec programId idlJson).1.map _,
      (manager.prepareRegistration env codec programId idlJson).2)
  cases hcache : manager.cache programId with
  | some entry =>
      rw [prepareRegistration_cached hcache]
      exact .answered hcache ⟨true, rfl⟩
  | none =>
      cases idlJson with
      | none =>
          rw [prepareRegistration_missing hcache]
          exact .failed _
      | some text =>
          rw [prepareRegistration_upload hcache]
          cases hread : readIdl env codec text .manual with
          | error e => exact .failed (.idl e)
          | ok entry => exact .added hread ⟨false, rfl⟩

theorem effect_run (op : CacheOp) :
    CacheEffect env codec manager op.programId ((op.run env codec).from manager) := by
  cases op with
  | uploadIdl programId idlJson => exact effect_cacheIdl idlJson .manual
  | insertFetchedIdl programId idlJson source => exact effect_cacheIdl idlJson source
  | getIdl programId fromChain fromBundled => exact effect_getIdl fromChain fromBundled
  | removeCached programId => exact .removed
  | prepareRegistration programId idlJson => exact effect_prepareRegistration idlJson
  | rollbackCache programId => exact .removed

end Effects

/-! ## Every run -/

structure CachedIdl.Sound (env : Externs) (codec : IdlCodec) (entry : CachedIdl) : Prop where
  hash : entry.hash = computeIdlHash env codec entry.rawJson
  parses : codec.Parses entry.rawJson entry.idl

def CacheSound (env : Externs) (codec : IdlCodec) (manager : IdlManager) : Prop :=
  ∀ programId entry, manager.cache programId = some entry → entry.Sound env codec

section Invariant

variable {env : Externs} {codec : IdlCodec} {manager : IdlManager} {programId : String}

theorem sound_of_readIdl {idlJson : String} {source : IdlSource} {entry : CachedIdl}
    (h : readIdl env codec idlJson source = .ok entry) : entry.Sound env codec := by
  obtain ⟨hparses, hentry⟩ := readIdl_eq_ok h
  rw [hentry]
  exact ⟨rfl, hparses⟩

theorem cache_insert_of_ne {other : String} (hne : other ≠ programId) (entry : CachedIdl) :
    (manager.insert programId entry).cache other = manager.cache other := by
  rw [IdlManager.insert]
  exact if_neg hne

theorem cache_removeCached_of_ne {other : String} (hne : other ≠ programId) :
    (manager.removeCached programId).cache other = manager.cache other := by
  rw [IdlManager.removeCached]
  exact if_neg hne

variable {outcome : Except RegistrationError CacheReply × IdlManager}

theorem CacheEffect.sound (h : CacheEffect env codec manager programId outcome)
    (hsound : CacheSound env codec manager) : CacheSound env codec outcome.2 := by
  cases h with
  | failed e => exact hsound
  | answered hentry hreply => exact hsound
  | @added idlJson source entry reply hread hreply =>
      intro other found hfound
      by_cases heq : other = programId
      · subst heq
        rw [IdlManager.cache_insert] at hfound
        cases hfound
        exact sound_of_readIdl hread
      · rw [cache_insert_of_ne heq] at hfound
        exact hsound other found hfound
  | removed =>
      intro other found hfound
      by_cases heq : other = programId
      · subst heq
        rw [IdlManager.cache_removeCached] at hfound
        cases hfound
      · rw [cache_removeCached_of_ne heq] at hfound
        exact hsound other found hfound

theorem CacheEffect.unchanged_of_error (h : CacheEffect env codec manager programId outcome)
    {e : RegistrationError} (herror : outcome.1 = .error e) : outcome.2 = manager := by
  cases h with
  | failed e' => rfl
  | answered hentry hreply => cases herror
  | added hread hreply => cases herror
  | removed => cases herror

theorem CacheEffect.frame (h : CacheEffect env codec manager programId outcome) {other : String}
    (hne : other ≠ programId) : outcome.2.cache other = manager.cache other := by
  cases h with
  | failed e => rfl
  | answered hentry hreply => rfl
  | added hread hreply => exact cache_insert_of_ne hne _
  | removed => exact cache_removeCached_of_ne hne

theorem CacheEffect.registration (h : CacheEffect env codec manager programId outcome)
    {data : RegistrationData} (hdata : outcome.1 = .ok (.registration data)) :
    ∃ entry wasCached, outcome.2.cache programId = some entry ∧
      data = .ofEntry programId entry wasCached := by
  cases h with
  | failed e => cases hdata
  | @answered entry reply hentry hreply =>
      cases hdata
      obtain ⟨wasCached, hdata⟩ := hreply
      exact ⟨entry, wasCached, hentry, hdata⟩
  | @added idlJson source entry reply hread hreply =>
      cases hdata
      obtain ⟨wasCached, hdata⟩ := hreply
      exact ⟨entry, wasCached, IdlManager.cache_insert manager programId entry, hdata⟩
  | removed => cases hdata

end Invariant

structure RegistrationData.Consistent (env : Externs) (codec : IdlCodec) (data : RegistrationData)
    (programId : String) (entry : CachedIdl) : Prop where
  program : data.programId = programId
  idl : data.idl = entry.idl
  idlJson : data.idlJson = entry.rawJson
  idlHash : data.idlHash = entry.hash
  schemaName : data.schemaName = Storage.deriveSchemaName entry.idl.metadata.name programId
  persisted : ∀ faults db db', writeRegistration faults data db = .ok db' →
    ∃ row, db'.program = some row ∧ row.schemaName = data.schemaName ∧
      row.idlJson = entry.rawJson ∧ computeIdlHash env codec row.idlJson = row.idlHash

theorem consistent_ofEntry {env : Externs} {codec : IdlCodec} {entry : CachedIdl}
    (h : entry.Sound env codec) (programId : String) (wasCached : Bool) :
    (RegistrationData.ofEntry programId entry wasCached).Consistent env codec programId entry where
  program := rfl
  idl := rfl
  idlJson := rfl
  idlHash := rfl
  schemaName := rfl
  persisted faults db db' hwrite := by
    obtain ⟨_, rfl⟩ := writeRegistration_eq_ok hwrite
    exact ⟨_, rfl, rfl, rfl, h.hash.symm⟩

/-- In every run from the empty cache the entries are what their texts are read as, with the
hashes of these; an operation that fails changes nothing, none changes the entry of another
program, and a registration is prepared from one entry. -/
theorem idl_cache_invariant (env : Externs) (codec : IdlCodec) (manager : IdlManager)
    (hreach : Reaches (cacheStep env codec) (fun _ _ => True) .empty manager) :
    (∀ programId entry, manager.cache programId = some entry →
      entry.hash = computeIdlHash env codec entry.rawJson ∧
        codec.Parses entry.rawJson entry.idl) ∧
      ∀ (op : CacheOp) (result : Except RegistrationError CacheReply) (manager' : IdlManager),
        (op.run env codec).from manager = (result, manager') →
        (∀ e, result = .error e → manager' = manager) ∧
        (∀ other, other ≠ op.programId → manager'.cache other = manager.cache other) ∧
        ∀ data, result = .ok (.registration data) →
          ∃ entry, manager'.cache op.programId = some entry ∧
            data.Consistent env codec op.programId entry := by
  have hsound : CacheSound env codec manager := by
    refine hreach.invariant (fun _ _ h => by cases h) ?_
    intro manager op manager' hsound _ hstep
    rw [← Option.some.inj hstep]
    exact (effect_run op).sound hsound
  refine ⟨fun programId entry h => ⟨(hsound programId entry h).hash,
    (hsound programId entry h).parses⟩, ?_⟩
  intro op result manager' hrun
  have heffect := @effect_run env codec manager op
  rw [hrun] at heffect
  refine ⟨fun e he => heffect.unchanged_of_error he, fun other hne => heffect.frame hne, ?_⟩
  intro data hdata
  obtain ⟨entry, wasCached, hentry, rfl⟩ := heffect.registration hdata
  exact ⟨entry, hentry,
    consistent_ofEntry (heffect.sound hsound op.programId entry hentry) op.programId wasCached⟩

def uploadThenMiss : List CacheOp :=
  [.uploadIdl "prog" (sampleText "a"),
    .getIdl "other" (.error (.notFound "other")) (.error (.notFound "other"))]

theorem idl_cache_invariant_uploaded :
    ∃ manager, runActions (cacheStep Externs.minimal .sample) .empty uploadThenMiss =
        some manager ∧
      (manager.cache "prog").isSome = true ∧
      (∀ entry, manager.cache "prog" = some entry →
        entry.hash = computeIdlHash Externs.minimal .sample entry.rawJson) ∧
      ∃ data manager', ((CacheOp.prepareRegistration "prog" none).run Externs.minimal .sample).from
          manager = (.ok (.registration data), manager') ∧
        ∃ entry, manager'.cache "prog" = some entry ∧
          data.Consistent Externs.minimal .sample "prog" entry := by
  obtain ⟨manager, hrun, hcached⟩ : ∃ manager,
      runActions (cacheStep Externs.minimal .sample) .empty uploadThenMiss = some manager ∧
        (manager.cache "prog").isSome = true := ⟨_, rfl, rfl⟩
  have hreach : Reaches (cacheStep Externs.minimal .sample) (fun _ _ => True) .empty manager :=
    Reaches.of_runActions .start (allowedActions_of_forall (fun _ _ _ => trivial) _) hrun
  obtain ⟨hentries, hops⟩ := idl_cache_invariant Externs.minimal .sample manager hreach
  obtain ⟨entry, hentry⟩ := Option.isSome_iff_exists.mp hcached
  have hprepare : ((CacheOp.prepareRegistration "prog" none).run Externs.minimal .sample).from
      manager = (.ok (.registration (.ofEntry "prog" entry true)), manager) := by
    rw [CacheOp.run, from_map]
    change ((manager.prepareRegistration Externs.minimal .sample "prog" none).1.map _,
      (manager.prepareRegistration Externs.minimal .sample "prog" none).2) = _
    rw [prepareRegistration_cached hentry]
    rfl
  exact ⟨manager, hrun, hcached, fun entry h => (hentries "prog" entry h).1, _, manager, hprepare,
    (hops _ _ _ hprepare).2.2 _ rfl⟩

end Solarix.Registry
