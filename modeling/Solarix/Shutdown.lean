import Solarix.Core.Timed

/-!
# The shutdown of the process

`main` from the start of its tasks: the `select!` over the two join handles, the drain,
`read_shutdown_totals` and `graceful_shutdown`.  The tasks, the database and the clock are
what surrounds it.  Times are those of one clock; a handle that is awaited again after it
yielded its output panics.
-/

namespace Solarix

open Solarix.Core

inductive MainTask where
  | pipeline
  | api
  deriving DecidableEq, Repr

inductive TaskOutcome where
  | clean
  | failed (error : String)
  | panicked (error : String)

inductive SolarixError where
  | pipeline (error : String)
  | pipelineJoin (error : String)
  | apiServer (error : String)
  | apiJoin (error : String)

inductive MainEvent where
  /-- A join handle yields its output. -/
  | took (task : MainTask)
  | cancel
  | abort (task : MainTask)
  | gracefulShutdown
  /-- `read_max_checkpoint_slot`, the first half of the update of a program. -/
  | lookup (programId : String)
  /-- `update_indexer_state` to `stopped`. -/
  | stopped (programId : String) (lastSlot : Option Nat)
  | closePool
  deriving DecidableEq, Repr

structure Surroundings where
  /-- The server of the API-only mode. -/
  serve : Ending (Except String Unit)
  pipeline : Ending TaskOutcome
  api : Ending TaskOutcome
  /-- The branch that `select!` polls first. -/
  pipelineFirst : Bool
  shutdownDrain : Nat
  shutdownDbFlush : Nat
  totals : Ending (Except String (Int × Int × String))
  maxCheckpointSlot : String → Ending (Option Nat)
  update : String → Ending (Except String Unit)
  close : Ending Unit

section Main

variable (env : Surroundings)

/-- `(&mut handle).await`. -/
def awaitHandle (task : MainTask) (ending : Ending TaskOutcome) (taken : Bool) :
    Timed MainEvent TaskOutcome :=
  if taken then Timed.panic "JoinHandle polled after completion"
  else do
    let outcome ← Timed.await ending
    Timed.emit (.took task)
    pure outcome

def pipelineResult : TaskOutcome → Except SolarixError Unit
  | .clean => .ok ()
  | .failed e => .error (.pipeline e)
  | .panicked e => .error (.pipelineJoin e)

def apiResult : TaskOutcome → Except SolarixError Unit
  | .clean => .ok ()
  | .failed e => .error (.apiServer e)
  | .panicked e => .error (.apiJoin e)

/-- The drain phase, given the handle that the `select!` has taken; the results of the
tasks are only logged. -/
def drain (taken : MainTask) : Timed MainEvent Unit := do
  let drained ← Timed.timeout env.shutdownDrain do
    let apiRes ← awaitHandle .api env.api (taken == .api)
    let pipeRes ← awaitHandle .pipeline env.pipeline (taken == .pipeline)
    pure (apiRes, pipeRes)
  match drained with
  | some _ => pure ()
  | none => do
      Timed.emit (.abort .api)
      Timed.emit (.abort .pipeline)

/-- Pipeline mode: the `select!` and the drain. -/
def selectAndDrain : Timed MainEvent (Except SolarixError Unit) := do
  match ← Timed.select env.pipelineFirst env.pipeline env.api with
  | .inl outcome => do
      Timed.emit (.took .pipeline)
      Timed.emit .cancel
      drain env .pipeline
      pure (pipelineResult outcome)
  | .inr outcome => do
      Timed.emit (.took .api)
      Timed.emit .cancel
      drain env .api
      pure (apiResult outcome)

def serveOnly : Timed MainEvent (Except SolarixError Unit) := do
  match ← Timed.await env.serve with
  | .ok () => pure (.ok ())
  | .error e => pure (.error (.apiServer e))

/-- `read_shutdown_totals`; a negative total counts as zero. -/
def readShutdownTotals (startedPrograms : List String) : Timed MainEvent (Nat × Nat × String) := do
  if startedPrograms.isEmpty then pure (0, 0, "unknown")
  else
    match ← Timed.timeout env.shutdownDbFlush (Timed.call env.totals) with
    | some (.ok (instructions, accounts, status)) =>
        pure (instructions.toNat, accounts.toNat, status)
    | some (.error _) => pure (0, 0, "unknown")
    | none => pure (0, 0, "unknown")

/-- The update of one program in `graceful_shutdown`. -/
def stopProgram (programId : String) :
    Timed MainEvent (String × Option Nat × Except String Unit) := do
  Timed.emit (.lookup programId)
  let lastSlot ← Timed.call (env.maxCheckpointSlot programId)
  Timed.emit (.stopped programId lastSlot)
  let res ← Timed.call (env.update programId)
  pure (programId, lastSlot, res)

def closePool : Timed MainEvent Unit := do
  Timed.emit .closePool
  Timed.call env.close

def gracefulShutdown (startedPrograms : List String) : Timed MainEvent Unit := do
  Timed.emit .gracefulShutdown
  if startedPrograms.isEmpty then closePool env
  else do
    let _ ← Timed.timeout env.shutdownDbFlush
      (Timed.joinAll (startedPrograms.map (stopProgram env)))
    closePool env

/-- Only the first of the registered programs is started. -/
def startedPrograms (programs : List String) : List String := programs.take 1

def main (programs : List String) : Timed MainEvent (Except SolarixError Unit) := do
  let runResult ← if programs.isEmpty then serveOnly env else selectAndDrain env
  let _ ← readShutdownTotals env (startedPrograms programs)
  gracefulShutdown env (startedPrograms programs)
  pure runResult

def ShutdownBegins (programs : List String) : Prop :=
  if programs = [] then env.serve.time ≠ none
  else env.pipeline.time ≠ none ∨ env.api.time ≠ none

def Attempts (started : List String) (events : List (Nat × MainEvent)) : Prop :=
  (∃ time, (time, MainEvent.gracefulShutdown) ∈ events) ∧
    ∀ programId ∈ started, ∃ time lastSlot,
      (time, MainEvent.stopped programId lastSlot) ∈ events

def AnswersInTime (programId : String) : Prop :=
  ∃ duration, (env.maxCheckpointSlot programId).time = some duration ∧
    duration ≤ env.shutdownDbFlush

def ServerOutlives : Prop :=
  ∀ time, env.api.time = some time →
    ∃ finished, env.pipeline.time = some finished ∧ finished + env.shutdownDrain < time

/-- No handle is awaited again, and a shutdown that begins stops every started program. -/
structure Coordinated (programs : List String) : Prop where
  once : ∀ task, ((main env programs 0).effects.filter fun e => e.2 = .took task).length ≤ 1
  safe : ∀ time message, (main env programs 0).finish ≠ .panicked time message
  attempts : ShutdownBegins env programs →
    Attempts (startedPrograms programs) (main env programs 0).effects

end Main

section Proofs

variable {env : Surroundings} {programs started : List String}

/-! ## After the tasks -/

def NotTook (event : MainEvent) : Prop := ∀ task, event ≠ .took task

theorem readShutdownTotals_done (env : Surroundings) (started : List String) (now : Nat) :
    ∃ time value, readShutdownTotals env started now = ⟨[], .done time value⟩ := by
  unfold readShutdownTotals
  split
  · exact ⟨_, _, rfl⟩
  · obtain ⟨time, totals, hcall⟩ :=
      Timed.timeout_call (ε := MainEvent) env.totals env.shutdownDbFlush now
    rw [Timed.bind_done hcall]
    refine ⟨time, ?_⟩
    split <;> exact ⟨_, rfl⟩

theorem stopProgram_safe (programId : String) : (stopProgram env programId).Safe := by
  unfold stopProgram
  refine (Timed.Safe.emit _).bind fun _ => (Timed.Safe.call _).bind fun _ =>
    (Timed.Safe.emit _).bind fun _ => (Timed.Safe.call _).bind fun _ => .pure _

theorem stopProgram_notTook (programId : String) : (stopProgram env programId).Only NotTook := by
  unfold stopProgram
  refine (Timed.Only.emit nofun).bind fun _ => (Timed.Only.call _).bind fun _ =>
    (Timed.Only.emit nofun).bind fun _ => (Timed.Only.call _).bind fun _ => .pure _

theorem closePool_safe : (closePool env).Safe := by
  unfold closePool
  exact (Timed.Safe.emit _).bind fun _ => .call _

theorem closePool_only : (closePool env).Only fun event => event = .closePool := by
  have hemit : (Timed.emit MainEvent.closePool).Only fun event => event = .closePool :=
    Timed.Only.emit rfl
  exact hemit.bind fun _ => .call _

theorem closePool_notTook : (closePool env).Only NotTook := by
  intro now effect heffect task
  rw [closePool_only now effect heffect]
  nofun

theorem gracefulShutdown_safe : (gracefulShutdown env started).Safe := by
  unfold gracefulShutdown
  refine (Timed.Safe.emit _).bind fun _ => ?_
  split
  · exact closePool_safe
  · refine (Timed.Safe.timeout (.joinAll ?_) _).bind fun _ => closePool_safe
    intro x hx
    obtain ⟨programId, _, rfl⟩ := List.mem_map.mp hx
    exact stopProgram_safe programId

theorem gracefulShutdown_notTook : (gracefulShutdown env started).Only NotTook := by
  unfold gracefulShutdown
  refine (Timed.Only.emit nofun).bind fun _ => ?_
  split
  · exact closePool_notTook
  · refine (Timed.Only.timeout (.joinAll ?_) _).bind fun _ => closePool_notTook
    intro x hx
    obtain ⟨programId, _, rfl⟩ := List.mem_map.mp hx
    exact stopProgram_notTook programId

theorem stopProgram_some {programId : String} {duration : Nat}
    (h : (env.maxCheckpointSlot programId).time = some duration) (now : Nat) :
    (stopProgram env programId now).effects =
        [(now, .lookup programId),
          (now + duration, .stopped programId (env.maxCheckpointSlot programId).value)] ∧
      ((stopProgram env programId now).finish = .never ∨
        ∃ time value, (stopProgram env programId now).finish = .done time value ∧
          now + duration ≤ time) := by
  unfold stopProgram
  rw [Timed.bind_done rfl, Timed.bind_done (Timed.call_some h now), Timed.bind_done rfl]
  cases hupdate : (env.update programId).time with
  | none =>
      rw [Timed.bind_never (Timed.call_none hupdate _)]
      exact ⟨rfl, .inl rfl⟩
  | some time =>
      rw [Timed.bind_done (Timed.call_some hupdate _)]
      exact ⟨rfl, .inr ⟨_, _, rfl, Nat.le_add_right _ _⟩⟩

theorem stopProgram_none {programId : String}
    (h : (env.maxCheckpointSlot programId).time = none) (now : Nat) :
    stopProgram env programId now = ⟨[(now, .lookup programId)], .never⟩ := by
  unfold stopProgram
  rw [Timed.bind_done rfl, Timed.bind_never (Timed.call_none h now)]
  rfl

theorem mem_gracefulShutdown {programId : String} (hmem : programId ∈ started) {now : Nat}
    {event : Nat × MainEvent} (h : event ∈ (stopProgram env programId now).effects)
    (htime : event.1 ≤ now + env.shutdownDbFlush) :
    event ∈ (gracefulShutdown env started now).effects := by
  unfold gracefulShutdown
  rw [Timed.bind_done rfl]
  refine List.mem_append_right _ ?_
  rw [if_neg (by simpa using List.ne_nil_of_mem hmem)]
  refine Timed.mem_bind_left (Timed.mem_timeout (Timed.mem_joinAll ?_ ?_ h) htime)
  · intro x hx
    obtain ⟨other, _, rfl⟩ := List.mem_map.mp hx
    exact stopProgram_safe other
  · exact List.mem_map_of_mem hmem

def closing (env : Surroundings) (started : List String) (runResult : Except SolarixError Unit) :
    Timed MainEvent (Except SolarixError Unit) := do
  let _ ← readShutdownTotals env started
  gracefulShutdown env started
  pure runResult

theorem closing_safe (runResult : Except SolarixError Unit) :
    (closing env started runResult).Safe := by
  intro now
  obtain ⟨time, totals, htotals⟩ := readShutdownTotals_done env started now
  unfold closing
  rw [Timed.bind_done htotals]
  exact (gracefulShutdown_safe.bind fun _ => .pure _) time

theorem closing_notTook (runResult : Except SolarixError Unit) :
    (closing env started runResult).Only NotTook := by
  intro now
  obtain ⟨time, totals, htotals⟩ := readShutdownTotals_done env started now
  unfold closing
  rw [Timed.bind_done htotals, List.nil_append]
  exact (gracefulShutdown_notTook.bind fun _ => .pure _) time

theorem closing_attempts (hanswers : ∀ programId ∈ started, AnswersInTime env programId)
    (runResult : Except SolarixError Unit) (now : Nat) :
    Attempts started (closing env started runResult now).effects := by
  obtain ⟨time, totals, htotals⟩ := readShutdownTotals_done env started now
  unfold closing
  rw [Timed.bind_done htotals, List.nil_append]
  refine ⟨⟨time, Timed.mem_bind_left (Timed.mem_bind_left List.mem_cons_self)⟩, ?_⟩
  intro programId hmem
  obtain ⟨duration, hduration, hflush⟩ := hanswers programId hmem
  refine ⟨time + duration, (env.maxCheckpointSlot programId).value,
    Timed.mem_bind_left (mem_gracefulShutdown hmem ?_ ?_)⟩
  · rw [(stopProgram_some hduration time).1]
    exact List.mem_cons_of_mem _ List.mem_cons_self
  · exact Nat.add_le_add_left hflush time

theorem joinAll_stopProgram_none {programId : String}
    (h : (env.maxCheckpointSlot programId).time = none) (now : Nat) :
    Timed.joinAll [stopProgram env programId] now = ⟨[(now, .lookup programId)], .never⟩ := by
  simp only [Timed.joinAll, stopProgram_none h now]
  rfl

theorem joinAll_stopProgram_some {programId : String} {duration : Nat}
    (h : (env.maxCheckpointSlot programId).time = some duration) (now : Nat) :
    (Timed.joinAll [stopProgram env programId] now).effects =
        (stopProgram env programId now).effects ∧
      ((Timed.joinAll [stopProgram env programId] now).finish = .never ∨
        ∃ time value, (Timed.joinAll [stopProgram env programId] now).finish =
          .done time value ∧ now + duration ≤ time) := by
  simp only [Timed.joinAll, Timed.done]
  rcases (stopProgram_some h now).2 with hnever | ⟨time, value, hdone, htime⟩
  · rw [hnever]
    exact ⟨List.append_nil _, .inl rfl⟩
  · rw [hdone]
    exact ⟨List.append_nil _, .inr ⟨_, _, rfl, by omega⟩⟩

/-- A look-up slower than the flush timeout is all that a program's stop does. -/
theorem timeout_stopProgram_late {programId : String}
    (hanswers : ¬ AnswersInTime env programId) (now : Nat) :
    Timed.timeout env.shutdownDbFlush (Timed.joinAll [stopProgram env programId]) now =
      ⟨[(now, .lookup programId)], .done (now + env.shutdownDbFlush) none⟩ := by
  cases hduration : (env.maxCheckpointSlot programId).time with
  | none =>
      have hjoin := joinAll_stopProgram_none hduration now
      rw [Timed.timeout_late rfl (.inl (by rw [hjoin])), hjoin]
      simp [Timed.upTo]
  | some duration =>
      have hlate : env.shutdownDbFlush < duration := by
        by_contra h
        exact hanswers ⟨duration, hduration, by omega⟩
      obtain ⟨heffects, hfinish⟩ := joinAll_stopProgram_some hduration now
      have hafter : (Timed.joinAll [stopProgram env programId] now).finish = .never ∨
          ∃ time value, (Timed.joinAll [stopProgram env programId] now).finish =
            .done time value ∧ now + env.shutdownDbFlush < time := by
        rcases hfinish with hnever | ⟨time, value, hdone, htime⟩
        · exact .inl hnever
        · exact .inr ⟨time, value, hdone, by omega⟩
      -- only the look-up itself starts before the timeout
      rw [Timed.timeout_late rfl hafter, heffects, (stopProgram_some hduration now).1]
      simp only [Timed.upTo]
      rw [List.filter_cons_of_pos (by simp), List.filter_cons_of_neg (by simp; omega),
        List.filter_nil]

theorem gracefulShutdown_not_stopped {programId : String}
    (hanswers : ¬ AnswersInTime env programId) :
    (gracefulShutdown env [programId]).Only fun event =>
      ∀ lastSlot, event ≠ .stopped programId lastSlot := by
  intro now effect heffect lastSlot
  unfold gracefulShutdown at heffect
  rw [Timed.bind_done rfl, if_neg (by simp), List.map_singleton,
    Timed.bind_done (timeout_stopProgram_late hanswers now)] at heffect
  simp only [List.mem_append, List.mem_singleton] at heffect
  rcases heffect with heffect | heffect | heffect
  · rw [heffect]
    intro h
    cases h
  · rw [heffect]
    intro h
    cases h
  · rw [closePool_only _ _ heffect]
    intro h
    cases h

/-! ## The tasks -/

theorem main_nil : main env [] = serveOnly env >>= closing env [] := rfl

theorem main_cons (programId : String) (programs : List String) :
    main env (programId :: programs) = selectAndDrain env >>= closing env [programId] := rfl

/-- What the drain waits for when `select!` took the output of `taken`. -/
def bothHandles (env : Surroundings) (taken : MainTask) :
    Timed MainEvent (TaskOutcome × TaskOutcome) := do
  let apiRes ← awaitHandle .api env.api (taken == .api)
  let pipeRes ← awaitHandle .pipeline env.pipeline (taken == .pipeline)
  pure (apiRes, pipeRes)

theorem drain_api (now : Nat) :
    drain env .api now = ⟨[], .panicked now "JoinHandle polled after completion"⟩ := by
  have hpanic : Timed.timeout env.shutdownDrain (bothHandles env .api) now =
      ⟨[], .panicked now "JoinHandle polled after completion"⟩ := by
    unfold Timed.timeout bothHandles
    rw [Timed.bind_panicked rfl]
    exact if_pos (Nat.le_add_right _ _)
  exact Timed.bind_panicked hpanic

theorem bothHandles_pipeline {now time : Nat} (htime : env.api.time = some time) :
    bothHandles env .pipeline now =
      ⟨[(max now time, .took .api)],
        .panicked (max now time) "JoinHandle polled after completion"⟩ := by
  have hapi : awaitHandle .api env.api false now =
      ⟨[(max now time, .took .api)], .done (max now time) env.api.value⟩ :=
    Timed.bind_done (Timed.await_some htime now)
  exact Timed.bind_done hapi

theorem drain_pipeline_again {now time : Nat} (htime : env.api.time = some time)
    (hdrain : time ≤ now + env.shutdownDrain) :
    drain env .pipeline now =
      ⟨[(max now time, .took .api)],
        .panicked (max now time) "JoinHandle polled after completion"⟩ := by
  have hpanic : Timed.timeout env.shutdownDrain (bothHandles env .pipeline) now =
      ⟨[(max now time, .took .api)],
        .panicked (max now time) "JoinHandle polled after completion"⟩ := by
    unfold Timed.timeout
    rw [bothHandles_pipeline htime]
    exact if_pos (Nat.max_le.mpr ⟨Nat.le_add_right _ _, hdrain⟩)
  exact Timed.bind_panicked hpanic

theorem drain_pipeline_timeout {now : Nat}
    (hlate : ∀ time, env.api.time = some time → now + env.shutdownDrain < time) :
    drain env .pipeline now =
      ⟨[(now + env.shutdownDrain, .abort .api), (now + env.shutdownDrain, .abort .pipeline)],
        .done (now + env.shutdownDrain) ()⟩ := by
  have hcut : Timed.timeout env.shutdownDrain (bothHandles env .pipeline) now =
      ⟨[], .done (now + env.shutdownDrain) none⟩ := by
    cases htime : env.api.time with
    | none =>
        have hboth : bothHandles env .pipeline now = ⟨[], .never⟩ :=
          Timed.bind_never (Timed.bind_never (Timed.await_none htime now))
        unfold Timed.timeout
        rw [hboth]
        rfl
    | some time =>
        have hlate := hlate time htime
        have hmax : ¬ max now time ≤ now + env.shutdownDrain := by omega
        unfold Timed.timeout
        rw [bothHandles_pipeline htime]
        simp only [if_neg hmax, Timed.upTo]
        rw [List.filter_cons_of_neg (by simpa using hmax)]
        rfl
  exact Timed.bind_done hcut

theorem selectAndDrain_pipeline {time : Nat} {outcome : TaskOutcome}
    (hselect : Timed.select (ε := MainEvent) env.pipelineFirst env.pipeline env.api 0 =
      ⟨[], .done time (.inl outcome)⟩) :
    selectAndDrain env 0 =
      ⟨(time, .took .pipeline) :: (time, .cancel) ::
          ((drain env .pipeline >>= fun _ => pure (pipelineResult outcome)) time).effects,
        ((drain env .pipeline >>= fun _ => pure (pipelineResult outcome)) time).finish⟩ :=
  Timed.bind_done hselect

theorem selectAndDrain_api {time : Nat} {outcome : TaskOutcome}
    (hselect : Timed.select (ε := MainEvent) env.pipelineFirst env.pipeline env.api 0 =
      ⟨[], .done time (.inr outcome)⟩) :
    selectAndDrain env 0 =
      ⟨[(time, .took .api), (time, .cancel)],
        .panicked time "JoinHandle polled after completion"⟩ := by
  have hdrain : (drain env .api >>= fun _ => pure (apiResult outcome)) time =
      ⟨[], .panicked time "JoinHandle polled after completion"⟩ :=
    Timed.bind_panicked (drain_api time)
  have hrun : selectAndDrain env 0 =
      ⟨(time, .took .api) :: (time, .cancel) ::
          ((drain env .api >>= fun _ => pure (apiResult outcome)) time).effects,
        ((drain env .api >>= fun _ => pure (apiResult outcome)) time).finish⟩ :=
    Timed.bind_done hselect
  rw [hrun, hdrain]

theorem selectAndDrain_panics {time : Nat} (htime : env.api.time = some time)
    (hearly : ∀ finished, env.pipeline.time = some finished →
      time ≤ finished + env.shutdownDrain) :
    ∃ effects moment, selectAndDrain env 0 =
      ⟨effects, .panicked moment "JoinHandle polled after completion"⟩ := by
  by_cases hfirst : ∃ finished, env.pipeline.time = some finished ∧
      (max 0 finished < max 0 time ∨ (max 0 finished = max 0 time ∧ env.pipelineFirst))
  · obtain ⟨finished, hpipeline, hfirst⟩ := hfirst
    have hselect := Timed.select_left (ε := MainEvent) hpipeline fun time' htime' => by
      rw [htime] at htime'
      cases htime'
      exact hfirst
    rw [selectAndDrain_pipeline hselect]
    have hagain := drain_pipeline_again htime
      (show time ≤ max 0 finished + env.shutdownDrain by simpa using hearly finished hpipeline)
    rw [Timed.bind_panicked hagain]
    exact ⟨_, _, rfl⟩
  · have hselect := Timed.select_right (ε := MainEvent) htime fun finished hpipeline hselected =>
      hfirst ⟨finished, hpipeline, hselected⟩
    exact ⟨_, _, selectAndDrain_api hselect⟩

theorem selectAndDrain_aborts {finished : Nat} (hpipeline : env.pipeline.time = some finished)
    (hlate : ∀ time, env.api.time = some time → finished + env.shutdownDrain < time) :
    selectAndDrain env 0 =
      ⟨[(finished, .took .pipeline), (finished, .cancel),
          (finished + env.shutdownDrain, .abort .api),
          (finished + env.shutdownDrain, .abort .pipeline)],
        .done (finished + env.shutdownDrain) (pipelineResult env.pipeline.value)⟩ := by
  have hselect : Timed.select (ε := MainEvent) env.pipelineFirst env.pipeline env.api 0 =
      ⟨[], .done (max 0 finished) (.inl env.pipeline.value)⟩ := by
    refine Timed.select_left hpipeline fun time htime => .inl ?_
    have hafter := hlate time htime
    omega
  rw [Nat.zero_max] at hselect
  rw [selectAndDrain_pipeline hselect, Timed.bind_done (drain_pipeline_timeout hlate)]
  rfl

/-- What comes before the closing decides how often the handles are taken. -/
theorem coordinated_of_done {program : Timed MainEvent (Except SolarixError Unit)}
    {effects : List (Nat × MainEvent)} {time : Nat} {result : Except SolarixError Unit}
    (hmain : main env programs = program >>= closing env (startedPrograms programs))
    (hprogram : program 0 = ⟨effects, .done time result⟩)
    (honce : ∀ task, (effects.filter fun e => e.2 = .took task).length ≤ 1)
    (hanswers : ∀ programId ∈ startedPrograms programs, AnswersInTime env programId) :
    Coordinated env programs := by
  have hrun : main env programs 0 =
      ⟨effects ++ (closing env (startedPrograms programs) result time).effects,
        (closing env (startedPrograms programs) result time).finish⟩ := by
    rw [hmain]
    exact Timed.bind_done hprogram
  constructor
  · intro task
    have hclosing : ((closing env (startedPrograms programs) result time).effects.filter
        fun e => e.2 = .took task) = [] := by
      rw [List.filter_eq_nil_iff]
      intro e he
      simpa using closing_notTook result time e he task
    rw [hrun, List.filter_append, hclosing, List.append_nil]
    exact honce task
  · rw [hrun]
    exact closing_safe result time
  · intro _
    obtain ⟨⟨moment, hreached⟩, hstopped⟩ := closing_attempts hanswers result time
    rw [hrun]
    refine ⟨⟨moment, List.mem_append_right _ hreached⟩, fun programId hmem => ?_⟩
    obtain ⟨stopTime, lastSlot, hupdate⟩ := hstopped programId hmem
    exact ⟨stopTime, lastSlot, List.mem_append_right _ hupdate⟩

theorem coordinated_of_never {program : Timed MainEvent (Except SolarixError Unit)}
    (hmain : main env programs = program >>= closing env (startedPrograms programs))
    (hprogram : program 0 = ⟨[], .never⟩) (hbegins : ¬ ShutdownBegins env programs) :
    Coordinated env programs := by
  have hrun : main env programs 0 = ⟨[], .never⟩ := by
    rw [hmain]
    exact Timed.bind_never hprogram
  constructor
  · simp [hrun]
  · simp [hrun]
  · exact fun h => absurd h hbegins

theorem coordinated_nil : Coordinated env [] := by
  cases hserve : env.serve.time with
  | none =>
      refine coordinated_of_never main_nil (Timed.bind_never (Timed.await_none hserve 0)) ?_
      simp [ShutdownBegins, hserve]
  | some time =>
      have hprogram : ∃ result, serveOnly env 0 = ⟨[], .done (max 0 time) result⟩ := by
        unfold serveOnly
        rw [Timed.bind_done (Timed.await_some hserve 0)]
        cases env.serve.value with
        | ok _ => exact ⟨_, rfl⟩
        | error e => exact ⟨_, rfl⟩
      obtain ⟨result, hprogram⟩ := hprogram
      exact coordinated_of_done main_nil hprogram (by simp) (by simp [startedPrograms])

theorem ServerOutlives.aborts {finished : Nat} (houtlives : ServerOutlives env)
    (hpipeline : env.pipeline.time = some finished) :
    selectAndDrain env 0 =
      ⟨[(finished, .took .pipeline), (finished, .cancel),
          (finished + env.shutdownDrain, .abort .api),
          (finished + env.shutdownDrain, .abort .pipeline)],
        .done (finished + env.shutdownDrain) (pipelineResult env.pipeline.value)⟩ := by
  refine selectAndDrain_aborts hpipeline fun time htime => ?_
  obtain ⟨finished', hfinished', hafter⟩ := houtlives time htime
  cases hpipeline.symm.trans hfinished'
  exact hafter

theorem ServerOutlives.begins_iff (houtlives : ServerOutlives env) {programId : String} :
    ShutdownBegins env (programId :: programs) ↔ env.pipeline.time ≠ none := by
  unfold ShutdownBegins
  rw [if_neg (List.cons_ne_nil _ _)]
  refine or_iff_left_of_imp fun hapi hpipeline => ?_
  obtain ⟨time, htime⟩ := Option.ne_none_iff_exists'.mp hapi
  obtain ⟨finished, hfinished, -⟩ := houtlives time htime
  rw [hpipeline] at hfinished
  cases hfinished

theorem coordinated_cons {programId : String} (houtlives : ServerOutlives env)
    (hanswers : ShutdownBegins env (programId :: programs) → AnswersInTime env programId) :
    Coordinated env (programId :: programs) := by
  cases hpipeline : env.pipeline.time with
  | none =>
      have hapi : env.api.time = none := by
        by_contra hapi
        obtain ⟨time, htime⟩ := Option.ne_none_iff_exists'.mp hapi
        obtain ⟨finished, hfinished, _⟩ := houtlives time htime
        cases hpipeline.symm.trans hfinished
      have hselect : Timed.select (ε := MainEvent) env.pipelineFirst env.pipeline env.api 0 =
          ⟨[], .never⟩ := by
        unfold Timed.select
        rw [hpipeline, hapi]
      refine coordinated_of_never (main_cons programId programs) (Timed.bind_never hselect) ?_
      rw [houtlives.begins_iff, hpipeline]
      exact not_not.mpr rfl
  | some finished =>
      refine coordinated_of_done (main_cons programId programs) (houtlives.aborts hpipeline) ?_ ?_
      · intro task
        cases task <;> simp
      · intro other hother
        rw [List.mem_singleton.mp (show other ∈ [programId] from hother)]
        exact hanswers (houtlives.begins_iff.mpr (by rw [hpipeline]; nofun))

theorem Coordinated.answersInTime {programId : String} (houtlives : ServerOutlives env)
    (h : Coordinated env (programId :: programs))
    (hbegins : ShutdownBegins env (programId :: programs)) : AnswersInTime env programId := by
  by_contra hanswers
  obtain ⟨finished, hpipeline⟩ := Option.ne_none_iff_exists'.mp (houtlives.begins_iff.mp hbegins)
  obtain ⟨time, lastSlot, hstopped⟩ :=
    (h.attempts hbegins).2 programId (show programId ∈ [programId] from List.mem_cons_self)
  obtain ⟨moment, totals, htotals⟩ :=
    readShutdownTotals_done env [programId] (finished + env.shutdownDrain)
  rw [main_cons, Timed.bind_done (houtlives.aborts hpipeline)] at hstopped
  unfold closing at hstopped
  rw [Timed.bind_done htotals, List.nil_append, List.mem_append] at hstopped
  rcases hstopped with hstopped | hstopped
  · simp at hstopped
  · have honly := (gracefulShutdown_not_stopped hanswers).bind
      fun _ => Timed.Only.pure (pipelineResult env.pipeline.value)
    exact honly _ _ hstopped lastSlot rfl

/-- Every handle is awaited once and every started program is stopped, exactly when no program
is started, or the server outlives the pipeline by more than the drain and the look-up of the
program that is started answers before the flush times out. -/
theorem coordinated_iff (env : Surroundings) (programs : List String) :
    Coordinated env programs ↔ programs = [] ∨
      ServerOutlives env ∧ (ShutdownBegins env programs →
        ∀ programId ∈ startedPrograms programs, AnswersInTime env programId) := by
  cases programs with
  | nil => exact ⟨fun _ => .inl rfl, fun _ => coordinated_nil⟩
  | cons programId programs =>
      have hstarted : startedPrograms (programId :: programs) = [programId] := rfl
      rw [hstarted, List.forall_mem_singleton]
      constructor
      · intro hcoordinated
        have houtlives : ServerOutlives env := by
          intro time htime
          by_contra hnone
          have hearly : ∀ finished, env.pipeline.time = some finished →
              time ≤ finished + env.shutdownDrain := by
            intro finished hfinished
            by_contra hafter
            exact hnone ⟨finished, hfinished, by omega⟩
          obtain ⟨effects, moment, hpanic⟩ := selectAndDrain_panics htime hearly
          refine hcoordinated.safe moment "JoinHandle polled after completion" ?_
          rw [main_cons, Timed.bind_panicked hpanic]
        exact .inr ⟨houtlives, hcoordinated.answersInTime houtlives⟩
      · rintro (h | ⟨houtlives, hanswers⟩)
        · cases h
        · exact coordinated_cons houtlives hanswers

/-- The server has ended after one second, and its handle is awaited again in the drain. -/
theorem shutdown_panics :
    let env : Surroundings :=
      { serve := ⟨none, .ok ()⟩
        pipeline := ⟨some 3000, .clean⟩
        api := ⟨some 1000, .clean⟩
        pipelineFirst := true
        shutdownDrain := 15000
        shutdownDbFlush := 10000
        totals := ⟨some 5, .ok (0, 0, "streaming")⟩
        maxCheckpointSlot := fun _ => ⟨some 5, some 11⟩
        update := fun _ => ⟨some 5, .ok ()⟩
        close := ⟨some 5, ()⟩ }
    (main env ["program"] 0).finish =
        .panicked 1000 "JoinHandle polled after completion" ∧
      (∀ time, (time, MainEvent.gracefulShutdown) ∉ (main env ["program"] 0).effects) ∧
      ¬ Coordinated env ["program"] := by
  intro env
  have hrun : main env ["program"] 0 =
      ⟨[(1000, .took .api), (1000, .cancel)],
        .panicked 1000 "JoinHandle polled after completion"⟩ := rfl
  refine ⟨by rw [hrun], by simp [hrun], fun h => h.safe 1000 _ (by rw [hrun])⟩

end Proofs

end Solarix
