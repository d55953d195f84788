import Mathlib.Algebra.BigOperators.Group.List.Lemmas
import Solarix.Pipeline.Indexer
import Solarix.Pipeline.WriterTask

/-!
# The instruction counter

`indexer_state.total_instructions` against the rows of the `_instructions` table, side by
side as `program_stats` reports them.  A writer task adds the rows it has inserted when it
leaves its loop; the rows of a streamed transaction are added by nobody, and those of a
writer task that ends with an error neither.
-/

namespace Solarix.Pipeline

open Solarix.Core
open Solarix.Storage (Store Stream InstructionRecord Replies WriteCall WriteResult)

/-! ## The report -/

/-- A row of the `GROUP BY "instruction_name"` query. -/
structure NameGroup where
  firstSeenSlot : Option Int
  lastSeenSlot : Option Int
  instructionName : String
  count : Nat

def groupByName (rows : List InstructionRecord) : List NameGroup :=
  (rows.map InstructionRecord.instructionName).dedup.map fun name =>
    let slots := (rows.filter fun row => row.instructionName = name).map InstructionRecord.slot
    ⟨slots.min?, slots.max?, name, (rows.map InstructionRecord.instructionName).count name⟩

structure ProgramStats where
  totalInstructions : Int
  totalAccounts : Int
  firstSeenSlot : Option Int
  lastSeenSlot : Option Int
  instructionCounts : List (String × Nat)

def programStats (stateRow : Option IndexerState) (rows : List InstructionRecord) :
    ProgramStats where
  totalInstructions := stateRow.elim 0 IndexerState.totalInstructions
  totalAccounts := stateRow.elim 0 IndexerState.totalAccounts
  firstSeenSlot := ((groupByName rows).filterMap NameGroup.firstSeenSlot).min?
  lastSeenSlot := ((groupByName rows).filterMap NameGroup.lastSeenSlot).max?
  instructionCounts := (groupByName rows).map fun group => (group.instructionName, group.count)

theorem sum_instructionCounts (stateRow : Option IndexerState) (rows : List InstructionRecord) :
    ((programStats stateRow rows).instructionCounts.map Prod.snd).sum = rows.length := by
  have hsum := List.sum_map_count_dedup_eq_length (rows.map InstructionRecord.instructionName)
  rw [List.length_map] at hsum
  rw [← hsum]
  simp only [programStats, groupByName, List.map_map]
  rfl

/-! ## What has to be counted -/

/-- The rows of a filling that are not added to the counter yet. -/
def Filling.uncounted (filling : Filling) : Nat :=
  if filling.counted then 0 else filling.totalInstructions

def uncountedOf (filling : Option Filling) : Nat := filling.elim 0 Filling.uncounted

def Indexer.uncounted (st : Indexer) : Nat :=
  uncountedOf (st.filling .backfill) + uncountedOf (st.filling .catchup)

def Quiet (st : Indexer) : Prop := st.filling .backfill = none ∧ st.filling .catchup = none

def LosesNothing (st : Indexer) (stream : Stream) : Prop :=
  ∀ filling, st.filling stream = some filling → filling.totalInstructions = 0

/-- The rows that are inserted are counted: a streamed transaction adds none, a writer task
fails, and misses the update of the counters, only before it has inserted any, and no process
ends with rows to be counted. -/
def Accounted (setting : Setting) (st : Indexer) : IndexerAction → Prop
  | .stream (.event event .found none) =>
      ¬ FilteredOut setting.indexFailedTxs event →
      ∀ ix ∈ eventInstructions setting.transactions setting.decoder setting.programId
        setting.indexFailedTxs event, st.db.store.Committed ix
  | .backfill (.receive (some _)) => LosesNothing st .backfill
  | .catchup (.receive (some _)) => LosesNothing st .catchup
  | .countBackfill (some _) => LosesNothing st .backfill
  | .countCatchup (some _) => LosesNothing st .catchup
  | .crash => st.uncounted = 0
  | .stop _ => st.uncounted = 0
  | _ => True

def StatsMatch (db : Database) : Prop :=
  (programStats (some db.row) db.store.instructions).totalInstructions =
      db.store.instructions.length ∧
    (programStats (some db.row) db.store.instructions).totalInstructions =
      ((programStats (some db.row) db.store.instructions).instructionCounts.map Prod.snd).sum

section Counters

variable {setting : Setting} {st st' : Indexer} {action : IndexerAction}

/-! ## Rows -/

theorem length_foldl_insertRow (rows : List InstructionRecord) (store : Store) :
    store.instructions.length ≤ (rows.foldl Store.insertRow store).instructions.length := by
  induction rows generalizing store with
  | nil => exact le_rfl
  | cons row rows ih =>
      refine le_trans ?_ (ih (store.insertRow row))
      unfold Store.insertRow
      split
      · exact le_rfl
      · simp

theorem length_writeBlock (store : Store) (stream : Stream)
    (instructions : List DecodedInstruction) (slot : Nat) (signature : Option String) :
    store.instructions.length ≤
      (store.writeBlock stream instructions slot signature).instructions.length :=
  length_foldl_insertRow _ store

theorem writeBlock_of_committed {store : Store} {stream : Stream}
    {instructions : List DecodedInstruction} {slot : Nat} {signature : Option String}
    (h : ∀ ix ∈ instructions, store.Committed ix) :
    (store.writeBlock stream instructions slot signature).instructions = store.instructions := by
  have hfold : (instructions.map Storage.decomposeInstruction).foldl Store.insertRow store =
      store := by
    induction instructions with
    | nil => rfl
    | cons ix instructions ih =>
        have hhead : store.insertRow (Storage.decomposeInstruction ix) = store :=
          if_pos (h ix List.mem_cons_self)
        rw [List.map_cons, List.foldl_cons, hhead]
        exact ih fun other hother => h other (List.mem_cons_of_mem ix hother)
  show ((instructions.map Storage.decomposeInstruction).foldl Store.insertRow store).instructions =
    store.instructions
  rw [hfold]

theorem StateUpdate.totalInstructions {row row' : IndexerState} (h : StateUpdate row row') :
    row'.totalInstructions = row.totalInstructions := by
  obtain rfl | ⟨status, lastSlot, rfl⟩ := h <;> rfl

theorem count_totalInstructions {db : Database} {total : Nat} {error : Option String}
    (hlost : ∀ e, error = some e → total = 0) :
    (db.count total error).row.totalInstructions = db.row.totalInstructions + total := by
  unfold Database.count
  split
  · rfl
  · rename_i hnone
    have hzero : total = 0 := by
      cases error with
      | some e => exact hlost e rfl
      | none => simpa using hnone
    simp [hzero]

/-! ## The invariant -/

structure CountedFilling (filling : Filling) : Prop where
  /-- A writer task that has counted its rows has left its loop. -/
  counted : filling.counted = true → ∃ result, filling.tasks.writer = .finished result
  failed : ∀ e, filling.tasks.writer = .finished (.error e) → filling.totalInstructions = 0

structure CountInv (st : Indexer) : Prop where
  balance : st.db.row.totalInstructions + st.uncounted = st.db.store.instructions.length
  fillings : ∀ stream filling, st.filling stream = some filling → CountedFilling filling

theorem CountedFilling.over (store : Store) (start stop chunkSize : Nat) :
    CountedFilling (.over store start stop chunkSize) where
  counted := nofun
  failed := by
    intro e _
    rfl

theorem finished_of_returned {tasks : BackfillState} {result : Except PipelineError Unit}
    (h : tasks.returned = some result) : ∃ written, tasks.writer = .finished written := by
  unfold BackfillState.returned at h
  split at h
  · rename_i hwriter
    exact ⟨_, hwriter⟩
  · rename_i hwriter
    exact ⟨_, hwriter⟩
  · cases h

theorem CountedFilling.uncounted_of_joined {filling : Filling} (h : CountedFilling filling)
    {result : Except PipelineError Unit} (hjoined : filling.joined = some result) :
    filling.uncounted = 0 := by
  unfold Filling.joined at hjoined
  unfold Filling.uncounted
  split at hjoined
  · split at hjoined
    · rename_i hcounted
      rw [if_pos hcounted]
    · cases hjoined
  · rename_i hwriter
    obtain ⟨written, hfinished⟩ := finished_of_returned hjoined
    cases written with
    | ok _ => exact absurd hfinished hwriter
    | error e =>
        rw [h.failed e hfinished]
        split <;> rfl

/-- A step of the tasks inserts what it adds to the total, and inserts nothing once the
writer has left its loop. -/
theorem CountedFilling.fill {stream : Stream} {db db' : Database} {filling next : Filling}
    {taskAction : BackfillAction} (h : CountedFilling filling)
    (hstep : fillStep setting stream db filling taskAction = some (db', next))
    (hfails : ∀ error, taskAction = .receive (some error) → filling.totalInstructions = 0) :
    CountedFilling next ∧
      next.uncounted + db.store.instructions.length =
        filling.uncounted + db'.store.instructions.length := by
  obtain ⟨-, heffect, hdb, hnext⟩ := fillStep_eq_some hstep
  have hdb' : db'.store = next.tasks.store := by rw [hdb]
  have hcounted : next.counted = filling.counted := by rw [hnext]
  have htotal : next.totalInstructions = filling.totalInstructions +
      (db'.store.instructions.length - db.store.instructions.length) := by rw [hnext]
  have hsame : next.tasks.store = db.store → next.totalInstructions = filling.totalInstructions ∧
      next.uncounted + db.store.instructions.length =
        filling.uncounted + db'.store.instructions.length := by
    intro hstore
    have hkept : next.totalInstructions = filling.totalInstructions := by
      rw [htotal, hdb', hstore, Nat.sub_self, Nat.add_zero]
    refine ⟨hkept, ?_⟩
    rw [hdb', hstore]
    unfold Filling.uncounted
    rw [hcounted, hkept]
  cases heffect with
  | keep hstore hwriter =>
      obtain ⟨hkept, hbalance⟩ := hsame hstore
      refine ⟨⟨?_, ?_⟩, hbalance⟩
      · rw [hcounted, hwriter]
        exact h.counted
      · intro e he
        rw [hwriter] at he
        rw [hkept]
        exact h.failed e he
  | write hchannel hopen hstore hwriter =>
      have hnot : filling.counted = false := by
        cases hc : filling.counted with
        | false => rfl
        | true =>
            obtain ⟨result, hfinished⟩ := h.counted hc
            exact absurd hfinished (hopen result)
      refine ⟨⟨?_, ?_⟩, ?_⟩
      · rw [hcounted, hnot]
        nofun
      · intro e he
        rw [hwriter] at he
        exact absurd he (hopen _)
      · have hgrows : db.store.instructions.length ≤ db'.store.instructions.length := by
          rw [hdb', hstore]
          exact length_writeBlock ..
        unfold Filling.uncounted
        rw [hcounted, hnot, htotal]
        simp only [Bool.false_eq_true, if_false]
        omega
  | fail haction hopen hstore =>
      obtain ⟨hkept, hbalance⟩ := hsame hstore
      refine ⟨⟨?_, ?_⟩, hbalance⟩
      · rw [hcounted]
        intro hc
        obtain ⟨result, hfinished⟩ := h.counted hc
        exact absurd hfinished (hopen result)
      · intro e _
        rw [hkept]
        exact hfails _ haction
  | leave hopen hstore hwriter =>
      obtain ⟨hkept, hbalance⟩ := hsame hstore
      refine ⟨⟨?_, ?_⟩, hbalance⟩
      · rw [hcounted]
        intro hc
        obtain ⟨result, hfinished⟩ := h.counted hc
        exact absurd hfinished (hopen result)
      · intro e he
        obtain hdraining | hdone := hwriter
        · cases hdraining.symm.trans he
        · cases hdone.symm.trans he

theorem uncountedOf_none : uncountedOf none = 0 := rfl

theorem uncountedOf_some (filling : Filling) : uncountedOf (some filling) = filling.uncounted := rfl

theorem uncountedOf_over (store : Store) (start stop chunkSize : Nat) :
    uncountedOf (some (.over store start stop chunkSize)) = 0 := rfl

theorem uncounted_update {stream : Stream} {next : Option Filling}
    (hstream : stream = .backfill ∨ stream = .catchup)
    (hfilling : st'.filling = Function.update st.filling stream next) :
    st'.uncounted + uncountedOf (st.filling stream) = st.uncounted + uncountedOf next := by
  unfold Indexer.uncounted
  rw [hfilling]
  obtain rfl | rfl := hstream
  · rw [Function.update_self, Function.update_of_ne (by simp)]
    omega
  · rw [Function.update_self, Function.update_of_ne (by simp)]
    omega

theorem fillings_update {P : Filling → Prop} {stream : Stream} {next : Option Filling}
    (h : ∀ other filling, st.filling other = some filling → P filling)
    (hfilling : st'.filling = Function.update st.filling stream next)
    (hnext : ∀ filling, next = some filling → P filling) :
    ∀ other filling, st'.filling other = some filling → P filling := by
  intro other filling hother
  rw [hfilling] at hother
  by_cases hsame : other = stream
  · subst hsame
    rw [Function.update_self] at hother
    exact hnext filling hother
  · rw [Function.update_of_ne hsame] at hother
    exact h other filling hother

theorem CountInv.effect (h : CountInv st) (haccounted : Accounted setting st action)
    (heffect : IndexerEffect setting st action st') : CountInv st' := by
  have hbalance := h.balance
  cases heffect with
  | update hstore hrow hfilling =>
      refine ⟨?_, ?_⟩
      · rw [hstore, hrow.totalInstructions]
        unfold Indexer.uncounted
        rw [hfilling]
        exact hbalance
      · rw [hfilling]
        exact h.fillings
  | join stream filling hold hjoined hstore hrow hfilling =>
      have hleft := uncounted_update (filling_stream hold) hfilling
      have hnone := (h.fillings stream filling hold).uncounted_of_joined hjoined
      refine ⟨?_, fillings_update h.fillings hfilling fun other hother => by cases hother⟩
      rw [hstore, hrow.totalInstructions]
      rw [hold] at hleft
      simp only [uncountedOf_none, uncountedOf_some, hnone] at hleft
      omega
  | halt hhalt hstore hrow hfilling =>
      have hnone : st.uncounted = 0 := by
        obtain rfl | ⟨error, rfl⟩ := hhalt <;> exact haccounted
      have hafter : st'.uncounted = 0 := by
        unfold Indexer.uncounted
        rw [hfilling]
        rfl
      refine ⟨?_, fun stream filling hstream => ?_⟩
      · rw [hstore, hrow.totalInstructions, hafter]
        omega
      · rw [hfilling] at hstream
        cases hstream
  | beginBackfill startSlot endSlot haction hold hstore hrow hfilling =>
      have hleft := uncounted_update (.inl rfl) hfilling
      refine ⟨?_, fillings_update h.fillings hfilling fun filling hfilling => ?_⟩
      · rw [hstore, hrow.totalInstructions]
        rw [hold] at hleft
        simp only [uncountedOf_none, uncountedOf_over] at hleft
        omega
      · cases hfilling
        exact .over ..
  | beginCatchup chainTip hslot hpos hold hdb hfilling =>
      have hleft := uncounted_update (.inr rfl) hfilling
      refine ⟨?_, fillings_update h.fillings hfilling fun filling hfilling => ?_⟩
      · rw [hdb]
        rw [hold] at hleft
        simp only [uncountedOf_none, uncountedOf_over] at hleft
        omega
      · cases hfilling
        exact .over ..
  | fill stream filling next taskAction hold haction hstep hfilling =>
      have hfails : ∀ error, taskAction = .receive (some error) →
          filling.totalInstructions = 0 := by
        rintro error rfl
        obtain ⟨rfl, rfl⟩ | ⟨rfl, rfl⟩ := haction <;> exact haccounted filling hold
      have hleft := uncounted_update (filling_stream hold) hfilling
      obtain ⟨hnext, hrows⟩ := (h.fillings stream filling hold).fill hstep hfails
      refine ⟨?_, fillings_update h.fillings hfilling fun other hother => ?_⟩
      · rw [(fillStep_store hstep).1]
        rw [hold] at hleft
        simp only [uncountedOf_some] at hleft
        omega
      · cases hother
        exact hnext
  | count stream filling next error hold haction hstep hfilling =>
      have hleft := uncounted_update (filling_stream hold) hfilling
      obtain ⟨hwriter, hcounted, hdb, hnext⟩ := countStep_eq_some hstep
      have hlost : ∀ e, error = some e → filling.totalInstructions = 0 := by
        rintro e rfl
        obtain ⟨rfl, rfl⟩ | ⟨rfl, rfl⟩ := haction <;> exact haccounted filling hold
      have hafter : next.uncounted = 0 := by rw [hnext]; rfl
      have hbefore : filling.uncounted = filling.totalInstructions := by
        unfold Filling.uncounted
        rw [hcounted]
        rfl
      refine ⟨?_, fillings_update h.fillings hfilling fun other hother => ?_⟩
      · rw [hdb, count_store, count_totalInstructions hlost]
        rw [hold] at hleft
        simp only [uncountedOf_some, hafter, hbefore] at hleft
        omega
      · cases hother
        rw [hnext]
        exact ⟨fun _ => ⟨_, hwriter⟩, fun e he => by cases hwriter.symm.trans he⟩
  | write event hfiltered hinstructions hstore hrow hfilling =>
      refine ⟨?_, ?_⟩
      · rw [hstore, hrow, writeBlock_of_committed (haccounted hfiltered)]
        unfold Indexer.uncounted
        rw [hfilling]
        exact hbalance
      · rw [hfilling]
        exact h.fillings

/-- In every run of the condition, whenever no backfill and no catch-up is in progress, the
counter is the number of rows. -/
theorem counters_match_table
    (hst : Reaches (indexerStep setting) (Accounted setting) .registered st) (hquiet : Quiet st) :
    StatsMatch st.db := by
  have hstart : CountInv .registered := by
    refine ⟨rfl, ?_⟩
    intro stream filling hfilling
    cases hfilling
  have hinv : CountInv st := by
    refine hst.invariant hstart ?_
    intro s a s' hs haccounted hstep
    exact hs.effect haccounted (effect_of_indexerStep hstep)
  have hnone : st.uncounted = 0 := by
    unfold Indexer.uncounted
    rw [hquiet.1, hquiet.2]
    rfl
  have hbalance := hinv.balance
  rw [hnone] at hbalance
  have htotal : (programStats (some st.db.row) st.db.store.instructions).totalInstructions =
      st.db.store.instructions.length := by
    show st.db.row.totalInstructions = _
    simpa using hbalance
  exact ⟨htotal, htotal.trans (by rw [sum_instructionCounts])⟩

end Counters

def fillFirst : List IndexerAction :=
  [.start (.ok 11) none, .backfill (.listChunk fun range => .ok (rangeSlots range)),
    .backfill (.fetch none), .backfill .send, .backfill (.receive none), .backfill (.fetch none),
    .backfill .send]

def countAll : List IndexerAction :=
  [.backfill (.receive none), .backfill .endChunks, .backfill .endWriter, .countBackfill none,
    .endBackfill none, .subscribe none]

/-- The streamed transaction is one that the backfill has written. -/
theorem counters_match_table_counted :
    ∃ st, runActions (indexerStep (swapSetting (some 10))) .registered
        (fillFirst ++ countAll ++ [.stream (.event (swapEvent "a" 10) .found none)]) = some st ∧
      st.db.row.totalInstructions = 2 ∧ st.db.store.instructions.length = 2 ∧ Quiet st ∧
      StatsMatch st.db := by
  refine ⟨_, rfl, rfl, rfl, ⟨rfl, rfl⟩, ?_⟩
  refine @counters_match_table (swapSetting (some 10)) _ ?_ ⟨rfl, rfl⟩
  have hfilled : AllowedActions (indexerStep (swapSetting (some 10)))
      (Accounted (swapSetting (some 10))) .registered (fillFirst ++ countAll) :=
    allowedActions_of_forall (by simp [fillFirst, countAll, Accounted]) _
  refine Reaches.of_runActions Reaches.start (hfilled.append fun s hrun => ?_)
    (rfl : runActions _ _ (fillFirst ++ countAll ++
      [.stream (.event (swapEvent "a" 10) .found none)]) = some _)
  cases hrun
  refine ⟨fun _ ix hix => ?_, fun _ _ => trivial⟩
  rw [List.mem_singleton.mp hix]
  decide

/-- The row of a streamed transaction is not counted.  And when the second write of a backfill
fails, the row of the first is not. -/
theorem counters_miss_rows :
    (∃ st, runActions (indexerStep (swapSetting none)) .registered
        [.start (.ok 9) none, .subscribe none,
          .stream (.event (swapEvent "a" 10) .found none)] = some st ∧
      st.db.row.totalInstructions = 0 ∧ st.db.store.instructions.length = 1 ∧ Quiet st ∧
      ¬ StatsMatch st.db) ∧
    ∃ st, runActions (indexerStep (swapSetting (some 10))) .registered
        (fillFirst ++ [.backfill (.receive (some "connection lost")), .backfill .endChunks,
          .endBackfill none]) = some st ∧
      st.db.row.totalInstructions = 0 ∧ st.db.store.instructions.length = 1 ∧ Quiet st ∧
      ¬ StatsMatch st.db := by
  refine ⟨⟨_, rfl, rfl, rfl, ⟨rfl, rfl⟩, fun hmatch => ?_⟩,
    ⟨_, rfl, rfl, rfl, ⟨rfl, rfl⟩, fun hmatch => ?_⟩⟩
  · exact absurd hmatch.1 (by decide)
  · exact absurd hmatch.1 (by decide)

end Solarix.Pipeline
