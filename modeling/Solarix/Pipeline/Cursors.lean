import Solarix.Pipeline.Indexer

/-!
# The durable cursors

The checkpoints and `last_processed_slot` along every run of the indexer.  The update of
the row keeps the greater slot.  The checkpoint upsert does not: a stream goes back when an
older slot is written, which the backfill never does, an event out of order does, and a
catch-up that starts behind the last one does.
-/

namespace Solarix.Pipeline

open Solarix.Core
open Solarix.Storage (Store Stream slotToI64)

/-- A cursor does not go back, and does not become `NULL`. -/
def NotBefore (cursor cursor' : Option Int) : Prop :=
  ∀ slot, cursor = some slot → ∃ slot', cursor' = some slot' ∧ slot ≤ slot'

def lastSlotOf (store : Store) (stream : Stream) : Option Int :=
  (store.checkpoints stream).map fun checkpoint => checkpoint.lastSlot

structure CursorsKept (db db' : Database) : Prop where
  checkpoints : ∀ stream, NotBefore (lastSlotOf db.store stream) (lastSlotOf db'.store stream)
  processed : NotBefore db.row.lastProcessedSlot db'.row.lastProcessedSlot

/-- The documented behaviour of the node: its slots are `u64`, and it lists the slots of a
range in ascending order. -/
def NodeReplies : IndexerAction → Prop
  | .start (.ok chainTip) _ => chainTip ≤ u64Max
  | .tail (.ok tailEnd) _ => tailEnd ≤ u64Max
  | .reconnected (.ok chainTip) => chainTip ≤ u64Max
  | .backfill (.listChunk answer) => ListsInOrder answer
  | .catchup (.listChunk answer) => ListsInOrder answer
  | _ => True

def NextFits (st : Indexer) (stream : Stream) : Prop :=
  ∀ filling, st.filling stream = some filling →
    ∀ batch ∈ filling.tasks.channel.head?, batch.slot < 2 ^ 63

/-- No event is written behind the `realtime` checkpoint, no catch-up begins behind its own,
and the slots fit the column. -/
def InStreamOrder (setting : Setting) (st : Indexer) : IndexerAction → Prop
  | .backfill _ => NextFits st .backfill
  | .catchup _ => NextFits st .catchup
  | .stream (.event event .found none) =>
      ¬ FilteredOut setting.indexFailedTxs event →
      eventInstructions setting.transactions setting.decoder setting.programId
        setting.indexFailedTxs event ≠ [] →
      event.slot < 2 ^ 63 ∧
        ∀ last, st.db.store.checkpointSlot .realtime = some last → last ≤ event.slot
  | .reconnected (.ok _) =>
      ∀ slot, st.reconnectSlot = some slot → slot > 0 →
        ∀ last, st.db.store.checkpointSlot .catchup = some last → last < saturatingAdd slot 1
  | _ => True

def CursorsInOrder (setting : Setting) (st : Indexer) (action : IndexerAction) : Prop :=
  NodeReplies action ∧ InStreamOrder setting st action

section Cursors

variable {setting : Setting} {st st' : Indexer} {action : IndexerAction}

/-! ## Single writes -/

theorem NotBefore.refl (cursor : Option Int) : NotBefore cursor cursor :=
  fun slot hslot => ⟨slot, hslot, le_rfl⟩

theorem NotBefore.trans {a b c : Option Int} (hab : NotBefore a b) (hbc : NotBefore b c) :
    NotBefore a c := by
  intro slot hslot
  obtain ⟨slot', hslot', hle⟩ := hab slot hslot
  obtain ⟨slot'', hslot'', hle'⟩ := hbc slot' hslot'
  exact ⟨slot'', hslot'', hle.trans hle'⟩

theorem StateUpdate.notBefore {row row' : IndexerState} (h : StateUpdate row row') :
    NotBefore row.lastProcessedSlot row'.lastProcessedSlot := by
  obtain rfl | ⟨status, lastSlot, rfl⟩ := h
  · exact .refl _
  · cases lastSlot with
    | none => exact .refl _
    | some last =>
        intro slot hslot
        refine ⟨_, rfl, ?_⟩
        rw [hslot]
        exact le_max_left _ _

theorem lastSlotOf_writeBlock {store : Store} {stream other : Stream}
    {instructions : List DecodedInstruction} {slot : Nat} {signature : Option String} :
    lastSlotOf (store.writeBlock stream instructions slot signature) other =
      if other = stream then some (slotToI64 slot) else lastSlotOf store other := by
  unfold lastSlotOf Store.writeBlock Store.updateCheckpoint Store.writeInstructions
  simp only [Store.foldl_insertRow_checkpoints]
  split <;> rfl

theorem notBefore_writeBlock {store : Store} {stream : Stream}
    {instructions : List DecodedInstruction} {slot : Nat} {signature : Option String}
    (hfits : slot < 2 ^ 63)
    (hahead : ∀ last, store.checkpointSlot stream = some last → last ≤ slot) (other : Stream) :
    NotBefore (lastSlotOf store other)
      (lastSlotOf (store.writeBlock stream instructions slot signature) other) := by
  rw [lastSlotOf_writeBlock]
  split
  · rename_i hother
    subst hother
    have hsigned : slotToI64 slot = (slot : Int) := by
      have hmod : slot % 2 ^ 64 = slot := Nat.mod_eq_of_lt (by omega)
      unfold slotToI64
      rw [hmod]
      exact if_pos hfits
    intro last hlast
    refine ⟨_, rfl, ?_⟩
    rw [hsigned]
    by_cases hneg : last < 0
    · omega
    · have hread : store.checkpointSlot other = some last.toNat := by
        unfold Store.checkpointSlot Store.readCheckpoint
        obtain ⟨checkpoint, hcheckpoint, rfl⟩ := Option.map_eq_some_iff.mp hlast
        rw [hcheckpoint, Option.bind_some, if_neg hneg]
        rfl
      have hle := hahead _ hread
      omega
  · exact .refl _

/-! ## The invariant -/

def FillingsAhead (setting : Setting) (st : Indexer) : Prop :=
  ∀ stream filling, st.filling stream = some filling →
    BackfillInv setting.ledger setting.decoder setting.programId setting.indexFailedTxs stream
      (filling.withStore st.db.store)

theorem FillingsAhead.update {stream : Stream} {next : Option Filling}
    (h : FillingsAhead setting st) (hstore : st'.db.store = st.db.store)
    (hfilling : st'.filling = Function.update st.filling stream next)
    (hnext : ∀ filling, next = some filling →
      BackfillInv setting.ledger setting.decoder setting.programId setting.indexFailedTxs stream
        (filling.withStore st.db.store)) :
    FillingsAhead setting st' := by
  intro other filling hother
  rw [hfilling] at hother
  rw [hstore]
  by_cases hsame : other = stream
  · subst hsame
    rw [Function.update_self] at hother
    exact hnext filling hother
  · rw [Function.update_of_ne hsame] at hother
    exact h other filling hother

theorem FillingsAhead.write {stream : Stream} {filling : Filling}
    (h : FillingsAhead setting st) (batch : WriteBatch) (hstream : st.filling stream = some filling)
    (hbatch : batch.stream ≠ stream) :
    BackfillInv setting.ledger setting.decoder setting.programId setting.indexFailedTxs stream
      (filling.withStore (batch.write st.db.store)) :=
  (h stream filling hstream).otherTask hbatch

theorem nodeAnswers_of_replies {taskAction : BackfillAction} {stream : Stream}
    {tasks : BackfillState}
    (haction : action = .backfill taskAction ∧ stream = .backfill ∨
      action = .catchup taskAction ∧ stream = .catchup)
    (hnode : NodeReplies action) : NodeAnswers tasks taskAction := by
  obtain ⟨rfl, -⟩ | ⟨rfl, -⟩ := haction
  · cases taskAction with
    | listChunk answer => exact hnode
    | _ => exact trivial
  · cases taskAction with
    | listChunk answer => exact hnode
    | _ => exact trivial

theorem BackfillInv.stream_of_channel {ledger : Ledger} {decoder : InstructionDecoder}
    {programId : String} {indexFailedTxs : Bool} {stream : Stream} {tasks : BackfillState}
    {batch : WriteBatch} {rest : List WriteBatch}
    (h : BackfillInv ledger decoder programId indexFailedTxs stream tasks)
    (hchannel : tasks.channel = batch :: rest) : batch.stream = stream := by
  refine (h.batches batch (List.mem_append_left _ ?_)).1
  rw [hchannel]
  exact List.mem_cons_self

theorem batch_mem_remaining {tasks : BackfillState} {batch : WriteBatch} {rest : List WriteBatch}
    (hchannel : tasks.channel = batch :: rest) : batch.slot ∈ tasks.remaining := by
  unfold BackfillState.remaining BackfillState.outstanding
  rw [hchannel]
  exact List.mem_cons_self

theorem withStore_over (store : Store) (start stop chunkSize : Nat) :
    (Filling.over store start stop chunkSize).withStore store =
      .over store start stop chunkSize := rfl

theorem FillingsAhead.effect (h : FillingsAhead setting st)
    (horder : CursorsInOrder setting st action) (heffect : IndexerEffect setting st action st') :
    FillingsAhead setting st' := by
  obtain ⟨hnode, horder⟩ := horder
  cases heffect with
  | update hstore hrow hfilling =>
      intro stream filling hstream
      rw [hfilling] at hstream
      rw [hstore]
      exact h stream filling hstream
  | join stream filling hold hjoined hstore hrow hfilling =>
      refine h.update hstore hfilling fun filling hnone => ?_
      cases hnone
  | halt hhalt hstore hrow hfilling =>
      intro stream filling hstream
      rw [hfilling] at hstream
      cases hstream
  | beginBackfill startSlot endSlot haction hold hstore hrow hfilling =>
      have hend : endSlot ≤ u64Max := by
        obtain ⟨error, rfl | rfl⟩ := haction <;> exact hnode
      refine h.update hstore hfilling fun filling hfilling => ?_
      cases hfilling
      rw [withStore_over]
      exact .over hend fun last hlast => effectiveStart_ahead hlast
  | beginCatchup chainTip hslot hpos hold hdb hfilling =>
      refine h.update (by rw [hdb]) hfilling fun filling hfilling => ?_
      cases hfilling
      rw [withStore_over]
      exact .over hnode (horder _ hslot hpos)
  | fill stream filling next taskAction hold haction hstep hfilling =>
      obtain ⟨htasks, -, hdb, -⟩ := fillStep_eq_some hstep
      have hinv := h stream filling hold
      intro other filling' hother
      rw [hfilling] at hother
      by_cases hsame : other = stream
      · subst hsame
        rw [Function.update_self] at hother
        cases hother
        rw [hdb]
        exact hinv.step (nodeAnswers_of_replies haction hnode) htasks
      · rw [Function.update_of_ne hsame] at hother
        obtain hstore | ⟨batch, rest, hchannel, hstore⟩ := (fillStep_store hstep).2
        · rw [hstore]
          exact h other filling' hother
        · have hbatch := hinv.stream_of_channel hchannel
          rw [hstore]
          exact h.write batch hother fun hstream => hsame (hstream.symm.trans hbatch)
  | count stream filling next error hold haction hstep hfilling =>
      obtain ⟨-, -, hdb, rfl⟩ := countStep_eq_some hstep
      refine h.update (by rw [hdb, count_store]) hfilling fun counted hcounted => ?_
      cases hcounted
      exact h stream filling hold
  | write event hfiltered hinstructions hstore hrow hfilling =>
      intro stream filling hstream
      rw [hfilling] at hstream
      rw [hstore]
      refine h.write ⟨.realtime, _, event.slot, some event.signature⟩ hstream ?_
      obtain rfl | rfl := filling_stream hstream <;> nofun

theorem IndexerEffect.processed (heffect : IndexerEffect setting st action st') :
    NotBefore st.db.row.lastProcessedSlot st'.db.row.lastProcessedSlot := by
  cases heffect with
  | update hstore hrow hfilling => exact hrow.notBefore
  | join stream filling hold hjoined hstore hrow hfilling => exact hrow.notBefore
  | halt hhalt hstore hrow hfilling => exact hrow.notBefore
  | beginBackfill startSlot endSlot haction hold hstore hrow hfilling => exact hrow.notBefore
  | beginCatchup chainTip hslot hpos hold hdb hfilling =>
      rw [hdb]
      exact .refl _
  | fill stream filling next taskAction hold haction hstep hfilling =>
      rw [(fillStep_store hstep).1]
      exact .refl _
  | count stream filling next error hold haction hstep hfilling =>
      obtain ⟨-, -, hdb, -⟩ := countStep_eq_some hstep
      rw [hdb]
      unfold Database.count
      split <;> exact .refl _
  | write event hfiltered hinstructions hstore hrow hfilling =>
      rw [hrow]
      exact .refl _

theorem FillingsAhead.checkpoints (h : FillingsAhead setting st)
    (horder : CursorsInOrder setting st action) (heffect : IndexerEffect setting st action st')
    (stream : Stream) :
    NotBefore (lastSlotOf st.db.store stream) (lastSlotOf st'.db.store stream) := by
  obtain ⟨-, horder⟩ := horder
  cases heffect with
  | update hstore hrow hfilling =>
      rw [hstore]
      exact .refl _
  | join other filling hold hjoined hstore hrow hfilling =>
      rw [hstore]
      exact .refl _
  | halt hhalt hstore hrow hfilling =>
      rw [hstore]
      exact .refl _
  | beginBackfill startSlot endSlot haction hold hstore hrow hfilling =>
      rw [hstore]
      exact .refl _
  | beginCatchup chainTip hslot hpos hold hdb hfilling =>
      rw [hdb]
      exact .refl _
  | fill other filling next taskAction hold haction hstep hfilling =>
      obtain hstore | ⟨batch, rest, hchannel, hstore⟩ := (fillStep_store hstep).2
      · rw [hstore]
        exact .refl _
      · have hinv := h other filling hold
        have hfits : batch.slot < 2 ^ 63 := by
          obtain ⟨rfl, rfl⟩ | ⟨rfl, rfl⟩ := haction <;>
            exact horder filling hold batch (by simp [hchannel])
        rw [hstore]
        refine notBefore_writeBlock hfits (fun last hlast => ?_) stream
        rw [hinv.stream_of_channel hchannel] at hlast
        exact (hinv.ahead last hlast batch.slot (batch_mem_remaining hchannel)).le
  | count other filling next error hold haction hstep hfilling =>
      obtain ⟨-, -, hdb, -⟩ := countStep_eq_some hstep
      rw [hdb, count_store]
      exact .refl _
  | write event hfiltered hinstructions hstore hrow hfilling =>
      obtain ⟨hfits, hahead⟩ := horder hfiltered hinstructions
      rw [hstore]
      exact notBefore_writeBlock hfits hahead stream

theorem processed_never_regresses {allowed : Indexer → IndexerAction → Prop}
    (hst : Reaches (indexerStep setting) allowed st st') :
    NotBefore st.db.row.lastProcessedSlot st'.db.row.lastProcessedSlot := by
  induction hst with
  | start => exact .refl _
  | step _ _ hstep ih => exact ih.trans (effect_of_indexerStep hstep).processed

/-- In every run of the condition no cursor goes back, from any state of the run on. -/
theorem cursors_never_regress
    (hst : Reaches (indexerStep setting) (CursorsInOrder setting) .registered st)
    (hst' : Reaches (indexerStep setting) (CursorsInOrder setting) st st') :
    CursorsKept st.db st'.db := by
  have hstart : FillingsAhead setting .registered := by
    intro stream filling hfilling
    cases hfilling
  have hahead : FillingsAhead setting st := by
    refine hst.invariant hstart ?_
    intro s a s' hs horder hstep
    exact hs.effect horder (effect_of_indexerStep hstep)
  have hboth : FillingsAhead setting st' ∧ ∀ stream,
      NotBefore (lastSlotOf st.db.store stream) (lastSlotOf st'.db.store stream) := by
    induction hst' with
    | start => exact ⟨hahead, fun _ => .refl _⟩
    | step _ horder hstep ih =>
        have heffect := effect_of_indexerStep hstep
        exact ⟨ih.1.effect horder heffect, fun stream =>
          (ih.2 stream).trans (ih.1.checkpoints horder heffect stream)⟩
  exact ⟨hboth.2, processed_never_regresses hst'⟩

end Cursors

def firstEvent : List IndexerAction :=
  [.start (.ok 9) none, .subscribe none, .stream (.event (swapEvent "a" 10) .found none)]

def secondEvent : List IndexerAction :=
  [.heartbeat none, .stream (.event (swapEvent "b" 11) .found none), .stream .disconnect,
    .catchingUp none, .reconnected (.ok 12)]

theorem cursors_never_regress_in_order :
    ∃ st st', runActions (indexerStep (swapSetting none)) .registered firstEvent = some st ∧
      runActions (indexerStep (swapSetting none)) st secondEvent = some st' ∧
      lastSlotOf st.db.store .realtime = some 10 ∧ lastSlotOf st'.db.store .realtime = some 11 ∧
      st'.db.row.lastProcessedSlot = some 11 ∧ CursorsKept st.db st'.db := by
  refine ⟨_, _, rfl, rfl, rfl, rfl, rfl, ?_⟩
  refine @cursors_never_regress (swapSetting none) _ _ ?_ ?_
  · refine Reaches.of_runActions Reaches.start ?_
      (rfl : runActions (indexerStep (swapSetting none)) .registered firstEvent = some _)
    refine ⟨⟨show 9 ≤ u64Max by decide, trivial⟩, fun s hs => ?_⟩
    cases hs
    refine ⟨⟨trivial, trivial⟩, fun s hs => ?_⟩
    cases hs
    refine ⟨⟨trivial, fun _ _ => ⟨by decide, ?_⟩⟩, fun _ _ => trivial⟩
    intro last hlast
    cases hlast
  · refine Reaches.of_runActions Reaches.start ?_
      (rfl : runActions (indexerStep (swapSetting none)) _ secondEvent = some _)
    refine ⟨⟨trivial, trivial⟩, fun s hs => ?_⟩
    cases hs
    refine ⟨⟨trivial, fun _ _ => ⟨by decide, ?_⟩⟩, fun s hs => ?_⟩
    · intro last hlast
      cases hlast
      decide
    · cases hs
      refine ⟨⟨trivial, trivial⟩, fun s hs => ?_⟩
      cases hs
      refine ⟨⟨trivial, trivial⟩, fun s hs => ?_⟩
      cases hs
      refine ⟨⟨show 12 ≤ u64Max by decide, ?_⟩, fun _ _ => trivial⟩
      intro slot _ _ last hlast
      cases hlast

def fillGap : List IndexerAction :=
  [.catchingUp none, .reconnected (.ok 11),
    .catchup (.listChunk fun range => .ok (rangeSlots range)), .catchup (.fetch none),
    .catchup .send, .catchup (.receive none)]

/-- The event of slot 11 comes before that of slot 10.  And a session without events is cut
after a catch-up: the next one starts over, behind the checkpoint of the first. -/
theorem checkpoints_regress :
    (∃ st st', Reaches (indexerStep (swapSetting none)) (fun _ action => NodeReplies action)
        .registered st ∧
      Reaches (indexerStep (swapSetting none)) (fun _ action => NodeReplies action) st st' ∧
      lastSlotOf st.db.store .realtime = some 11 ∧ lastSlotOf st'.db.store .realtime = some 10 ∧
      ¬ CursorsKept st.db st'.db) ∧
    ∃ st st', Reaches (indexerStep (swapSetting none)) (fun _ action => NodeReplies action)
        .registered st ∧
      Reaches (indexerStep (swapSetting none)) (fun _ action => NodeReplies action) st st' ∧
      lastSlotOf st.db.store .catchup = some 11 ∧ lastSlotOf st'.db.store .catchup = some 10 ∧
      ¬ CursorsKept st.db st'.db := by
  refine ⟨⟨_, _, Reaches.of_runActions Reaches.start (allowedActions_of_forall ?_ _)
    (rfl : runActions _ _ [.start (.ok 9) none, .subscribe none,
      .stream (.event (swapEvent "b" 11) .found none)] = some _),
    Reaches.of_runActions Reaches.start (allowedActions_of_forall ?_ _)
    (rfl : runActions _ _ [.stream (.event (swapEvent "a" 10) .found none)] = some _),
    rfl, rfl, fun hkept => ?_⟩,
    ⟨_, _, Reaches.of_runActions Reaches.start (allowedActions_of_forall ?_ _)
    (rfl : runActions _ _ ([.start (.ok 8) none, .subscribe none,
      .stream (.event (swapEvent "c" 9) .found none), .stream .disconnect] ++ fillGap ++
      [.catchup (.fetch none), .catchup .send, .catchup (.receive none), .catchup .endChunks,
        .catchup .endWriter, .countCatchup none, .endCatchup, .subscribe none,
        .stream .disconnect]) = some _),
    Reaches.of_runActions Reaches.start (allowedActions_of_forall ?_ _)
    (rfl : runActions _ _ fillGap = some _), rfl, rfl, fun hkept => ?_⟩⟩
  · simp [NodeReplies, u64Max]
  · simp [NodeReplies]
  · obtain ⟨slot, hslot, hle⟩ := hkept.checkpoints .realtime 11 rfl
    cases hslot
    exact absurd hle (by decide)
  · simp [fillGap, NodeReplies, u64Max, listsInOrder_rangeSlots]
  · simp [fillGap, NodeReplies, u64Max, listsInOrder_rangeSlots]
  · obtain ⟨slot, hslot, hle⟩ := hkept.checkpoints .catchup 11 rfl
    cases hslot
    exact absurd hle (by decide)

end Solarix.Pipeline
