import Solarix.Core.Window
import Solarix.Pipeline.Stream

/-!
# The WebSocket stream

`pipeline/ws.rs`: the subscription handshake with the frames that it buffers, the calls of
`next` over what the socket yields, and the set of the signatures that were accepted last.
The clock is seen through the timeouts that it raises.
-/

namespace Solarix.Pipeline

open Solarix.Core

def maxSignatureLen : Nat := 128

/-! ## The deduplication set -/

structure DeduplicationSet where
  seen : Finset String
  order : List String
  maxSize : Nat

namespace DeduplicationSet

def new (maxSize : Nat) : DeduplicationSet := ⟨∅, [], maxSize⟩

/-- `insert`, with `true` for a new signature. -/
def insert (dedup : DeduplicationSet) (sig : String) : Bool × DeduplicationSet :=
  if sig ∈ dedup.seen then (false, dedup)
  else
    let evicted : DeduplicationSet :=
      if dedup.seen.card ≥ dedup.maxSize then
        match dedup.order with
        | [] => dedup
        | oldest :: order => { dedup with seen := dedup.seen.erase oldest, order := order }
      else dedup
    (true, { evicted with
      seen := Insert.insert sig evicted.seen
      order := evicted.order ++ [sig] })

end DeduplicationSet

/-! ## Frames -/

structure WsJsonRpcError where
  code : Int
  message : String

structure WsJsonRpcEnvelope where
  method : Option String
  result : Option Json
  error : Option WsJsonRpcError

structure LogsNotification where
  signature : String
  slot : Nat
  err : Option Json

/-- `serde_json::from_str` for the two kinds of frames, and the text of a value. -/
structure WsCodec where
  envelope : String → Except String WsJsonRpcEnvelope
  notification : String → Option LogsNotification
  display : Json → String

def StreamEvent.ofNotification (notification : LogsNotification) : StreamEvent where
  signature := notification.signature
  slot := notification.slot
  error := notification.err

def jsonRpcErrorText (context : String) (error : WsJsonRpcError) : String :=
  s!"{context}: {error.message} (code {error.code})"

/-- What the socket yields to a receive, with the error of the answer that it is given. -/
inductive Incoming where
  | text (text : String)
  | ping (pongError : Option String)
  | pong
  | close
  | other
  | failure (message : String)
  | ended
  /-- The handshake budget, or the heartbeat deadline. -/
  | timeout (pingError : Option String)

def Incoming.text? : Incoming → Option String
  | .text content => some content
  | _ => none

inductive Call (α : Type) where
  | waiting
  | returned (result : Except PipelineError α)

def Call.disconnect {α : Type} (message : String) : Call α :=
  .returned (.error (.webSocketDisconnect message))

structure WsTransactionStream where
  connected : Bool
  subscriptionId : Option Nat
  dedup : DeduplicationSet
  lastSeenSlot : Option Nat
  pendingPing : Bool
  pendingFrames : List String

namespace WsTransactionStream

def new (dedupCacheSize : Nat) : WsTransactionStream where
  connected := false
  subscriptionId := none
  dedup := .new dedupCacheSize
  lastSeenSlot := none
  pendingPing := false
  pendingFrames := []

end WsTransactionStream

section Parse

variable (codec : WsCodec)

/-- `parse_logs_notification`, with the set and the slot that it leaves. -/
def parseLogsNotification (text : String) (dedup : DeduplicationSet) (lastSeenSlot : Option Nat) :
    Except PipelineError (Option StreamEvent) × DeduplicationSet × Option Nat :=
  let accept : Except PipelineError (Option StreamEvent) × DeduplicationSet × Option Nat :=
    match codec.notification text with
    | none => (.ok none, dedup, lastSeenSlot)
    | some notification =>
        if notification.signature.utf8ByteSize > maxSignatureLen then
          (.ok none, dedup, lastSeenSlot)
        else
          -- the cursor moves for duplicates too
          let lastSeenSlot := seeSlot lastSeenSlot notification.slot
          match dedup.insert notification.signature with
          | (false, dedup) => (.ok none, dedup, lastSeenSlot)
          | (true, dedup) => (.ok (some (.ofNotification notification)), dedup, lastSeenSlot)
  match codec.envelope text with
  | .ok envelope =>
      match envelope.error with
      | some error =>
          (.error (.webSocketDisconnect (jsonRpcErrorText "server-pushed error" error)), dedup,
            lastSeenSlot)
      | none =>
          if envelope.method ≠ some "logsNotification" then (.ok none, dedup, lastSeenSlot)
          else accept
  | .error _ => accept

namespace WsTransactionStream

def parse (stream : WsTransactionStream) (text : String) :
    Except PipelineError (Option StreamEvent) × WsTransactionStream :=
  match parseLogsNotification codec text stream.dedup stream.lastSeenSlot with
  | (result, dedup, lastSeenSlot) =>
      (result, { stream with dedup := dedup, lastSeenSlot := lastSeenSlot })

/-! ### Subscription -/

/-- The loop of `do_handshake`, with what it leaves of the socket. -/
def awaitResponse :
    List Incoming → WsTransactionStream → Call Unit × WsTransactionStream × List Incoming
  | [], stream => (.waiting, stream, [])
  | .text text :: rest, stream =>
      match codec.envelope text with
      | .error e => (.disconnect s!"failed to parse subscribe response: {e}", stream, rest)
      | .ok envelope =>
          if envelope.method = some "logsNotification" then
            -- a notification raced the response
            awaitResponse rest { stream with pendingFrames := stream.pendingFrames ++ [text] }
          else
            match envelope.error, envelope.result with
            | some error, _ =>
                (.disconnect (jsonRpcErrorText "logsSubscribe failed" error), stream, rest)
            | none, some (.int (.ofNat id)) =>
                (.returned (.ok ()), { stream with subscriptionId := some id }, rest)
            | none, some result =>
                (.disconnect
                  s!"logsSubscribe returned non-u64 subscription ID: {codec.display result}",
                  stream, rest)
            | none, none => awaitResponse rest stream
  | .ping none :: rest, stream => awaitResponse rest stream
  | .ping (some e) :: rest, stream => (.disconnect s!"pong send failed: {e}", stream, rest)
  | .pong :: rest, stream => awaitResponse rest stream
  | .other :: rest, stream => awaitResponse rest stream
  | .close :: rest, stream =>
      (.disconnect "server closed connection during subscribe", stream, rest)
  | .failure e :: rest, stream => (.disconnect s!"error during subscribe: {e}", stream, rest)
  | .ended :: rest, stream =>
      (.disconnect "stream ended before subscription response", stream, rest)
  | .timeout _ :: rest, stream =>
      (.disconnect "WebSocket handshake timed out after 30s", stream, rest)

/-- `subscribe`, with the errors of the connection and of the request. -/
def subscribe (connectError sendError : Option String) (incoming : List Incoming)
    (stream : WsTransactionStream) : Call Unit × WsTransactionStream × List Incoming :=
  -- `unsubscribe` and `reset_session_state`
  let stream := { stream with
    connected := false
    subscriptionId := none
    pendingPing := false
    pendingFrames := [] }
  match connectError with
  | some e => (.disconnect s!"connect failed: {e}", stream, incoming)
  | none =>
      let stream := { stream with connected := true }
      match sendError with
      | some e => (.disconnect s!"subscribe send failed: {e}", stream, incoming)
      | none => stream.awaitResponse codec incoming

/-! ### Delivery -/

/-- The frames of the handshake, up to the first that `next` returns with. -/
def replay : List String → WsTransactionStream →
    Option (Except PipelineError StreamEvent) × WsTransactionStream
  | [], stream => (none, { stream with pendingFrames := [] })
  | text :: pending, stream =>
      match ({ stream with pendingFrames := pending }).parse codec text with
      | (.error e, stream) => (some (.error e), stream)
      | (.ok (some event), stream) => (some (.ok event), stream)
      | (.ok none, stream) => replay pending stream

def receive : List Incoming → WsTransactionStream →
    Call StreamEvent × WsTransactionStream × List Incoming
  | [], stream => (.waiting, stream, [])
  | .text text :: rest, stream =>
      match stream.parse codec text with
      | (.error e, stream) => (.returned (.error e), stream, rest)
      | (.ok (some event), stream) => (.returned (.ok event), stream, rest)
      | (.ok none, stream) => receive rest stream
  | .pong :: rest, stream => receive rest { stream with pendingPing := false }
  | .ping none :: rest, stream => receive rest stream
  | .ping (some e) :: rest, stream => (.disconnect s!"pong send failed: {e}", stream, rest)
  | .close :: rest, stream => (.disconnect "server closed connection", stream, rest)
  | .other :: rest, stream => receive rest stream
  | .failure e :: rest, stream => (.disconnect e, stream, rest)
  | .ended :: rest, stream => (.disconnect "stream ended", stream, rest)
  | .timeout pingError :: rest, stream =>
      if stream.pendingPing then (.disconnect "pong timeout", stream, rest)
      else
        match pingError with
        | some e => (.disconnect s!"ping send failed: {e}", stream, rest)
        | none => receive rest { stream with pendingPing := true }

/-- `next`: buffered frames first, then what the socket yields. -/
def next (stream : WsTransactionStream) (incoming : List Incoming) :
    Call StreamEvent × WsTransactionStream × List Incoming :=
  match stream.replay codec stream.pendingFrames with
  | (some result, stream) => (.returned result, stream, incoming)
  | (none, stream) =>
      if stream.connected then stream.receive codec incoming
      else (.disconnect "not connected", stream, incoming)

end WsTransactionStream

end Parse

/-! ## What a session should deliver -/

def WsCodec.otherKind (codec : WsCodec) (text : String) : Bool :=
  match codec.envelope text with
  | .ok envelope => envelope.error.isSome || envelope.method != some "logsNotification"
  | .error _ => false

def WsCodec.notification? (codec : WsCodec) (text : String) : Option LogsNotification :=
  if codec.otherKind text then none
  else (codec.notification text).filter fun notification =>
    notification.signature.utf8ByteSize ≤ maxSignatureLen

def WsCodec.notifications (codec : WsCodec) (texts : List String) : List LogsNotification :=
  texts.filterMap codec.notification?

def textsOf (incoming : List Incoming) : List String := incoming.filterMap Incoming.text?

/-- The notifications whose signature is not among the last `maxSize` that were accepted. -/
def accepted (maxSize : Nat) (notes : List LogsNotification) : List LogsNotification :=
  keepUnseen LogsNotification.signature maxSize notes

def Delivers (maxSize : Nat) (notes done : List LogsNotification) (events : List StreamEvent) :
    Prop :=
  ∃ fresh, accepted maxSize (notes ++ done) = accepted maxSize notes ++ fresh ∧
    events = fresh.map .ofNotification

def IsMaxSlot (lastSeenSlot : Option Nat) (notes : List LogsNotification) : Prop :=
  (lastSeenSlot = none ∧ notes = []) ∨
    ∃ slot, lastSeenSlot = some slot ∧ slot ∈ notes.map LogsNotification.slot ∧
      ∀ note ∈ notes, note.slot ≤ slot

/-- The state after the notifications: the set is the window of the accepted signatures and the
cursor is the greatest slot. -/
structure WsTransactionStream.Tracks (stream : WsTransactionStream) (maxSize : Nat)
    (notes : List LogsNotification) : Prop where
  size : stream.dedup.maxSize = maxSize
  window : IsWindow maxSize ((accepted maxSize notes).map LogsNotification.signature)
    stream.dedup.seen stream.dedup.order
  slot : IsMaxSlot stream.lastSeenSlot notes

def WsCodec.ErrorFree (codec : WsCodec) (text : String) : Prop :=
  ∀ envelope, codec.envelope text = .ok envelope → envelope.error = none

/-- Nothing that the socket yields ends the session: it does not close or fail, pings and pongs
are sent, and a ping that is `pending` is answered before the next deadline. -/
def WsCodec.Steady (codec : WsCodec) : Bool → List Incoming → Prop
  | _, [] => True
  | pending, .text text :: rest => codec.ErrorFree text ∧ codec.Steady pending rest
  | pending, .ping pongError :: rest => pongError = none ∧ codec.Steady pending rest
  | _, .pong :: rest => codec.Steady false rest
  | pending, .other :: rest => codec.Steady pending rest
  | pending, .timeout pingError :: rest =>
      pending = false ∧ pingError = none ∧ codec.Steady true rest
  | _, .close :: _ => False
  | _, .failure _ :: _ => False
  | _, .ended :: _ => False

section Spec

variable {codec : WsCodec} {maxSize : Nat} {notes done : List LogsNotification}
  {note : LogsNotification} {stream : WsTransactionStream}

theorem tracks_new (maxSize : Nat) : (WsTransactionStream.new maxSize).Tracks maxSize [] where
  size := rfl
  window := isWindow_nil maxSize
  slot := .inl ⟨rfl, rfl⟩

theorem WsTransactionStream.Tracks.congr {other : WsTransactionStream}
    (h : stream.Tracks maxSize notes) (hdedup : other.dedup = stream.dedup)
    (hslot : other.lastSeenSlot = stream.lastSeenSlot) : other.Tracks maxSize notes where
  size := hdedup ▸ h.size
  window := hdedup ▸ h.window
  slot := hslot ▸ h.slot

theorem isMaxSlot_seeSlot {lastSeenSlot : Option Nat} (h : IsMaxSlot lastSeenSlot notes)
    (note : LogsNotification) : IsMaxSlot (seeSlot lastSeenSlot note.slot) (notes ++ [note]) := by
  right
  rcases h with ⟨rfl, rfl⟩ | ⟨slot, rfl, hmem, hle⟩
  · exact ⟨note.slot, rfl, by simp, by simp⟩
  · have hmem' : slot ∈ (notes ++ [note]).map LogsNotification.slot := by
      rw [List.map_append]
      exact List.mem_append_left _ hmem
    by_cases hlt : note.slot > slot
    · refine ⟨note.slot, if_pos hlt, by simp, fun other hother => ?_⟩
      rcases List.mem_append.mp hother with hother | hother
      · exact (hle other hother).trans hlt.le
      · rw [List.mem_singleton.mp hother]
    · refine ⟨slot, if_neg hlt, hmem', fun other hother => ?_⟩
      rcases List.mem_append.mp hother with hother | hother
      · exact hle other hother
      · rw [List.mem_singleton.mp hother]
        omega

theorem delivers_nil (maxSize : Nat) (notes : List LogsNotification) :
    Delivers maxSize notes [] [] :=
  ⟨[], by simp, rfl⟩

theorem Delivers.append {more : List LogsNotification} {events later : List StreamEvent}
    (h : Delivers maxSize notes done events)
    (hmore : Delivers maxSize (notes ++ done) more later) :
    Delivers maxSize notes (done ++ more) (events ++ later) := by
  obtain ⟨fresh, haccepted, rfl⟩ := h
  obtain ⟨fresh', haccepted', rfl⟩ := hmore
  refine ⟨fresh ++ fresh', ?_, List.map_append.symm⟩
  rw [← List.append_assoc, haccepted', haccepted, List.append_assoc]

theorem notifications_append (texts more : List String) :
    codec.notifications (texts ++ more) = codec.notifications texts ++ codec.notifications more :=
  List.filterMap_append

theorem notifications_singleton (text : String) :
    codec.notifications [text] = (codec.notification? text).toList := by
  cases h : codec.notification? text <;> simp [WsCodec.notifications, h]

theorem insert_cases {dedup : DeduplicationSet} {keys : List String} (hsize : 1 ≤ dedup.maxSize)
    (h : IsWindow dedup.maxSize keys dedup.seen dedup.order) (sig : String) :
    (sig ∈ recent dedup.maxSize keys ∧ dedup.insert sig = (false, dedup)) ∨
      ∃ seen order, sig ∉ recent dedup.maxSize keys ∧
        dedup.insert sig = (true, ⟨seen, order, dedup.maxSize⟩) ∧
        IsWindow dedup.maxSize (keys ++ [sig]) seen order := by
  by_cases hmem : sig ∈ dedup.seen
  · exact .inl ⟨h.mem_seen.mp hmem, if_pos hmem⟩
  · right
    have hnot := mt h.mem_seen.mpr hmem
    by_cases hfull : dedup.seen.card ≥ dedup.maxSize
    · obtain ⟨oldest, rest, horder, hwindow⟩ := h.insert_of_le hsize hmem hfull
      refine ⟨_, _, hnot, ?_, hwindow⟩
      simp [DeduplicationSet.insert, hmem, hfull, horder]
    · refine ⟨_, _, hnot, ?_, h.insert_of_lt hmem (not_le.mp hfull)⟩
      simp [DeduplicationSet.insert, hmem, hfull]

def eventsOf : Except PipelineError (Option StreamEvent) → List StreamEvent
  | .ok (some event) => [event]
  | _ => []

theorem parse_of_none {text : String} (h : codec.notification? text = none) :
    ∃ result, stream.parse codec text = (result, stream) ∧ eventsOf result = [] := by
  unfold WsCodec.notification? WsCodec.otherKind at h
  unfold WsTransactionStream.parse parseLogsNotification
  cases henvelope : codec.envelope text with
  | ok envelope =>
      cases herror : envelope.error with
      | some error =>
          simp only [herror]
          exact ⟨.error _, rfl, rfl⟩
      | none =>
          by_cases hmethod : envelope.method = some "logsNotification"
          · simp only [henvelope, herror, hmethod, Option.isSome_none, bne_self_eq_false,
              Bool.or_self, Bool.false_eq_true, if_false, Option.filter_eq_none_iff] at h
            simp only [herror, hmethod, ne_eq, not_true_eq_false, if_false]
            cases hnote : codec.notification text with
            | none => exact ⟨_, rfl, rfl⟩
            | some note =>
                have hlength := h note hnote
                simp only [decide_eq_true_eq, not_le] at hlength
                simp only [gt_iff_lt, hlength, if_true]
                exact ⟨_, rfl, rfl⟩
          · simp only [herror, hmethod, ne_eq, not_false_eq_true, if_true]
            exact ⟨_, rfl, rfl⟩
  | error e =>
      simp only [henvelope, Bool.false_eq_true, if_false, Option.filter_eq_none_iff] at h
      cases hnote : codec.notification text with
      | none => exact ⟨_, rfl, rfl⟩
      | some note =>
          have hlength := h note hnote
          simp only [decide_eq_true_eq, not_le] at hlength
          simp only [gt_iff_lt, hlength, if_true]
          exact ⟨_, rfl, rfl⟩

theorem parse_of_some {text : String} (h : codec.notification? text = some note) :
    stream.parse codec text =
      ((if (stream.dedup.insert note.signature).1 then .ok (some (.ofNotification note))
        else .ok none),
      { stream with
        dedup := (stream.dedup.insert note.signature).2
        lastSeenSlot := seeSlot stream.lastSeenSlot note.slot }) := by
  unfold WsCodec.notification? at h
  obtain ⟨hkind, hfilter⟩ := Option.ite_none_left_eq_some.mp h
  obtain ⟨hnote, hlength⟩ := Option.filter_eq_some_iff.mp hfilter
  have hcap : ¬note.signature.utf8ByteSize > maxSignatureLen := by simpa using hlength
  -- what the frame is taken for, once it is a notification
  have haccept : (match stream.dedup.insert note.signature with
      | (false, dedup) => (.ok none, dedup, seeSlot stream.lastSeenSlot note.slot)
      | (true, dedup) =>
          (.ok (some (.ofNotification note)), dedup, seeSlot stream.lastSeenSlot note.slot)) =
      ((if (stream.dedup.insert note.signature).1 then .ok (some (.ofNotification note))
        else .ok none : Except PipelineError (Option StreamEvent)),
      (stream.dedup.insert note.signature).2, seeSlot stream.lastSeenSlot note.slot) := by
    cases stream.dedup.insert note.signature with
    | mk fresh dedup => cases fresh <;> rfl
  unfold WsTransactionStream.parse parseLogsNotification
  unfold WsCodec.otherKind at hkind
  cases henvelope : codec.envelope text with
  | error e => simp only [hnote, if_neg hcap, haccept]
  | ok envelope =>
      rw [henvelope] at hkind
      simp only [Bool.or_eq_true, bne_iff_ne, ne_eq, not_or, not_not] at hkind
      have herror : envelope.error = none := by simpa using hkind.1
      simp only [herror, hkind.2, ne_eq, not_true_eq_false, if_false, hnote, if_neg hcap, haccept]

theorem parse_spec (hmax : 1 ≤ maxSize) (h : stream.Tracks maxSize notes) (text : String)
    {result : Except PipelineError (Option StreamEvent)} {stream' : WsTransactionStream}
    (hparse : stream.parse codec text = (result, stream')) :
    stream'.Tracks maxSize (notes ++ codec.notifications [text]) ∧
      Delivers maxSize notes (codec.notifications [text]) (eventsOf result) ∧
      stream' = { stream with dedup := stream'.dedup, lastSeenSlot := stream'.lastSeenSlot } := by
  rw [notifications_singleton]
  cases hnote : codec.notification? text with
  | none =>
      obtain ⟨_, hsame, hevents⟩ := @parse_of_none codec stream text hnote
      rw [hsame] at hparse
      cases hparse
      rw [hevents, Option.toList_none, List.append_nil]
      exact ⟨h, delivers_nil maxSize notes, rfl⟩
  | some note =>
      rw [parse_of_some hnote] at hparse
      have hwindow := h.window
      rw [← h.size] at hwindow hmax
      rw [Option.toList_some]
      rcases insert_cases hmax hwindow note.signature with
        ⟨hmem, hinsert⟩ | ⟨seen, order, hnot, hinsert, hnew⟩
      · rw [hinsert] at hparse
        cases hparse
        rw [h.size] at hmem
        have hkept := keepUnseen_concat_of_mem hmem
        refine ⟨⟨h.size, ?_, isMaxSlot_seeSlot h.slot note⟩, ⟨[], ?_, rfl⟩, rfl⟩
        · rw [accepted, hkept]
          exact h.window
        · rw [accepted, hkept, List.append_nil, accepted]
      · rw [hinsert] at hparse
        cases hparse
        rw [h.size] at hnot hnew
        have hkept := keepUnseen_concat_of_not_mem hnot
        refine ⟨⟨h.size, ?_, isMaxSlot_seeSlot h.slot note⟩, ⟨[note], ?_, rfl⟩, rfl⟩
        · rw [accepted, hkept, List.map_append]
          exact hnew
        · rw [accepted, hkept, accepted]

/-- From `notes` on, the frames `before` have been processed up to `after`, with these events
and the state that they leave. -/
def Processes (codec : WsCodec) (maxSize : Nat) (notes : List LogsNotification)
    (before after : List String) (events : List StreamEvent) (stream : WsTransactionStream) :
    Prop :=
  ∃ done, codec.notifications before = done ++ codec.notifications after ∧
    Delivers maxSize notes done events ∧ stream.Tracks maxSize (notes ++ done)

theorem processes_nothing (h : stream.Tracks maxSize notes) (frames : List String) :
    Processes codec maxSize notes frames frames [] stream :=
  ⟨[], rfl, delivers_nil maxSize notes, by rwa [List.append_nil]⟩

theorem Processes.trans {before between after : List String} {events later : List StreamEvent}
    {stream' : WsTransactionStream}
    (h : Processes codec maxSize notes before between events stream)
    (hnext : ∀ notes', stream.Tracks maxSize notes' →
      Processes codec maxSize notes' between after later stream') :
    Processes codec maxSize notes before after (events ++ later) stream' := by
  obtain ⟨done, hdone, hevents, htracks⟩ := h
  obtain ⟨more, hmore, hlater, htracks'⟩ := hnext _ htracks
  refine ⟨done ++ more, ?_, hevents.append hlater, ?_⟩
  · rw [hdone, hmore, List.append_assoc]
  · rwa [← List.append_assoc]

theorem Processes.frame {before after : List String} {events : List StreamEvent}
    (h : Processes codec maxSize notes before after events stream) (frames : List String) :
    Processes codec maxSize notes (before ++ frames) (after ++ frames) events stream := by
  obtain ⟨done, hdone, hevents, htracks⟩ := h
  refine ⟨done, ?_, hevents, htracks⟩
  rw [notifications_append, notifications_append, hdone, List.append_assoc]

theorem processes_parse (hmax : 1 ≤ maxSize) (h : stream.Tracks maxSize notes) {text : String}
    {result : Except PipelineError (Option StreamEvent)} {stream' : WsTransactionStream}
    (hparse : stream.parse codec text = (result, stream')) (frames : List String) :
    Processes codec maxSize notes (text :: frames) frames (eventsOf result) stream' := by
  obtain ⟨htracks, hevents, _⟩ := parse_spec hmax h text hparse
  exact ⟨codec.notifications [text], notifications_append [text] frames, hevents, htracks⟩

/-! ### Calls -/

def Call.events : Call StreamEvent → List StreamEvent
  | .returned (.ok event) => [event]
  | _ => []

theorem pendingFrames_of_replay {pending : List String} {stream' : WsTransactionStream}
    (h : stream.replay codec pending = (none, stream')) : stream'.pendingFrames = [] := by
  induction pending generalizing stream with
  | nil =>
      cases h
      rfl
  | cons text pending ih =>
      rw [WsTransactionStream.replay] at h
      split at h
      · cases h
      · cases h
      · exact ih h

theorem replay_spec (hmax : 1 ≤ maxSize) (h : stream.Tracks maxSize notes)
    (pending : List String) {result : Option (Except PipelineError StreamEvent)}
    {stream' : WsTransactionStream} (hreplay : stream.replay codec pending = (result, stream')) :
    Processes codec maxSize notes pending stream'.pendingFrames
        (result.elim [] fun result => (Call.returned result).events) stream' := by
  induction pending generalizing stream notes with
  | nil =>
      cases hreplay
      have hsame : WsTransactionStream.Tracks { stream with pendingFrames := [] } maxSize notes :=
        h.congr rfl rfl
      exact processes_nothing hsame []
  | cons text pending ih =>
      have hstart : WsTransactionStream.Tracks { stream with pendingFrames := pending } maxSize
          notes := h.congr rfl rfl
      rw [WsTransactionStream.replay] at hreplay
      cases hparse : WsTransactionStream.parse codec { stream with pendingFrames := pending }
        text with
      | mk parsed stream₁ =>
          have hprocessed := processes_parse hmax hstart hparse pending
          have hsame := (parse_spec hmax hstart text hparse).2.2
          have hpending : stream₁.pendingFrames = pending := by rw [hsame]
          rw [hparse] at hreplay
          rcases parsed with e | _ | event
          · cases hreplay
            rwa [hpending]
          · exact hprocessed.trans fun notes' htracks => ih htracks hreplay
          · cases hreplay
            rwa [hpending]

structure Receives (codec : WsCodec) (maxSize : Nat) (notes : List LogsNotification)
    (stream : WsTransactionStream) (incoming : List Incoming)
    (outcome : Call StreamEvent × WsTransactionStream × List Incoming) : Prop where
  processes : Processes codec maxSize notes (textsOf incoming) (textsOf outcome.2.2)
    outcome.1.events outcome.2.1
  pendingFrames : outcome.2.1.pendingFrames = stream.pendingFrames
  rest : outcome.1 = .waiting → outcome.2.2 = []

theorem receives_disconnect (h : stream.Tracks maxSize notes) {message : Incoming}
    (hmessage : message.text? = none) (rest : List Incoming) (text : String) :
    Receives codec maxSize notes stream (message :: rest) (.disconnect text, stream, rest) where
  processes := by
    have htexts : textsOf (message :: rest) = textsOf rest := List.filterMap_cons_none hmessage
    rw [htexts]
    exact processes_nothing h _
  pendingFrames := rfl
  rest := by
    intro hwaiting
    cases hwaiting

theorem Receives.skip {message : Incoming} (hmessage : message.text? = none) {pendingPing : Bool}
    {rest : List Incoming} {outcome : Call StreamEvent × WsTransactionStream × List Incoming}
    (h : Receives codec maxSize notes { stream with pendingPing := pendingPing } rest outcome) :
    Receives codec maxSize notes stream (message :: rest) outcome where
  processes := by
    have htexts : textsOf (message :: rest) = textsOf rest := List.filterMap_cons_none hmessage
    rw [htexts]
    exact h.processes
  pendingFrames := h.pendingFrames
  rest := h.rest

theorem receive_spec (hmax : 1 ≤ maxSize) (h : stream.Tracks maxSize notes)
    (incoming : List Incoming) :
    Receives codec maxSize notes stream incoming (stream.receive codec incoming) := by
  induction incoming generalizing stream notes with
  | nil => exact ⟨processes_nothing h [], rfl, fun _ => rfl⟩
  | cons message rest ih =>
      cases message with
      | text text =>
          rw [WsTransactionStream.receive]
          cases hparse : stream.parse codec text with
          | mk parsed stream₁ =>
              have hprocessed := processes_parse hmax h hparse (textsOf rest)
              obtain ⟨htracks, _, hsame⟩ := parse_spec hmax h text hparse
              have hpending : stream₁.pendingFrames = stream.pendingFrames := by rw [hsame]
              rcases parsed with e | _ | event
              · exact ⟨hprocessed, hpending, fun hwaiting => by cases hwaiting⟩
              · have hrest := ih htracks
                refine ⟨?_, hrest.pendingFrames.trans hpending, hrest.rest⟩
                exact hprocessed.trans fun notes' htracks' => (ih htracks').processes
              · exact ⟨hprocessed, hpending, fun hwaiting => by cases hwaiting⟩
      | ping pongError =>
          cases pongError with
          | none => exact (ih h).skip rfl
          | some e => exact receives_disconnect h rfl rest _
      | pong => exact Receives.skip rfl (ih (h.congr rfl rfl))
      | close => exact receives_disconnect h rfl rest _
      | other => exact (ih h).skip rfl
      | failure e => exact receives_disconnect h rfl rest _
      | ended => exact receives_disconnect h rfl rest _
      | timeout pingError =>
          simp only [WsTransactionStream.receive]
          split
          · exact receives_disconnect h rfl rest _
          · cases pingError with
            | none => exact Receives.skip rfl (ih (h.congr rfl rfl))
            | some e => exact receives_disconnect h rfl rest _

/-- What `next` does from any state: it processes frames in their order, and when it waits there
is none left. -/
theorem next_spec (hmax : 1 ≤ maxSize) (h : stream.Tracks maxSize notes)
    {incoming rest : List Incoming} {call : Call StreamEvent} {stream' : WsTransactionStream}
    (hnext : stream.next codec incoming = (call, stream', rest)) :
    Processes codec maxSize notes (stream.pendingFrames ++ textsOf incoming)
        (stream'.pendingFrames ++ textsOf rest) call.events stream' ∧
      (call = .waiting → stream'.pendingFrames = [] ∧ rest = []) := by
  rw [WsTransactionStream.next] at hnext
  cases hreplay : stream.replay codec stream.pendingFrames with
  | mk result stream₁ =>
      have hreplayed := replay_spec hmax h stream.pendingFrames hreplay
      have hframes := hreplayed.frame (textsOf incoming)
      rw [hreplay] at hnext
      cases result with
      | some result =>
          cases hnext
          exact ⟨hframes, fun hwaiting => by cases hwaiting⟩
      | none =>
          have hnone := pendingFrames_of_replay hreplay
          simp only at hnext
          split at hnext
          · obtain ⟨_, _, _, htracks⟩ := hreplayed
            have hreceives := @receive_spec codec _ _ _ hmax htracks incoming
            have hpending := hreceives.pendingFrames
            have hrest := hreceives.rest
            rw [hnext] at hpending hrest
            rw [hpending, hnone]
            refine ⟨?_, fun hwaiting => ⟨rfl, hrest hwaiting⟩⟩
            rw [hnone] at hframes
            refine hframes.trans fun notes' htracks' => ?_
            have hprocesses := (@receive_spec codec _ _ _ hmax htracks' incoming).processes
            rwa [hnext] at hprocesses
          · cases hnext
            exact ⟨hframes, fun hwaiting => by cases hwaiting⟩

inductive Calls (codec : WsCodec) : WsTransactionStream → List Incoming → List StreamEvent →
    WsTransactionStream → List Incoming → Prop
  | none (stream : WsTransactionStream) (incoming : List Incoming) :
      Calls codec stream incoming [] stream incoming
  | event {stream stream₁ stream₂ : WsTransactionStream} {incoming rest₁ rest₂ : List Incoming}
      {event : StreamEvent} {events : List StreamEvent}
      (hnext : stream.next codec incoming = (.returned (.ok event), stream₁, rest₁))
      (hcalls : Calls codec stream₁ rest₁ events stream₂ rest₂) :
      Calls codec stream incoming (event :: events) stream₂ rest₂

theorem calls_spec (hmax : 1 ≤ maxSize) {incoming rest : List Incoming}
    {events : List StreamEvent} {stream' : WsTransactionStream}
    (hcalls : Calls codec stream incoming events stream' rest)
    (h : stream.Tracks maxSize notes) :
    Processes codec maxSize notes (stream.pendingFrames ++ textsOf incoming)
      (stream'.pendingFrames ++ textsOf rest) events stream' := by
  induction hcalls generalizing notes with
  | none stream incoming => exact processes_nothing h _
  | event hnext _ ih => exact (next_spec hmax h hnext).1.trans fun notes' htracks => ih htracks

/-! ### The handshake -/

theorem otherKind_of_envelope {text : String} {envelope : WsJsonRpcEnvelope}
    (henvelope : codec.envelope text = .ok envelope)
    (hmethod : envelope.method ≠ some "logsNotification") (frames : List String) :
    codec.notifications (text :: frames) = codec.notifications frames := by
  have hkind : codec.otherKind text = true := by
    simp [WsCodec.otherKind, henvelope, hmethod]
  have hnone : codec.notification? text = none := by
    rw [WsCodec.notification?, if_pos hkind]
  exact List.filterMap_cons_none hnone

/-- The handshake loses no notification: it buffers the frames that are announced as such, and
the others have none. -/
theorem awaitResponse_spec {incoming rest : List Incoming} {stream' : WsTransactionStream}
    (h : stream.awaitResponse codec incoming = (.returned (.ok ()), stream', rest)) :
    codec.notifications (stream.pendingFrames ++ textsOf incoming) =
        codec.notifications (stream'.pendingFrames ++ textsOf rest) ∧
      stream'.dedup = stream.dedup ∧ stream'.lastSeenSlot = stream.lastSeenSlot := by
  induction incoming generalizing stream with
  | nil => cases h
  | cons message incoming ih =>
      cases message with
      | text text =>
          simp only [WsTransactionStream.awaitResponse] at h
          cases henvelope : codec.envelope text with
          | error e =>
              rw [henvelope] at h
              cases h
          | ok envelope =>
              rw [henvelope] at h
              by_cases hmethod : envelope.method = some "logsNotification"
              · simp only [if_pos hmethod] at h
                obtain ⟨hframes, hdedup, hslot⟩ := ih h
                refine ⟨?_, hdedup, hslot⟩
                rw [← hframes]
                simp [textsOf, Incoming.text?, List.append_assoc]
              · have hskip : codec.notifications (stream.pendingFrames ++
                    textsOf (.text text :: incoming)) =
                      codec.notifications (stream.pendingFrames ++ textsOf incoming) := by
                  rw [notifications_append, notifications_append]
                  exact congrArg _ (otherKind_of_envelope henvelope hmethod _)
                rw [hskip]
                simp only [if_neg hmethod] at h
                split at h
                · cases h
                · cases h
                  exact ⟨rfl, rfl, rfl⟩
                · cases h
                · exact ih h
      | ping pongError =>
          cases pongError with
          | none => exact ih h
          | some e => cases h
      | pong => exact ih h
      | close => cases h
      | other => exact ih h
      | failure e => cases h
      | ended => cases h
      | timeout pingError => cases h

theorem subscribe_spec {connectError sendError : Option String} {incoming rest : List Incoming}
    {stream' : WsTransactionStream} (htracks : stream.Tracks maxSize notes)
    (h : stream.subscribe codec connectError sendError incoming =
      (.returned (.ok ()), stream', rest)) :
    codec.notifications (textsOf incoming) =
        codec.notifications (stream'.pendingFrames ++ textsOf rest) ∧
      stream'.Tracks maxSize notes := by
  cases connectError with
  | some e => cases h
  | none =>
      cases sendError with
      | some e => cases h
      | none =>
          obtain ⟨hframes, hdedup, hslot⟩ := awaitResponse_spec h
          exact ⟨hframes, htracks.congr hdedup hslot⟩

/-! ### Runs -/

theorem parse_pendingFrames (text : String) :
    (stream.parse codec text).2.pendingFrames = stream.pendingFrames := rfl

theorem length_replay {pending : List String} {event : StreamEvent}
    {stream' : WsTransactionStream}
    (h : stream.replay codec pending = (some (.ok event), stream')) :
    stream'.pendingFrames.length < pending.length := by
  induction pending generalizing stream with
  | nil => cases h
  | cons text pending ih =>
      rw [WsTransactionStream.replay] at h
      have hpending := @parse_pendingFrames codec { stream with pendingFrames := pending } text
      split at h
      · cases h
      · rename_i event' stream₁ hparse
        rw [hparse] at hpending
        cases h
        rw [hpending]
        exact Nat.lt_succ_self pending.length
      · rw [List.length_cons]
        exact (ih h).trans (Nat.lt_succ_self _)

theorem length_receive {incoming rest : List Incoming} {event : StreamEvent}
    {stream' : WsTransactionStream}
    (h : stream.receive codec incoming = (.returned (.ok event), stream', rest)) :
    rest.length < incoming.length ∧ stream'.pendingFrames = stream.pendingFrames := by
  induction incoming generalizing stream with
  | nil => cases h
  | cons message incoming ih =>
      have hskip : ∀ {stream₁ : WsTransactionStream},
          stream₁.receive codec incoming = (.returned (.ok event), stream', rest) →
          stream₁.pendingFrames = stream.pendingFrames →
          rest.length < (message :: incoming).length ∧
            stream'.pendingFrames = stream.pendingFrames := by
        intro stream₁ hreceive hsame
        obtain ⟨hlength, hpending⟩ := ih hreceive
        exact ⟨hlength.trans (Nat.lt_succ_self _), hpending.trans hsame⟩
      cases message with
      | text text =>
          have hpending := @parse_pendingFrames codec stream text
          rw [WsTransactionStream.receive] at h
          split at h
          · cases h
          · rename_i event' stream₁ hparse
            rw [hparse] at hpending
            cases h
            exact ⟨Nat.lt_succ_self _, hpending⟩
          · rename_i stream₁ hparse
            rw [hparse] at hpending
            exact hskip h hpending
      | ping pongError =>
          cases pongError with
          | none => exact hskip h rfl
          | some e => cases h
      | pong => exact hskip h rfl
      | close => cases h
      | other => exact hskip h rfl
      | failure e => cases h
      | ended => cases h
      | timeout pingError =>
          simp only [WsTransactionStream.receive] at h
          split at h
          · cases h
          · cases pingError with
            | none => exact hskip h rfl
            | some e => cases h

theorem length_next {incoming rest : List Incoming} {event : StreamEvent}
    {stream' : WsTransactionStream}
    (h : stream.next codec incoming = (.returned (.ok event), stream', rest)) :
    stream'.pendingFrames.length + rest.length <
      stream.pendingFrames.length + incoming.length := by
  rw [WsTransactionStream.next] at h
  split at h
  · rename_i result stream₁ hreplay
    cases h
    have hlength := length_replay hreplay
    omega
  · rename_i stream₁ hreplay
    split at h
    · obtain ⟨hlength, hpending⟩ := length_receive h
      rw [hpending, pendingFrames_of_replay hreplay, List.length_nil]
      omega
    · cases h

theorem exists_calls (codec : WsCodec) (stream : WsTransactionStream) (incoming : List Incoming) :
    ∃ events stream' rest, Calls codec stream incoming events stream' rest ∧
      ∀ event stream'' rest',
        stream'.next codec rest ≠ (.returned (.ok event), stream'', rest') := by
  induction hn : stream.pendingFrames.length + incoming.length using Nat.strong_induction_on
    generalizing stream incoming with
  | _ n ih =>
      by_cases hevent : ∃ event stream₁ rest₁,
          stream.next codec incoming = (.returned (.ok event), stream₁, rest₁)
      · obtain ⟨event, stream₁, rest₁, hnext⟩ := hevent
        have hlength := length_next hnext
        obtain ⟨events, stream', rest, hcalls, hstop⟩ := ih _ (hn ▸ hlength) stream₁ rest₁ rfl
        exact ⟨event :: events, stream', rest, .event hnext hcalls, hstop⟩
      · refine ⟨[], stream, incoming, .none stream incoming, ?_⟩
        intro event stream'' rest' hnext
        exact hevent ⟨event, stream'', rest', hnext⟩

/-! ### Sessions that nothing ends -/

structure WsTransactionStream.Open (codec : WsCodec) (stream : WsTransactionStream)
    (incoming : List Incoming) : Prop where
  connected : stream.connected = true
  pendingFrames : ∀ text ∈ stream.pendingFrames, codec.ErrorFree text
  steady : codec.Steady stream.pendingPing incoming

theorem parseLogsNotification_ok {text : String} (h : codec.ErrorFree text)
    (dedup : DeduplicationSet) (lastSeenSlot : Option Nat) :
    ∃ event, (parseLogsNotification codec text dedup lastSeenSlot).1 = .ok event := by
  unfold parseLogsNotification
  cases henvelope : codec.envelope text with
  | ok envelope =>
      simp only [h envelope henvelope]
      split_ifs
      · exact ⟨_, rfl⟩
      · cases codec.notification text with
        | none => exact ⟨_, rfl⟩
        | some note =>
            simp only
            split_ifs
            · exact ⟨_, rfl⟩
            · split <;> exact ⟨_, rfl⟩
  | error e =>
      cases codec.notification text with
      | none => exact ⟨_, rfl⟩
      | some note =>
          simp only
          split_ifs
          · exact ⟨_, rfl⟩
          · split <;> exact ⟨_, rfl⟩

theorem parse_of_errorFree {text : String} (h : codec.ErrorFree text)
    (stream : WsTransactionStream) :
    ∃ event dedup lastSeenSlot, stream.parse codec text =
      (.ok event, { stream with dedup := dedup, lastSeenSlot := lastSeenSlot }) := by
  obtain ⟨event, hevent⟩ := parseLogsNotification_ok h stream.dedup stream.lastSeenSlot
  exact ⟨event, _, _, Prod.ext hevent rfl⟩

theorem replay_of_errorFree {pending : List String}
    (h : ∀ text ∈ pending, codec.ErrorFree text) (stream : WsTransactionStream) :
    ∃ event stream', stream.replay codec pending = (Option.map Except.ok event, stream') ∧
      stream'.connected = stream.connected ∧ stream'.pendingPing = stream.pendingPing ∧
      stream'.pendingFrames ⊆ pending := by
  induction pending generalizing stream with
  | nil => exact ⟨none, _, rfl, rfl, rfl, List.Subset.refl _⟩
  | cons text pending ih =>
      rw [List.forall_mem_cons] at h
      obtain ⟨event, dedup, lastSeenSlot, hparse⟩ :=
        parse_of_errorFree h.1 { stream with pendingFrames := pending }
      simp only [WsTransactionStream.replay, hparse]
      cases event with
      | some event => exact ⟨some event, _, rfl, rfl, rfl, List.subset_cons_self text pending⟩
      | none =>
          obtain ⟨event, stream', hreplay, hconnected, hping, hframes⟩ := ih h.2 _
          exact ⟨event, stream', hreplay, hconnected, hping,
            List.subset_cons_of_subset text hframes⟩

inductive StaysOpen (codec : WsCodec) :
    Call StreamEvent × WsTransactionStream × List Incoming → Prop
  | waiting (stream : WsTransactionStream) : StaysOpen codec (.waiting, stream, [])
  | event (event : StreamEvent) {stream : WsTransactionStream} {rest : List Incoming}
      (hopen : stream.Open codec rest) : StaysOpen codec (.returned (.ok event), stream, rest)

theorem receive_staysOpen {incoming : List Incoming} (h : stream.Open codec incoming) :
    StaysOpen codec (stream.receive codec incoming) := by
  induction incoming generalizing stream with
  | nil => exact .waiting stream
  | cons message rest ih =>
      obtain ⟨hconnected, hframes, hsteady⟩ := h
      cases message with
      | text text =>
          obtain ⟨htext, hsteady⟩ := hsteady
          obtain ⟨event, dedup, lastSeenSlot, hparse⟩ := parse_of_errorFree htext stream
          simp only [WsTransactionStream.receive, hparse]
          cases event with
          | some event => exact .event event ⟨hconnected, hframes, hsteady⟩
          | none => exact ih ⟨hconnected, hframes, hsteady⟩
      | ping pongError =>
          obtain ⟨rfl, hsteady⟩ := hsteady
          exact ih ⟨hconnected, hframes, hsteady⟩
      | pong => exact ih ⟨hconnected, hframes, hsteady⟩
      | other => exact ih ⟨hconnected, hframes, hsteady⟩
      | timeout pingError =>
          obtain ⟨hping, rfl, hsteady⟩ := hsteady
          simp only [WsTransactionStream.receive, hping, Bool.false_eq_true, if_false]
          exact ih ⟨hconnected, hframes, hsteady⟩
      | close => exact hsteady.elim
      | failure e => exact hsteady.elim
      | ended => exact hsteady.elim

theorem next_staysOpen {incoming : List Incoming} (h : stream.Open codec incoming) :
    StaysOpen codec (stream.next codec incoming) := by
  obtain ⟨event, stream', hreplay, hconnected, hping, hframes⟩ :=
    replay_of_errorFree h.pendingFrames stream
  have hopen : stream'.Open codec incoming :=
    ⟨hconnected.trans h.connected, fun text htext => h.pendingFrames text (hframes htext),
      hping ▸ h.steady⟩
  simp only [WsTransactionStream.next, hreplay]
  cases event with
  | some event => exact .event event hopen
  | none =>
      simp only [Option.map_none, hopen.connected, if_true]
      exact receive_staysOpen hopen

theorem Calls.open {incoming rest : List Incoming} {events : List StreamEvent}
    {stream' : WsTransactionStream} (hcalls : Calls codec stream incoming events stream' rest)
    (h : stream.Open codec incoming) : stream'.Open codec rest := by
  induction hcalls with
  | none stream incoming => exact h
  | event hnext _ ih =>
      have hstays := next_staysOpen h
      rw [hnext] at hstays
      cases hstays with
      | event _ hopen => exact ih hopen

theorem awaitResponse_open {incoming rest : List Incoming} {stream' : WsTransactionStream}
    (h : stream.Open codec incoming) (hping : stream.pendingPing = false)
    (hawait : stream.awaitResponse codec incoming = (.returned (.ok ()), stream', rest)) :
    stream'.Open codec rest := by
  induction incoming generalizing stream with
  | nil => cases hawait
  | cons message incoming ih =>
      obtain ⟨hconnected, hframes, hsteady⟩ := h
      rw [hping] at hsteady
      have hskip : ∀ {frames : List String}, (∀ text ∈ frames, codec.ErrorFree text) →
          codec.Steady false incoming →
          WsTransactionStream.Open codec { stream with pendingFrames := frames } incoming :=
        fun hframes hrest => ⟨hconnected, hframes, hping.symm ▸ hrest⟩
      cases message with
      | text text =>
          obtain ⟨htext, hrest⟩ := hsteady
          simp only [WsTransactionStream.awaitResponse] at hawait
          split at hawait
          · cases hawait
          · split at hawait
            · have hframes' : ∀ frame ∈ stream.pendingFrames ++ [text],
                  codec.ErrorFree frame := by
                simp only [List.mem_append, List.mem_singleton]
                rintro frame (hframe | rfl)
                · exact hframes frame hframe
                · exact htext
              exact ih (hskip hframes' hrest) hping hawait
            · split at hawait
              · cases hawait
              · cases hawait
                exact ⟨hconnected, hframes, hping.symm ▸ hrest⟩
              · cases hawait
              · exact ih (hskip hframes hrest) hping hawait
      | ping pongError =>
          obtain ⟨rfl, hrest⟩ := hsteady
          exact ih (hskip hframes hrest) hping hawait
      | pong => exact ih (hskip hframes hsteady) hping hawait
      | other => exact ih (hskip hframes hsteady) hping hawait
      | timeout pingError => cases hawait
      | close => exact hsteady.elim
      | failure e => exact hsteady.elim
      | ended => exact hsteady.elim

theorem subscribe_open {connectError sendError : Option String} {incoming rest : List Incoming}
    {stream' : WsTransactionStream} (hsteady : codec.Steady false incoming)
    (h : stream.subscribe codec connectError sendError incoming =
      (.returned (.ok ()), stream', rest)) : stream'.Open codec rest := by
  cases connectError with
  | some e => cases h
  | none =>
      cases sendError with
      | some e => cases h
      | none =>
          have hframes : ∀ text ∈ ([] : List String), codec.ErrorFree text := by simp
          exact awaitResponse_open ⟨rfl, hframes, hsteady⟩ rfl h

end Spec

/-- Stream delivery.  A stream that tracks `notes`, as a new one tracks nothing, is subscribed.
Whatever the socket yields from then on, the events of the calls made so far are those of the
accepted among the notifications processed so far, in their order; the set is the window of the
last accepted signatures, and the cursor is the greatest slot.  When a call waits, all frames
have been processed.  Calls can be made until one waits or fails, and it waits if nothing that
the socket yields ends the session. -/
theorem stream_delivers_accepted (codec : WsCodec) (maxSize : Nat) (hmax : 1 ≤ maxSize)
    (stream : WsTransactionStream) (notes : List LogsNotification)
    (htracks : stream.Tracks maxSize notes) (connectError sendError : Option String)
    (incoming rest : List Incoming) (stream₁ : WsTransactionStream)
    (hsubscribe : stream.subscribe codec connectError sendError incoming =
      (.returned (.ok ()), stream₁, rest)) :
    (WsTransactionStream.new maxSize).Tracks maxSize [] ∧
      (∀ events stream₂ rest₂, Calls codec stream₁ rest events stream₂ rest₂ →
        ∃ done, codec.notifications (textsOf incoming) =
            done ++ codec.notifications (stream₂.pendingFrames ++ textsOf rest₂) ∧
          Delivers maxSize notes done events ∧ stream₂.Tracks maxSize (notes ++ done)) ∧
      (∀ events stream₂ rest₂ stream₃ rest₃, Calls codec stream₁ rest events stream₂ rest₂ →
        stream₂.next codec rest₂ = (.waiting, stream₃, rest₃) →
        Delivers maxSize notes (codec.notifications (textsOf incoming)) events ∧
          stream₃.Tracks maxSize (notes ++ codec.notifications (textsOf incoming))) ∧
      ∃ events stream₂ rest₂, Calls codec stream₁ rest events stream₂ rest₂ ∧
        (∀ event stream₃ rest₃,
          stream₂.next codec rest₂ ≠ (.returned (.ok event), stream₃, rest₃)) ∧
        (codec.Steady false incoming →
          ∃ stream₃, stream₂.next codec rest₂ = (.waiting, stream₃, [])) := by
  obtain ⟨hframes, htracks₁⟩ := subscribe_spec htracks hsubscribe
  refine ⟨tracks_new maxSize, ?_, ?_, ?_⟩
  · intro events stream₂ rest₂ hcalls
    obtain ⟨done, hdone, hevents, htracks₂⟩ := calls_spec hmax hcalls htracks₁
    exact ⟨done, hframes.trans hdone, hevents, htracks₂⟩
  · intro events stream₂ rest₂ stream₃ rest₃ hcalls hnext
    have hprocessed : Processes codec maxSize notes (stream₁.pendingFrames ++ textsOf rest)
        (stream₃.pendingFrames ++ textsOf rest₃) (events ++ []) stream₃ :=
      (calls_spec hmax hcalls htracks₁).trans fun notes' htracks₂ =>
        (next_spec hmax htracks₂ hnext).1
    obtain ⟨done, hdone, hevents, htracks₃⟩ := hprocessed
    obtain ⟨_, _, _, htracks₂⟩ := calls_spec hmax hcalls htracks₁
    obtain ⟨hpending, hrest⟩ := (next_spec hmax htracks₂ hnext).2 rfl
    -- nothing is left, so that what is processed is all
    have hall : codec.notifications (textsOf incoming) = done := by
      rw [hframes, hdone, hpending, hrest]
      exact List.append_nil done
    rw [List.append_nil] at hevents
    rw [hall]
    exact ⟨hevents, htracks₃⟩
  · obtain ⟨events, stream₂, rest₂, hcalls, hlast⟩ := exists_calls codec stream₁ rest
    refine ⟨events, stream₂, rest₂, hcalls, hlast, fun hsteady => ?_⟩
    have hstays := next_staysOpen (hcalls.open (subscribe_open hsteady hsubscribe))
    generalize hnext : stream₂.next codec rest₂ = outcome at hstays
    cases hstays with
    | waiting stream₃ => exact ⟨stream₃, rfl⟩
    | event event _ => exact absurd hnext (hlast event _ _)

/-! ### A signature that comes back -/

def ackText : String := r#"{"jsonrpc":"2.0","result":1,"id":1}"#

def noteText (signature slot : String) : String :=
  r#"{"method":"logsNotification","params":{"result":{"value":{"signature":""# ++ signature ++
    r#"","err":null,"logs":[]},"context":{"slot":"# ++ slot ++ r#"}},"subscription":1}}"#

def sampleNotes : List (String × LogsNotification) :=
  [(noteText "a" "5", ⟨"a", 5, none⟩), (noteText "b" "7", ⟨"b", 7, none⟩),
    (noteText "a" "6", ⟨"a", 6, none⟩)]

/-- `serde_json` on the acknowledgement, three notifications and a text that is no JSON. -/
def WsCodec.sample : WsCodec where
  envelope text :=
    if text = ackText then .ok ⟨none, some (.int 1), none⟩
    else if text ∈ sampleNotes.map Prod.fst then .ok ⟨some "logsNotification", none, none⟩
    else .error "expected ident at line 1 column 2"
  notification text := (sampleNotes.find? fun note => note.1 == text).map Prod.snd
  display _ := "1"

/-- The first frame races the acknowledgement and comes again after it. -/
def sampleIncoming : List Incoming :=
  [.text (noteText "a" "5"), .text ackText, .text (noteText "a" "5"), .ping none,
    .text "nonsense", .text (noteText "b" "7"), .text (noteText "a" "6")]

theorem sample_errorFree (text : String) : WsCodec.sample.ErrorFree text := by
  intro envelope henvelope
  unfold WsCodec.sample at henvelope
  dsimp only at henvelope
  split_ifs at henvelope <;> cases henvelope <;> rfl

theorem stream_delivers_accepted_again :
    WsCodec.sample.Steady false sampleIncoming ∧
      ∃ stream₁ rest, (WsTransactionStream.new 1).subscribe .sample none none sampleIncoming =
        (.returned (.ok ()), stream₁, rest) ∧
      ∃ events stream₂ rest₂ stream₃ rest₃, Calls .sample stream₁ rest events stream₂ rest₂ ∧
        stream₂.next .sample rest₂ = (.waiting, stream₃, rest₃) ∧
        events.map StreamEvent.signature = ["a", "b", "a"] ∧ stream₃.lastSeenSlot = some 7 ∧
        Delivers 1 [] (WsCodec.sample.notifications (textsOf sampleIncoming)) events := by
  obtain ⟨stream₁, rest, hsubscribe, events, stream₂, rest₂, stream₃, rest₃, hcalls, hnext,
      hsignatures, hslot⟩ :
      ∃ stream₁ rest, (WsTransactionStream.new 1).subscribe .sample none none sampleIncoming =
          (.returned (.ok ()), stream₁, rest) ∧
        ∃ events stream₂ rest₂ stream₃ rest₃, Calls .sample stream₁ rest events stream₂ rest₂ ∧
          stream₂.next .sample rest₂ = (.waiting, stream₃, rest₃) ∧
          events.map StreamEvent.signature = ["a", "b", "a"] ∧ stream₃.lastSeenSlot = some 7 :=
    ⟨_, _, rfl, _, _, _, _, _, .event rfl (.event rfl (.event rfl (.none _ _))), rfl, rfl, rfl⟩
  have hsteady : WsCodec.sample.Steady false sampleIncoming :=
    ⟨sample_errorFree _, sample_errorFree _, sample_errorFree _, rfl, sample_errorFree _,
      sample_errorFree _, sample_errorFree _, trivial⟩
  have hdelivers := (stream_delivers_accepted .sample 1 le_rfl (.new 1) [] (tracks_new 1) none none
    sampleIncoming rest stream₁ hsubscribe).2.2.1 _ _ _ _ _ hcalls hnext
  exact ⟨hsteady, stream₁, rest, hsubscribe, events, stream₂, rest₂, stream₃, rest₃, hcalls, hnext,
    hsignatures, hslot, hdelivers.1⟩

end Solarix.Pipeline
