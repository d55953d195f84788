import Solarix.Core.Retry
import Solarix.Pipeline.Rpc

/-!
# RPC requests

`send_rpc_request`, the classification of its errors, and the retries around it.  A request is
attempted again after an error that may go away; only what the node says about a slot makes
`get_block` skip it.
-/

namespace Solarix.Pipeline

open Solarix.Core

/-- `is_retryable`.  IDL errors do not occur here. -/
def PipelineError.isRetryable : PipelineError → Bool
  | .rpcFailed _ | .webSocketDisconnect _ | .rateLimited => true
  | _ => false

/-! ## One attempt -/

/-- What `send` gives: an error of its three kinds, or a response with its status and its body,
if that is JSON with no key twice in the envelope. -/
inductive RpcAttempt where
  | timeout (message : String)
  | connectionFailed (message : String)
  | requestFailed (message : String)
  | response (status : Nat) (body : Except String Json)

structure JsonRpcError where
  code : Int
  message : String

structure JsonRpcResponse where
  result : Option Json
  error : Option JsonRpcError

def JsonRpcError.fromValue (v : Json) : Option JsonRpcError := do
  let v ← asStruct ["code", "message"] 2 v
  let code ← required "code" asI64 v
  let message ← required "message" asString v
  some ⟨code, message⟩

def JsonRpcResponse.fromValue (v : Json) : Option JsonRpcResponse := do
  let v ← asStruct ["result", "error"] 2 v
  let result ← optional "result" some v
  let error ← optional "error" JsonRpcError.fromValue v
  some ⟨result, error⟩

def skippedSlotErrorCode : Int := -32009

def classifyRpcError (err : JsonRpcError) : PipelineError :=
  if err.code = skippedSlotErrorCode then .slotSkipped err.message
  else if err.code = -32007 ∨ err.code = -32010 then .slotSkipped err.message
  else if err.code = -32005 then .rpcFailed s!"node behind: {err.message}"
  else if -32602 ≤ err.code ∧ err.code ≤ -32600 then
    .fatal s!"RPC protocol error {err.code}: {err.message}"
  else .rpcFailed s!"RPC error {err.code}: {err.message}"

section Requests

variable (env : Externs) (statusText : Nat → String)

def sendRpcRequestOptional : RpcAttempt → Except PipelineError (Option Json)
  | .timeout e => .error (.rpcFailed s!"timeout: {e}")
  | .connectionFailed e => .error (.rpcFailed s!"connection failed: {e}")
  | .requestFailed e => .error (.rpcFailed s!"request failed: {e}")
  | .response status body =>
      if status = 429 then .error .rateLimited
      else if !isSuccess status then
        if isClientError status then .error (.fatal s!"HTTP {statusText status}")
        else .error (.rpcFailed s!"HTTP {statusText status}")
      else
        match body with
        | .error e => .error (.rpcFailed s!"response parse failed: {e}")
        | .ok value =>
            match JsonRpcResponse.fromValue value with
            | none => .error (.rpcFailed s!"response parse failed: {env.serdeError value}")
            | some ⟨_, some err⟩ => .error (classifyRpcError err)
            | some ⟨result, none⟩ => .ok result

/-- `send_rpc_request`, which does the same and takes no null. -/
def sendRpcRequest (attempt : RpcAttempt) : Except PipelineError Json :=
  match sendRpcRequestOptional env statusText attempt with
  | .error e => .error e
  | .ok (some value) => .ok value
  | .ok none => .error (.rpcFailed "null result without error")

/-! ## Requests -/

/-- `rpc_request`, with the number of retries.  `delays` is what the back-off yields. -/
def rpcRequest (attempts : Nat → RpcAttempt) (delays : List Nat) :
    Except PipelineError Json × Nat :=
  retry PipelineError.isRetryable (fun i => sendRpcRequest env statusText (attempts i))
    delays.length 0

def rpcRequestOptional (attempts : Nat → RpcAttempt) (delays : List Nat) :
    Except PipelineError (Option Json) × Nat :=
  retry PipelineError.isRetryable (fun i => sendRpcRequestOptional env statusText (attempts i))
    delays.length 0

def getBlock (indexFailedTxs : Bool) (slot : Nat) (attempts : Nat → RpcAttempt)
    (delays : List Nat) : Except PipelineError (Option RpcBlock) × Nat :=
  match rpcRequest env statusText attempts delays with
  | (.ok value, retries) => ((parseBlock env slot value indexFailedTxs).map some, retries)
  | (.error (.slotSkipped _), retries) => (.ok none, retries)
  | (.error e, retries) => (.error e, retries)

/-- `get_transaction` from the request on. -/
def requestTransaction (attempts : Nat → RpcAttempt) (delays : List Nat) :
    Except PipelineError (Option RpcTransaction) × Nat :=
  match rpcRequestOptional env statusText attempts delays with
  | (.ok maybeValue, retries) => (getTransaction env maybeValue, retries)
  | (.error e, retries) => (.error e, retries)

end Requests

/-! ## What an attempt says -/

def RpcAttempt.answer : RpcAttempt → Option JsonRpcResponse
  | .response status (.ok value) =>
      if isSuccess status then JsonRpcResponse.fromValue value else none
  | _ => none

/-- The node says that the slot was skipped, cleaned up or is not available. -/
def RpcAttempt.Skips (attempt : RpcAttempt) : Prop :=
  ∃ response err, attempt.answer = some response ∧ response.error = some err ∧
    (err.code = -32009 ∨ err.code = -32007 ∨ err.code = -32010)

def RpcAttempt.Answers (attempt : RpcAttempt) (result : Option Json) : Prop :=
  attempt.answer = some ⟨result, none⟩

/-- The request is at fault: HTTP says so, or the node does. -/
def RpcAttempt.Refused (attempt : RpcAttempt) : Prop :=
  (∃ status body, attempt = .response status body ∧ isClientError status = true ∧
      status ≠ 429) ∨
    ∃ response err, attempt.answer = some response ∧ response.error = some err ∧
      -32602 ≤ err.code ∧ err.code ≤ -32600

/-- What an attempt says, with what `send_rpc_request_optional` makes of it. -/
inductive RpcAttempt.Says (attempt : RpcAttempt) : Except PipelineError (Option Json) → Prop
  | answers {result : Option Json} (h : attempt.Answers result) : Says attempt (.ok result)
  | skips (h : attempt.Skips) (message : String) : Says attempt (.error (.slotSkipped message))
  | refused (h : attempt.Refused) (message : String) : Says attempt (.error (.fatal message))
  | transient {e : PipelineError} (hskips : ¬ attempt.Skips) (hrefused : ¬ attempt.Refused)
      (hanswers : ∀ result, ¬ attempt.Answers result) (he : e.isRetryable = true) :
      Says attempt (.error e)

section Attempts

variable {env : Externs} {statusText : Nat → String} {attempt : RpcAttempt}

theorem RpcAttempt.Says.of_no_answer {e : PipelineError} (h : attempt.answer = none)
    (hclient : ∀ status body, attempt = .response status body → isClientError status = true →
      status = 429) (he : e.isRetryable = true) : attempt.Says (.error e) := by
  refine .transient ?_ ?_ ?_ he
  · rintro ⟨response, _, hanswer, -⟩
    rw [h] at hanswer
    cases hanswer
  · rintro (⟨status, body, heq, hstatus, hne⟩ | ⟨response, _, hanswer, -⟩)
    · exact hne (hclient status body heq hstatus)
    · rw [h] at hanswer
      cases hanswer
  · intro result hanswer
    rw [RpcAttempt.Answers, h] at hanswer
    cases hanswer

theorem RpcAttempt.Says.of_error {response : JsonRpcResponse} {err : JsonRpcError}
    (h : attempt.answer = some response) (herr : response.error = some err)
    (hstatus : ∀ status body, attempt = .response status body → isClientError status = false) :
    attempt.Says (.error (classifyRpcError err)) := by
  have hother : ∀ response' err', attempt.answer = some response' → response'.error = some err' →
      err' = err := by
    intro response' err' h' herr'
    rw [h] at h'
    cases h'
    rw [herr] at herr'
    exact (Option.some.inj herr').symm
  have hnoAnswer : ∀ result, ¬ attempt.Answers result := by
    intro result hanswer
    rw [RpcAttempt.Answers, h] at hanswer
    cases hanswer
    cases herr
  have hskips : attempt.Skips ↔ err.code = -32009 ∨ err.code = -32007 ∨ err.code = -32010 := by
    constructor
    · rintro ⟨response', err', h', herr', hcode⟩
      rwa [hother _ _ h' herr'] at hcode
    · exact fun hcode => ⟨response, err, h, herr, hcode⟩
  have hrefused : attempt.Refused ↔ -32602 ≤ err.code ∧ err.code ≤ -32600 := by
    constructor
    · rintro (⟨status, body, heq, hclient, -⟩ | ⟨response', err', h', herr', hcode⟩)
      · rw [hstatus status body heq] at hclient
        cases hclient
      · rwa [hother _ _ h' herr'] at hcode
    · exact fun hcode => .inr ⟨response, err, h, herr, hcode⟩
  unfold classifyRpcError skippedSlotErrorCode
  split
  · exact .skips (hskips.mpr (by omega)) _
  · split
    · exact .skips (hskips.mpr (by omega)) _
    · split
      · refine .transient ?_ ?_ hnoAnswer rfl
        · rw [hskips]
          omega
        · rw [hrefused]
          omega
      · split
        · exact .refused (hrefused.mpr (by omega)) _
        · refine .transient ?_ ?_ hnoAnswer rfl
          · rw [hskips]
            omega
          · rw [hrefused]
            omega

theorem not_isClientError {status : Nat} (h : isSuccess status = true) :
    isClientError status = false := by
  simp only [isSuccess, isClientError, Bool.and_eq_true, decide_eq_true_eq, Bool.and_eq_false_iff,
    decide_eq_false_iff_not] at h ⊢
  omega

theorem says_sendRpcRequestOptional :
    attempt.Says (sendRpcRequestOptional env statusText attempt) := by
  unfold sendRpcRequestOptional
  split
  · exact .of_no_answer rfl nofun rfl
  · exact .of_no_answer rfl nofun rfl
  · exact .of_no_answer rfl nofun rfl
  · rename_i status body
    split
    · rename_i hlimited
      refine .of_no_answer ?_ (fun _ _ heq _ => by cases heq; exact hlimited) rfl
      rw [hlimited]
      cases body <;> rfl
    · rename_i hlimited
      split
      · rename_i hsuccess
        have hnone : (RpcAttempt.response status body).answer = none := by
          cases body with
          | error e => rfl
          | ok value => exact if_neg (by simpa using hsuccess)
        split
        · rename_i hclient
          exact .refused (.inl ⟨status, body, rfl, hclient, hlimited⟩) _
        · rename_i hclient
          exact .of_no_answer hnone (fun _ _ heq h => by cases heq; exact absurd h hclient) rfl
      · rename_i hsuccess
        have hsuccess : isSuccess status = true := by simpa using hsuccess
        have hclient := not_isClientError hsuccess
        split
        · exact .of_no_answer rfl
            (fun _ _ heq h => by cases heq; rw [hclient] at h; cases h) rfl
        · rename_i value
          have hanswer : (RpcAttempt.response status (.ok value)).answer =
              JsonRpcResponse.fromValue value := if_pos hsuccess
          split
          · rename_i hvalue
            exact .of_no_answer (hanswer.trans hvalue)
              (fun _ _ heq h => by cases heq; rw [hclient] at h; cases h) rfl
          · rename_i hvalue
            exact .of_error (hanswer.trans hvalue) rfl
              (fun _ _ heq => by cases heq; exact hclient)
          · rename_i hvalue
            exact .answers (hanswer.trans hvalue)

def RpcAttempt.NoAnswer (attempt : RpcAttempt) : Prop :=
  ¬ attempt.Skips ∧ ¬ attempt.Refused ∧ ∀ result, ¬ attempt.Answers result

/-- The same for a request that takes no null. -/
def RpcAttempt.NoValue (attempt : RpcAttempt) : Prop :=
  ¬ attempt.Skips ∧ ¬ attempt.Refused ∧ ∀ value, ¬ attempt.Answers (some value)

theorem RpcAttempt.Refused.code (h : attempt.Refused) {response : JsonRpcResponse}
    (hanswer : attempt.answer = some response) :
    ∃ err, response.error = some err ∧ -32602 ≤ err.code ∧ err.code ≤ -32600 := by
  rcases h with ⟨status, body, rfl, hclient, -⟩ | ⟨response', err, hanswer', herr, hcode⟩
  · unfold RpcAttempt.answer at hanswer
    split at hanswer
    · rename_i heq
      cases heq
      split at hanswer
      · rename_i hsuccess
        rw [not_isClientError hsuccess] at hclient
        cases hclient
      · cases hanswer
    · cases hanswer
  · rw [hanswer] at hanswer'
    cases hanswer'
    exact ⟨err, herr, hcode⟩

theorem RpcAttempt.Skips.not_refused (h : attempt.Skips) : ¬ attempt.Refused := by
  obtain ⟨response, err, hanswer, herr, hcode⟩ := h
  intro hrefused
  obtain ⟨err', herr', hcode'⟩ := hrefused.code hanswer
  rw [herr] at herr'
  cases herr'
  omega

theorem RpcAttempt.Answers.not_skips {result : Option Json} (h : attempt.Answers result) :
    ¬ attempt.Skips := by
  rintro ⟨response, err, hanswer, herr, -⟩
  rw [h] at hanswer
  cases hanswer
  cases herr

theorem RpcAttempt.Answers.not_refused {result : Option Json} (h : attempt.Answers result) :
    ¬ attempt.Refused := by
  intro hrefused
  obtain ⟨err, herr, -⟩ := hrefused.code h
  cases herr

theorem sendRpcRequestOptional_eq_ok {result : Option Json} :
    sendRpcRequestOptional env statusText attempt = .ok result ↔ attempt.Answers result := by
  have hsays := @says_sendRpcRequestOptional env statusText attempt
  generalize sendRpcRequestOptional env statusText attempt = sent at hsays
  cases hsays with
  | answers h =>
      constructor
      · intro heq
        cases heq
        exact h
      · intro h'
        rw [RpcAttempt.Answers, h] at h'
        cases h'
        rfl
  | skips h message => exact iff_of_false nofun fun h' => h'.not_skips h
  | refused h message => exact iff_of_false nofun fun h' => h'.not_refused h
  | transient _ _ hanswers he => exact iff_of_false nofun (hanswers result)

theorem sendRpcRequestOptional_skips :
    (∃ message, sendRpcRequestOptional env statusText attempt = .error (.slotSkipped message)) ↔
      attempt.Skips := by
  have hsays := @says_sendRpcRequestOptional env statusText attempt
  generalize sendRpcRequestOptional env statusText attempt = sent at hsays
  cases hsays with
  | answers h => exact iff_of_false nofun h.not_skips
  | skips h message => exact iff_of_true ⟨message, rfl⟩ h
  | refused h message => exact iff_of_false nofun fun h' => h'.not_refused h
  | transient hskips _ _ he =>
      refine iff_of_false ?_ hskips
      rintro ⟨message, heq⟩
      cases heq
      cases he

theorem retryable_sendRpcRequestOptional :
    Retryable PipelineError.isRetryable (sendRpcRequestOptional env statusText attempt) ↔
      attempt.NoAnswer := by
  have hsays := @says_sendRpcRequestOptional env statusText attempt
  generalize sendRpcRequestOptional env statusText attempt = sent at hsays
  cases hsays with
  | answers h => exact iff_of_false nofun fun h' => h'.2.2 _ h
  | skips h message =>
      refine iff_of_false ?_ fun h' => h'.1 h
      rintro ⟨e, heq, he⟩
      cases heq
      cases he
  | refused h message =>
      refine iff_of_false ?_ fun h' => h'.2.1 h
      rintro ⟨e, heq, he⟩
      cases heq
      cases he
  | transient hskips hrefused hanswers he =>
      exact iff_of_true ⟨_, rfl, he⟩ ⟨hskips, hrefused, hanswers⟩

/-! ### Without null -/

theorem sendRpcRequest_eq_ok {value : Json} :
    sendRpcRequest env statusText attempt = .ok value ↔ attempt.Answers (some value) := by
  rw [← @sendRpcRequestOptional_eq_ok env statusText]
  unfold sendRpcRequest
  split
  · rename_i heq
    rw [heq]
    exact iff_of_false nofun nofun
  · rename_i found heq
    rw [heq]
    constructor <;> intro h <;> cases h <;> rfl
  · rename_i heq
    rw [heq]
    exact iff_of_false nofun nofun

theorem sendRpcRequest_skips :
    (∃ message, sendRpcRequest env statusText attempt = .error (.slotSkipped message)) ↔
      attempt.Skips := by
  rw [← @sendRpcRequestOptional_skips env statusText]
  unfold sendRpcRequest
  split
  · rename_i heq
    rw [heq]
    constructor <;> rintro ⟨message, h⟩ <;> cases h <;> exact ⟨_, rfl⟩
  · rename_i heq
    rw [heq]
    exact iff_of_false nofun nofun
  · rename_i heq
    rw [heq]
    exact iff_of_false nofun nofun

theorem retryable_sendRpcRequest :
    Retryable PipelineError.isRetryable (sendRpcRequest env statusText attempt) ↔
      attempt.NoValue := by
  cases hsent : sendRpcRequestOptional env statusText attempt with
  | error e =>
      have hsame : sendRpcRequest env statusText attempt = .error e := by
        rw [sendRpcRequest, hsent]
      have hnone : ∀ result, ¬ attempt.Answers result := by
        intro result h
        rw [← @sendRpcRequestOptional_eq_ok env statusText, hsent] at h
        cases h
      have hretry := @retryable_sendRpcRequestOptional env statusText attempt
      rw [hsent, retryable_error] at hretry
      rw [hsame, retryable_error, hretry]
      exact ⟨fun h => ⟨h.1, h.2.1, fun value => hnone _⟩, fun h => ⟨h.1, h.2.1, hnone⟩⟩
  | ok result =>
      have hanswers := sendRpcRequestOptional_eq_ok.mp hsent
      unfold sendRpcRequest
      rw [hsent]
      cases result with
      | some value => exact iff_of_false nofun fun h => h.2.2 value hanswers
      | none =>
          refine iff_of_true ⟨_, rfl, rfl⟩ ⟨hanswers.not_skips, hanswers.not_refused, ?_⟩
          intro value h
          rw [RpcAttempt.Answers, hanswers] at h
          cases h

end Attempts

/-! ## What a request returns -/

/-- The result of `get_block` with its retries.  Of all attempts, whatever failures there are, the
one that settles the request is the first that says anything about it, and there are as many
retries as attempts before; without one the back-off is used up. -/
structure BlockAnswered (env : Externs) (indexFailedTxs : Bool) (slot : Nat)
    (attempts : Nat → RpcAttempt) (delays : List Nat)
    (run : Except PipelineError (Option RpcBlock) × Nat) : Prop where
  retries : run.2 ≤ delays.length
  before : ∀ j < run.2, (attempts j).NoValue
  last : (attempts run.2).NoValue → run.2 = delays.length
  /-- A null is no such word. -/
  skipped : run.1 = .ok none ↔ (attempts run.2).Skips
  block : ∀ block, run.1 = .ok (some block) ↔ ∃ value, (attempts run.2).Answers (some value) ∧
    parseBlock env slot value indexFailedTxs = .ok block

/-- The same for one transaction, where null is an answer: it is what the node says of a
transaction that it does not have. -/
structure TransactionAnswered (env : Externs) (attempts : Nat → RpcAttempt) (delays : List Nat)
    (run : Except PipelineError (Option RpcTransaction) × Nat) : Prop where
  retries : run.2 ≤ delays.length
  before : ∀ j < run.2, (attempts j).NoAnswer
  last : (attempts run.2).NoAnswer → run.2 = delays.length
  unknown : run.1 = .ok none ↔ (attempts run.2).Answers none
  transaction : ∀ tx, run.1 = .ok (some tx) ↔ ∃ value, (attempts run.2).Answers (some value) ∧
    getTransaction env (some value) = .ok (some tx)

section Answers

variable {env : Externs} {statusText : Nat → String}

variable {indexFailedTxs : Bool} {slot : Nat} {attempts : Nat → RpcAttempt} {delays : List Nat}

/-! ### A block -/

theorem getBlock_retries :
    (getBlock env statusText indexFailedTxs slot attempts delays).2 =
      (rpcRequest env statusText attempts delays).2 := by
  unfold getBlock
  split <;> rename_i heq <;> rw [heq]

theorem getBlock_eq_none :
    (getBlock env statusText indexFailedTxs slot attempts delays).1 = .ok none ↔
      ∃ message, (rpcRequest env statusText attempts delays).1 =
        .error (.slotSkipped message) := by
  unfold getBlock
  split <;> rename_i heq <;> rw [heq]
  · rename_i value _
    refine iff_of_false ?_ nofun
    cases parseBlock env slot value indexFailedTxs <;> nofun
  · exact iff_of_true rfl ⟨_, rfl⟩
  · rename_i hother
    refine iff_of_false nofun ?_
    rintro ⟨message, h⟩
    cases h
    exact hother message rfl

theorem getBlock_eq_some {block : RpcBlock} :
    (getBlock env statusText indexFailedTxs slot attempts delays).1 = .ok (some block) ↔
      ∃ value, (rpcRequest env statusText attempts delays).1 = .ok value ∧
        parseBlock env slot value indexFailedTxs = .ok block := by
  unfold getBlock
  split <;> rename_i heq <;> rw [heq]
  · rename_i value _
    constructor
    · intro h
      refine ⟨value, rfl, ?_⟩
      cases hparse : parseBlock env slot value indexFailedTxs with
      | error e =>
          rw [hparse] at h
          cases h
      | ok parsed =>
          rw [hparse] at h
          cases h
          rfl
    · rintro ⟨value', hvalue, hparse⟩
      cases hvalue
      rw [hparse]
      rfl
  · exact iff_of_false nofun nofun
  · exact iff_of_false nofun nofun

theorem blockAnswered_getBlock :
    BlockAnswered env indexFailedTxs slot attempts delays
      (getBlock env statusText indexFailedTxs slot attempts delays) := by
  obtain ⟨hle, hresult, hbefore, hlast⟩ := retry_settles
    (fun i => @retryable_sendRpcRequest env statusText (attempts i))
    (rfl : _ = rpcRequest env statusText attempts delays)
  rw [← @getBlock_retries env statusText indexFailedTxs slot] at hle hresult hbefore hlast
  refine ⟨hle, hbefore, hlast, ?_, fun block => ?_⟩
  · rw [getBlock_eq_none, hresult, sendRpcRequest_skips]
  · simp only [getBlock_eq_some, hresult, sendRpcRequest_eq_ok]

/-! ### A transaction -/

theorem requestTransaction_retries :
    (requestTransaction env statusText attempts delays).2 =
      (rpcRequestOptional env statusText attempts delays).2 := by
  unfold requestTransaction
  split <;> rename_i heq <;> rw [heq]

theorem getTransaction_eq_none {maybeValue : Option Json} :
    getTransaction env maybeValue = .ok none ↔ maybeValue = none := by
  cases maybeValue with
  | none => exact iff_of_true rfl rfl
  | some value =>
      refine iff_of_false ?_ nofun
      intro h
      unfold getTransaction at h
      dsimp only at h
      split at h
      · cases h
      · split at h
        · cases h
        · obtain ⟨instructions, -, h⟩ := except_bind_eq_ok.mp h
          obtain ⟨innerInstructions, -, h⟩ := except_bind_eq_ok.mp h
          cases h

theorem requestTransaction_eq_none :
    (requestTransaction env statusText attempts delays).1 = .ok none ↔
      (rpcRequestOptional env statusText attempts delays).1 = .ok none := by
  unfold requestTransaction
  split <;> rename_i heq <;> rw [heq]
  · rw [getTransaction_eq_none, Except.ok.injEq]
  · exact iff_of_false nofun nofun

theorem requestTransaction_eq_some {tx : RpcTransaction} :
    (requestTransaction env statusText attempts delays).1 = .ok (some tx) ↔
      ∃ value, (rpcRequestOptional env statusText attempts delays).1 = .ok (some value) ∧
        getTransaction env (some value) = .ok (some tx) := by
  unfold requestTransaction
  split <;> rename_i heq <;> rw [heq]
  · rename_i maybeValue _
    cases maybeValue with
    | none => exact iff_of_false nofun nofun
    | some value =>
        constructor
        · exact fun h => ⟨value, rfl, h⟩
        · rintro ⟨value', hvalue, h⟩
          cases hvalue
          exact h
  · exact iff_of_false nofun nofun

theorem transactionAnswered_requestTransaction :
    TransactionAnswered env attempts delays
      (requestTransaction env statusText attempts delays) := by
  obtain ⟨hle, hresult, hbefore, hlast⟩ := retry_settles
    (fun i => @retryable_sendRpcRequestOptional env statusText (attempts i))
    (rfl : _ = rpcRequestOptional env statusText attempts delays)
  rw [← requestTransaction_retries] at hle hresult hbefore hlast
  refine ⟨hle, hbefore, hlast, ?_, fun tx => ?_⟩
  · rw [requestTransaction_eq_none, hresult, sendRpcRequestOptional_eq_ok]
  · simp only [requestTransaction_eq_some, hresult, sendRpcRequestOptional_eq_ok]

end Answers

/-- A block is given up only where the node says so, and a transaction only where it answers that
it has none. -/
theorem block_and_transaction_answers (env : Externs) (statusText : Nat → String)
    (indexFailedTxs : Bool) (slot : Nat) (attempts : Nat → RpcAttempt) (delays : List Nat) :
    BlockAnswered env indexFailedTxs slot attempts delays
        (getBlock env statusText indexFailedTxs slot attempts delays) ∧
      TransactionAnswered env attempts delays
        (requestTransaction env statusText attempts delays) :=
  ⟨blockAnswered_getBlock, transactionAnswered_requestTransaction⟩

end Solarix.Pipeline
