import Solarix.Core.Base64
import Solarix.Core.Batches
import Solarix.Core.Traverse
import Solarix.Pipeline.Rpc

/-!
# Accounts in batches

`get_multiple_accounts`: the keys are sent in batches of a hundred, and an account is given
the key at the place computed from its batch and its place in the reply.  The replies are
whatever the node sends.
-/

namespace Solarix.Pipeline

open Solarix.Core

def maxMultipleAccountsBatch : Nat := 100

/-! ## Replies -/

structure RawAccountInfo where
  data : List String
  lamports : Nat
  owner : String

structure RawGetMultipleAccountsResult where
  value : List (Option RawAccountInfo)

def RawAccountInfo.fromValue (v : Json) : Option RawAccountInfo := do
  let v ← asStruct ["data", "lamports", "owner"] 3 v
  let data ← required "data" (asVec asString) v
  let lamports ← required "lamports" asU64 v
  let owner ← required "owner" asString v
  some ⟨data, lamports, owner⟩

/-- An entry of the reply, `null` for an account that does not exist. -/
def maybeAccount : Json → Option (Option RawAccountInfo)
  | .null => some none
  | v => (RawAccountInfo.fromValue v).map some

def RawGetMultipleAccountsResult.fromValue (v : Json) : Option RawGetMultipleAccountsResult := do
  let v ← asStruct ["value"] 1 v
  let value ← required "value" (asVec maybeAccount) v
  some ⟨value⟩

structure RpcAccountInfo where
  pubkey : String
  data : List UInt8
  lamports : Nat
  owner : String
  deriving DecidableEq, Repr

/-! ## The requests -/

/-- The batches, each with the place of its first key. -/
def batchPubkeys (pubkeys : List String) : List (List String × Nat) :=
  (chunks maxMultipleAccountsBatch pubkeys).zipIdx.map fun (chunk, i) =>
    (chunk, i * maxMultipleAccountsBatch)

section Accounts

-- `reply` is the outcome of the request for the batch that starts at a place.
variable (env : Externs) (base64 : Base64)
  (reply : Nat → Except PipelineError Json) (pubkeys : List String)

def decodeBase64AccountData (data : List String) : Except PipelineError (List UInt8) :=
  match data.head? with
  | none => .error (.rpcFailed "empty account data array")
  | some encoded =>
      match base64.decode encoded with
      | .error e => .error (.rpcFailed s!"base64 decode failed: {e}")
      | .ok bytes => .ok bytes

/-- One turn of the loop over the entries of a reply: the account it pushes, if any. -/
def pushAccount (batchStart : Nat) (entry : Option RawAccountInfo × Nat) :
    Outcome PipelineError (List RpcAccountInfo) :=
  match entry.1 with
  | none => .ok []
  | some raw =>
      match decodeBase64AccountData base64 raw.data with
      | .error e => Outcome.fail e
      | .ok data =>
          match pubkeys[batchStart + entry.2]? with
          | none => Outcome.panic .indexOutOfBounds
          | some pubkey => .ok [⟨pubkey, data, raw.lamports, raw.owner⟩]

def fetchBatch (batch : List String × Nat) : Outcome PipelineError (List RpcAccountInfo) :=
  match reply batch.2 with
  | .error e => Outcome.fail e
  | .ok value =>
      match RawGetMultipleAccountsResult.fromValue value with
      | none =>
          Outcome.fail (.rpcFailed
            s!"getMultipleAccounts response parse failed: {env.serdeError value}")
      | some result =>
          if result.value.length > batch.1.length then
            Outcome.fail (.rpcFailed (s!"getMultipleAccounts returned {result.value.length} " ++
              s!"entries for {batch.1.length} keys"))
          else collect (pushAccount base64 pubkeys batch.2) result.value.zipIdx

def getMultipleAccounts : Outcome PipelineError (List RpcAccountInfo) :=
  collect (fetchBatch env base64 reply pubkeys) (batchPubkeys pubkeys)

end Accounts

def pubkeyBatch (pubkeys : List String) (b : Nat) : List String × Nat :=
  ((pubkeys.drop (b * maxMultipleAccountsBatch)).take maxMultipleAccountsBatch,
    b * maxMultipleAccountsBatch)

theorem batchPubkeys_eq (pubkeys : List String) :
    batchPubkeys pubkeys =
      (List.range (batchCount maxMultipleAccountsBatch pubkeys.length)).map
        (pubkeyBatch pubkeys) := by
  apply List.ext_getElem
  · simp [batchPubkeys, chunks]
  · intro i hi hi'
    simp [batchPubkeys, chunks, pubkeyBatch]

theorem flatMap_batchPubkeys (pubkeys : List String) :
    (batchPubkeys pubkeys).flatMap Prod.fst = pubkeys := by
  have hchunks := flatten_chunks (show 0 < maxMultipleAccountsBatch by decide) pubkeys
  rw [chunks, ← List.flatMap_def] at hchunks
  rw [batchPubkeys_eq, List.flatMap_map]
  exact hchunks

/-! ## What is returned -/

section Transparent

variable (base64 : Base64) (reply : Nat → Except PipelineError Json)
  (pubkeys : List String)

def batchReply (b : Nat) : Option RawGetMultipleAccountsResult :=
  (reply (b * maxMultipleAccountsBatch)).toOption.bind RawGetMultipleAccountsResult.fromValue

/-- The account that the replies hold for a position, `none` where it is absent or the
reply is short. -/
def accountAt (position : Nat) : Option RawAccountInfo :=
  (batchReply reply (position / maxMultipleAccountsBatch)).bind fun result =>
    (result.value[position % maxMultipleAccountsBatch]?).join

def accountInfo (position : Nat) (entry : Option RawAccountInfo) : Option RpcAccountInfo :=
  entry.bind fun raw =>
    (decodeBase64AccountData base64 raw.data).toOption.bind fun data =>
      (pubkeys[position]?).map fun pubkey => ⟨pubkey, data, raw.lamports, raw.owner⟩

def entryFor (position : Nat) : Option RpcAccountInfo :=
  accountInfo base64 pubkeys position (accountAt reply position)

/-- The reply to a batch arrives, is no longer than the batch and can be decoded. -/
structure BatchFits (b : Nat) (result : RawGetMultipleAccountsResult) : Prop where
  reply : batchReply reply b = some result
  short : result.value.length ≤
    min maxMultipleAccountsBatch (pubkeys.length - b * maxMultipleAccountsBatch)
  decodes : ∀ raw, some raw ∈ result.value →
    ∃ data, decodeBase64AccountData base64 raw.data = .ok data

end Transparent

section Pairing

variable {env : Externs} {base64 : Base64}
  {reply : Nat → Except PipelineError Json} {pubkeys : List String}

theorem pushAccount_eq_ok {batchStart : Nat} {entry : Option RawAccountInfo × Nat}
    (hplace : batchStart + entry.2 < pubkeys.length)
    (hdecodes : ∀ raw, entry.1 = some raw →
      ∃ data, decodeBase64AccountData base64 raw.data = .ok data) :
    pushAccount base64 pubkeys batchStart entry =
      .ok (accountInfo base64 pubkeys (batchStart + entry.2) entry.1).toList := by
  obtain ⟨maybe, i⟩ := entry
  cases maybe with
  | none => rfl
  | some raw =>
      obtain ⟨data, hdata⟩ := hdecodes raw rfl
      simp only at hplace
      simp [pushAccount, accountInfo, hdata, List.getElem?_eq_getElem hplace, Except.toOption]

theorem pushAccount_returns {batchStart : Nat} {entry : Option RawAccountInfo × Nat}
    (hplace : batchStart + entry.2 < pubkeys.length) {fault : Fault PipelineError}
    (h : pushAccount base64 pubkeys batchStart entry = .error fault) :
    ∃ e, fault = .error e := by
  obtain ⟨maybe, i⟩ := entry
  cases maybe with
  | none => cases h
  | some raw =>
      simp only at hplace
      unfold pushAccount at h
      simp only [List.getElem?_eq_getElem hplace] at h
      split at h
      · rename_i e _
        cases h
        exact ⟨e, rfl⟩
      · cases h

theorem batchReply_eq_some {b : Nat} {result : RawGetMultipleAccountsResult} :
    batchReply reply b = some result ↔
      ∃ value, reply (b * maxMultipleAccountsBatch) = .ok value ∧
        RawGetMultipleAccountsResult.fromValue value = some result := by
  unfold batchReply
  cases reply (b * maxMultipleAccountsBatch) <;> simp [Except.toOption]

theorem length_pubkeyBatch (pubkeys : List String) (b : Nat) :
    (pubkeyBatch pubkeys b).1.length =
      min maxMultipleAccountsBatch (pubkeys.length - b * maxMultipleAccountsBatch) := by
  rw [pubkeyBatch, List.length_take, List.length_drop]

theorem place_lt {b : Nat} {result : RawGetMultipleAccountsResult}
    (hshort : result.value.length ≤
      min maxMultipleAccountsBatch (pubkeys.length - b * maxMultipleAccountsBatch))
    {entry : Option RawAccountInfo × Nat} (hentry : entry ∈ result.value.zipIdx) :
    b * maxMultipleAccountsBatch + entry.2 < pubkeys.length := by
  have hlt := (List.mem_zipIdx' hentry).1
  omega

theorem accountAt_eq {b i : Nat} (hi : i < maxMultipleAccountsBatch)
    {result : RawGetMultipleAccountsResult} (hreply : batchReply reply b = some result) :
    accountAt reply (b * maxMultipleAccountsBatch + i) = (result.value[i]?).join := by
  have hdiv : (b * maxMultipleAccountsBatch + i) / maxMultipleAccountsBatch = b := by
    unfold maxMultipleAccountsBatch at *
    omega
  have hmod : (b * maxMultipleAccountsBatch + i) % maxMultipleAccountsBatch = i := by
    unfold maxMultipleAccountsBatch at *
    omega
  rw [accountAt, hdiv, hmod, hreply, Option.bind_some]

theorem fetchBatch_eq_ok {b : Nat} {result : RawGetMultipleAccountsResult}
    (hfits : BatchFits base64 reply pubkeys b result) :
    fetchBatch env base64 reply pubkeys (pubkeyBatch pubkeys b) =
      .ok ((List.range' (b * maxMultipleAccountsBatch)
        (min maxMultipleAccountsBatch (pubkeys.length - b * maxMultipleAccountsBatch))).filterMap
          (entryFor base64 reply pubkeys)) := by
  obtain ⟨value, hvalue, hparse⟩ := batchReply_eq_some.mp hfits.reply
  have hshort := hfits.short
  have hlength : ¬ result.value.length > (pubkeyBatch pubkeys b).1.length := by
    rw [length_pubkeyBatch]
    omega
  have hcollect : collect (pushAccount base64 pubkeys (b * maxMultipleAccountsBatch))
        result.value.zipIdx =
      .ok (result.value.zipIdx.flatMap fun entry => (accountInfo base64 pubkeys
        (b * maxMultipleAccountsBatch + entry.2) entry.1).toList) := by
    apply collect_eq_ok
    intro entry hentry
    refine pushAccount_eq_ok (place_lt hshort hentry) ?_
    intro raw hraw
    refine hfits.decodes raw ?_
    rw [← hraw]
    exact List.fst_mem_of_mem_zipIdx hentry
  rw [fetchBatch]
  simp only [show (pubkeyBatch pubkeys b).2 = b * maxMultipleAccountsBatch from rfl, hvalue,
    hparse, if_neg hlength, hcollect]
  congr 1
  rw [flatMap_zipIdx result.value
    (fun i => accountInfo base64 pubkeys (b * maxMultipleAccountsBatch + i))
    (fun _ => rfl) hshort 0]
  rw [← Nat.add_zero (b * maxMultipleAccountsBatch), ← List.map_add_range', List.filterMap_map]
  apply List.filterMap_congr
  intro i hi
  obtain ⟨_, hlt⟩ := List.mem_range'_1.mp hi
  simp only [Nat.add_zero, Nat.sub_zero, Function.comp_apply, entryFor]
  rw [accountAt_eq (by omega) hfits.reply]

theorem batchFits_of_fetchBatch_eq_ok {b : Nat} {accounts : List RpcAccountInfo}
    (h : fetchBatch env base64 reply pubkeys (pubkeyBatch pubkeys b) = .ok accounts) :
    ∃ result, BatchFits base64 reply pubkeys b result := by
  unfold fetchBatch at h
  split at h
  · cases h
  · rename_i value hvalue
    split at h
    · cases h
    · rename_i result hparse
      split at h
      · cases h
      · rename_i hlength
        rw [length_pubkeyBatch] at hlength
        refine ⟨result, batchReply_eq_some.mpr ⟨value, hvalue, hparse⟩, by omega, ?_⟩
        intro raw hraw
        obtain ⟨i, hi, hget⟩ := List.mem_iff_getElem.mp hraw
        have hentry : (some raw, i) ∈ result.value.zipIdx := by
          rw [List.mem_zipIdx_iff_getElem?, List.getElem?_eq_getElem hi, hget]
        obtain ⟨pushed, hpushed⟩ := exists_of_collect_eq_ok h (some raw, i) hentry
        unfold pushAccount at hpushed
        simp only at hpushed
        split at hpushed
        · cases hpushed
        · rename_i data hdata
          exact ⟨data, hdata⟩

theorem fetchBatch_returns {b : Nat} {fault : Fault PipelineError}
    (h : fetchBatch env base64 reply pubkeys (pubkeyBatch pubkeys b) = .error fault) :
    ∃ e, fault = .error e := by
  unfold fetchBatch at h
  split at h
  · rename_i e _
    cases h
    exact ⟨e, rfl⟩
  · split at h
    · cases h
      exact ⟨_, rfl⟩
    · rename_i result _
      split at h
      · cases h
        exact ⟨_, rfl⟩
      · rename_i hlength
        rw [length_pubkeyBatch] at hlength
        obtain ⟨entry, hentry, hfault⟩ := exists_of_collect_eq_error h
        exact pushAccount_returns (place_lt (by omega) hentry) hfault

theorem isSome_entryFor {position : Nat} (hposition : position < pubkeys.length)
    (hdecodes : ∀ raw, accountAt reply position = some raw →
      ∃ data, decodeBase64AccountData base64 raw.data = .ok data) :
    (entryFor base64 reply pubkeys position).isSome =
      (accountAt reply position).isSome := by
  unfold entryFor
  cases haccount : accountAt reply position with
  | none => rfl
  | some raw =>
      obtain ⟨data, hdata⟩ := hdecodes raw haccount
      simp [accountInfo, hdata, Except.toOption, List.getElem?_eq_getElem hposition]

theorem accountAt_decodes {position : Nat}
    (hfits : ∃ result, BatchFits base64 reply pubkeys
      (position / maxMultipleAccountsBatch) result) {raw : RawAccountInfo}
    (h : accountAt reply position = some raw) :
    ∃ data, decodeBase64AccountData base64 raw.data = .ok data := by
  obtain ⟨result, hfits⟩ := hfits
  rw [accountAt, hfits.reply, Option.bind_some, Option.join_eq_some_iff] at h
  exact hfits.decodes raw (List.mem_of_getElem? h)

end Pairing

/-- When every reply fits its batch, each position with an account gives one entry, under the
key of that position, in the order of the keys.  Otherwise the call ends with an error, and
never with an access outside the keys. -/
theorem get_multiple_accounts_transparent (env : Externs) (base64 : Base64)
    (reply : Nat → Except PipelineError Json) (pubkeys : List String) :
    (batchPubkeys pubkeys).flatMap Prod.fst = pubkeys ∧
    ((∀ b < batchCount maxMultipleAccountsBatch pubkeys.length,
        ∃ result, BatchFits base64 reply pubkeys b result) →
      getMultipleAccounts env base64 reply pubkeys =
          .ok ((List.range pubkeys.length).filterMap (entryFor base64 reply pubkeys)) ∧
        ∀ position < pubkeys.length,
          (entryFor base64 reply pubkeys position).isSome =
            (accountAt reply position).isSome) ∧
    ((∃ b < batchCount maxMultipleAccountsBatch pubkeys.length,
        ¬ ∃ result, BatchFits base64 reply pubkeys b result) →
      ∃ e, getMultipleAccounts env base64 reply pubkeys = Outcome.fail e) := by
  have hpositive : 0 < maxMultipleAccountsBatch := by decide
  refine ⟨flatMap_batchPubkeys pubkeys, ?_, ?_⟩
  · intro hfits
    constructor
    · rw [getMultipleAccounts, batchPubkeys_eq, range_eq_flatMap hpositive pubkeys.length,
        List.filterMap_flatMap]
      have hbatch : ∀ batch ∈ (List.range (batchCount maxMultipleAccountsBatch
            pubkeys.length)).map (pubkeyBatch pubkeys),
          fetchBatch env base64 reply pubkeys batch =
            .ok ((List.range' batch.2 (min maxMultipleAccountsBatch
              (pubkeys.length - batch.2))).filterMap (entryFor base64 reply pubkeys)) := by
        rw [List.forall_mem_map]
        intro b hb
        obtain ⟨result, hresult⟩ := hfits b (List.mem_range.mp hb)
        exact fetchBatch_eq_ok hresult
      rw [collect_eq_ok hbatch, List.flatMap_map]
      rfl
    · intro position hposition
      have hb : position / maxMultipleAccountsBatch <
          batchCount maxMultipleAccountsBatch pubkeys.length := by
        unfold batchCount maxMultipleAccountsBatch
        omega
      exact isSome_entryFor hposition fun raw hraw => accountAt_decodes (hfits _ hb) hraw
  · rintro ⟨b, hb, hnot⟩
    cases hcall : getMultipleAccounts env base64 reply pubkeys with
    | ok accounts =>
        rw [getMultipleAccounts, batchPubkeys_eq] at hcall
        have hmem : pubkeyBatch pubkeys b ∈ (List.range (batchCount maxMultipleAccountsBatch
            pubkeys.length)).map (pubkeyBatch pubkeys) :=
          List.mem_map_of_mem (List.mem_range.mpr hb)
        obtain ⟨accounts, haccounts⟩ := exists_of_collect_eq_ok hcall _ hmem
        exact absurd (batchFits_of_fetchBatch_eq_ok haccounts) hnot
    | error fault =>
        rw [getMultipleAccounts, batchPubkeys_eq] at hcall
        obtain ⟨batch, hbatch, hfault⟩ := exists_of_collect_eq_error hcall
        obtain ⟨b', _, rfl⟩ := List.mem_map.mp hbatch
        obtain ⟨e, rfl⟩ := fetchBatch_returns hfault
        exact ⟨e, rfl⟩

def secondAccount : Nat → Except PipelineError Json := fun _ =>
  .ok (.obj [("value", .arr [.null, .obj [("data", .arr [.str "AQI=", .str "base64"]),
    ("lamports", .int 5), ("owner", .str "o")]])])

def numberedKeys (n : Nat) : List String := (List.range n).map toString

/-- Of 102 keys the accounts are those of the places 1 and 101; of 101 keys the second batch has
one, and its reply is too long. -/
theorem get_multiple_accounts_transparent_pair :
    getMultipleAccounts Externs.minimal .standard secondAccount (numberedKeys 102) =
        .ok [⟨"1", [1, 2], 5, "o"⟩, ⟨"101", [1, 2], 5, "o"⟩] ∧
      ∃ e, getMultipleAccounts Externs.minimal .standard secondAccount (numberedKeys 101) =
        Outcome.fail e := by
  have hlong := get_multiple_accounts_transparent Externs.minimal .standard secondAccount
    (numberedKeys 102)
  have hshort := get_multiple_accounts_transparent Externs.minimal .standard secondAccount
    (numberedKeys 101)
  have hreply : ∀ b, batchReply secondAccount b =
      some ⟨[none, some ⟨["AQI=", "base64"], 5, "o"⟩]⟩ := fun _ => rfl
  constructor
  · refine (hlong.2.1 ?_).1.trans (congrArg Except.ok (by decide +kernel))
    intro b hb
    have hfits : b = 0 ∨ b = 1 := by
      change b < 2 at hb
      omega
    refine ⟨_, hreply b, ?_, ?_⟩
    · rcases hfits with rfl | rfl <;> decide
    · intro raw hraw
      simp only [List.mem_cons, reduceCtorEq, Option.some.injEq, List.not_mem_nil, or_false,
        false_or] at hraw
      subst hraw
      exact ⟨[1, 2], rfl⟩
  · refine hshort.2.2 ⟨1, by decide, ?_⟩
    rintro ⟨result, hfits⟩
    have hsame := hfits.reply
    rw [hreply] at hsame
    cases hsame
    exact absurd hfits.short (by decide)

end Solarix.Pipeline
