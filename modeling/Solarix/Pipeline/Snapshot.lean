import Solarix.Decoder.Program
import Solarix.Pipeline.AccountBatches
import Solarix.Storage.AccountWrites

/-!
# Account snapshots

`run_account_snapshot`: the keys of the program's accounts, the slot, the accounts in batches,
one decoding after another with a look at the cancellation token, and the writes in batches of
a thousand until one fails.  What the node and the database answer, and when the token is
cancelled, is whatever it is.
-/

namespace Solarix.Pipeline

open Solarix.Core
open Solarix.Decoder (DecodeError)
open Solarix.Storage

/-- `decode_account` of a `SolarixDecoder` for a fixed program and IDL.  It gives an account
the key that it is called with. -/
structure AccountDecoder where
  decode : String → List UInt8 → Outcome DecodeError DecodedAccount
  pubkey : ∀ pubkey data account, decode pubkey data = .ok account → account.pubkey = pubkey

def chainparserAccounts (env : Externs) (programId : String) (idl : Idl) : AccountDecoder where
  decode pubkey data :=
    if h : data.length ≤ isizeMax then
      (Decoder.ChainparserDecoder.new.decodeAccount env programId pubkey ⟨data, h⟩ idl).1
    else Outcome.panic .capacityOverflow
  pubkey := by
    intro pubkey data account h
    split at h
    · rw [Decoder.ChainparserDecoder.decodeAccount_fst] at h
      obtain ⟨found, _, h⟩ := Outcome.bind_eq_ok.mp h
      unfold Decoder.ChainparserDecoder.decodeAccountData at h
      obtain ⟨typedef, _, h⟩ := Outcome.bind_eq_ok.mp h
      obtain ⟨_, _, h⟩ := Outcome.bind_eq_ok.mp h
      dsimp only at h
      split at h
      · cases h
      obtain ⟨decoded, _, h⟩ := Outcome.bind_eq_ok.mp h
      obtain ⟨_, _, h⟩ := Outcome.bind_eq_ok.mp h
      cases h
      rfl
    · cases h

def rawProgramAccount (v : Json) : Option String :=
  (asStruct ["pubkey"] 1 v).bind (required "pubkey" asString)

def accountWriteBatch : Nat := 1000

/-- One call of `run_account_snapshot`.  `isCancelled` is what the loop sees of the token before
it decodes an account; clock, order of the hash map and faults are those of each write. -/
structure Snapshot where
  schemaName : String
  programAccounts : Except PipelineError Json
  slot : Except PipelineError Json
  accountReply : Nat → Except PipelineError Json
  isCancelled : Nat → Bool
  clock : Nat → Int
  order : Nat → List (String × List DecodedAccount) → List (String × List DecodedAccount)
  order_perm : ∀ i groups, (order i groups).Perm groups
  faults : Nat → AccountFaults

section Snapshots

variable (env : Externs) (base64 : Base64) (decoder : AccountDecoder)

def getProgramAccounts (reply : Except PipelineError Json) : Except PipelineError (List String) :=
  match reply with
  | .error e => .error e
  | .ok value =>
      match asVec rawProgramAccount value with
      | none => .error (.rpcFailed
          s!"getProgramAccounts response parse failed: {env.serdeError value}")
      | some pubkeys => .ok pubkeys

def getSlot (reply : Except PipelineError Json) : Except PipelineError Nat :=
  match reply with
  | .error e => .error e
  | .ok value =>
      match asU64 value with
      | none => .error (.rpcFailed s!"getSlot response parse failed: {env.serdeError value}")
      | some slot => .ok slot

def snapshotAccount (currentSlot : Nat) (info : RpcAccountInfo) (account : DecodedAccount) :
    DecodedAccount :=
  { account with slotUpdated := currentSlot, lamports := info.lamports }

/-- The decoding loop from the `i`-th account on; `none` when it sees the cancellation.  An
account that does not decode is skipped. -/
def decodeInfos (currentSlot : Nat) (isCancelled : Nat → Bool) :
    Nat → List RpcAccountInfo → List DecodedAccount →
      Outcome PipelineError (Option (List DecodedAccount))
  | _, [], decoded => .ok (some decoded)
  | i, info :: infos, decoded =>
      if isCancelled i then .ok none
      else
        match decoder.decode info.pubkey info.data with
        | .ok account => decodeInfos currentSlot isCancelled (i + 1) infos
            (decoded ++ [snapshotAccount currentSlot info account])
        | .error (.error _) => decodeInfos currentSlot isCancelled (i + 1) infos decoded
        | .error (.panic p) => Outcome.panic p

def lift {α : Type} : Except PipelineError α → Outcome PipelineError α
  | .ok a => .ok a
  | .error e => Outcome.fail e

/-- The first half of the snapshot: the slot and the accounts to write, `none` where there are
no keys or the loop is cancelled. -/
def Snapshot.read (snapshot : Snapshot) :
    Outcome PipelineError (Option (Nat × List DecodedAccount)) := do
  let pubkeys ← lift (getProgramAccounts env snapshot.programAccounts)
  if pubkeys.isEmpty then .ok none
  else
    let currentSlot ← lift (getSlot env snapshot.slot)
    let infos ← getMultipleAccounts env base64 snapshot.accountReply pubkeys
    let decoded ← decodeInfos decoder currentSlot snapshot.isCancelled 0 infos []
    .ok (decoded.map (currentSlot, ·))

def Snapshot.call (snapshot : Snapshot) (currentSlot : Nat) (batch : List DecodedAccount)
    (i : Nat) : AccountsCall where
  schemaName := snapshot.schemaName
  accounts := batch
  slot := currentSlot
  now := snapshot.clock i
  groups := snapshot.order i (groupByType batch)
  iteration := snapshot.order_perm i (groupByType batch)
  faults := snapshot.faults i

def Snapshot.calls (snapshot : Snapshot) (currentSlot : Nat) (decoded : List DecodedAccount) :
    List AccountsCall :=
  (chunks accountWriteBatch decoded).zipIdx.map fun batch =>
    snapshot.call currentSlot batch.1 batch.2

variable {pg : PgCasts} (catalogue : Catalogue) (defaults : String → String → Row pg)

def writeAll : PromotedCache → AccountDb pg → List AccountsCall →
    Outcome PipelineError Unit × PromotedCache × AccountDb pg
  | cache, db, [] => (.ok (), cache, db)
  | cache, db, call :: calls =>
      match call.run catalogue defaults cache db with
      | (.ok _, cache, db) => writeAll cache db calls
      | (.error e, cache, db) => (Outcome.fail (.storage e.display), cache, db)

def Snapshot.run (snapshot : Snapshot) (cache : PromotedCache) (db : AccountDb pg) :
    Outcome PipelineError Unit × PromotedCache × AccountDb pg :=
  match snapshot.read env base64 decoder with
  | .error fault => (.error fault, cache, db)
  | .ok none => (.ok (), cache, db)
  | .ok (some (currentSlot, decoded)) =>
      writeAll catalogue defaults cache db (snapshot.calls currentSlot decoded)

def runSnapshots : PromotedCache → AccountDb pg → List Snapshot →
    List (Outcome PipelineError Unit) × PromotedCache × AccountDb pg
  | cache, db, [] => ([], cache, db)
  | cache, db, snapshot :: snapshots =>
      let (result, cache, db) := snapshot.run env base64 decoder catalogue defaults cache db
      let (results, final) := runSnapshots cache db snapshots
      (result :: results, final)

def snapshotVersion (currentSlot : Nat) (info : RpcAccountInfo) : Option DecodedAccount :=
  match decoder.decode info.pubkey info.data with
  | .ok account => some (snapshotAccount currentSlot info account)
  | .error _ => none

/-- The accounts that the replies hold and that decode, in the order of the keys, whether or not
the loop is cancelled. -/
def Snapshot.accountsRead (snapshot : Snapshot) : List DecodedAccount :=
  match getProgramAccounts env snapshot.programAccounts, getSlot env snapshot.slot with
  | .ok pubkeys, .ok currentSlot =>
      (List.range pubkeys.length).filterMap fun position =>
        (entryFor base64 snapshot.accountReply pubkeys position).bind
          (snapshotVersion decoder currentSlot)
  | _, _ => []

/-- The run ends before it writes, at the cancellation. -/
def Snapshot.Cancelled (snapshot : Snapshot) : Prop :=
  snapshot.read env base64 decoder = .ok none ∧
    getProgramAccounts env snapshot.programAccounts ≠ .ok []

end Snapshots

/-! ## What is read -/

section Reading

variable {env : Externs} {base64 : Base64} {decoder : AccountDecoder}
  {reply : Nat → Except PipelineError Json} {pubkeys : List String}

theorem getMultipleAccounts_eq_ok {infos : List RpcAccountInfo}
    (h : getMultipleAccounts env base64 reply pubkeys = .ok infos) :
    infos = (List.range pubkeys.length).filterMap (entryFor base64 reply pubkeys) := by
  rw [getMultipleAccounts, batchPubkeys_eq] at h
  have hbatch : ∀ batch ∈ (List.range (batchCount maxMultipleAccountsBatch
        pubkeys.length)).map (pubkeyBatch pubkeys),
      fetchBatch env base64 reply pubkeys batch =
        .ok ((List.range' batch.2 (min maxMultipleAccountsBatch
          (pubkeys.length - batch.2))).filterMap (entryFor base64 reply pubkeys)) := by
    intro batch hmem
    obtain ⟨accounts, haccounts⟩ := exists_of_collect_eq_ok h batch hmem
    obtain ⟨b, _, rfl⟩ := List.mem_map.mp hmem
    obtain ⟨result, hfits⟩ := batchFits_of_fetchBatch_eq_ok haccounts
    exact fetchBatch_eq_ok hfits
  rw [collect_eq_ok hbatch, List.flatMap_map] at h
  have hpositive : 0 < maxMultipleAccountsBatch := by decide
  rw [range_eq_flatMap hpositive pubkeys.length, List.filterMap_flatMap]
  exact (Except.ok.inj h).symm

theorem pubkey_of_entryFor {position : Nat} {info : RpcAccountInfo}
    (h : entryFor base64 reply pubkeys position = some info) :
    pubkeys[position]? = some info.pubkey := by
  simp only [entryFor, accountInfo, Option.bind_eq_some_iff, Option.map_eq_some_iff] at h
  obtain ⟨raw, _, data, _, pubkey, hpubkey, rfl⟩ := h
  exact hpubkey

theorem pubkey_of_snapshotVersion {currentSlot : Nat} {info : RpcAccountInfo}
    {account : DecodedAccount} (h : snapshotVersion decoder currentSlot info = some account) :
    account.pubkey = info.pubkey := by
  unfold snapshotVersion at h
  split at h
  · rename_i decoded hdecode
    cases h
    exact decoder.pubkey _ _ decoded hdecode
  · cases h

theorem decodeInfos_eq_ok {currentSlot i : Nat} {isCancelled : Nat → Bool}
    {infos : List RpcAccountInfo} {before decoded : List DecodedAccount}
    (h : decodeInfos decoder currentSlot isCancelled i infos before = .ok (some decoded)) :
    decoded = before ++ infos.filterMap (snapshotVersion decoder currentSlot) := by
  induction infos generalizing i before with
  | nil =>
      cases h
      simp
  | cons info infos ih =>
      rw [decodeInfos] at h
      split at h
      · cases h
      split at h
      · rename_i account hdecode
        have hversion : snapshotVersion decoder currentSlot info =
            some (snapshotAccount currentSlot info account) := by
          rw [snapshotVersion, hdecode]
        rw [ih h, List.filterMap_cons_some hversion, List.append_assoc, List.singleton_append]
      · rename_i e hdecode
        have hversion : snapshotVersion decoder currentSlot info = none := by
          rw [snapshotVersion, hdecode]
        rw [ih h, List.filterMap_cons_none hversion]
      · cases h

theorem lift_eq_ok {α : Type} {x : Except PipelineError α} {a : α} (h : lift x = .ok a) :
    x = .ok a := by
  cases x with
  | ok b =>
      cases h
      rfl
  | error e => cases h

theorem accountsRead_of_read {snapshot : Snapshot} {currentSlot : Nat}
    {decoded : List DecodedAccount}
    (h : snapshot.read env base64 decoder = .ok (some (currentSlot, decoded))) :
    snapshot.accountsRead env base64 decoder = decoded := by
  unfold Snapshot.read at h
  obtain ⟨pubkeys, hpubkeys, h⟩ := Outcome.bind_eq_ok.mp h
  split at h
  · cases h
  obtain ⟨slot, hslot, h⟩ := Outcome.bind_eq_ok.mp h
  obtain ⟨infos, hinfos, h⟩ := Outcome.bind_eq_ok.mp h
  obtain ⟨maybe, hmaybe, h⟩ := Outcome.bind_eq_ok.mp h
  obtain ⟨found, rfl, hpair⟩ := Option.map_eq_some_iff.mp (Except.ok.inj h)
  obtain ⟨rfl, rfl⟩ := Prod.mk.inj hpair
  rw [Snapshot.accountsRead, lift_eq_ok hpubkeys, lift_eq_ok hslot, decodeInfos_eq_ok hmaybe,
    getMultipleAccounts_eq_ok hinfos, List.nil_append, List.filterMap_filterMap]

theorem accountsRead_eq_nil {snapshot : Snapshot}
    (h : snapshot.read env base64 decoder = .ok none)
    (hcancelled : ¬ snapshot.Cancelled env base64 decoder) :
    snapshot.accountsRead env base64 decoder = [] := by
  have hkeys : getProgramAccounts env snapshot.programAccounts = .ok [] := by
    by_contra hkeys
    exact hcancelled ⟨h, hkeys⟩
  rw [Snapshot.accountsRead, hkeys]
  split
  · rename_i pubkeys _ hpubkeys _
    cases hpubkeys
    rfl
  · rfl

theorem distinct_accountsRead {snapshot : Snapshot}
    (hkeys : ∀ pubkeys, getProgramAccounts env snapshot.programAccounts = .ok pubkeys →
      pubkeys.Nodup) :
    ((snapshot.accountsRead env base64 decoder).map DecodedAccount.pubkey).Nodup := by
  unfold Snapshot.accountsRead
  split
  · rename_i pubkeys currentSlot hpubkeys _
    refine List.Sublist.nodup ?_ (hkeys pubkeys hpubkeys)
    conv_rhs => rw [← filterMap_getElem?_range pubkeys]
    rw [List.map_filterMap]
    apply filterMap_sublist
    intro position _ pubkey hpubkey
    obtain ⟨account, haccount, rfl⟩ := Option.map_eq_some_iff.mp hpubkey
    obtain ⟨info, hinfo, hversion⟩ := Option.bind_eq_some_iff.mp haccount
    rw [pubkey_of_snapshotVersion hversion]
    exact pubkey_of_entryFor hinfo
  · exact List.nodup_nil

end Reading

/-! ## What is written -/

section Writing

variable {env : Externs} {base64 : Base64} {decoder : AccountDecoder}
  {pg : PgCasts} {catalogue : Catalogue} {defaults : String → String → Row pg}
  {cache : PromotedCache} {db : AccountDb pg}

theorem holds_writeAll {calls : List AccountsCall}
    (hfit : ∀ call ∈ calls, AccountsFit call.accounts) (hagrees : CacheAgrees catalogue cache)
    {before : List AccountsCall} (hholds : HoldsWritten catalogue defaults db.tables before) :
    CacheAgrees catalogue (writeAll catalogue defaults cache db calls).2.1 ∧
      ∃ committed, committed <+: calls ∧
        HoldsWritten catalogue defaults (writeAll catalogue defaults cache db calls).2.2.tables
          (before ++ committed) ∧
        ((writeAll catalogue defaults cache db calls).1 = .ok () → committed = calls) := by
  induction calls generalizing cache db before with
  | nil => exact ⟨hagrees, [], List.prefix_rfl, by simpa [writeAll] using hholds, fun _ => rfl⟩
  | cons call calls ih =>
      rw [List.forall_mem_cons] at hfit
      have hnext : CacheAgrees catalogue (call.run catalogue defaults cache db).2.1 :=
        cacheAgrees_run hagrees db
      obtain ⟨answer, cache', db', hrun⟩ : ∃ answer cache' db',
          call.run catalogue defaults cache db = (answer, cache', db') := ⟨_, _, _, rfl⟩
      rw [hrun] at hnext
      have hcases := holds_run hfit.1 hagrees hholds
      rw [hrun] at hcases
      rcases hcases with ⟨result, rfl, hwritten⟩ | ⟨e, rfl, rfl⟩
      · obtain ⟨hcache, committed, hprefix, hholds', hall⟩ := ih hfit.2 hnext hwritten
        rw [writeAll, hrun]
        refine ⟨hcache, call :: committed, List.cons_prefix_cons.mpr ⟨rfl, hprefix⟩, ?_, ?_⟩
        · simpa using hholds'
        · exact fun hok => congrArg (call :: ·) (hall hok)
      · rw [writeAll, hrun]
        exact ⟨hnext, [], List.nil_prefix, by simpa using hholds, nofun⟩

theorem flatMap_calls (snapshot : Snapshot) (currentSlot : Nat) (decoded : List DecodedAccount) :
    (snapshot.calls currentSlot decoded).flatMap AccountsCall.accounts = decoded := by
  have haccounts : (snapshot.calls currentSlot decoded).map AccountsCall.accounts =
      chunks accountWriteBatch decoded := by
    rw [Snapshot.calls, List.map_map]
    exact List.zipIdx_map_fst 0 _
  have hpositive : 0 < accountWriteBatch := by decide
  rw [List.flatMap_def, haccounts, flatten_chunks hpositive]

theorem accountsFit_calls {snapshot : Snapshot} {currentSlot : Nat}
    {decoded : List DecodedAccount} (h : AccountsFit decoded) :
    ∀ call ∈ snapshot.calls currentSlot decoded, AccountsFit call.accounts := by
  intro call hcall
  obtain ⟨⟨batch, i⟩, hbatch, rfl⟩ := List.mem_map.mp hcall
  have hsub := sublist_of_mem_chunks (List.fst_mem_of_mem_zipIdx hbatch)
  exact ⟨(hsub.map _).nodup h.distinct, fun account haccount =>
    h.signed account (hsub.subset haccount)⟩

/-- A snapshot writes the accounts that it read up to some place: all of them where it returns
`Ok` and is not cancelled, and none where it is. -/
theorem holds_snapshot {snapshot : Snapshot}
    (hfit : AccountsFit (snapshot.accountsRead env base64 decoder))
    (hagrees : CacheAgrees catalogue cache) {before : List AccountsCall}
    (hholds : HoldsWritten catalogue defaults db.tables before) :
    CacheAgrees catalogue
        (snapshot.run env base64 decoder catalogue defaults cache db).2.1 ∧
      ∃ committed, (∀ call ∈ committed, call.schemaName = snapshot.schemaName) ∧
        (∀ call ∈ committed, AccountsFit call.accounts) ∧
        committed.flatMap AccountsCall.accounts <+:
          snapshot.accountsRead env base64 decoder ∧
        HoldsWritten catalogue defaults
          (snapshot.run env base64 decoder catalogue defaults cache db).2.2.tables
          (before ++ committed) ∧
        ((snapshot.run env base64 decoder catalogue defaults cache db).1 = .ok () →
          ¬ snapshot.Cancelled env base64 decoder →
          committed.flatMap AccountsCall.accounts =
            snapshot.accountsRead env base64 decoder) ∧
        (snapshot.Cancelled env base64 decoder → committed = []) := by
  unfold Snapshot.run
  cases hread : snapshot.read env base64 decoder with
  | error fault =>
      exact ⟨hagrees, [], List.forall_mem_nil _, List.forall_mem_nil _, List.nil_prefix,
        by simpa using hholds, nofun, fun _ => rfl⟩
  | ok maybe =>
      cases maybe with
      | none =>
          exact ⟨hagrees, [], List.forall_mem_nil _, List.forall_mem_nil _, List.nil_prefix,
            by simpa using hholds, fun _ hcancelled => (accountsRead_eq_nil hread hcancelled).symm,
            fun _ => rfl⟩
      | some found =>
          obtain ⟨currentSlot, decoded⟩ := found
          rw [accountsRead_of_read hread] at hfit ⊢
          have hcalls : ∀ call ∈ snapshot.calls currentSlot decoded, AccountsFit call.accounts :=
            accountsFit_calls hfit
          obtain ⟨hcache, committed, hprefix, hwritten, hall⟩ :=
            holds_writeAll hcalls hagrees hholds
          have hmem : ∀ call ∈ committed, call ∈ snapshot.calls currentSlot decoded :=
            fun call hcall => hprefix.subset hcall
          refine ⟨hcache, committed, ?_, fun call hcall => hcalls call (hmem call hcall), ?_,
            hwritten, ?_, ?_⟩
          · intro call hcall
            obtain ⟨_, _, rfl⟩ := List.mem_map.mp (hmem call hcall)
            rfl
          · obtain ⟨rest, hrest⟩ := hprefix
            refine ⟨rest.flatMap AccountsCall.accounts, ?_⟩
            rw [← List.flatMap_append, hrest, flatMap_calls]
          · intro hok _
            rw [hall hok, flatMap_calls]
          · intro hcancelled
            cases hread.symm.trans hcancelled.1

structure Commits (env : Externs) (base64 : Base64) (decoder : AccountDecoder)
    (snapshot : Snapshot × Outcome PipelineError Unit) (committed : List AccountsCall) :
    Prop where
  schemaName : ∀ call ∈ committed, call.schemaName = snapshot.1.schemaName
  fit : ∀ call ∈ committed, AccountsFit call.accounts
  accounts : committed.flatMap AccountsCall.accounts <+:
    snapshot.1.accountsRead env base64 decoder
  complete : snapshot.2 = .ok () → ¬ snapshot.1.Cancelled env base64 decoder →
    committed.flatMap AccountsCall.accounts = snapshot.1.accountsRead env base64 decoder
  cancelled : snapshot.1.Cancelled env base64 decoder → committed = []

theorem holds_runSnapshots {snapshots : List Snapshot}
    (hfit : ∀ snapshot ∈ snapshots, AccountsFit (snapshot.accountsRead env base64 decoder))
    (hagrees : CacheAgrees catalogue cache) {before : List AccountsCall}
    (hholds : HoldsWritten catalogue defaults db.tables before) :
    ∃ committed, List.Forall₂ (Commits env base64 decoder)
        (snapshots.zip
          (runSnapshots env base64 decoder catalogue defaults cache db snapshots).1)
        committed ∧
      HoldsWritten catalogue defaults
        (runSnapshots env base64 decoder catalogue defaults cache db snapshots).2.2.tables
        (before ++ committed.flatten) := by
  induction snapshots generalizing cache db before with
  | nil => exact ⟨[], .nil, by simpa [runSnapshots] using hholds⟩
  | cons snapshot snapshots ih =>
      rw [List.forall_mem_cons] at hfit
      obtain ⟨hcache, committed, hschema, hcommitted, hprefix, hwritten, hall, hnone⟩ :=
        holds_snapshot hfit.1 hagrees hholds
      obtain ⟨rest, hrest, hfinal⟩ := ih hfit.2 hcache hwritten
      refine ⟨committed :: rest, .cons ⟨hschema, hcommitted, hprefix, hall, hnone⟩ hrest, ?_⟩
      simp only [runSnapshots]
      rwa [List.flatten_cons, ← List.append_assoc]

def writtenTo (snapshots : List Snapshot) (written : List (List DecodedAccount))
    (schemaName tableName : String) : List DecodedAccount :=
  ((snapshots.zip written).filter fun p => p.1.schemaName = schemaName).flatMap fun p =>
    accountsFor tableName p.2

theorem accountsWritten_flatten {snapshots : List Snapshot}
    {results : List (Outcome PipelineError Unit)} {committed : List (List AccountsCall)}
    (h : List.Forall₂ (Commits env base64 decoder) (snapshots.zip results) committed)
    (hlength : snapshots.length = results.length) (schemaName tableName : String) :
    accountsWritten committed.flatten schemaName tableName =
      writtenTo snapshots (committed.map fun calls => calls.flatMap AccountsCall.accounts)
        schemaName tableName := by
  induction snapshots generalizing results committed with
  | nil =>
      cases h
      rfl
  | cons snapshot snapshots ih =>
      cases results with
      | nil => cases hlength
      | cons result results =>
          rw [List.zip_cons_cons] at h
          cases h with
          | @cons _ calls _ rest hcalls hrest =>
              have htail := ih hrest (Nat.succ.inj hlength)
              have hhead : accountsWritten calls schemaName tableName =
                  if snapshot.schemaName = schemaName then
                    accountsFor tableName (calls.flatMap AccountsCall.accounts) else [] := by
                unfold accountsWritten
                split
                · rename_i hname
                  rw [List.filter_eq_self.mpr fun call hcall => by
                    simpa [hname] using hcalls.schemaName call hcall]
                  exact List.filter_flatMap.symm
                · rename_i hname
                  rw [List.filter_eq_nil_iff.mpr fun call hcall => by
                    simpa [hcalls.schemaName call hcall] using hname]
                  rfl
              have happend : accountsWritten (calls ++ rest.flatten) schemaName tableName =
                  accountsWritten calls schemaName tableName ++
                    accountsWritten rest.flatten schemaName tableName := by
                unfold accountsWritten
                rw [List.filter_append, List.flatMap_append]
              rw [List.flatten_cons, happend, hhead, htail, List.map_cons, writtenTo, writtenTo,
                List.zip_cons_cons, List.filter_cons]
              by_cases hname : snapshot.schemaName = schemaName <;> simp [hname]

theorem length_runSnapshots (snapshots : List Snapshot) (cache : PromotedCache)
    (db : AccountDb pg) :
    (runSnapshots env base64 decoder catalogue defaults cache db snapshots).1.length =
      snapshots.length := by
  induction snapshots generalizing cache db with
  | nil => rfl
  | cons snapshot snapshots ih =>
      simp only [runSnapshots, List.length_cons]
      rw [ih]

end Writing

/-- Snapshots keep the newest version of each account.  Over any snapshots, each of them cut off
by the node, the database or the cancellation at any place, what a snapshot has written is a
front of the accounts that it read: nothing where it is cancelled, and else all of them where it
returns `Ok`.  Each row is the first-written version of the greatest slot; and so an account that
such a complete snapshot read is found with at least the slot of that snapshot.  The node lists
no key twice, and slots and lamports are `i64`. -/
theorem account_snapshots_keep_newest (env : Externs) (base64 : Base64)
    (decoder : AccountDecoder) {pg : PgCasts} (catalogue : Catalogue)
    (defaults : String → String → Row pg) (snapshots : List Snapshot)
    (hkeys : ∀ snapshot ∈ snapshots, ∀ pubkeys,
      getProgramAccounts env snapshot.programAccounts = .ok pubkeys → pubkeys.Nodup)
    (hsigned : ∀ snapshot ∈ snapshots,
      ∀ account ∈ snapshot.accountsRead env base64 decoder, Signed account) :
    let run := runSnapshots env base64 decoder catalogue defaults (fun _ => none) .empty
      snapshots
    ∃ written : List (List DecodedAccount),
      List.Forall₂ (fun (snapshot : Snapshot × Outcome PipelineError Unit) accounts =>
          accounts <+: snapshot.1.accountsRead env base64 decoder ∧
            (snapshot.2 = .ok () → ¬ snapshot.1.Cancelled env base64 decoder →
              accounts = snapshot.1.accountsRead env base64 decoder) ∧
            (snapshot.1.Cancelled env base64 decoder → accounts = []))
        (snapshots.zip run.1) written ∧
      (∀ schemaName tableName table, catalogue.table schemaName tableName = some table →
        ∀ pubkey,
          (run.2.2.tables schemaName tableName pubkey = none ∧
              versionsOf pubkey (writtenTo snapshots written schemaName tableName) = []) ∨
            ∃ row version, run.2.2.tables schemaName tableName pubkey = some row ∧
              FirstNewest DecodedAccount.slotUpdated
                (versionsOf pubkey (writtenTo snapshots written schemaName tableName)) version ∧
              Shows (discoverPromotedColumns table) (defaults schemaName tableName) row version) ∧
      ∀ snapshot, (snapshot, .ok ()) ∈ snapshots.zip run.1 →
        ¬ snapshot.Cancelled env base64 decoder →
        ∀ account ∈ snapshot.accountsRead env base64 decoder, ∀ table,
          catalogue.table snapshot.schemaName (sanitizeIdentifier account.accountType) =
              some table →
            ∃ row slot, run.2.2.tables snapshot.schemaName
                (sanitizeIdentifier account.accountType) account.pubkey = some row ∧
              row "slot_updated" = .bigint slot ∧ (account.slotUpdated : Int) ≤ slot := by
  intro run
  have hfit : ∀ snapshot ∈ snapshots,
      AccountsFit (snapshot.accountsRead env base64 decoder) :=
    fun snapshot hmem => ⟨distinct_accountsRead (hkeys snapshot hmem), hsigned snapshot hmem⟩
  have hempty : HoldsWritten catalogue defaults (AccountDb.empty : AccountDb pg).tables [] :=
    fun _ _ _ _ _ => .none
  obtain ⟨committed, hcommits, hholds⟩ := holds_runSnapshots hfit coherent_empty hempty
  rw [List.nil_append] at hholds
  have hcalls : ∀ call ∈ committed.flatten, AccountsFit call.accounts := by
    intro call hcall
    obtain ⟨calls, hmem, hcall⟩ := List.mem_flatten.mp hcall
    obtain ⟨_, _, hdone⟩ := exists_of_mem_forall₂ hcommits.flip hmem
    exact hdone.fit call hcall
  refine ⟨committed.map fun calls => calls.flatMap AccountsCall.accounts, ?_, ?_, ?_⟩
  · rw [List.forall₂_map_right_iff]
    refine hcommits.imp fun snapshot calls h => ⟨h.accounts, h.complete, fun hcancelled => ?_⟩
    rw [h.cancelled hcancelled, List.flatMap_nil]
  · intro schemaName tableName table htable pubkey
    have hnewest := hholds.newest hcalls htable pubkey
    rwa [accountsWritten_flatten hcommits (length_runSnapshots _ _ _).symm] at hnewest
  · intro snapshot hdone hcancelled account haccount table htable
    have hwritten : account ∈ versionsOf account.pubkey (accountsWritten committed.flatten
        snapshot.schemaName (sanitizeIdentifier account.accountType)) := by
      obtain ⟨calls, hmem, hcommit⟩ := exists_of_mem_forall₂ hcommits hdone
      rw [← hcommit.complete rfl hcancelled] at haccount
      obtain ⟨call, hcall, haccount⟩ := List.mem_flatMap.mp haccount
      refine List.mem_filter.mpr ⟨List.mem_flatMap.mpr ⟨call, ?_, ?_⟩, by simp⟩
      · exact List.mem_filter.mpr ⟨List.mem_flatten.mpr ⟨calls, hmem, hcall⟩,
          by simpa using hcommit.schemaName call hcall⟩
      · exact List.mem_filter.mpr ⟨haccount, by simp⟩
    rcases hholds.newest hcalls htable account.pubkey with
      ⟨_, hempty⟩ | ⟨row, version, hrow, hnewest, hshows⟩
    · rw [hempty] at hwritten
      cases hwritten
    · exact ⟨row, _, hrow, hshows.slotUpdated, by exact_mod_cast hnewest.rank_le hwritten⟩

/-! ### A node behind -/

def vaultSnapshot (slot : Nat) : Snapshot where
  schemaName := "s"
  programAccounts := .ok (.arr [.obj [("pubkey", .str "k")]])
  slot := .ok (.int slot)
  accountReply _ := .ok (.obj [("value", .arr [.obj
    [("data", .arr [.str "AQcAAAA=", .str "base64"]), ("lamports", .int 5),
      ("owner", .str "prog")]])])
  isCancelled _ := false
  clock _ := 0
  order _ groups := groups
  order_perm _ _ := .refl _
  faults _ := .allOk

def vaultAccounts : AccountDecoder :=
  chainparserAccounts Externs.minimal "prog" (accountIdl "Vault" [⟨"amount", .int .u32⟩])

theorem asU64_int {n : Nat} (h : n < 2 ^ 64) : asU64 (.int n) = some n := by
  simp [asU64, asInt]
  omega

theorem getSlot_eq_ok {env : Externs} {value : Json} {slot : Nat} (h : asU64 value = some slot) :
    getSlot env (.ok value) = .ok slot := by
  simp only [getSlot, h]

theorem read_vaultSnapshot (slot : Nat) (h : slot < 2 ^ 64) :
    (vaultSnapshot slot).read Externs.minimal .standard vaultAccounts =
      .ok (some (slot, [vaultVersion "k" slot 5 7])) := by
  have hpubkeys : getProgramAccounts Externs.minimal (vaultSnapshot slot).programAccounts =
      .ok ["k"] := rfl
  have hslot : getSlot Externs.minimal (vaultSnapshot slot).slot = .ok slot :=
    getSlot_eq_ok (asU64_int h)
  have hinfos : getMultipleAccounts Externs.minimal .standard
      (vaultSnapshot slot).accountReply ["k"] = .ok [⟨"k", [1, 7, 0, 0, 0], 5, "prog"⟩] := rfl
  have hdecoded : decodeInfos vaultAccounts slot (vaultSnapshot slot).isCancelled 0
      [⟨"k", [1, 7, 0, 0, 0], 5, "prog"⟩] [] = .ok (some [vaultVersion "k" slot 5 7]) := rfl
  rw [Snapshot.read, hpubkeys, hslot, lift, lift]
  simp only [Outcome.ok_bind, hinfos, hdecoded]
  rfl

/-- A snapshot of slot 5 and then one of slot 3, from a node that is behind. -/
theorem account_snapshots_keep_newest_vault :
    ∃ row slot, (runSnapshots Externs.minimal .standard vaultAccounts vaultCatalogue
        noDefaults (fun _ => none) .empty
        [vaultSnapshot 5, vaultSnapshot 3]).2.2.tables "s" "vault" "k" = some row ∧
      row "slot_updated" = .bigint slot ∧ 5 ≤ slot := by
  have hfive := read_vaultSnapshot 5 (by decide)
  have hthree := read_vaultSnapshot 3 (by decide)
  have hresults : (runSnapshots Externs.minimal .standard vaultAccounts vaultCatalogue
      noDefaults (fun _ => none) .empty
      [vaultSnapshot 5, vaultSnapshot 3]).1 = [.ok (), .ok ()] := by
    simp only [runSnapshots, Snapshot.run, hfive, hthree]
    rfl
  have hkeys : ∀ snapshot ∈ [vaultSnapshot 5, vaultSnapshot 3], ∀ pubkeys,
      getProgramAccounts Externs.minimal snapshot.programAccounts = .ok pubkeys →
        pubkeys.Nodup := by
    intro snapshot hsnapshot pubkeys hpubkeys
    simp only [List.mem_cons, List.not_mem_nil, or_false] at hsnapshot
    rcases hsnapshot with rfl | rfl <;> cases hpubkeys <;> exact List.nodup_singleton _
  have hsigned : ∀ snapshot ∈ [vaultSnapshot 5, vaultSnapshot 3],
      ∀ account ∈ snapshot.accountsRead Externs.minimal .standard vaultAccounts,
        Signed account := by
    intro snapshot hsnapshot account haccount
    simp only [List.mem_cons, List.not_mem_nil, or_false] at hsnapshot
    rcases hsnapshot with rfl | rfl
    · rw [accountsRead_of_read hfive] at haccount
      cases List.mem_singleton.mp haccount
      exact ⟨by decide, by decide⟩
    · rw [accountsRead_of_read hthree] at haccount
      cases List.mem_singleton.mp haccount
      exact ⟨by decide, by decide⟩
  have hmain := account_snapshots_keep_newest Externs.minimal .standard
    vaultAccounts vaultCatalogue noDefaults
    [vaultSnapshot 5, vaultSnapshot 3] hkeys hsigned
  dsimp only at hmain
  rw [hresults] at hmain
  obtain ⟨_, _, _, hcomplete⟩ := hmain
  have hwritten : vaultVersion "k" 5 5 7 ∈
      (vaultSnapshot 5).accountsRead Externs.minimal .standard vaultAccounts := by
    rw [accountsRead_of_read hfive]
    exact List.mem_singleton_self _
  have hdone : (vaultSnapshot 5, .ok ()) ∈
      [vaultSnapshot 5, vaultSnapshot 3].zip [.ok (), (.ok () : Outcome PipelineError Unit)] :=
    List.mem_cons_self
  have htable : vaultCatalogue.table (vaultSnapshot 5).schemaName
      (sanitizeIdentifier (vaultVersion "k" 5 5 7).accountType) = some vaultTable := rfl
  have hname : sanitizeIdentifier (vaultVersion "k" 5 5 7).accountType = "vault" := rfl
  have hcancelled : ¬ (vaultSnapshot 5).Cancelled Externs.minimal .standard vaultAccounts :=
    fun h => by cases hfive.symm.trans h.1
  obtain ⟨row, slot, hrow, hslot, hle⟩ :=
    hcomplete _ hdone hcancelled _ hwritten vaultTable htable
  have hschema : (vaultSnapshot 5).schemaName = "s" := rfl
  have hpubkey : (vaultVersion "k" 5 5 7).pubkey = "k" := rfl
  rw [hname, hschema, hpubkey] at hrow
  exact ⟨row, slot, hrow, hslot, hle⟩

end Solarix.Pipeline
