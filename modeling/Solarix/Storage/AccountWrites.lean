import Solarix.Core.Memo
import Solarix.Storage.AccountUpsert
import Solarix.Storage.Identifiers
import Solarix.Storage.WriteBlock

/-!
# Account writes

`write_block` for a batch of accounts: the groups by account type, in the order of a hash map,
each of them one upsert with the promoted columns of its table.  The columns are looked up in
a cache that the writer keeps from call to call, also when a call is rolled back.
-/

namespace Solarix.Storage

open Solarix.Core

/-! ## The promoted columns of a table -/

/-- The account tables that `information_schema` knows, by schema and name.  A table has no
two columns of one name. -/
structure Catalogue where
  table : String → String → Option TableDef
  distinct : ∀ schemaName tableName found, table schemaName tableName = some found →
    (found.columns.map ColumnDef.name).Nodup

/-- There are no columns of a table that is not there. -/
def promotedOf (catalogue : Catalogue) (schemaName tableName : String) : List PromotedColumn :=
  match catalogue.table schemaName tableName with
  | none => []
  | some table => discoverPromotedColumns table

def cacheKey (schemaName tableName : String) : String := schemaName ++ "." ++ tableName

abbrev PromotedCache := String → Option (List PromotedColumn)

def discoverPromoted (catalogue : Catalogue) (schemaName accountType : String)
    (fault : Option String) : Except StorageError (List PromotedColumn) :=
  match fault with
  | some e => .error (.writeFailed s!"promoted column discovery failed: {e}")
  | none => .ok (promotedOf catalogue schemaName (sanitizeIdentifier accountType))

def typeKey (schemaAndType : String × String) : String :=
  cacheKey schemaAndType.1 (sanitizeIdentifier schemaAndType.2)

def getOrDiscoverPromoted (catalogue : Catalogue) (cache : PromotedCache)
    (schemaName accountType : String) (fault : Option String) :
    Except StorageError (List PromotedColumn) × PromotedCache :=
  memo typeKey cache (schemaName, accountType)
    (discoverPromoted catalogue schemaName accountType fault)

/-! ## The call -/

/-- What the database answers to the statements of a call, `none` where it accepts them.
`statementError` is its message for an upsert that fails on its own data. -/
structure AccountFaults where
  beginError : Option String
  discoverError : String → Option String
  upsertError : String → Option String
  statementError : String
  checkpointError : Option String
  commitError : Option String

/-- A call of `write_block` with accounts and no instructions.  `groups` are the accounts by
type, in the order in which the hash map yields them. -/
structure AccountsCall where
  schemaName : String
  accounts : List DecodedAccount
  slot : Nat
  now : Int
  groups : List (String × List DecodedAccount)
  iteration : groups.Perm (groupByType accounts)
  faults : AccountFaults

/-- The database: for each schema the tables that `write_block` keeps there, and the rows of
the account tables. -/
structure AccountDb (pg : PgCasts) where
  stores : String → Store
  tables : String → String → AccountRows pg

def AccountDb.empty {pg : PgCasts} : AccountDb pg := ⟨fun _ => .empty, fun _ _ _ => none⟩

section Calls

variable {pg : PgCasts} (catalogue : Catalogue) (defaults : String → String → Row pg)

def rowsAffected (upsert : Upsert) (defaults : Row pg) (now : Int)
    (accounts : List DecodedAccount) (table : AccountRows pg) : Nat :=
  accounts.countP fun account =>
    match table account.pubkey, upsert.proposed defaults now (.ofAccount account) with
    | none, _ => true
    | some old, some new => upsert.isNewer old new
    | some _, none => false

def AccountsCall.writeTable (call : AccountsCall) (accountType : String)
    (accounts : List DecodedAccount) (promoted : List PromotedColumn)
    (tables : String → String → AccountRows pg) :
    Except StorageError (Nat × (String → String → AccountRows pg)) :=
  let tableName := sanitizeIdentifier accountType
  let failed := fun e =>
    Except.error (.writeFailed s!"account upsert failed for {tableName}: {e}")
  match catalogue.table call.schemaName tableName, call.faults.upsertError accountType with
  | none, _ => failed call.faults.statementError
  | some _, some e => failed e
  | some _, none =>
      let defaults := defaults call.schemaName tableName
      let table := tables call.schemaName tableName
      match writeAccountsBatch call.schemaName tableName promoted defaults
          ⟨call.now, accounts, none⟩ table with
      | none => failed call.faults.statementError
      | some rows =>
          .ok (rowsAffected (accountUpsert call.schemaName tableName promoted) defaults call.now
              accounts table,
            Function.update tables call.schemaName
              (Function.update (tables call.schemaName) tableName rows))

/-- The loop of `write_accounts_inner` over the groups. -/
def AccountsCall.writeGroups (call : AccountsCall) :
    List (String × List DecodedAccount) → PromotedCache → (String → String → AccountRows pg) →
      Nat → Except StorageError (Nat × (String → String → AccountRows pg)) × PromotedCache
  | [], cache, tables, total => (.ok (total, tables), cache)
  | group :: groups, cache, tables, total =>
      match getOrDiscoverPromoted catalogue cache call.schemaName group.1
          (call.faults.discoverError group.1) with
      | (.error e, cache) => (.error e, cache)
      | (.ok promoted, cache) =>
          match call.writeTable catalogue defaults group.1 group.2 promoted tables with
          | .error e => (.error e, cache)
          | .ok (rows, tables) => call.writeGroups groups cache tables (total + rows)

def AccountsCall.toWriteCall (call : AccountsCall) (accounts : Except StorageError Nat) :
    WriteCall where
  stream := .accounts
  instructions := []
  accounts := call.accounts
  slot := call.slot
  signature := none
  replies := ⟨call.faults.beginError, none, accounts, call.faults.checkpointError,
    call.faults.commitError⟩

/-- `write_block`: what it returns, the writer's cache and the database after it.  The cache
is no part of the transaction. -/
def AccountsCall.run (call : AccountsCall) (cache : PromotedCache) (db : AccountDb pg) :
    Except StorageError WriteResult × PromotedCache × AccountDb pg :=
  if call.faults.beginError.isSome then
    (((call.toWriteCall (.ok 0)).run (db.stores call.schemaName)).1, cache, db)
  else
    let (outcome, cache) := call.writeGroups catalogue defaults call.groups cache db.tables 0
    match (call.toWriteCall (outcome.map Prod.fst)).run (db.stores call.schemaName), outcome with
    | (.ok result, store), .ok (_, tables) =>
        (.ok result, cache, ⟨Function.update db.stores call.schemaName store, tables⟩)
    | (result, _), _ => (result, cache, db)

def runCalls : PromotedCache → AccountDb pg → List AccountsCall →
    List (Except StorageError WriteResult) × PromotedCache × AccountDb pg
  | cache, db, [] => ([], cache, db)
  | cache, db, call :: calls =>
      let (result, cache, db) := call.run catalogue defaults cache db
      let (results, final) := runCalls cache db calls
      (result :: results, final)

/-- The same calls, each with a new writer. -/
def runFresh : AccountDb pg → List AccountsCall →
    List (Except StorageError WriteResult) × AccountDb pg
  | db, [] => ([], db)
  | db, call :: calls =>
      let (result, _, db) := call.run catalogue defaults (fun _ => none) db
      let (results, final) := runFresh db calls
      (result :: results, final)

end Calls

/-! ## The cache of promoted columns -/

section Cache

variable {pg : PgCasts} {catalogue : Catalogue} {defaults : String → String → Row pg}
  {cache cache' : PromotedCache}

theorem dot_not_mem_sanitizeIdentifier (name : String) :
    '.' ∉ (sanitizeIdentifier name).toList := by
  intro hmem
  have hvalid := (validIdentifier_sanitizeIdentifier name).1
  rw [matchesIdentifier_iff] at hvalid
  exact absurd (hvalid.2.2 '.' hmem) (by decide)

theorem typeKey_inj {x y : String × String} (h : typeKey x = typeKey y) :
    x.1 = y.1 ∧ sanitizeIdentifier x.2 = sanitizeIdentifier y.2 :=
  append_singleton_append_inj (dot_not_mem_sanitizeIdentifier x.2)
    (dot_not_mem_sanitizeIdentifier y.2) h

def typeColumns (catalogue : Catalogue) (x : String × String) : List PromotedColumn :=
  promotedOf catalogue x.1 (sanitizeIdentifier x.2)

theorem typeColumns_eq_of_key {x y : String × String} (h : typeKey x = typeKey y) :
    typeColumns catalogue x = typeColumns catalogue y := by
  obtain ⟨hschema, htable⟩ := typeKey_inj h
  rw [typeColumns, typeColumns, hschema, htable]

abbrev CacheAgrees (catalogue : Catalogue) (cache : PromotedCache) : Prop :=
  Coherent typeKey (typeColumns catalogue) cache

theorem discoverPromoted_eq_ok {schemaName accountType : String} {fault : Option String}
    {columns : List PromotedColumn}
    (h : discoverPromoted catalogue schemaName accountType fault = .ok columns) :
    columns = typeColumns catalogue (schemaName, accountType) := by
  cases fault with
  | some e => cases h
  | none => exact (Except.ok.inj h).symm

theorem CacheAgrees.getOrDiscover (h : CacheAgrees catalogue cache)
    (schemaName accountType : String) (fault : Option String) :
    CacheAgrees catalogue
      (getOrDiscoverPromoted catalogue cache schemaName accountType fault).2 :=
  h.memo (fun _ _ => typeColumns_eq_of_key) (fun _ => discoverPromoted_eq_ok)

theorem cacheAgrees_writeGroups {call : AccountsCall} (h : CacheAgrees catalogue cache)
    (groups : List (String × List DecodedAccount)) (tables : String → String → AccountRows pg)
    (total : Nat) :
    CacheAgrees catalogue (call.writeGroups catalogue defaults groups cache tables total).2 := by
  induction groups generalizing cache tables total with
  | nil => exact h
  | cons group groups ih =>
      have hnext := h.getOrDiscover call.schemaName group.1 (call.faults.discoverError group.1)
      rw [AccountsCall.writeGroups]
      split
      · rename_i hlookup
        rwa [hlookup] at hnext
      · rename_i hlookup
        rw [hlookup] at hnext
        split
        · exact hnext
        · exact ih hnext _ _

theorem writeGroups_congr {call : AccountsCall} (h : CacheAgrees catalogue cache)
    (h' : CacheAgrees catalogue cache')
    (hdiscover : ∀ accountType, call.faults.discoverError accountType = none)
    (groups : List (String × List DecodedAccount)) (tables : String → String → AccountRows pg)
    (total : Nat) :
    (call.writeGroups catalogue defaults groups cache tables total).1 =
      (call.writeGroups catalogue defaults groups cache' tables total).1 := by
  induction groups generalizing cache cache' tables total with
  | nil => rfl
  | cons group groups ih =>
      have hlookup : ∀ {cache : PromotedCache}, CacheAgrees catalogue cache →
          ∃ next, getOrDiscoverPromoted catalogue cache call.schemaName group.1
              (call.faults.discoverError group.1) =
            (.ok (typeColumns catalogue (call.schemaName, group.1)), next) ∧
            CacheAgrees catalogue next := by
        intro cache hcache
        rw [hdiscover group.1]
        exact ⟨_, Prod.ext hcache.memo_ok rfl, hcache.getOrDiscover _ _ _⟩
      obtain ⟨next, hnext, hagrees⟩ := hlookup h
      obtain ⟨next', hnext', hagrees'⟩ := hlookup h'
      simp only [AccountsCall.writeGroups, hnext, hnext']
      split
      · rfl
      · exact ih hagrees hagrees' _ _

theorem cacheAgrees_run {call : AccountsCall} (h : CacheAgrees catalogue cache)
    (db : AccountDb pg) : CacheAgrees catalogue (call.run catalogue defaults cache db).2.1 := by
  have hgroups : CacheAgrees catalogue
      (call.writeGroups catalogue defaults call.groups cache db.tables 0).2 :=
    cacheAgrees_writeGroups h call.groups db.tables 0
  unfold AccountsCall.run
  split
  · exact h
  · dsimp only
    split <;> exact hgroups

theorem run_congr {call : AccountsCall} (h : CacheAgrees catalogue cache)
    (h' : CacheAgrees catalogue cache')
    (hdiscover : ∀ accountType, call.faults.discoverError accountType = none)
    (db : AccountDb pg) :
    (call.run catalogue defaults cache db).1 = (call.run catalogue defaults cache' db).1 ∧
      (call.run catalogue defaults cache db).2.2 =
        (call.run catalogue defaults cache' db).2.2 := by
  have hgroups : (call.writeGroups catalogue defaults call.groups cache db.tables 0).1 =
      (call.writeGroups catalogue defaults call.groups cache' db.tables 0).1 :=
    writeGroups_congr h h' hdiscover call.groups db.tables 0
  unfold AccountsCall.run
  split
  · exact ⟨rfl, rfl⟩
  · dsimp only
    rw [hgroups]
    split <;> exact ⟨rfl, rfl⟩

/-- The cache of promoted columns shows in nothing but the number of discoveries.  Over any
calls on any schemas, committing or not, each returns and writes what it would with a new
writer, as long as the queries of the catalogue are answered. -/
theorem promoted_cache_transparent (catalogue : Catalogue) (defaults : String → String → Row pg)
    (db : AccountDb pg) (calls : List AccountsCall)
    (hdiscover : ∀ call ∈ calls, ∀ accountType, call.faults.discoverError accountType = none) :
    (runCalls catalogue defaults (fun _ => none) db calls).1 =
        (runFresh catalogue defaults db calls).1 ∧
      (runCalls catalogue defaults (fun _ => none) db calls).2.2 =
        (runFresh catalogue defaults db calls).2 := by
  have hrun : ∀ cache, CacheAgrees catalogue cache →
      (runCalls catalogue defaults cache db calls).1 = (runFresh catalogue defaults db calls).1 ∧
        (runCalls catalogue defaults cache db calls).2.2 =
          (runFresh catalogue defaults db calls).2 := by
    induction calls generalizing db with
    | nil => exact fun _ _ => ⟨rfl, rfl⟩
    | cons call calls ih =>
        intro cache hcache
        rw [List.forall_mem_cons] at hdiscover
        obtain ⟨hresult, hdb⟩ := run_congr hcache coherent_empty hdiscover.1 db
        obtain ⟨hresults, hfinal⟩ := ih _ hdiscover.2 _ (cacheAgrees_run hcache db)
        simp only [runCalls, runFresh]
        rw [← hresult, ← hdb]
        exact ⟨congrArg _ hresults, hfinal⟩
  exact hrun _ coherent_empty

end Cache

def vaultCatalogue : Catalogue where
  table schemaName tableName :=
    if schemaName = "s" ∧ tableName = "vault" then some vaultTable else none
  distinct := by
    intro schemaName tableName found h
    split at h
    · cases h
      decide +kernel
    · cases h

def AccountFaults.allOk : AccountFaults :=
  ⟨none, fun _ => none, fun _ => none, "", none, none⟩

def acceptedCall (accounts : List DecodedAccount) (slot : Nat) : AccountsCall where
  schemaName := "s"
  accounts := accounts
  slot := slot
  now := 0
  groups := groupByType accounts
  iteration := .refl _
  faults := .allOk

def noDefaults : String → String → Row .plain := fun _ _ _ => .value .null

def vaultCalls : List AccountsCall :=
  [acceptedCall [vaultVersion "k" 5 5 7, { vaultVersion "l" 5 6 8 with accountType := "vault" }] 5,
    acceptedCall [vaultVersion "k" 6 5 9] 6]

theorem promoted_cache_transparent_vault :
    (runCalls vaultCatalogue noDefaults (fun _ => none) .empty vaultCalls).1 =
      (runFresh vaultCatalogue noDefaults .empty vaultCalls).1 := by
  refine (promoted_cache_transparent _ _ _ _ ?_).1
  intro call hcall accountType
  simp only [vaultCalls, List.mem_cons, List.not_mem_nil, or_false] at hcall
  rcases hcall with rfl | rfl <;> rfl

/-! ## The tables after the calls -/

section Tables

variable {pg : PgCasts} {catalogue : Catalogue} {defaults : String → String → Row pg}
  {cache : PromotedCache} {call : AccountsCall}

abbrev Kept := String → String → String → Option DecodedAccount

def Holds (catalogue : Catalogue) (defaults : String → String → Row pg)
    (tables : String → String → AccountRows pg) (kept : Kept) : Prop :=
  ∀ schemaName tableName table, catalogue.table schemaName tableName = some table →
    Represents (discoverPromotedColumns table) (defaults schemaName tableName)
      (tables schemaName tableName) (kept schemaName tableName)

def groupAccounts (tableName : String) (groups : List (String × List DecodedAccount)) :
    List DecodedAccount :=
  (groups.filter fun group => sanitizeIdentifier group.1 = tableName).flatMap Prod.snd

theorem groupAccounts_cons (tableName : String) (group : String × List DecodedAccount)
    (groups : List (String × List DecodedAccount)) :
    groupAccounts tableName (group :: groups) =
      (if sanitizeIdentifier group.1 = tableName then group.2 else []) ++
        groupAccounts tableName groups := by
  by_cases h : sanitizeIdentifier group.1 = tableName <;> simp [groupAccounts, h]

def keepGroups (schemaName : String) (kept : Kept) (groups : List (String × List DecodedAccount)) :
    Kept := fun schema tableName =>
  if schema = schemaName then keepVersions (kept schema tableName) (groupAccounts tableName groups)
  else kept schema tableName

theorem keepGroups_nil (schemaName : String) (kept : Kept) :
    keepGroups schemaName kept [] = kept := by
  funext schema tableName
  unfold keepGroups
  split <;> rfl

theorem keepGroups_cons (schemaName : String) (kept : Kept)
    (group : String × List DecodedAccount) (groups : List (String × List DecodedAccount)) :
    keepGroups schemaName kept (group :: groups) =
      keepGroups schemaName (keepGroups schemaName kept [group]) groups := by
  funext schema tableName
  unfold keepGroups
  by_cases h : schema = schemaName
  · simp only [if_pos h]
    rw [groupAccounts_cons, keepVersions, keepNewest_append, groupAccounts_cons]
    simp [groupAccounts]
  · simp only [if_neg h]

def GroupFits (group : String × List DecodedAccount) : Prop :=
  (group.2.map DecodedAccount.pubkey).Nodup ∧ ∀ account ∈ group.2, Signed account

theorem holds_writeTable {tables tables' : String → String → AccountRows pg} {kept : Kept}
    (hholds : Holds catalogue defaults tables kept) {group : String × List DecodedAccount}
    (hfits : GroupFits group) {rows : Nat}
    (h : call.writeTable catalogue defaults group.1 group.2
      (typeColumns catalogue (call.schemaName, group.1)) tables = .ok (rows, tables')) :
    Holds catalogue defaults tables' (keepGroups call.schemaName kept [group]) := by
  unfold AccountsCall.writeTable at h
  dsimp only at h
  split at h
  · cases h
  · cases h
  · rename_i table hupserted hnone
    have hcolumns : typeColumns catalogue (call.schemaName, group.1) =
        discoverPromotedColumns table := by
      rw [typeColumns, promotedOf, hupserted]
    rw [hcolumns] at h
    split at h
    · cases h
    · rename_i written hwritten
      obtain ⟨-, rfl⟩ := Prod.mk.inj (Except.ok.inj h)
      have hdistinct : (AccountBatch.accounts ⟨call.now, group.2, none⟩ |>.map
          DecodedAccount.pubkey).Nodup := hfits.1
      rcases writeAccountsBatch_cases
        (promotedNames_discover (catalogue.distinct _ _ _ hupserted)) hdistinct hfits.2
        (hholds _ _ _ hupserted) with ⟨-, table', htable', hrep⟩ | ⟨-, hfailed⟩
      · rw [hwritten] at htable'
        cases htable'
        intro schema tableName found hfound
        unfold keepGroups
        by_cases hschema : schema = call.schemaName
        · subst hschema
          rw [Function.update_self, if_pos rfl, groupAccounts_cons]
          by_cases hname : tableName = sanitizeIdentifier group.1
          · subst hname
            rw [hupserted] at hfound
            cases hfound
            rw [Function.update_self, if_pos rfl]
            simpa [groupAccounts] using hrep
          · rw [Function.update_of_ne hname, if_neg (Ne.symm hname)]
            exact hholds _ _ _ hfound
        · rw [Function.update_of_ne hschema, if_neg hschema]
          exact hholds _ _ _ hfound
      · rw [hwritten] at hfailed
        cases hfailed

theorem holds_writeGroups (hagrees : CacheAgrees catalogue cache)
    {groups : List (String × List DecodedAccount)} (hfits : ∀ group ∈ groups, GroupFits group)
    {tables tables' : String → String → AccountRows pg} {kept : Kept}
    (hholds : Holds catalogue defaults tables kept) {total written : Nat}
    (h : (call.writeGroups catalogue defaults groups cache tables total).1 =
      .ok (written, tables')) :
    Holds catalogue defaults tables' (keepGroups call.schemaName kept groups) := by
  induction groups generalizing cache tables kept total with
  | nil =>
      obtain ⟨-, rfl⟩ := Prod.mk.inj (Except.ok.inj h)
      rwa [keepGroups_nil]
  | cons group groups ih =>
      rw [List.forall_mem_cons] at hfits
      have hcolumns : ∀ columns, (getOrDiscoverPromoted catalogue cache call.schemaName group.1
          (call.faults.discoverError group.1)).1 = .ok columns →
          columns = typeColumns catalogue (call.schemaName, group.1) :=
        fun _ hvalue => hagrees.memo_eq_ok (fun _ => discoverPromoted_eq_ok) hvalue
      have hnext :=
        hagrees.getOrDiscover call.schemaName group.1 (call.faults.discoverError group.1)
      rw [AccountsCall.writeGroups] at h
      split at h
      · cases h
      · rename_i promoted cache' hlookup
        rw [hlookup] at hcolumns
        rw [hcolumns promoted rfl] at h
        have hagrees' : CacheAgrees catalogue cache' := by
          rwa [hlookup] at hnext
        split at h
        · cases h
        · rename_i rows tables'' htable
          rw [keepGroups_cons]
          exact ih hagrees' hfits.2 (holds_writeTable hholds hfits.1 htable) h

/-! ### The accounts by type -/

def accountsFor (tableName : String) (accounts : List DecodedAccount) : List DecodedAccount :=
  accounts.filter fun account => sanitizeIdentifier account.accountType = tableName

theorem nodup_addToGroup {groups : List (String × List DecodedAccount)}
    (h : (groups.map Prod.fst).Nodup) (account : DecodedAccount) :
    ((addToGroup groups account).map Prod.fst).Nodup := by
  unfold addToGroup
  split
  · have hsame : (groups.map fun group =>
        if group.1 = account.accountType then (group.1, group.2 ++ [account]) else group).map
          Prod.fst = groups.map Prod.fst := by
      rw [List.map_map]
      apply List.map_congr_left
      intro group _
      rw [Function.comp_apply]
      split <;> rfl
    rwa [hsame]
  · rename_i hnew
    rw [List.map_append, List.map_singleton, List.nodup_append]
    refine ⟨h, List.nodup_singleton _, ?_⟩
    intro accountType hmem other hother heq
    have htype : accountType = account.accountType := by rw [heq, List.mem_singleton.mp hother]
    exact hnew (htype ▸ hmem)

theorem perm_addToGroup {groups : List (String × List DecodedAccount)}
    (h : (groups.map Prod.fst).Nodup) (account : DecodedAccount) :
    ((addToGroup groups account).flatMap Prod.snd).Perm
      (groups.flatMap Prod.snd ++ [account]) := by
  unfold addToGroup
  split
  swap
  · simp
  rename_i hmem
  induction groups with
  | nil => cases hmem
  | cons group groups ih =>
      rw [List.map_cons, List.nodup_cons] at h
      rw [List.map_cons, List.flatMap_cons, List.flatMap_cons]
      by_cases htype : group.1 = account.accountType
      · have hothers : (groups.map fun group =>
            if group.1 = account.accountType then (group.1, group.2 ++ [account]) else group) =
            groups := by
          rw [← List.map_id groups, List.map_map]
          apply List.map_congr_left
          intro other hother
          refine if_neg fun heq => h.1 ?_
          rw [htype, ← show other.1 = account.accountType from heq]
          exact List.mem_map_of_mem hother
        rw [hothers, if_pos htype, List.append_assoc, List.append_assoc]
        exact List.perm_append_comm.append_left _
      · rw [if_neg htype, List.append_assoc]
        refine (ih h.2 ?_).append_left _
        rw [List.map_cons, List.mem_cons] at hmem
        exact hmem.resolve_left (Ne.symm htype)

theorem groupByType_partitions (accounts : List DecodedAccount) :
    ((groupByType accounts).map Prod.fst).Nodup ∧
      ((groupByType accounts).flatMap Prod.snd).Perm accounts := by
  induction accounts using List.reverseRecOn with
  | nil => exact ⟨List.nodup_nil, .refl _⟩
  | append_singleton accounts account ih =>
      have hgroups : groupByType (accounts ++ [account]) =
          addToGroup (groupByType accounts) account := List.foldl_append
      rw [hgroups]
      exact ⟨nodup_addToGroup ih.1 account,
        (perm_addToGroup ih.1 account).trans (ih.2.append_right [account])⟩

theorem perm_groupAccounts {accounts : List DecodedAccount}
    {groups : List (String × List DecodedAccount)} (h : groups.Perm (groupByType accounts))
    (tableName : String) :
    (groupAccounts tableName groups).Perm (accountsFor tableName accounts) := by
  have hgroup : ∀ group ∈ groups,
      (if sanitizeIdentifier group.1 = tableName then group.2 else []) =
        accountsFor tableName group.2 := by
    intro group hgroup
    have htypes : ∀ account ∈ group.2, account.accountType = group.1 := by
      intro account haccount
      rw [(mem_groupByType.mp (h.mem_iff.mp hgroup)).1] at haccount
      simpa using (List.mem_filter.mp haccount).2
    symm
    split
    · rename_i hname
      rw [accountsFor, List.filter_eq_self]
      intro account haccount
      rw [htypes account haccount]
      simpa using hname
    · rename_i hname
      rw [accountsFor, List.filter_eq_nil_iff]
      intro account haccount
      rw [htypes account haccount]
      simpa using hname
  have hflat : groupAccounts tableName groups =
      accountsFor tableName (groups.flatMap Prod.snd) := by
    clear h
    induction groups with
    | nil => rfl
    | cons group groups ih =>
        rw [List.forall_mem_cons] at hgroup
        rw [groupAccounts_cons, ih hgroup.2, hgroup.1, List.flatMap_cons, accountsFor, accountsFor,
          accountsFor, List.filter_append]
  rw [hflat]
  exact ((h.flatMap_right _).trans (groupByType_partitions accounts).2).filter _

/-- Of each account there is at most one version in a call, so the order of the groups does not
show. -/
theorem versionsOf_groupAccounts {accounts : List DecodedAccount}
    {groups : List (String × List DecodedAccount)} (h : groups.Perm (groupByType accounts))
    (hdistinct : (accounts.map DecodedAccount.pubkey).Nodup) (tableName pubkey : String) :
    versionsOf pubkey (groupAccounts tableName groups) =
      versionsOf pubkey (accountsFor tableName accounts) := by
  have hperm : (versionsOf pubkey (groupAccounts tableName groups)).Perm
      (versionsOf pubkey (accountsFor tableName accounts)) :=
    (perm_groupAccounts h tableName).filter _
  have hnodup : ((versionsOf pubkey (accountsFor tableName accounts)).map
      DecodedAccount.pubkey).Nodup :=
    ((List.filter_sublist.trans List.filter_sublist).map _).nodup hdistinct
  have hkeys : ∀ account ∈ versionsOf pubkey (accountsFor tableName accounts),
      account.pubkey = pubkey := by
    intro account haccount
    simpa using (List.mem_filter.mp haccount).2
  cases hversions : versionsOf pubkey (accountsFor tableName accounts) with
  | nil =>
      rw [hversions] at hperm
      exact hperm.eq_nil
  | cons version others =>
      cases others with
      | nil =>
          rw [hversions] at hperm
          exact List.perm_singleton.mp hperm
      | cons other others =>
          rw [hversions] at hnodup hkeys
          have hfirst := hkeys version List.mem_cons_self
          have hsecond := hkeys other (List.mem_cons_of_mem _ List.mem_cons_self)
          rw [List.map_cons, List.map_cons, hfirst, hsecond, List.nodup_cons] at hnodup
          exact absurd List.mem_cons_self hnodup.1

/-! ### Runs -/

structure AccountsFit (accounts : List DecodedAccount) : Prop where
  distinct : (accounts.map DecodedAccount.pubkey).Nodup
  signed : ∀ account ∈ accounts, Signed account

theorem AccountsFit.groups (h : AccountsFit call.accounts) :
    ∀ group ∈ call.groups, GroupFits group := by
  intro group hgroup
  have hof := (mem_groupByType.mp (call.iteration.mem_iff.mp hgroup)).1
  constructor
  · rw [hof]
    exact (List.filter_sublist.map _).nodup h.distinct
  · rw [hof]
    exact fun account haccount => h.signed account (List.mem_of_mem_filter haccount)

theorem run_cases (catalogue : Catalogue) (defaults : String → String → Row pg)
    (call : AccountsCall) (cache : PromotedCache) (db : AccountDb pg) :
    (∃ result written tables,
        (call.writeGroups catalogue defaults call.groups cache db.tables 0).1 =
          .ok (written, tables) ∧
        (call.run catalogue defaults cache db).1 = .ok result ∧
        (call.run catalogue defaults cache db).2.2 =
          ⟨Function.update db.stores call.schemaName ((db.stores call.schemaName).writeBlock
            .accounts [] call.slot none), tables⟩) ∨
      ∃ e, (call.run catalogue defaults cache db).1 = .error e ∧
        (call.run catalogue defaults cache db).2.2 = db := by
  unfold AccountsCall.run
  split
  · rename_i hbegin
    right
    have hnot : ¬ (call.toWriteCall (.ok 0)).commits = true := by
      intro hcommits
      simp only [WriteCall.commits, Bool.and_eq_true] at hcommits
      have hnone : call.faults.beginError.isNone = true := hcommits.1.1.1.1
      rw [Option.isNone_iff_eq_none.mp hnone] at hbegin
      cases hbegin
    obtain ⟨e, hrun⟩ := WriteCall.run_of_not_commits hnot (db.stores call.schemaName)
    exact ⟨e, by rw [hrun], rfl⟩
  · dsimp only
    cases houtcome : (call.writeGroups catalogue defaults call.groups cache db.tables 0).1 with
    | ok outcome =>
        cases hrun : (call.toWriteCall (.ok outcome.1)).run (db.stores call.schemaName) with
        | mk answer store =>
            have hmap : (Except.ok outcome : Except StorageError _).map Prod.fst =
                .ok outcome.1 := rfl
            rw [hmap, hrun]
            cases answer with
            | ok result =>
                left
                have hstore := WriteCall.eq_writeBlock_of_run hrun
                exact ⟨result, outcome.1, outcome.2, rfl, rfl, by rw [hstore]; rfl⟩
            | error e => exact .inr ⟨e, rfl, rfl⟩
    | error e =>
        have hmap : (Except.error e : Except StorageError
            (Nat × (String → String → AccountRows pg))).map Prod.fst = .error e := rfl
        rw [hmap]
        have hnot : ¬ (call.toWriteCall (.error e)).commits = true := by
          intro hcommits
          simp only [WriteCall.commits, Bool.and_eq_true, Bool.or_eq_true] at hcommits
          have hempty : call.accounts.isEmpty = true := by
            simpa [AccountsCall.toWriteCall, Except.toOption] using hcommits.1.1.2
          have hgroups : call.groups = [] := by
            have hperm := call.iteration
            rw [List.isEmpty_iff.mp hempty] at hperm
            exact hperm.eq_nil
          rw [hgroups] at houtcome
          cases houtcome
        obtain ⟨e', hrun⟩ := WriteCall.run_of_not_commits hnot (db.stores call.schemaName)
        rw [hrun]
        exact .inr ⟨e', rfl, rfl⟩

def accountsWritten (calls : List AccountsCall) (schemaName tableName : String) :
    List DecodedAccount :=
  (calls.filter fun call => call.schemaName = schemaName).flatMap fun call =>
    accountsFor tableName call.accounts

/-- The same accounts in the order of the upserts. -/
def accountsUpserted (calls : List AccountsCall) (schemaName tableName : String) :
    List DecodedAccount :=
  (calls.filter fun call => call.schemaName = schemaName).flatMap fun call =>
    groupAccounts tableName call.groups

theorem versionsOf_accountsUpserted {calls : List AccountsCall}
    (hfit : ∀ call ∈ calls, AccountsFit call.accounts) (schemaName tableName pubkey : String) :
    versionsOf pubkey (accountsUpserted calls schemaName tableName) =
      versionsOf pubkey (accountsWritten calls schemaName tableName) := by
  unfold versionsOf accountsUpserted accountsWritten
  rw [List.filter_flatMap, List.filter_flatMap]
  apply List.flatMap_congr
  intro call hcall
  exact versionsOf_groupAccounts call.iteration (hfit call (List.mem_of_mem_filter hcall)).distinct
    tableName pubkey

theorem Represents.newest {promoted : List PromotedColumn} {defaults : Row pg}
    {table : AccountRows pg} {versions : List DecodedAccount}
    (h : Represents promoted defaults table (keepVersions (fun _ => none) versions))
    (pubkey : String) :
    (table pubkey = none ∧ versionsOf pubkey versions = []) ∨
      ∃ row version, table pubkey = some row ∧
        FirstNewest DecodedAccount.slotUpdated (versionsOf pubkey versions) version ∧
        Shows promoted defaults row version := by
  rcases keepNewest_cases DecodedAccount.pubkey DecodedAccount.slotUpdated versions pubkey with
    ⟨hnone, hall⟩ | ⟨version, hsome, hfirst⟩
  · rcases h.cases pubkey with ⟨hrow, _⟩ | ⟨_, account, _, hkept, _⟩
    · exact .inl ⟨hrow, by simpa [versionsOf] using hall⟩
    · rw [keepVersions, hnone] at hkept
      cases hkept
  · rcases h.cases pubkey with ⟨_, hkept⟩ | ⟨row, account, hrow, hkept, hshows⟩
    · rw [keepVersions, hsome] at hkept
      cases hkept
    · rw [keepVersions, hsome] at hkept
      cases hkept
      exact .inr ⟨row, version, hrow, hfirst, hshows⟩

def HoldsWritten (catalogue : Catalogue) (defaults : String → String → Row pg)
    (tables : String → String → AccountRows pg) (calls : List AccountsCall) : Prop :=
  Holds catalogue defaults tables fun schemaName tableName =>
    keepVersions (fun _ => none) (accountsUpserted calls schemaName tableName)

theorem keepGroups_accountsUpserted (calls : List AccountsCall) (call : AccountsCall) :
    keepGroups call.schemaName (fun schemaName tableName =>
        keepVersions (fun _ => none) (accountsUpserted calls schemaName tableName)) call.groups =
      fun schemaName tableName => keepVersions (fun _ => none)
        (accountsUpserted (calls ++ [call]) schemaName tableName) := by
  funext schemaName tableName
  unfold keepGroups accountsUpserted
  rw [List.filter_append, List.flatMap_append, keepVersions, keepNewest_append]
  by_cases hschema : schemaName = call.schemaName
  · simp [hschema]
  · simp [hschema, Ne.symm hschema, keepNewest]

theorem holds_run (hfit : AccountsFit call.accounts) (hagrees : CacheAgrees catalogue cache)
    {db : AccountDb pg} {before : List AccountsCall}
    (hholds : HoldsWritten catalogue defaults db.tables before) :
    (∃ result, (call.run catalogue defaults cache db).1 = .ok result ∧
        HoldsWritten catalogue defaults (call.run catalogue defaults cache db).2.2.tables
          (before ++ [call])) ∨
      ∃ e, (call.run catalogue defaults cache db).1 = .error e ∧
        (call.run catalogue defaults cache db).2.2 = db := by
  rcases run_cases catalogue defaults call cache db with
    ⟨result, written, tables, hgroups, hresult, hdb⟩ | herror
  · refine .inl ⟨result, hresult, ?_⟩
    rw [hdb, HoldsWritten, ← keepGroups_accountsUpserted]
    exact holds_writeGroups hagrees hfit.groups hholds hgroups
  · exact .inr herror

theorem HoldsWritten.newest {tables : String → String → AccountRows pg}
    {calls : List AccountsCall} (h : HoldsWritten catalogue defaults tables calls)
    (hfit : ∀ call ∈ calls, AccountsFit call.accounts) {schemaName tableName : String}
    {table : TableDef} (htable : catalogue.table schemaName tableName = some table)
    (pubkey : String) :
    (tables schemaName tableName pubkey = none ∧
        versionsOf pubkey (accountsWritten calls schemaName tableName) = []) ∨
      ∃ row version, tables schemaName tableName pubkey = some row ∧
        FirstNewest DecodedAccount.slotUpdated
          (versionsOf pubkey (accountsWritten calls schemaName tableName)) version ∧
        Shows (discoverPromotedColumns table) (defaults schemaName tableName) row version := by
  rw [← versionsOf_accountsUpserted hfit schemaName tableName pubkey]
  exact Represents.newest (h _ _ _ htable) pubkey

end Tables

end Solarix.Storage
