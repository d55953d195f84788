import Solarix.Api.FilterColumns
import Solarix.Storage.Columns
import Solarix.Storage.Queries

/-!
# The tables of the account types

The schema generator, the writer and the query handler each sanitise the name of an account
type and take the result as the name of its table.  `CREATE TABLE IF NOT EXISTS` leaves the
first table of a name in place, so two types whose names merge share one table, and a type
whose name merges with that of a system table has none of its own.
-/

namespace Solarix.Api

open Solarix.Core Solarix.Storage

/-- The tables of every schema that belong to no account type. -/
def systemTables : List String := ["_instructions", "_metadata", "_checkpoints"]

def writtenTable (accountType : String) : String := sanitizeIdentifier accountType

def accountTarget (schemaName accountType : String) : QueryTarget :=
  .accounts schemaName (sanitizeIdentifier accountType)

/-- The table of the account type, which no other type and no system table shares, is the one
that the writer and the query handler address. -/
structure SeparateTables (idl : Idl) (schemaName : String) : Prop where
  distinct : (idl.accounts.map fun account =>
    pgIdentifier (accountTable idl schemaName account.name).name).Nodup
  notSystem : ∀ account ∈ idl.accounts,
    pgIdentifier (accountTable idl schemaName account.name).name ∉
      systemTables.map pgIdentifier
  written : ∀ account ∈ idl.accounts,
    createdTable (buildDdlStatements idl schemaName) (writtenTable account.name) =
      some (accountTable idl schemaName account.name)
  queried : ∀ account ∈ idl.accounts,
    (accountTarget schemaName account.name).schema = schemaName ∧
      createdTable (buildDdlStatements idl schemaName)
        (accountTarget schemaName account.name).table =
        some (accountTable idl schemaName account.name)

def NamesApart (idl : Idl) : Prop :=
  idl.accounts.Pairwise (fun account other => ¬ Merges account.name other.name) ∧
    ∀ account ∈ idl.accounts, ∀ table ∈ systemTables, ¬ Merges account.name table

section Tables

variable {idl : Idl} {schemaName : String}

theorem sanitize_systemTables : ∀ table ∈ systemTables,
    sanitizeIdentifier table = table ∧ pgIdentifier table = table := by
  decide +kernel

theorem merges_systemTable {name table : String} (htable : table ∈ systemTables) :
    Merges name table ↔ sanitizeIdentifier name = table := by
  rw [← sanitizeIdentifier_eq_iff, (sanitize_systemTables table htable).1]

theorem distinct_iff :
    (idl.accounts.map fun account =>
      pgIdentifier (accountTable idl schemaName account.name).name).Nodup ↔
      idl.accounts.Pairwise fun account other => ¬ Merges account.name other.name := by
  rw [List.Nodup, List.pairwise_map]
  apply List.Pairwise.iff
  intro account other
  rw [accountTable_name, accountTable_name, pgIdentifier_sanitizeIdentifier,
    pgIdentifier_sanitizeIdentifier, ← sanitizeIdentifier_eq_iff]

theorem notSystem_iff {account : IdlAccount} :
    pgIdentifier (accountTable idl schemaName account.name).name ∉
        systemTables.map pgIdentifier ↔
      ∀ table ∈ systemTables, ¬ Merges account.name table := by
  rw [accountTable_name, pgIdentifier_sanitizeIdentifier]
  constructor
  · intro hnot table htable hmerges
    refine hnot (List.mem_map.mpr ⟨table, htable, ?_⟩)
    rw [(sanitize_systemTables table htable).2, (merges_systemTable htable).mp hmerges]
  · intro hapart hmem
    obtain ⟨table, htable, heq⟩ := List.mem_map.mp hmem
    rw [(sanitize_systemTables table htable).2] at heq
    exact hapart table htable ((merges_systemTable htable).mpr heq.symm)

theorem createdTable_of_apart (h : NamesApart idl) {account : IdlAccount}
    (haccount : account ∈ idl.accounts) :
    createdTable (buildDdlStatements idl schemaName) (sanitizeIdentifier account.name) =
      some (accountTable idl schemaName account.name) := by
  have howner : tableOwner idl (sanitizeIdentifier account.name) = some account.name := by
    have hsystem : sanitizeIdentifier account.name ∉ ["_metadata", "_checkpoints"] := by
      intro hmem
      have htable : sanitizeIdentifier account.name ∈ systemTables :=
        List.mem_cons_of_mem _ hmem
      exact h.2 account haccount _ htable ((merges_systemTable htable).mpr rfl)
    rw [tableOwner, if_neg hsystem]
    obtain ⟨owner, hfound⟩ : ∃ owner, (idl.accounts.find? fun other =>
        sanitizeIdentifier other.name == sanitizeIdentifier account.name) = some owner := by
      rw [← Option.isSome_iff_exists, List.find?_isSome]
      exact ⟨account, haccount, by simp⟩
    have hmerges : Merges owner.name account.name := by
      rw [← sanitizeIdentifier_eq_iff]
      simpa using List.find?_some hfound
    have hmem := List.mem_of_find?_eq_some hfound
    -- two accounts that merge are at one place of the list
    have hsame : owner = account := by
      by_contra hne
      have hsymm : Std.Symm fun a b : IdlAccount => ¬ Merges a.name b.name :=
        ⟨fun a b hab hba => hab ((sanitizeIdentifier_eq_iff _ _).mp
          ((sanitizeIdentifier_eq_iff _ _).mpr hba).symm)⟩
      exact h.1.forall hmem haccount hne hmerges
    rw [hfound, hsame]
    rfl
  rcases createdTable_account haccount with ⟨owner, hown, hcreated⟩ | ⟨hnone, _⟩
  · rw [howner] at hown
    cases hown
    exact hcreated
  · rw [howner] at hnone
    cases hnone

end Tables

/-- The account types get tables of their own, which the writer and the query handler
address, if and only if their names stay apart when they are sanitised. -/
theorem account_tables_separate_iff (idl : Idl) (schemaName : String) :
    SeparateTables idl schemaName ↔ NamesApart idl := by
  constructor
  · intro h
    refine ⟨distinct_iff.mp h.distinct, ?_⟩
    intro account haccount
    exact notSystem_iff.mp (h.notSystem account haccount)
  · intro h
    refine ⟨distinct_iff.mpr h.1, ?_, ?_, ?_⟩
    · intro account haccount
      exact notSystem_iff.mpr (h.2 account haccount)
    · intro account haccount
      exact createdTable_of_apart h haccount
    · intro account haccount
      exact ⟨rfl, createdTable_of_apart h haccount⟩

def caseIdl : Idl where
  address := "prog"
  instructions := []
  accounts := [⟨"Pool", [1]⟩, ⟨"pool", [2]⟩]
  types := [⟨"Pool", .borsh, [], .struct (some (.named [⟨"fee", .int .u64⟩]))⟩,
    ⟨"pool", .borsh, [], .struct (some (.named [⟨"owner", .pubkey⟩]))⟩]

/-- Both types are stored in the table of the first, which has no column for `owner`. -/
theorem account_tables_shared :
    ¬ ∀ idl : Idl, (idl.accounts.map IdlAccount.name).Nodup →
      ∀ schemaName, SeparateTables idl schemaName := by
  intro h
  have hdistinct := (h caseIdl (by decide) "pools").distinct
  revert hdistinct
  decide +kernel

end Solarix.Api
