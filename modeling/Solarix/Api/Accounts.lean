import Solarix.Api.Filters
import Solarix.Core.Offset

/-!
# Querying accounts page by page

`query_accounts` from its resolved filters on, and a client that asks for the offsets 0,
`limit`, `2 * limit` and so on.  The query orders by `slot_updated` alone, so PostgreSQL may
arrange the rows of one slot anew for every query.
-/

namespace Solarix.Api

open Solarix.Core

/-- A row of an account table; `promoted` holds its promoted columns. -/
structure AccountRow where
  pubkey : String
  slotUpdated : Int
  writeVersion : Int
  lamports : Int
  data : Json
  isClosed : Bool
  promoted : List (String × Json)

structure AccountsTable where
  rows : List AccountRow
  primary : (rows.map AccountRow.pubkey).Nodup

/-- The rows that a filter list lets through; `holds` evaluates the clause of a filter. -/
def matchingAccounts (holds : ResolvedFilter → AccountRow → Bool) (table : AccountsTable)
    (resolved : List ResolvedFilter) : List AccountRow :=
  table.rows.filter fun row => resolved.all fun filter => holds filter row

/-- The order in which each query sees the rows, by its number and its offset. -/
structure TieOrders (rows : List AccountRow) where
  order : Nat → Nat → List AccountRow
  arranged : ∀ step offset, Arrangement AccountRow.slotUpdated rows (order step offset)

structure AccountsPage where
  rows : List AccountRow
  total : Nat
  limit : Nat
  offset : Nat
  hasMore : Bool

section Handler

variable {holds : ResolvedFilter → AccountRow → Bool} {table : AccountsTable}
  {resolved : List ResolvedFilter}

/-- `ORDER BY "slot_updated" DESC LIMIT limit + 1 OFFSET offset`. -/
def fetchRows (ties : TieOrders (matchingAccounts holds table resolved))
    (limit step offset : Nat) : List AccountRow :=
  ((ties.order step offset).drop offset).take (limit + 1)

/-- `query_accounts` with the filters resolved, the limit and the offset clamped.  `total`
counts the table without the filters. -/
def queryAccounts (ties : TieOrders (matchingAccounts holds table resolved))
    (limit step offset : Nat) : AccountsPage :=
  let rows := fetchRows ties limit step offset
  let hasMore := decide (limit < rows.length)
  { rows := if hasMore then rows.take limit else rows
    total := table.rows.length
    limit := limit
    offset := offset
    hasMore := hasMore }

/-- Ask for page after page until `has_more` is false. -/
def followOffsets (ties : TieOrders (matchingAccounts holds table resolved)) (limit : Nat) :
    Nat → Nat → Nat → Option (List AccountsPage)
  | 0, _, _ => none
  | fuel + 1, step, offset =>
      let page := queryAccounts ties limit step offset
      if page.hasMore then
        (followOffsets ties limit fuel (step + 1) (offset + limit)).map fun pages => page :: pages
      else some [page]

end Handler

section Pagination

variable {holds : ResolvedFilter → AccountRow → Bool} {table : AccountsTable}
  {resolved : List ResolvedFilter} {limit : Nat}

theorem nodup_matchingAccounts : (matchingAccounts holds table resolved).Nodup :=
  table.primary.of_map.filter _

theorem sliceAnswers_fetchRows (ties : TieOrders (matchingAccounts holds table resolved)) :
    SliceAnswers AccountRow.slotUpdated limit (fetchRows ties limit)
      (matchingAccounts holds table resolved) :=
  fun step offset => ⟨ties.order step offset, ties.arranged step offset, rfl⟩

theorem exists_tieOrders {answer : Nat → Nat → List AccountRow}
    (h : SliceAnswers AccountRow.slotUpdated limit answer
      (matchingAccounts holds table resolved)) :
    ∃ ties : TieOrders (matchingAccounts holds table resolved),
      fetchRows ties limit = answer := by
  choose order harranged hanswer using h
  refine ⟨⟨order, harranged⟩, ?_⟩
  funext step offset
  exact (hanswer step offset).symm

theorem followOffsets_eq_walk (ties : TieOrders (matchingAccounts holds table resolved))
    (fuel step offset : Nat) :
    (followOffsets ties limit fuel step offset).map (List.map AccountsPage.rows) =
      offsetWalk limit (fetchRows ties limit) fuel step offset := by
  induction fuel generalizing step offset with
  | zero => rfl
  | succ fuel ih =>
      rw [followOffsets, offsetWalk, ← ih]
      by_cases hmore : limit < (fetchRows ties limit step offset).length
      · have hpage : queryAccounts ties limit step offset =
            ⟨(fetchRows ties limit step offset).take limit, table.rows.length, limit, offset,
              true⟩ := by
          simp [queryAccounts, hmore]
        rw [hpage, if_pos rfl, if_pos hmore, Option.map_map, Option.map_map]
        rfl
      · have hpage : queryAccounts ties limit step offset =
            ⟨fetchRows ties limit step offset, table.rows.length, limit, offset, false⟩ := by
          simp [queryAccounts, hmore]
        rw [hpage, if_neg (by simp), if_neg hmore]
        rfl

theorem followOffsets_mono {ties : TieOrders (matchingAccounts holds table resolved)}
    {fuel more step offset : Nat} {pages : List AccountsPage} (hle : fuel ≤ more)
    (h : followOffsets ties limit fuel step offset = some pages) :
    followOffsets ties limit more step offset = some pages := by
  induction fuel generalizing more step offset pages with
  | zero => cases h
  | succ fuel ih =>
      obtain ⟨more, rfl⟩ : ∃ k, more = k + 1 := ⟨more - 1, by omega⟩
      rw [followOffsets] at h ⊢
      split
      · rename_i hmore
        rw [if_pos hmore] at h
        obtain ⟨rest, hrest, rfl⟩ := Option.map_eq_some_iff.mp h
        rw [ih (by omega) hrest]
        rfl
      · rename_i hmore
        rw [if_neg hmore] at h
        exact h

theorem followOffsets_ends_iff (ties : TieOrders (matchingAccounts holds table resolved))
    (bound : Nat) (P : List AccountRow → Prop) :
    (∃ pages, (∀ fuel, bound < fuel → followOffsets ties limit fuel 0 0 = some pages) ∧
        P (pages.flatMap AccountsPage.rows)) ↔
      ∃ rows, (∀ fuel, bound < fuel →
        offsetWalk limit (fetchRows ties limit) fuel 0 0 = some rows) ∧ P rows.flatten := by
  simp only [← followOffsets_eq_walk, List.flatMap_def]
  constructor
  · rintro ⟨pages, hpages, hrows⟩
    refine ⟨pages.map AccountsPage.rows, fun fuel hfuel => ?_, hrows⟩
    rw [hpages fuel hfuel]
    rfl
  · rintro ⟨rows, hwalk, hrows⟩
    obtain ⟨pages, hpages, rfl⟩ := Option.map_eq_some_iff.mp (hwalk _ (Nat.lt_succ_self bound))
    exact ⟨pages, fun fuel hfuel => followOffsets_mono hfuel hpages, hrows⟩

/-- Asking for the offsets in turn ends and returns every matching row exactly once,
however the queries order the ties: this holds if and only if no group of matching rows
with the same `slot_updated` lies across a page boundary. -/
theorem offset_pagination_exactly_once_iff (holds : ResolvedFilter → AccountRow → Bool)
    (table : AccountsTable) (resolved : List ResolvedFilter) (limit : Nat)
    (hlimit : 0 < limit) :
    (∀ ties : TieOrders (matchingAccounts holds table resolved),
      ∃ pages, (∀ fuel, table.rows.length < fuel →
          followOffsets ties limit fuel 0 0 = some pages) ∧
        (pages.flatMap AccountsPage.rows).Perm (matchingAccounts holds table resolved)) ↔
      Aligned AccountRow.slotUpdated limit (matchingAccounts holds table resolved) := by
  have hbound : (matchingAccounts holds table resolved).length ≤ table.rows.length :=
    List.length_filter_le ..
  rw [← offsetWalk_exact_iff hlimit nodup_matchingAccounts hbound]
  simp only [followOffsets_ends_iff _ _ fun rows =>
    rows.Perm (matchingAccounts holds table resolved)]
  constructor
  · intro hexact answer hanswer
    obtain ⟨ties, rfl⟩ := exists_tieOrders hanswer
    exact hexact ties
  · intro hexact ties
    exact hexact _ (sliceAnswers_fetchRows ties)

end Pagination

/-! ## Two accounts of one snapshot -/

def snapshotRow (pubkey : String) : AccountRow where
  pubkey := pubkey
  slotUpdated := 7
  writeVersion := 0
  lamports := 1
  data := .null
  isClosed := false
  promoted := []

def snapshotTable : AccountsTable where
  rows := [snapshotRow "a", snapshotRow "b"]
  primary := by decide

/-- The same two accounts, and two of a later snapshot. -/
def snapshotsTable : AccountsTable where
  rows := [snapshotRow "a", snapshotRow "b", { snapshotRow "c" with slotUpdated := 9 },
    { snapshotRow "d" with slotUpdated := 9 }]
  primary := by decide

/-- With two rows a page every page is a snapshot, and all four accounts are returned. -/
theorem offset_pagination_exactly_once_iff_snapshot :
    Aligned AccountRow.slotUpdated 2 (matchingAccounts (fun _ _ => true) snapshotsTable []) ∧
      ∀ ties : TieOrders (matchingAccounts (fun _ _ => true) snapshotsTable []),
        ∃ pages, (∀ fuel, 4 < fuel → followOffsets ties 2 fuel 0 0 = some pages) ∧
          (pages.flatMap AccountsPage.rows).Perm snapshotsTable.rows := by
  have haligned : Aligned AccountRow.slotUpdated 2
      (matchingAccounts (fun _ _ => true) snapshotsTable []) := by
    decide
  exact ⟨haligned, (offset_pagination_exactly_once_iff (fun _ _ => true) snapshotsTable [] 2
    (by decide)).mpr haligned⟩

/-- The first query sees `a` first, every later one `b`. -/
def turnedTies : TieOrders (matchingAccounts (fun _ _ => true) snapshotTable []) where
  order _ offset :=
    if offset = 0 then [snapshotRow "a", snapshotRow "b"]
    else [snapshotRow "b", snapshotRow "a"]
  arranged _ offset := by
    split
    · exact ⟨List.Perm.refl _, by simp [snapshotRow]⟩
    · exact ⟨List.Perm.swap _ _ _, by simp [snapshotRow]⟩

/-- With one row a page, `a` is returned twice and `b` never. -/
theorem offset_pagination_repeats_tied_row :
    ¬ ∃ pages, (∀ fuel, 2 < fuel → followOffsets turnedTies 1 fuel 0 0 = some pages) ∧
      (pages.flatMap AccountsPage.rows).Perm
        (matchingAccounts (fun _ _ => true) snapshotTable []) := by
  rintro ⟨pages, hpages, hperm⟩
  have hfollow : followOffsets turnedTies 1 3 0 0 =
      some [⟨[snapshotRow "a"], 2, 1, 0, true⟩, ⟨[snapshotRow "a"], 2, 1, 1, false⟩] := rfl
  rw [hpages 3 (by decide)] at hfollow
  cases hfollow
  have hmem : snapshotRow "b" ∈ [snapshotRow "a", snapshotRow "a"] :=
    hperm.mem_iff.mpr (List.mem_cons_of_mem _ List.mem_cons_self)
  have hb : ("b" : String) ∈ ["a", "a"] := List.mem_map_of_mem (f := AccountRow.pubkey) hmem
  exact absurd hb (by decide)

end Solarix.Api
