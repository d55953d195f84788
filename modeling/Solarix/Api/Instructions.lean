import Mathlib.Data.Prod.Lex
import Mathlib.Data.String.Basic
import Solarix.Api.Filters
import Solarix.Core.Base64
import Solarix.Core.Keyset

/-!
# Querying instructions page by page

`query_instructions` from its resolved filters on, the cursor it hands out, and a
client that follows the cursors to the end.  The database is what PostgreSQL is
assumed to be: it evaluates the filters, orders text in some fixed way and returns
rows that tie in any order.
-/

namespace Solarix.Api

open Solarix.Core

/-! ## Cursors -/

def encodeCursor (base64 : Base64) (slot : Int) (signature : String) : String :=
  base64.encode (utf8Bytes (toString slot ++ "_" ++ signature))

def decodeCursor (base64 : Base64) (cursor : String) : Except ApiError (Int × String) :=
  match base64.decode cursor with
  | .error _ => .error (.invalidValue "invalid cursor encoding")
  | .ok decoded =>
      match decodeUtf8 decoded with
      | none => .error (.invalidValue "invalid cursor encoding")
      | some s =>
          match splitOnce '_' s with
          | none => .error (.invalidValue "invalid cursor format")
          | some (slotStr, sig) =>
              match parseI64 slotStr with
              | none => .error (.invalidValue "invalid cursor slot")
              | some slot => .ok (slot, sig)

theorem decodeCursor_encodeCursor (base64 : Base64) {slot : Int} (h : InI64 slot)
    (signature : String) :
    decodeCursor base64 (encodeCursor base64 slot signature) = .ok (slot, signature) := by
  unfold decodeCursor encodeCursor
  rw [base64.decode_encode]
  simp only
  rw [decodeUtf8_eq_some.mpr rfl]
  simp only
  have hsplit : splitOnce '_' (toString slot ++ "_" ++ signature) =
      some (toString slot, signature) :=
    splitOnce_append (not_mem_toString (by decide) (by decide) slot)
  rw [hsplit]
  simp only
  rw [parseI64_toString h]

/-! ## The table -/

structure InstructionRow where
  id : Int
  signature : String
  slot : Int
  slot_range : InI64 slot
  blockTime : Option Int
  instructionName : String
  instructionIndex : Int
  innerIndex : Option Int
  args : Json
  accounts : Json
  data : Json
  isInnerIx : Bool

/-- `("signature", "instruction_index", COALESCE("inner_index", -1))`. -/
def InstructionRow.uniqueKey (row : InstructionRow) : String × Int × Int :=
  (row.signature, row.instructionIndex, row.innerIndex.getD (-1))

structure InstructionsTable where
  rows : List InstructionRow
  unique : (rows.map InstructionRow.uniqueKey).Nodup

/-- The filter that the handler adds for the instruction in the path. -/
def nameFilter (name : String) : ResolvedFilter where
  columnExpr := .promoted "instruction_name" (some "TEXT")
  op := .eq
  value := name

/-! ## The database -/

/-- How the database compares text and evaluates the clause of a filter. -/
structure Database where
  textOrder : LinearOrder String
  holds : ResolvedFilter → InstructionRow → Bool
  holds_name : ∀ name row, holds (nameFilter name) row = (row.instructionName == name)

namespace Database

structure Text (db : Database) where
  text : String

instance (db : Database) : LinearOrder db.Text :=
  @LinearOrder.lift' db.Text String db.textOrder Text.text
    fun _ _ h => congrArg Text.mk h

def matching (db : Database) (filters : List ResolvedFilter) (rows : List InstructionRow) :
    List InstructionRow :=
  rows.filter fun row => filters.all fun filter => db.holds filter row

/-- `ORDER BY "slot" DESC, "signature" DESC`. -/
def sortKey (db : Database) (row : InstructionRow) : Int ×ₗ db.Text :=
  toLex (row.slot, ⟨row.signature⟩)

/-- The cursor condition: `"slot" < s OR ("slot" = s AND "signature" < g)`. -/
def beforeCursor (db : Database) (cursor : Option (Int × String)) (row : InstructionRow) :
    Bool :=
  match cursor with
  | none => true
  | some (slot, signature) =>
      decide (row.slot < slot ∨
        (row.slot = slot ∧ (⟨row.signature⟩ : db.Text) < ⟨signature⟩))

end Database

structure InstructionQuery where
  filters : List ResolvedFilter
  cursor : Option (Int × String)
  limit : Nat

def Database.selected (db : Database) (rows : List InstructionRow) (query : InstructionQuery) :
    List InstructionRow :=
  (db.matching query.filters rows).filter (db.beforeCursor query.cursor)

/-- A database with an answer for every query.  The order of ties may depend on when
the query is made. -/
structure Postgres extends Database where
  answer : Nat → List InstructionRow → InstructionQuery → List InstructionRow
  answer_top : ∀ step rows query,
    IsTop toDatabase.sortKey query.limit (toDatabase.selected rows query)
      (answer step rows query)

/-! ## The handler and its client -/

structure Page where
  rows : List InstructionRow
  limit : Nat
  hasMore : Bool
  nextCursor : Option String

/-- The page made of the fetched rows, one more than the limit if there are that many.
The source indexes the last row of the page, which exists for every limit from 1 on. -/
def pageOf (base64 : Base64) (limit : Nat) (rows : List InstructionRow) : Page :=
  let hasMore := decide (limit < rows.length)
  let resultRows := if hasMore then rows.take limit else rows
  let nextCursor :=
    if hasMore then
      resultRows.getLast?.map fun last => encodeCursor base64 last.slot last.signature
    else none
  ⟨resultRows, limit, hasMore, nextCursor⟩

/-- `query_instructions` with the filters resolved and the limit clamped. -/
def queryInstructions (base64 : Base64) (pg : Postgres) (step : Nat) (table : InstructionsTable)
    (name : String) (resolved : List ResolvedFilter) (limit : Nat) (cursorParam : Option String) :
    Except ApiError Page := do
  let filters := resolved ++ [nameFilter name]
  let cursor ← match cursorParam with
    | none => .ok none
    | some cursor => (decodeCursor base64 cursor).map some
  let rows := pg.answer step table.rows ⟨filters, cursor, limit + 1⟩
  .ok (pageOf base64 limit rows)

/-- Follow `next_cursor` until `has_more` is false.  `none` when the fuel is used up or
a request fails. -/
def followCursors (base64 : Base64) (pg : Postgres) (table : InstructionsTable) (name : String)
    (resolved : List ResolvedFilter) (limit : Nat) : Nat → Nat → Option String →
    Option (List Page)
  | 0, _, _ => none
  | fuel + 1, step, cursor =>
      match queryInstructions base64 pg step table name resolved limit cursor with
      | .error _ => none
      | .ok page =>
          if page.hasMore then
            (followCursors base64 pg table name resolved limit fuel (step + 1)
              page.nextCursor).map fun pages => page :: pages
          else some [page]

/-- `followCursors`, each request on the table that it finds. -/
def followLive (base64 : Base64) (pg : Postgres) (tables : Nat → InstructionsTable)
    (name : String) (resolved : List ResolvedFilter) (limit : Nat) : Nat → Nat →
    Option String → Option (List Page)
  | 0, _, _ => none
  | fuel + 1, step, cursor =>
      match queryInstructions base64 pg step (tables step) name resolved limit cursor with
      | .error _ => none
      | .ok page =>
          if page.hasMore then
            (followLive base64 pg tables name resolved limit fuel (step + 1)
              page.nextCursor).map fun pages => page :: pages
          else some [page]

section Pagination

variable {base64 : Base64} {pg : Postgres} {table : InstructionsTable}
  {tables : Nat → InstructionsTable} {name : String} {resolved : List ResolvedFilter}
  {limit : Nat}

def matchingRows (db : Database) (table : InstructionsTable) (name : String)
    (resolved : List ResolvedFilter) : List InstructionRow :=
  db.matching (resolved ++ [nameFilter name]) table.rows

def keyPair {db : Database} (key : Int ×ₗ db.Text) : Int × String :=
  ((ofLex key).1, (ofLex key).2.text)

def cursorText (base64 : Base64) {db : Database} (key : Int ×ₗ db.Text) : String :=
  encodeCursor base64 (keyPair key).1 (keyPair key).2

theorem beforeCursor_iff {db : Database} {key : Int ×ₗ db.Text} {row : InstructionRow} :
    db.beforeCursor (some (keyPair key)) row = true ↔ db.sortKey row < key := by
  rw [Database.beforeCursor, decide_eq_true_iff, Database.sortKey, Prod.Lex.lt_iff]
  rfl

theorem selected_eq_below (db : Database) (rows : List InstructionRow)
    (filters : List ResolvedFilter) (key : Option (Int ×ₗ db.Text)) (limit : Nat) :
    db.selected rows ⟨filters, key.map keyPair, limit⟩ =
      below db.sortKey key (db.matching filters rows) := by
  cases key with
  | none => exact List.filter_true _
  | some key =>
      apply List.filter_congr
      intro row _
      rw [Bool.eq_iff_iff, decide_eq_true_iff]
      exact beforeCursor_iff

def answerAt (pg : Postgres) (table : InstructionsTable) (name : String)
    (resolved : List ResolvedFilter) (limit step : Nat)
    (key : Option (Int ×ₗ pg.toDatabase.Text)) : List InstructionRow :=
  pg.answer step table.rows ⟨resolved ++ [nameFilter name], key.map keyPair, limit + 1⟩

theorem answers_answerAt :
    Answers pg.sortKey limit (answerAt pg table name resolved limit)
      (matchingRows pg.toDatabase table name resolved) := by
  intro step key
  have h := pg.answer_top step table.rows
    ⟨resolved ++ [nameFilter name], key.map keyPair, limit + 1⟩
  rw [selected_eq_below] at h
  exact h

theorem queryInstructions_eq (step : Nat) {key : Option (Int ×ₗ pg.toDatabase.Text)}
    (hkey : ∀ k ∈ key, InI64 (keyPair k).1) :
    queryInstructions base64 pg step table name resolved limit
        (key.map (cursorText base64)) =
      .ok (pageOf base64 limit (answerAt pg table name resolved limit step key)) := by
  cases key with
  | none => rfl
  | some k =>
      unfold queryInstructions
      simp only [Option.map_some]
      unfold cursorText
      rw [decodeCursor_encodeCursor base64 (hkey k rfl)]
      rfl

theorem pageOf_of_more {rows : List InstructionRow} {last : InstructionRow}
    (hmore : limit < rows.length) (hlast : (rows.take limit).getLast? = some last) :
    pageOf base64 limit rows =
      ⟨rows.take limit, limit, true, some (encodeCursor base64 last.slot last.signature)⟩ := by
  simp [pageOf, hmore, hlast]

theorem pageOf_of_le {rows : List InstructionRow} (hle : rows.length ≤ limit) :
    pageOf base64 limit rows = ⟨rows, limit, false, none⟩ := by
  simp [pageOf, Nat.not_lt.mpr hle]

theorem followLive_eq_walk (hlimit : 0 < limit) (fuel step : Nat)
    (key : Option (Int ×ₗ pg.toDatabase.Text)) (hkey : ∀ k ∈ key, InI64 (keyPair k).1) :
    (followLive base64 pg tables name resolved limit fuel step
        (key.map (cursorText base64))).map (List.map Page.rows) =
      walk pg.sortKey limit (fun step => answerAt pg (tables step) name resolved limit step) fuel
        step key := by
  induction fuel generalizing step key with
  | zero => rfl
  | succ fuel ih =>
      rw [followLive, walk, queryInstructions_eq step hkey]
      by_cases hmore : limit < (answerAt pg (tables step) name resolved limit step key).length
      · have hne : (answerAt pg (tables step) name resolved limit step key).take limit ≠ [] := by
          rw [← List.length_pos_iff, List.length_take]
          omega
        have hlast := List.getLast?_eq_some_getLast hne
        generalize ((answerAt pg (tables step) name resolved limit step key).take limit).getLast
          hne = last at hlast
        have hnext := ih (step + 1) (some (pg.sortKey last)) (by
          intro k hk
          cases hk
          exact last.slot_range)
        rw [if_pos hmore, hlast, pageOf_of_more hmore hlast]
        simp only [if_true, Option.map_map]
        rw [← hnext]
        simp only [Option.map_map]
        rfl
      · rw [if_neg hmore, pageOf_of_le (Nat.le_of_not_lt hmore)]
        rfl

theorem followLive_mono {fuel more step : Nat} {cursor : Option String} {pages : List Page}
    (hle : fuel ≤ more)
    (h : followLive base64 pg tables name resolved limit fuel step cursor = some pages) :
    followLive base64 pg tables name resolved limit more step cursor = some pages := by
  induction fuel generalizing more step cursor pages with
  | zero => cases h
  | succ fuel ih =>
      obtain ⟨more, rfl⟩ : ∃ k, more = k + 1 := ⟨more - 1, by omega⟩
      rw [followLive] at h ⊢
      cases hpage : queryInstructions base64 pg step (tables step) name resolved limit cursor with
      | error e =>
          rw [hpage] at h
          cases h
      | ok page =>
          rw [hpage] at h
          simp only at h ⊢
          by_cases hmore : page.hasMore = true
          · rw [if_pos hmore] at h ⊢
            obtain ⟨rest, hrest, rfl⟩ := Option.map_eq_some_iff.mp h
            rw [ih (Nat.le_of_succ_le_succ hle) hrest]
            rfl
          · rw [if_neg hmore] at h ⊢
            exact h

theorem followCursors_eq_live (fuel step : Nat) (cursor : Option String) :
    followCursors base64 pg table name resolved limit fuel step cursor =
      followLive base64 pg (fun _ => table) name resolved limit fuel step cursor := by
  induction fuel generalizing step cursor with
  | zero => rfl
  | succ fuel ih => simp only [followCursors, followLive, ih]

theorem followCursors_ends (base64 : Base64) (pg : Postgres) (table : InstructionsTable)
    (name : String) (resolved : List ResolvedFilter) (hlimit : 0 < limit) :
    ∃ pages, (∀ fuel, table.rows.length < fuel →
        followCursors base64 pg table name resolved limit fuel 0 none = some pages) ∧
      ((pages.map Page.rows).flatten.Perm (matchingRows pg.toDatabase table name resolved) ↔
        Aligned pg.sortKey limit (matchingRows pg.toDatabase table name resolved)) := by
  have hbound : (matchingRows pg.toDatabase table name resolved).length <
      table.rows.length + 1 := Nat.lt_succ_of_le (List.length_filter_le ..)
  have hanswers : Answers pg.sortKey limit (answerAt pg table name resolved limit)
      (matchingRows pg.toDatabase table name resolved) := answers_answerAt
  obtain ⟨rows, hwalk, _, hiff⟩ := walk_below hlimit hanswers _ 0 none hbound
  have hfollow : (followLive base64 pg (fun _ => table) name resolved limit
      (table.rows.length + 1) 0 none).map (List.map Page.rows) = some rows := by
    rw [← hwalk _ le_rfl]
    exact followLive_eq_walk hlimit _ 0 none (by simp)
  obtain ⟨pages, hpages, hrows⟩ := Option.map_eq_some_iff.mp hfollow
  refine ⟨pages, fun fuel hfuel => ?_, ?_⟩
  · rw [followCursors_eq_live]
    exact followLive_mono hfuel hpages
  · rw [hrows]
    exact hiff

/-- Following the cursors terminates, and the pages hold every matching row exactly
once if and only if no group of matching rows with the same slot and signature lies
across a page boundary. -/
theorem pagination_exactly_once_iff (base64 : Base64) (pg : Postgres) (table : InstructionsTable)
    (name : String) (resolved : List ResolvedFilter) (limit : Nat) (hlimit : 0 < limit) :
    ∃ pages, (∀ fuel, table.rows.length < fuel →
        followCursors base64 pg table name resolved limit fuel 0 none = some pages) ∧
      ((pages.flatMap Page.rows).Perm (matchingRows pg.toDatabase table name resolved) ↔
        Aligned pg.sortKey limit (matchingRows pg.toDatabase table name resolved)) := by
  obtain ⟨pages, hpages, hiff⟩ := followCursors_ends base64 pg table name resolved hlimit
  refine ⟨pages, hpages, ?_⟩
  rw [List.flatMap_def]
  exact hiff

end Pagination

/-! ## Two instructions of one transaction -/

/-- Byte order for text, ties in the order of the table. -/
def byteOrderDatabase : Database where
  textOrder := inferInstance
  holds filter row :=
    decide (filter ≠ nameFilter filter.value) || row.instructionName == filter.value
  holds_name name row := by simp [nameFilter]

def byteOrderPostgres : Postgres where
  toDatabase := byteOrderDatabase
  answer _ rows query :=
    ((byteOrderDatabase.selected rows query).insertionSort fun a b =>
      byteOrderDatabase.sortKey b ≤ byteOrderDatabase.sortKey a).take query.limit
  answer_top _ rows query := by
    have : Std.Total fun a b : InstructionRow =>
        byteOrderDatabase.sortKey b ≤ byteOrderDatabase.sortKey a := ⟨fun a b => le_total _ _⟩
    have : IsTrans InstructionRow fun a b =>
        byteOrderDatabase.sortKey b ≤ byteOrderDatabase.sortKey a :=
      ⟨fun a b c hab hbc => hbc.trans hab⟩
    exact ⟨_, List.perm_insertionSort _ _, List.pairwise_insertionSort _ _, rfl⟩

def swapRow (index : Int) : InstructionRow where
  id := index
  signature := "sig"
  slot := 7
  slot_range := by decide
  blockTime := none
  instructionName := "swap"
  instructionIndex := index
  innerIndex := none
  args := .null
  accounts := .null
  data := .null
  isInnerIx := false

/-- Instructions 0 and 1 of one transaction. -/
def swapTable : InstructionsTable where
  rows := [swapRow 0, swapRow 1]
  unique := by decide

/-- The same two instructions in a later transaction. -/
def laterRow (index : Int) : InstructionRow :=
  { swapRow index with signature := "later", slot := 9, slot_range := by decide }

def swapsTable : InstructionsTable where
  rows := [swapRow 0, swapRow 1, laterRow 0, laterRow 1]
  unique := by decide

/-- With two rows a page every page is a transaction. -/
theorem pagination_exactly_once_iff_swap :
    ∃ pages, (∀ fuel, 4 < fuel →
        followCursors .standard byteOrderPostgres swapsTable "swap" [] 2 fuel 0 none =
          some pages) ∧
      pages.map Page.rows = [[laterRow 0, laterRow 1], [swapRow 0, swapRow 1]] ∧
      (pages.flatMap Page.rows).Perm (matchingRows byteOrderDatabase swapsTable "swap" []) := by
  obtain ⟨pages, hpages, hiff⟩ :=
    pagination_exactly_once_iff .standard byteOrderPostgres swapsTable "swap" [] 2 (by decide)
  have hrun : (followCursors .standard byteOrderPostgres swapsTable "swap" [] 2 5 0 none).map
      (List.map Page.rows) = some [[laterRow 0, laterRow 1], [swapRow 0, swapRow 1]] := by
    rfl
  rw [hpages 5 (by decide)] at hrun
  have haligned : Aligned byteOrderDatabase.sortKey 2
      (matchingRows byteOrderDatabase swapsTable "swap" []) := by
    decide +kernel
  exact ⟨pages, hpages, Option.some.inj hrun, hiff.mpr haligned⟩

theorem matchingRows_swapTable :
    matchingRows byteOrderDatabase swapTable "swap" [] = [swapRow 0, swapRow 1] := by
  rfl

/-- With one row a page the second instruction is never returned. -/
theorem pagination_loses_tied_row :
    ∃ pages, (∀ fuel, 2 < fuel →
        followCursors .standard byteOrderPostgres swapTable "swap" [] 1 fuel 0 none = some pages) ∧
      ¬ (pages.flatMap Page.rows).Perm (matchingRows byteOrderDatabase swapTable "swap" []) := by
  obtain ⟨pages, hpages, hiff⟩ :=
    followCursors_ends .standard byteOrderPostgres swapTable "swap" [] (show 0 < 1 by decide)
  refine ⟨pages, hpages, ?_⟩
  rw [List.flatMap_def]
  intro hperm
  have haligned : Aligned byteOrderDatabase.sortKey 1 [swapRow 0, swapRow 1] := by
    rw [← matchingRows_swapTable]
    exact hiff.mp hperm
  have htie : byteOrderDatabase.sortKey (swapRow 1) = byteOrderDatabase.sortKey (swapRow 0) := rfl
  have hpage := haligned (swapRow 0) (by simp)
  simp [above, tied, htie] at hpage

end Solarix.Api
