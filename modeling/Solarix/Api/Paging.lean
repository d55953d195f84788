import Solarix.Api.Accounts
import Solarix.Api.Instructions
import Solarix.Core.Outcome

/-!
# Page sizes

`clamp_limit` and `clamp_offset`, and what the two query handlers do with the rows that a
query with one row more than the limit returns.  Both cut the rows to the limit; the
instruction handler then takes the last row of the page for its cursor.  The cut and the
access panic where the language does.
-/

namespace Solarix.Api

open Solarix.Core

/-- The page sizes of `Config`.  Both are read as `u32`, without a parser of their own. -/
structure PageConfig where
  apiDefaultPageSize : UInt32
  apiMaxPageSize : UInt32

/-- `params.get("limit")`, if it is a number that the handlers take. -/
def requestedLimit (params : List (String × String)) : Option Int :=
  match (params.lookup "limit").bind parseI64 with
  | some v => if v ≤ 0 then none else some v
  | none => none

def clampLimit (params : List (String × String)) (config : PageConfig) : Int :=
  match requestedLimit params with
  | some v => min v config.apiMaxPageSize.toNat
  | none => config.apiDefaultPageSize.toNat

/-! ## Slices -/

section Slices

variable {ε α : Type}

/-- `limit as usize`, for a limit of 64 bits. -/
def asUsize (limit : Int) : Nat := (limit % 2 ^ 64).toNat

/-- `&rows[..n]`. -/
def sliceTo (rows : List α) (n : Nat) : Outcome ε (List α) :=
  if n ≤ rows.length then .ok (rows.take n) else Outcome.panic .indexOutOfBounds

/-- `rows.len() - 1`, in a build with overflow checks. -/
def lastIndex (rows : List α) : Outcome ε Nat :=
  if 1 ≤ rows.length then .ok (rows.length - 1) else Outcome.panic .arithmeticOverflow

/-- `&rows[i]`. -/
def getRow (rows : List α) (i : Nat) : Outcome ε α :=
  match rows[i]? with
  | some row => .ok row
  | none => Outcome.panic .indexOutOfBounds

def resultRows (rows : List α) (limit : Int) : Outcome ε (List α) :=
  if limit < rows.length then sliceTo rows (asUsize limit) else .ok rows

end Slices

def instructionPage (base64 : Base64) (rows : List InstructionRow) (limit : Int) :
    Outcome ApiError (List InstructionRow × Option String) := do
  let page ← resultRows rows limit
  if limit < rows.length then
    let last ← getRow page (← lastIndex page)
    .ok (page, some (encodeCursor base64 last.slot last.signature))
  else .ok (page, none)

def accountPage (rows : List AccountRow) (limit : Int) : Outcome ApiError (List AccountRow) :=
  resultRows rows limit

/-! ## When the pages are there -/

section Pages

variable {base64 : Base64} {ε α : Type}

theorem asUsize_of_nonneg {limit : Int} (h : 0 ≤ limit) (hmax : limit ≤ 2 ^ 32) :
    asUsize limit = limit.toNat := by
  unfold asUsize
  rw [Int.emod_eq_of_lt h (by omega)]

theorem resultRows_eq_ok {rows : List α} {limit : Int} (h : 0 ≤ limit) (hmax : limit ≤ 2 ^ 32) :
    (resultRows rows limit : Outcome ε (List α)) =
      .ok (if limit < rows.length then rows.take limit.toNat else rows) := by
  unfold resultRows
  split
  · rw [asUsize_of_nonneg h hmax, sliceTo, if_pos (by omega)]
  · rfl

theorem accountPage_not_panics {rows : List AccountRow} {limit : Int} (h : 0 ≤ limit)
    (hmax : limit ≤ 2 ^ 32) : ¬ (accountPage rows limit).Panics := by
  rw [accountPage, resultRows_eq_ok h hmax]
  exact Outcome.not_panics_ok _

theorem instructionPage_eq_pageOf {rows : List InstructionRow} {limit : Int} (h : 1 ≤ limit)
    (hmax : limit ≤ 2 ^ 32) :
    instructionPage base64 rows limit =
      .ok ((pageOf base64 limit.toNat rows).rows,
        (pageOf base64 limit.toNat rows).nextCursor) := by
  unfold instructionPage
  rw [resultRows_eq_ok (by omega) hmax, Outcome.ok_bind]
  by_cases hmore : limit < rows.length
  · have hlength : (rows.take limit.toNat).length = limit.toNat := by
      rw [List.length_take]
      omega
    have hlt : limit.toNat - 1 < (rows.take limit.toNat).length := by omega
    have hlast : (rows.take limit.toNat).getLast? =
        some (rows.take limit.toNat)[limit.toNat - 1] := by
      rw [List.getLast?_eq_getElem?, hlength, List.getElem?_eq_getElem hlt]
    have hnat : limit.toNat < rows.length := by omega
    rw [if_pos hmore, if_pos hmore, lastIndex, if_pos (by omega), hlength]
    simp only [Outcome.ok_bind, getRow, List.getElem?_eq_getElem hlt]
    simp [pageOf, hnat, hlast]
  · have hnat : ¬ limit.toNat < rows.length := by omega
    rw [if_neg hmore, if_neg hmore]
    simp [pageOf, hnat]

theorem instructionPage_zero {row : InstructionRow} : (instructionPage base64 [row] 0).Panics :=
  ⟨.arithmeticOverflow, rfl⟩

end Pages

/-! ## The limit -/

/-- The limit is a page size, and no answer to the query makes a handler panic. -/
def PagesInBounds (base64 : Base64) (params : List (String × String)) (config : PageConfig) :
    Prop :=
  (1 ≤ clampLimit params config ∧ clampLimit params config ≤ config.apiMaxPageSize.toNat) ∧
    (∀ rows : List InstructionRow, rows.length ≤ clampLimit params config + 1 →
      ¬ (instructionPage base64 rows (clampLimit params config)).Panics) ∧
    ∀ rows : List AccountRow, rows.length ≤ clampLimit params config + 1 →
      ¬ (accountPage rows (clampLimit params config)).Panics

theorem requestedLimit_pos {params : List (String × String)} {v : Int}
    (h : requestedLimit params = some v) : 1 ≤ v := by
  unfold requestedLimit at h
  split at h
  · split at h
    · cases h
    · cases h
      omega
  · cases h

theorem clampLimit_le {params : List (String × String)} {config : PageConfig} :
    clampLimit params config ≤ 2 ^ 32 := by
  have hmax := config.apiMaxPageSize.toNat_lt
  have hdefault := config.apiDefaultPageSize.toNat_lt
  unfold clampLimit
  split <;> omega

/-- The bounds hold exactly when the page size that the request falls back on is positive
and, for a request without a limit, not above the maximum. -/
theorem pages_in_bounds_iff (base64 : Base64) (params : List (String × String))
    (config : PageConfig) :
    PagesInBounds base64 params config ↔
      if (requestedLimit params).isSome then 1 ≤ config.apiMaxPageSize.toNat
      else 1 ≤ config.apiDefaultPageSize.toNat ∧
        config.apiDefaultPageSize.toNat ≤ config.apiMaxPageSize.toNat := by
  have hbounds : PagesInBounds base64 params config ↔
      1 ≤ clampLimit params config ∧
        clampLimit params config ≤ config.apiMaxPageSize.toNat := by
    constructor
    · exact And.left
    · intro h
      refine ⟨h, ?_, ?_⟩
      · intro rows _
        rw [instructionPage_eq_pageOf h.1 clampLimit_le]
        exact Outcome.not_panics_ok _
      · intro rows _
        have hpos := h.1
        exact accountPage_not_panics (by omega) clampLimit_le
  rw [hbounds]
  unfold clampLimit
  cases hrequest : requestedLimit params with
  | none =>
      simp only [Option.isSome_none, Bool.false_eq_true, if_false]
      omega
  | some v =>
      have hpos := requestedLimit_pos hrequest
      simp only [Option.isSome_some, if_true]
      omega

/-- A default page size of 0, which the command line takes. -/
def zeroPages : PageConfig := ⟨0, 1000⟩

def pagedRow : InstructionRow := swapRow 0

/-- Without a limit in the request the page size is 0, and the first row of the answer makes
`query_instructions` panic. -/
theorem page_size_zero :
    clampLimit [] zeroPages = 0 ∧
      (instructionPage .standard [pagedRow] (clampLimit [] zeroPages)).Panics ∧
      ¬ PagesInBounds .standard [] zeroPages := by
  refine ⟨rfl, instructionPage_zero, ?_⟩
  intro h
  have hpos := h.1.1
  revert hpos
  decide

end Solarix.Api
