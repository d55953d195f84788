import Solarix.Core.Keyset

/-!
# Offset pagination

A store is read in pages of at most `limit` rows in descending order of a key, each page
by its offset.  Every query may arrange the rows of equal key anew.

The pages hold every row once, however the queries arrange the ties, exactly when no group
of rows with equal key lies across a page boundary (`offsetWalk_exact_iff`).
-/

namespace Solarix.Core

section Offset

variable {α κ : Type} [LinearOrder κ]

structure Arrangement (key : α → κ) (rows sorted : List α) : Prop where
  perm : sorted.Perm rows
  descending : sorted.Pairwise fun a b => key b ≤ key a

/-- `count` rows from `offset` on, of some descending arrangement of the rows. -/
def IsSlice (key : α → κ) (offset count : Nat) (rows answer : List α) : Prop :=
  ∃ sorted, Arrangement key rows sorted ∧ answer = (sorted.drop offset).take count

/-- Read page after page.  `answer` gives the rows of the `step`-th query, at most
`limit + 1` of them; the extra row only says that there are more. -/
def offsetWalk (limit : Nat) (answer : Nat → Nat → List α) :
    Nat → Nat → Nat → Option (List (List α))
  | 0, _, _ => none
  | fuel + 1, step, offset =>
      let rows := answer step offset
      if limit < rows.length then
        (offsetWalk limit answer fuel (step + 1) (offset + limit)).map fun pages =>
          rows.take limit :: pages
      else some [rows]

def SliceAnswers (key : α → κ) (limit : Nat) (answer : Nat → Nat → List α)
    (rows : List α) : Prop :=
  ∀ step offset, IsSlice key offset (limit + 1) rows (answer step offset)

variable {key : α → κ} {limit : Nat} {rows sorted : List α}

/-! ## The place of a row -/

section Place

variable {front back : List α} {row : α}

/-- A row stands behind the rows above it, and before the end of its group. -/
theorem Arrangement.place (h : Arrangement key rows (front ++ row :: back)) :
    above key rows row ≤ front.length ∧
      front.length < above key rows row + tied key rows row := by
  obtain ⟨_, hback, hfront⟩ := List.pairwise_append.mp h.descending
  obtain ⟨hrow, _⟩ := List.pairwise_cons.mp hback
  constructor
  · have hrest : above key (row :: back) row = 0 := by
      refine List.countP_eq_zero.mpr fun x hx => ?_
      rcases List.mem_cons.mp hx with rfl | hx
      · simp
      · simpa using hrow x hx
    calc above key rows row = above key (front ++ row :: back) row := (h.perm.countP_eq _).symm
      _ = above key front row + above key (row :: back) row := above_append ..
      _ ≤ front.length := by
          rw [hrest, Nat.add_zero]
          exact List.countP_le_length
  · have hcount : (front.countP fun x => key row ≤ key x) = front.length :=
      List.countP_eq_length.mpr fun x hx => by simpa using hfront x hx row List.mem_cons_self
    have hself : 0 < (row :: back).countP fun x => key row ≤ key x :=
      List.countP_pos_iff.mpr ⟨row, List.mem_cons_self, by simp⟩
    rw [above_add_tied, ← h.perm.countP_eq, List.countP_append, hcount]
    omega

theorem Arrangement.above_lt_of_mem_take (h : Arrangement key rows sorted) {count : Nat}
    (hrow : row ∈ sorted.take count) : above key rows row < count := by
  obtain ⟨front, back, hsplit⟩ := List.append_of_mem hrow
  have hsorted : sorted = front ++ row :: (back ++ sorted.drop count) := by
    rw [← List.cons_append, ← List.append_assoc, ← hsplit, List.take_append_drop]
  rw [hsorted] at h
  have hlength := congrArg List.length hsplit
  rw [List.length_take, List.length_append, List.length_cons] at hlength
  have hplace := h.place.1
  omega

theorem Arrangement.le_above_of_mem_drop (h : Arrangement key rows sorted)
    (haligned : Aligned key limit rows) {page : Nat}
    (hrow : row ∈ sorted.drop (page * limit)) : page * limit ≤ above key rows row := by
  obtain ⟨front, back, hsplit⟩ := List.append_of_mem hrow
  have hmem : row ∈ rows := h.perm.mem_iff.mp (List.mem_of_mem_drop hrow)
  have hsorted : sorted = (sorted.take (page * limit) ++ front) ++ row :: back := by
    rw [List.append_assoc, ← hsplit, List.take_append_drop]
  have hlength : page * limit ≤ (sorted.take (page * limit) ++ front).length := by
    have hpos := List.length_pos_of_mem hrow
    rw [List.length_drop] at hpos
    rw [List.length_append, List.length_take]
    omega
  rw [hsorted] at h
  have hend := h.place.2
  rcases Nat.eq_zero_or_pos limit with rfl | hlimit
  · simp
  · rw [← Nat.le_div_iff_mul_le hlimit, haligned row hmem, Nat.le_div_iff_mul_le hlimit]
    omega

end Place

/-! ## Aligned groups -/

section Aligned

/-- The rows whose group starts on the page or later. -/
def fromPage (key : α → κ) (limit page : Nat) (rows : List α) : List α :=
  rows.filter fun row => page * limit ≤ above key rows row

theorem Arrangement.drop_perm (h : Arrangement key rows sorted)
    (haligned : Aligned key limit rows) (page : Nat) :
    (sorted.drop (page * limit)).Perm (fromPage key limit page rows) := by
  have hdrop : (sorted.filter fun row => page * limit ≤ above key rows row) =
      sorted.drop (page * limit) := by
    conv_lhs => rw [← List.take_append_drop (page * limit) sorted]
    rw [List.filter_append, List.filter_eq_nil_iff.mpr, List.filter_eq_self.mpr,
      List.nil_append]
    · intro row hrow
      simpa using h.le_above_of_mem_drop haligned hrow
    · intro row hrow
      simpa using h.above_lt_of_mem_take hrow
  rw [← hdrop]
  exact h.perm.filter _

theorem Arrangement.page_append_perm (h : Arrangement key rows sorted)
    (haligned : Aligned key limit rows) (page : Nat) :
    ((sorted.drop (page * limit)).take limit ++ fromPage key limit (page + 1) rows).Perm
      (fromPage key limit page rows) := by
  have hnext : (sorted.drop (page * limit)).drop limit = sorted.drop ((page + 1) * limit) := by
    rw [List.drop_drop, Nat.succ_mul]
  refine List.Perm.trans ?_ (h.drop_perm haligned page)
  conv_rhs => rw [← List.take_append_drop limit (sorted.drop (page * limit)), hnext]
  exact (h.drop_perm haligned (page + 1)).symm.append_left _

end Aligned

/-! ## The whole walk -/

section Walk

variable {answer : Nat → Nat → List α}

theorem offsetWalk_step (h : SliceAnswers key limit answer rows) (step offset : Nat) :
    ∃ sorted, Arrangement key rows sorted ∧
      ((rows.length ≤ offset + limit ∧
        ∀ fuel, offsetWalk limit answer (fuel + 1) step offset = some [sorted.drop offset]) ∨
      (offset + limit < rows.length ∧
        ∀ fuel, offsetWalk limit answer (fuel + 1) step offset =
          (offsetWalk limit answer fuel (step + 1) (offset + limit)).map
            ((sorted.drop offset).take limit :: ·))) := by
  obtain ⟨sorted, harranged, hanswer⟩ := h step offset
  have hlength : (sorted.drop offset).length = rows.length - offset := by
    rw [List.length_drop, harranged.perm.length_eq]
  refine ⟨sorted, harranged, ?_⟩
  by_cases hmore : limit < (answer step offset).length
  · right
    have hmore' := hmore
    rw [hanswer, List.length_take, hlength] at hmore'
    refine ⟨by omega, fun fuel => ?_⟩
    rw [offsetWalk, if_pos hmore, hanswer, List.take_take, Nat.min_eq_left (Nat.le_succ limit)]
  · left
    have hshort := hmore
    rw [hanswer, List.length_take, hlength] at hshort
    refine ⟨by omega, fun fuel => ?_⟩
    rw [offsetWalk, if_neg hmore, hanswer, List.take_of_length_le (by omega)]

theorem offsetWalk_ends (hlimit : 0 < limit) (h : SliceAnswers key limit answer rows)
    (bound step offset : Nat) (hbound : rows.length < offset + bound) (hpos : 0 < bound) :
    ∃ pages, ∀ fuel, bound ≤ fuel →
      offsetWalk limit answer fuel step offset = some pages := by
  induction bound generalizing step offset with
  | zero => omega
  | succ bound ih =>
      have hfuel {fuel : Nat} (hle : bound + 1 ≤ fuel) : ∃ k, fuel = k + 1 ∧ bound ≤ k :=
        ⟨fuel - 1, by omega, by omega⟩
      obtain ⟨sorted, _, ⟨_, hwalk⟩ | ⟨hmore, hwalk⟩⟩ := offsetWalk_step h step offset
      · refine ⟨[sorted.drop offset], fun fuel hle => ?_⟩
        obtain ⟨k, rfl, _⟩ := hfuel hle
        exact hwalk k
      · obtain ⟨pages, hpages⟩ := ih (step + 1) (offset + limit) (by omega) (by omega)
        refine ⟨(sorted.drop offset).take limit :: pages, fun fuel hle => ?_⟩
        obtain ⟨k, rfl, hk⟩ := hfuel hle
        rw [hwalk k, hpages k hk]
        rfl

theorem offsetWalk_perm (haligned : Aligned key limit rows)
    (h : SliceAnswers key limit answer rows) {fuel step page : Nat} {pages : List (List α)}
    (hwalk : offsetWalk limit answer fuel step (page * limit) = some pages) :
    pages.flatten.Perm (fromPage key limit page rows) := by
  induction fuel generalizing step page pages with
  | zero => cases hwalk
  | succ fuel ih =>
      obtain ⟨sorted, harranged, ⟨_, hlast⟩ | ⟨_, hnext⟩⟩ :=
        offsetWalk_step h step (page * limit)
      · rw [hlast fuel] at hwalk
        cases hwalk
        simpa using harranged.drop_perm haligned page
      · rw [hnext fuel] at hwalk
        obtain ⟨rest, hrest, rfl⟩ := Option.map_eq_some_iff.mp hwalk
        rw [← Nat.succ_mul] at hrest
        rw [List.flatten_cons]
        exact ((ih hrest).append_left _).trans (harranged.page_append_perm haligned page)

theorem offsetWalk_page {fuel step page : Nat} {pages : List (List α)}
    (hwalk : offsetWalk limit answer fuel step (page * limit) = some pages) :
    ∀ rows ∈ pages, ∃ step page, rows = (answer step (page * limit)).take limit := by
  induction fuel generalizing step page pages with
  | zero => cases hwalk
  | succ fuel ih =>
      rw [offsetWalk] at hwalk
      split at hwalk
      · obtain ⟨rest, hrest, rfl⟩ := Option.map_eq_some_iff.mp hwalk
        rw [← Nat.succ_mul] at hrest
        intro rows hrows
        rcases List.mem_cons.mp hrows with rfl | hrows
        · exact ⟨step, page, rfl⟩
        · exact ih hrest rows hrows
      · rename_i hshort
        cases hwalk
        intro rows hrows
        rw [List.mem_singleton.mp hrows]
        exact ⟨step, page, (List.take_of_length_le (Nat.le_of_not_lt hshort)).symm⟩

end Walk

/-! ## A group across a boundary -/

section Split

theorem exists_arrangement (key : α → κ) (rows : List α) :
    ∃ sorted, Arrangement key rows sorted := by
  have : Std.Total fun a b : α => key b ≤ key a := ⟨fun a b => le_total (key b) (key a)⟩
  have : IsTrans α fun a b => key b ≤ key a := ⟨fun a b c hab hbc => hbc.trans hab⟩
  exact ⟨rows.insertionSort fun a b => key b ≤ key a, List.perm_insertionSort _ _,
    List.pairwise_insertionSort _ _⟩

theorem Arrangement.key_eq (h : Arrangement key rows sorted) {front back : List α}
    {x row : α} (hsorted : sorted = front ++ x :: back)
    (hfirst : above key rows row ≤ front.length)
    (hend : front.length < above key rows row + tied key rows row) : key x = key row := by
  obtain ⟨_, hback, hfront⟩ := List.pairwise_append.mp (hsorted ▸ h.descending)
  obtain ⟨hx, _⟩ := List.pairwise_cons.mp hback
  rw [above_add_tied, ← h.perm.countP_eq, hsorted, List.countP_append] at hend
  rw [above, ← h.perm.countP_eq, hsorted, List.countP_append] at hfirst
  rcases lt_trichotomy (key x) (key row) with hlt | heq | hgt
  · have hnone : ((x :: back).countP fun y => key row ≤ key y) = 0 := by
      refine List.countP_eq_zero.mpr fun y hy => ?_
      rcases List.mem_cons.mp hy with rfl | hy
      · simpa using hlt
      · simpa using (hx y hy).trans_lt hlt
    have hle : (front.countP fun y => key row ≤ key y) ≤ front.length :=
      List.countP_le_length
    omega
  · exact heq
  · have hall : (front.countP fun y => key row < key y) = front.length :=
      List.countP_eq_length.mpr fun y hy => by
        simpa using hgt.trans_le (hfront y hy x List.mem_cons_self)
    have hself : 0 < (x :: back).countP fun y => key row < key y :=
      List.countP_pos_iff.mpr ⟨x, List.mem_cons_self, by simpa using hgt⟩
    omega

theorem exists_split_at {place : Nat} (h : place + 1 < sorted.length) :
    ∃ front x y back, sorted = front ++ x :: y :: back ∧ front.length = place := by
  have hplace : place < sorted.length := by omega
  refine ⟨sorted.take place, sorted[place], sorted[place + 1], sorted.drop (place + 2), ?_, ?_⟩
  · conv_lhs => rw [← List.take_append_drop place sorted, List.drop_eq_getElem_cons hplace,
      List.drop_eq_getElem_cons h]
  · rw [List.length_take]
    omega

/-- A group that is not aligned lies across the boundary after the page it starts on. -/
theorem exists_boundary_in_group (hlimit : 0 < limit) (h : ¬ Aligned key limit rows) :
    ∃ row ∈ rows, ∃ page, above key rows row < page * limit ∧
      page * limit < above key rows row + tied key rows row := by
  unfold Aligned at h
  push Not at h
  obtain ⟨row, hrow, hne⟩ := h
  have hpos := tied_pos hrow (rfl : key row = key row)
  have hle : above key rows row / limit ≤
      (above key rows row + tied key rows row - 1) / limit :=
    Nat.div_le_div_right (by omega)
  refine ⟨row, hrow, above key rows row / limit + 1, ?_, ?_⟩
  · rw [Nat.mul_comm]
    exact Nat.lt_mul_div_succ _ hlimit
  · have hend : above key rows row / limit + 1 ≤
        (above key rows row + tied key rows row - 1) / limit := by omega
    rw [Nat.le_div_iff_mul_le hlimit] at hend
    omega

theorem exists_tie_at_boundary (hlimit : 0 < limit) (h : ¬ Aligned key limit rows) :
    ∃ front x y back page, Arrangement key rows (front ++ x :: y :: back) ∧
      front.length + 1 = page * limit ∧ key x = key y := by
  obtain ⟨row, _, page, hfirst, hend⟩ := exists_boundary_in_group hlimit h
  obtain ⟨sorted, hsorted⟩ := exists_arrangement key rows
  have hgroup : above key rows row + tied key rows row ≤ sorted.length := by
    rw [above_add_tied, ← hsorted.perm.countP_eq]
    exact List.countP_le_length
  obtain ⟨front, x, y, back, rfl, hfront⟩ :=
    exists_split_at (show page * limit - 1 + 1 < sorted.length by omega)
  have hx : key x = key row := hsorted.key_eq rfl (by omega) (by omega)
  have hy : key y = key row := by
    refine hsorted.key_eq (List.append_cons front x (y :: back)) ?_ ?_
    · rw [List.length_append, List.length_singleton]
      omega
    · rw [List.length_append, List.length_singleton]
      omega
  exact ⟨front, x, y, back, page, hsorted, by omega, hx.trans hy.symm⟩

theorem Arrangement.swap {front back : List α} {x y : α}
    (h : Arrangement key rows (front ++ x :: y :: back)) (hkey : key x = key y) :
    Arrangement key rows (front ++ y :: x :: back) := by
  refine ⟨((List.Perm.swap x y back).append_left front).trans h.perm, ?_⟩
  have hdescending := h.descending
  simp only [List.pairwise_append, List.pairwise_cons, List.mem_cons, forall_eq_or_imp] at *
  rw [hkey] at hdescending ⊢
  tauto

/-- Queries from the boundary on arrange two rows the other way round. -/
def swappedAnswer (front : List α) (x y : α) (back : List α) (limit boundary : Nat) :
    Nat → Nat → List α := fun _ offset =>
  let sorted := if offset < boundary then front ++ x :: y :: back else front ++ y :: x :: back
  (sorted.drop offset).take (limit + 1)

theorem not_mem_swappedAnswer {front back : List α} {x y : α} {page : Nat}
    (hnodup : (front ++ x :: y :: back).Nodup) (hboundary : front.length + 1 = page * limit)
    (step other : Nat) :
    y ∉ (swappedAnswer front x y back limit (page * limit) step (other * limit)).take limit := by
  obtain ⟨_, htail, hdisjoint⟩ := List.nodup_append.mp hnodup
  obtain ⟨hx, htail⟩ := List.nodup_cons.mp htail
  obtain ⟨hy, _⟩ := List.nodup_cons.mp htail
  have hfront : y ∉ front := fun hmem => hdisjoint y hmem y (by simp) rfl
  have hxy : y ≠ x := by
    rintro rfl
    exact hx List.mem_cons_self
  unfold swappedAnswer
  rw [List.take_take, Nat.min_eq_left (Nat.le_succ limit)]
  split
  · rename_i hlt
    -- the page ends at the boundary or before it
    have hpage : other * limit + limit ≤ page * limit := by
      rw [← Nat.succ_mul]
      exact Nat.mul_le_mul_right limit (Nat.lt_of_mul_lt_mul_right hlt)
    have htake : (front ++ x :: y :: back).take (page * limit) = front ++ [x] := by
      rw [← hboundary, List.take_length_add_append]
      rfl
    intro hmem
    rw [List.take_drop] at hmem
    have hfirst := (List.take_prefix_take_left hpage).subset (List.mem_of_mem_drop hmem)
    rw [htake, List.mem_append, List.mem_singleton] at hfirst
    exact hfirst.elim hfront hxy
  · rename_i hge
    have hdrop : (front ++ y :: x :: back).drop (page * limit) = x :: back := by
      rw [← hboundary, List.drop_length_add_append]
      rfl
    intro hmem
    have hlast := (List.drop_sublist_drop_left _ (Nat.le_of_not_lt hge)).subset
      (List.mem_of_mem_take hmem)
    rw [hdrop, List.mem_cons] at hlast
    exact hlast.elim hxy hy

/-- However the queries arrange the ties, the walk ends and returns every row exactly once:
this holds if and only if no group lies across a page boundary. -/
theorem offsetWalk_exact_iff (hlimit : 0 < limit) (hnodup : rows.Nodup) {bound : Nat}
    (hbound : rows.length ≤ bound) :
    (∀ answer, SliceAnswers key limit answer rows →
      ∃ pages, (∀ fuel, bound < fuel → offsetWalk limit answer fuel 0 0 = some pages) ∧
        pages.flatten.Perm rows) ↔
      Aligned key limit rows := by
  constructor
  · intro hexact
    by_contra hsplit
    obtain ⟨front, x, y, back, page, harranged, hboundary, hkey⟩ :=
      exists_tie_at_boundary hlimit hsplit
    obtain ⟨pages, hwalk, hperm⟩ :=
      hexact (swappedAnswer front x y back limit (page * limit)) (by
        intro step offset
        unfold swappedAnswer
        split
        · exact ⟨_, harranged, rfl⟩
        · exact ⟨_, harranged.swap hkey, rfl⟩)
    have hwalk := hwalk _ (Nat.lt_succ_self _)
    rw [← Nat.zero_mul limit] at hwalk
    have hy : y ∈ pages.flatten := by
      rw [hperm.mem_iff, ← harranged.perm.mem_iff]
      simp
    obtain ⟨rows', hrows', hmem⟩ := List.mem_flatten.mp hy
    obtain ⟨step, other, rfl⟩ := offsetWalk_page hwalk rows' hrows'
    exact not_mem_swappedAnswer (harranged.perm.nodup_iff.mpr hnodup) hboundary step other hmem
  · intro haligned answer hanswer
    obtain ⟨pages, hwalk⟩ :=
      offsetWalk_ends hlimit hanswer (bound + 1) 0 0 (by omega) (Nat.succ_pos _)
    refine ⟨pages, hwalk, ?_⟩
    have hfrom : fromPage key limit 0 rows = rows := by
      rw [fromPage, List.filter_eq_self]
      simp
    have hwalk := hwalk _ le_rfl
    rw [← Nat.zero_mul limit] at hwalk
    rw [← hfrom]
    exact offsetWalk_perm haligned hanswer hwalk

end Split

end Offset

end Solarix.Core
