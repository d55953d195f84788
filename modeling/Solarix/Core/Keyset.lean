import Mathlib.Data.List.Count
import Mathlib.Data.List.Perm.Subperm
import Mathlib.Data.List.Sort
import Mathlib.Order.Basic

/-!
# Keyset pagination

A store is read in pages of at most `limit` rows, in descending order of a key.  The
next page starts strictly below the key of the last row of the page before.  The key
need not be unique; rows of equal key come in any order, a different one each time.

No row is returned twice.  Every row is returned exactly when no group of rows with
equal key lies across a page boundary (`walk_below`).
-/

namespace Solarix.Core

section Keyset

variable {α κ : Type} [LinearOrder κ] (key : α → κ) (limit : Nat)

def below (cursor : Option κ) (rows : List α) : List α :=
  match cursor with
  | none => rows
  | some k => rows.filter fun row => key row < k

/-- The first `count` rows of some descending arrangement of the rows. -/
def IsTop (count : Nat) (rows answer : List α) : Prop :=
  ∃ sorted : List α, sorted.Perm rows ∧
    sorted.Pairwise (fun a b => key b ≤ key a) ∧ answer = sorted.take count

/-- Follow the cursors from `cursor` on.  `answer` gives the rows of the `step`-th
query, at most `limit + 1` of them; the extra row only says that there are more. -/
def walk (answer : Nat → Option κ → List α) : Nat → Nat → Option κ → Option (List (List α))
  | 0, _, _ => none
  | fuel + 1, step, cursor =>
      let rows := answer step cursor
      if limit < rows.length then
        match (rows.take limit).getLast? with
        | none => none
        | some last =>
            (walk answer fuel (step + 1) (some (key last))).map fun pages =>
              rows.take limit :: pages
      else some [rows]

/-- Number of rows that come before the row for certain. -/
def above (rows : List α) (row : α) : Nat := rows.countP fun x => key row < key x

def tied (rows : List α) (row : α) : Nat := rows.countP fun x => key x = key row

/-- Every group lies within one page: its first and last place are on the same page. -/
def Aligned (rows : List α) : Prop :=
  ∀ row ∈ rows, above key rows row / limit = (above key rows row + tied key rows row - 1) / limit

instance : Decidable (Aligned key limit rows) := inferInstanceAs (Decidable (∀ row ∈ rows, _))

variable {key limit}

theorem below_below {k k' : κ} (h : k' ≤ k) (rows : List α) :
    below key (some k') (below key (some k) rows) = below key (some k') rows := by
  simp only [below, List.filter_filter]
  apply List.filter_congr
  intro row _
  by_cases hrow : key row < k'
  · simp [hrow, hrow.trans_le h]
  · simp [hrow]

theorem aligned_congr {rows rows' : List α} (h : rows.Perm rows') :
    Aligned key limit rows ↔ Aligned key limit rows' := by
  unfold Aligned above tied
  simp only [h.mem_iff, h.countP_eq]

/-! ## Counting -/

theorem above_append (xs ys : List α) (row : α) :
    above key (xs ++ ys) row = above key xs row + above key ys row :=
  List.countP_append

theorem tied_append (xs ys : List α) (row : α) :
    tied key (xs ++ ys) row = tied key xs row + tied key ys row :=
  List.countP_append

theorem tied_pos {rows : List α} {row x : α} (hx : x ∈ rows) (heq : key x = key row) :
    0 < tied key rows row :=
  List.countP_pos_iff.mpr ⟨x, hx, by simpa using heq⟩

theorem above_add_tied (rows : List α) (row : α) :
    above key rows row + tied key rows row = rows.countP fun x => key row ≤ key x := by
  unfold above tied
  induction rows with
  | nil => rfl
  | cons x rows ih =>
      simp only [List.countP_cons, decide_eq_true_eq, ← ih]
      rcases lt_trichotomy (key row) (key x) with h | h | h
      · simp only [h, h.ne', h.le, if_true, if_false]
        omega
      · simp only [h, lt_irrefl, le_refl, if_true, if_false]
        omega
      · simp only [h.not_gt, h.ne, h.not_ge, if_false]
        omega

/-! ## One page -/

section Page

variable {sorted page rest : List α} {last : α}

/-- `sorted` is cut after `limit` rows, the last of which is `last`. -/
structure Cut (limit : Nat) (key : α → κ) (sorted page rest : List α) (last : α) : Prop where
  eq : sorted = page ++ rest
  length : page.length = limit
  mem : last ∈ page
  page_le : ∀ x ∈ page, key last ≤ key x
  le_last : ∀ x ∈ rest, key x ≤ key last

theorem cut_take (hlimit : 0 < limit) (hlen : limit < sorted.length)
    (hsorted : sorted.Pairwise fun a b => key b ≤ key a) :
    ∃ last, (sorted.take limit).getLast? = some last ∧
      Cut limit key sorted (sorted.take limit) (sorted.drop limit) last := by
  have hlength : (sorted.take limit).length = limit := by
    rw [List.length_take]
    omega
  have hne : sorted.take limit ≠ [] := by
    intro h
    rw [h, List.length_nil] at hlength
    omega
  have hsplit := List.take_append_drop limit sorted
  rw [← hsplit, List.pairwise_append] at hsorted
  obtain ⟨hpage, _, hacross⟩ := hsorted
  have hmem := List.getLast_mem hne
  have hle : ∀ x ∈ sorted.take limit, key ((sorted.take limit).getLast hne) ≤ key x := by
    intro x hx
    rw [← List.dropLast_append_getLast hne, List.mem_append, List.mem_singleton] at hx
    rcases hx with hx | rfl
    · rw [← List.dropLast_append_getLast hne, List.pairwise_append] at hpage
      exact hpage.2.2 x hx _ (List.mem_singleton_self _)
    · exact le_rfl
  exact ⟨_, List.getLast?_eq_some_getLast hne, hsplit.symm, hlength, hmem, hle,
    fun x hx => hacross _ hmem x hx⟩

namespace Cut

variable (h : Cut limit key sorted page rest last)

include h

theorem below_eq :
    below key (some (key last)) sorted = rest.filter fun x => key x < key last := by
  have hpage : page.filter (fun x => key x < key last) = [] := by
    rw [List.filter_eq_nil_iff]
    intro x hx
    simpa using h.page_le x hx
  rw [below, h.eq, List.filter_append, hpage, List.nil_append]

theorem count_rest (hlt : ∀ x ∈ rest, key x < key last) {row : α} (hrow : row ∈ rest) :
    above key sorted row = limit + above key rest row ∧
      tied key sorted row = tied key rest row := by
  have hpage : ∀ x ∈ page, key row < key x := fun x hx =>
    (hlt row hrow).trans_le (h.page_le x hx)
  have habove : above key page row = limit := by
    rw [← h.length]
    exact List.countP_eq_length.mpr fun x hx => by simpa using hpage x hx
  have htied : tied key page row = 0 :=
    List.countP_eq_zero.mpr fun x hx => by simpa using (hpage x hx).ne'
  rw [h.eq, above_append, tied_append, habove, htied, Nat.zero_add]
  exact ⟨rfl, rfl⟩

theorem count_page (hlt : ∀ x ∈ rest, key x < key last) {row : α} (hrow : row ∈ page) :
    above key sorted row + tied key sorted row ≤ limit := by
  rw [above_add_tied, h.eq, List.countP_append]
  have hrest : (rest.countP fun x => key row ≤ key x) = 0 :=
    List.countP_eq_zero.mpr fun x hx => by
      simpa using (hlt x hx).trans_le (h.page_le row hrow)
  rw [hrest, Nat.add_zero, ← h.length]
  exact List.countP_le_length

theorem count_last {x : α} (hx : x ∈ rest) (heq : key x = key last) :
    above key sorted last < limit ∧ limit < above key sorted last + tied key sorted last := by
  have hpage : above key page last + tied key page last = limit := by
    rw [above_add_tied, ← h.length]
    exact List.countP_eq_length.mpr fun y hy => by simpa using h.page_le y hy
  have hrest : above key rest last = 0 :=
    List.countP_eq_zero.mpr fun y hy => by simpa using h.le_last y hy
  have hpos := tied_pos h.mem (rfl : key last = key last)
  have hpos' := tied_pos hx heq
  rw [h.eq, above_append, tied_append]
  omega

theorem aligned_iff (hlimit : 0 < limit) :
    Aligned key limit sorted ↔
      (∀ x ∈ rest, key x < key last) ∧ Aligned key limit rest := by
  have hdiv (hlt : ∀ x ∈ rest, key x < key last) {row : α} (hrow : row ∈ rest) :
      above key sorted row / limit = (above key sorted row + tied key sorted row - 1) / limit ↔
        above key rest row / limit =
          (above key rest row + tied key rest row - 1) / limit := by
    obtain ⟨habove, htied⟩ := h.count_rest hlt hrow
    have hpos := tied_pos hrow (rfl : key row = key row)
    have hshift : limit + above key rest row + tied key rest row - 1 =
        limit + (above key rest row + tied key rest row - 1) := by omega
    rw [habove, htied, hshift, Nat.add_div_left _ hlimit, Nat.add_div_left _ hlimit]
    exact Nat.succ_inj
  constructor
  · intro haligned
    have hlt : ∀ x ∈ rest, key x < key last := by
      intro x hx
      refine lt_of_le_of_ne (h.le_last x hx) fun heq => ?_
      obtain ⟨hfirst, hend⟩ := h.count_last hx heq
      have hlast := haligned last (by rw [h.eq]; exact List.mem_append_left _ h.mem)
      rw [Nat.div_eq_of_lt hfirst, eq_comm, Nat.div_eq_zero_iff] at hlast
      omega
    refine ⟨hlt, fun row hrow => (hdiv hlt hrow).mp (haligned row ?_)⟩
    rw [h.eq]
    exact List.mem_append_right _ hrow
  · rintro ⟨hlt, haligned⟩ row hrow
    rw [h.eq, List.mem_append] at hrow
    rcases hrow with hrow | hrow
    · have hle := h.count_page hlt hrow
      have hpos : 0 < tied key sorted row := by
        apply tied_pos _ rfl
        rw [h.eq]
        exact List.mem_append_left _ hrow
      rw [Nat.div_eq_of_lt (by omega), Nat.div_eq_of_lt (by omega)]
    · exact (hdiv hlt hrow).mpr (haligned row hrow)

end Cut

end Page

/-! ## The whole walk -/

section Walk

variable {answer : Nat → Option κ → List α} {rows : List α}

def Answers (key : α → κ) (limit : Nat) (answer : Nat → Option κ → List α)
    (rows : List α) : Prop :=
  ∀ step cursor, IsTop key (limit + 1) (below key cursor rows) (answer step cursor)

theorem walk_step (hlimit : 0 < limit) (h : Answers key limit answer rows)
    (step : Nat) (cursor : Option κ) :
    (∃ page, page.Perm (below key cursor rows) ∧ (below key cursor rows).length ≤ limit ∧
      ∀ fuel, walk key limit answer (fuel + 1) step cursor = some [page]) ∨
    ∃ sorted page rest last, sorted.Perm (below key cursor rows) ∧
      Cut limit key sorted page rest last ∧
      below key (some (key last)) rows = below key (some (key last)) (below key cursor rows) ∧
      ∀ fuel, walk key limit answer (fuel + 1) step cursor =
        (walk key limit answer fuel (step + 1) (some (key last))).map (page :: ·) := by
  obtain ⟨sorted, hperm, hsorted, hanswer⟩ := h step cursor
  have hlength := hperm.length_eq
  by_cases hmore : limit < sorted.length
  · right
    obtain ⟨last, hlast, hcut⟩ := cut_take hlimit hmore hsorted
    have htake : (answer step cursor).take limit = sorted.take limit := by
      rw [hanswer, List.take_take, Nat.min_eq_left (Nat.le_succ limit)]
    refine ⟨sorted, sorted.take limit, sorted.drop limit, last, hperm, hcut, ?_, ?_⟩
    · cases cursor with
      | none => rfl
      | some k =>
          have hmem : last ∈ below key (some k) rows := by
            rw [← hperm.mem_iff, hcut.eq]
            exact List.mem_append_left _ hcut.mem
          have hlt : key last < k := by simpa using (List.mem_filter.mp hmem).2
          exact (below_below hlt.le rows).symm
    · intro fuel
      rw [walk]
      rw [if_pos (by rw [hanswer, List.length_take]; omega), htake, hlast]
  · left
    have hall : answer step cursor = sorted := by
      rw [hanswer, List.take_of_length_le (by omega)]
    refine ⟨sorted, hperm, by omega, ?_⟩
    intro fuel
    rw [walk, hall, if_neg hmore]

theorem aligned_of_length_le (h : rows.length ≤ limit) : Aligned key limit rows := by
  intro row hrow
  have hle : above key rows row + tied key rows row ≤ rows.length := by
    rw [above_add_tied]
    exact List.countP_le_length
  have hpos := tied_pos hrow (rfl : key row = key row)
  rw [Nat.div_eq_of_lt (by omega), Nat.div_eq_of_lt (by omega)]

/-- The walk from a cursor ends.  It returns no row twice, and every row below the
cursor exactly when their groups are aligned. -/
theorem walk_below (hlimit : 0 < limit) (h : Answers key limit answer rows) (bound step : Nat)
    (cursor : Option κ) (hbound : (below key cursor rows).length < bound) :
    ∃ pages, (∀ fuel, bound ≤ fuel → walk key limit answer fuel step cursor = some pages) ∧
      pages.flatten.Subperm (below key cursor rows) ∧
      (pages.flatten.Perm (below key cursor rows) ↔
        Aligned key limit (below key cursor rows)) := by
  induction bound generalizing step cursor with
  | zero => omega
  | succ bound ih =>
      have hfuel {fuel : Nat} (hle : bound + 1 ≤ fuel) : ∃ k, fuel = k + 1 ∧ bound ≤ k :=
        ⟨fuel - 1, by omega, by omega⟩
      rcases walk_step hlimit h step cursor with
        ⟨page, hperm, hshort, hwalk⟩ | ⟨sorted, page, rest, last, hperm, hcut, hnext, hwalk⟩
      · refine ⟨[page], ?_, ?_, ?_⟩
        · intro fuel hle
          obtain ⟨k, rfl, _⟩ := hfuel hle
          exact hwalk k
        · simpa using hperm.subperm
        · simpa using iff_of_true hperm (aligned_of_length_le hshort)
      · -- what is left lies in the rest of the arrangement
        have hleft : (below key (some (key last)) rows).Perm
            (rest.filter fun x => key x < key last) := by
          rw [hnext, ← hcut.below_eq]
          exact (hperm.symm.filter _)
        have hlen := hperm.length_eq
        rw [hcut.eq, List.length_append, hcut.length] at hlen
        have hle := List.length_filter_le (fun x => decide (key x < key last)) rest
        rw [← hleft.length_eq] at hle
        obtain ⟨pages, hpages, hsub, hiff⟩ :=
          ih (step + 1) (some (key last)) (by omega)
        have hsub' : pages.flatten.Subperm rest :=
          (hsub.trans hleft.subperm).trans (List.filter_sublist).subperm
        have hfull (hlt : ∀ x ∈ rest, key x < key last) :
            (below key (some (key last)) rows).Perm rest := by
          have hfilter : rest.filter (fun x => key x < key last) = rest := by
            rw [List.filter_eq_self]
            intro x hx
            simpa using hlt x hx
          rwa [hfilter] at hleft
        refine ⟨page :: pages, ?_, ?_, ?_⟩
        · intro fuel hfuel'
          obtain ⟨k, rfl, hk⟩ := hfuel hfuel'
          rw [hwalk k, hpages k hk]
          rfl
        · rw [List.flatten_cons]
          apply List.Subperm.trans _ hperm.subperm
          rw [hcut.eq]
          exact (List.subperm_append_left page).mpr hsub'
        · rw [List.flatten_cons, ← aligned_congr hperm, hcut.aligned_iff hlimit]
          constructor
          · intro hall
            have hrest : pages.flatten.Perm rest := by
              have := hall.trans hperm.symm
              rw [hcut.eq] at this
              exact (List.perm_append_left_iff page).mp this
            have hlt : ∀ x ∈ rest, key x < key last := by
              intro x hx
              have hmem := hsub.subset (hrest.mem_iff.mpr hx)
              simpa using (List.mem_filter.mp (hleft.mem_iff.mp hmem)).2
            refine ⟨hlt, ?_⟩
            rw [← aligned_congr (hfull hlt)]
            exact hiff.mp (hrest.trans (hfull hlt).symm)
          · intro haligned
            have hbelow := hfull haligned.1
            have hrest := (hiff.mpr ((aligned_congr hbelow).mpr haligned.2)).trans hbelow
            apply List.Perm.trans _ hperm
            rw [hcut.eq]
            exact hrest.append_left page

end Walk

/-! ## Rows that arrive during the walk -/

section Growing

variable {answer : Nat → Option κ → List α} {rows : Nat → List α} {final : List α}

def AnswersGrowing (key : α → κ) (limit : Nat) (answer : Nat → Option κ → List α)
    (rows : Nat → List α) : Prop :=
  ∀ step cursor, IsTop key (limit + 1) (below key cursor (rows step)) (answer step cursor)

theorem walk_page (hlimit : 0 < limit) {step : Nat} {cursor : Option κ} {available : List α}
    (h : IsTop key (limit + 1) available (answer step cursor)) :
    (∃ page, page.Perm available ∧ page.Pairwise (fun a b => key b ≤ key a) ∧
      ∀ fuel, walk key limit answer (fuel + 1) step cursor = some [page]) ∨
    ∃ sorted page rest last, sorted.Perm available ∧ Cut limit key sorted page rest last ∧
      page.Pairwise (fun a b => key b ≤ key a) ∧ page.getLast? = some last ∧
      ∀ fuel, walk key limit answer (fuel + 1) step cursor =
        (walk key limit answer fuel (step + 1) (some (key last))).map (page :: ·) := by
  obtain ⟨sorted, hperm, hsorted, hanswer⟩ := h
  by_cases hmore : limit < sorted.length
  · right
    obtain ⟨last, hlast, hcut⟩ := cut_take hlimit hmore hsorted
    have htake : (answer step cursor).take limit = sorted.take limit := by
      rw [hanswer, List.take_take, Nat.min_eq_left (Nat.le_succ limit)]
    refine ⟨sorted, _, _, last, hperm, hcut, hsorted.sublist (List.take_sublist _ _), hlast, ?_⟩
    intro fuel
    rw [walk]
    rw [if_pos (by rw [hanswer, List.length_take]; omega), htake, hlast]
  · left
    have hall : answer step cursor = sorted := by
      rw [hanswer, List.take_of_length_le (by omega)]
    refine ⟨sorted, hperm, hsorted, ?_⟩
    intro fuel
    rw [walk, hall, if_neg hmore]

/-- What a client gets that starts at a cursor: rows of the final store in order and none
twice, and of the rows there are at its start all but those of which a page boundary cuts the
group. -/
structure WalkGrowing (key : α → κ) (cursor : Option κ) (start final : List α)
    (pages : List (List α)) : Prop where
  ne_nil : pages ≠ []
  subperm : pages.flatten.Subperm (below key cursor final)
  sorted : pages.flatten.Pairwise fun a b => key b ≤ key a
  complete : ∀ row ∈ below key cursor start, row ∈ pages.flatten ∨
    ∃ page ∈ pages.dropLast, ∃ last, page.getLast? = some last ∧ key last = key row

theorem mem_below_some {k : κ} {store : List α} {row : α} :
    row ∈ below key (some k) store ↔ row ∈ store ∧ key row < k := by
  rw [below, List.mem_filter, decide_eq_true_iff]

theorem mem_of_mem_below {cursor : Option κ} {store : List α} {row : α}
    (h : row ∈ below key cursor store) : row ∈ store := by
  cases cursor with
  | none => exact h
  | some k => exact List.mem_of_mem_filter h

theorem below_subperm {cursor : Option κ} {store more : List α} (h : store.Subperm more) :
    (below key cursor store).Subperm (below key cursor more) := by
  cases cursor with
  | none => exact h
  | some k => exact h.filter _

section Next

variable {cursor : Option κ} {start sorted page rest : List α} {last : α}

theorem below_last (hperm : sorted.Perm (below key cursor start))
    (hcut : Cut limit key sorted page rest last) :
    below key (some (key last)) final =
      (below key cursor final).filter fun x => decide (key x < key last) := by
  cases cursor with
  | none => rfl
  | some k =>
      have hmem : last ∈ below key (some k) start := by
        rw [← hperm.mem_iff, hcut.eq]
        exact List.mem_append_left _ hcut.mem
      exact (below_below (mem_below_some.mp hmem).2.le final).symm

theorem page_subperm (hperm : sorted.Perm (below key cursor start))
    (hcut : Cut limit key sorted page rest last) (hstart : start.Subperm final) :
    page.Subperm ((below key cursor final).filter fun x => !decide (key x < key last)) := by
  have hkept : page.filter (fun x => !decide (key x < key last)) = page := by
    rw [List.filter_eq_self]
    intro x hx
    simpa using hcut.page_le x hx
  have hsub : page.Subperm (below key cursor final) := by
    refine List.Subperm.trans ?_ (below_subperm hstart)
    rw [← hperm.subperm_left, hcut.eq]
    exact (List.sublist_append_left page rest).subperm
  rw [← hkept]
  exact hsub.filter _

theorem length_below_last (hlimit : 0 < limit) (hperm : sorted.Perm (below key cursor start))
    (hcut : Cut limit key sorted page rest last) (hstart : start.Subperm final) :
    (below key (some (key last)) final).length < (below key cursor final).length := by
  have hpage := (page_subperm hperm hcut hstart).length_le
  have hlength := hcut.length
  have hparts := (List.filter_append_perm (fun x => decide (key x < key last))
    (below key cursor final)).length_eq
  rw [List.length_append, ← below_last hperm hcut] at hparts
  omega

theorem WalkGrowing.cons {next : List α} {pages : List (List α)}
    (hperm : sorted.Perm (below key cursor start)) (hcut : Cut limit key sorted page rest last)
    (hsorted : page.Pairwise fun a b => key b ≤ key a) (hlast : page.getLast? = some last)
    (hstart : start.Subperm final) (hgrow : start ⊆ next)
    (h : WalkGrowing key (some (key last)) next final pages) :
    WalkGrowing key cursor start final (page :: pages) := by
  refine ⟨List.cons_ne_nil _ _, ?_, ?_, ?_⟩
  · rw [List.flatten_cons]
    have hparts := (page_subperm hperm hcut hstart).append h.subperm
    rw [below_last hperm hcut] at hparts
    refine hparts.trans (List.Perm.subperm ?_)
    exact List.perm_append_comm.trans (List.filter_append_perm _ _)
  · rw [List.flatten_cons, List.pairwise_append]
    refine ⟨hsorted, h.sorted, fun a ha b hb => ?_⟩
    have hlt := (mem_below_some.mp (h.subperm.subset hb)).2
    exact hlt.le.trans (hcut.page_le a ha)
  · intro row hrow
    rw [← hperm.mem_iff, hcut.eq, List.mem_append] at hrow
    rw [List.flatten_cons, List.mem_append, List.dropLast_cons_of_ne_nil h.ne_nil]
    rcases hrow with hrow | hrow
    · exact .inl (.inl hrow)
    · rcases (hcut.le_last row hrow).lt_or_eq with hlt | heq
      · have hmem : row ∈ below key cursor start := by
          rw [← hperm.mem_iff, hcut.eq]
          exact List.mem_append_right _ hrow
        have hnext := mem_below_some.mpr ⟨hgrow (mem_of_mem_below hmem), hlt⟩
        rcases h.complete row hnext with hfound | ⟨other, hother, hcuts⟩
        · exact .inl (.inr hfound)
        · exact .inr ⟨other, List.mem_cons_of_mem _ hother, hcuts⟩
      · exact .inr ⟨page, List.mem_cons_self, last, hlast, heq.symm⟩

end Next

theorem walk_growing (hlimit : 0 < limit) (h : AnswersGrowing key limit answer rows)
    (hgrow : ∀ step, rows step ⊆ rows (step + 1)) (hfinal : ∀ step, (rows step).Subperm final)
    (bound step : Nat) (cursor : Option κ) (hbound : (below key cursor final).length < bound) :
    ∃ pages, (∀ fuel, bound ≤ fuel → walk key limit answer fuel step cursor = some pages) ∧
      WalkGrowing key cursor (rows step) final pages := by
  induction bound generalizing step cursor with
  | zero => omega
  | succ bound ih =>
      have hfuel {fuel : Nat} (hle : bound + 1 ≤ fuel) : ∃ k, fuel = k + 1 ∧ bound ≤ k :=
        ⟨fuel - 1, by omega, by omega⟩
      rcases walk_page hlimit (h step cursor) with
        ⟨page, hperm, hsorted, hwalk⟩ | ⟨sorted, page, rest, last, hperm, hcut, hsorted, hlast,
          hwalk⟩
      · refine ⟨[page], ?_, ?_⟩
        · intro fuel hle
          obtain ⟨k, rfl, _⟩ := hfuel hle
          exact hwalk k
        · refine ⟨List.cons_ne_nil _ _, ?_, ?_, ?_⟩
          · simpa using hperm.subperm.trans (below_subperm (hfinal step))
          · simpa using hsorted
          · intro row hrow
            exact .inl (by simpa using hperm.mem_iff.mpr hrow)
      · have hless : (below key (some (key last)) final).length < bound := by
          have hshort := length_below_last hlimit hperm hcut (hfinal step)
          omega
        obtain ⟨pages, hpages, hnext⟩ := ih (step + 1) (some (key last)) hless
        refine ⟨page :: pages, ?_, hnext.cons hperm hcut hsorted hlast (hfinal step) (hgrow step)⟩
        intro fuel hle
        obtain ⟨k, rfl, hk⟩ := hfuel hle
        rw [hwalk k, hpages k hk]
        rfl

end Growing

end Keyset

end Solarix.Core
