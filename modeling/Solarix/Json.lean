import Mathlib.Data.List.Nodup
import Mathlib.Data.String.Basic
import Mathlib.Tactic.SplitIfs

/-!
# JSON values

`Json` is `serde_json::Value` as this build has it: without the
`preserve_order` feature an object is a map sorted by key, so inserting a key
twice keeps one entry with the later value.
-/

namespace Solarix

inductive Json where
  | null
  | bool (b : Bool)
  | int (z : Int)
  /-- A finite double, by its IEEE 754 bits. -/
  | float (bits : Nat)
  | str (s : String)
  | arr (items : List Json)
  | obj (entries : List (String × Json))

namespace Json

/-- `Map::insert` on the sorted entries of an object. -/
def insert (key : String) (val : Json) : List (String × Json) → List (String × Json)
  | [] => [(key, val)]
  | (k, v) :: rest =>
      if key < k then (key, val) :: (k, v) :: rest
      else if key = k then (key, val) :: rest
      else (k, v) :: insert key val rest

def ofEntries (entries : List (String × Json)) : Json :=
  .obj (entries.foldl (fun obj entry => insert entry.1 entry.2 obj) [])

/-- Entry `key` of an object; `none` for a missing key or another kind of value. -/
def field? (key : String) : Json → Option Json
  | .obj entries => (entries.find? (fun entry => entry.1 == key)).map Prod.snd
  | _ => none

/-! ## Objects -/

section Objects

variable {key : String} {val : Json} {entries : List (String × Json)}

theorem find?_cons_key (k : String) (entry : String × Json) (entries : List (String × Json)) :
    ((entry :: entries).find? fun entry => entry.1 == k) =
      if entry.1 = k then some entry else entries.find? fun entry => entry.1 == k := by
  split
  · rename_i heq
    rw [List.find?_cons_of_pos (by simpa using heq)]
  · rename_i hne
    rw [List.find?_cons_of_neg (by simpa using hne)]

theorem find?_insert (key k : String) (val : Json) (entries : List (String × Json)) :
    (insert key val entries).find? (fun entry => entry.1 == k) =
      if key = k then some (key, val) else entries.find? fun entry => entry.1 == k := by
  induction entries with
  | nil => rw [insert, find?_cons_key]
  | cons entry entries ih =>
      unfold insert
      split
      · rw [find?_cons_key]
      · split
        · rename_i heq
          rw [find?_cons_key, find?_cons_key]
          split_ifs with hkey hhead
          · rfl
          · exact absurd (heq.trans hhead) hkey
          · rfl
        · rename_i hne
          rw [find?_cons_key, find?_cons_key, ih]
          split_ifs with hhead hkey
          · exact absurd (hkey.trans hhead.symm) hne
          · rfl
          · rfl
          · rfl

theorem forall_keys_insert {p : String → Prop} (hkey : p key)
    (h : ∀ entry ∈ entries, p entry.1) : ∀ entry ∈ insert key val entries, p entry.1 := by
  induction entries with
  | nil => simpa [insert] using hkey
  | cons head entries ih =>
      rw [List.forall_mem_cons] at h
      unfold insert
      split
      · simp only [List.forall_mem_cons]
        exact ⟨hkey, h⟩
      · split
        · simp only [List.forall_mem_cons]
          exact ⟨hkey, h.2⟩
        · simp only [List.forall_mem_cons]
          exact ⟨h.1, ih h.2⟩

theorem pairwise_insert (h : entries.Pairwise fun a b => a.1 < b.1) :
    (insert key val entries).Pairwise fun a b => a.1 < b.1 := by
  induction entries with
  | nil => simp [insert]
  | cons head entries ih =>
      obtain ⟨hhead, htail⟩ := List.pairwise_cons.mp h
      unfold insert
      split
      · rename_i hlt
        refine List.pairwise_cons.mpr ⟨?_, h⟩
        rw [List.forall_mem_cons]
        exact ⟨hlt, fun entry hentry => hlt.trans (hhead entry hentry)⟩
      · rename_i hle
        split
        · rename_i heq
          subst heq
          exact List.pairwise_cons.mpr ⟨hhead, htail⟩
        · rename_i hne
          refine List.pairwise_cons.mpr ⟨?_, ih htail⟩
          exact forall_keys_insert (lt_of_le_of_ne (not_lt.mp hle) (Ne.symm hne)) hhead

/-- The object that `ofEntries` makes, as the map of its entries. -/
structure ObjectOf (entries obj : List (String × Json)) : Prop where
  sorted : obj.Pairwise fun a b => a.1 < b.1
  find : ∀ key, (obj.find? fun entry => entry.1 == key) =
    entries.reverse.find? fun entry => entry.1 == key

theorem exists_objectOf (entries : List (String × Json)) :
    ∃ obj, ofEntries entries = .obj obj ∧ ObjectOf entries obj := by
  refine ⟨_, rfl, ?_⟩
  have hfold : ∀ (done rest obj : List (String × Json)), ObjectOf done obj →
      ObjectOf (done ++ rest) (rest.foldl (fun obj entry => insert entry.1 entry.2 obj) obj) := by
    intro done rest
    induction rest generalizing done with
    | nil =>
        intro obj h
        rw [List.append_nil]
        exact h
    | cons entry rest ih =>
        intro obj h
        rw [List.append_cons, List.foldl_cons]
        apply ih
        refine ⟨pairwise_insert h.sorted, fun key => ?_⟩
        rw [find?_insert, h.find, List.reverse_append, List.reverse_singleton,
          List.singleton_append, find?_cons_key]
  exact hfold [] entries [] ⟨List.Pairwise.nil, fun _ => rfl⟩

theorem field?_ofEntries (key : String) (entries : List (String × Json)) :
    (ofEntries entries).field? key =
      (entries.reverse.find? fun entry => entry.1 == key).map Prod.snd := by
  obtain ⟨obj, hobj, hof⟩ := exists_objectOf entries
  rw [hobj, field?, hof.find]

theorem find?_of_nodup {β : Type} {entries : List (String × β)}
    (h : (entries.map Prod.fst).Nodup) {entry : String × β} (hmem : entry ∈ entries) :
    (entries.find? fun other => other.1 == entry.1) = some entry := by
  obtain ⟨found, hfound⟩ : ∃ found, (entries.find? fun other => other.1 == entry.1) =
      some found := by
    rw [← Option.isSome_iff_exists, List.find?_isSome]
    exact ⟨entry, hmem, by simp⟩
  have hkey : found.1 = entry.1 := by simpa using List.find?_some hfound
  rw [hfound, List.inj_on_of_nodup_map h (List.mem_of_find?_eq_some hfound) hmem hkey]

theorem field?_ofEntries_zip {names : List String} (hnodup : names.Nodup) {vals : List Json}
    (hlength : names.length = vals.length) {i : Nat} (hi : i < names.length) :
    (ofEntries (names.zip vals)).field? names[i] = vals[i]? := by
  have hi' : i < vals.length := by omega
  have hmem : (names[i], vals[i]) ∈ names.zip vals := by
    rw [List.mem_iff_getElem]
    exact ⟨i, by simp; omega, by simp⟩
  have hkeys : ((names.zip vals).reverse.map Prod.fst).Nodup := by
    rw [List.map_reverse, List.nodup_reverse, List.map_fst_zip (by omega)]
    exact hnodup
  rw [field?_ofEntries, find?_of_nodup hkeys (List.mem_reverse.mpr hmem)]
  simp [hi']

theorem ofEntries_zip_inj {names : List String} (hnodup : names.Nodup) {vals vals' : List Json}
    (hlength : names.length = vals.length) (hlength' : names.length = vals'.length)
    (h : ofEntries (names.zip vals) = ofEntries (names.zip vals')) : vals = vals' := by
  apply List.ext_getElem?
  intro i
  by_cases hi : i < names.length
  · rw [← field?_ofEntries_zip hnodup hlength hi, h, field?_ofEntries_zip hnodup hlength' hi]
  · rw [List.getElem?_eq_none (by omega), List.getElem?_eq_none (by omega)]

theorem ObjectOf.mem_iff {obj : List (String × Json)} (h : ObjectOf entries obj)
    {entry : String × Json} :
    entry ∈ obj ↔ (entries.reverse.find? fun other => other.1 == entry.1) = some entry := by
  rw [← h.find]
  constructor
  · intro hmem
    have hsorted := h.sorted
    clear h
    induction obj with
    | nil => cases hmem
    | cons head obj ih =>
        obtain ⟨hhead, htail⟩ := List.pairwise_cons.mp hsorted
        rcases List.mem_cons.mp hmem with rfl | hmem
        · simp
        · rw [List.find?_cons_of_neg (by simpa using (hhead entry hmem).ne)]
          exact ih hmem htail
  · exact List.mem_of_find?_eq_some

end Objects

end Json

end Solarix
