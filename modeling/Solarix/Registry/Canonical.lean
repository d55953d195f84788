import Mathlib.Data.List.Perm.Basic
import Mathlib.Data.List.Sort
import Solarix.Registry.IdlManager

/-!
# The canonical form of a JSON text

`canonicalize_json` sorts the keys of every object.  Two values have the same canonical
form exactly when they are equal up to the order of the keys, so the hash of an IDL tells
apart what the texts mean and not how they are written.
-/

namespace Solarix.Json

/-! ## Objects up to the order of their keys -/

section Objects

variable {entries entries' : List (String × Json)}

theorem find?_eq_some_iff (h : (entries.map Prod.fst).Nodup) {entry : String × Json} :
    (entries.find? fun other => other.1 == entry.1) = some entry ↔ entry ∈ entries := by
  constructor
  · exact List.mem_of_find?_eq_some
  · exact find?_of_nodup h

theorem ObjectOf.perm {obj : List (String × Json)} (hobj : ObjectOf entries obj)
    (h : (entries.map Prod.fst).Nodup) : obj.Perm entries := by
  have hnodup : obj.Nodup := hobj.sorted.imp fun hlt heq => (heq ▸ hlt).ne rfl
  have hreverse : (entries.reverse.map Prod.fst).Nodup := by
    rwa [List.map_reverse, List.nodup_reverse]
  rw [List.perm_ext_iff_of_nodup hnodup h.of_map]
  intro entry
  rw [hobj.mem_iff, find?_eq_some_iff hreverse, List.mem_reverse]

theorem eq_of_perm_of_sorted (h : entries.Pairwise fun a b => a.1 < b.1)
    (h' : entries'.Pairwise fun a b => a.1 < b.1) (hperm : entries.Perm entries') :
    entries = entries' :=
  hperm.eq_of_pairwise (fun _ _ _ _ hlt hgt => absurd hgt hlt.not_gt) h h'

theorem ofEntries_eq_iff_perm (h : (entries.map Prod.fst).Nodup)
    (h' : (entries'.map Prod.fst).Nodup) :
    ofEntries entries = ofEntries entries' ↔ entries.Perm entries' := by
  obtain ⟨obj, hobj, hof⟩ := exists_objectOf entries
  obtain ⟨obj', hobj', hof'⟩ := exists_objectOf entries'
  rw [hobj, hobj', Json.obj.injEq]
  constructor
  · rintro rfl
    exact (hof.perm h).symm.trans (hof'.perm h')
  · intro hperm
    apply eq_of_perm_of_sorted hof.sorted hof'.sorted
    exact ((hof.perm h).trans hperm).trans (hof'.perm h').symm

theorem nodup_keys_of_sorted (h : entries.Pairwise fun a b => a.1 < b.1) :
    (entries.map Prod.fst).Nodup := by
  rw [List.Nodup, List.pairwise_map]
  exact h.imp fun hlt => hlt.ne

theorem ofEntries_of_sorted (h : entries.Pairwise fun a b => a.1 < b.1) :
    ofEntries entries = .obj entries := by
  obtain ⟨obj, hobj, hof⟩ := exists_objectOf entries
  rw [hobj, eq_of_perm_of_sorted hof.sorted h (hof.perm (nodup_keys_of_sorted h))]

end Objects

/-! ## Values up to the order of their keys -/

def isLeaf : Json → Bool
  | .arr _ => false
  | .obj _ => false
  | _ => true

mutual

@[elab_as_elim]
theorem inductionOn {P : Json → Prop} (leaf : ∀ value : Json, value.isLeaf = true → P value)
    (arr : ∀ items, (∀ item ∈ items, P item) → P (.arr items))
    (obj : ∀ entries, (∀ entry ∈ entries, P entry.2) → P (.obj entries))
    (value : Json) : P value :=
  match value with
  | .null => leaf _ rfl
  | .bool _ => leaf _ rfl
  | .int _ => leaf _ rfl
  | .float _ => leaf _ rfl
  | .str _ => leaf _ rfl
  | .arr items => arr items (inductionOnItems leaf arr obj items)
  | .obj entries => obj entries (inductionOnEntries leaf arr obj entries)

theorem inductionOnItems {P : Json → Prop} (leaf : ∀ value : Json, value.isLeaf = true → P value)
    (arr : ∀ items, (∀ item ∈ items, P item) → P (.arr items))
    (obj : ∀ entries, (∀ entry ∈ entries, P entry.2) → P (.obj entries))
    (items : List Json) : ∀ item ∈ items, P item :=
  match items with
  | [] => List.forall_mem_nil _
  | item :: items => List.forall_mem_cons.mpr
      ⟨inductionOn leaf arr obj item, inductionOnItems leaf arr obj items⟩

theorem inductionOnEntries {P : Json → Prop} (leaf : ∀ value : Json, value.isLeaf = true → P value)
    (arr : ∀ items, (∀ item ∈ items, P item) → P (.arr items))
    (obj : ∀ entries, (∀ entry ∈ entries, P entry.2) → P (.obj entries))
    (entries : List (String × Json)) : ∀ entry ∈ entries, P entry.2 :=
  match entries with
  | [] => List.forall_mem_nil _
  | (_, value) :: entries => List.forall_mem_cons.mpr
      ⟨inductionOn leaf arr obj value, inductionOnEntries leaf arr obj entries⟩

end

mutual

/-- The keys of each object of the value, at every depth, satisfy `p`. -/
def EveryObject (p : List String → Prop) : Json → Prop
  | .obj entries => p (entries.map Prod.fst) ∧ EveryObjectOfEntries p entries
  | .arr items => EveryObjectOfItems p items
  | _ => True

def EveryObjectOfItems (p : List String → Prop) : List Json → Prop
  | [] => True
  | item :: items => EveryObject p item ∧ EveryObjectOfItems p items

def EveryObjectOfEntries (p : List String → Prop) : List (String × Json) → Prop
  | [] => True
  | (_, value) :: entries => EveryObject p value ∧ EveryObjectOfEntries p entries

end

def DistinctKeys (value : Json) : Prop := value.EveryObject List.Nodup

def KeySorted (value : Json) : Prop := value.EveryObject (List.Pairwise (· < ·))

mutual

/-- Equal up to the order of the object keys at every depth; arrays stay ordered. -/
def SameUpToKeyOrder : Json → Json → Prop
  | .arr items, .arr items' => SameItems items items'
  | .obj entries, .obj entries' =>
      ∃ arranged, SameEntries entries arranged ∧ arranged.Perm entries'
  | value, value' => value = value'

def SameItems : List Json → List Json → Prop
  | [], [] => True
  | item :: items, item' :: items' => SameUpToKeyOrder item item' ∧ SameItems items items'
  | _, _ => False

def SameEntries : List (String × Json) → List (String × Json) → Prop
  | [], [] => True
  | (key, value) :: entries, (key', value') :: entries' =>
      (key = key' ∧ SameUpToKeyOrder value value') ∧ SameEntries entries entries'
  | _, _ => False

end

section Depth

variable {p : List String → Prop}

@[simp] theorem everyObject_arr (items : List Json) :
    (Json.arr items).EveryObject p ↔ ∀ item ∈ items, item.EveryObject p := by
  rw [EveryObject]
  induction items with
  | nil => simp [EveryObjectOfItems]
  | cons item items ih => rw [EveryObjectOfItems, ih, List.forall_mem_cons]

@[simp] theorem everyObject_obj (entries : List (String × Json)) :
    (Json.obj entries).EveryObject p ↔
      p (entries.map Prod.fst) ∧ ∀ entry ∈ entries, entry.2.EveryObject p := by
  rw [EveryObject]
  apply and_congr_right'
  induction entries with
  | nil => simp [EveryObjectOfEntries]
  | cons entry entries ih => rw [EveryObjectOfEntries, ih, List.forall_mem_cons]

theorem everyObject_of_isLeaf {value : Json} (h : value.isLeaf = true) : value.EveryObject p := by
  cases value with
  | arr items => simp [isLeaf] at h
  | obj entries => simp [isLeaf] at h
  | _ => simp [EveryObject]

@[simp] theorem sameUpToKeyOrder_arr (items items' : List Json) :
    (Json.arr items).SameUpToKeyOrder (.arr items') ↔
      List.Forall₂ SameUpToKeyOrder items items' := by
  rw [SameUpToKeyOrder]
  induction items generalizing items' with
  | nil => cases items' <;> simp [SameItems]
  | cons item items ih =>
      cases items' with
      | nil => simp [SameItems]
      | cons item' items' => rw [SameItems, ih, List.forall₂_cons]

@[simp] theorem sameUpToKeyOrder_obj (entries entries' : List (String × Json)) :
    (Json.obj entries).SameUpToKeyOrder (.obj entries') ↔
      ∃ arranged, List.Forall₂ (fun a b => a.1 = b.1 ∧ a.2.SameUpToKeyOrder b.2) entries arranged ∧
        arranged.Perm entries' := by
  rw [SameUpToKeyOrder]
  apply exists_congr
  intro arranged
  apply and_congr_left'
  induction entries generalizing arranged with
  | nil => cases arranged <;> simp [SameEntries]
  | cons entry entries ih =>
      cases arranged with
      | nil => simp [SameEntries]
      | cons entry' arranged => rw [SameEntries, ih, List.forall₂_cons]

theorem sameUpToKeyOrder_of_isLeaf {value value' : Json} (h : value.isLeaf = true) :
    value.SameUpToKeyOrder value' ↔ value = value' := by
  cases value with
  | arr items => simp [isLeaf] at h
  | obj entries => simp [isLeaf] at h
  | _ => simp [SameUpToKeyOrder]

end Depth

end Solarix.Json

namespace Solarix.Registry

open Solarix.Core

/-! ## `canonicalize_json` -/

@[simp] theorem canonicalizeJson_arr (items : List Json) :
    canonicalizeJson (.arr items) = .arr (items.map canonicalizeJson) := by
  rw [canonicalizeJson]
  congr 1
  induction items with
  | nil => rfl
  | cons item items ih => rw [canonicalizeItems, ih, List.map_cons]

def canonicalizeEntry (entry : String × Json) : String × Json :=
  (entry.1, canonicalizeJson entry.2)

@[simp] theorem canonicalizeJson_obj (entries : List (String × Json)) :
    canonicalizeJson (.obj entries) = Json.ofEntries (entries.map canonicalizeEntry) := by
  rw [canonicalizeJson]
  congr 1
  induction entries with
  | nil => rfl
  | cons entry entries ih => rw [canonicalizeEntries, ih, List.map_cons, canonicalizeEntry]

theorem map_fst_canonicalizeEntry (entries : List (String × Json)) :
    (entries.map canonicalizeEntry).map Prod.fst = entries.map Prod.fst := by
  rw [List.map_map]
  rfl

theorem canonicalizeJson_of_isLeaf {value : Json} (h : value.isLeaf = true) :
    canonicalizeJson value = value := by
  cases value with
  | arr items => simp [Json.isLeaf] at h
  | obj entries => simp [Json.isLeaf] at h
  | _ => simp [canonicalizeJson]

theorem isLeaf_canonicalizeJson (value : Json) :
    (canonicalizeJson value).isLeaf = value.isLeaf := by
  cases value with
  | arr items => rw [canonicalizeJson_arr]; rfl
  | obj entries => rw [canonicalizeJson_obj]; rfl
  | _ => rw [canonicalizeJson_of_isLeaf rfl]

theorem keySorted_canonicalizeJson (value : Json) : (canonicalizeJson value).KeySorted := by
  induction value using Json.inductionOn with
  | leaf value h =>
      rw [canonicalizeJson_of_isLeaf h]
      exact Json.everyObject_of_isLeaf h
  | arr items ih =>
      rw [canonicalizeJson_arr, Json.KeySorted, Json.everyObject_arr, List.forall_mem_map]
      exact ih
  | obj entries ih =>
      obtain ⟨obj, hobj, hof⟩ := Json.exists_objectOf (entries.map canonicalizeEntry)
      rw [canonicalizeJson_obj, hobj, Json.KeySorted, Json.everyObject_obj, List.pairwise_map]
      refine ⟨hof.sorted, fun entry hentry => ?_⟩
      -- what the object holds was one of the entries
      have hmem := List.mem_of_find?_eq_some (hof.mem_iff.mp hentry)
      rw [List.mem_reverse, List.mem_map] at hmem
      obtain ⟨original, horiginal, rfl⟩ := hmem
      exact ih original horiginal

theorem canonicalizeJson_of_keySorted {value : Json} (h : value.KeySorted) :
    canonicalizeJson value = value := by
  induction value using Json.inductionOn with
  | leaf value hleaf => exact canonicalizeJson_of_isLeaf hleaf
  | arr items ih =>
      rw [Json.KeySorted, Json.everyObject_arr] at h
      rw [canonicalizeJson_arr, List.map_congr_left fun item hitem => ih item hitem (h item hitem),
        List.map_id']
  | obj entries ih =>
      rw [Json.KeySorted, Json.everyObject_obj, List.pairwise_map] at h
      have hsame : entries.map canonicalizeEntry = entries := by
        conv_rhs => rw [← List.map_id entries]
        apply List.map_congr_left
        intro entry hentry
        exact Prod.ext rfl (ih entry hentry (h.2 entry hentry))
      rw [canonicalizeJson_obj, hsame, Json.ofEntries_of_sorted h.1]

theorem canonicalizeJson_idempotent (value : Json) :
    canonicalizeJson (canonicalizeJson value) = canonicalizeJson value :=
  canonicalizeJson_of_keySorted (keySorted_canonicalizeJson value)

theorem canonicalizeEntry_eq_iff {a b : String × Json} :
    canonicalizeEntry a = canonicalizeEntry b ↔
      a.1 = b.1 ∧ canonicalizeJson a.2 = canonicalizeJson b.2 := by
  rw [canonicalizeEntry, canonicalizeEntry, Prod.mk.injEq]

theorem map_eq_map_iff_forall₂ {α β : Type} (f : α → β) {xs ys : List α} :
    xs.map f = ys.map f ↔ List.Forall₂ (fun a b => f a = f b) xs ys := by
  rw [← List.forall₂_eq_eq_eq, List.forall₂_map_left_iff, List.forall₂_map_right_iff]

theorem map_perm_map_iff {α β : Type} (f : α → β) {xs ys : List α} :
    (xs.map f).Perm (ys.map f) ↔
      ∃ arranged, List.Forall₂ (fun a b => f a = f b) xs arranged ∧ arranged.Perm ys := by
  rw [← iff_of_eq (congrFun (congrFun (List.eq_map_comp_perm f) (xs.map f)) ys)]
  apply exists_congr
  intro arranged
  exact and_congr_left' (map_eq_map_iff_forall₂ f)

theorem forall₂_congr_of_mem {α β : Type} {r s : α → β → Prop} {xs : List α} {ys : List β}
    (h : ∀ x ∈ xs, ∀ y ∈ ys, (r x y ↔ s x y)) : List.Forall₂ r xs ys ↔ List.Forall₂ s xs ys := by
  induction xs generalizing ys with
  | nil => cases ys <;> simp
  | cons x xs ih =>
      cases ys with
      | nil => simp
      | cons y ys =>
          rw [List.forall₂_cons, List.forall₂_cons, h x List.mem_cons_self y List.mem_cons_self]
          apply and_congr_right'
          exact ih fun x hx y hy => h x (List.mem_cons_of_mem _ hx) y (List.mem_cons_of_mem _ hy)

theorem sameUpToKeyOrder_iff {value value' : Json} (h : value.DistinctKeys)
    (h' : value'.DistinctKeys) :
    value.SameUpToKeyOrder value' ↔ canonicalizeJson value = canonicalizeJson value' := by
  induction value using Json.inductionOn generalizing value' with
  | leaf value hleaf =>
      rw [Json.sameUpToKeyOrder_of_isLeaf hleaf, canonicalizeJson_of_isLeaf hleaf]
      constructor
      · rintro rfl
        exact (canonicalizeJson_of_isLeaf hleaf).symm
      · intro heq
        have hleaf' : value'.isLeaf = true := by
          rw [← isLeaf_canonicalizeJson, ← heq, hleaf]
        rw [heq, canonicalizeJson_of_isLeaf hleaf']
  | arr items ih =>
      cases value' with
      | arr items' =>
          rw [Json.DistinctKeys, Json.everyObject_arr] at h h'
          rw [Json.sameUpToKeyOrder_arr, canonicalizeJson_arr, canonicalizeJson_arr,
            Json.arr.injEq, map_eq_map_iff_forall₂]
          apply forall₂_congr_of_mem
          intro item hitem item' hitem'
          exact ih item hitem (h item hitem) (h' item' hitem')
      | _ => simp [Json.SameUpToKeyOrder, Json.ofEntries, canonicalizeJson]
  | obj entries ih =>
      cases value' with
      | obj entries' =>
          rw [Json.DistinctKeys, Json.everyObject_obj] at h h'
          rw [Json.sameUpToKeyOrder_obj, canonicalizeJson_obj, canonicalizeJson_obj,
            Json.ofEntries_eq_iff_perm (by rw [map_fst_canonicalizeEntry]; exact h.1)
              (by rw [map_fst_canonicalizeEntry]; exact h'.1), map_perm_map_iff]
          apply exists_congr
          intro arranged
          apply and_congr_left
          intro hperm
          apply forall₂_congr_of_mem
          intro entry hentry entry' hentry'
          rw [canonicalizeEntry_eq_iff,
            ih entry hentry (h.2 entry hentry) (h'.2 entry' (hperm.subset hentry'))]
      | _ => simp [Json.SameUpToKeyOrder, Json.ofEntries, canonicalizeJson]

/-! ## The hash -/

theorem utf8Bytes_injective : Function.Injective utf8Bytes := by
  intro s t h
  have hs := decodeUtf8_eq_some.mpr (rfl : utf8Bytes s = utf8Bytes s)
  rw [h, decodeUtf8_eq_some.mpr rfl] at hs
  exact (Option.some.inj hs).symm

theorem hexDigit_inj : ∀ m < 16, ∀ n < 16, Decoder.hexDigit m = Decoder.hexDigit n → m = n := by
  decide

theorem hexEncode_injective : Function.Injective Decoder.hexEncode := by
  intro bytes bytes' h
  have hlist := congrArg String.toList h
  rw [Decoder.toList_hexEncode, Decoder.toList_hexEncode] at hlist
  clear h
  induction bytes generalizing bytes' with
  | nil =>
      cases bytes' with
      | nil => rfl
      | cons b' bytes' => simp at hlist
  | cons b bytes ih =>
      cases bytes' with
      | nil => simp at hlist
      | cons b' bytes' =>
          simp only [List.flatMap_cons, List.cons_append, List.nil_append, List.cons.injEq]
            at hlist
          obtain ⟨hhigh, hlow, hrest⟩ := hlist
          have hb := b.toNat_lt
          have hb' := b'.toNat_lt
          have hhigh := hexDigit_inj _ (by omega) _ (by omega) hhigh
          have hlow := hexDigit_inj _ (by omega) _ (by omega) hlow
          have heq : b = b' := UInt8.toNat_inj.mp (by omega)
          rw [heq, ih hrest]

/-- `serde_json` as the hash relies on it.  A double that is not finite has no JSON text,
so the serialisation is taken as injective on what texts are read as. -/
structure IdlCodec.Canonical (codec : IdlCodec) : Prop where
  distinctKeys : ∀ text value, codec.fromStr text = .ok value → value.DistinctKeys
  toStr_injOn : Set.InjOn codec.toStr {value | value.KeySorted ∧
    ∃ text parsed, codec.fromStr text = .ok parsed ∧ value = canonicalizeJson parsed}

section Hash

variable {env : Externs} {codec : IdlCodec} {text text' : String} {value value' : Json}

theorem computeIdlHash_of_reads (h : codec.fromStr text = .ok value) :
    computeIdlHash env codec text =
      Decoder.hexEncode (env.sha256 (utf8Bytes (codec.toStr (canonicalizeJson value)))) := by
  rw [computeIdlHash, h]

theorem toStr_canonicalizeJson_eq_iff (hcodec : codec.Canonical)
    (h : codec.fromStr text = .ok value) (h' : codec.fromStr text' = .ok value') :
    codec.toStr (canonicalizeJson value) = codec.toStr (canonicalizeJson value') ↔
      value.SameUpToKeyOrder value' := by
  rw [sameUpToKeyOrder_iff (hcodec.distinctKeys text value h) (hcodec.distinctKeys text' value' h')]
  constructor
  · intro heq
    exact hcodec.toStr_injOn ⟨keySorted_canonicalizeJson value, text, value, h, rfl⟩
      ⟨keySorted_canonicalizeJson value', text', value', h', rfl⟩ heq
  · exact congrArg codec.toStr

end Hash

/-! ## Two texts of one value -/

def nestedJson : Json :=
  .obj [("a", .arr [.obj [("c", .int 3), ("d", .int 2)]]), ("b", .int 1)]

def emptyJson : Json := .obj [("a", .arr []), ("b", .int 1)]

def nestedText : String := "\x7b\"a\":[\x7b\"c\":3,\"d\":2\x7d],\"b\":1\x7d"

def spacedText : String := "\x7b \"b\": 1, \"a\": [\x7b\"d\": 2, \"c\": 3\x7d] \x7d"

def emptyText : String := "\x7b\"a\":[],\"b\":1\x7d"

def IdlCodec.nested : IdlCodec where
  fromStr text :=
    if text = nestedText ∨ text = spacedText then .ok nestedJson
    else if text = emptyText then .ok emptyJson
    else .error "expected value"
  toStr value :=
    match value.field? "a" with
    | some (.arr []) => emptyText
    | _ => nestedText
  fromValue _ := .error "missing field"

def Externs.nested : Externs where
  sha256 bytes :=
    if bytes = utf8Bytes nestedText then
      [170, 15, 255, 144, 178, 71, 70, 15, 255, 53, 146, 255, 73, 26, 200, 121, 198, 155, 5, 238,
        94, 250, 20, 57, 61, 49, 84, 189, 145, 153, 39, 63]
    else if bytes = utf8Bytes emptyText then
      [28, 143, 136, 22, 80, 106, 140, 203, 197, 81, 64, 216, 167, 187, 112, 33, 74, 137, 66, 199,
        3, 15, 192, 252, 41, 20, 206, 198, 117, 205, 28, 21]
    else List.replicate 32 0
  sha256_length bytes := by
    split
    · rfl
    · split
      · rfl
      · exact List.length_replicate
  bs58Encode _ := ""
  bs58Decode _ := .ok []
  utf8Error _ := ""
  serdeError _ := ""

theorem nested_reads {text : String} {value : Json} (h : IdlCodec.nested.fromStr text = .ok value) :
    value = nestedJson ∨ value = emptyJson := by
  simp only [IdlCodec.nested] at h
  split_ifs at h with hnested hempty
  · exact .inl (Except.ok.inj h).symm
  · exact .inr (Except.ok.inj h).symm

theorem everyObject_nested {p : List String → Prop} (h : p ["a", "b"]) (h' : p ["c", "d"])
    {value : Json} (hvalue : value = nestedJson ∨ value = emptyJson) : value.EveryObject p := by
  rcases hvalue with rfl | rfl
  · simp [nestedJson, h, h', Json.EveryObject, Json.EveryObjectOfItems,
      Json.EveryObjectOfEntries]
  · simp [emptyJson, h, Json.EveryObject, Json.EveryObjectOfItems]

theorem canonicalizeJson_nested {value : Json} (hvalue : value = nestedJson ∨ value = emptyJson) :
    canonicalizeJson value = value := by
  apply canonicalizeJson_of_keySorted
  exact everyObject_nested (by decide) (by decide) hvalue

theorem nested_canonical : IdlCodec.nested.Canonical where
  distinctKeys text value h := everyObject_nested (by decide) (by decide) (nested_reads h)
  toStr_injOn := by
    rintro _ ⟨_, text, parsed, hread, rfl⟩ _ ⟨_, text', parsed', hread', rfl⟩ heq
    rw [canonicalizeJson_nested (nested_reads hread),
      canonicalizeJson_nested (nested_reads hread')] at heq ⊢
    rcases nested_reads hread with rfl | rfl
    · rcases nested_reads hread' with rfl | rfl
      · rfl
      · exact absurd heq (by decide +kernel)
    · rcases nested_reads hread' with rfl | rfl
      · exact absurd heq (by decide +kernel)
      · rfl

-- A digest has 32 bytes, so that no function of this kind is injective on all messages:
-- it is taken as injective on a set that holds the two that are compared.
/-- The IDL hash is a canonical form: two texts have one hash exactly when they are read as
the same value up to the order of the keys. -/
theorem idl_hash_canonical (env : Externs) (codec : IdlCodec) (hcodec : codec.Canonical) :
    (∀ value, canonicalizeJson (canonicalizeJson value) = canonicalizeJson value) ∧
      ∀ text text' value value', codec.fromStr text = .ok value →
        codec.fromStr text' = .ok value' →
        (codec.toStr (canonicalizeJson value) = codec.toStr (canonicalizeJson value') ↔
          value.SameUpToKeyOrder value') ∧
        (value.SameUpToKeyOrder value' →
          computeIdlHash env codec text = computeIdlHash env codec text') ∧
        ∀ messages : Set (List UInt8), Set.InjOn env.sha256 messages →
          utf8Bytes (codec.toStr (canonicalizeJson value)) ∈ messages →
          utf8Bytes (codec.toStr (canonicalizeJson value')) ∈ messages →
          ¬value.SameUpToKeyOrder value' →
          computeIdlHash env codec text ≠ computeIdlHash env codec text' := by
  refine ⟨canonicalizeJson_idempotent, fun text text' value value' h h' => ?_⟩
  have hiff := toStr_canonicalizeJson_eq_iff hcodec h h'
  rw [computeIdlHash_of_reads h, computeIdlHash_of_reads h']
  refine ⟨hiff, fun hsame => ?_, fun messages hinj hmem hmem' hdiffer heq => ?_⟩
  · rw [hiff.mpr hsame]
  · apply hdiffer
    apply hiff.mp
    apply utf8Bytes_injective
    exact hinj hmem hmem' (hexEncode_injective heq)

theorem idl_hash_canonical_nested :
    computeIdlHash Externs.nested IdlCodec.nested spacedText =
        computeIdlHash Externs.nested IdlCodec.nested nestedText ∧
      computeIdlHash Externs.nested IdlCodec.nested nestedText ≠
        computeIdlHash Externs.nested IdlCodec.nested emptyText := by
  have hread : IdlCodec.nested.fromStr nestedText = .ok nestedJson := rfl
  have hspaced : IdlCodec.nested.fromStr spacedText = .ok nestedJson := rfl
  have hempty : IdlCodec.nested.fromStr emptyText = .ok emptyJson := rfl
  have hdistinct := nested_canonical.distinctKeys nestedText nestedJson hread
  have hsame : nestedJson.SameUpToKeyOrder nestedJson :=
    (sameUpToKeyOrder_iff hdistinct hdistinct).mpr rfl
  have hdiffer : ¬nestedJson.SameUpToKeyOrder emptyJson := by
    rw [sameUpToKeyOrder_iff hdistinct (nested_canonical.distinctKeys _ _ hempty),
      canonicalizeJson_nested (.inl rfl), canonicalizeJson_nested (.inr rfl)]
    simp [nestedJson, emptyJson]
  have hcanonical := (idl_hash_canonical Externs.nested IdlCodec.nested nested_canonical).2
  refine ⟨(hcanonical _ _ _ _ hspaced hread).2.1 hsame, ?_⟩
  apply (hcanonical _ _ _ _ hread hempty).2.2 {utf8Bytes nestedText, utf8Bytes emptyText} _ _ _
    hdiffer
  · rintro _ (rfl | rfl) _ (rfl | rfl) heq
    · rfl
    · exact absurd heq (by decide +kernel)
    · exact absurd heq (by decide +kernel)
    · rfl
  · exact .inl (by decide +kernel)
  · exact .inr (by decide +kernel)

end Solarix.Registry
