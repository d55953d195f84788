import Solarix.Decoder.Accepted

/-!
# What a `jsonb` column takes

PostgreSQL refuses U+0000 in the strings and keys of a `jsonb` value.  A decoded value is
free of it exactly when the strings on chain and the names of the IDL that end up in the
JSON are.
-/

namespace Solarix

def nulFree (s : String) : Bool := s.toList.all (· ≠ Char.ofNat 0)

namespace Json

mutual

def storable : Json → Bool
  | .str s => nulFree s
  | .arr items => storableItems items
  | .obj entries => storableEntries entries
  | _ => true

def storableItems : List Json → Bool
  | [] => true
  | item :: items => storable item && storableItems items

def storableEntries : List (String × Json) → Bool
  | [] => true
  | (key, val) :: entries => nulFree key && storable val && storableEntries entries

end

theorem storableItems_iff {items : List Json} :
    storableItems items = true ↔ ∀ item ∈ items, storable item = true := by
  induction items with
  | nil => simp [storableItems]
  | cons item items ih => simp [storableItems, ih]

theorem storableEntries_iff {entries : List (String × Json)} :
    storableEntries entries = true ↔
      ∀ entry ∈ entries, nulFree entry.1 = true ∧ storable entry.2 = true := by
  induction entries with
  | nil => simp [storableEntries]
  | cons entry entries ih => simp [storableEntries, ih]

def lastStorable : List (String × Json) → Bool
  | [] => true
  | (key, val) :: entries =>
      (decide (key ∈ entries.map Prod.fst) || (nulFree key && storable val)) &&
        lastStorable entries

theorem lastStorable_iff {entries : List (String × Json)} :
    lastStorable entries = true ↔
      ∀ entry, (entries.reverse.find? fun other => other.1 == entry.1) = some entry →
        nulFree entry.1 = true ∧ storable entry.2 = true := by
  induction entries with
  | nil => simp [lastStorable]
  | cons head entries ih =>
      obtain ⟨key, val⟩ := head
      have hnone : (entries.reverse.find? fun other => other.1 == key) = none ↔
          key ∉ entries.map Prod.fst := by
        rw [List.find?_eq_none]
        simp only [List.mem_reverse, beq_iff_eq, List.mem_map, not_exists, not_and]
      have hfind (entry : String × Json) :
          (((key, val) :: entries).reverse.find? fun other => other.1 == entry.1) =
            (entries.reverse.find? fun other => other.1 == entry.1).or
              (if key = entry.1 then some (key, val) else none) := by
        rw [List.reverse_cons, List.find?_append, find?_cons_key]
        rfl
      simp only [lastStorable, hfind, Bool.and_eq_true, Bool.or_eq_true, decide_eq_true_eq, ih]
      constructor
      · rintro ⟨hhead, htail⟩ entry hentry
        rcases Option.or_eq_some_iff.mp hentry with hlater | ⟨hlater, hentry⟩
        · exact htail entry hlater
        · split at hentry
          · rename_i hkey
            cases hentry
            exact hhead.resolve_left (hnone.mp hlater)
          · cases hentry
      · intro h
        constructor
        · by_cases hlater : key ∈ entries.map Prod.fst
          · exact Or.inl hlater
          · refine Or.inr (h (key, val) ?_)
            rw [hnone.mpr hlater, if_pos rfl]
            rfl
        · intro entry hentry
          apply h
          rw [hentry]
          rfl

theorem storable_ofEntries (entries : List (String × Json)) :
    storable (ofEntries entries) = lastStorable entries := by
  obtain ⟨obj, hobj, hof⟩ := exists_objectOf entries
  rw [hobj, storable, Bool.eq_iff_iff, storableEntries_iff, lastStorable_iff]
  simp only [hof.mem_iff]

end Json

namespace Decoder

open Solarix.Core

namespace BorshValue

mutual

/-- No string, variant name or field name of the value that its rendering keeps has a
U+0000.  A field is overwritten by a later one of the same name. -/
def clean : BorshValue → Bool
  | .string s => nulFree s
  | .some x => clean x
  | .vec xs => cleanAll xs
  | .array xs => cleanAll xs
  | .coptionSome x => clean x
  | .struct shape xs => cleanFields shape xs
  | .enum _ variant shape xs => nulFree variant && cleanFields shape xs
  | .alias x => clean x
  | .generic x => clean x
  | _ => true

def cleanAll : List BorshValue → Bool
  | [] => true
  | x :: xs => clean x && cleanAll xs

def cleanFields : Shape → List BorshValue → Bool
  | .unit, _ => true
  | .tuple, xs => cleanAll xs
  | .named names, xs => cleanNamed names xs

def cleanNamed : List String → List BorshValue → Bool
  | name :: names, x :: xs =>
      (decide (name ∈ names.take xs.length) || (nulFree name && clean x)) &&
        cleanNamed names xs
  | _, _ => true

end

/-! ## Texts of the renderer -/

section Render

variable {env : Externs}

theorem nulFree_append (s t : String) : nulFree (s ++ t) = (nulFree s && nulFree t) := by
  simp [nulFree, List.all_append]

theorem nulFree_toString (z : Int) : nulFree (toString z) = true := by
  have hnul := not_mem_toString (show (Char.ofNat 0).isDigit = false by decide) (by decide) z
  unfold nulFree
  rw [List.all_eq_true]
  intro c hc
  simpa using fun heq : c = Char.ofNat 0 => hnul (heq ▸ hc)

theorem nulFree_hexEncode (bytes : List UInt8) : nulFree (hexEncode bytes) = true := by
  have hdigit : ∀ n < 16, hexDigit n ≠ Char.ofNat 0 := by decide
  unfold nulFree
  rw [toList_hexEncode, List.all_flatMap, List.all_eq_true]
  intro b _
  have hb := b.toNat_lt
  simp only [List.all_cons, List.all_nil, Bool.and_true, Bool.and_eq_true, decide_eq_true_eq]
  exact ⟨hdigit _ (by omega), hdigit _ (by omega)⟩

theorem storable_intToJson (t : IntType) (z : Int) : (intToJson t z).storable = true := by
  cases t <;> first | rfl | exact nulFree_toString z

theorem storable_floatToJson (f : FloatFormat) (bits : Nat) : (f.toJson bits).storable = true := by
  unfold FloatFormat.toJson FloatFormat.formatNonFinite
  split
  · rfl
  · split
    · decide
    · split <;> decide

theorem storable_bytes (bytes : List UInt8) :
    Json.storableItems (bytes.map fun b => .int b.toNat) = true := by
  rw [Json.storableItems_iff]
  simp [Json.storable]

theorem map_fst_zip_renderAll (names : List String) (xs : List BorshValue) :
    (names.zip (renderAll env xs)).map Prod.fst = names.take xs.length := by
  induction names generalizing xs with
  | nil => simp
  | cons name names ih =>
      cases xs with
      | nil => simp [renderAll]
      | cons x xs => simp [renderAll, ih]

/-- The base58 alphabet has no U+0000. -/
def Base58Clean (env : Externs) : Prop := ∀ bs, nulFree (env.bs58Encode bs) = true

mutual

theorem storable_render (hbase58 : Base58Clean env) :
    ∀ x : BorshValue, (render env x).storable = clean x
  | .bool _ => by simp [render, Json.storable, clean]
  | .int t z => by simp [render, storable_intToJson, clean]
  | .float format bits => by simp [render, storable_floatToJson, clean]
  | .word256 bs => by simp [render, Json.storable, nulFree_append, nulFree_hexEncode, clean]; decide
  | .string _ => by simp [render, Json.storable, clean]
  | .bytes bs => by simp [render, Json.storable, storable_bytes, clean]
  | .pubkey bs => by simp [render, Json.storable, hbase58 bs, clean]
  | .none => by simp [render, Json.storable, clean]
  | .some x => by rw [render, clean, storable_render hbase58 x]
  | .vec xs => by rw [render, Json.storable, clean, storable_renderAll hbase58 xs]
  | .array xs => by rw [render, Json.storable, clean, storable_renderAll hbase58 xs]
  | .coptionNone _ => by simp [render, Json.storable, clean]
  | .coptionSome x => by rw [render, clean, storable_render hbase58 x]
  | .struct shape xs => by rw [render, clean, storable_renderStruct hbase58 shape xs]
  | .enum _ variant shape xs => by
      have hpayload : (renderVariant shape (renderAll env xs)).storable =
          cleanFields shape xs := by
        rw [← storable_renderStruct hbase58 shape xs]
        unfold renderVariant
        split
        · simp [renderStruct, Json.storable, Json.storableItems, *]
        · rfl
      rw [render, Json.storable_ofEntries, Json.lastStorable, hpayload]
      simp [Json.lastStorable, clean]
  | .alias x => by rw [render, clean, storable_render hbase58 x]
  | .generic x => by rw [render, clean, storable_render hbase58 x]

theorem storable_renderAll (hbase58 : Base58Clean env) : ∀ xs : List BorshValue,
    Json.storableItems (renderAll env xs) = cleanAll xs
  | [] => by simp [renderAll, Json.storableItems, cleanAll]
  | x :: xs => by
      rw [renderAll, Json.storableItems, storable_render hbase58 x,
        storable_renderAll hbase58 xs, cleanAll]

theorem storable_renderStruct (hbase58 : Base58Clean env) :
    ∀ (shape : Shape) (xs : List BorshValue),
    (renderStruct shape (renderAll env xs)).storable = cleanFields shape xs
  | .unit, xs => by
      rw [renderStruct, Json.storable_ofEntries, Json.lastStorable, cleanFields]
  | .tuple, xs => by rw [renderStruct, Json.storable, cleanFields, storable_renderAll hbase58 xs]
  | .named names, xs => by
      rw [renderStruct, Json.storable_ofEntries, cleanFields]
      exact storable_renderNamed hbase58 names xs

theorem storable_renderNamed (hbase58 : Base58Clean env) :
    ∀ (names : List String) (xs : List BorshValue),
    Json.lastStorable (names.zip (renderAll env xs)) = cleanNamed names xs
  | [], xs => by simp [Json.lastStorable, cleanNamed]
  | name :: names, [] => by simp [renderAll, Json.lastStorable, cleanNamed]
  | name :: names, x :: xs => by
      rw [renderAll, List.zip_cons_cons, Json.lastStorable, map_fst_zip_renderAll,
        storable_render hbase58 x, storable_renderNamed hbase58 names xs, cleanNamed]

end

end Render

end BorshValue

open BorshValue (clean cleanNamed renderStruct renderAll render)

/-- A decoded instruction or account can be stored exactly when the values that the data
holds behind the discriminator are clean. -/
theorem decoded_storable_iff (env : Externs) (hbase58 : BorshValue.Base58Clean env)
    (self : ChainparserDecoder) (programId pubkey : String) (data : DataSlice) (idl : Idl) :
    (∀ decoded, (self.decodeInstruction env programId data idl).1 = .ok decoded →
      (decoded.args.storable = true ↔
        ∀ ix xs, findInstructionWithFallback env data.bytes idl = .ok ix →
          ArgumentsAt (self.registryFor idl) data ix xs →
          cleanNamed (ix.args.map IdlField.name) xs = true)) ∧
    (∀ decoded, (self.decodeAccount env programId pubkey data idl).1 = .ok decoded →
      (decoded.data.storable = true ↔
        ∀ account typedef x, findAccountWithFallback env data.bytes idl = .ok account →
          AccountAt (self.registryFor idl) data account typedef x → clean x = true)) := by
  constructor
  · intro decoded hdecoded
    constructor
    · intro hstorable ix xs hfind hargs
      have hok : (self.decodeInstruction env programId data idl).1 = .ok (.fromDecoded
          programId ix.name
          (renderStruct (.named (ix.args.map IdlField.name)) (renderAll env xs))) :=
        decodeInstruction_eq_ok.mpr ⟨ix, hfind, xs, hargs, rfl⟩
      rw [hok] at hdecoded
      cases hdecoded
      rw [← BorshValue.storable_renderNamed hbase58, ← Json.storable_ofEntries]
      exact hstorable
    · intro hclean
      obtain ⟨ix, hfind, xs, hargs, rfl⟩ := decodeInstruction_eq_ok.mp hdecoded
      have hxs := hclean ix xs hfind hargs
      rw [← BorshValue.storable_renderNamed hbase58, ← Json.storable_ofEntries] at hxs
      exact hxs
  · intro decoded hdecoded
    constructor
    · intro hstorable account typedef x hfind hx
      have hok : (self.decodeAccount env programId pubkey data idl).1 =
          .ok (.fromDecoded programId account.name pubkey (render env x)) :=
        decodeAccount_eq_ok.mpr ⟨account, hfind, typedef, x, hx, rfl⟩
      rw [hok] at hdecoded
      cases hdecoded
      rw [← BorshValue.storable_render hbase58]
      exact hstorable
    · intro hclean
      obtain ⟨account, hfind, typedef, x, hx, rfl⟩ := decodeAccount_eq_ok.mp hdecoded
      have hxs := hclean account typedef x hfind hx
      rw [← BorshValue.storable_render hbase58] at hxs
      exact hxs

def noteIdl : Idl where
  address := "prog"
  instructions := [⟨"note", [1], [⟨"text", .string⟩]⟩]
  accounts := []
  types := []

def nulNote : DataSlice := ⟨[1, 1, 0, 0, 0, 0], by decide⟩

def plainNote : DataSlice := ⟨[1, 1, 0, 0, 0, 97], by decide⟩

theorem base58Clean_minimal : BorshValue.Base58Clean Externs.minimal := fun _ => rfl

theorem decoded_storable_iff_note :
    (ChainparserDecoder.new.decodeInstruction Externs.minimal "prog" plainNote noteIdl).1 =
        .ok (.fromDecoded "prog" "note" (.obj [("text", .str "a")])) ∧
      ∀ ix xs, findInstructionWithFallback Externs.minimal plainNote.bytes noteIdl = .ok ix →
        ArgumentsAt (.fromIdl noteIdl) plainNote ix xs →
        cleanNamed (ix.args.map IdlField.name) xs = true := by
  have hdecoded : (ChainparserDecoder.new.decodeInstruction Externs.minimal "prog" plainNote
      noteIdl).1 = .ok (.fromDecoded "prog" "note" (.obj [("text", .str "a")])) := by rfl
  refine ⟨hdecoded, ?_⟩
  exact ((decoded_storable_iff Externs.minimal base58Clean_minimal ChainparserDecoder.new "prog"
    "key" plainNote noteIdl).1 _ hdecoded).mp (by decide)

/-- A string of one U+0000 is decoded, and no `jsonb` column takes it. -/
theorem decoded_not_storable :
    ∃ decoded, (ChainparserDecoder.new.decodeInstruction Externs.minimal "prog" nulNote
        noteIdl).1 = .ok decoded ∧ decoded.args.storable = false := by
  refine ⟨.fromDecoded "prog" "note" (.obj [("text", .str (String.ofList [Char.ofNat 0]))]),
    by rfl, by decide⟩

end Decoder

end Solarix
