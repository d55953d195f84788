import Solarix.Storage.Columns

/-!
# Valid identifiers

`sanitize_identifier` and `derive_schema_name` once more, with the subtractions and the
slice of the source, which could panic.  They do not, and they compute the names of the
other modules: a sanitised name is a valid identifier, and a valid identifier is its own
sanitised name.
-/

namespace Solarix.Storage

open Solarix.Core
open String (utf8Len)

/-! ## Truncation -/

section Truncation

variable {ε : Type}

/-- The loop that moves `end` back to a boundary. -/
def boundaryBelow (cs : List Char) : Nat → Outcome ε Nat
  | 0 => if isCharBoundary cs 0 then .ok 0 else Outcome.panic .arithmeticOverflow
  | stop + 1 => if isCharBoundary cs (stop + 1) then .ok (stop + 1) else boundaryBelow cs stop

/-- `truncate_to_bytes`, byte by byte. -/
def truncateRun (s : String) (max : Nat) : Outcome ε String :=
  if s.utf8ByteSize ≤ max then .ok s
  else do
    let stop ← boundaryBelow s.toList max
    let cs ← sliceTo s.toList stop
    .ok (String.ofList cs)

theorem boundaryBelow_eq {cs : List Char} {index stop : Nat} (hle : index ≤ stop)
    (hboundary : isCharBoundary cs index = true)
    (hlast : ∀ i, isCharBoundary cs i = true → i ≤ stop → i ≤ index) :
    (boundaryBelow cs stop : Outcome ε Nat) = .ok index := by
  induction stop with
  | zero =>
      obtain rfl : index = 0 := by omega
      rw [boundaryBelow, if_pos hboundary]
  | succ stop ih =>
      rw [boundaryBelow]
      split
      · rename_i hstop
        have hindex := hlast (stop + 1) hstop (Nat.le_refl _)
        obtain rfl : index = stop + 1 := by omega
        rfl
      · rename_i hstop
        have hne : index ≠ stop + 1 := by
          rintro rfl
          exact hstop hboundary
        exact ih (by omega) fun i hi hi' => hlast i hi (by omega)

theorem truncateRun_eq (s : String) (max : Nat) :
    (truncateRun s max : Outcome ε String) = .ok (truncateToBytes s max) := by
  unfold truncateRun truncateToBytes
  split
  · rename_i hshort
    exact congrArg Except.ok (truncateToBytes_of_le hshort).symm
  · have hstop : (boundaryBelow s.toList max : Outcome ε Nat) =
        .ok (utf8Len (takeBytes max s.toList)) := by
      apply boundaryBelow_eq (utf8Len_takeBytes_le max _)
      · exact isCharBoundary_iff.mpr ⟨_, prefix_takeBytes max _, rfl⟩
      · intro i hi hmax
        obtain ⟨pre, hpre, rfl⟩ := isCharBoundary_iff.mp hi
        exact utf8Len_le_takeBytes hpre hmax
    rw [hstop, Outcome.ok_bind, sliceTo_utf8Len (prefix_takeBytes max _), Outcome.ok_bind]

end Truncation

/-! ## Valid identifiers -/

def isIdentifierStart (c : Char) : Bool := c.isLower || c == '_'

def isIdentifierChar (c : Char) : Bool := c.isLower || c.isDigit || c == '_'

/-- `[a-z_][a-z0-9_]*` -/
def matchesIdentifier : List Char → Bool
  | [] => false
  | c :: cs => isIdentifierStart c && cs.all isIdentifierChar

/-- A name that PostgreSQL takes as it stands. -/
def ValidIdentifier (s : String) : Prop :=
  matchesIdentifier s.toList = true ∧ 1 ≤ s.utf8ByteSize ∧ s.utf8ByteSize ≤ 63

instance (s : String) : Decidable (ValidIdentifier s) :=
  inferInstanceAs (Decidable (_ ∧ _))

theorem isIdentifierChar_iff {c : Char} :
    isIdentifierChar c = true ↔ (c.isLower = true ∨ c.isDigit = true) ∨ c = '_' := by
  simp [isIdentifierChar]

theorem not_isLower_of_isDigit {c : Char} (h : c.isDigit = true) : ¬ c.isLower = true := by
  rw [isDigit_iff] at h
  rw [isLower_iff]
  omega

theorem not_isUpper_of_isIdentifierChar {c : Char} (h : isIdentifierChar c = true) :
    ¬ c.isUpper = true := by
  rw [isIdentifierChar_iff, isLower_iff, isDigit_iff] at h
  rw [isUpper_iff]
  rcases h with h | rfl
  · omega
  · decide

theorem isIdentifierChar_toLower {c : Char} (h : (c.isAlphanum || c == '_') = true) :
    isIdentifierChar c.toLower = true := by
  rw [isIdentifierChar_iff]
  by_cases hupper : c.isUpper = true
  · have hbounds := isUpper_iff.mp hupper
    rw [isLower_iff, toNat_toLower_of_isUpper hupper]
    omega
  · rw [Bool.or_eq_true, beq_iff_eq, isAlphanum_iff] at h
    rw [toLower_of_not_isUpper hupper]
    tauto

theorem isKept_of_isIdentifierChar {c : Char} (h : isIdentifierChar c = true) :
    (c.isAlphanum || c == '_') = true := by
  rw [isIdentifierChar_iff] at h
  rw [Bool.or_eq_true, beq_iff_eq, isAlphanum_iff]
  tauto

theorem keptChars_of_all {s : String} (h : ∀ c ∈ s.toList, isIdentifierChar c = true) :
    keptChars s = s.toList := by
  rw [keptChars, List.filter_eq_self.mpr fun c hc => isKept_of_isIdentifierChar (h c hc)]
  refine (List.map_congr_left fun c hc => ?_).trans (List.map_id _)
  exact toLower_of_not_isUpper (not_isUpper_of_isIdentifierChar (h c hc))

theorem isIdentifierChar_keptChars {name : String} :
    ∀ c ∈ keptChars name, isIdentifierChar c = true := by
  intro c hc
  obtain ⟨d, hd, rfl⟩ := List.mem_map.mp hc
  exact isIdentifierChar_toLower (List.mem_filter.mp hd).2

theorem matchesIdentifier_iff {cs : List Char} :
    matchesIdentifier cs = true ↔
      cs ≠ [] ∧ cs.head?.any Char.isDigit = false ∧ ∀ c ∈ cs, isIdentifierChar c = true := by
  cases cs with
  | nil => simp [matchesIdentifier]
  | cons c cs =>
      have hstart : isIdentifierStart c = true ↔
          c.isDigit = false ∧ isIdentifierChar c = true := by
        cases hdigit : c.isDigit with
        | true =>
            have hlower := Bool.eq_false_iff.mpr (not_isLower_of_isDigit hdigit)
            have hne : c ≠ '_' := by
              rintro rfl
              cases hdigit
            simp [isIdentifierStart, hlower, hne]
        | false => simp [isIdentifierStart, isIdentifierChar, hdigit]
      simp [matchesIdentifier, hstart, and_assoc]

theorem matchesIdentifier_take {cs : List Char} {n : Nat} (hn : 0 < n)
    (h : matchesIdentifier cs = true) : matchesIdentifier (cs.take n) = true := by
  obtain ⟨hne, hhead, hall⟩ := matchesIdentifier_iff.mp h
  refine matchesIdentifier_iff.mpr ⟨?_, ?_, fun c hc => hall c (List.mem_of_mem_take hc)⟩
  · simpa [hne] using hn.ne'
  · rwa [List.head?_take, if_neg hn.ne']

theorem matchesIdentifier_leadChars {name : String} (h : leadChars name ≠ []) :
    matchesIdentifier (leadChars name) = true := by
  rw [matchesIdentifier_iff]
  unfold leadChars at *
  split
  · refine ⟨by simp, rfl, ?_⟩
    rw [List.forall_mem_cons]
    exact ⟨rfl, isIdentifierChar_keptChars⟩
  · rename_i hdigit
    rw [if_neg hdigit] at h
    exact ⟨h, Bool.eq_false_iff.mpr hdigit, isIdentifierChar_keptChars⟩

/-! ## Sanitising -/

theorem utf8Len_eq_length {cs : List Char} (h : ∀ c ∈ cs, c.utf8Size = 1) :
    utf8Len cs = cs.length := by
  induction cs with
  | nil => rfl
  | cons c cs ih =>
      rw [List.forall_mem_cons] at h
      rw [String.utf8Len_cons, ih h.2, h.1, List.length_cons]

theorem utf8Len_of_matches {cs : List Char} (h : matchesIdentifier cs = true) :
    utf8Len cs = cs.length := by
  refine utf8Len_eq_length fun c hc => ?_
  have hchar := (matchesIdentifier_iff.mp h).2.2 c hc
  rw [← toLower_of_not_isUpper (not_isUpper_of_isIdentifierChar hchar)]
  exact utf8Size_toLower (isKept_of_isIdentifierChar hchar)

theorem validIdentifier_sanitizeIdentifier (name : String) :
    ValidIdentifier (sanitizeIdentifier name) := by
  have hchosen : matchesIdentifier
      (if (leadChars name).isEmpty then unnamed else leadChars name) = true := by
    split
    · rfl
    · rename_i hne
      exact matchesIdentifier_leadChars (by simpa using hne)
  rw [sanitizeIdentifier_eq]
  generalize (if (leadChars name).isEmpty then unnamed else leadChars name) = chosen at hchosen
  have htake := matchesIdentifier_take (show 0 < 63 by omega) hchosen
  have hne := List.length_pos_iff.mpr (matchesIdentifier_iff.mp htake).1
  rw [ValidIdentifier, String.toList_ofList, String.utf8ByteSize_ofList,
    utf8Len_of_matches htake]
  exact ⟨htake, hne, List.length_take_le 63 chosen⟩

theorem sanitizeIdentifier_of_valid {s : String} (h : ValidIdentifier s) :
    sanitizeIdentifier s = s := by
  obtain ⟨hmatches, _, hbytes⟩ := h
  obtain ⟨hne, hhead, hall⟩ := matchesIdentifier_iff.mp hmatches
  have hlead : leadChars s = s.toList := by
    rw [leadChars, keptChars_of_all hall, hhead]
    rfl
  have hlength : s.toList.length ≤ 63 := by
    rwa [← utf8Len_of_matches hmatches, String.utf8Len_toList]
  rw [sanitizeIdentifier_eq, hlead, if_neg (by simpa using hne), List.take_of_length_le hlength,
    String.ofList_toList]

/-- `sanitize_identifier` with the truncation that could panic. -/
def sanitizeRun {ε : Type} (name : String) : Outcome ε String :=
  let sanitized := toLowercase
    (String.ofList (name.toList.filter fun c => c.isAlphanum || c == '_'))
  let sanitized :=
    if sanitized.toList.head?.any Char.isDigit then "_" ++ sanitized else sanitized
  let sanitized := if sanitized.isEmpty then "_unnamed" else sanitized
  truncateRun sanitized 63

theorem toLowercase_kept (name : String) :
    toLowercase (String.ofList (name.toList.filter fun c => c.isAlphanum || c == '_')) =
      String.ofList (keptChars name) := by
  rw [toLowercase_ascii, String.toList_ofList, keptChars]
  intro c hc
  rw [String.toList_ofList] at hc
  exact toNat_lt_of_isKept (List.mem_filter.mp hc).2

theorem sanitizeRun_eq {ε : Type} (name : String) :
    (sanitizeRun name : Outcome ε String) = .ok (sanitizeIdentifier name) := by
  have hlead : (if (String.ofList (keptChars name)).toList.head?.any Char.isDigit then
      "_" ++ String.ofList (keptChars name) else String.ofList (keptChars name)) =
      String.ofList (leadChars name) := by
    rw [String.toList_ofList, leadChars]
    split
    · rw [String.ofList_cons]
      rfl
    · rfl
  have hchosen : (if (String.ofList (leadChars name)).isEmpty then "_unnamed"
      else String.ofList (leadChars name)) =
      String.ofList (if (leadChars name).isEmpty then unnamed else leadChars name) := by
    cases leadChars name with
    | nil => rfl
    | cons c cs => simp
  rw [sanitizeRun, toLowercase_kept, hlead, hchosen, truncateRun_eq]
  rfl

/-! ## Schema names -/

/-- `derive_schema_name` with the subtraction and the truncation that could panic. -/
def deriveSchemaNameRun {ε : Type} (idlName programId : String) : Outcome ε String := do
  let idPrefix := toLowercase (String.ofList (programId.toList.take 8))
  let maxNameLen ← subUsize (63 - 1) idPrefix.utf8ByteSize
  let sanitized ← sanitizeRun idlName
  let namePart ← truncateRun sanitized maxNameLen
  .ok (namePart ++ "_" ++ idPrefix)

theorem utf8ByteSize_idPrefix_le (programId : String) :
    (toLowercase (String.ofList (programId.toList.take 8))).utf8ByteSize ≤ 32 := by
  have hlower := utf8Len_lowercaseFrom_le [] (programId.toList.take 8)
  have hlength := List.length_take_le 8 programId.toList
  rw [toLowercase, String.utf8ByteSize_ofList, String.toList_ofList]
  omega

theorem deriveSchemaNameRun_eq {ε : Type} (idlName programId : String) :
    (deriveSchemaNameRun idlName programId : Outcome ε String) =
      .ok (deriveSchemaName idlName programId) := by
  have hprefix := utf8ByteSize_idPrefix_le programId
  rw [deriveSchemaNameRun, subUsize_of_le (by omega), Outcome.ok_bind, sanitizeRun_eq,
    Outcome.ok_bind, truncateRun_eq, Outcome.ok_bind]
  rfl

theorem utf8ByteSize_deriveSchemaName_le (idlName programId : String) :
    (deriveSchemaName idlName programId).utf8ByteSize ≤ 63 := by
  have hprefix := utf8ByteSize_idPrefix_le programId
  have hname := utf8ByteSize_truncateToBytes_le (sanitizeIdentifier idlName)
    (63 - 1 - (toLowercase (String.ofList (programId.toList.take 8))).utf8ByteSize)
  have hone : "_".utf8ByteSize = 1 := rfl
  rw [deriveSchemaName, String.utf8ByteSize_append, String.utf8ByteSize_append, hone]
  omega

def base58Alphabet : List Char :=
  "123456789ABCDEFGHJKLMNPQRSTUVWXYZabcdefghijkmnopqrstuvwxyz".toList

def IsBase58 (s : String) : Prop := (s.toList.all fun c => base58Alphabet.contains c) = true

instance (s : String) : Decidable (IsBase58 s) := inferInstanceAs (Decidable (_ = _))

theorem IsBase58.ascii {s : String} (h : IsBase58 s) : ∀ c ∈ s.toList, c.toNat < 0x80 := by
  have halphabet : base58Alphabet.all (fun c => decide (c.toNat < 0x80)) = true := by decide
  intro c hc
  have hmem := List.contains_iff_mem.mp (List.all_eq_true.mp h c hc)
  simpa using List.all_eq_true.mp halphabet c hmem

theorem deriveSchemaName_of_base58 (idlName : String) {programId : String}
    (h : IsBase58 programId) :
    ∃ namePart : String, namePart.toList <+: (sanitizeIdentifier idlName).toList ∧
      deriveSchemaName idlName programId =
        namePart ++ "_" ++ String.ofList ((programId.toList.take 8).map Char.toLower) := by
  have hlower : toLowercase (String.ofList (programId.toList.take 8)) =
      String.ofList ((programId.toList.take 8).map Char.toLower) := by
    rw [toLowercase_ascii, String.toList_ofList]
    intro c hc
    rw [String.toList_ofList] at hc
    exact h.ascii c (List.mem_of_mem_take hc)
  refine ⟨_, ?_, by rw [deriveSchemaName, hlower]⟩
  rw [truncateToBytes, String.toList_ofList]
  exact prefix_takeBytes _ _

/-- Sanitising is a projection onto the valid identifiers, and a schema name is computed
without a panic, fits and ends with the start of the program id. -/
theorem sanitize_identifier_projection {ε : Type} :
    (∀ name : String,
      (sanitizeRun name : Outcome ε String) = .ok (sanitizeIdentifier name) ∧
        ValidIdentifier (sanitizeIdentifier name)) ∧
    (∀ s : String, ValidIdentifier s → sanitizeIdentifier s = s) ∧
    (∀ name : String,
      sanitizeIdentifier (sanitizeIdentifier name) = sanitizeIdentifier name) ∧
    (∀ s : String, (∃ name, sanitizeIdentifier name = s) ↔ ValidIdentifier s) ∧
    ∀ idlName programId : String,
      (deriveSchemaNameRun idlName programId : Outcome ε String) =
          .ok (deriveSchemaName idlName programId) ∧
        (deriveSchemaName idlName programId).utf8ByteSize ≤ 63 ∧
        (IsBase58 programId →
          ∃ namePart : String, namePart.toList <+: (sanitizeIdentifier idlName).toList ∧
            deriveSchemaName idlName programId =
              namePart ++ "_" ++ String.ofList ((programId.toList.take 8).map Char.toLower)) := by
  refine ⟨fun name => ⟨sanitizeRun_eq name, validIdentifier_sanitizeIdentifier name⟩,
    fun s => sanitizeIdentifier_of_valid, ?_, ?_, ?_⟩
  · intro name
    exact sanitizeIdentifier_of_valid (validIdentifier_sanitizeIdentifier name)
  · intro s
    constructor
    · rintro ⟨name, rfl⟩
      exact validIdentifier_sanitizeIdentifier name
    · intro h
      exact ⟨s, sanitizeIdentifier_of_valid h⟩
  · intro idlName programId
    exact ⟨deriveSchemaNameRun_eq idlName programId,
      utf8ByteSize_deriveSchemaName_le idlName programId, deriveSchemaName_of_base58 idlName⟩

theorem sanitize_identifier_projection_vote :
    ValidIdentifier "vote" ∧ sanitizeIdentifier "vote" = "vote" ∧
      IsBase58 "Vote111111111111111111111111111111111111111" ∧
      ∃ namePart : String, namePart.toList <+: (sanitizeIdentifier "Vote Program").toList ∧
        deriveSchemaName "Vote Program" "Vote111111111111111111111111111111111111111" =
          namePart ++ "_" ++ String.ofList
            (("Vote111111111111111111111111111111111111111".toList.take 8).map Char.toLower) := by
  obtain ⟨_, hfix, _, _, hschema⟩ := @sanitize_identifier_projection Unit
  have hvalid : ValidIdentifier "vote" := by decide
  have hbase58 : IsBase58 "Vote111111111111111111111111111111111111111" := rfl
  exact ⟨hvalid, hfix _ hvalid, hbase58, (hschema _ _).2.2 hbase58⟩

end Solarix.Storage
