import Mathlib.Data.List.Nodup
import Solarix.Core.SqlLexer
import Solarix.Storage.Schema

/-!
# The columns of an account table

PostgreSQL refuses a `CREATE TABLE` that gives a column name twice.  The system columns
are kept apart from the promoted ones by the reserved names; two promoted fields meet when
nothing but their case, their other characters or their tails tell their names apart.
-/

namespace Solarix.Storage

open Solarix.Core

/-! ## Sanitised names -/

/-- What a sanitised name keeps: ASCII letters, in lower case, digits and underscores. -/
def keptChars (name : String) : List Char :=
  (name.toList.filter fun c => c.isAlphanum || c == '_').map Char.toLower

def leadChars (name : String) : List Char :=
  if (keptChars name).head?.any Char.isDigit then '_' :: keptChars name else keptChars name

def unnamed : List Char := "_unnamed".toList

/-- The two names are not told apart. -/
def Merges (a b : String) : Prop :=
  (leadChars a).take 63 = (leadChars b).take 63 ∨
    (leadChars a = [] ∧ leadChars b = unnamed) ∨ (leadChars a = unnamed ∧ leadChars b = [])

instance (a b : String) : Decidable (Merges a b) :=
  inferInstanceAs (Decidable (_ ∨ (_ ∧ _) ∨ (_ ∧ _)))

/-- In ASCII text bytes are characters. -/
theorem takeBytes_eq_take {max : Nat} {cs : List Char} (h : ∀ c ∈ cs, c.utf8Size = 1) :
    takeBytes max cs = cs.take max := by
  induction cs generalizing max with
  | nil => simp [takeBytes]
  | cons c cs ih =>
      rw [List.forall_mem_cons] at h
      cases max with
      | zero => simp [takeBytes, h.1]
      | succ max => simp [takeBytes, h.1, ih h.2]

theorem toNat_lt_of_isKept {c : Char} (h : (c.isAlphanum || c == '_') = true) :
    c.toNat < 0x80 := by
  rw [Bool.or_eq_true, beq_iff_eq, isAlphanum_iff, isUpper_iff, isLower_iff, isDigit_iff] at h
  rcases h with h | rfl
  · omega
  · decide

theorem utf8Size_toLower {c : Char} (h : (c.isAlphanum || c == '_') = true) :
    c.toLower.utf8Size = 1 := by
  rw [utf8Size_eq_one_iff]
  by_cases hupper : c.isUpper = true
  · have hbound := (isUpper_iff.mp hupper).2
    rw [toNat_toLower_of_isUpper hupper]
    omega
  · rw [toLower_of_not_isUpper hupper]
    exact toNat_lt_of_isKept h

theorem utf8Size_keptChars {name : String} : ∀ c ∈ keptChars name, c.utf8Size = 1 := by
  intro c hc
  obtain ⟨d, hd, rfl⟩ := List.mem_map.mp hc
  exact utf8Size_toLower (List.mem_filter.mp hd).2

theorem utf8Size_leadChars {name : String} : ∀ c ∈ leadChars name, c.utf8Size = 1 := by
  intro c hc
  unfold leadChars at hc
  split at hc
  · rcases List.mem_cons.mp hc with rfl | hc
    · decide
    · exact utf8Size_keptChars c hc
  · exact utf8Size_keptChars c hc

theorem utf8Size_unnamed : ∀ c ∈ unnamed, c.utf8Size = 1 := by
  have hall : unnamed.all (fun c => c.utf8Size == 1) = true := by decide
  simpa using hall

theorem sanitizeIdentifier_eq (name : String) :
    sanitizeIdentifier name =
      String.ofList ((if (leadChars name).isEmpty then unnamed else leadChars name).take 63) := by
  have hsize : ∀ c ∈ (if (leadChars name).isEmpty then unnamed else leadChars name),
      c.utf8Size = 1 := by
    split
    · exact utf8Size_unnamed
    · exact utf8Size_leadChars
  rw [← takeBytes_eq_take hsize]
  simp only [sanitizeIdentifier, truncateToBytes, String.toList_ofList]
  rfl

theorem unnamed_eq_take {cs : List Char} : unnamed.take 63 = cs.take 63 ↔ cs = unnamed := by
  constructor
  · intro h
    have hlength := congrArg List.length h
    have hunnamed : unnamed.length = 8 := by decide
    rw [List.length_take, List.length_take, hunnamed] at hlength
    rw [List.take_of_length_le (by omega), List.take_of_length_le (by omega)] at h
    exact h.symm
  · rintro rfl
    rfl

theorem sanitizeIdentifier_eq_iff (a b : String) :
    sanitizeIdentifier a = sanitizeIdentifier b ↔ Merges a b := by
  rw [sanitizeIdentifier_eq, sanitizeIdentifier_eq, String.ofList_inj]
  have hunnamed : unnamed ≠ [] := by decide
  unfold Merges
  by_cases ha : leadChars a = []
  · by_cases hb : leadChars b = []
    · simp [ha, hb]
    · rw [ha, if_pos List.isEmpty_nil, if_neg (by simpa using hb), unnamed_eq_take]
      simp [hb, hunnamed.symm]
  · by_cases hb : leadChars b = []
    · rw [hb, if_pos List.isEmpty_nil, if_neg (by simpa using ha),
        @eq_comm _ ((leadChars a).take 63), unnamed_eq_take]
      simp [ha, hunnamed.symm]
    · simp [ha, hb]

theorem pgIdentifier_sanitizeIdentifier (name : String) :
    pgIdentifier (sanitizeIdentifier name) = sanitizeIdentifier name :=
  pgIdentifier_of_le (utf8ByteSize_truncateToBytes_le _ 63)

/-! ## The columns -/

def Promotes (types : List IdlTypeDef) (field : IdlField) : Prop :=
  (mapIdlTypeToPg field.ty types).isSome ∧
    sanitizeIdentifier field.name ∉ reservedAccountColumns

theorem accountSystemColumns_names :
    (accountSystemColumns.map fun column => pgIdentifier column.name) =
      reservedAccountColumns := by
  decide

theorem promotedColumn_pgIdentifier {account : String} {types : List IdlTypeDef}
    {field : IdlField} :
    ((promotedColumn account types field).map fun column => pgIdentifier column.name) =
      if (mapIdlTypeToPg field.ty types).isSome ∧
          sanitizeIdentifier field.name ∉ reservedAccountColumns then
        some (sanitizeIdentifier field.name)
      else none := by
  unfold promotedColumn
  cases mapIdlTypeToPg field.ty types with
  | none => simp
  | some pgType =>
      by_cases hreserved : sanitizeIdentifier field.name ∈ reservedAccountColumns
      · simp [hreserved]
      · simp [hreserved, pgIdentifier_sanitizeIdentifier]

theorem mem_promotedNames {account : String} {types : List IdlTypeDef} {fields : List IdlField}
    {name : String} :
    name ∈ (fields.filterMap (promotedColumn account types)).map
        (fun column => pgIdentifier column.name) →
      name ∉ reservedAccountColumns := by
  rw [List.map_filterMap]
  intro hmem
  obtain ⟨field, _, hfield⟩ := List.mem_filterMap.mp hmem
  rw [promotedColumn_pgIdentifier, Option.ite_none_right_eq_some] at hfield
  obtain ⟨hpromotes, heq⟩ := hfield
  rw [← Option.some.inj heq]
  exact hpromotes.2

theorem promotedNames_nodup {account : String} {types : List IdlTypeDef}
    {fields : List IdlField} :
    ((fields.filterMap (promotedColumn account types)).map
        fun column => pgIdentifier column.name).Nodup ↔
      fields.Pairwise fun field other =>
        Promotes types field → Promotes types other → ¬ Merges field.name other.name := by
  rw [List.map_filterMap, List.Nodup, List.pairwise_filterMap]
  apply List.Pairwise.iff
  intro field other
  simp only [promotedColumn_pgIdentifier, ← sanitizeIdentifier_eq_iff,
    Option.ite_none_right_eq_some, Option.some.injEq]
  constructor
  · intro h hfield hother
    exact h _ ⟨hfield, rfl⟩ _ ⟨hother, rfl⟩
  · rintro h a ⟨hfield, rfl⟩ b ⟨hother, rfl⟩
    exact h hfield hother

/-- The columns of an account table have different names unless two promoted fields have
names that merge. -/
theorem account_columns_distinct_iff (idl : Idl) (schemaName accountName : String) :
    ((accountTable idl schemaName accountName).columns.map
        fun column => pgIdentifier column.name).Nodup ↔
      (ddlFields idl.types accountName).Pairwise fun field other =>
        Promotes idl.types field → Promotes idl.types other →
          ¬ Merges field.name other.name := by
  rw [← @promotedNames_nodup accountName]
  unfold accountTable generateAccountTable
  simp only [List.map_append]
  rw [List.nodup_append, accountSystemColumns_names]
  constructor
  · intro h
    exact h.2.1
  · intro h
    refine ⟨by decide, h, ?_⟩
    rintro name hsystem other hpromoted rfl
    exact mem_promotedNames hpromoted hsystem

def auctionIdl : Idl where
  address := "prog"
  instructions := []
  accounts := [⟨"Auction", [1]⟩]
  types := [⟨"Auction", .borsh, [],
    .struct (some (.named [⟨"maxBid", .int .u64⟩, ⟨"maxbid", .int .u64⟩]))⟩]

def fieldNames : IdlTypeDefTy → List String
  | .struct (some (.named fields)) => fields.map IdlField.name
  | _ => []

theorem account_columns_of_case :
    ¬ ∀ idl : Idl, (∀ typedef ∈ idl.types, (fieldNames typedef.ty).Nodup) →
      ∀ account ∈ idl.accounts, ∀ schemaName : String,
        ((accountTable idl schemaName account.name).columns.map
          fun column => pgIdentifier column.name).Nodup := by
  intro h
  have hnodup := h auctionIdl (by simp [auctionIdl, fieldNames]) ⟨"Auction", [1]⟩
    (by simp [auctionIdl]) "auction_prog"
  revert hnodup
  decide +kernel

end Solarix.Storage
