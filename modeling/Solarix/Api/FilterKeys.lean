import Solarix.Api.Instructions

/-!
# Keys of query parameters

A key is read with its operator suffix first; the fields of the IDL are looked at later.  A
field whose own name ends in an operator suffix is reached by its name with a suffix added,
not by the bare name.
-/

namespace Solarix.Api

open Solarix.Core

theorem stripSuffix_eq_some {suffix s t : String} :
    stripSuffix suffix s = some t ↔ s = t ++ suffix := by
  unfold stripSuffix
  constructor
  · intro h
    split at h
    · rename_i hsuffix
      obtain ⟨pre, hpre⟩ := List.isSuffixOf_iff_suffix.mp hsuffix
      cases h
      apply String.toList_injective
      rw [String.toList_append, String.toList_ofList, ← hpre, List.length_append,
        Nat.add_sub_cancel, List.take_left]
    · cases h
  · rintro rfl
    have hsuffix : suffix.toList.isSuffixOf (t ++ suffix).toList = true := by
      rw [List.isSuffixOf_iff_suffix, String.toList_append]
      exact List.suffix_append _ _
    rw [if_pos hsuffix, String.toList_append, List.length_append, Nat.add_sub_cancel,
      List.take_left, String.ofList_toList]

def EndsInOperator (name : String) : Prop :=
  ∃ entry ∈ operatorSuffixes, ∃ stem, stem ≠ "" ∧ name = stem ++ entry.1

theorem extractFrom_cases (key : String) (suffixes : List (String × FilterOp)) :
    (∃ entry ∈ suffixes, ∃ stem, stem ≠ "" ∧ key = stem ++ entry.1 ∧
      extractFrom key suffixes = (stem, entry.2)) ∨
    ((∀ entry ∈ suffixes, ∀ stem, key = stem ++ entry.1 → stem = "") ∧
      extractFrom key suffixes = (key, .eq)) := by
  induction suffixes with
  | nil => exact Or.inr ⟨by simp, rfl⟩
  | cons entry suffixes ih =>
      obtain ⟨suffix, op⟩ := entry
      have hskip (hnone : ∀ stem, key = stem ++ suffix → stem = "")
          (hrest : extractFrom key ((suffix, op) :: suffixes) = extractFrom key suffixes) :
          (∃ entry ∈ (suffix, op) :: suffixes, ∃ stem, stem ≠ "" ∧ key = stem ++ entry.1 ∧
            extractFrom key ((suffix, op) :: suffixes) = (stem, entry.2)) ∨
          ((∀ entry ∈ (suffix, op) :: suffixes, ∀ stem, key = stem ++ entry.1 → stem = "") ∧
            extractFrom key ((suffix, op) :: suffixes) = (key, .eq)) := by
        rw [hrest]
        rcases ih with ⟨entry, hmem, stem, hne, hkey, heq⟩ | ⟨hnot, heq⟩
        · exact Or.inl ⟨entry, List.mem_cons_of_mem _ hmem, stem, hne, hkey, heq⟩
        · exact Or.inr ⟨List.forall_mem_cons.mpr ⟨hnone, hnot⟩, heq⟩
      cases hstrip : stripSuffix suffix key with
      | none =>
          refine hskip ?_ (by simp [extractFrom, hstrip])
          intro stem hkey
          rw [stripSuffix_eq_some.mpr hkey] at hstrip
          cases hstrip
      | some field =>
          have hkey := stripSuffix_eq_some.mp hstrip
          by_cases hempty : field = ""
          · refine hskip ?_ (by simp [extractFrom, hstrip, hempty])
            intro stem hstem
            have hsame := stripSuffix_eq_some.mpr hstem
            rw [hstrip, hempty] at hsame
            exact (Option.some.inj hsame).symm
          · refine Or.inl ⟨(suffix, op), List.mem_cons_self, field, hempty, hkey, ?_⟩
            simp [extractFrom, hstrip, hempty]

theorem extractFieldAndOp_eq_self_iff (key : String) :
    extractFieldAndOp key = (key, .eq) ↔ ¬ EndsInOperator key := by
  rcases extractFrom_cases key operatorSuffixes with
    ⟨entry, hmem, stem, hne, hkey, heq⟩ | ⟨hnot, heq⟩
  · refine iff_of_false ?_ (fun h => h ⟨entry, hmem, stem, hne, hkey⟩)
    intro hself
    have hstem : stem = key := congrArg Prod.fst (heq.symm.trans hself)
    have hlength := congrArg String.length hkey
    have hsuffix : ∀ entry ∈ operatorSuffixes, 0 < entry.1.length := by decide
    have hpos := hsuffix entry hmem
    rw [hstem, String.length_append] at hlength
    omega
  · refine iff_of_true heq ?_
    rintro ⟨entry, hmem, stem, hne, hkey⟩
    exact hne (hnot entry hmem stem hkey)

/-- No suffix of the table ends in another one. -/
theorem eq_of_suffix {entry other : String × FilterOp} (hentry : entry ∈ operatorSuffixes)
    (hother : other ∈ operatorSuffixes) (h : entry.1.toList <:+ other.1.toList) :
    entry = other := by
  have hall : ∀ entry ∈ operatorSuffixes, ∀ other ∈ operatorSuffixes,
      entry.1.toList.isSuffixOf other.1.toList = true → entry = other := by
    decide +kernel
  exact hall entry hentry other hother (List.isSuffixOf_iff_suffix.mpr h)

theorem append_suffix_inj {field stem : String} {entry other : String × FilterOp}
    (hentry : entry ∈ operatorSuffixes) (hother : other ∈ operatorSuffixes)
    (h : field ++ entry.1 = stem ++ other.1) : field = stem ∧ entry = other := by
  have hlist : field.toList ++ entry.1.toList = stem.toList ++ other.1.toList := by
    simpa using congrArg String.toList h
  have hfirst : entry.1.toList <:+ field.toList ++ entry.1.toList := List.suffix_append _ _
  have hsecond : other.1.toList <:+ field.toList ++ entry.1.toList := by
    rw [hlist]
    exact List.suffix_append _ _
  have hsame : entry = other := by
    rcases List.suffix_or_suffix_of_suffix hfirst hsecond with hle | hle
    · exact eq_of_suffix hentry hother hle
    · exact (eq_of_suffix hother hentry hle).symm
  subst hsame
  exact ⟨String.toList_injective (List.append_cancel_right hlist), rfl⟩

theorem extractFieldAndOp_append {field : String} (hfield : field ≠ "")
    {entry : String × FilterOp} (hentry : entry ∈ operatorSuffixes) :
    extractFieldAndOp (field ++ entry.1) = (field, entry.2) := by
  rcases extractFrom_cases (field ++ entry.1) operatorSuffixes with
    ⟨other, hother, stem, _, hkey, heq⟩ | ⟨hnot, _⟩
  · obtain ⟨rfl, rfl⟩ := append_suffix_inj hentry hother hkey
    exact heq
  · exact absurd (hnot entry hentry field rfl) hfield

theorem parseFilters_singleton {name value : String} (hreserved : name ∉ reservedParams) :
    parseFilters [(name, value)] =
      if (extractFieldAndOp name).1 = "" then []
      else [⟨(extractFieldAndOp name).1, (extractFieldAndOp name).2, value⟩] := by
  by_cases hempty : (extractFieldAndOp name).1 = ""
  · simp [parseFilters, hempty]
  · simp [parseFilters, hreserved, hempty]

theorem resolveFilters_bare {fields : List IdlField} (types : List IdlTypeDef)
    (context : FilterContext) {name : String} (value : String)
    (hname : name ∈ fields.map IdlField.name) :
    ∃ resolved, resolveFilters [⟨name, .eq, value⟩] fields types context = .ok resolved := by
  obtain ⟨expr, hexpr⟩ : ∃ expr, resolveColumn fields types context name = .ok expr := by
    unfold resolveColumn
    split
    · exact ⟨_, rfl⟩
    · obtain ⟨field, hfield⟩ : ∃ field, findField fields name = some field := by
        obtain ⟨field, hmem, rfl⟩ := List.mem_map.mp hname
        rw [← Option.isSome_iff_exists, findField, List.find?_isSome]
        exact ⟨field, hmem, by simp⟩
      simp only [hfield]
      split
      · exact ⟨_, rfl⟩
      · exact ⟨_, rfl⟩
  refine ⟨[⟨expr, .eq, value⟩], ?_⟩
  have hfilter : resolveFilter fields types context ⟨name, .eq, value⟩ =
      .ok ⟨expr, .eq, value⟩ := by
    unfold resolveFilter
    rw [hexpr]
    cases expr <;> rfl
  simp [resolveFilters, hfilter]

/-- The bare name of a field is read as an equality on it, in both contexts, exactly when it
is not empty and does not end in an operator.  One that does is read as that operator on the
text before it. -/
theorem bare_name_filters_iff {fields : List IdlField} (types : List IdlTypeDef) {name : String}
    (value : String) (hname : name ∈ fields.map IdlField.name)
    (hreserved : name ∉ reservedParams) :
    ((parseFilters [(name, value)] = [⟨name, .eq, value⟩] ∧
      ∀ context, ∃ resolved,
        resolveFilters (parseFilters [(name, value)]) fields types context = .ok resolved) ↔
      name ≠ "" ∧ ¬ EndsInOperator name) ∧
    ∀ stem, stem ≠ "" → ∀ entry ∈ operatorSuffixes, name = stem ++ entry.1 →
      parseFilters [(name, value)] = [⟨stem, entry.2, value⟩] := by
  rw [← extractFieldAndOp_eq_self_iff, parseFilters_singleton hreserved]
  refine ⟨⟨?_, ?_⟩, ?_⟩
  · rintro ⟨hparsed, _⟩
    split at hparsed
    · cases hparsed
    · rename_i hne
      simp only [List.cons.injEq, ParsedFilter.mk.injEq, and_true] at hparsed
      refine ⟨?_, Prod.ext hparsed.1 hparsed.2⟩
      rintro rfl
      exact hne hparsed.1
  · rintro ⟨hne, hself⟩
    rw [hself, if_neg hne]
    refine ⟨rfl, ?_⟩
    intro context
    exact resolveFilters_bare types context value hname
  · rintro stem hstem entry hentry rfl
    rw [extractFieldAndOp_append hstem hentry, if_neg hstem]

theorem bare_name_filters_iff_amount :
    parseFilters [("amount", "5")] = [⟨"amount", .eq, "5"⟩] ∧
      ∀ context, ∃ resolved, resolveFilters (parseFilters [("amount", "5")])
        [⟨"amount", .int .u64⟩] [] context = .ok resolved := by
  refine (@bare_name_filters_iff [⟨"amount", .int .u64⟩] [] "amount" "5" (by simp)
    (by decide)).1.mpr ⟨by decide, ?_⟩
  rw [← extractFieldAndOp_eq_self_iff]
  decide +kernel

/-- The bare name `amount_in` is a list filter on `amount`, here another field. -/
theorem bare_name_read_as_operator :
    parseFilters [("amount_in", "5")] = [⟨"amount", .inList, "5"⟩] ∧
      ¬ ∀ (fields : List IdlField) (types : List IdlTypeDef) (name value : String),
        name ∈ fields.map IdlField.name → name ∉ reservedParams →
        parseFilters [(name, value)] = [⟨name, .eq, value⟩] ∧
          ∀ context, ∃ resolved,
            resolveFilters (parseFilters [(name, value)]) fields types context =
              .ok resolved := by
  have hread : parseFilters [("amount_in", "5")] = [⟨"amount", .inList, "5"⟩] := by
    decide +kernel
  refine ⟨hread, ?_⟩
  intro h
  have hbare := (h [⟨"amount", .int .u64⟩, ⟨"amount_in", .int .u64⟩] [] "amount_in" "5"
    (by simp) (by decide)).1
  rw [hread] at hbare
  revert hbare
  decide

/-! ## Suffixed keys and cursors are read back -/

def FilterOp.suffix (op : FilterOp) : String :=
  ((operatorSuffixes.find? fun entry => entry.2 == op).map Prod.fst).getD ""

theorem suffix_mem (op : FilterOp) : (op.suffix, op) ∈ operatorSuffixes := by
  cases op <;> decide +kernel

theorem append_suffix_not_reserved (field : String) {entry : String × FilterOp}
    (hentry : entry ∈ operatorSuffixes) : field ++ entry.1 ∉ reservedParams := by
  have hall : ∀ param ∈ reservedParams, ∀ entry ∈ operatorSuffixes,
      entry.1.toList.isSuffixOf param.toList = false := by
    decide +kernel
  intro hmem
  have hnot := hall _ hmem entry hentry
  rw [String.toList_append, List.isSuffixOf_iff_suffix.mpr (List.suffix_append _ _)] at hnot
  cases hnot

/-- A key made of a field and an operator, and a cursor made of a slot and a signature, are
taken apart where they were put together. -/
theorem suffixed_keys_and_cursors_parse_back (base64 : Base64) :
    (∀ (field : String) (op : FilterOp) (value : String), field ≠ "" →
      parseFilters [(field ++ op.suffix, value)] = [⟨field, op, value⟩]) ∧
    (∀ (slot : Int) (sig : String), InI64 slot →
      decodeCursor base64 (encodeCursor base64 slot sig) = .ok (slot, sig)) := by
  constructor
  · intro field op value hfield
    have hmem := suffix_mem op
    rw [parseFilters_singleton (append_suffix_not_reserved field hmem),
      extractFieldAndOp_append hfield hmem, if_neg hfield]
  · intro slot sig hslot
    exact decodeCursor_encodeCursor base64 hslot sig

/-- The field may be an operator suffix itself. -/
theorem suffixed_keys_and_cursors_parse_back_underscores :
    parseFilters [("_gt" ++ FilterOp.suffix .gte, "5")] = [⟨"_gt", .gte, "5"⟩] ∧
      decodeCursor .standard (encodeCursor .standard (-7) "a_b_") = .ok (-7, "a_b_") :=
  ⟨(suffixed_keys_and_cursors_parse_back .standard).1 "_gt" .gte "5" (by decide),
    (suffixed_keys_and_cursors_parse_back .standard).2 (-7) "a_b_" (by decide)⟩

end Solarix.Api
