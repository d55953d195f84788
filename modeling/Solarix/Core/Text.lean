import Mathlib.Algebra.Group.Int.Defs
import Mathlib.Data.List.TakeWhile

/-!
# Strings as Rust's standard library treats them

UTF-8, `split_once`, `strip_suffix` and the parsing of a signed 64-bit number.
-/

namespace Solarix.Core

/-! ## UTF-8 -/

/-- `std::str::from_utf8`. -/
def decodeUtf8 (bytes : List UInt8) : Option String :=
  String.fromUTF8? ⟨bytes.toArray⟩

def utf8Bytes (s : String) : List UInt8 := s.toByteArray.data.toList

theorem decodeUtf8_eq_some {bytes : List UInt8} {s : String} :
    decodeUtf8 bytes = some s ↔ bytes = utf8Bytes s := by
  unfold decodeUtf8 String.fromUTF8? utf8Bytes
  constructor
  · intro h
    split at h
    · cases h
      rfl
    · simp at h
  · rintro rfl
    rw [dif_pos s.isValidUTF8]
    rfl

/-! ## Splitting -/

/-- `s.split_once(sep)`: the parts before and after the first separator. -/
def splitOnce (sep : Char) (s : String) : Option (String × String) :=
  match s.toList.dropWhile (· ≠ sep) with
  | [] => none
  | _ :: rest => some (String.ofList (s.toList.takeWhile (· ≠ sep)), String.ofList rest)

theorem splitOnce_append {sep : Char} {pre post : String} (h : sep ∉ pre.toList) :
    splitOnce sep (pre ++ String.singleton sep ++ post) = some (pre, post) := by
  have hpre : ∀ c ∈ pre.toList, decide (c ≠ sep) = true := by
    intro c hc
    simpa using fun heq : c = sep => h (heq ▸ hc)
  have hlist : (pre ++ String.singleton sep ++ post).toList =
      pre.toList ++ sep :: post.toList := by
    simp
  unfold splitOnce
  rw [hlist, List.dropWhile_append_of_pos hpre, List.takeWhile_append_of_pos hpre]
  simp

theorem splitOnce_eq_none {sep : Char} {s : String} (h : sep ∉ s.toList) :
    splitOnce sep s = none := by
  have hall : ∀ c ∈ s.toList, decide (c ≠ sep) = true := by
    intro c hc
    simpa using fun heq : c = sep => h (heq ▸ hc)
  unfold splitOnce
  rw [List.dropWhile_eq_nil_iff.mpr hall]

theorem exists_append_of_mem {sep : Char} {s : String} (h : sep ∈ s.toList) :
    ∃ pre post, s = pre ++ String.singleton sep ++ post ∧ sep ∉ pre.toList := by
  obtain ⟨pre, post, hlist, hpre⟩ := List.eq_append_cons_of_mem h
  refine ⟨String.ofList pre, String.ofList post, ?_, by simpa using hpre⟩
  apply String.toList_injective
  simp [hlist]

theorem append_singleton_append_inj {sep : Char} {pre pre' post post' : String}
    (h : sep ∉ post.toList) (h' : sep ∉ post'.toList)
    (heq : pre ++ String.singleton sep ++ post = pre' ++ String.singleton sep ++ post') :
    pre = pre' ∧ post = post' := by
  have hlist := congrArg String.toList heq
  simp only [String.toList_append, String.toList_singleton, List.append_assoc,
    List.singleton_append] at hlist
  rw [← String.toList_inj, ← @String.toList_inj post]
  rcases List.append_eq_append_iff.mp hlist with ⟨between, hpre, hpost⟩ | ⟨between, hpre, hpost⟩
  · cases between with
    | nil => exact ⟨by simpa using hpre.symm, (List.cons.inj hpost).2⟩
    | cons c between => exact absurd (by rw [(List.cons.inj hpost).2]; simp) h
  · cases between with
    | nil => exact ⟨by simpa using hpre, ((List.cons.inj hpost).2).symm⟩
    | cons c between => exact absurd (by rw [(List.cons.inj hpost).2]; simp) h'

def splitList (sep : List Char) : List Char → Option (List Char × List Char)
  | [] => if sep.isEmpty then some ([], []) else none
  | c :: cs =>
      if sep.isPrefixOf (c :: cs) then some ([], (c :: cs).drop sep.length)
      else (splitList sep cs).map fun parts => (c :: parts.1, parts.2)

/-- `s.split_once(sep)` where the separator is a text. -/
def splitOnceText (sep s : String) : Option (String × String) :=
  (splitList sep.toList s.toList).map fun parts =>
    (String.ofList parts.1, String.ofList parts.2)

theorem splitList_append {c : Char} {sep pre : List Char} (h : c ∉ pre) (post : List Char) :
    splitList (c :: sep) (pre ++ c :: sep ++ post) = some (pre, post) := by
  induction pre with
  | nil => simp [splitList]
  | cons d pre ih =>
      rw [List.mem_cons, not_or] at h
      have hnot : (c :: sep).isPrefixOf (d :: (pre ++ c :: sep ++ post)) = false := by
        simp [List.isPrefixOf, h.1]
      rw [List.cons_append, List.cons_append, splitList, hnot, ih h.2]
      rfl

theorem splitOnceText_append {sep pre : String} {c : Char} {cs : List Char}
    (hsep : sep.toList = c :: cs) (h : c ∉ pre.toList) (post : String) :
    splitOnceText sep (pre ++ sep ++ post) = some (pre, post) := by
  unfold splitOnceText
  rw [String.toList_append, String.toList_append, hsep, splitList_append h]
  simp

/-- `s.strip_suffix(suffix)`. -/
def stripSuffix (suffix s : String) : Option String :=
  if suffix.toList.isSuffixOf s.toList then
    some (String.ofList (s.toList.take (s.toList.length - suffix.toList.length)))
  else none

/-- `char::is_whitespace`: the characters with the property `White_Space`. -/
def isWhitespace (c : Char) : Bool :=
  let n := c.toNat
  (9 ≤ n ∧ n ≤ 13) ∨ n = 0x20 ∨ n = 0x85 ∨ n = 0xA0 ∨ n = 0x1680 ∨ (0x2000 ≤ n ∧ n ≤ 0x200A) ∨
    n = 0x2028 ∨ n = 0x2029 ∨ n = 0x202F ∨ n = 0x205F ∨ n = 0x3000

/-- `s.trim()`. -/
def trim (s : String) : String :=
  String.ofList (((s.toList.dropWhile isWhitespace).reverse.dropWhile isWhitespace).reverse)

/-- `s.split(sep)`: one part more than there are separators. -/
def splitAll (sep : Char) (s : String) : List String := (s.toList.splitOn sep).map String.ofList

example : (splitAll ',' " a,,b ").map trim = ["a", "", "b"] := by decide +kernel

theorem splitAll_intercalate {sep : Char} {parts : List String} (hne : parts ≠ [])
    (h : ∀ part ∈ parts, sep ∉ part.toList) :
    splitAll sep ((String.singleton sep).intercalate parts) = parts := by
  have hparts : ∀ part ∈ parts.map String.toList, sep ∉ part := by
    simpa using h
  unfold splitAll
  rw [String.toList_intercalate, String.toList_singleton,
    List.splitOn_intercalate sep hparts (by simpa using hne), List.map_map]
  exact (List.map_congr_left fun part _ => String.ofList_toList).trans (List.map_id parts)

/-! ## Signed 64-bit numbers -/

def InI64 (z : Int) : Prop := -2 ^ 63 ≤ z ∧ z < 2 ^ 63

instance (z : Int) : Decidable (InI64 z) := inferInstanceAs (Decidable (_ ∧ _))

def splitSign : List Char → Bool × List Char
  | '-' :: digits => (true, digits)
  | '+' :: digits => (false, digits)
  | digits => (false, digits)

/-- `s.parse::<i64>()`. -/
def parseI64 (s : String) : Option Int :=
  let (negative, digits) := splitSign s.toList
  if digits ≠ [] ∧ digits.all Char.isDigit then
    let n : Int := Nat.ofDigitChars 10 digits 0
    let z := if negative then -n else n
    if InI64 z then some z else none
  else none

theorem not_mem_toDigits {c : Char} (hc : c.isDigit = false) (n : Nat) :
    c ∉ Nat.toDigits 10 n := by
  intro hmem
  have hdigit := Nat.isDigit_of_mem_toDigits (by decide) (by decide) hmem
  rw [hc] at hdigit
  cases hdigit

theorem splitSign_toDigits (n : Nat) :
    splitSign (Nat.toDigits 10 n) = (false, Nat.toDigits 10 n) := by
  have hminus := not_mem_toDigits (show '-'.isDigit = false by decide) n
  have hplus := not_mem_toDigits (show '+'.isDigit = false by decide) n
  unfold splitSign
  split
  · rename_i digits h
    rw [h] at hminus
    simp at hminus
  · rename_i digits h
    rw [h] at hplus
    simp at hplus
  · rfl

theorem toList_toString_int (z : Int) :
    (toString z).toList =
      if z < 0 then '-' :: Nat.toDigits 10 z.natAbs else Nat.toDigits 10 z.natAbs := by
  cases z with
  | ofNat n => simp [toString, Int.repr]
  | negSucc n => simp [toString, Int.repr]

theorem splitSign_toString (z : Int) :
    splitSign (toString z).toList = (decide (z < 0), Nat.toDigits 10 z.natAbs) := by
  rw [toList_toString_int]
  split
  · rename_i hneg
    simp [splitSign, hneg]
  · rename_i hneg
    rw [splitSign_toDigits, decide_eq_false hneg]

theorem all_isDigit_toDigits (n : Nat) : (Nat.toDigits 10 n).all Char.isDigit = true := by
  rw [List.all_eq_true]
  intro c hc
  exact Nat.isDigit_of_mem_toDigits (by decide) (by decide) hc

theorem signed_natAbs (z : Int) :
    (if decide (z < 0) = true then -(z.natAbs : Int) else z.natAbs) = z := by
  by_cases hneg : z < 0
  · rw [if_pos (decide_eq_true hneg)]
    omega
  · rw [if_neg (by rw [decide_eq_false hneg]; decide)]
    omega

theorem toString_int_inj {z z' : Int} (h : toString z = toString z') : z = z' := by
  have hsplit := congrArg (fun s : String => splitSign s.toList) h
  simp only [splitSign_toString, Prod.mk.injEq] at hsplit
  have hdigits := congrArg (fun digits => Nat.ofDigitChars 10 digits 0) hsplit.2
  simp only [Nat.ofDigitChars_ten_toDigits] at hdigits
  rw [← signed_natAbs z, ← signed_natAbs z', hsplit.1, hdigits]

theorem parseI64_toString {z : Int} (h : InI64 z) : parseI64 (toString z) = some z := by
  unfold parseI64
  rw [splitSign_toString]
  simp only
  rw [if_pos ⟨Nat.toDigits_ne_nil, all_isDigit_toDigits _⟩, Nat.ofDigitChars_ten_toDigits,
    signed_natAbs, if_pos h]

theorem not_mem_toString {c : Char} (hdigit : c.isDigit = false) (hminus : c ≠ '-') (z : Int) :
    c ∉ (toString z).toList := by
  have hdigits := not_mem_toDigits hdigit z.natAbs
  rw [toList_toString_int]
  split
  · rw [List.mem_cons]
    rintro (h | h)
    · exact hminus h
    · exact hdigits h
  · exact hdigits

end Solarix.Core
