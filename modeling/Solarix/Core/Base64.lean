import Mathlib.Data.List.Basic
import Mathlib.Data.Nat.Basic

/-!
# Base64

A strict engine, whatever its alphabet, and the one with the standard alphabet and padding.
Strict means that a text which decodes is the one that encoding gives: the padding must be
the canonical one and the bits it stands for must be zero.
-/

namespace Solarix.Core

structure Base64 where
  encode : List UInt8 → String
  /-- The bytes, or the text of the error. -/
  decode : String → Except String (List UInt8)
  decode_encode : ∀ bytes, decode (encode bytes) = .ok bytes
  encode_of_decode : ∀ {s bytes}, decode s = .ok bytes → encode bytes = s

namespace Base64

def digit (n : Nat) : Char :=
  if n < 26 then Char.ofNat (65 + n)
  else if n < 52 then Char.ofNat (71 + n)
  else if n < 62 then Char.ofNat (n - 4)
  else if n = 62 then '+'
  else '/'

def value (c : Char) : Option Nat :=
  if 65 ≤ c.toNat ∧ c.toNat ≤ 90 then some (c.toNat - 65)
  else if 97 ≤ c.toNat ∧ c.toNat ≤ 122 then some (c.toNat - 71)
  else if 48 ≤ c.toNat ∧ c.toNat ≤ 57 then some (c.toNat + 4)
  else if c = '+' then some 62
  else if c = '/' then some 63
  else none

/-- Three bytes give four characters; the last one or two bytes are padded. -/
def encodeChars : List UInt8 → List Char
  | a :: b :: c :: rest =>
      digit (a.toNat / 4) :: digit (a.toNat % 4 * 16 + b.toNat / 16) ::
        digit (b.toNat % 16 * 4 + c.toNat / 64) :: digit (c.toNat % 64) :: encodeChars rest
  | [a, b] =>
      [digit (a.toNat / 4), digit (a.toNat % 4 * 16 + b.toNat / 16),
        digit (b.toNat % 16 * 4), '=']
  | [a] => [digit (a.toNat / 4), digit (a.toNat % 4 * 16), '=', '=']
  | [] => []

def decodePadded (c₀ c₁ c₂ : Char) : Option (List UInt8) :=
  if c₂ = '=' then
    (value c₀).bind fun v₀ => (value c₁).bind fun v₁ =>
      if v₁ % 16 = 0 then some [UInt8.ofNat (v₀ * 4 + v₁ / 16)] else none
  else
    (value c₀).bind fun v₀ => (value c₁).bind fun v₁ => (value c₂).bind fun v₂ =>
      if v₂ % 4 = 0 then
        some [UInt8.ofNat (v₀ * 4 + v₁ / 16), UInt8.ofNat (v₁ % 16 * 16 + v₂ / 4)]
      else none

def decodeChars : List Char → Option (List UInt8)
  | [] => some []
  | c₀ :: c₁ :: c₂ :: c₃ :: rest =>
      if c₃ = '=' then
        if rest.isEmpty then decodePadded c₀ c₁ c₂ else none
      else
        (value c₀).bind fun v₀ => (value c₁).bind fun v₁ => (value c₂).bind fun v₂ =>
          (value c₃).bind fun v₃ => (decodeChars rest).map fun bytes =>
            UInt8.ofNat (v₀ * 4 + v₁ / 16) :: UInt8.ofNat (v₁ % 16 * 16 + v₂ / 4) ::
              UInt8.ofNat (v₂ % 4 * 64 + v₃) :: bytes
  | _ => none

theorem value_digit {n : Nat} (h : n < 64) : value (digit n) = some n := by
  have hall : ∀ n < 64, value (digit n) = some n := by decide
  exact hall n h

theorem digit_ne_pad {n : Nat} (h : n < 64) : digit n ≠ '=' := by
  have hall : ∀ n < 64, digit n ≠ '=' := by decide
  exact hall n h

theorem ofNat_eq {a : UInt8} {n : Nat} (h : n = a.toNat) : UInt8.ofNat n = a := by
  rw [h]
  exact UInt8.ofNat_toNat

theorem decodeChars_encodeChars (bytes : List UInt8) :
    decodeChars (encodeChars bytes) = some bytes := by
  fun_induction encodeChars bytes with
  | case1 a b c rest ih =>
      have ha := a.toNat_lt
      have hb := b.toNat_lt
      have hc := c.toNat_lt
      rw [decodeChars, if_neg (digit_ne_pad (by omega)), value_digit (by omega),
        value_digit (by omega), value_digit (by omega), value_digit (by omega), ih]
      simp only [Option.bind_some, Option.map_some]
      rw [ofNat_eq (show _ = a.toNat by omega), ofNat_eq (show _ = b.toNat by omega),
        ofNat_eq (show _ = c.toNat by omega)]
  | case2 a b =>
      have ha := a.toNat_lt
      have hb := b.toNat_lt
      simp only [decodeChars, if_true, List.isEmpty_nil, decodePadded]
      rw [if_neg (digit_ne_pad (by omega)), value_digit (by omega), value_digit (by omega),
        value_digit (by omega)]
      simp only [Option.bind_some]
      rw [if_pos (by omega), ofNat_eq (show _ = a.toNat by omega),
        ofNat_eq (show _ = b.toNat by omega)]
  | case3 a =>
      have ha := a.toNat_lt
      simp only [decodeChars, if_true, List.isEmpty_nil, decodePadded]
      rw [value_digit (by omega), value_digit (by omega)]
      simp only [Option.bind_some]
      rw [if_pos (by omega), ofNat_eq (show _ = a.toNat by omega)]
  | case4 => rfl

/-! ## What is accepted -/

theorem digit_value {c : Char} {n : Nat} (h : value c = some n) : n < 64 ∧ digit n = c := by
  unfold value at h
  unfold digit
  split at h
  · cases h
    rw [if_pos (by omega), show 65 + (c.toNat - 65) = c.toNat by omega]
    exact ⟨by omega, Char.ofNat_toNat c⟩
  · split at h
    · cases h
      rw [if_neg (by omega), if_pos (by omega), show 71 + (c.toNat - 71) = c.toNat by omega]
      exact ⟨by omega, Char.ofNat_toNat c⟩
    · split at h
      · cases h
        rw [if_neg (by omega), if_neg (by omega), if_pos (by omega),
          show c.toNat + 4 - 4 = c.toNat by omega]
        exact ⟨by omega, Char.ofNat_toNat c⟩
      · split at h
        · rename_i hplus
          cases h
          rw [hplus]
          decide
        · split at h
          · rename_i hslash
            cases h
            rw [hslash]
            decide
          · cases h

theorem toNat_ofNat {n : Nat} (h : n < 256) : (UInt8.ofNat n).toNat = n :=
  UInt8.toNat_ofNat_of_lt' h

theorem encodeChars_decodePadded {c₀ c₁ c₂ : Char} {bytes : List UInt8}
    (h : decodePadded c₀ c₁ c₂ = some bytes) : encodeChars bytes = [c₀, c₁, c₂, '='] := by
  unfold decodePadded at h
  split at h
  · rename_i hpad
    obtain ⟨v₀, h₀, h⟩ := Option.bind_eq_some_iff.mp h
    obtain ⟨v₁, h₁, h⟩ := Option.bind_eq_some_iff.mp h
    split at h
    · rename_i hbits
      cases h
      obtain ⟨hlt₀, rfl⟩ := digit_value h₀
      obtain ⟨hlt₁, rfl⟩ := digit_value h₁
      rw [hpad, encodeChars, toNat_ofNat (by omega), show (v₀ * 4 + v₁ / 16) / 4 = v₀ by omega,
        show (v₀ * 4 + v₁ / 16) % 4 * 16 = v₁ by omega]
    · cases h
  · obtain ⟨v₀, h₀, h⟩ := Option.bind_eq_some_iff.mp h
    obtain ⟨v₁, h₁, h⟩ := Option.bind_eq_some_iff.mp h
    obtain ⟨v₂, h₂, h⟩ := Option.bind_eq_some_iff.mp h
    split at h
    · rename_i hbits
      cases h
      obtain ⟨hlt₀, rfl⟩ := digit_value h₀
      obtain ⟨hlt₁, rfl⟩ := digit_value h₁
      obtain ⟨hlt₂, rfl⟩ := digit_value h₂
      rw [encodeChars, toNat_ofNat (by omega), toNat_ofNat (by omega),
        show (v₀ * 4 + v₁ / 16) / 4 = v₀ by omega,
        show (v₀ * 4 + v₁ / 16) % 4 * 16 + (v₁ % 16 * 16 + v₂ / 4) / 16 = v₁ by omega,
        show (v₁ % 16 * 16 + v₂ / 4) % 16 * 4 = v₂ by omega]
    · cases h

theorem encodeChars_decodeChars {cs : List Char} {bytes : List UInt8}
    (h : decodeChars cs = some bytes) : encodeChars bytes = cs := by
  fun_induction decodeChars cs generalizing bytes with
  | case1 =>
      cases h
      rfl
  | case2 c₀ c₁ c₂ rest hempty =>
      rw [List.isEmpty_iff.mp hempty]
      exact encodeChars_decodePadded h
  | case3 => cases h
  | case4 c₀ c₁ c₂ c₃ rest hpad ih =>
      obtain ⟨v₀, h₀, h⟩ := Option.bind_eq_some_iff.mp h
      obtain ⟨v₁, h₁, h⟩ := Option.bind_eq_some_iff.mp h
      obtain ⟨v₂, h₂, h⟩ := Option.bind_eq_some_iff.mp h
      obtain ⟨v₃, h₃, h⟩ := Option.bind_eq_some_iff.mp h
      obtain ⟨more, hmore, rfl⟩ := Option.map_eq_some_iff.mp h
      obtain ⟨hlt₀, rfl⟩ := digit_value h₀
      obtain ⟨hlt₁, rfl⟩ := digit_value h₁
      obtain ⟨hlt₂, rfl⟩ := digit_value h₂
      obtain ⟨hlt₃, rfl⟩ := digit_value h₃
      rw [encodeChars, toNat_ofNat (by omega), toNat_ofNat (by omega), toNat_ofNat (by omega),
        ih hmore, show (v₀ * 4 + v₁ / 16) / 4 = v₀ by omega,
        show (v₀ * 4 + v₁ / 16) % 4 * 16 + (v₁ % 16 * 16 + v₂ / 4) / 16 = v₁ by omega,
        show (v₁ % 16 * 16 + v₂ / 4) % 16 * 4 + (v₂ % 4 * 64 + v₃) / 64 = v₂ by omega,
        show (v₂ % 4 * 64 + v₃) % 64 = v₃ by omega]
  | case5 => cases h

/-- `STANDARD`, without the texts of its errors. -/
def standard : Base64 where
  encode bytes := String.ofList (encodeChars bytes)
  decode s :=
    match decodeChars s.toList with
    | none => .error ""
    | some bytes => .ok bytes
  decode_encode bytes := by
    rw [String.toList_ofList, decodeChars_encodeChars]
  encode_of_decode h := by
    split at h
    · cases h
    · rename_i hdecoded
      cases h
      rw [encodeChars_decodeChars hdecoded, String.ofList_toList]

end Base64

end Solarix.Core
