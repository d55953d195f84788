import Mathlib.Data.Nat.Basic
import Mathlib.Tactic.Ring

/-!
# Fixed-width little-endian integers

`leBytes width n` is the byte string that `to_le_bytes` produces for an unsigned
integer of `width` bytes, and `leNat` reads it back.  The two are inverse to each
other on values that fit and on strings of the right length.
-/

namespace Solarix.Core

/-- The `width` low bytes of `n`, least significant first. -/
def leBytes : Nat → Nat → List UInt8
  | 0, _ => []
  | width + 1, n => UInt8.ofNat (n % 256) :: leBytes width (n / 256)

def leNat : List UInt8 → Nat
  | [] => 0
  | b :: bs => b.toNat + 256 * leNat bs

@[simp] theorem length_leBytes (width n : Nat) : (leBytes width n).length = width := by
  induction width generalizing n with
  | zero => rfl
  | succ width ih => simp [leBytes, ih]

theorem leNat_lt (bs : List UInt8) : leNat bs < 256 ^ bs.length := by
  induction bs with
  | nil => simp [leNat]
  | cons b bs ih =>
      have hb : b.toNat < 256 := b.toNat_lt
      simp only [leNat, List.length_cons, Nat.pow_succ]
      omega

theorem leNat_leBytes {width n : Nat} (h : n < 256 ^ width) :
    leNat (leBytes width n) = n := by
  induction width generalizing n with
  | zero =>
      simp only [Nat.pow_zero] at h
      simp only [leBytes, leNat]
      omega
  | succ width ih =>
      have hdiv : n / 256 < 256 ^ width := by
        rw [Nat.div_lt_iff_lt_mul (by omega), ← Nat.pow_succ]
        exact h
      have hmod : (UInt8.ofNat (n % 256)).toNat = n % 256 := by simp
      simp only [leBytes, leNat, ih hdiv, hmod]
      omega

theorem leBytes_leNat (bs : List UInt8) : leBytes bs.length (leNat bs) = bs := by
  induction bs with
  | nil => rfl
  | cons b bs ih =>
      have hb : b.toNat < 256 := b.toNat_lt
      have hmod : (b.toNat + 256 * leNat bs) % 256 = b.toNat := by omega
      have hdiv : (b.toNat + 256 * leNat bs) / 256 = leNat bs := by omega
      simp only [List.length_cons, leBytes, leNat, hmod, hdiv, ih]
      simp

theorem leNat_inj {bs bs' : List UInt8} (hlength : bs.length = bs'.length)
    (h : leNat bs = leNat bs') : bs = bs' := by
  rw [← leBytes_leNat bs, ← leBytes_leNat bs', hlength, h]

def beNat (bs : List UInt8) : Nat := leNat bs.reverse

theorem leNat_append (bs bs' : List UInt8) :
    leNat (bs ++ bs') = leNat bs + 256 ^ bs.length * leNat bs' := by
  induction bs with
  | nil => simp [leNat]
  | cons b bs ih =>
      rw [List.cons_append, leNat, ih, leNat, List.length_cons]
      ring

theorem beNat_cons (b : UInt8) (bs : List UInt8) :
    beNat (b :: bs) = 256 ^ bs.length * b.toNat + beNat bs := by
  rw [beNat, List.reverse_cons, leNat_append, List.length_reverse, leNat, leNat, beNat]
  ring

theorem beNat_eq_leNat_iff {bs : List UInt8} : beNat bs = leNat bs ↔ bs.reverse = bs := by
  constructor
  · exact leNat_inj List.length_reverse
  · intro h
    rw [beNat, h]

/-! ## Two's complement -/

/-- The signed integer whose `bits`-bit two's complement pattern is `n`. -/
def toSigned (bits n : Nat) : Int :=
  if n < 2 ^ (bits - 1) then n else (n : Int) - 2 ^ bits

/-- The `bits`-bit two's complement pattern of `z`. -/
def ofSigned (bits : Nat) (z : Int) : Nat := (z % 2 ^ bits).toNat

theorem ofSigned_toSigned {bits n : Nat} (h : n < 2 ^ bits) :
    ofSigned bits (toSigned bits n) = n := by
  have hn : ((n : Int)) < 2 ^ bits := by exact_mod_cast h
  unfold ofSigned toSigned
  split
  · rw [Int.emod_eq_of_lt (by omega) hn]
    simp
  · rw [Int.sub_emod_right, Int.emod_eq_of_lt (by omega) hn]
    simp

theorem toSigned_ofSigned {bits : Nat} {z : Int} (hbits : 0 < bits)
    (hlo : -2 ^ (bits - 1) ≤ z) (hhi : z < 2 ^ (bits - 1)) :
    toSigned bits (ofSigned bits z) = z := by
  have hpow : (2 : Int) ^ bits = 2 * 2 ^ (bits - 1) := by
    conv_lhs => rw [show bits = bits - 1 + 1 by omega, pow_succ]
    ring
  have hcast : ((2 ^ (bits - 1) : Nat) : Int) = 2 ^ (bits - 1) := by push_cast; rfl
  unfold toSigned ofSigned
  rcases lt_or_ge z 0 with hneg | hpos
  · have hmod : z % 2 ^ bits = z + 2 ^ bits := by
      rw [← Int.add_emod_right, Int.emod_eq_of_lt (by omega) (by omega)]
    rw [hmod, if_neg (by omega)]
    omega
  · rw [Int.emod_eq_of_lt hpos (by omega), if_pos (by omega)]
    omega

theorem toSigned_bounds {bits n : Nat} (hbits : 0 < bits) (h : n < 2 ^ bits) :
    -2 ^ (bits - 1) ≤ toSigned bits n ∧ toSigned bits n < 2 ^ (bits - 1) := by
  have hpow : (2 : Nat) ^ bits = 2 * 2 ^ (bits - 1) := by
    conv_lhs => rw [show bits = bits - 1 + 1 by omega, pow_succ]
    ring
  have hcast : ((2 ^ (bits - 1) : Nat) : Int) = 2 ^ (bits - 1) := by push_cast; rfl
  have hcast' : ((2 ^ bits : Nat) : Int) = 2 ^ bits := by push_cast; rfl
  unfold toSigned
  split
  · omega
  · omega

end Solarix.Core
