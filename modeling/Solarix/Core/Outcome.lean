import Mathlib.Algebra.Group.Nat.Defs
import Mathlib.Data.List.Basic
import Mathlib.Data.List.Infix

/-!
# Outcomes of Rust functions on 64-bit targets

A Rust function that returns `Result<T, E>` can end in three ways: with a value,
with an error, or with a panic.  `Outcome` keeps the third way apart from the
second, so that a statement about panics is a statement about the model.

The `usize` additions, slice accesses and `Vec` allocations below panic exactly
where the language does.  Nothing in this module names a particular program.
-/

namespace Solarix.Core

/-- Largest `usize` on a 64-bit target. -/
def usizeMax : Nat := 2 ^ 64 - 1

/-- Largest `isize`; no allocation and no slice is longer than this many bytes. -/
def isizeMax : Nat := 2 ^ 63 - 1

theorem except_bind_eq_ok {ε α β : Type} {x : Except ε α} {f : α → Except ε β} {b : β} :
    (x >>= f) = .ok b ↔ ∃ a, x = .ok a ∧ f a = .ok b := by
  cases x with
  | error e =>
      constructor
      · intro h
        cases h
      · rintro ⟨_, h, _⟩
        cases h
  | ok a =>
      constructor
      · intro h
        exact ⟨a, rfl, h⟩
      · rintro ⟨_, h, hf⟩
        cases h
        exact hf

theorem mapError_eq_ok {ε ε' α : Type} {x : Except ε α} {f : ε → ε'} {a : α} :
    x.mapError f = .ok a ↔ x = .ok a := by
  cases x <;> simp [Except.mapError]

inductive Panic where
  | capacityOverflow
  | arithmeticOverflow
  | indexOutOfBounds
  deriving DecidableEq, Repr

inductive Fault (ε : Type) where
  | error (e : ε)
  | panic (p : Panic)
  deriving DecidableEq, Repr

abbrev Outcome (ε α : Type) := Except (Fault ε) α

namespace Outcome

variable {ε α β : Type}

def fail (e : ε) : Outcome ε α := .error (.error e)

def panic (p : Panic) : Outcome ε α := .error (.panic p)

def Panics (x : Outcome ε α) : Prop := ∃ p, x = panic p

@[simp] theorem ok_bind (a : α) (f : α → Outcome ε β) :
    ((.ok a : Outcome ε α) >>= f) = f a := rfl

theorem error_bind (e : Fault ε) (f : α → Outcome ε β) :
    ((Except.error e : Outcome ε α) >>= f) = Except.error e := rfl

@[simp] theorem fail_bind (e : ε) (f : α → Outcome ε β) :
    ((fail e : Outcome ε α) >>= f) = fail e := rfl

@[simp] theorem panic_bind (p : Panic) (f : α → Outcome ε β) :
    ((panic p : Outcome ε α) >>= f) = panic p := rfl

@[simp] theorem fail_ne_ok (e : ε) (a : α) : (fail e : Outcome ε α) ≠ .ok a := by
  simp [fail]

@[simp] theorem panic_ne_ok (p : Panic) (a : α) : (panic p : Outcome ε α) ≠ .ok a := by
  simp [panic]

@[simp] theorem fail_ne_panic (e : ε) (p : Panic) :
    (fail e : Outcome ε α) ≠ panic p := by
  simp [fail, panic]

@[simp] theorem ok_ne_panic (a : α) (p : Panic) :
    (.ok a : Outcome ε α) ≠ panic p := by
  simp [panic]

theorem bind_eq_ok {x : Outcome ε α} {f : α → Outcome ε β} {b : β} :
    (x >>= f) = .ok b ↔ ∃ a, x = .ok a ∧ f a = .ok b := except_bind_eq_ok

theorem bind_congr {x : Outcome ε α} {f g : α → Outcome ε β} (h : ∀ a, x = .ok a → f a = g a) :
    (x >>= f) = x >>= g := by
  cases x with
  | ok a => exact h a rfl
  | error e => rfl

@[simp] theorem panics_panic (p : Panic) : Panics (panic p : Outcome ε α) := ⟨p, rfl⟩

@[simp] theorem not_panics_ok (a : α) : ¬ Panics (.ok a : Outcome ε α) := by
  simp [Panics]

@[simp] theorem not_panics_fail (e : ε) : ¬ Panics (fail e : Outcome ε α) := by
  simp [Panics]

def Returns (x : Outcome ε α) : Prop := (∃ a, x = .ok a) ∨ ∃ e, x = fail e

theorem returns_iff_not_panics {x : Outcome ε α} : Returns x ↔ ¬ Panics x := by
  match x with
  | .ok a => simp [Returns]
  | .error (.error e) => exact iff_of_true (Or.inr ⟨e, rfl⟩) (not_panics_fail e)
  | .error (.panic p) =>
      refine iff_of_false ?_ (fun h => h (panics_panic p))
      rintro (⟨a, h⟩ | ⟨e, h⟩) <;> cases h

theorem panics_bind {x : Outcome ε α} {f : α → Outcome ε β} :
    Panics (x >>= f) ↔ Panics x ∨ ∃ a, x = .ok a ∧ Panics (f a) := by
  cases x with
  | error e =>
      constructor
      · rintro ⟨p, h⟩
        exact Or.inl ⟨p, by cases h; rfl⟩
      · rintro (⟨p, h⟩ | ⟨_, h, _⟩)
        · exact ⟨p, by cases h; rfl⟩
        · cases h
  | ok a =>
      constructor
      · intro h
        exact Or.inr ⟨a, rfl, h⟩
      · rintro (h | ⟨_, h, hf⟩)
        · exact absurd h (not_panics_ok a)
        · cases h
          exact hf

/-- When the first half cannot panic, only a value it returns matters. -/
theorem panics_bind_of_not {x : Outcome ε α} {f : α → Outcome ε β} (hx : ¬ Panics x) :
    Panics (x >>= f) ↔ ∃ a, x = .ok a ∧ Panics (f a) := by
  rw [panics_bind, or_iff_right hx]

end Outcome

/-! ## `usize` arithmetic and allocation -/

section Arithmetic

variable {ε : Type}

/-- `a + b` on `usize`, in a build with overflow checks. -/
def addUsize (a b : Nat) : Outcome ε Nat :=
  if a + b ≤ usizeMax then .ok (a + b) else Outcome.panic .arithmeticOverflow

/-- `a - b` on `usize`, in a build with overflow checks. -/
def subUsize (a b : Nat) : Outcome ε Nat :=
  if b ≤ a then .ok (a - b) else Outcome.panic .arithmeticOverflow

/-- `a.checked_add(b)`. -/
def checkedAdd (a b : Nat) : Option Nat :=
  if a + b ≤ usizeMax then some (a + b) else none

/-- `a.checked_mul(b)`. -/
def checkedMul (a b : Nat) : Option Nat :=
  if a * b ≤ usizeMax then some (a * b) else none

/-- `Vec::<T>::with_capacity(count)` for a `T` of `elemSize` bytes. -/
def withCapacity (elemSize count : Nat) : Outcome ε Unit :=
  if count * elemSize ≤ isizeMax then .ok () else Outcome.panic .capacityOverflow

theorem addUsize_of_le {a b : Nat} (h : a + b ≤ usizeMax) :
    (addUsize a b : Outcome ε Nat) = .ok (a + b) := if_pos h

theorem subUsize_of_le {a b : Nat} (h : b ≤ a) :
    (subUsize a b : Outcome ε Nat) = .ok (a - b) := if_pos h

theorem addUsize_eq_ok {a b c : Nat} :
    (addUsize a b : Outcome ε Nat) = .ok c ↔ a + b ≤ usizeMax ∧ c = a + b := by
  unfold addUsize
  split
  · rename_i h
    simp [h, eq_comm]
  · rename_i h
    simp [h]

theorem checkedAdd_eq_some {a b c : Nat} :
    checkedAdd a b = some c ↔ a + b ≤ usizeMax ∧ c = a + b := by
  unfold checkedAdd
  split
  · rename_i h
    simp [h, eq_comm]
  · rename_i h
    simp [h]

theorem checkedMul_eq_some {a b c : Nat} :
    checkedMul a b = some c ↔ a * b ≤ usizeMax ∧ c = a * b := by
  unfold checkedMul
  split
  · rename_i h
    simp [h, eq_comm]
  · rename_i h
    simp [h]

end Arithmetic

/-! ## Byte slices -/

/-- A `&[u8]`.  The language bounds its length. -/
structure DataSlice where
  bytes : List UInt8
  length_le : bytes.length ≤ isizeMax

namespace DataSlice

variable {ε : Type}

def len (data : DataSlice) : Nat := data.bytes.length

/-- `data[i]`. -/
def index (data : DataSlice) (i : Nat) : Outcome ε UInt8 :=
  match data.bytes[i]? with
  | some b => .ok b
  | none => Outcome.panic .indexOutOfBounds

/-- `&data[from..to]`. -/
def slice (data : DataSlice) (start stop : Nat) : Outcome ε (List UInt8) :=
  if start ≤ stop ∧ stop ≤ data.len then
    .ok ((data.bytes.drop start).take (stop - start))
  else Outcome.panic .indexOutOfBounds

def At (data : DataSlice) (offset : Nat) (bs : List UInt8) : Prop :=
  offset ≤ data.len ∧ bs <+: data.bytes.drop offset

theorem at_nil {data : DataSlice} {offset : Nat} (h : offset ≤ data.len) :
    data.At offset [] := ⟨h, List.nil_prefix⟩

theorem At.add_length_le {data : DataSlice} {offset : Nat} {bs : List UInt8}
    (h : data.At offset bs) : offset + bs.length ≤ data.len := by
  have hle := h.2.length_le
  have hoff := h.1
  rw [List.length_drop] at hle
  unfold len at *
  omega

theorem At.take_drop {data : DataSlice} {offset : Nat} {bs : List UInt8}
    (h : data.At offset bs) : (data.bytes.drop offset).take bs.length = bs :=
  (List.prefix_iff_eq_take.mp h.2).symm

theorem at_take_drop {data : DataSlice} {offset n : Nat}
    (h : offset + n ≤ data.len) :
    data.At offset ((data.bytes.drop offset).take n) :=
  ⟨by omega, List.take_prefix _ _⟩

theorem length_take_drop {data : DataSlice} {offset n : Nat}
    (h : offset + n ≤ data.len) :
    ((data.bytes.drop offset).take n).length = n := by
  unfold len at h
  rw [List.length_take, List.length_drop]
  omega

theorem at_append {data : DataSlice} {offset : Nat} {as bs : List UInt8} :
    data.At offset (as ++ bs) ↔
      data.At offset as ∧ data.At (offset + as.length) bs := by
  constructor
  · intro h
    have hlen := h.add_length_le
    rw [List.length_append] at hlen
    obtain ⟨hoff, t, ht⟩ := h
    refine ⟨⟨hoff, bs ++ t, by rw [← ht, List.append_assoc]⟩, by omega, t, ?_⟩
    rw [← List.drop_drop, ← ht, List.append_assoc, List.drop_left]
  · rintro ⟨⟨hoff, t, ht⟩, _, u, hu⟩
    refine ⟨hoff, u, ?_⟩
    rw [← List.drop_drop, ← ht, List.drop_left] at hu
    rw [List.append_assoc, hu, ht]

theorem At.drop_eq {data : DataSlice} {offset : Nat} {bs : List UInt8}
    (h : data.At offset bs) :
    data.bytes.drop offset = bs ++ data.bytes.drop (offset + bs.length) := by
  obtain ⟨_, t, ht⟩ := h
  rw [← List.drop_drop, ← ht, List.drop_left]

theorem at_of_drop_eq {data : DataSlice} {offset : Nat} {bs rest : List UInt8}
    (hle : offset ≤ data.len) (h : data.bytes.drop offset = bs ++ rest) :
    data.At offset bs ∧ rest = data.bytes.drop (offset + bs.length) := by
  refine ⟨⟨hle, rest, h.symm⟩, ?_⟩
  rw [← List.drop_drop, h, List.drop_left]

theorem drop_inj {data : DataSlice} {i j : Nat} (hi : i ≤ data.len) (hj : j ≤ data.len)
    (h : data.bytes.drop i = data.bytes.drop j) : i = j := by
  have hlen := congrArg List.length h
  rw [List.length_drop, List.length_drop] at hlen
  unfold len at hi hj
  omega

theorem at_cons {data : DataSlice} {offset : Nat} {b : UInt8} {bs : List UInt8} :
    data.At offset (b :: bs) ↔ data.At offset [b] ∧ data.At (offset + 1) bs := by
  rw [← List.singleton_append, at_append]
  rfl

theorem at_of_eq_append {data : DataSlice} {pre bs post : List UInt8}
    (h : data.bytes = pre ++ bs ++ post) : data.At pre.length bs := by
  refine ⟨?_, post, ?_⟩
  · unfold len
    rw [h]
    simp
  · rw [h, List.append_assoc, List.drop_left]

theorem At.index {data : DataSlice} {offset : Nat} {b : UInt8}
    (h : data.At offset [b]) : (data.index offset : Outcome ε UInt8) = .ok b := by
  obtain ⟨_, t, ht⟩ := h
  have hget : data.bytes[offset]? = some b := by
    rw [← List.head?_drop, ← ht]
    rfl
  simp [DataSlice.index, hget]

theorem At.slice {data : DataSlice} {offset : Nat} {bs : List UInt8}
    (h : data.At offset bs) :
    (data.slice offset (offset + bs.length) : Outcome ε (List UInt8)) = .ok bs := by
  have hlen := h.add_length_le
  unfold DataSlice.slice
  rw [if_pos ⟨by omega, hlen⟩, Nat.add_sub_cancel_left, h.take_drop]

theorem index_eq_ok {data : DataSlice} {offset : Nat} {b : UInt8}
    (h : (data.index offset : Outcome ε UInt8) = .ok b) : data.At offset [b] := by
  unfold DataSlice.index at h
  split at h
  · rename_i c hc
    cases h
    obtain ⟨hlt, hget⟩ := List.getElem?_eq_some_iff.mp hc
    refine ⟨Nat.le_of_lt hlt, data.bytes.drop (offset + 1), ?_⟩
    rw [List.singleton_append, ← hget, List.getElem_cons_drop]
  · simp at h

theorem slice_eq_ok {data : DataSlice} {offset n : Nat} {bs : List UInt8}
    (h : (data.slice offset (offset + n) : Outcome ε (List UInt8)) = .ok bs) :
    data.At offset bs ∧ bs.length = n := by
  unfold DataSlice.slice at h
  split at h
  · rename_i hle
    rw [Nat.add_sub_cancel_left] at h
    cases h
    exact ⟨at_take_drop hle.2, length_take_drop hle.2⟩
  · simp at h

theorem len_lt_usizeMax (data : DataSlice) : data.len + data.len ≤ usizeMax := by
  have h := data.length_le
  unfold len
  unfold isizeMax at h
  unfold usizeMax
  omega

end DataSlice

end Solarix.Core
