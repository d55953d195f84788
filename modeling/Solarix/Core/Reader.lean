import Mathlib.Algebra.GroupWithZero.Nat
import Mathlib.Data.List.Forall2
import Solarix.Core.Outcome

/-!
# Readers at an offset

A reader looks at a byte slice at a given offset and returns a value with the
number of bytes it consumed.  Loops over readers keep a running count, and the
next item is read at `offset + consumed`.

Three rules cover every such loop: what an accepted loop has read
(`readEach_sound`), what a loop returns on a concatenation of encodings
(`readEach_complete`), and where a loop that panics did so
(`readEach_panics_iff`).
-/

namespace Solarix.Core

abbrev Reader (ε α : Type) := Nat → Outcome ε (α × Nat)

section Loop

variable {ε α β γ : Type}

/-- Read one item for each element of the list, from `offset + consumed` on.
Returns the values and the final count. -/
def readEach (read : β → Reader ε α) :
    List β → Nat → Nat → Outcome ε (List α × Nat)
  | [], _, consumed => .ok ([], consumed)
  | b :: bs, offset, consumed => do
      let start ← addUsize offset consumed
      let (val, n) ← read b start
      let consumed ← addUsize consumed n
      let (vals, total) ← readEach read bs offset consumed
      .ok (val :: vals, total)

@[simp] theorem readEach_nil (read : β → Reader ε α) (offset consumed : Nat) :
    readEach read [] offset consumed = .ok ([], consumed) := rfl

theorem readEach_cons (read : β → Reader ε α) (b : β) (bs : List β)
    (offset consumed : Nat) :
    readEach read (b :: bs) offset consumed = (do
      let start ← addUsize offset consumed
      let (val, n) ← read b start
      let consumed ← addUsize consumed n
      let (vals, total) ← readEach read bs offset consumed
      .ok (val :: vals, total)) := rfl

theorem readEach_map {δ : Type} (read : β → Reader ε α) (f : δ → β) (ds : List δ)
    (offset consumed : Nat) :
    readEach (fun d => read (f d)) ds offset consumed =
      readEach read (ds.map f) offset consumed := by
  induction ds generalizing consumed with
  | nil => rfl
  | cons d ds ih => simp only [List.map_cons, readEach_cons, ih]

theorem readEach_cons_of_ok {read : β → Reader ε α} {b : β} {bs : List β}
    {offset consumed start n next total : Nat} {v : α} {vs : List α}
    (hstart : addUsize offset consumed = (.ok start : Outcome ε Nat))
    (hb : read b start = .ok (v, n))
    (hnext : addUsize consumed n = (.ok next : Outcome ε Nat))
    (hrest : readEach read bs offset next = .ok (vs, total)) :
    readEach read (b :: bs) offset consumed = .ok (v :: vs, total) := by
  rw [readEach_cons, hstart, Outcome.ok_bind, hb, Outcome.ok_bind]
  simp only [hnext, hrest, Outcome.ok_bind]

theorem readEach_congr {δ : Type} {read : β → Reader ε α} {read' : δ → Reader ε α}
    {R : β → δ → Prop} {bs : List β} {ds : List δ} (hR : List.Forall₂ R bs ds)
    {offset consumed : Nat}
    (h : ∀ done b rest vals total, bs = done ++ b :: rest →
      readEach read done offset consumed = .ok (vals, total) → ∀ d, R b d →
        read b (offset + total) = read' d (offset + total)) :
    readEach read bs offset consumed = readEach read' ds offset consumed := by
  induction hR generalizing consumed with
  | nil => rfl
  | @cons b d bs ds hbd _ ih =>
      rw [readEach_cons, readEach_cons]
      refine Outcome.bind_congr fun start hstart => ?_
      have hfirst : read b start = read' d start := by
        obtain ⟨_, rfl⟩ := addUsize_eq_ok.mp hstart
        exact h [] b bs [] consumed rfl rfl d hbd
      rw [hfirst]
      refine Outcome.bind_congr fun ⟨v, n⟩ hv => ?_
      refine Outcome.bind_congr fun next hnext => ?_
      rw [ih]
      intro done b' rest vals total hsplit hdone
      refine h (b :: done) b' rest (v :: vals) total (congrArg (b :: ·) hsplit) ?_
      exact readEach_cons_of_ok hstart (hfirst.trans hv) hnext hdone

theorem forall₂_replicate {P : γ → Prop} {xs : List γ} (h : ∀ x ∈ xs, P x) :
    List.Forall₂ (fun (_ : Unit) x => P x) (List.replicate xs.length ()) xs := by
  induction xs with
  | nil => exact .nil
  | cons x xs ih => exact .cons (h x (by simp)) (ih fun y hy => h y (by simp [hy]))

theorem forall_of_forall₂ {P : γ → Prop} {us : List Unit} {xs : List γ}
    (h : List.Forall₂ (fun (_ : Unit) x => P x) us xs) : ∀ x ∈ xs, P x := by
  induction h with
  | nil => simp
  | cons hx _ ih => exact List.forall_mem_cons.mpr ⟨hx, ih⟩

theorem readEach_cons_eq_ok {read : β → Reader ε α} {b : β} {bs : List β}
    {offset consumed total : Nat} {vals : List α} :
    readEach read (b :: bs) offset consumed = .ok (vals, total) ↔
      offset + consumed ≤ usizeMax ∧ ∃ v n vs,
        read b (offset + consumed) = .ok (v, n) ∧ consumed + n ≤ usizeMax ∧
        readEach read bs offset (consumed + n) = .ok (vs, total) ∧ vals = v :: vs := by
  rw [readEach_cons]
  simp only [Outcome.bind_eq_ok, addUsize_eq_ok, Prod.exists]
  constructor
  · rintro ⟨_, ⟨hs, rfl⟩, v, n, hread, _, ⟨hc, rfl⟩, vs, t, hrest, heq⟩
    cases heq
    exact ⟨hs, v, n, vs, hread, hc, hrest, rfl⟩
  · rintro ⟨hs, v, n, vs, hread, hc, hrest, rfl⟩
    exact ⟨_, ⟨hs, rfl⟩, v, n, hread, _, ⟨hc, rfl⟩, vs, total, hrest, rfl⟩

def Consumes (r : Reader ε α) (n : Nat) : Prop :=
  ∀ start v m, r start = .ok (v, m) → m = n

theorem readEach_consumes {read : β → Reader ε α} {bs : List β} {sizes : List Nat}
    (hread : List.Forall₂ (fun b n => Consumes (read b) n) bs sizes)
    {offset consumed total : Nat} {vals : List α}
    (h : readEach read bs offset consumed = .ok (vals, total)) :
    total = consumed + sizes.sum := by
  induction hread generalizing consumed vals with
  | nil =>
      cases h
      rfl
  | cons hb _ ih =>
      obtain ⟨_, v, m, vs, hv, _, hrest, _⟩ := readEach_cons_eq_ok.mp h
      have hm := hb _ v m hv
      rw [ih hrest, List.sum_cons]
      omega

variable (data : DataSlice) (enc : γ → List UInt8) (render : γ → α)

/-- What the reader accepts at an offset of the slice is the encoding of some
value that satisfies `Spec`, and the result is that value rendered. -/
def Sound (r : Reader ε α) (Spec : γ → Prop) : Prop :=
  ∀ start v n, start ≤ data.len → r start = .ok (v, n) →
    ∃ x, Spec x ∧ v = render x ∧ n = (enc x).length ∧ data.At start (enc x)

def Reads (r : Reader ε α) (x : γ) : Prop :=
  ∀ start, data.At start (enc x) → r start = .ok (render x, (enc x).length)

variable {data enc render}

theorem readEach_sound {read : β → Reader ε α} {Spec : β → γ → Prop} {bs : List β}
    (hread : ∀ b ∈ bs, Sound data enc render (read b) (Spec b))
    {offset consumed total : Nat} {vals : List α}
    (hoff : offset + consumed ≤ data.len)
    (h : readEach read bs offset consumed = .ok (vals, total)) :
    ∃ xs, List.Forall₂ Spec bs xs ∧ vals = xs.map render ∧
      total = consumed + (xs.flatMap enc).length ∧
      data.At (offset + consumed) (xs.flatMap enc) := by
  induction bs generalizing consumed vals with
  | nil =>
      cases h
      exact ⟨[], .nil, rfl, rfl, DataSlice.at_nil hoff⟩
  | cons b bs ih =>
      obtain ⟨_, v, n, vs, hv, _, hrest, rfl⟩ := readEach_cons_eq_ok.mp h
      obtain ⟨x, hx, rfl, rfl, hat⟩ := hread b (by simp) _ v n hoff hv
      have hle := hat.add_length_le
      obtain ⟨xs, hxs, rfl, htotal, hats⟩ :=
        ih (fun b hb => hread b (by simp [hb])) (by omega) hrest
      refine ⟨x :: xs, .cons hx hxs, rfl, ?_, ?_⟩
      · rw [List.flatMap_cons, List.length_append]
        omega
      · rw [List.flatMap_cons, DataSlice.at_append]
        exact ⟨hat, by rw [Nat.add_assoc]; exact hats⟩

theorem readEach_cons_at {read : β → Reader ε α} {b : β} {bs : List β}
    {offset consumed n : Nat} {v : α}
    (hread : read b (offset + consumed) = .ok (v, n))
    (hle : offset + consumed + n ≤ data.len) :
    readEach read (b :: bs) offset consumed = (do
      let (vals, total) ← readEach read bs offset (consumed + n)
      .ok (v :: vals, total)) := by
  have hmax := data.len_lt_usizeMax
  rw [readEach_cons, addUsize_of_le (by omega), Outcome.ok_bind, hread,
    Outcome.ok_bind]
  simp only
  rw [addUsize_of_le (by omega), Outcome.ok_bind]

theorem readEach_append {read : β → Reader ε α} {bs : List β} {xs : List γ}
    (hread : List.Forall₂ (fun b x => Reads data enc render (read b) x) bs xs)
    {offset consumed : Nat} (rest : List β)
    (hat : data.At (offset + consumed) (xs.flatMap enc)) :
    readEach read (bs ++ rest) offset consumed = (do
      let (vals, total) ←
        readEach read rest offset (consumed + (xs.flatMap enc).length)
      .ok (xs.map render ++ vals, total)) := by
  induction hread generalizing consumed with
  | nil =>
      simp only [List.nil_append, List.flatMap_nil, List.length_nil, Nat.add_zero,
        List.map_nil]
      cases readEach read rest offset consumed <;> rfl
  | @cons b x bs xs hx _ ih =>
      rw [List.flatMap_cons, DataSlice.at_append] at hat
      obtain ⟨hhead, htail⟩ := hat
      rw [Nat.add_assoc] at htail
      rw [List.cons_append, readEach_cons_at (hx _ hhead) hhead.add_length_le, ih htail,
        List.flatMap_cons, List.length_append, Nat.add_assoc]
      cases readEach read rest offset
        (consumed + ((enc x).length + (xs.flatMap enc).length)) <;> rfl

theorem readEach_append_cons {read : β → Reader ε α} {done : List β} {xs : List γ}
    (hread : List.Forall₂ (fun b x => Reads data enc render (read b) x) done xs)
    {offset consumed : Nat} (hat : data.At (offset + consumed) (xs.flatMap enc)) (b : β)
    (rest : List β) :
    ∃ f, readEach read (done ++ b :: rest) offset consumed =
      read b (offset + consumed + (xs.flatMap enc).length) >>= f := by
  have hmax := data.len_lt_usizeMax
  have hle := hat.add_length_le
  rw [readEach_append hread _ hat, readEach_cons, addUsize_of_le (by omega), Outcome.ok_bind,
    ← Nat.add_assoc, bind_assoc]
  exact ⟨_, rfl⟩

theorem readEach_complete {read : β → Reader ε α} {bs : List β} {xs : List γ}
    (hread : List.Forall₂ (fun b x => Reads data enc render (read b) x) bs xs)
    {offset consumed : Nat} (hat : data.At (offset + consumed) (xs.flatMap enc)) :
    readEach read bs offset consumed =
      .ok (xs.map render, consumed + (xs.flatMap enc).length) := by
  have h := readEach_append hread [] hat
  rw [List.append_nil] at h
  rw [h]
  simp

/-- A loop panics exactly when it panics on the item after a prefix that it has read. -/
theorem readEach_panics_iff {read : β → Reader ε α} {Spec : β → γ → Prop} {bs : List β}
    (hsound : ∀ b ∈ bs, Sound data enc render (read b) (Spec b))
    (hreads : ∀ b ∈ bs, ∀ x, Spec b x → Reads data enc render (read b) x)
    {offset consumed : Nat} (hoff : offset + consumed ≤ data.len) :
    (readEach read bs offset consumed).Panics ↔
      ∃ done b rest xs, bs = done ++ b :: rest ∧ List.Forall₂ Spec done xs ∧
        data.At (offset + consumed) (xs.flatMap enc) ∧
        (read b (offset + consumed + (xs.flatMap enc).length)).Panics := by
  have hmax := data.len_lt_usizeMax
  constructor
  · intro h
    induction bs generalizing consumed with
    | nil => simp at h
    | cons b bs ih =>
        rw [readEach_cons, addUsize_of_le (by omega), Outcome.ok_bind,
          Outcome.panics_bind] at h
        rcases h with h | ⟨⟨v, n⟩, hv, h⟩
        · exact ⟨[], b, bs, [], rfl, .nil, DataSlice.at_nil hoff, by simpa using h⟩
        · obtain ⟨x, hx, rfl, rfl, hat⟩ := hsound b (by simp) _ v n hoff hv
          have hle := hat.add_length_le
          simp only at h
          rw [addUsize_of_le (by omega), Outcome.ok_bind, Outcome.panics_bind] at h
          rcases h with h | ⟨_, _, h⟩
          · obtain ⟨done, c, rest, xs, rfl, hxs, hats, hc⟩ :=
              ih (fun b hb => hsound b (by simp [hb])) (fun b hb => hreads b (by simp [hb]))
                (by omega) h
            refine ⟨b :: done, c, rest, x :: xs, rfl, .cons hx hxs, ?_, ?_⟩
            · rw [List.flatMap_cons, DataSlice.at_append]
              exact ⟨hat, by rw [Nat.add_assoc]; exact hats⟩
            · rw [List.flatMap_cons, List.length_append, ← Nat.add_assoc]
              rw [← Nat.add_assoc] at hc
              exact hc
          · simp at h
  · rintro ⟨done, b, rest, xs, rfl, hxs, hat, hb⟩
    have hdone : List.Forall₂ (fun b x => Reads data enc render (read b) x) done xs := by
      rw [List.forall₂_iff_zip] at hxs ⊢
      exact ⟨hxs.1, fun hp => hreads _ (by simp [(List.of_mem_zip hp).1]) _ (hxs.2 hp)⟩
    have hle := hat.add_length_le
    rw [readEach_append hdone _ hat, readEach_cons, addUsize_of_le (by omega),
      Outcome.ok_bind, ← Nat.add_assoc, Outcome.panics_bind, Outcome.panics_bind]
    exact Or.inl (Or.inl hb)

theorem readEach_replicate_panics_iff {read : Reader ε α} {Spec : γ → Prop} {count : Nat}
    (hsound : Sound data enc render read Spec)
    (hreads : ∀ x, Spec x → Reads data enc render read x)
    {offset consumed : Nat} (hoff : offset + consumed ≤ data.len) :
    (readEach (fun _ : Unit => read) (List.replicate count ()) offset consumed).Panics ↔
      ∃ xs : List γ, xs.length < count ∧ (∀ x ∈ xs, Spec x) ∧
        data.At (offset + consumed) (xs.flatMap enc) ∧
        (read (offset + consumed + (xs.flatMap enc).length)).Panics := by
  rw [readEach_panics_iff (fun _ _ => hsound) (fun _ _ => hreads) hoff]
  constructor
  · rintro ⟨done, b, rest, xs, hsplit, hxs, hat, hb⟩
    have hlen := congrArg List.length hsplit
    rw [List.length_replicate, List.length_append, List.length_cons, hxs.length_eq] at hlen
    exact ⟨xs, by omega, forall_of_forall₂ hxs, hat, hb⟩
  · rintro ⟨xs, hlt, hxs, hat, hb⟩
    refine ⟨List.replicate xs.length (), (), List.replicate (count - xs.length - 1) (), xs,
      ?_, forall₂_replicate hxs, hat, hb⟩
    rw [← List.replicate_succ, List.replicate_append_replicate]
    congr 1
    omega

end Loop

end Solarix.Core
