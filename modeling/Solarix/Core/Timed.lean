import Mathlib.Data.List.Basic

/-!
# Timed computations

An asynchronous computation is a function of the time of its first poll: the effects it
has, each with its time, and how it ends.  Sequencing starts the second part when the
first is done, a timeout keeps what happened up to the deadline, and a join starts its
parts together.
-/

namespace Solarix.Core

inductive Finish (α : Type) where
  | done (time : Nat) (value : α)
  | panicked (time : Nat) (message : String)
  | never

structure TimedRun (ε α : Type) where
  effects : List (Nat × ε)
  finish : Finish α

def Timed (ε α : Type) : Type := Nat → TimedRun ε α

/-- Something outside the computation that ends at a time, or never does. -/
structure Ending (α : Type) where
  time : Option Nat
  value : α

namespace Timed

variable {ε α β : Type}

def done (value : α) : Timed ε α := fun now => ⟨[], .done now value⟩

def andThen (first : Timed ε α) (next : α → Timed ε β) : Timed ε β := fun now =>
  match (first now).finish with
  | .done time value =>
      ⟨(first now).effects ++ (next value time).effects, (next value time).finish⟩
  | .panicked time message => ⟨(first now).effects, .panicked time message⟩
  | .never => ⟨(first now).effects, .never⟩

instance : Monad (Timed ε) where
  pure := done
  bind := andThen

def emit (effect : ε) : Timed ε Unit := fun now => ⟨[(now, effect)], .done now ()⟩

def panic (message : String) : Timed ε α := fun now => ⟨[], .panicked now message⟩

def await (ending : Ending α) : Timed ε α := fun now =>
  match ending.time with
  | some time => ⟨[], .done (max now time) ending.value⟩
  | none => ⟨[], .never⟩

def call (answer : Ending α) : Timed ε α := fun now =>
  match answer.time with
  | some duration => ⟨[], .done (now + duration) answer.value⟩
  | none => ⟨[], .never⟩

def upTo (time : Nat) (effects : List (Nat × ε)) : List (Nat × ε) :=
  effects.filter fun effect => effect.1 ≤ time

/-- What happened up to the deadline, `none` for a computation that is cut there.  A
computation that ends at the deadline is polled first. -/
def timeout (limit : Nat) (x : Timed ε α) : Timed ε (Option α) := fun now =>
  match (x now).finish with
  | .done time value =>
      if time ≤ now + limit then ⟨(x now).effects, .done time (some value)⟩
      else ⟨upTo (now + limit) (x now).effects, .done (now + limit) none⟩
  | .panicked time message =>
      if time ≤ now + limit then ⟨(x now).effects, .panicked time message⟩
      else ⟨upTo (now + limit) (x now).effects, .done (now + limit) none⟩
  | .never => ⟨upTo (now + limit) (x now).effects, .done (now + limit) none⟩

/-- Both ends together, that of a panic being the earlier one. -/
def Finish.both (first : Finish α) (rest : Finish (List α)) : Finish (List α) :=
  match first, rest with
  | .done time value, .done time' values => .done (max time time') (value :: values)
  | .panicked time message, .panicked time' message' =>
      if time ≤ time' then .panicked time message else .panicked time' message'
  | .panicked time message, _ => .panicked time message
  | _, .panicked time message => .panicked time message
  | _, _ => .never

def Finish.keep (finish : Finish α) (effects : List (Nat × ε)) : List (Nat × ε) :=
  match finish with
  | .panicked time _ => upTo time effects
  | _ => effects

/-- `join_all`: every part is polled at once. -/
def joinAll : List (Timed ε α) → Timed ε (List α)
  | [] => done []
  | x :: rest => fun now =>
      let finish := Finish.both (x now).finish (joinAll rest now).finish
      ⟨Finish.keep finish ((x now).effects ++ (joinAll rest now).effects), finish⟩

/-- `select!` over two endings, with the branch that is looked at first. -/
def select (leftFirst : Bool) (left : Ending α) (right : Ending β) : Timed ε (α ⊕ β) := fun now =>
  match left.time, right.time with
  | some time, some time' =>
      if max now time < max now time' ∨ (max now time = max now time' ∧ leftFirst) then
        ⟨[], .done (max now time) (.inl left.value)⟩
      else ⟨[], .done (max now time') (.inr right.value)⟩
  | some time, none => ⟨[], .done (max now time) (.inl left.value)⟩
  | none, some time => ⟨[], .done (max now time) (.inr right.value)⟩
  | none, none => ⟨[], .never⟩

/-! ## Panics and effects -/

def Safe (x : Timed ε α) : Prop := ∀ now time message, (x now).finish ≠ .panicked time message

def Only (P : ε → Prop) (x : Timed ε α) : Prop :=
  ∀ now, ∀ effect ∈ (x now).effects, P effect.2

variable {x : Timed ε α} {next : α → Timed ε β} {P : ε → Prop}

theorem bind_done {now time : Nat} {effects : List (Nat × ε)} {value : α}
    (h : x now = ⟨effects, .done time value⟩) :
    (x >>= next) now = ⟨effects ++ (next value time).effects, (next value time).finish⟩ := by
  change andThen x next now = _
  unfold andThen
  rw [h]

theorem bind_panicked {now time : Nat} {effects : List (Nat × ε)} {message : String}
    (h : x now = ⟨effects, .panicked time message⟩) :
    (x >>= next) now = ⟨effects, .panicked time message⟩ := by
  change andThen x next now = _
  unfold andThen
  rw [h]

theorem bind_never {now : Nat} {effects : List (Nat × ε)} (h : x now = ⟨effects, .never⟩) :
    (x >>= next) now = ⟨effects, .never⟩ := by
  change andThen x next now = _
  unfold andThen
  rw [h]

theorem Safe.pure (value : α) : Safe (pure value : Timed ε α) := nofun

theorem Safe.emit (effect : ε) : Safe (emit effect) := nofun

theorem Safe.call (answer : Ending α) : Safe (call answer : Timed ε α) := by
  intro now time message
  unfold Timed.call
  split <;> nofun

theorem Safe.bind (hx : Safe x) (hnext : ∀ value, Safe (next value)) : Safe (x >>= next) := by
  intro now time message
  change (andThen x next now).finish ≠ _
  unfold andThen
  split
  · exact hnext _ _ _ _
  · rename_i h
    exact absurd h (hx _ _ _)
  · nofun

theorem Safe.timeout_done (hx : Safe x) (limit now : Nat) :
    ∃ time value, (timeout limit x now).finish = .done time value := by
  unfold timeout
  split
  · split <;> exact ⟨_, _, rfl⟩
  · rename_i h
    exact absurd h (hx _ _ _)
  · exact ⟨_, _, rfl⟩

theorem Safe.timeout (hx : Safe x) (limit : Nat) : Safe (timeout limit x) := by
  intro now time message
  obtain ⟨time', value, h⟩ := hx.timeout_done limit now
  rw [h]
  nofun

theorem Safe.joinAll {xs : List (Timed ε α)} (hxs : ∀ x ∈ xs, Safe x) : Safe (joinAll xs) := by
  induction xs with
  | nil => nofun
  | cons x rest ih =>
      intro now time message
      have hx := hxs x List.mem_cons_self now
      have hrest := ih (fun y hy => hxs y (List.mem_cons_of_mem x hy)) now
      simp only [Timed.joinAll]
      unfold Finish.both
      split
      · nofun
      · exact absurd ‹_› (hx _ _)
      · exact absurd ‹_› (hx _ _)
      · exact absurd ‹_› (hrest _ _)
      · nofun

theorem Only.pure (value : α) : Only P (pure value : Timed ε α) := nofun

theorem Only.emit {effect : ε} (h : P effect) : Only P (emit effect) := by
  intro now other hother
  rw [List.mem_singleton.mp hother]
  exact h

theorem Only.call (answer : Ending α) : Only P (call answer : Timed ε α) := by
  intro now effect heffect
  unfold Timed.call at heffect
  split at heffect <;> cases heffect

theorem Only.bind (hx : Only P x) (hnext : ∀ value, Only P (next value)) : Only P (x >>= next) := by
  intro now effect heffect
  change effect ∈ (andThen x next now).effects at heffect
  unfold andThen at heffect
  split at heffect
  · cases List.mem_append.mp heffect with
    | inl h => exact hx _ _ h
    | inr h => exact hnext _ _ _ h
  · exact hx _ _ heffect
  · exact hx _ _ heffect

theorem Only.timeout (hx : Only P x) (limit : Nat) : Only P (timeout limit x) := by
  intro now effect heffect
  have hsub : effect ∈ (x now).effects := by
    unfold Timed.timeout at heffect
    split at heffect
    · split at heffect
      · exact heffect
      · exact List.mem_of_mem_filter heffect
    · split at heffect
      · exact heffect
      · exact List.mem_of_mem_filter heffect
    · exact List.mem_of_mem_filter heffect
  exact hx _ _ hsub

theorem Only.joinAll {xs : List (Timed ε α)} (hxs : ∀ x ∈ xs, Only P x) :
    Only P (joinAll xs) := by
  induction xs with
  | nil => nofun
  | cons x rest ih =>
      intro now effect heffect
      have hmem : effect ∈ (x now).effects ++ (Timed.joinAll rest now).effects := by
        simp only [Timed.joinAll] at heffect
        unfold Finish.keep at heffect
        split at heffect
        · exact List.mem_of_mem_filter heffect
        · exact heffect
      cases List.mem_append.mp hmem with
      | inl h => exact hxs x List.mem_cons_self _ _ h
      | inr h => exact ih (fun y hy => hxs y (List.mem_cons_of_mem x hy)) _ _ h

theorem timeout_call (answer : Ending α) (limit now : Nat) :
    ∃ time value, timeout limit (call answer : Timed ε α) now = ⟨[], .done time value⟩ := by
  unfold timeout call
  cases answer.time with
  | none => exact ⟨_, _, rfl⟩
  | some duration =>
      simp only
      split <;> exact ⟨_, _, rfl⟩

theorem mem_bind_left {now : Nat} {effect : Nat × ε} (h : effect ∈ (x now).effects) :
    effect ∈ ((x >>= next) now).effects := by
  change effect ∈ (andThen x next now).effects
  unfold andThen
  split
  · exact List.mem_append_left _ h
  · exact h
  · exact h

theorem await_some {ending : Ending α} {time : Nat} (h : ending.time = some time) (now : Nat) :
    (await ending : Timed ε α) now = ⟨[], .done (max now time) ending.value⟩ := by
  unfold await
  rw [h]

theorem await_none {ending : Ending α} (h : ending.time = none) (now : Nat) :
    (await ending : Timed ε α) now = ⟨[], .never⟩ := by
  unfold await
  rw [h]

theorem call_some {answer : Ending α} {duration : Nat} (h : answer.time = some duration)
    (now : Nat) : (call answer : Timed ε α) now = ⟨[], .done (now + duration) answer.value⟩ := by
  unfold call
  rw [h]

theorem call_none {answer : Ending α} (h : answer.time = none) (now : Nat) :
    (call answer : Timed ε α) now = ⟨[], .never⟩ := by
  unfold call
  rw [h]

theorem select_left {leftFirst : Bool} {left : Ending α} {right : Ending β} {now time : Nat}
    (hleft : left.time = some time)
    (hfirst : ∀ time', right.time = some time' →
      max now time < max now time' ∨ (max now time = max now time' ∧ leftFirst)) :
    (select leftFirst left right : Timed ε (α ⊕ β)) now =
      ⟨[], .done (max now time) (.inl left.value)⟩ := by
  unfold select
  rw [hleft]
  cases hright : right.time with
  | none => rfl
  | some time' => exact if_pos (hfirst time' hright)

theorem select_right {leftFirst : Bool} {left : Ending α} {right : Ending β} {now time : Nat}
    (hright : right.time = some time)
    (hfirst : ∀ time', left.time = some time' →
      ¬ (max now time' < max now time ∨ (max now time' = max now time ∧ leftFirst))) :
    (select leftFirst left right : Timed ε (α ⊕ β)) now =
      ⟨[], .done (max now time) (.inr right.value)⟩ := by
  unfold select
  rw [hright]
  cases hleft : left.time with
  | none => rfl
  | some time' => exact if_neg (hfirst time' hleft)

theorem mem_timeout {limit now : Nat} {effect : Nat × ε} (h : effect ∈ (x now).effects)
    (htime : effect.1 ≤ now + limit) : effect ∈ (timeout limit x now).effects := by
  have hcut : effect ∈ upTo (now + limit) (x now).effects :=
    List.mem_filter.mpr ⟨h, by simpa using htime⟩
  unfold timeout
  split
  · split
    · exact h
    · exact hcut
  · split
    · exact h
    · exact hcut
  · exact hcut

theorem timeout_late {limit now : Nat} {finish : Finish α}
    (h : (x now).finish = finish)
    (hlate : finish = .never ∨ ∃ time value, finish = .done time value ∧ now + limit < time) :
    timeout limit x now =
      ⟨upTo (now + limit) (x now).effects, .done (now + limit) none⟩ := by
  unfold timeout
  rw [h]
  rcases hlate with rfl | ⟨time, value, rfl, hlate⟩
  · rfl
  · exact if_neg (Nat.not_le.mpr hlate)

theorem mem_joinAll {xs : List (Timed ε α)} (hxs : ∀ x ∈ xs, Safe x) (hx : x ∈ xs) {now : Nat}
    {effect : Nat × ε} (h : effect ∈ (x now).effects) : effect ∈ (joinAll xs now).effects := by
  induction xs with
  | nil => cases hx
  | cons y rest ih =>
      have hsafe := Safe.joinAll hxs now
      simp only [joinAll] at hsafe ⊢
      unfold Finish.keep
      split
      · exact absurd ‹_› (hsafe _ _)
      · cases hx with
        | head => exact List.mem_append_left _ h
        | tail _ hx =>
            have hrest := ih (fun z hz => hxs z (List.mem_cons_of_mem y hz)) hx
            exact List.mem_append_right _ hrest

end Timed

end Solarix.Core
