import Mathlib.Algebra.Group.Nat.Defs
import Mathlib.Data.List.Basic

/-! # Code that may return early or panic

What a function with an `Option` result comes to: a value, an early `return None`, or a panic. A
byte slice is indexed and cut in the two ways the language has, one that answers `None` out of
range and one that panics, and the same for additions on `usize`.

`Meets x P` says that `x` does not panic and that its value, if there is one, satisfies `P`.

* `Meets.bind`: the rule of sequencing.
* `Meets.loop`, `Meets.times`: the rules of a loop, whose invariant every turn keeps.
* `loop_next`, `loop_break`: one turn of a loop.
* `loop_induct`: what a loop that broke has done. -/

namespace BandixPlus.Lib.Checked

variable {α β σ : Type}

inductive Outcome (α : Type) where
  | value (a : α)
  | absent
  | panicked
  deriving DecidableEq

namespace Outcome

/-- `?`. -/
def bind (x : Outcome α) (f : α → Outcome β) : Outcome β :=
  match x with
  | value a => f a
  | absent => absent
  | panicked => panicked

instance : Monad Outcome where
  pure := value
  bind := bind

/-- The value, if there is one. -/
def ok : Outcome α → Option α
  | value a => some a
  | _ => none

/-- `if let Some(..)`, which goes on without a value. -/
def attempt : Outcome α → Outcome (Option α)
  | value a => value (some a)
  | absent => value none
  | panicked => panicked

variable {x : Outcome α} {f : α → Outcome β} {P P' : α → Prop} {Q : β → Prop}

@[simp] theorem value_bind (a : α) (f : α → Outcome β) : (value a >>= f) = f a := rfl

@[simp] theorem absent_bind (f : α → Outcome β) : (absent >>= f) = absent := rfl

@[simp] theorem panicked_bind (f : α → Outcome β) : (panicked >>= f) = panicked := rfl

theorem bind_eq_value {b : β} (h : (x >>= f) = value b) : ∃ a, x = value a ∧ f a = value b := by
  cases x with
  | value a => exact ⟨a, rfl, h⟩
  | absent => cases h
  | panicked => cases h

theorem bind_value {a : α} {y : Outcome β} (h : x = value a) (hf : f a = y) : (x >>= f) = y := by
  rw [h]
  exact hf

/-- No panic, and the value, if there is one, satisfies `P`. -/
def Meets (x : Outcome α) (P : α → Prop) : Prop :=
  match x with
  | value a => P a
  | absent => True
  | panicked => False

@[simp] theorem meets_value {a : α} : (value a).Meets P ↔ P a := Iff.rfl

@[simp] theorem meets_absent : (absent : Outcome α).Meets P := trivial

theorem Meets.of_eq {a : α} (h : x.Meets P) (hx : x = value a) : P a := by
  rw [hx] at h
  exact h

theorem Meets.ne_panicked (h : x.Meets P) : x ≠ panicked := by
  rintro rfl
  exact h

theorem Meets.mono (h : x.Meets P) (hP : ∀ a, P a → P' a) : x.Meets P' := by
  cases x with
  | value a => exact hP a h
  | absent => trivial
  | panicked => exact h

theorem Meets.bind (h : x.Meets P) (hf : ∀ a, P a → (f a).Meets Q) : (x >>= f).Meets Q := by
  cases x with
  | value a => exact hf a h
  | absent => trivial
  | panicked => exact h.elim

theorem Meets.attempt (h : x.Meets P) : x.attempt.Meets fun o => ∀ a, o = some a → P a := by
  cases x with
  | value a =>
    rintro _ ⟨⟩
    exact h
  | absent =>
    rintro _ ⟨⟩
  | panicked => exact h.elim

end Outcome

open Outcome

/-! ### Loops -/

/-- `loop`: `body` goes on with a new state or breaks with a value, and lowers `measure` when it
goes on. -/
def loop (body : σ → Outcome (σ ⊕ β)) (measure : σ → ℕ)
    (hbody : ∀ s s', body s = .value (.inl s') → measure s' < measure s) (s : σ) : Outcome β :=
  match _ : body s with
  | .value (.inl s') => loop body measure hbody s'
  | .value (.inr b) => .value b
  | .absent => .absent
  | .panicked => .panicked
termination_by measure s
decreasing_by exact hbody s s' ‹_›

/-- `for _ in 0..n`. -/
def times (body : σ → Outcome σ) : ℕ → σ → Outcome σ
  | 0, s => .value s
  | n + 1, s => body s >>= times body n

section
variable {body : σ → Outcome (σ ⊕ β)} {measure : σ → ℕ}
  {hbody : ∀ s s', body s = .value (.inl s') → measure s' < measure s} {I : σ → Prop} {Q : β → Prop}

/-- **An invariant that every turn keeps holds when the loop breaks.** -/
theorem Meets.loop (hkeep : ∀ s, I s → (body s).Meets (Sum.elim I Q)) {s : σ} (h : I s) :
    (loop body measure hbody s).Meets Q := by
  induction hm : measure s using Nat.strongRecOn generalizing s with
  | _ m ih =>
    have hstep := hkeep s h
    rw [Checked.loop]
    split
    next s' hs =>
      have hs' : I s' := hstep.of_eq hs
      exact ih (measure s') (hm ▸ hbody s s' hs) hs' rfl
    next b hs => exact hstep.of_eq hs
    next => trivial
    next hs => exact hstep.ne_panicked hs

end

section
variable {body : σ → Outcome (σ ⊕ β)} {measure : σ → ℕ}
  {hbody : ∀ s s', body s = .value (.inl s') → measure s' < measure s} {s s' : σ}

theorem loop_next (h : body s = .value (.inl s')) :
    loop body measure hbody s = loop body measure hbody s' := by
  rw [loop]
  split <;> simp_all

theorem loop_break {b : β} (h : body s = .value (.inr b)) :
    loop body measure hbody s = .value b := by
  rw [loop]
  split <;> simp_all

/-- **From the last turn back to the first**: what holds where the loop breaks, and before a turn if it holds
after it, holds at the start. -/
theorem loop_induct {P : σ → β → Prop} (hbreak : ∀ s b, body s = .value (.inr b) → P s b)
    (hnext : ∀ s s' b, body s = .value (.inl s') → P s' b → P s b) {b : β}
    (h : loop body measure hbody s = .value b) : P s b := by
  induction hm : measure s using Nat.strongRecOn generalizing s with
  | _ m ih =>
    cases hs : body s with
    | value r =>
      cases r with
      | inl s' =>
        rw [loop_next hs] at h
        exact hnext s s' b hs (ih (measure s') (hm ▸ hbody s s' hs) h rfl)
      | inr b' =>
        rw [loop_break hs, Outcome.value.injEq] at h
        exact hbreak s b (h ▸ hs)
    | absent =>
      rw [loop] at h
      split at h <;> simp_all
    | panicked =>
      rw [loop] at h
      split at h <;> simp_all

end

theorem Meets.times {body : σ → Outcome σ} {I : σ → Prop}
    (hkeep : ∀ s, I s → (body s).Meets I) (n : ℕ) {s : σ} (h : I s) :
    (times body n s).Meets I := by
  induction n generalizing s with
  | zero => exact h
  | succ n ih => exact (hkeep s h).bind fun s' hs' => ih hs'

/-! ### Arithmetic on `usize` -/

/-- `a + b`, which panics on overflow. -/
def add (a b : ℕ) : Outcome ℕ := if a + b < 2 ^ 64 then .value (a + b) else .panicked

/-- `a - b`. -/
def sub (a b : ℕ) : Outcome ℕ := if b ≤ a then .value (a - b) else .panicked

/-- `a.checked_add(b)?`. -/
def checkedAdd (a b : ℕ) : Outcome ℕ := if a + b < 2 ^ 64 then .value (a + b) else .absent

section
variable {a b limit : ℕ}

theorem add_eq (h : a + b < 2 ^ 64) : add a b = .value (a + b) := if_pos h

theorem sub_eq (h : b ≤ a) : sub a b = .value (a - b) := if_pos h

theorem checkedAdd_eq (h : a + b < 2 ^ 64) : checkedAdd a b = .value (a + b) := if_pos h

/-- `if c { return None }`. -/
def reject (c : Prop) [Decidable c] : Outcome Unit := if c then .absent else .value ()

/-- `if a + b > limit { return None }`. -/
def within (a b limit : ℕ) : Outcome Unit := do
  let sum ← add a b
  reject (limit < sum)

theorem reject_eq_value {c : Prop} [Decidable c] {u : Unit} (h : reject c = .value u) : ¬ c := by
  intro hc
  rw [reject, if_pos hc] at h
  cases h

theorem reject_eq {c : Prop} [Decidable c] (h : ¬ c) : reject c = .value () := if_neg h

theorem meets_reject {c : Prop} [Decidable c] : (reject c).Meets fun _ => ¬ c := by
  unfold reject
  split
  · trivial
  · exact ‹¬ c›

theorem within_eq (h : a + b ≤ limit) (hlimit : limit < 2 ^ 63) : within a b limit = .value () := by
  unfold within
  rw [add_eq (by omega), value_bind, reject_eq (by omega)]

theorem meets_within (h : a + b < 2 ^ 64) : (within a b limit).Meets fun _ => a + b ≤ limit := by
  unfold within
  rw [add_eq h, value_bind]
  exact meets_reject.mono fun _ hle => Nat.le_of_not_lt hle

theorem meets_add (h : a + b < 2 ^ 64) : (add a b).Meets (· = a + b) := by
  rw [add_eq h]
  rfl

theorem meets_checkedAdd : (checkedAdd a b).Meets (· = a + b) := by
  unfold checkedAdd
  split
  · rfl
  · trivial

end

/-! ### Slices -/

/-- A `&[u8]`, of at most `isize::MAX` bytes. -/
structure Slice where
  bytes : List UInt8
  short : bytes.length < 2 ^ 63

namespace Slice

def len (s : Slice) : ℕ := s.bytes.length

/-- `s[i]`. -/
def index (s : Slice) (i : ℕ) : Outcome UInt8 :=
  match s.bytes[i]? with
  | some b => .value b
  | none => .panicked

/-- `s.get(i)?`. -/
def get (s : Slice) (i : ℕ) : Outcome UInt8 :=
  match s.bytes[i]? with
  | some b => .value b
  | none => .absent

/-- The bytes from `a` on, before `b`. -/
def cut (s : Slice) (a b : ℕ) : Slice where
  bytes := (s.bytes.drop a).take (b - a)
  short := by
    have h := s.short
    rw [List.length_take, List.length_drop]
    omega

/-- `&s[a..b]`. -/
def indexRange (s : Slice) (a b : ℕ) : Outcome Slice :=
  if a ≤ b ∧ b ≤ s.len then .value (s.cut a b) else .panicked

/-- `s.get(a..b)?`. -/
def getRange (s : Slice) (a b : ℕ) : Outcome Slice :=
  if a ≤ b ∧ b ≤ s.len then .value (s.cut a b) else .absent

/-- The byte that a pointer into `s` reads. -/
def byte (s : Slice) (i : ℕ) : UInt8 := s.bytes.getD i 0

variable {s : Slice} {a b i : ℕ}

theorem len_lt (s : Slice) : s.len < 2 ^ 63 := s.short

theorem len_cut (h : b ≤ s.len) : (s.cut a b).len = b - a := by
  have hlen : s.len = s.bytes.length := rfl
  unfold cut len
  rw [List.length_take, List.length_drop]
  omega

/-- A byte of a part is a byte of the whole. -/
theorem byte_cut (h : i < b - a) : (s.cut a b).byte i = s.byte (a + i) := by
  unfold cut byte
  rw [List.getD_eq_getElem?_getD, List.getD_eq_getElem?_getD, List.getElem?_take_of_lt h,
    List.getElem?_drop]

theorem getElem?_eq_byte (h : i < s.len) : s.bytes[i]? = some (s.byte i) := by
  unfold byte
  rw [List.getD_eq_getElem?_getD, List.getElem?_eq_getElem h, Option.getD_some]

theorem index_eq (h : i < s.len) : s.index i = .value (s.byte i) := by
  unfold index
  rw [getElem?_eq_byte h]

theorem get_eq_value {x : UInt8} (h : s.get i = .value x) : i < s.len ∧ x = s.byte i := by
  unfold get at h
  split at h
  next y hy =>
    have hi : i < s.len := (List.getElem?_eq_some_iff.mp hy).1
    rw [getElem?_eq_byte hi] at hy
    cases h
    exact ⟨hi, (Option.some.inj hy).symm⟩
  next => cases h

theorem meets_index (h : i < s.len) : (s.index i).Meets (· = s.byte i) := by
  rw [index_eq h]
  rfl

theorem meets_get : (s.get i).Meets fun _ => i < s.len := by
  unfold get
  split
  next x hx => exact (List.getElem?_eq_some_iff.mp hx).1
  next => trivial

theorem indexRange_eq (h : a ≤ b) (h' : b ≤ s.len) : s.indexRange a b = .value (s.cut a b) :=
  if_pos ⟨h, h'⟩

theorem getRange_eq (h : a ≤ b) (h' : b ≤ s.len) : s.getRange a b = .value (s.cut a b) :=
  if_pos ⟨h, h'⟩

theorem meets_getRange :
    (s.getRange a b).Meets fun t => t = s.cut a b ∧ t.len = b - a ∧ a ≤ b ∧ b ≤ s.len := by
  unfold getRange
  split
  next h => exact ⟨rfl, len_cut h.2, h.1, h.2⟩
  next => trivial

end Slice

end BandixPlus.Lib.Checked
