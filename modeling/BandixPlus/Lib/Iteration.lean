import BandixPlus.Lib.Checked

/-! # Iterators of code that may panic

An iterator with its `next`, and a measure that every item lowers, so that a loop over it ends.

* `Iterator.forEach`: a `for` loop whose body may return early.
* `Iterator.Yields`: the items that an iterator returns, up to its end.
* `Yields.forEach_eq`, `Yields.collect_eq`: a loop sees these items and no others. -/

namespace BandixPlus.Lib.Iteration

open BandixPlus.Lib.Checked BandixPlus.Lib.Checked.Outcome

variable {ι α σ β : Type}

structure Iterator (ι α : Type) where
  next : ι → Outcome (Option α × ι)
  measure : ι → ℕ
  advances : ∀ {it it' a}, next it = .value (some a, it') → measure it' < measure it

namespace Iterator
variable (I : Iterator ι α)

/-- `for a in it`: the body goes on with a new state or returns, and `done` follows the loop. -/
def forEach (body : σ → α → Outcome (σ ⊕ β)) (done : σ → β) (s : σ) (it : ι) : Outcome β :=
  match _h : I.next it with
  | .value (some a, it') =>
    body s a >>= fun r =>
      match r with
      | .inl s' => forEach body done s' it'
      | .inr b => .value b
  | .value (none, _) => .value (done s)
  | .absent => .absent
  | .panicked => .panicked
termination_by I.measure it
decreasing_by exact I.advances _h

/-- All items. -/
def collect (it : ι) : Outcome (List α) :=
  I.forEach (fun items a => .value (.inl (items ++ [a]))) id [] it

/-- **The items of an iterator**, which ends after them. -/
inductive Yields : ι → List α → Prop
  | nil {it it' : ι} (h : I.next it = .value (none, it')) : Yields it []
  | cons {it it' : ι} {a : α} {items : List α} (h : I.next it = .value (some a, it'))
      (rest : Yields it' items) : Yields it (a :: items)

end Iterator

/-- A loop over a list whose body may return. -/
def foldUntil (body : σ → α → Outcome (σ ⊕ β)) (done : σ → β) : σ → List α → Outcome β
  | s, [] => .value (done s)
  | s, a :: items =>
    body s a >>= fun r =>
      match r with
      | .inl s' => foldUntil body done s' items
      | .inr b => .value b

section
variable {I : Iterator ι α} {body : σ → α → Outcome (σ ⊕ β)} {done : σ → β} {it it' : ι} {a : α}
  {items : List α}

theorem forEach_end (h : I.next it = .value (none, it')) (s : σ) :
    I.forEach body done s it = .value (done s) := by
  rw [Iterator.forEach]
  split
  · next heq => simp [h] at heq
  · rfl
  · next heq => simp [h] at heq
  · next heq => simp [h] at heq

theorem forEach_item (h : I.next it = .value (some a, it')) (s : σ) :
    I.forEach body done s it = body s a >>= fun r =>
      match r with
      | .inl s' => I.forEach body done s' it'
      | .inr b => .value b := by
  rw [Iterator.forEach]
  split
  · next heq =>
    rw [h] at heq
    cases heq
    rfl
  · next heq => simp [h] at heq
  · next heq => simp [h] at heq
  · next heq => simp [h] at heq

/-- **A loop over an iterator is a loop over its items.** -/
theorem Iterator.Yields.forEach_eq (h : I.Yields it items) (s : σ) :
    I.forEach body done s it = foldUntil body done s items := by
  induction h generalizing s with
  | nil hend => exact forEach_end hend s
  | cons hitem _ ih =>
    rw [forEach_item hitem, foldUntil]
    refine congrArg _ (funext fun r => ?_)
    cases r with
    | inl s' => exact ih s'
    | inr b => rfl

theorem foldUntil_concat (items before : List α) :
    foldUntil (fun items a => .value (.inl (items ++ [a]))) id before items =
      (.value (before ++ items) : Outcome (List α)) := by
  induction items generalizing before with
  | nil => simp [foldUntil]
  | cons a items ih =>
    rw [foldUntil, value_bind]
    dsimp only
    rw [ih, List.append_assoc, List.singleton_append]

theorem Iterator.Yields.collect_eq (h : I.Yields it items) : I.collect it = .value items := by
  unfold Iterator.collect
  rw [h.forEach_eq, foldUntil_concat, List.nil_append]

/-- **An iterator whose steps do not panic has items**, and each of them is as its step says. -/
theorem exists_yields {P : α → Prop} {Q : ι → Prop}
    (hnext : ∀ it, Q it → ∃ o it', I.next it = .value (o, it') ∧ Q it' ∧ ∀ a, o = some a → P a)
    (hQ : Q it) : ∃ items, I.Yields it items ∧ ∀ a ∈ items, P a := by
  induction hm : I.measure it using Nat.strongRecOn generalizing it with
  | _ m ih =>
    obtain ⟨o, it', hit, hQ', hP⟩ := hnext it hQ
    cases o with
    | none => exact ⟨[], .nil hit, by simp⟩
    | some a =>
      obtain ⟨items, hitems, hall⟩ := ih (I.measure it') (hm ▸ I.advances hit) hQ' rfl
      exact ⟨a :: items, .cons hit hitems, List.forall_mem_cons.mpr ⟨hP a rfl, hall⟩⟩

end

end BandixPlus.Lib.Iteration
