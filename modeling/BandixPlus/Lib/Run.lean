import Mathlib.Data.List.Basic

/-! # Runs of a step function

A run is a list of inputs fed one after the other to `step : σ → α → σ`. `Along step G s as` says
that `G` holds at every step of the run `as` from `s`: of the state before the step and its input.

* `Along.invariant`: an invariant kept by the steps that satisfy `G` holds at the end of the run.
* `Along.imp`: along a run that keeps an invariant, what one step implies holds at every step.
* `along_iff_split`: `Along` in terms of the prefixes of the run. -/

namespace BandixPlus.Lib.Run

variable {σ α : Type*} {step : σ → α → σ}

/-- `G` holds at every step of the run. -/
def Along (step : σ → α → σ) (G : σ → α → Prop) : σ → List α → Prop
  | _, [] => True
  | s, a :: as => G s a ∧ Along step G (step s a) as

@[simp] theorem along_nil (G : σ → α → Prop) (s : σ) : Along step G s [] := trivial

@[simp] theorem along_cons {G : σ → α → Prop} {s : σ} {a : α} {as : List α} :
    Along step G s (a :: as) ↔ G s a ∧ Along step G (step s a) as := Iff.rfl

instance instDecidableAlong (G : σ → α → Prop) [∀ s a, Decidable (G s a)] :
    (s : σ) → (as : List α) → Decidable (Along step G s as)
  | _, [] => .isTrue trivial
  | s, a :: as => @instDecidableAnd _ _ _ (instDecidableAlong G (step s a) as)

theorem along_append {G : σ → α → Prop} {s : σ} {as bs : List α} :
    Along step G s (as ++ bs) ↔ Along step G s as ∧ Along step G (as.foldl step s) bs := by
  induction as generalizing s with
  | nil => simp
  | cons a as ih => simp [ih, and_assoc]

/-- **The run rule**: an invariant kept by every guarded step holds at the end. -/
theorem Along.invariant {G : σ → α → Prop} {I : σ → Prop}
    (hstep : ∀ s a, I s → G s a → I (step s a)) {s : σ} {as : List α} (h : Along step G s as)
    (hs : I s) : I (as.foldl step s) := by
  induction as generalizing s with
  | nil => exact hs
  | cons a as ih => exact ih h.2 (hstep s a hs h.1)

/-- Along a run that keeps `I`, what a guarded step implies holds at every step. -/
theorem Along.imp {G H : σ → α → Prop} {I : σ → Prop}
    (hstep : ∀ s a, I s → G s a → I (step s a)) (hH : ∀ s a, I s → G s a → H s a) {s : σ}
    {as : List α} (h : Along step G s as) (hs : I s) : Along step H s as := by
  induction as generalizing s with
  | nil => trivial
  | cons a as ih => exact ⟨hH s a hs h.1, ih h.2 (hstep s a hs h.1)⟩

/-- `Along` step by step: `G` holds after every prefix, of the input that follows it. -/
theorem along_iff_split {G : σ → α → Prop} {s : σ} {as : List α} :
    Along step G s as ↔ ∀ pre a post, as = pre ++ a :: post → G (pre.foldl step s) a := by
  constructor
  · rintro h pre a post rfl
    exact (along_append.mp h).2.1
  · induction as generalizing s with
    | nil => exact fun _ => trivial
    | cons a as ih =>
      intro h
      refine ⟨h [] a as rfl, ih fun pre b post hb => ?_⟩
      exact h (a :: pre) b post (by rw [hb]; rfl)

end BandixPlus.Lib.Run
