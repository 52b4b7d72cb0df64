/-
Runs of a machine `step : σ → ι → σ` over a list of inputs, what holds along a run, and the
induction every safety result is an instance of: a property that one step keeps holds at the end
of every run.
-/
import Mathlib.Data.List.Basic

namespace Run

variable {σ ι : Type} (step : σ → ι → σ)

/-- The state after the inputs `is`. -/
def run (s : σ) (is : List ι) : σ := is.foldl step s

/-- Every step of the run from `s` over `is` meets `C`, a condition on the state before the step
and on its input. -/
def Along (C : σ → ι → Prop) : σ → List ι → Prop
  | _, [] => True
  | s, i :: is => C s i ∧ Along C (step s i) is

instance instDecidableAlong {step : σ → ι → σ} {C : σ → ι → Prop} [∀ s i, Decidable (C s i)] :
    ∀ (s : σ) (is : List ι), Decidable (Along step C s is)
  | _, [] => .isTrue trivial
  | s, i :: is =>
    have : Decidable (Along step C (step s i) is) := instDecidableAlong (step s i) is
    inferInstanceAs (Decidable (C s i ∧ Along step C (step s i) is))

@[simp] theorem run_nil (s : σ) : run step s [] = s := rfl

@[simp] theorem run_cons (s : σ) (i : ι) (is : List ι) : run step s (i :: is) = run step (step s i) is := rfl

theorem run_append (s : σ) (is js : List ι) : run step s (is ++ js) = run step (run step s is) js :=
  List.foldl_append

/-- Two places in a list are the same, or one is before the other. -/
theorem split_cases {is is₁ is₂ is₁' is₂' : List ι} {i i' : ι} (h : is = is₁ ++ i :: is₂) (h' : is = is₁' ++ i' :: is₂') :
    (is₁ = is₁' ∧ i = i') ∨ (∃ l, is₁' = is₁ ++ i :: l) ∨ ∃ l, is₁ = is₁' ++ i' :: l := by
  rcases List.append_eq_append_iff.1 (h.symm.trans h') with ⟨l, h1, h2⟩ | ⟨l, h1, h2⟩
  · cases l with
    | nil => exact Or.inl ⟨by rw [h1, List.append_nil], (List.cons.inj h2).1⟩
    | cons j l =>
      obtain ⟨rfl, -⟩ := List.cons.inj h2
      exact Or.inr (Or.inl ⟨l, h1⟩)
  · cases l with
    | nil => exact Or.inl ⟨by rw [h1, List.append_nil], (List.cons.inj h2).1.symm⟩
    | cons j l =>
      obtain ⟨rfl, -⟩ := List.cons.inj h2
      exact Or.inr (Or.inr ⟨l, h1⟩)

variable {step} {C D : σ → ι → Prop}

theorem along_append : ∀ (is : List ι) {s : σ} {js : List ι},
    Along step C s (is ++ js) ↔ Along step C s is ∧ Along step C (run step s is) js
  | [], _, _ => by simp [Along]
  | i :: is, s, js => by simp only [List.cons_append, Along, along_append is, run_cons, and_assoc]

theorem along_iff : ∀ (is : List ι) {s : σ}, Along step C s is ↔
    ∀ is₁ i is₂, is = is₁ ++ i :: is₂ → C (run step s is₁) i
  | [], _ => iff_of_true trivial fun is₁ i is₂ h => by simp at h
  | j :: is, s => by
    rw [Along, along_iff is]
    constructor
    · rintro ⟨h1, h2⟩ is₁ i is₂ h
      cases is₁ with
      | nil =>
        obtain ⟨rfl, rfl⟩ := List.cons.inj h
        exact h1
      | cons j' is₁ =>
        obtain ⟨rfl, h'⟩ := List.cons.inj h
        exact h2 is₁ i is₂ h'
    · intro h
      exact ⟨h [] j is rfl, fun is₁ i is₂ hs => h (j :: is₁) i is₂ (by rw [hs]; rfl)⟩

theorem along_of_forall {E : ι → Prop} : ∀ (is : List ι) {s : σ}, (∀ i ∈ is, E i) → Along step (fun _ i => E i) s is
  | [], _, _ => trivial
  | _ :: is, _, h => ⟨h _ (List.mem_cons_self ..), along_of_forall is fun i hi => h i (List.mem_cons_of_mem _ hi)⟩

/-- A condition that follows along a run from an invariant. -/
theorem Along.mono_of {I : σ → Prop} (hstep : ∀ s i, I s → I (step s i)) (h : ∀ s i, I s → C s i → D s i) :
    ∀ (is : List ι) {s : σ}, I s → Along step C s is → Along step D s is
  | [], _, _, _ => trivial
  | _ :: is, _, hs, ⟨h1, h2⟩ => ⟨h _ _ hs h1, Along.mono_of hstep h is (hstep _ _ hs) h2⟩

theorem Along.mono {is : List ι} {s : σ} (hs : Along step C s is) (h : ∀ s i, C s i → D s i) : Along step D s is :=
  mono_of (I := fun _ => True) (fun _ _ _ => trivial) (fun s i _ => h s i) is trivial hs

theorem Along.and : ∀ (is : List ι) {s : σ}, Along step C s is → Along step D s is →
    Along step (fun s i => C s i ∧ D s i) s is
  | [], _, _, _ => trivial
  | _ :: is, _, ⟨c, cs⟩, ⟨d, ds⟩ => ⟨⟨c, d⟩, Along.and is cs ds⟩

/-- A property that every step meeting `C` keeps holds at the end of every run along `C`. -/
theorem invariant {I : σ → Prop} (hstep : ∀ s i, C s i → I s → I (step s i)) :
    ∀ (is : List ι) {s : σ}, Along step C s is → I s → I (run step s is)
  | [], _, _, hs => hs
  | _ :: is, _, ⟨hc, hcs⟩, hs => invariant hstep is hcs (hstep _ _ hc hs)

/-- A property that every step keeps holds at the end of every run. -/
theorem invariant_all {I : σ → Prop} (hstep : ∀ s i, I s → I (step s i)) (is : List ι) {s : σ} (hs : I s) :
    I (run step s is) := by
  induction is generalizing s with
  | nil => exact hs
  | cons i is ih => exact ih (hstep s i hs)

end Run
