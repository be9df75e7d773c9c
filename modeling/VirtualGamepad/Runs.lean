import Mathlib.Data.List.Induction
import Mathlib.Order.Basic

/-! Finite runs of a labelled transition relation, with the log of labels in order. -/
namespace Runs

variable {σ ℓ : Type*}

/-- `Run Step s log t`: the labels of `log`, taken in order, lead from `s` to `t`. -/
inductive Run (Step : σ → ℓ → σ → Prop) (s : σ) : List ℓ → σ → Prop where
  | nil : Run Step s [] s
  | snoc {log t l u} : Run Step s log t → Step t l u → Run Step s (log ++ [l]) u

variable {Step : σ → ℓ → σ → Prop} {s t u : σ} {log log' : List ℓ} {l : ℓ}

@[simp] theorem run_nil : Run Step s [] t ↔ t = s := by
  constructor
  · intro h
    generalize hl : ([] : List ℓ) = ls at h
    cases h with
    | nil => rfl
    | snoc _ _ => simp at hl
  · rintro rfl; exact .nil

theorem run_snoc : Run Step s (log ++ [l]) u ↔ ∃ t, Run Step s log t ∧ Step t l u := by
  constructor
  · intro h
    generalize hl : log ++ [l] = ls at h
    cases h with
    | nil => simp at hl
    | snoc h hs =>
      obtain ⟨h₁, h₂⟩ := List.append_inj' hl rfl
      obtain rfl := h₁
      obtain rfl := List.head_eq_of_cons_eq h₂
      exact ⟨_, h, hs⟩
  · rintro ⟨t, h, hs⟩; exact h.snoc hs

theorem Run.append (h : Run Step s log t) (k : Run Step t log' u) :
    Run Step s (log ++ log') u := by
  induction k with
  | nil => simpa using h
  | snoc _ hs ih => rw [← List.append_assoc]; exact ih.snoc hs

theorem run_append : Run Step s (log ++ log') u ↔ ∃ t, Run Step s log t ∧ Run Step t log' u := by
  constructor
  · intro h
    induction log' using List.reverseRecOn generalizing u with
    | nil => exact ⟨u, by simpa using h, .nil⟩
    | append_singleton ls l ih =>
      rw [← List.append_assoc] at h
      obtain ⟨v, hv, hs⟩ := run_snoc.mp h
      obtain ⟨t, ht, hr⟩ := ih hv
      exact ⟨t, ht, hr.snoc hs⟩
  · rintro ⟨t, h, k⟩; exact h.append k

theorem run_singleton : Run Step s [l] t ↔ Step s l t := by
  have h : Run Step s ([] ++ [l]) t ↔ _ := run_snoc
  simpa using h

theorem run_cons : Run Step s (l :: log) u ↔ ∃ t, Step s l t ∧ Run Step t log u := by
  have h : Run Step s ([l] ++ log) u ↔ _ := run_append
  simpa [run_singleton] using h

theorem exists_run_cons :
    (∃ u, Run Step s (l :: log) u) ↔ ∃ t, Step s l t ∧ ∃ u, Run Step t log u := by
  constructor
  · rintro ⟨u, h⟩
    obtain ⟨t, hs, hr⟩ := run_cons.mp h
    exact ⟨t, hs, u, hr⟩
  · rintro ⟨t, hs, u, hr⟩
    exact ⟨u, run_cons.mpr ⟨t, hs, hr⟩⟩

/-- The induction rule for invariants: they hold at the start and each step keeps them. -/
theorem Run.invariant {I : σ → Prop} (hI : ∀ t l u, I t → Step t l u → I u)
    (h : Run Step s log t) (hs : I s) : I t := by
  induction h with
  | nil => exact hs
  | snoc _ st ih => exact hI _ _ _ ih st

/-- A quantity that no step decreases is no smaller at the end. -/
theorem Run.monotone {α : Type*} [Preorder α] {f : σ → α} (hf : ∀ t l u, Step t l u → f t ≤ f u)
    (h : Run Step s log t) : f s ≤ f t := by
  induction h with
  | nil => exact le_rfl
  | snoc _ st ih => exact ih.trans (hf _ _ _ st)

/-- Labels can be relabelled or hidden when each step maps to at most one abstract step. -/
theorem Run.map {σ' ℓ' : Type*} {Step' : σ' → ℓ' → σ' → Prop} (f : σ → σ') (g : ℓ → Option ℓ')
    (hs : ∀ t l u l', Step t l u → g l = some l' → Step' (f t) l' (f u))
    (hn : ∀ t l u, Step t l u → g l = none → f u = f t)
    (h : Run Step s log t) : Run Step' (f s) (log.filterMap g) (f t) := by
  induction h with
  | nil => exact .nil
  | @snoc log t l u _ st ih =>
    rw [List.filterMap_append]
    cases hg : g l with
    | none => simpa [hg, hn _ _ _ st hg] using ih
    | some l' => simpa [hg] using ih.snoc (hs _ _ _ _ st hg)

end Runs
