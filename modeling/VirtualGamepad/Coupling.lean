import VirtualGamepad.Fallible

/-! Two computations over two states, related call by call: the same result, and related states. -/
namespace Coupling

open Fallible

variable {ε σ τ α β : Type}

/-- Both succeed with one result, or fail with one error, in related states. -/
def Coupled (R : σ → τ → Prop) (E : σ → τ → Prop) :
    Except ε α × σ → Except ε α × τ → Prop
  | (.ok a, s), (.ok b, t) => a = b ∧ R s t
  | (.error e, s), (.error e', t) => e = e' ∧ E s t
  | _, _ => False

variable {R R' E E' : σ → τ → Prop} {s : σ} {t : τ} {x : Except ε α × σ} {y : Except ε α × τ}

@[simp] theorem coupled_ok {a b : α} :
    Coupled R E ((.ok a, s) : Except ε α × σ) (.ok b, t) ↔ a = b ∧ R s t := Iff.rfl

@[simp] theorem coupled_error {e e' : ε} :
    Coupled R E ((.error e, s) : Except ε α × σ) (.error e', t) ↔ e = e' ∧ E s t := Iff.rfl

theorem Coupled.result_eq (h : Coupled R E x y) : x.1 = y.1 := by
  obtain ⟨e | a, s⟩ := x
  · obtain ⟨e' | b, t⟩ := y
    · exact congrArg Except.error h.1
    · exact h.elim
  · obtain ⟨e' | b, t⟩ := y
    · exact h.elim
    · exact congrArg Except.ok h.1

/-- A relation that both exits keep is a relation of the states after the calls. -/
theorem Coupled.state (h : Coupled R R x y) : R x.2 y.2 := by
  obtain ⟨e | a, s⟩ := x
  · obtain ⟨e' | b, t⟩ := y
    · exact h.2
    · exact h.elim
  · obtain ⟨e' | b, t⟩ := y
    · exact h.elim
    · exact h.2

theorem Coupled.mono (h : Coupled R E x y) (hr : ∀ s t, R s t → R' s t)
    (he : ∀ s t, E s t → E' s t) : Coupled R' E' x y := by
  obtain ⟨e | a, s⟩ := x
  · obtain ⟨e' | b, t⟩ := y
    · exact ⟨h.1, he _ _ h.2⟩
    · exact h.elim
  · obtain ⟨e' | b, t⟩ := y
    · exact h.elim
    · exact ⟨h.1, hr _ _ h.2⟩

/-- Calls with related results are related to each other. -/
theorem coupled_of_eq {r : Except ε α} (h : R s t) : Coupled R R (r, s) (r, t) := by
  cases r with
  | error e => exact ⟨rfl, h⟩
  | ok a => exact ⟨rfl, h⟩

theorem coupled_pure {a : α} (h : R s t) :
    Coupled R E ((pure a : Action ε σ α) s) ((pure a : Action ε τ α) t) := ⟨rfl, h⟩

theorem coupled_fail {e : ε} (h : E s t) :
    Coupled R E ((fail e : Action ε σ α) s) ((fail e : Action ε τ α) t) := ⟨rfl, h⟩

theorem coupled_modify {f : σ → σ} {g : τ → τ} (h : R (f s) (g t)) :
    Coupled R E ((modify f : Action ε σ Unit) s) ((modify g : Action ε τ Unit) t) := ⟨rfl, h⟩

/-- Coupled calls with coupled continuations are coupled. -/
theorem coupled_bind {m : Action ε σ α} {n : Action ε τ α} {f : α → Action ε σ β}
    {g : α → Action ε τ β} (h : Coupled R E (m s) (n t))
    (k : ∀ a s t, R s t → Coupled R' E (f a s) (g a t)) :
    Coupled R' E ((m >>= f) s) ((n >>= g) t) := by
  rcases hm : m s with ⟨e | a, s'⟩
  · rcases hn : n t with ⟨e' | b, t'⟩
    · rw [hm, hn] at h
      rw [bind_run_error hm, bind_run_error hn]
      exact h
    · rw [hm, hn] at h
      exact h.elim
  · rcases hn : n t with ⟨e' | b, t'⟩
    · rw [hm, hn] at h
      exact h.elim
    · rw [hm, hn] at h
      obtain ⟨rfl, hr⟩ := h
      rw [bind_run_ok hm, bind_run_ok hn]
      exact k a s' t' hr

end Coupling
