import Mathlib.Logic.Relation
import Mathlib.Data.List.Basic

/-! Computations that mutate a state and return a result or an error. A failing call keeps
the mutations it made before it failed. Conditions on outcomes compose along `>>=`, and a
labelled acceptor turns a log of calls into a statement about every prefix of that log. -/
namespace Fallible

/-- A mutating call: the state after it is returned with its result or its error. -/
def Action (ε σ α : Type) := σ → Except ε α × σ

variable {ε σ α β : Type}

instance : Monad (Action ε σ) where
  pure a := fun s => (.ok a, s)
  bind m f := fun s =>
    match m s with
    | (.ok a, t) => f a t
    | (.error e, t) => (.error e, t)

def fail (e : ε) : Action ε σ α := fun s => (.error e, s)
def get : Action ε σ σ := fun s => (.ok s, s)
def modify (f : σ → σ) : Action ε σ Unit := fun s => (.ok (), f s)
def lift (r : Except ε α) : Action ε σ α := fun s => (r, s)

theorem get_bind_run (f : σ → Action ε σ β) (s : σ) : (get >>= f) s = f s s := rfl

theorem bind_run_ok {m : Action ε σ α} {f : α → Action ε σ β} {s t : σ} {a : α}
    (h : m s = (.ok a, t)) : (m >>= f) s = f a t := by
  change (match m s with
    | (.ok a, t) => f a t
    | (.error e, t) => (.error e, t)) = _
  rw [h]

theorem bind_run_error {m : Action ε σ α} {f : α → Action ε σ β} {s t : σ} {e : ε}
    (h : m s = (.error e, t)) : (m >>= f) s = (.error e, t) := by
  change (match m s with
    | (.ok a, t) => f a t
    | (.error e, t) => (.error e, t)) = _
  rw [h]

theorem bind_bind {γ : Type} (m : Action ε σ α) (f : α → Action ε σ β) (g : β → Action ε σ γ) :
    (m >>= f) >>= g = m >>= fun a => f a >>= g := by
  funext s
  rcases hm : m s with ⟨e | a, t⟩
  · rw [bind_run_error (bind_run_error hm), bind_run_error hm]
  · rw [bind_run_ok hm]
    rcases hf : f a t with ⟨e | b, u⟩
    · rw [bind_run_error ((bind_run_ok hm).trans hf), bind_run_error hf]
    · rw [bind_run_ok ((bind_run_ok hm).trans hf), bind_run_ok hf]

/-- The outcome of a call meets `Q` on success and `E` on failure. -/
def Meets (r : Except ε α × σ) (Q : α → σ → Prop) (E : ε → σ → Prop) : Prop :=
  match r with
  | (.ok a, t) => Q a t
  | (.error e, t) => E e t

/-- Partial-correctness triple with a separate condition for each exit. -/
def Triple (P : σ → Prop) (m : Action ε σ α) (Q : α → σ → Prop) (E : ε → σ → Prop) : Prop :=
  ∀ s, P s → Meets (m s) Q E

section Outcomes

variable {Q : α → σ → Prop} {R : β → σ → Prop} {E : ε → σ → Prop} {s : σ}

@[simp] theorem meets_ok {a : α} {t : σ} : Meets ((.ok a, t) : Except ε α × σ) Q E ↔ Q a t :=
  Iff.rfl

@[simp] theorem meets_error {e : ε} {t : σ} :
    Meets ((.error e, t) : Except ε α × σ) Q E ↔ E e t := Iff.rfl

@[simp] theorem meets_pure {a : α} : Meets ((pure a : Action ε σ α) s) Q E ↔ Q a s := Iff.rfl

@[simp] theorem meets_fail {e : ε} : Meets ((fail e : Action ε σ α) s) Q E ↔ E e s := Iff.rfl

@[simp] theorem meets_modify {f : σ → σ} {Q : Unit → σ → Prop} :
    Meets ((modify f : Action ε σ Unit) s) Q E ↔ Q () (f s) := Iff.rfl

@[simp] theorem meets_get_bind {f : σ → Action ε σ β} :
    Meets ((get >>= f) s) R E ↔ Meets (f s s) R E := Iff.rfl

@[simp] theorem meets_pure_bind {a : α} {f : α → Action ε σ β} :
    Meets (((pure a : Action ε σ α) >>= f) s) R E ↔ Meets (f a s) R E := Iff.rfl

@[simp] theorem meets_modify_bind {g : σ → σ} {f : Unit → Action ε σ β} :
    Meets (((modify g : Action ε σ Unit) >>= f) s) R E ↔ Meets (f () (g s)) R E := Iff.rfl

@[simp] theorem meets_lift_ok_bind {a : α} {f : α → Action ε σ β} :
    Meets (((lift (.ok a) : Action ε σ α) >>= f) s) R E ↔ Meets (f a s) R E := Iff.rfl

@[simp] theorem meets_lift_error_bind {e : ε} {f : α → Action ε σ β} :
    Meets (((lift (.error e) : Action ε σ α) >>= f) s) R E ↔ E e s := Iff.rfl

@[simp] theorem meets_fail_bind {e : ε} {f : α → Action ε σ β} :
    Meets (((fail e : Action ε σ α) >>= f) s) R E ↔ E e s := Iff.rfl

/-- Sequencing: an early failure must already meet the error condition of the whole. -/
theorem meets_bind {m : Action ε σ α} {f : α → Action ε σ β} (h : Meets (m s) Q E)
    (k : ∀ a t, Q a t → Meets (f a t) R E) : Meets ((m >>= f) s) R E := by
  change Meets (match m s with
    | (.ok a, t) => f a t
    | (.error e, t) => (.error e, t)) R E
  rcases hm : m s with ⟨a | a, t⟩
  · simpa [hm] using h
  · exact k a t (by simpa [hm] using h)

theorem meets_bind_ok {m : Action ε σ α} {f : α → Action ε σ β} {a : α} {t : σ}
    (h : m s = (.ok a, t)) : Meets ((m >>= f) s) R E ↔ Meets (f a t) R E := by
  rw [bind_run_ok h]

theorem Meets.mono {r : Except ε α × σ} {Q' : α → σ → Prop} {E' : ε → σ → Prop}
    (h : Meets r Q E) (hq : ∀ a t, Q a t → Q' a t) (he : ∀ e t, E e t → E' e t) :
    Meets r Q' E' := by
  rcases r with ⟨a | a, t⟩
  · exact he a t h
  · exact hq a t h

theorem Meets.and {r : Except ε α × σ} {Q' : α → σ → Prop} {E' : ε → σ → Prop}
    (h : Meets r Q E) (k : Meets r Q' E') :
    Meets r (fun a t => Q a t ∧ Q' a t) (fun e t => E e t ∧ E' e t) := by
  rcases r with ⟨a | a, t⟩ <;> exact ⟨h, k⟩

/-- A condition on the final state alone does not ask which exit was taken. -/
theorem meets_state {r : Except ε α × σ} {I : σ → Prop} :
    Meets r (fun _ => I) (fun _ => I) ↔ I r.2 := by
  rcases r with ⟨a | a, t⟩ <;> rfl

end Outcomes

theorem Triple.bind {P : σ → Prop} {Q : α → σ → Prop} {R : β → σ → Prop} {E : ε → σ → Prop}
    {m : Action ε σ α} {f : α → Action ε σ β} (h : Triple P m Q E)
    (k : ∀ a, Triple (Q a) (f a) R E) : Triple P (m >>= f) R E :=
  fun s hs => meets_bind (h s hs) fun a t ha => k a t ha

end Fallible
