import VirtualGamepad.WireBytes

/-! Computations that return, fail or panic, and the slice operations that panic out of range. -/
namespace Panicking

inductive Outcome (ε α : Type) where
  | ok (a : α)
  | error (e : ε)
  | panicked
  deriving DecidableEq, Repr

variable {ε ε' α β : Type}

instance : Monad (Outcome ε) where
  pure := .ok
  bind r f :=
    match r with
    | .ok a => f a
    | .error e => .error e
    | .panicked => .panicked

def Outcome.lift : Except ε α → Outcome ε α
  | .ok a => .ok a
  | .error e => .error e

def Outcome.mapError (f : ε → ε') : Outcome ε α → Outcome ε' α
  | .ok a => .ok a
  | .error e => .error (f e)
  | .panicked => .panicked

/-- A computation known not to panic. -/
def Outcome.returned : (r : Outcome ε α) → r ≠ .panicked → Except ε α
  | .ok a, _ => .ok a
  | .error e, _ => .error e
  | .panicked, h => absurd rfl h

section Laws

variable {r : Outcome ε α} {f : α → Outcome ε β} {a : α}

@[simp] theorem pure_eq (a : α) : (pure a : Outcome ε α) = .ok a := rfl

@[simp] theorem ok_bind (a : α) (f : α → Outcome ε β) : (Outcome.ok a >>= f) = f a := rfl

@[simp] theorem error_bind (e : ε) (f : α → Outcome ε β) :
    ((Outcome.error e : Outcome ε α) >>= f) = .error e := rfl

@[simp] theorem panicked_bind (f : α → Outcome ε β) :
    ((Outcome.panicked : Outcome ε α) >>= f) = .panicked := rfl

/-- The outcome meets `Q` on success and `E` on failure, and is a panic only under `P`. -/
def Outcome.Yields (r : Outcome ε α) (Q : α → Prop) (E : ε → Prop) (P : Prop) : Prop :=
  match r with
  | .ok a => Q a
  | .error e => E e
  | .panicked => P

variable {Q Q' : α → Prop} {R : β → Prop} {E E' : ε → Prop} {P P' : Prop}

@[simp] theorem yields_ok : (Outcome.ok a : Outcome ε α).Yields Q E P ↔ Q a := Iff.rfl

@[simp] theorem yields_error {e : ε} : (Outcome.error e : Outcome ε α).Yields Q E P ↔ E e := Iff.rfl

@[simp] theorem yields_panicked : (Outcome.panicked : Outcome ε α).Yields Q E P ↔ P := Iff.rfl

theorem yields_bind (h : r.Yields Q E P) (k : ∀ a, Q a → (f a).Yields R E P) :
    (r >>= f).Yields R E P := by
  cases r with
  | ok a => exact k a h
  | error e => exact h
  | panicked => exact h

theorem Outcome.Yields.mono (h : r.Yields Q E P) (hq : ∀ a, Q a → Q' a) (he : ∀ e, E e → E' e)
    (hp : P → P') : r.Yields Q' E' P' := by
  cases r with
  | ok a => exact hq a h
  | error e => exact he e h
  | panicked => exact hp h

@[simp] theorem returned_eq_ok (h : r ≠ .panicked) : r.returned h = .ok a ↔ r = .ok a := by
  cases r with
  | ok b => simp [Outcome.returned]
  | error e => simp [Outcome.returned]
  | panicked => exact absurd rfl h

@[simp] theorem returned_eq_error {e : ε} (h : r ≠ .panicked) :
    r.returned h = .error e ↔ r = .error e := by
  cases r with
  | ok b => simp [Outcome.returned]
  | error e => simp [Outcome.returned]
  | panicked => exact absurd rfl h

theorem Outcome.Yields.ok_of_eq (h : r.Yields Q E P) (hr : r = .ok a) : Q a := by
  rw [hr] at h
  exact h

theorem Outcome.Yields.error_of_eq {e : ε} (h : r.Yields Q E P) (hr : r = .error e) : E e := by
  rw [hr] at h
  exact h

theorem Outcome.Yields.returns (h : r.Yields Q E False) : r ≠ .panicked := by
  rintro rfl
  exact h

end Laws

section Slices

open WireBytes

variable {xs ys : List α} {i start stop : ℕ}

/-- The element at an index. -/
def index (xs : List α) (i : ℕ) : Outcome ε α :=
  match xs[i]? with
  | some a => .ok a
  | none => .panicked

/-- The elements from `start` up to `stop`. -/
def range (xs : List α) (start stop : ℕ) : Outcome ε (List α) :=
  if start ≤ stop ∧ stop ≤ xs.length then .ok ((xs.drop start).take (stop - start)) else .panicked

/-- Overwrites a range with as many bytes. -/
def copyFromSlice (xs : List UInt8) (start stop : ℕ) (src : List UInt8) :
    Outcome ε (List UInt8) :=
  if start ≤ stop ∧ stop ≤ xs.length ∧ src.length = stop - start then .ok (overlay xs start src)
  else .panicked

/-- Replaces the element at an index. -/
def update (xs : List α) (i : ℕ) (f : α → α) : Outcome ε (List α) :=
  match xs[i]? with
  | some a => .ok (xs.set i (f a))
  | none => .panicked

theorem index_eq_ok (h : i < xs.length) : (index xs i : Outcome ε α) = .ok xs[i] := by
  unfold index
  rw [List.getElem?_eq_getElem h]

theorem range_eq_ok (h : start ≤ stop) (hstop : stop ≤ xs.length) :
    (range xs start stop : Outcome ε (List α)) = .ok ((xs.drop start).take (stop - start)) := by
  unfold range
  rw [if_pos ⟨h, hstop⟩]

theorem range_panics (h : xs.length < stop) :
    (range xs start stop : Outcome ε (List α)) = .panicked := by
  unfold range
  rw [if_neg]
  omega

theorem copyFromSlice_eq_ok {xs src : List UInt8} (h : start ≤ stop) (hstop : stop ≤ xs.length)
    (hsrc : src.length = stop - start) :
    (copyFromSlice xs start stop src : Outcome ε (List UInt8)) = .ok (overlay xs start src) := by
  unfold copyFromSlice
  rw [if_pos ⟨h, hstop, hsrc⟩]

end Slices

/-- A mutating call that may panic. What it mutated before a failure stays mutated. -/
def Action (ε σ α : Type) := σ → Outcome ε α × σ

variable {σ τ : Type}

instance : Monad (Action ε σ) where
  pure a := fun s => (.ok a, s)
  bind m f := fun s =>
    match m s with
    | (.ok a, t) => f a t
    | (.error e, t) => (.error e, t)
    | (.panicked, t) => (.panicked, t)

namespace Action

def fail (e : ε) : Action ε σ α := fun s => (.error e, s)
def get : Action ε σ σ := fun s => (.ok s, s)
def modify (f : σ → σ) : Action ε σ Unit := fun s => (.ok (), f s)
def lift (r : Outcome ε α) : Action ε σ α := fun s => (r, s)

/-- A call on a part of the state. -/
def zoom (view : σ → τ) (put : τ → σ → σ) (m : Action ε τ α) : Action ε σ α := fun s =>
  let (r, t) := m (view s)
  (r, put t s)

end Action

section Calls

open Panicking.Action

/-- The outcome of a call meets `Q` on success and `E` on failure, and is a panic only under `P`. -/
def Meets (r : Outcome ε α × σ) (Q : α → σ → Prop) (E : ε → σ → Prop) (P : Prop) : Prop :=
  r.1.Yields (fun a => Q a r.2) (fun e => E e r.2) P

variable {m : Action ε σ α} {f : α → Action ε σ β} {s t : σ} {a : α} {e : ε}
  {Q Q' : α → σ → Prop} {R : β → σ → Prop} {E E' : ε → σ → Prop} {P P' : Prop}

@[simp] theorem get_bind_run (f : σ → Action ε σ β) (s : σ) : (get >>= f) s = f s s := rfl

@[simp] theorem modify_bind_run (g : σ → σ) (f : Unit → Action ε σ β) (s : σ) :
    ((modify g : Action ε σ Unit) >>= f) s = f () (g s) := rfl

@[simp] theorem pure_bind_run (a : α) (f : α → Action ε σ β) (s : σ) :
    ((pure a : Action ε σ α) >>= f) s = f a s := rfl

@[simp] theorem lift_ok_bind_run (a : α) (f : α → Action ε σ β) (s : σ) :
    ((lift (.ok a) : Action ε σ α) >>= f) s = f a s := rfl

@[simp] theorem lift_error_bind_run (e : ε) (f : α → Action ε σ β) (s : σ) :
    ((lift (.error e) : Action ε σ α) >>= f) s = (.error e, s) := rfl

@[simp] theorem lift_panicked_bind_run (f : α → Action ε σ β) (s : σ) :
    ((lift .panicked : Action ε σ α) >>= f) s = (.panicked, s) := rfl

@[simp] theorem fail_bind_run (e : ε) (f : α → Action ε σ β) (s : σ) :
    ((fail e : Action ε σ α) >>= f) s = (.error e, s) := rfl

@[simp] theorem ite_run (c : Prop) [Decidable c] (m n : Action ε σ α) (s : σ) :
    (if c then m else n) s = if c then m s else n s := by
  split
  · rfl
  · rfl

theorem bind_run_ok (h : m s = (.ok a, t)) : (m >>= f) s = f a t := by
  simp only [bind, h]

theorem bind_run_error (h : m s = (.error e, t)) : (m >>= f) s = (.error e, t) := by
  simp only [bind, h]

theorem bind_run_panicked (h : m s = (.panicked, t)) : (m >>= f) s = (.panicked, t) := by
  simp only [bind, h]

@[simp] theorem meets_ok : Meets ((.ok a, t) : Outcome ε α × σ) Q E P ↔ Q a t := Iff.rfl

@[simp] theorem meets_error : Meets ((.error e, t) : Outcome ε α × σ) Q E P ↔ E e t := Iff.rfl

@[simp] theorem meets_panicked : Meets ((.panicked, t) : Outcome ε α × σ) Q E P ↔ P := Iff.rfl

/-- Sequencing: an early failure must already meet the error condition of the whole. -/
theorem meets_bind (h : Meets (m s) Q E P) (k : ∀ a t, Q a t → Meets (f a t) R E P) :
    Meets ((m >>= f) s) R E P := by
  rcases hm : m s with ⟨a | e | _, t⟩
  · rw [bind_run_ok hm]
    rw [hm] at h
    exact k a t h
  · rw [bind_run_error hm]
    rw [hm] at h
    exact h
  · rw [bind_run_panicked hm]
    rw [hm] at h
    exact h

theorem Meets.mono {r : Outcome ε α × σ} (h : Meets r Q E P) (hq : ∀ a t, Q a t → Q' a t)
    (he : ∀ e t, E e t → E' e t) (hp : P → P') : Meets r Q' E' P' :=
  Outcome.Yields.mono h (fun a => hq a r.2) (fun e => he e r.2) hp

theorem meets_lift_bind {r : Outcome ε α} {Q : α → Prop} {E₀ : ε → Prop}
    (h : r.Yields Q E₀ P) (he : ∀ e, E₀ e → E e s) (k : ∀ a, Q a → Meets (f a s) R E P) :
    Meets ((lift r >>= f) s) R E P := by
  cases r with
  | ok a => exact k a h
  | error e => exact he e h
  | panicked => exact h

end Calls

end Panicking
