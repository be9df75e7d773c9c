import Mathlib.Logic.Basic
import Mathlib.Data.List.Basic

/-! Programs that call their environment: a program returns, or calls and goes on with the answer.
A monitor watches the calls of a run and says at each of them whether it may be made. -/
namespace Dialogue

inductive Prog (Call : Type) (Answer : Call → Type) (α : Type) where
  | ret (a : α)
  | ask (call : Call) (next : Answer call → Prog Call Answer α)

variable {Call : Type} {Answer : Call → Type} {ε σ α β μ : Type}

def Prog.bind : Prog Call Answer α → (α → Prog Call Answer β) → Prog Call Answer β
  | .ret a, f => f a
  | .ask call next, f => .ask call fun answer => (next answer).bind f

/-- Code with local variables, which keep their values when it fails. -/
def Body (Call : Type) (Answer : Call → Type) (ε σ α : Type) :=
  σ → Prog Call Answer (Except ε α × σ)

instance : Monad (Body Call Answer ε σ) where
  pure a := fun s => .ret (.ok a, s)
  bind m f := fun s => (m s).bind fun
    | (.ok a, t) => f a t
    | (.error e, t) => .ret (.error e, t)

def fail (e : ε) : Body Call Answer ε σ α := fun s => .ret (.error e, s)
def lift (r : Except ε α) : Body Call Answer ε σ α := fun s => .ret (r, s)
def get : Body Call Answer ε σ σ := fun s => .ret (.ok s, s)
def set (t : σ) : Body Call Answer ε σ Unit := fun _ => .ret (.ok (), t)

def ask (call : Call) : Body Call Answer ε σ (Answer call) :=
  fun s => .ask call fun answer => .ret (.ok answer, s)

/-- A scope that drops what it owns when it is left with an error. -/
def dropping (drop : Body Call Answer ε σ Unit) (body : Body Call Answer ε σ α) :
    Body Call Answer ε σ α := fun s => (body s).bind fun
  | (.ok a, t) => .ret (.ok a, t)
  | (.error e, t) => (drop t).bind fun r => .ret (.error e, r.2)

/-- The calls of a run with their answers, in order. -/
abbrev Log (Call : Type) (Answer : Call → Type) := List (Σ call : Call, Answer call)

/-- `Run p log q`: after the calls of `log`, what is left of `p` is `q`. -/
inductive Run : Prog Call Answer α → Log Call Answer → Prog Call Answer α → Prop where
  | here (p : Prog Call Answer α) : Run p [] p
  | ask {call : Call} {next : Answer call → Prog Call Answer α} {log : Log Call Answer}
      {q : Prog Call Answer α} (answer : Answer call) :
      Run (next answer) log q → Run (.ask call next) (⟨call, answer⟩ :: log) q

/-- What a watcher remembers of a run, and which calls it lets through. -/
structure Monitor (Call : Type) (Answer : Call → Type) (μ : Type) where
  allows : μ → Call → Prop
  after : μ → (call : Call) → Answer call → μ

def Monitor.state (m : Monitor Call Answer μ) (x : μ) (log : Log Call Answer) : μ :=
  log.foldl (fun y e => m.after y e.1 e.2) x

/-- Whatever the answers are, every call is let through, and a result meets `Q`. -/
def Obeys (m : Monitor Call Answer μ) (Q : α → μ → Prop) : Prog Call Answer α → μ → Prop
  | .ret a, x => Q a x
  | .ask call next, x => m.allows x call ∧ ∀ answer, Obeys m Q (next answer) (m.after x call answer)

section Rules

variable {m : Monitor Call Answer μ} {Q Q' : α → μ → Prop} {R : β → μ → Prop}
variable {p q : Prog Call Answer α} {x : μ}

theorem Obeys.mono (h : Obeys m Q p x) (hq : ∀ a y, Q a y → Q' a y) : Obeys m Q' p x := by
  induction p generalizing x with
  | ret a => exact hq a x h
  | ask call next ih => exact ⟨h.1, fun answer => ih answer (h.2 answer)⟩

theorem obeys_bind {f : α → Prog Call Answer β} (h : Obeys m Q p x)
    (hf : ∀ a y, Q a y → Obeys m R (f a) y) : Obeys m R (p.bind f) x := by
  induction p generalizing x with
  | ret a => exact hf a x h
  | ask call next ih => exact ⟨h.1, fun answer => ih answer (h.2 answer)⟩

/-- What holds of a program holds of what is left of it. -/
theorem Obeys.run {log : Log Call Answer} (h : Obeys m Q p x) (hr : Run p log q) :
    Obeys m Q q (m.state x log) := by
  induction hr generalizing x with
  | here => exact h
  | ask answer _ ih => exact ih (h.2 answer)

/-- What every permitted call keeps holds throughout a run. -/
theorem Obeys.invariant {I : μ → Prop} {log : Log Call Answer}
    (hI : ∀ y call answer, m.allows y call → I y → I (m.after y call answer))
    (h : Obeys m Q p x) (hr : Run p log q) (hx : I x) : I (m.state x log) := by
  induction hr generalizing x with
  | here => exact hx
  | ask answer _ ih => exact ih (h.2 answer) (hI _ _ answer h.1 hx)

/-- Every call of a run is let through at its place. -/
theorem Obeys.allowed {before after : Log Call Answer} {call : Call} {answer : Answer call}
    (h : Obeys m Q p x) (hr : Run p (before ++ ⟨call, answer⟩ :: after) q) :
    m.allows (m.state x before) call := by
  generalize hlog : before ++ ⟨call, answer⟩ :: after = log at hr
  induction hr generalizing x before with
  | here => exact absurd hlog (List.append_ne_nil_of_right_ne_nil _ (List.cons_ne_nil _ _))
  | @ask _ _ _ _ first _ ih =>
    cases before with
    | nil =>
      obtain ⟨heq, _⟩ := List.cons.inj hlog
      cases heq
      exact h.1
    | cons head tail =>
      obtain ⟨rfl, htail⟩ := List.cons.inj hlog
      have hrest := ih (h.2 first) htail
      exact hrest

end Rules

section Bodies

variable {m : Monitor Call Answer μ} {s : σ} {x : μ}
variable {Q : α → σ → μ → Prop} {R : β → σ → μ → Prop} {E E' : ε → σ → μ → Prop}

/-- A condition on the result of a body beside one on its error. -/
def Either (Q : α → σ → μ → Prop) (E : ε → σ → μ → Prop) : Except ε α × σ → μ → Prop
  | (.ok a, t), y => Q a t y
  | (.error e, t), y => E e t y

/-- A body started with the locals `s` obeys the monitor. -/
def Keeps (m : Monitor Call Answer μ) (body : Body Call Answer ε σ α) (Q : α → σ → μ → Prop)
    (E : ε → σ → μ → Prop) (s : σ) (x : μ) : Prop := Obeys m (Either Q E) (body s) x

theorem keeps_pure {a : α} (h : Q a s x) :
    Keeps m (pure a : Body Call Answer ε σ α) Q E s x := h

theorem keeps_fail {e : ε} (h : E e s x) :
    Keeps m (fail e : Body Call Answer ε σ α) Q E s x := h

theorem keeps_set {Q : Unit → σ → μ → Prop} {t : σ} (h : Q () t x) :
    Keeps m (set t : Body Call Answer ε σ Unit) Q E s x := h

theorem keeps_lift {r : Except ε α} (hok : ∀ a, r = .ok a → Q a s x)
    (herror : ∀ e, r = .error e → E e s x) :
    Keeps m (lift r : Body Call Answer ε σ α) Q E s x := by
  cases r with
  | ok a => exact hok a rfl
  | error e => exact herror e rfl

theorem keeps_ask {call : Call} {Q : Answer call → σ → μ → Prop} (hallowed : m.allows x call)
    (h : ∀ answer, Q answer s (m.after x call answer)) :
    Keeps m (ask call : Body Call Answer ε σ (Answer call)) Q E s x := ⟨hallowed, h⟩

theorem keeps_bind {body : Body Call Answer ε σ α} {f : α → Body Call Answer ε σ β}
    (h : Keeps m body Q E s x) (hf : ∀ a t y, Q a t y → Keeps m (f a) R E t y) :
    Keeps m (body >>= f) R E s x := by
  refine obeys_bind h ?_
  rintro ⟨e | a, t⟩ y hy
  · exact hy
  · exact hf a t y hy

theorem keeps_ask_bind {call : Call} {f : Answer call → Body Call Answer ε σ β}
    (hallowed : m.allows x call)
    (h : ∀ answer, Keeps m (f answer) R E s (m.after x call answer)) :
    Keeps m (ask call >>= f) R E s x := ⟨hallowed, h⟩

theorem keeps_lift_bind {r : Except ε α} {f : α → Body Call Answer ε σ β}
    (hok : ∀ a, r = .ok a → Keeps m (f a) R E s x) (herror : ∀ e, r = .error e → E e s x) :
    Keeps m (lift r >>= f) R E s x := by
  cases r with
  | ok a => exact hok a rfl
  | error e => exact herror e rfl

theorem keeps_get_bind {f : σ → Body Call Answer ε σ β} (h : Keeps m (f s) R E s x) :
    Keeps m (get >>= f) R E s x := h

theorem keeps_dropping {drop : Body Call Answer ε σ Unit} {body : Body Call Answer ε σ α}
    (h : Keeps m body Q E s x)
    (hdrop : ∀ e t y, E e t y → Keeps m drop (fun _ => E' e) (fun _ => E' e) t y) :
    Keeps m (dropping drop body) Q E' s x := by
  refine obeys_bind h ?_
  rintro ⟨e | a, t⟩ y hy
  · refine obeys_bind (hdrop e t y hy) ?_
    rintro ⟨_ | _, u⟩ z hz
    · exact hz
    · exact hz
  · exact hy

theorem Keeps.mono {body : Body Call Answer ε σ α} {Q' : α → σ → μ → Prop}
    (h : Keeps m body Q E s x) (hq : ∀ a t y, Q a t y → Q' a t y)
    (he : ∀ e t y, E e t y → E' e t y) : Keeps m body Q' E' s x := by
  refine Obeys.mono h ?_
  rintro ⟨e | a, t⟩ y hy
  · exact he e t y hy
  · exact hq a t y hy

end Bodies

end Dialogue
