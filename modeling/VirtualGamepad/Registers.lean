import Mathlib.Data.List.Basic
import Mathlib.Data.List.Induction
import Mathlib.Order.Basic
import VirtualGamepad.Runs

/-! Registers that keep the last value they were given, and versions that count changes. The state is
built from a log of commands, one after the other. -/
namespace Registers

variable {σ α β : Type*}

/-- The last value that the commands have. -/
def latest (value : α → Option β) (commands : List α) : Option β := (commands.filterMap value).getLast?

/-- What a list of commands leaves behind. -/
def replay (step : σ → α → σ) (s : σ) (commands : List α) : σ := commands.foldl step s

/-- How many of the commands change the state. -/
def changes [DecidableEq σ] (step : σ → α → σ) (s : σ) : List α → ℕ
  | [] => 0
  | a :: commands => (if step s a = s then 0 else 1) + changes step (step s a) commands

variable {step : σ → α → σ} {s : σ} {a : α} {commands more : List α} {value : α → Option β}
  {register : σ → Option β} {version : σ → ℕ} {limit : ℕ}

@[simp] theorem latest_nil : latest value [] = none := rfl

theorem latest_concat : latest value (commands ++ [a]) = (value a).or (latest value commands) := by
  unfold latest
  rw [List.filterMap_append, List.filterMap_cons]
  cases value a with
  | none => simp
  | some b => simp

theorem latest_eq_some {b : β} (h : latest value commands = some b) : ∃ a ∈ commands, value a = some b := by
  unfold latest at h
  exact List.mem_filterMap.mp (List.mem_of_getLast? h)

@[simp] theorem replay_nil : replay step s [] = s := rfl

theorem replay_append : replay step s (commands ++ more) = replay step (replay step s commands) more :=
  List.foldl_append

theorem replay_concat : replay step s (commands ++ [a]) = step (replay step s commands) a := by
  rw [replay_append]
  rfl

section Versions

variable [DecidableEq σ]

theorem changes_append : changes step s (commands ++ more) =
    changes step s commands + changes step (replay step s commands) more := by
  induction commands generalizing s with
  | nil => simp [changes]
  | cons a commands ih =>
    change _ + changes step (step s a) (commands ++ more) = _
    rw [ih, ← Nat.add_assoc]
    rfl

/-- Without a change the state is the same. -/
theorem replay_unchanged (h : changes step s commands = 0) : replay step s commands = s := by
  induction commands generalizing s with
  | nil => rfl
  | cons a commands ih =>
    change (if step s a = s then 0 else 1) + changes step (step s a) commands = 0 at h
    have hstep : step s a = s := by
      by_contra hne
      rw [if_neg hne] at h
      omega
    rw [hstep, if_pos rfl, Nat.zero_add] at h
    change replay step (step s a) commands = s
    rw [hstep]
    exact ih h

/-- A command leaves the state as it is, or makes the next version of it. -/
def Versioned (step : σ → α → σ) (version : σ → ℕ) : Prop :=
  ∀ s a, step s a = s ∨ version (step s a) = version s + 1

omit [DecidableEq σ] in
theorem Versioned.le (h : Versioned step version) (s : σ) (a : α) : version s ≤ version (step s a) := by
  rcases h s a with hsame | hnext
  · exact Nat.le_of_eq (congrArg version hsame).symm
  · omega

theorem Versioned.counts (h : Versioned step version) :
    version (replay step s commands) = version s + changes step s commands := by
  induction commands generalizing s with
  | nil => rfl
  | cons a commands ih =>
    change version (replay step (step s a) commands) =
      version s + ((if step s a = s then 0 else 1) + changes step (step s a) commands)
    rw [ih]
    by_cases hsame : step s a = s
    · rw [hsame, if_pos rfl, Nat.zero_add]
    · rw [if_neg hsame, (h s a).resolve_left hsame, Nat.add_assoc]

/-- One version is one state. -/
theorem Versioned.same (h : Versioned step version)
    (heq : version (replay step s (commands ++ more)) = version (replay step s commands)) :
    replay step s (commands ++ more) = replay step s commands := by
  rw [replay_append, h.counts] at heq
  rw [replay_append]
  exact replay_unchanged (by omega)

end Versions

/-- A register takes the value that a command has for it, while the version is below its limit. -/
def Keeps (step : σ → α → σ) (version : σ → ℕ) (limit : ℕ) (register : σ → Option β)
    (value : α → Option β) : Prop :=
  ∀ s a, version s < limit → register (step s a) = (value a).or (register s)

/-- An empty register holds the last value of the log. -/
theorem Keeps.latest (h : Keeps step version limit register value) (hversion : Versioned step version)
    (hempty : register s = none) (hlimit : version (replay step s commands) < limit) :
    register (replay step s commands) = latest value commands := by
  induction commands using List.reverseRecOn with
  | nil => exact hempty
  | append_singleton commands a ih =>
    rw [replay_concat] at hlimit ⊢
    have hbelow := Nat.lt_of_le_of_lt (hversion.le (replay step s commands) a) hlimit
    rw [h _ a hbelow, ih hbelow, latest_concat]

section Stamps

open Runs

variable {ν : Type*} {Step : σ → α → σ → Prop} {t : σ} {see : σ → ν} {stamp : ν → ℕ} {size most : ℕ}

/-- A step leaves what is seen as it is, or moves its stamp on by a few, which goes around. -/
def Stamped (Step : σ → α → σ → Prop) (see : σ → ν) (stamp : ν → ℕ) (size most : ℕ) : Prop :=
  ∀ s a t, Step s a t → see t = see s ∨
    ∃ k, 1 ≤ k ∧ k ≤ most ∧ stamp (see t) = (stamp (see s) + k) % size

/-- How far the stamp has come in a run. -/
theorem Stamped.total (h : Stamped Step see stamp size most) (hrun : Run Step s commands t) :
    ∃ total, total ≤ most * commands.length ∧ stamp (see t) % size = (stamp (see s) + total) % size ∧
      (total = 0 → see t = see s) := by
  induction hrun with
  | nil => exact ⟨0, Nat.zero_le _, rfl, fun _ => rfl⟩
  | @snoc commands t a u _ hstep ih =>
    obtain ⟨total, hmost, hstamp, hsame⟩ := ih
    rw [List.length_append, List.length_singleton, Nat.mul_succ]
    rcases h t a u hstep with hkept | ⟨k, hpositive, hk, hmoved⟩
    · refine ⟨total, Nat.le_add_right_of_le hmost, ?_, ?_⟩
      · rw [hkept]
        exact hstamp
      · intro hzero
        rw [hkept]
        exact hsame hzero
    · refine ⟨total + k, Nat.add_le_add hmost hk, ?_, ?_⟩
      · rw [hmoved, Nat.mod_mod, Nat.add_mod, hstamp, ← Nat.add_mod, Nat.add_assoc]
      · intro hzero
        omega

/-- In a run that is too short to go around, one stamp is one view. -/
theorem Stamped.same (h : Stamped Step see stamp size most) (hrun : Run Step s commands t)
    (hshort : most * commands.length < size) (hstamp : stamp (see t) = stamp (see s)) :
    see t = see s := by
  obtain ⟨total, hmost, htotal, hsame⟩ := h.total hrun
  apply hsame
  rw [hstamp] at htotal
  have hround := Nat.sub_mod_eq_zero_of_mod_eq htotal.symm
  rwa [Nat.add_sub_cancel_left, Nat.mod_eq_of_lt (Nat.lt_of_le_of_lt hmost hshort)] at hround

end Stamps

end Registers
