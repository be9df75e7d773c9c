import Mathlib.Data.List.Basic
import Mathlib.Tactic.Common

/-! Readers that take values off the front of a list. One that is inverse to an encoder takes off
exactly the code of what it returns, so of two inputs that are read to their end neither extends the
other. -/
namespace ByteReader

variable {ε τ α β : Type}

abbrev Reader (ε τ : Type) := StateT (List τ) (Except ε)

def fail (e : ε) : Reader ε τ α := fun _ => .error e

/-- The first `n` symbols, or nothing at all. -/
def take (e : ε) (n : ℕ) : Reader ε τ (List τ) := fun xs =>
  if n ≤ xs.length then .ok (xs.take n, xs.drop n) else .error e

/-- The values of `n` reads, first to last. -/
def replicate (r : Reader ε τ α) : (n : ℕ) → Reader ε τ (Vector α n)
  | 0 => pure #v[]
  | n + 1 => do
    let values ← replicate r n
    let value ← r
    return values.push value

/-- Reads one value and expects nothing behind it. -/
def complete (e : ε) (r : Reader ε τ α) (xs : List τ) : Except ε α :=
  match r xs with
  | .error e' => .error e'
  | .ok (a, rest) => if rest = [] then .ok a else .error e

/-- The reader and the encoder are inverse: it returns what stands encoded in front. -/
def Codes (r : Reader ε τ α) (enc : α → List τ) : Prop :=
  ∀ xs a rest, r xs = .ok (a, rest) ↔ xs = enc a ++ rest

section Runs

theorem bind_ok {r : Reader ε τ α} {f : α → Reader ε τ β} {xs rest : List τ} {b : β} :
    (r >>= f) xs = .ok (b, rest) ↔ ∃ a ys, r xs = .ok (a, ys) ∧ f a ys = .ok (b, rest) := by
  have hbind : (r >>= f) xs = (r xs).bind fun v => f v.1 v.2 := rfl
  rw [hbind]
  cases h : r xs with
  | error e => simp [Except.bind]
  | ok v =>
    constructor
    · intro hf
      exact ⟨v.1, v.2, rfl, hf⟩
    · rintro ⟨a, ys, hv, hf⟩
      cases hv
      exact hf

theorem pure_ok {a b : α} {xs rest : List τ} :
    (pure a : Reader ε τ α) xs = .ok (b, rest) ↔ a = b ∧ xs = rest := by
  change Except.ok (a, xs) = .ok (b, rest) ↔ _
  rw [Except.ok.injEq, Prod.mk.injEq]

theorem fail_ok {e : ε} {a : α} {xs rest : List τ} :
    (fail e : Reader ε τ α) xs = .ok (a, rest) ↔ False := by
  constructor
  · intro h
    cases h
  · exact False.elim

theorem take_ok {e : ε} {n : ℕ} {xs ys rest : List τ} :
    (take e n : Reader ε τ (List τ)) xs = .ok (ys, rest) ↔ ys.length = n ∧ xs = ys ++ rest := by
  unfold take
  constructor
  · intro h
    by_cases hn : n ≤ xs.length
    · rw [if_pos hn] at h
      cases h
      exact ⟨List.length_take_of_le hn, (List.take_append_drop n xs).symm⟩
    · rw [if_neg hn] at h
      cases h
  · rintro ⟨rfl, rfl⟩
    rw [if_pos (by rw [List.length_append]; omega), List.take_left, List.drop_left]

end Runs

section Codecs

variable {r : Reader ε τ α} {enc : α → List τ}

theorem Codes.bind_ok (h : Codes r enc) {f : α → Reader ε τ β} {xs rest : List τ} {b : β} :
    (r >>= f) xs = .ok (b, rest) ↔ ∃ a ys, xs = enc a ++ ys ∧ f a ys = .ok (b, rest) := by
  rw [ByteReader.bind_ok]
  constructor
  · rintro ⟨a, ys, hr, hf⟩
    exact ⟨a, ys, (h _ _ _).mp hr, hf⟩
  · rintro ⟨a, ys, hxs, hf⟩
    exact ⟨a, ys, (h _ _ _).mpr hxs, hf⟩

theorem Codes.replicate (h : Codes r enc) (n : ℕ) :
    Codes (ByteReader.replicate r n) fun v => v.toList.flatMap enc := by
  induction n with
  | zero =>
    intro xs v rest
    obtain rfl : v = #v[] := Vector.eq_empty
    change _ ↔ xs = [] ++ rest
    unfold ByteReader.replicate
    rw [pure_ok, List.nil_append]
    exact and_iff_right rfl
  | succ n ih =>
    intro xs v rest
    unfold ByteReader.replicate
    rw [ih.bind_ok]
    constructor
    · rintro ⟨values, ys, rfl, hrest⟩
      obtain ⟨value, zs, rfl, hpure⟩ := h.bind_ok.mp hrest
      obtain ⟨rfl, rfl⟩ := pure_ok.mp hpure
      dsimp only
      rw [Vector.toList_push, List.flatMap_append, List.flatMap_singleton, List.append_assoc]
    · intro hxs
      refine ⟨v.pop, enc v.back ++ rest, ?_, h.bind_ok.mpr ⟨v.back, rest, rfl, pure_ok.mpr ⟨?_, rfl⟩⟩⟩
      · rw [hxs, ← List.append_assoc]
        congr 1
        conv_lhs => rw [← Vector.push_pop_back v]
        dsimp only
        rw [Vector.toList_push, List.flatMap_append, List.flatMap_singleton]
      · exact Vector.push_pop_back v

end Codecs

section Complete

variable {r : Reader ε τ α} {e : ε} {xs : List τ} {a : α}

theorem complete_ok : complete e r xs = .ok a ↔ r xs = .ok (a, []) := by
  unfold complete
  split
  · next h => simp [h]
  · next h =>
    rw [h]
    split
    · next hrest => simp [hrest]
    · next hrest => simp [hrest]

end Complete

end ByteReader
