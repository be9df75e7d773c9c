import Mathlib.Data.List.Basic

/-! Records of equal size stored back to back in one flat list. -/
namespace Slab

variable {α : Type*} {c i j n : ℕ} {xs ys : List α}

def slot (c : ℕ) (xs : List α) (i : ℕ) : List α := (xs.drop (i * c)).take c

def write (c : ℕ) (xs : List α) (i : ℕ) (ys : List α) : List α :=
  xs.take (i * c) ++ (ys ++ xs.drop (i * c + c))

/-- The first `n` records of a buffer. -/
def chunks (c : ℕ) : ℕ → List α → List (List α)
  | 0, _ => []
  | n + 1, xs => xs.take c :: chunks c n (xs.drop c)

theorem slot_end_le (h : i < n) : i * c + c ≤ n * c := by
  have := Nat.mul_le_mul_right c (Nat.succ_le_of_lt h)
  rwa [Nat.succ_mul] at this

theorem length_slot (h : i * c + c ≤ xs.length) : (slot c xs i).length = c := by
  unfold slot
  rw [List.length_take, List.length_drop]
  omega

theorem length_write (h : i * c + c ≤ xs.length) (hy : ys.length = c) :
    (write c xs i ys).length = xs.length := by
  unfold write
  simp only [List.length_append, List.length_take, List.length_drop, hy]
  omega

theorem slot_write_self (h : i * c + c ≤ xs.length) (hy : ys.length = c) :
    slot c (write c xs i ys) i = ys := by
  have hl : (xs.take (i * c)).length = i * c := by
    rw [List.length_take]
    omega
  unfold slot write
  rw [List.drop_append_of_le_length (by omega), List.drop_of_length_le (by omega),
    List.nil_append, List.take_append_of_le_length (by omega), List.take_of_length_le (by omega)]

theorem slot_write_ne (h : i * c + c ≤ xs.length) (hy : ys.length = c) (hne : j ≠ i) :
    slot c (write c xs i ys) j = slot c xs j := by
  have hl : (xs.take (i * c)).length = i * c := by
    rw [List.length_take]
    omega
  unfold slot write
  rcases Nat.lt_or_gt_of_ne hne with hlt | hgt
  · have hend : j * c + c ≤ i * c := slot_end_le hlt
    rw [List.drop_append_of_le_length (by omega), List.take_append_of_le_length (by
      rw [List.length_drop]; omega), List.drop_take, List.take_take, Nat.min_eq_left (by omega)]
  · have hend : i * c + c ≤ j * c := slot_end_le hgt
    obtain ⟨k, hk⟩ := Nat.exists_eq_add_of_le hend
    have h₁ : j * c = (xs.take (i * c)).length + (ys.length + k) := by omega
    have h₂ : j * c = i * c + c + k := by omega
    conv_lhs => rw [h₁, List.drop_length_add_append, List.drop_length_add_append]
    rw [List.drop_drop, h₂]

@[simp] theorem length_chunks : (chunks c n xs).length = n := by
  induction n generalizing xs with
  | zero => rfl
  | succ n ih => simp [chunks, ih]

theorem length_of_mem_chunks (h : n * c ≤ xs.length) : ∀ ys ∈ chunks c n xs, ys.length = c := by
  induction n generalizing xs with
  | zero => simp [chunks]
  | succ n ih =>
    rw [Nat.succ_mul] at h
    intro ys hy
    rcases List.mem_cons.mp hy with rfl | hy
    · rw [List.length_take]
      omega
    · refine ih ?_ ys hy
      rw [List.length_drop]
      omega

/-- Records laid out back to back are read back as they were. -/
theorem chunks_flatten (rs : List (List α)) (hr : ∀ r ∈ rs, r.length = c) (rest : List α) :
    chunks c rs.length (rs.flatten ++ rest) = rs := by
  induction rs with
  | nil => rfl
  | cons r rs ih =>
    have hl : r.length = c := hr r (by simp)
    simp only [List.length_cons, chunks, List.flatten_cons, List.append_assoc]
    rw [List.take_left' hl, List.drop_left' hl, ih fun r' h => hr r' (by simp [h])]

end Slab
