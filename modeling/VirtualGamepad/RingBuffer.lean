import Mathlib.Data.List.Basic
import Mathlib.Data.Nat.ModEq

/-! Circular buffers: the list of items from the tail on, for a ring that keeps a count and for
one that tells empty from full by an unused slot. -/
namespace RingBuffer

variable {α : Type*} {cell cell' : ℕ → α} {slots head tail n : ℕ} {x : α}

def next (slots i : ℕ) : ℕ := (i + 1) % slots

/-- The `n` items from `tail` on. -/
def contents (cell : ℕ → α) (slots : ℕ) : ℕ → ℕ → List α
  | _, 0 => []
  | tail, n + 1 => cell tail :: contents cell slots (next slots tail) n

/-- How many slots lie between the ends when one slot is never used. -/
def count (slots head tail : ℕ) : ℕ := (head + slots - tail) % slots

def items (cell : ℕ → α) (slots head tail : ℕ) : List α :=
  contents cell slots tail (count slots head tail)

theorem next_lt (h : 0 < slots) (i : ℕ) : next slots i < slots := Nat.mod_lt _ h

@[simp] theorem length_contents : (contents cell slots tail n).length = n := by
  induction n generalizing tail with
  | zero => rfl
  | succ n ih => simp [contents, ih]

theorem next_add (tail n : ℕ) : (next slots tail + n) % slots = (tail + (n + 1)) % slots := by
  unfold next
  rw [Nat.mod_add_mod]
  congr 1
  omega

theorem contents_congr (h : ∀ i < n, cell' ((tail + i) % slots) = cell ((tail + i) % slots))
    (ht : tail < slots) : contents cell' slots tail n = contents cell slots tail n := by
  induction n generalizing tail with
  | zero => rfl
  | succ n ih =>
    have hs : 0 < slots := by omega
    have h₀ := h 0 (by omega)
    rw [Nat.add_zero, Nat.mod_eq_of_lt ht] at h₀
    simp only [contents, h₀]
    congr 1
    refine ih ?_ (next_lt hs tail)
    intro i hi
    rw [next_add]
    exact h (i + 1) (by omega)

theorem contents_snoc (ht : tail < slots) :
    contents cell slots tail (n + 1) =
      contents cell slots tail n ++ [cell ((tail + n) % slots)] := by
  induction n generalizing tail with
  | zero => simp [contents, Nat.mod_eq_of_lt ht]
  | succ n ih =>
    have hs : 0 < slots := by omega
    rw [contents, ih (next_lt hs tail), next_add]
    rfl

/-- Distances below the ring's size tell its slots apart. -/
theorem slot_ne (tail : ℕ) {i j : ℕ} (hi : i < j) (hj : j < slots) :
    (tail + i) % slots ≠ (tail + j) % slots := by
  intro h
  have hm : i ≡ j [MOD slots] := Nat.ModEq.add_left_cancel' tail h
  have := hm.eq_of_lt_of_lt (by omega) hj
  omega

theorem count_lt (h : 0 < slots) (head tail : ℕ) : count slots head tail < slots :=
  Nat.mod_lt _ h

theorem count_of_le (hh : head < slots) (h : tail ≤ head) :
    count slots head tail = head - tail := by
  unfold count
  rw [show head + slots - tail = (head - tail) + slots by omega, Nat.add_mod_right,
    Nat.mod_eq_of_lt (by omega)]

theorem count_of_lt (ht : tail < slots) (h : head < tail) :
    count slots head tail = head + slots - tail := by
  unfold count
  exact Nat.mod_eq_of_lt (by omega)

theorem head_eq (hh : head < slots) (ht : tail < slots) :
    (tail + count slots head tail) % slots = head := by
  by_cases h : tail ≤ head
  · rw [count_of_le hh h, show tail + (head - tail) = head by omega, Nat.mod_eq_of_lt hh]
  · rw [count_of_lt ht (by omega), show tail + (head + slots - tail) = head + slots by omega,
      Nat.add_mod_right, Nat.mod_eq_of_lt hh]

theorem count_eq_zero (hh : head < slots) (ht : tail < slots) :
    count slots head tail = 0 ↔ tail = head := by
  by_cases h : tail ≤ head
  · rw [count_of_le hh h]; omega
  · rw [count_of_lt ht (by omega)]; omega

theorem next_of_lt {i : ℕ} (h : i + 1 < slots) : next slots i = i + 1 := Nat.mod_eq_of_lt h

theorem next_of_eq {i : ℕ} (h : i + 1 = slots) : next slots i = 0 := by
  unfold next
  rw [h, Nat.mod_self]

/-- The free slots, without the one that is never used. -/
theorem room (hh : head < slots) (ht : tail < slots) :
    (tail + slots - head - 1) % slots = slots - 1 - count slots head tail := by
  by_cases h : tail ≤ head
  · rw [count_of_le hh h, Nat.mod_eq_of_lt (by omega)]
    omega
  · rw [count_of_lt ht (by omega), show tail + slots - head - 1 = (tail - head - 1) + slots by omega,
      Nat.add_mod_right, Nat.mod_eq_of_lt (by omega)]
    omega

theorem count_push (hh : head < slots) (ht : tail < slots)
    (hc : count slots head tail + 1 < slots) :
    count slots (next slots head) tail = count slots head tail + 1 := by
  by_cases he : head + 1 = slots
  · rw [next_of_eq he]
    by_cases h : tail = 0
    · rw [count_of_le hh (by omega)] at hc
      omega
    · rw [count_of_lt ht (by omega), count_of_le hh (by omega)]
      omega
  · rw [next_of_lt (by omega)]
    by_cases h : tail ≤ head
    · rw [count_of_le (by omega) (by omega), count_of_le hh h]
      omega
    · rw [count_of_lt ht (by omega)] at hc ⊢
      rw [count_of_lt ht (by omega)]
      omega

theorem count_pop (hh : head < slots) (ht : tail < slots) (hne : tail ≠ head) :
    count slots head tail = count slots head (next slots tail) + 1 := by
  by_cases he : tail + 1 = slots
  · rw [next_of_eq he, count_of_lt ht (by omega), count_of_le hh (Nat.zero_le _)]
    omega
  · rw [next_of_lt (by omega)]
    by_cases h : tail ≤ head
    · rw [count_of_le hh h, count_of_le hh (by omega)]
      omega
    · rw [count_of_lt ht (by omega), count_of_lt (by omega) (by omega)]
      omega

@[simp] theorem length_items : (items cell slots head tail).length = count slots head tail :=
  length_contents

theorem items_self (hh : head < slots) : items cell slots head head = [] := by
  unfold items
  rw [(count_eq_zero hh hh).mpr rfl]
  rfl

theorem items_pop (hh : head < slots) (ht : tail < slots) (hne : tail ≠ head) :
    items cell slots head tail = cell tail :: items cell slots head (next slots tail) := by
  unfold items
  rw [count_pop hh ht hne]
  rfl

/-- Writing the head slot and moving on appends one item; the items before it are untouched. -/
theorem items_push (hh : head < slots) (ht : tail < slots)
    (hc : count slots head tail + 1 < slots) (hx : cell' head = x)
    (hcell : ∀ i < slots, i ≠ head → cell' i = cell i) :
    items cell' slots (next slots head) tail = items cell slots head tail ++ [x] := by
  have hs : 0 < slots := by omega
  unfold items
  rw [count_push hh ht hc, contents_snoc ht, head_eq hh ht, hx]
  congr 1
  refine contents_congr ?_ ht
  intro i hi
  refine hcell _ (Nat.mod_lt _ hs) ?_
  have hne := slot_ne tail hi (count_lt hs head tail)
  rwa [head_eq hh ht] at hne

end RingBuffer
