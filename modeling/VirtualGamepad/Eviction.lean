import VirtualGamepad.MachineInt

/-! Bounded rings that evict their oldest item to make room: what entered has left, is held or was
evicted, and chained rings add up. -/
namespace Eviction

open MachineInt

variable {α : Type*} {entered left left' held held' : List α} {a : α} {m n : ℕ}

/-- What left and what is held came in, in this order, and `lost` counts the rest. -/
structure Accounted (entered left held : List α) (lost : ℕ) : Prop where
  in_order : (left ++ held).Sublist entered
  count : entered.length = left.length + held.length + lost

theorem accounted_empty : Accounted ([] : List α) [] [] 0 := ⟨.slnil, rfl⟩

theorem Accounted.push (h : Accounted entered left held n) (a : α) :
    Accounted (entered ++ [a]) left (held ++ [a]) n := by
  constructor
  · rw [← List.append_assoc]
    exact h.in_order.append_right [a]
  · have hcount := h.count
    simp only [List.length_append, List.length_singleton]
    omega

theorem Accounted.evict (h : Accounted entered left (a :: held) n) :
    Accounted entered left held (n + 1) := by
  constructor
  · exact ((List.sublist_cons_self a held).append_left left).trans h.in_order
  · have hcount := h.count
    rw [List.length_cons] at hcount
    omega

theorem Accounted.take (h : Accounted entered left held n) :
    Accounted entered (left ++ held) [] n := by
  constructor
  · rw [List.append_nil]
    exact h.in_order
  · have hcount := h.count
    rw [List.length_append, List.length_nil]
    omega

/-- What leaves the first ring enters the second. -/
theorem Accounted.chain (h : Accounted entered left held m) (k : Accounted left left' held' n) :
    Accounted entered left' (held' ++ held) (m + n) := by
  constructor
  · rw [← List.append_assoc]
    exact (k.in_order.append_right held).trans h.in_order
  · have hfirst := h.count
    have hsecond := k.count
    rw [List.length_append]
    omega

theorem Accounted.of_sublist {made : List α} (h : Accounted entered left held n)
    (hmade : entered.Sublist made) :
    Accounted made left held (n + (made.length - entered.length)) := by
  constructor
  · exact h.in_order.trans hmade
  · have hcount := h.count
    have hle := hmade.length_le
    omega

/-- A counter that sticks at its maximum. -/
def saturated (n : ℕ) : ℕ := min n u64Max

theorem saturated_succ (n : ℕ) : saturatingAdd (saturated n) 1 = saturated (n + 1) := by
  unfold saturatingAdd saturated
  omega

theorem saturated_add (m n : ℕ) :
    saturatingAdd (saturated m) (saturated n) = saturated (m + n) := by
  unfold saturatingAdd saturated
  omega

/-- A ring of `slots` with its counter. -/
structure Ring (slots : ℕ) (entered left held : List α) (dropped : ℕ) : Prop where
  accounted : ∃ lost, Accounted entered left held lost ∧ dropped = saturated lost
  room : held.length ≤ slots

variable {slots dropped : ℕ}

theorem ring_empty (slots : ℕ) : Ring slots ([] : List α) [] [] 0 :=
  ⟨⟨0, accounted_empty, rfl⟩, Nat.zero_le _⟩

theorem Ring.push (h : Ring slots entered left held dropped) (a : α) (hroom : held.length ≠ slots) :
    Ring slots (entered ++ [a]) left (held ++ [a]) dropped := by
  obtain ⟨⟨lost, haccounted, hdropped⟩, hle⟩ := h
  refine ⟨⟨lost, haccounted.push a, hdropped⟩, ?_⟩
  rw [List.length_append, List.length_singleton]
  omega

theorem Ring.evict (h : Ring slots entered left held dropped) (a : α) (hfull : held.length = slots)
    (hslots : 0 < slots) :
    Ring slots (entered ++ [a]) left (held.tail ++ [a]) (saturatingAdd dropped 1) := by
  obtain ⟨⟨lost, haccounted, rfl⟩, hle⟩ := h
  cases held with
  | nil => exact absurd hfull (by rw [List.length_nil]; omega)
  | cons oldest held =>
    refine ⟨⟨lost + 1, haccounted.evict.push a, saturated_succ lost⟩, ?_⟩
    rw [List.tail_cons, List.length_append, List.length_singleton]
    exact hfull.le

theorem Ring.take (h : Ring slots entered left held dropped) :
    Ring slots entered (left ++ held) [] dropped := by
  obtain ⟨⟨lost, haccounted, hdropped⟩, _⟩ := h
  exact ⟨⟨lost, haccounted.take, hdropped⟩, Nat.zero_le _⟩

end Eviction
