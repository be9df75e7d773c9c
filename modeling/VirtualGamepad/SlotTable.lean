import Mathlib.Data.List.Perm.Basic

/-! Tables of a fixed number of slots, searched from the front: an entry goes to the first
free slot, and the first entry that satisfies a test can be taken out. -/
namespace SlotTable

variable {α : Type*} {slots slots' : List (Option α)} {x y : α} {p : α → Bool}

/-- The entries in slot order. -/
def live (slots : List (Option α)) : List α := slots.filterMap id

/-- Fills the first free slot. -/
def insert (x : α) : List (Option α) → Option (List (Option α))
  | [] => none
  | none :: slots => some (some x :: slots)
  | some y :: slots => (insert x slots).map (some y :: ·)

/-- Empties the first slot whose entry passes the test. -/
def take (p : α → Bool) : List (Option α) → Option (α × List (Option α))
  | [] => none
  | none :: slots => (take p slots).map fun r => (r.1, none :: r.2)
  | some y :: slots =>
    if p y then some (y, none :: slots) else (take p slots).map fun r => (r.1, some y :: r.2)

@[simp] theorem live_nil : live ([] : List (Option α)) = [] := rfl

@[simp] theorem live_none_cons : live (none :: slots) = live slots := rfl

@[simp] theorem live_some_cons : live (some x :: slots) = x :: live slots := rfl

theorem live_length_le (slots : List (Option α)) : (live slots).length ≤ slots.length :=
  List.length_filterMap_le _ _

@[simp] theorem live_replicate_none (n : ℕ) : live (List.replicate n (none : Option α)) = [] := by
  induction n with
  | zero => rfl
  | succ n ih => rw [List.replicate_succ, live_none_cons, ih]

theorem insert_none (h : insert x slots = none) : ∀ s ∈ slots, s.isSome := by
  induction slots with
  | nil => simp
  | cons s slots ih =>
    cases s with
    | none => cases h
    | some y =>
      rw [insert, Option.map_eq_none_iff] at h
      intro s hs
      rcases List.mem_cons.mp hs with rfl | hs
      · rfl
      · exact ih h s hs

theorem insert_some (h : insert x slots = some slots') :
    slots'.length = slots.length ∧ (live slots').Perm (x :: live slots) := by
  induction slots generalizing slots' with
  | nil => cases h
  | cons s slots ih =>
    cases s with
    | none =>
      cases h
      exact ⟨rfl, List.Perm.refl _⟩
    | some y =>
      rw [insert, Option.map_eq_some_iff] at h
      obtain ⟨rest, hr, rfl⟩ := h
      obtain ⟨hl, hp⟩ := ih hr
      refine ⟨by simp [hl], ?_⟩
      exact (hp.cons y).trans (List.Perm.swap x y _)

theorem take_none (h : take p slots = none) : ∀ y ∈ live slots, p y = false := by
  induction slots with
  | nil => simp
  | cons s slots ih =>
    cases s with
    | none =>
      rw [take, Option.map_eq_none_iff] at h
      exact ih h
    | some y =>
      rw [take] at h
      split at h
      · cases h
      · next hy =>
        rw [Option.map_eq_none_iff] at h
        intro z hz
        rcases List.mem_cons.mp hz with rfl | hz
        · simpa using hy
        · exact ih h z hz

theorem take_some (h : take p slots = some (x, slots')) :
    p x = true ∧ slots'.length = slots.length ∧ (live slots).Perm (x :: live slots') := by
  induction slots generalizing slots' with
  | nil => cases h
  | cons s slots ih =>
    cases s with
    | none =>
      rw [take, Option.map_eq_some_iff] at h
      obtain ⟨⟨y, rest⟩, hr, he⟩ := h
      cases he
      obtain ⟨hp, hl, hperm⟩ := ih hr
      exact ⟨hp, by simp [hl], hperm⟩
    | some y =>
      rw [take] at h
      split at h
      · next hy =>
        cases h
        exact ⟨hy, rfl, List.Perm.refl _⟩
      · rw [Option.map_eq_some_iff] at h
        obtain ⟨⟨z, rest⟩, hr, he⟩ := h
        cases he
        obtain ⟨hp, hl, hperm⟩ := ih hr
        exact ⟨hp, by simp [hl], (hperm.cons y).trans (List.Perm.swap z y _)⟩

/-- What filling the first free slot does to the list of entries. -/
theorem insert_splice (h : insert x slots = some slots') :
    ∃ a b, live slots = a ++ b ∧ live slots' = a ++ x :: b := by
  induction slots generalizing slots' with
  | nil => cases h
  | cons s slots ih =>
    cases s with
    | none =>
      cases h
      exact ⟨[], live slots, rfl, rfl⟩
    | some y =>
      rw [insert, Option.map_eq_some_iff] at h
      obtain ⟨rest, hr, rfl⟩ := h
      obtain ⟨a, b, ha, hb⟩ := ih hr
      exact ⟨y :: a, b, by simp [ha], by simp [hb]⟩

/-- What writing one occupied slot does to the list of entries. -/
theorem set_splice {i : ℕ} (h : slots[i]? = some (some x)) :
    ∃ a b, live slots = a ++ x :: b ∧ live (slots.set i none) = a ++ b ∧
      ∀ y, live (slots.set i (some y)) = a ++ y :: b := by
  induction slots generalizing i with
  | nil => cases h
  | cons s slots ih =>
    cases i with
    | zero =>
      obtain rfl := Option.some.inj h
      exact ⟨[], live slots, rfl, rfl, fun y => rfl⟩
    | succ i =>
      obtain ⟨a, b, hl, hn, hs⟩ := ih h
      cases s with
      | none => exact ⟨a, b, hl, hn, hs⟩
      | some z => exact ⟨z :: a, b, by simp [hl], by simp [hn], fun y => by simp [hs]⟩

/-- Empties every slot whose entry passes the test. -/
def clear (p : α → Bool) (slots : List (Option α)) : List (Option α) :=
  slots.map fun s => s.filter fun x => !p x

theorem live_clear : live (clear p slots) = (live slots).filter fun x => !p x := by
  induction slots with
  | nil => rfl
  | cons s slots ih =>
    cases s with
    | none => exact ih
    | some x =>
      have hc : clear p (some x :: slots) = (some x).filter (fun y => !p y) :: clear p slots := rfl
      rw [hc, live_some_cons, List.filter_cons, ← ih, Option.filter_some]
      split <;> rfl

/-- Compares two keys by their first component, then by their second. -/
def Earlier (k l : ℕ × ℕ) : Prop := k.1 < l.1 ∨ (k.1 = l.1 ∧ k.2 < l.2)

instance (k l : ℕ × ℕ) : Decidable (Earlier k l) := inferInstanceAs (Decidable (_ ∨ _))

/-- The first slot with the least key among the entries that pass the test. -/
def pick (key : α → ℕ × ℕ) (p : α → Bool) : ℕ → List (Option α) → Option (ℕ × α)
  | _, [] => none
  | i, s :: slots =>
    match s.filter p, pick key p (i + 1) slots with
    | none, r => r
    | some x, none => some (i, x)
    | some x, some (j, y) => if Earlier (key y) (key x) then some (j, y) else some (i, x)

variable {key : α → ℕ × ℕ} {i j : ℕ}

theorem pick_none (h : pick key p i slots = none) : ∀ x ∈ live slots, p x = false := by
  induction slots generalizing i with
  | nil => simp
  | cons s slots ih =>
    rw [pick] at h
    split at h
    · next hs =>
      have hrest := ih h
      cases s with
      | none => exact hrest
      | some y =>
        intro x hx
        rcases List.mem_cons.mp hx with rfl | hx
        · simpa using hs
        · exact hrest x hx
    · cases h
    · split at h <;> cases h

theorem pick_some (h : pick key p i slots = some (j, x)) :
    ∃ n, j = i + n ∧ slots[n]? = some (some x) ∧ p x = true ∧
      ∀ y ∈ live slots, p y = true → ¬ Earlier (key y) (key x) := by
  induction slots generalizing i j x with
  | nil => cases h
  | cons s slots ih =>
    rw [pick] at h
    split at h
    · next hs =>
      obtain ⟨n, rfl, hn, hx, hmin⟩ := ih h
      refine ⟨n + 1, by omega, hn, hx, ?_⟩
      cases s with
      | none => exact hmin
      | some z =>
        intro y hy hpy
        rcases List.mem_cons.mp hy with rfl | hy
        · simp [hpy] at hs
        · exact hmin y hy hpy
    · next z hz hr =>
      obtain ⟨rfl, rfl⟩ := Prod.mk.inj (Option.some.inj h)
      obtain ⟨rfl, hpz⟩ := Option.filter_eq_some_iff.mp hz
      refine ⟨0, rfl, rfl, hpz, ?_⟩
      intro y hy hpy
      rcases List.mem_cons.mp hy with rfl | hy
      · simp [Earlier]
      · simp [pick_none hr y hy] at hpy
    · next z k y hz hr =>
      obtain ⟨rfl, hpz⟩ := Option.filter_eq_some_iff.mp hz
      obtain ⟨n, hk, hn, hy, hmin⟩ := ih hr
      split at h
      · next hlt =>
        obtain ⟨rfl, rfl⟩ := Prod.mk.inj (Option.some.inj h)
        refine ⟨n + 1, by omega, hn, hy, ?_⟩
        intro u hu hpu
        rcases List.mem_cons.mp hu with rfl | hu
        · unfold Earlier at *
          omega
        · exact hmin u hu hpu
      · next hge =>
        obtain ⟨rfl, rfl⟩ := Prod.mk.inj (Option.some.inj h)
        refine ⟨0, rfl, rfl, hpz, ?_⟩
        intro u hu hpu
        rcases List.mem_cons.mp hu with rfl | hu
        · simp [Earlier]
        · have := hmin u hu hpu
          unfold Earlier at *
          omega

end SlotTable
