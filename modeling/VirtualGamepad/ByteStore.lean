import VirtualGamepad.WireBytes

/-! A bounded store of bytes: writes that do not lie in it are refused, and a mark tells whether a write has
changed anything. -/
namespace ByteStore

open WireBytes

structure Write where
  address : ℕ
  data : List UInt8
  deriving DecidableEq, Repr

/-- An image of bytes, marked once a write has changed one. -/
structure Image where
  bytes : List UInt8
  dirty : Bool
  deriving DecidableEq, Repr

/-- The bytes of a write lie in the image. -/
def Image.Holds (e : Image) (s : Write) : Prop := s.address + s.data.length ≤ e.bytes.length

instance (e : Image) (s : Write) : Decidable (e.Holds s) := inferInstanceAs (Decidable (_ ≤ _))

/-- A write that does not lie in the image leaves it alone. -/
def Image.put (e : Image) (s : Write) : Image :=
  if e.Holds s then
    ⟨overlay e.bytes s.address s.data, e.dirty || decide (overlay e.bytes s.address s.data ≠ e.bytes)⟩
  else e

theorem Image.length_put (e : Image) (s : Write) : (e.put s).bytes.length = e.bytes.length := by
  unfold put
  split
  · next h => exact length_overlay h
  · rfl

theorem Image.length_puts (e : Image) (writes : List Write) :
    (writes.foldl put e).bytes.length = e.bytes.length := by
  induction writes generalizing e with
  | nil => rfl
  | cons s writes ih => rw [List.foldl_cons, ih, length_put]

/-- The mark tells whether one of the writes has changed a byte. -/
theorem Image.dirty_puts (e : Image) (writes : List Write) : (writes.foldl put e).dirty = true ↔
    e.dirty = true ∨ ∃ earlier s later, writes = earlier ++ s :: later ∧
      ((earlier.foldl put e).put s).bytes ≠ (earlier.foldl put e).bytes := by
  induction writes using List.reverseRecOn with
  | nil => simp
  | append_singleton writes s ih =>
    have hlast : ((writes.foldl put e).put s).dirty = true ↔ (writes.foldl put e).dirty = true ∨
        ((writes.foldl put e).put s).bytes ≠ (writes.foldl put e).bytes := by
      unfold put
      split
      · simp
      · simp
    rw [List.foldl_append]
    change ((writes.foldl put e).put s).dirty = true ↔ _
    rw [hlast, ih, or_assoc]
    refine or_congr_right ?_
    constructor
    · rintro (⟨earlier, s', later, rfl, hchange⟩ | hchange)
      · exact ⟨earlier, s', later ++ [s], by simp, hchange⟩
      · exact ⟨writes, s, [], rfl, hchange⟩
    · rintro ⟨earlier, s', later, heq, hchange⟩
      rcases List.eq_nil_or_concat later with rfl | ⟨front, last, rfl⟩
      · obtain ⟨rfl, hs⟩ := List.append_inj' heq rfl
        obtain rfl := List.head_eq_of_cons_eq hs
        exact .inr hchange
      · rw [List.concat_eq_append, ← List.cons_append, ← List.append_assoc] at heq
        obtain ⟨rfl, _⟩ := List.append_inj' heq rfl
        exact .inl ⟨earlier, s', front, rfl, hchange⟩

/-- A write that lies in the image and sets a byte of it. -/
def Image.Covers (e : Image) (s : Write) (i : ℕ) : Prop :=
  e.Holds s ∧ s.address ≤ i ∧ i < s.address + s.data.length

instance (e : Image) (s : Write) (i : ℕ) : Decidable (e.Covers s i) := inferInstanceAs (Decidable (_ ∧ _))

/-- A byte is the one of the last write that covers it, or the first image's. -/
def Image.lastAt (e : Image) (writes : List Write) (i : ℕ) : Option UInt8 :=
  match writes.reverse.find? fun s => e.Covers s i with
  | some s => s.data[i - s.address]?
  | none => e.bytes[i]?

theorem Image.getElem?_put (e : Image) (s : Write) (i : ℕ) : (e.put s).bytes[i]? =
    if e.Covers s i then s.data[i - s.address]? else e.bytes[i]? := by
  unfold put
  by_cases h : e.Holds s
  · have hfront : (e.bytes.take s.address).length = s.address := by
      have hfits : s.address + s.data.length ≤ e.bytes.length := h
      rw [List.length_take]
      omega
    rw [if_pos h]
    change (overlay e.bytes s.address s.data)[i]? = _
    unfold overlay
    by_cases hlow : s.address ≤ i
    · rw [List.getElem?_append_right (hfront.trans_le hlow), hfront]
      by_cases hhigh : i < s.address + s.data.length
      · have hcovers : e.Covers s i := ⟨h, hlow, hhigh⟩
        rw [if_pos hcovers, List.getElem?_append_left (by omega)]
      · rw [if_neg fun hcovers => hhigh hcovers.2.2, List.getElem?_append_right (by omega), List.getElem?_drop]
        congr 1
        omega
    · rw [if_neg fun hcovers => hlow hcovers.2.1, List.getElem?_append_left (by omega),
        List.getElem?_take_of_lt (by omega)]
  · rw [if_neg h, if_neg fun hcovers => h hcovers.1]

theorem Image.covers_puts (e : Image) (writes : List Write) (s : Write) (i : ℕ) :
    (writes.foldl put e).Covers s i ↔ e.Covers s i := by
  unfold Covers Holds
  rw [length_puts]

theorem Image.getElem?_puts (e : Image) (writes : List Write) (i : ℕ) :
    (writes.foldl put e).bytes[i]? = e.lastAt writes i := by
  induction writes using List.reverseRecOn with
  | nil => rfl
  | append_singleton writes s ih =>
    rw [List.foldl_append]
    change ((writes.foldl put e).put s).bytes[i]? = _
    rw [getElem?_put, ih]
    unfold lastAt
    rw [List.reverse_append, List.reverse_singleton, List.singleton_append]
    by_cases hcovers : e.Covers s i
    · rw [if_pos ((covers_puts e writes s i).mpr hcovers), List.find?_cons_of_pos (by simpa using hcovers)]
    · rw [if_neg fun h => hcovers ((covers_puts e writes s i).mp h),
        List.find?_cons_of_neg (by simpa using hcovers)]

end ByteStore
