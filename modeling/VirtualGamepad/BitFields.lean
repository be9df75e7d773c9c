import Mathlib.Algebra.Order.Ring.Nat
import Mathlib.Data.List.Basic
import VirtualGamepad.WireBytes

/-! Reports as fields of bits. The bits of a report are numbered through, in each byte from the
lowest on, so a field is a list of positions and may be scattered over several bytes. -/
namespace BitFields

open WireBytes (slice ofBytesLe bytesLe ofBytesLe_bytesLe)

def bitAt (bytes : List UInt8) (p : ℕ) : Bool := (bytes.getD (p / 8) 0).toNat.testBit (p % 8)

/-- The number with these binary digits, the lowest first. -/
def read (bytes : List UInt8) : List ℕ → ℕ
  | [] => 0
  | p :: ps => (bitAt bytes p).toNat + 2 * read bytes ps

/-- Neighbouring bits of one byte. -/
def span (byte first width : ℕ) : List ℕ := List.range' (8 * byte + first) width

/-- Whole bytes, the lowest first. -/
def whole (byte n : ℕ) : List ℕ := List.range' (8 * byte) (8 * n)

def part (b : UInt8) (first width : ℕ) : ℕ := b.toNat / 2 ^ first % 2 ^ width

/-- Where each field of a report stands, with what it has to say. -/
abbrev Layout := List (List ℕ × ℕ)

def Reads (bytes : List UInt8) (layout : Layout) : Prop :=
  ∀ field ∈ layout, read bytes field.1 = field.2

/-- Every field reads as it should, and no two of them share a bit. -/
structure Carries (bytes : List UInt8) (layout : Layout) : Prop where
  separate : (layout.map Prod.fst).flatten.Nodup
  reads : Reads bytes layout

/-- The two's complement of a word. -/
def twos (v : Int16) : ℕ := v.toUInt16.toNat

def bytesLayout (byte : ℕ) : List UInt8 → Layout
  | [] => []
  | b :: values => (span byte 0 8, b.toNat) :: bytesLayout (byte + 1) values

def wordsLayout (byte : ℕ) : List Int16 → Layout
  | [] => []
  | v :: values => (whole byte 2, twos v) :: wordsLayout (byte + 2) values

/-- The rest of a report from a position on, with these parts at their offsets and zeros between
them. -/
def assemble (size : ℕ) : ℕ → List (ℕ × List UInt8) → List UInt8
  | position, [] => List.replicate (size - position) 0
  | position, (offset, values) :: parts =>
    List.replicate (offset - position) 0 ++ (values ++ assemble size (offset + values.length) parts)

def flag (b : Bool) (i : UInt8) : UInt8 := b.toUInt8 <<< i

variable {bytes : List UInt8} {ps qs : List ℕ} {a b k : UInt8} {first width : ℕ}

theorem read_append : read bytes (ps ++ qs) = read bytes ps + 2 ^ ps.length * read bytes qs := by
  induction ps with
  | nil => simp [read]
  | cons p ps ih =>
    simp only [List.cons_append, read, ih, List.length_cons, pow_succ]
    rw [Nat.mul_add, ← Nat.mul_assoc, Nat.mul_comm 2 (2 ^ _), Nat.add_assoc]

theorem length_span (byte : ℕ) : (span byte first width).length = width := List.length_range'

/-- Within one byte, a field is a part of that byte. -/
theorem read_span (byte : ℕ) (h : first + width ≤ 8) :
    read bytes (span byte first width) = part (bytes.getD byte 0) first width := by
  induction width generalizing first with
  | zero => simp [read, span, part, Nat.mod_one]
  | succ width ih =>
    have hbyte : (8 * byte + first) / 8 = byte := by omega
    have hbit : (8 * byte + first) % 8 = first := by omega
    have hrest := @ih (first + 1) (by omega)
    unfold span at hrest ⊢
    rw [List.range'_succ, read, Nat.add_assoc (8 * byte), hrest, bitAt, hbyte, hbit,
      Nat.toNat_testBit]
    unfold part
    rw [pow_succ, pow_succ, Nat.mul_comm (2 ^ width), Nat.mod_mul, Nat.div_div_eq_div_mul]

theorem part_eq_iff {v : ℕ} (hv : v < 2 ^ width) :
    part b first width = v ↔ ∀ i < width, b.toNat.testBit (first + i) = v.testBit i := by
  have hbit (i : ℕ) : (part b first width).testBit i =
      (decide (i < width) && b.toNat.testBit (first + i)) := by
    rw [part, Nat.testBit_mod_two_pow, Nat.testBit_div_two_pow, Nat.add_comm]
  constructor
  · rintro rfl i hi
    simp [hbit, hi]
  · intro h
    apply Nat.eq_of_testBit_eq
    intro i
    by_cases hi : i < width
    · simp [hbit, hi, h]
    · have hlt : v < 2 ^ i := hv.trans_le (Nat.pow_le_pow_right (by decide) (by omega))
      simp [hbit, hi, Nat.testBit_lt_two_pow hlt]

theorem part_lt : part b first width < 2 ^ width := Nat.mod_lt _ (Nat.two_pow_pos width)

theorem testBit_part {i : ℕ} (hi : i < width) :
    (part b first width).testBit i = b.toNat.testBit (first + i) :=
  ((part_eq_iff part_lt).mp rfl i hi).symm

theorem part_or : part (a ||| b) first width = part a first width ||| part b first width := by
  unfold part
  rw [UInt8.toNat_or, ← Nat.shiftRight_eq_div_pow, ← Nat.shiftRight_eq_div_pow,
    ← Nat.shiftRight_eq_div_pow, Nat.shiftRight_or_distrib, Nat.or_mod_two_pow]

theorem part_mask (h : part b first width = 2 ^ width - 1) :
    part (a &&& b) first width = part a first width := by
  rw [part_eq_iff part_lt]
  intro i hi
  have hpos := Nat.two_pow_pos width
  have hb := (part_eq_iff (by omega)).mp h i hi
  simp [testBit_part hi, hb, hi]

theorem part_cleared (h : part b first width = 0) : part (a &&& b) first width = 0 := by
  rw [part_eq_iff (Nat.two_pow_pos width)]
  intro i hi
  have hb := (part_eq_iff (Nat.two_pow_pos width)).mp h i hi
  simp [hb]

theorem part_whole : part b 0 8 = b.toNat := by
  unfold part
  rw [pow_zero, Nat.div_one]
  exact Nat.mod_eq_of_lt b.toNat_lt

theorem part_fits (h : b.toNat < 2 ^ width) : part b 0 width = b.toNat := by
  unfold part
  rw [pow_zero, Nat.div_one]
  exact Nat.mod_eq_of_lt h

theorem part_small (h : b.toNat < 2 ^ first) : part b first width = 0 := by
  unfold part
  rw [Nat.div_eq_of_lt h, Nat.zero_mod]

theorem part_add (b : UInt8) (first m n : ℕ) :
    part b first (m + n) = part b first m + 2 ^ m * part b (first + m) n := by
  unfold part
  rw [pow_add, Nat.mod_mul, Nat.div_div_eq_div_mul, ← pow_add]

theorem part_shiftRight (hk : k.toNat < 8) :
    part (a >>> k) first width = part a (k.toNat + first) width := by
  unfold part
  rw [UInt8.toNat_shiftRight, Nat.mod_eq_of_lt hk, Nat.shiftRight_eq_div_pow,
    Nat.div_div_eq_div_mul, ← pow_add]

theorem testBit_shiftLeft (hk : k.toNat < 8) {i : ℕ} (hi : i < 8) :
    (a <<< k).toNat.testBit i = (decide (k.toNat ≤ i) && a.toNat.testBit (i - k.toNat)) := by
  rw [UInt8.toNat_shiftLeft, Nat.mod_eq_of_lt hk, Nat.testBit_mod_two_pow, Nat.testBit_shiftLeft]
  simp [hi]

/-- Above the shift stands what was shifted. -/
theorem part_shiftLeft (hk : k.toNat ≤ first) (h : first + width ≤ 8) (hw : 0 < width) :
    part (a <<< k) first width = part a (first - k.toNat) width := by
  rw [part_eq_iff part_lt]
  intro i hi
  rw [testBit_shiftLeft (by omega) (by omega), testBit_part hi]
  have hle : k.toNat ≤ first + i := by omega
  have hsub : first + i - k.toNat = first - k.toNat + i := by omega
  simp [hle, hsub]

theorem part_below (hk : k.toNat < 8) (h : first + width ≤ k.toNat) :
    part (a <<< k) first width = 0 := by
  rw [part_eq_iff (Nat.two_pow_pos width)]
  intro i hi
  rw [testBit_shiftLeft hk (by omega)]
  have hlt : ¬k.toNat ≤ first + i := by omega
  simp [hlt]

theorem toNat_toUInt8 (c : Bool) : c.toUInt8.toNat = c.toNat := by cases c <;> rfl

theorem part_flag {c : Bool} (hk : k.toNat < 8) (h : k.toNat = first) :
    part (flag c k) first 1 = c.toNat := by
  subst h
  unfold flag
  rw [part_shiftLeft (Nat.le_refl _) (by omega) (by decide), Nat.sub_self, part_fits,
    toNat_toUInt8]
  rw [toNat_toUInt8]
  exact c.toNat_lt

theorem part_flag_of_ne {c : Bool} (hk : k.toNat < 8) (hw : first + width ≤ 8)
    (h : k.toNat < first ∨ first + width ≤ k.toNat) : part (flag c k) first width = 0 := by
  unfold flag
  rcases h with h | h
  · by_cases h₀ : 0 < width
    · rw [part_shiftLeft (by omega) hw h₀, part_small]
      rw [toNat_toUInt8]
      have hpow : 2 ^ 1 ≤ 2 ^ (first - k.toNat) := Nat.pow_le_pow_right (by decide) (by omega)
      exact c.toNat_lt.trans_le hpow
    · obtain rfl : width = 0 := by omega
      exact Nat.mod_one _
  · exact part_below hk h

theorem read_whole {n : ℕ} (byte : ℕ) (h : byte + n ≤ bytes.length) :
    read bytes (whole byte n) = ofBytesLe (slice bytes byte n) := by
  induction n generalizing byte with
  | zero => simp [whole, read, slice, ofBytesLe]
  | succ n ih =>
    have hrest := ih (byte + 1) (by omega)
    have hsplit : whole byte (n + 1) = span byte 0 8 ++ whole (byte + 1) n := by
      have hnext : 8 * (byte + 1) = 8 * byte + 1 * 8 := by omega
      have hsize : 8 * (n + 1) = 8 + 8 * n := by omega
      unfold whole span
      rw [hnext, hsize, Nat.add_zero, List.range'_append]
    have hslice : slice bytes byte (n + 1) = bytes[byte] :: slice bytes (byte + 1) n := by
      unfold slice
      rw [List.drop_eq_getElem_cons (by omega), List.take_succ_cons]
    rw [hsplit, read_append, read_span _ (by decide), part_whole, length_span, hrest, hslice,
      ofBytesLe]
    simp [show byte < bytes.length by omega]

theorem read_bytesLe {n value : ℕ} (byte : ℕ) (h : slice bytes byte n = bytesLe n value)
    (hlen : byte + n ≤ bytes.length) (hv : value < 256 ^ n) :
    read bytes (whole byte n) = value := by
  rw [read_whole byte hlen, h, ofBytesLe_bytesLe hv]

variable {layout layout' : Layout}

theorem reads_nil : Reads bytes [] := by simp [Reads]

theorem reads_cons {field : List ℕ × ℕ} :
    Reads bytes (field :: layout) ↔ read bytes field.1 = field.2 ∧ Reads bytes layout := by
  simp [Reads]

theorem reads_append :
    Reads bytes (layout ++ layout') ↔ Reads bytes layout ∧ Reads bytes layout' := by
  simp only [Reads, List.mem_append, or_imp, forall_and]

theorem bytes_reads {values : List UInt8} (byte : ℕ)
    (h : slice bytes byte values.length = values) : Reads bytes (bytesLayout byte values) := by
  induction values generalizing byte with
  | nil => exact reads_nil
  | cons b values ih =>
    have hlen : byte < bytes.length := by
      by_contra hn
      unfold slice at h
      rw [List.drop_of_length_le (by omega)] at h
      simp at h
    unfold slice at h
    rw [List.drop_eq_getElem_cons hlen, List.length_cons, List.take_succ_cons] at h
    obtain ⟨hb, hrest⟩ := List.cons.inj h
    refine reads_cons.mpr ⟨?_, ih _ hrest⟩
    rw [read_span _ (by decide), part_whole]
    simp [hlen, hb]

theorem words_reads {values : List Int16} (byte : ℕ)
    (h : slice bytes byte (2 * values.length) = values.flatMap fun v => bytesLe 2 (twos v)) :
    Reads bytes (wordsLayout byte values) := by
  induction values generalizing byte with
  | nil => exact reads_nil
  | cons v values ih =>
    have hlength : (slice bytes byte (2 * (v :: values).length)).length =
        2 + 2 * values.length := by
      rw [h]
      simp [Nat.mul_comm]
    have hlen : byte + (2 + 2 * values.length) ≤ bytes.length := by
      simp only [slice, List.length_take, List.length_drop, List.length_cons] at hlength
      omega
    have hsize : 2 * (v :: values).length = 2 + 2 * values.length := by
      rw [List.length_cons]
      omega
    rw [hsize, ← WireBytes.slice_add, List.flatMap_cons] at h
    obtain ⟨hv, hrest⟩ := List.append_inj h (by simp [slice]; omega)
    exact reads_cons.mpr ⟨read_bytesLe byte hv (by omega) v.toUInt16.toNat_lt, ih _ hrest⟩

/-- Parts one behind the other, from a position on. -/
def Placed (size : ℕ) : ℕ → List (ℕ × List UInt8) → Prop
  | position, [] => position ≤ size
  | position, (offset, values) :: parts =>
    position ≤ offset ∧ Placed size (offset + values.length) parts

theorem Placed.le {size position : ℕ} {parts : List (ℕ × List UInt8)} (h : Placed size position parts) :
    position ≤ size := by
  induction parts generalizing position with
  | nil => exact h
  | cons part parts ih =>
    obtain ⟨hposition, hrest⟩ := h
    exact hposition.trans ((Nat.le_add_right _ _).trans (ih hrest))

theorem length_assemble {size position : ℕ} {parts : List (ℕ × List UInt8)}
    (h : Placed size position parts) : (assemble size position parts).length = size - position := by
  induction parts generalizing position with
  | nil => exact List.length_replicate
  | cons part parts ih =>
    obtain ⟨hposition, hrest⟩ := h
    have hle := hrest.le
    unfold assemble
    rw [List.length_append, List.length_append, List.length_replicate, ih hrest]
    omega

/-- Fields in the order of their places are easily seen to be disjoint. -/
theorem nodup_of_ascending (h : ps.IsChain (· < ·)) : ps.Nodup :=
  h.pairwise.imp Nat.ne_of_lt

theorem Reads.eq_map (h : Reads bytes layout) :
    layout = (layout.map Prod.fst).map fun positions => (positions, read bytes positions) := by
  induction layout with
  | nil => rfl
  | cons field layout ih =>
    obtain ⟨hfield, hrest⟩ := reads_cons.mp h
    rw [List.map_cons, List.map_cons, hfield, ← ih hrest]

/-- A report tells what stands in each place, and nothing else. -/
theorem carries_iff (h : Carries bytes layout)
    (hpositions : layout.map Prod.fst = layout'.map Prod.fst) :
    Carries bytes layout' ↔ layout = layout' := by
  constructor
  · intro h'
    rw [h.reads.eq_map, hpositions, ← h'.reads.eq_map]
  · rintro rfl
    exact h

end BitFields
