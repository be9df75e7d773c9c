import Mathlib.Algebra.Order.Ring.Nat
import Mathlib.Data.List.Basic
import Mathlib.Data.List.Induction
import Mathlib.Data.Int.Notation

/-! Fixed-width fields at fixed offsets of a byte string, big-endian for the network and
little-endian for the devices. -/
namespace WireBytes

def slice (xs : List UInt8) (offset n : ℕ) : List UInt8 := (xs.drop offset).take n

/-- Overwrites part of a byte string; the length stays when the field fits. -/
def overlay (xs : List UInt8) (offset : ℕ) (ys : List UInt8) : List UInt8 :=
  xs.take offset ++ (ys ++ xs.drop (offset + ys.length))

def ofBytes (bytes : List UInt8) : ℕ := bytes.foldl (fun acc b => acc * 256 + b.toNat) 0

def word (xs : List UInt8) (offset : ℕ) : ℕ := ofBytes (slice xs offset 4)

def bytes32 (value : ℕ) : List UInt8 :=
  [UInt8.ofNat (value / 2 ^ 24), UInt8.ofNat (value / 2 ^ 16), UInt8.ofNat (value / 2 ^ 8),
    UInt8.ofNat value]

/-- The bit pattern of a signed 32-bit value. -/
def bits32 (value : ℤ) : ℕ := (value % 2 ^ 32).toNat

def put (xs : List UInt8) (offset value : ℕ) : List UInt8 := overlay xs offset (bytes32 value)

variable {xs ys : List UInt8} {offset offset' m n value : ℕ}

theorem slice_take (h : offset + n ≤ m) : slice (xs.take m) offset n = slice xs offset n := by
  unfold slice
  rw [List.drop_take, List.take_take, Nat.min_eq_left (by omega)]

theorem slice_append (h : offset + n ≤ xs.length) :
    slice (xs ++ ys) offset n = slice xs offset n := by
  unfold slice
  rw [List.drop_append_of_le_length (by omega), List.take_append_of_le_length (by
    rw [List.length_drop]; omega)]

/-- Two fields side by side are one. -/
theorem slice_add (xs : List UInt8) (offset n m : ℕ) :
    slice xs offset n ++ slice xs (offset + n) m = slice xs offset (n + m) := by
  unfold slice
  rw [← List.drop_drop, List.take_add]

theorem word_take (h : offset + 4 ≤ m) : word (xs.take m) offset = word xs offset := by
  unfold word
  rw [slice_take h]

theorem length_overlay (h : offset + ys.length ≤ xs.length) :
    (overlay xs offset ys).length = xs.length := by
  unfold overlay
  simp only [List.length_append, List.length_take, List.length_drop]
  omega

theorem slice_overlay_self (ys : List UInt8) (h : offset ≤ xs.length) :
    slice (overlay xs offset ys) offset ys.length = ys := by
  have hl : (xs.take offset).length = offset := by
    rw [List.length_take]
    omega
  unfold slice overlay
  rw [List.drop_append_of_le_length (by omega), List.drop_of_length_le (by omega),
    List.nil_append, List.take_left]

/-- A field keeps its bytes when another one is written beside it. -/
theorem slice_overlay_of_disjoint (h : offset + ys.length ≤ xs.length)
    (hd : offset' + n ≤ offset ∨ offset + ys.length ≤ offset') :
    slice (overlay xs offset ys) offset' n = slice xs offset' n := by
  have hl : (xs.take offset).length = offset := by
    rw [List.length_take]
    omega
  unfold slice overlay
  rcases hd with hd | hd
  · rw [List.drop_append_of_le_length (by omega), List.take_append_of_le_length (by
      rw [List.length_drop]; omega), List.drop_take, List.take_take, Nat.min_eq_left (by omega)]
  · obtain ⟨k, hk⟩ := Nat.exists_eq_add_of_le hd
    have h₁ : offset' = (xs.take offset).length + (ys.length + k) := by omega
    conv_lhs => rw [h₁, List.drop_length_add_append, List.drop_length_add_append]
    rw [List.drop_drop, ← hk]

theorem length_slice (h : offset + n ≤ xs.length) : (slice xs offset n).length = n := by
  unfold slice
  rw [List.length_take, List.length_drop]
  omega

/-- A field is cut off behind what is already read. -/
theorem drop_slice (n : ℕ) : xs.drop offset = slice xs offset n ++ xs.drop (offset + n) := by
  unfold slice
  rw [← List.drop_drop, List.take_append_drop]

theorem slice_front (h : ys.length = n) : slice (ys ++ xs) 0 n = ys := by
  unfold slice
  rw [List.drop_zero, ← h, List.take_left]

theorem slice_behind (h : ys.length ≤ offset) :
    slice (ys ++ xs) offset n = slice xs (offset - ys.length) n := by
  unfold slice
  rw [List.drop_append, List.drop_of_length_le h, List.nil_append]

/-- A record of zeros is filled from the front. -/
theorem overlay_zeros {k : ℕ} (h : xs.length = offset) :
    overlay (xs ++ List.replicate k 0) offset ys =
      (xs ++ ys) ++ List.replicate (k - ys.length) 0 := by
  unfold overlay
  rw [← h, List.take_left, List.drop_length_add_append, List.drop_replicate, List.append_assoc]

@[simp] theorem length_bytes32 : (bytes32 value).length = 4 := rfl

theorem length_put (h : offset + 4 ≤ xs.length) : (put xs offset value).length = xs.length :=
  length_overlay h

theorem ofBytes_bytes32 (h : value < 2 ^ 32) : ofBytes (bytes32 value) = value := by
  simp only [ofBytes, bytes32, List.foldl_cons, List.foldl_nil, UInt8.toNat_ofNat']
  omega

theorem word_overlay_of_disjoint (h : offset + ys.length ≤ xs.length)
    (hd : offset' + 4 ≤ offset ∨ offset + ys.length ≤ offset') :
    word (overlay xs offset ys) offset' = word xs offset' := by
  unfold word
  rw [slice_overlay_of_disjoint h hd]

theorem word_put_self (h : offset ≤ xs.length) (hv : value < 2 ^ 32) :
    word (put xs offset value) offset = value := by
  unfold word put
  have hs := slice_overlay_self (bytes32 value) h
  rw [length_bytes32] at hs
  rw [hs, ofBytes_bytes32 hv]

theorem word_put_of_disjoint (h : offset + 4 ≤ xs.length)
    (hd : offset' + 4 ≤ offset ∨ offset + 4 ≤ offset') :
    word (put xs offset value) offset' = word xs offset' :=
  word_overlay_of_disjoint h hd

theorem bits32_lt (value : ℤ) : bits32 value < 2 ^ 32 := by
  unfold bits32
  omega

theorem ofBytes_append (bytes : List UInt8) (b : UInt8) :
    ofBytes (bytes ++ [b]) = ofBytes bytes * 256 + b.toNat := List.foldl_concat _ _ _ _

theorem ofBytes_lt (bytes : List UInt8) : ofBytes bytes < 256 ^ bytes.length := by
  induction bytes using List.reverseRecOn with
  | nil => decide
  | append_singleton bytes b ih =>
    have hb := b.toNat_lt
    rw [ofBytes_append, List.length_append, List.length_singleton, Nat.pow_succ]
    omega

theorem word_lt (xs : List UInt8) (offset : ℕ) : word xs offset < 2 ^ 32 := by
  have hl : (slice xs offset 4).length ≤ 4 := by
    unfold slice
    rw [List.length_take]
    omega
  calc word xs offset < 256 ^ (slice xs offset 4).length := ofBytes_lt _
    _ ≤ 256 ^ 4 := Nat.pow_le_pow_right (by decide) hl
    _ = 2 ^ 32 := by decide

section LittleEndian

def bytesLe : ℕ → ℕ → List UInt8
  | 0, _ => []
  | n + 1, value => UInt8.ofNat value :: bytesLe n (value / 256)

def ofBytesLe : List UInt8 → ℕ
  | [] => 0
  | b :: bytes => b.toNat + 256 * ofBytesLe bytes

@[simp] theorem length_bytesLe (n value : ℕ) : (bytesLe n value).length = n := by
  induction n generalizing value with
  | zero => rfl
  | succ n ih => rw [bytesLe, List.length_cons, ih]

theorem ofBytesLe_bytesLe (h : value < 256 ^ n) : ofBytesLe (bytesLe n value) = value := by
  induction n generalizing value with
  | zero =>
    rw [Nat.pow_zero] at h
    rw [bytesLe, ofBytesLe]
    omega
  | succ n ih =>
    have hrest : value / 256 < 256 ^ n := by
      rw [Nat.pow_succ] at h
      omega
    rw [bytesLe, ofBytesLe, ih hrest, UInt8.toNat_ofNat']
    omega

theorem ofBytesLe_lt (bytes : List UInt8) : ofBytesLe bytes < 256 ^ bytes.length := by
  induction bytes with
  | nil => decide
  | cons b bytes ih =>
    have hb := b.toNat_lt
    rw [ofBytesLe, List.length_cons, Nat.pow_succ]
    omega

theorem bytesLe_ofBytesLe (bytes : List UInt8) : bytesLe bytes.length (ofBytesLe bytes) = bytes := by
  induction bytes with
  | nil => rfl
  | cons b bytes ih =>
    have hb := b.toNat_lt
    have hlow : UInt8.ofNat (b.toNat + 256 * ofBytesLe bytes) = b := by
      apply UInt8.toNat_inj.mp
      rw [UInt8.toNat_ofNat']
      omega
    have hhigh : (b.toNat + 256 * ofBytesLe bytes) / 256 = ofBytesLe bytes := by omega
    rw [ofBytesLe, List.length_cons, bytesLe, hlow, hhigh, ih]

/-- The bytes of a number are the field that is read as it. -/
theorem bytesLe_slice (h : offset + n ≤ xs.length) :
    bytesLe n (ofBytesLe (slice xs offset n)) = slice xs offset n := by
  have hback := bytesLe_ofBytesLe (slice xs offset n)
  rwa [length_slice h] at hback

theorem slice_lt (n : ℕ) : ofBytesLe (slice xs offset n) < 256 ^ n := by
  have hlength : (slice xs offset n).length ≤ n := by
    unfold slice
    exact List.length_take_le _ _
  exact (ofBytesLe_lt _).trans_le (Nat.pow_le_pow_right (by decide) hlength)

end LittleEndian

end WireBytes
