import VirtualGamepad.SonyInput

/-! The standard input report of a Switch Pro Controller. -/
namespace SwitchInput

open BitFields SonyInput
open NativeState (MotionSample i16Bytes DualSenseState DualShock4State)

structure SwitchProState where
  face : Vector Bool 4
  dpad : Vector Bool 4
  left : Int16 × Int16
  right : Int16 × Int16
  buttons : Vector Bool 10
  motion : MotionSample
  timer : UInt8
  streamEnabled : Bool
  deriving DecidableEq, Repr

def SwitchProState.default : SwitchProState where
  face := .replicate 4 false
  dpad := .replicate 4 false
  left := (0, 0)
  right := (0, 0)
  buttons := .replicate 10 false
  motion := ⟨.replicate 3 0, .replicate 3 0⟩
  timer := 0
  streamEnabled := false

section Frame

/-- Sixteen bits scaled down to twelve. -/
def stick (v : Int16) : UInt16 :=
  UInt16.ofNat (((v.toInt + 32768) * 4095 + 32767) / 65535).toNat

def pack (x y : Int16) : List UInt8 :=
  let x := stick x
  let y := stick y
  [x.toUInt8, ((x >>> 8).toUInt8 &&& (0x0f : UInt8)) ||| (y.toUInt8 &&& (0x0f : UInt8)) <<< (4 : UInt8),
    (y >>> 4).toUInt8]

def switchFrame (s : SwitchProState) : HidInput :=
  let face := s.face
  let dpad := s.dpad
  let buttons := s.buttons
  let accelerometer := s.motion.accelerometer
  let gyroscope := s.motion.gyroscope
  let sample := [accelerometer[1]! / 4, wrappingNeg accelerometer[0]! / 4, accelerometer[2]! / 4,
    gyroscope[1]!, wrappingNeg gyroscope[0]!, gyroscope[2]!]
  ⟨some 0x30, assemble 63 0 [
    (0, [s.timer]),
    (1, [0x80]),
    -- The printed labels are the reverse of the layout of a host gamepad.
    (2, [flag face[2]! 0 ||| flag face[3]! 1 ||| flag face[0]! 2 ||| flag face[1]! 3 |||
      flag buttons[1]! 6 ||| flag buttons[3]! 7]),
    (3, [flag buttons[4]! 0 ||| flag buttons[5]! 1 ||| flag buttons[9]! 2 ||| flag buttons[8]! 3 |||
      flag buttons[6]! 4 ||| flag buttons[7]! 5]),
    (4, [flag dpad[1]! 0 ||| flag dpad[0]! 1 ||| flag dpad[3]! 2 ||| flag dpad[2]! 3 |||
      flag buttons[0]! 6 ||| flag buttons[2]! 7]),
    -- The host negates the vertical axes once more.
    (5, pack s.left.1 (saturatingNeg s.left.2)),
    (8, pack s.right.1 (saturatingNeg s.right.2)),
    (11, [9]),
    (12, (sample ++ sample ++ sample).flatMap i16Bytes)]⟩

end Frame

section Layouts

def stickLayout (byte : ℕ) (x y : Int16) : Layout :=
  [(span byte 0 8 ++ span (byte + 1) 0 4, (stick x).toNat),
    (span (byte + 1) 4 4 ++ span (byte + 2) 0 8, (stick y).toNat)]

def sample (negate : Int16 → Int16) (motion : MotionSample) : List Int16 :=
  [motion.accelerometer[1]! / 4, negate motion.accelerometer[0]! / 4,
    motion.accelerometer[2]! / 4, motion.gyroscope[1]!, negate motion.gyroscope[0]!,
    motion.gyroscope[2]!]

def switchLayout (negate : Int16 → Int16) (s : SwitchProState) : Layout :=
  bytesLayout 0 [s.timer, 0x80] ++
  [(span 2 0 1, s.face[2]!.toNat), (span 2 1 1, s.face[3]!.toNat), (span 2 2 1, s.face[0]!.toNat),
    (span 2 3 1, s.face[1]!.toNat), (span 2 6 1, s.buttons[1]!.toNat),
    (span 2 7 1, s.buttons[3]!.toNat)] ++
  [(span 3 0 1, s.buttons[4]!.toNat), (span 3 1 1, s.buttons[5]!.toNat),
    (span 3 2 1, s.buttons[9]!.toNat), (span 3 3 1, s.buttons[8]!.toNat),
    (span 3 4 1, s.buttons[6]!.toNat), (span 3 5 1, s.buttons[7]!.toNat)] ++
  [(span 4 0 1, s.dpad[1]!.toNat), (span 4 1 1, s.dpad[0]!.toNat), (span 4 2 1, s.dpad[3]!.toNat),
    (span 4 3 1, s.dpad[2]!.toNat), (span 4 6 1, s.buttons[0]!.toNat),
    (span 4 7 1, s.buttons[2]!.toNat)] ++
  stickLayout 5 s.left.1 (saturatingNeg s.left.2) ++
  stickLayout 8 s.right.1 (saturatingNeg s.right.2) ++ bytesLayout 11 [9] ++
  wordsLayout 12 (sample negate s.motion ++ sample negate s.motion ++ sample negate s.motion)

end Layouts

section Reading

variable {bytes : List UInt8} {byte : ℕ}

theorem toNat_stick (v : Int16) :
    ((stick v).toNat : ℤ) = ((v.toInt + 32768) * 4095 + 32767) / 65535 := by
  have hle := v.le_toInt
  have hlt := v.toInt_lt
  rw [stick, UInt16.toNat_ofNat']
  omega

theorem stick_lt (v : Int16) : (stick v).toNat < 2 ^ 12 := by
  have hlt := v.toInt_lt
  have hv := toNat_stick v
  omega

theorem stick_monotone {v w : Int16} (h : v ≤ w) : stick v ≤ stick w := by
  have hv := toNat_stick v
  have hw := toNat_stick w
  rw [Int16.le_iff_toInt_le] at h
  rw [UInt16.le_iff_toNat_le]
  omega

/-- Both sticks are two numbers of twelve bits in three bytes. -/
theorem stick_reads {x y : Int16} (h : WireBytes.slice bytes byte 3 = pack x y) :
    Reads bytes (stickLayout byte x y) := by
  have hget (i : ℕ) (hi : i < 3) : bytes.getD (byte + i) 0 = (pack x y).getD i 0 := by
    rw [← h]
    simp [WireBytes.slice, hi]
  have h₀ : bytes.getD byte 0 = (stick x).toUInt8 := hget 0 (by decide)
  have h₁ : bytes.getD (byte + 1) 0 = ((stick x >>> 8).toUInt8 &&& (0x0f : UInt8)) |||
      ((stick y).toUInt8 &&& (0x0f : UInt8)) <<< (4 : UInt8) := hget 1 (by decide)
  have h₂ : bytes.getD (byte + 2) 0 = (stick y >>> 4).toUInt8 := hget 2 (by decide)
  have hx := stick_lt x
  have hy := stick_lt y
  have hlow : part (stick x).toUInt8 0 8 + 2 ^ 8 * part (stick x >>> 8).toUInt8 0 4 =
      (stick x).toNat := by
    simp [part, Nat.shiftRight_eq_div_pow]
    omega
  have hhigh : part (stick y).toUInt8 0 4 + 2 ^ 4 * part (stick y >>> 4).toUInt8 0 8 =
      (stick y).toNat := by
    simp [part, Nat.shiftRight_eq_div_pow]
    omega
  simp (disch := decide) only [stickLayout, reads_cons, reads_nil, read_append, length_span,
    read_span, h₀, h₁, h₂, part_or, part_mask, part_below, part_cleared, part_shiftLeft,
    UInt8.reduceToNat, Nat.sub_self, Nat.or_zero, Nat.zero_or, hlow, hhigh, and_self]

theorem outer_reads {a b c d e f : Bool} (h : bytes.getD byte 0 =
      flag a 0 ||| flag b 1 ||| flag c 2 ||| flag d 3 ||| flag e 6 ||| flag f 7) :
    Reads bytes [(span byte 0 1, a.toNat), (span byte 1 1, b.toNat), (span byte 2 1, c.toNat),
      (span byte 3 1, d.toNat), (span byte 6 1, e.toNat), (span byte 7 1, f.toNat)] := by
  simp (disch := decide) only [reads_cons, reads_nil, read_span, h, part_or, part_flag,
    part_flag_of_ne, Nat.zero_or, Nat.or_zero, and_self]

theorem lower_reads {a b c d e f : Bool} (h : bytes.getD byte 0 =
      flag a 0 ||| flag b 1 ||| flag c 2 ||| flag d 3 ||| flag e 4 ||| flag f 5) :
    Reads bytes [(span byte 0 1, a.toNat), (span byte 1 1, b.toNat), (span byte 2 1, c.toNat),
      (span byte 3 1, d.toNat), (span byte 4 1, e.toNat), (span byte 5 1, f.toNat)] := by
  simp (disch := decide) only [reads_cons, reads_nil, read_span, h, part_or, part_flag,
    part_flag_of_ne, Nat.zero_or, Nat.or_zero, and_self]

theorem switch_places (negate negate' : Int16 → Int16) (s s' : SwitchProState) :
    (switchLayout negate s).map Prod.fst = (switchLayout negate' s').map Prod.fst := rfl

theorem switch_carries (s : SwitchProState) :
    Carries (switchFrame s).bytes (switchLayout wrappingNeg s) := by
  constructor
  · rw [switch_places wrappingNeg wrappingNeg s .default]
    exact nodup_of_ascending (by decide +kernel)
  · simp only [switchLayout, reads_append, and_assoc]
    exact ⟨bytes_reads 0 rfl, outer_reads rfl, lower_reads rfl, outer_reads rfl, stick_reads rfl,
      stick_reads rfl, bytes_reads 11 rfl, words_reads 12 rfl⟩

end Reading

section Faithfulness

def SwitchProFaithful (s : SwitchProState) : Prop :=
  Carries (switchFrame s).bytes (switchLayout saturatingNeg s)

/-- A quarter of the wrapped value still has the wrong sign. -/
theorem quarters_agree (v : Int16) : wrappingNeg v / 4 = saturatingNeg v / 4 ↔
    v ≠ Int16.minValue := by
  constructor
  · rintro h rfl
    exact absurd h (by decide)
  · intro h
    rw [(negations_agree v).mpr h]

theorem switchProFaithful_iff (s : SwitchProState) : SwitchProFaithful s ↔
    s.motion.accelerometer[0]! ≠ Int16.minValue ∧ s.motion.gyroscope[0]! ≠ Int16.minValue := by
  unfold SwitchProFaithful
  rw [carries_iff (switch_carries s) (switch_places ..), ← quarters_agree, ← negations_agree]
  simp only [switchLayout, sample, wordsLayout, List.cons_append, List.nil_append,
    List.append_cancel_left_eq, List.cons.injEq, Prod.mk.injEq, true_and, and_true, twos_inj]
  tauto

/-- A negation that wraps reverses the order everywhere but at the most negative value. -/
theorem wrappingNeg_reverses (v : Int16) :
    (∀ w, v ≤ w → wrappingNeg w ≤ wrappingNeg v) ↔ v ≠ Int16.minValue := by
  constructor
  · rintro h rfl
    exact absurd (h 0 (by decide)) (by decide)
  · intro hv w hle
    have hw : w ≠ Int16.minValue := by
      rintro rfl
      have hmin := v.le_toInt
      rw [Int16.le_iff_toInt_le] at hle
      exact hv (Int16.toInt_inj.mp (Int.le_antisymm hle hmin))
    rw [(negations_agree v).mpr hv, (negations_agree w).mpr hw]
    exact saturatingNeg_antitone hle

/-- The reports of all three controllers give back the whole state exactly when no sensor axis that
is negated holds the most negative value and no two contacts share the low bits of their numbers.
The sticks reverse and keep the order everywhere. -/
theorem inputs_faithful_iff (dualsense : DualSenseState) (dualshock4 : DualShock4State)
    (pro : SwitchProState) :
    (DualSenseFaithful dualsense ↔
      dualsense.motion.gyroscope[1]! ≠ Int16.minValue ∧ Distinguishable dualsense.touches) ∧
    (DualShock4Faithful dualshock4 ↔
      dualshock4.motion.gyroscope[1]! ≠ Int16.minValue ∧ Distinguishable dualshock4.touches) ∧
    (SwitchProFaithful pro ↔
      pro.motion.accelerometer[0]! ≠ Int16.minValue ∧ pro.motion.gyroscope[0]! ≠ Int16.minValue) ∧
    (∀ v, (∀ w, v ≤ w → wrappingNeg w ≤ wrappingNeg v) ↔ v ≠ Int16.minValue) ∧
    (∀ v w, v ≤ w → saturatingNeg w ≤ saturatingNeg v) ∧
    (∀ v w, v ≤ w → stick v ≤ stick w) ∧
    stick Int16.minValue = 0 ∧ stick Int16.maxValue = 4095 ∧
    saturatingNeg Int16.minValue = Int16.maxValue :=
  ⟨dualsenseFaithful_iff dualsense, dualShock4Faithful_iff dualshock4, switchProFaithful_iff pro,
    wrappingNeg_reverses, fun _ _ => saturatingNeg_antitone, fun _ _ => stick_monotone, by decide, by decide, by decide⟩

/-- Tilted as far as the sensor goes. -/
def tilted : DualSenseState :=
  { DualSenseState.default with motion := ⟨.replicate 3 0, .replicate 3 Int16.minValue⟩ }

theorem not_dualsenseFaithful_tilted : ¬DualSenseFaithful tilted := by
  rw [dualsenseFaithful_iff]
  rintro ⟨h, _⟩
  exact h rfl

end Faithfulness

end SwitchInput
