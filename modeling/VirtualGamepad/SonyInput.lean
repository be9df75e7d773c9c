import VirtualGamepad.BitFields
import VirtualGamepad.NativeStateCodec

/-! The USB input reports of a DualSense and of a DualShock 4. -/
namespace SonyInput

open BitFields NativeState
open WireBytes (overlay bytesLe)

structure HidInput where
  reportId : Option UInt8
  bytes : List UInt8
  deriving DecidableEq, Repr

section Frames

/-- Up, down, left and right as one of eight ways, clockwise from up. -/
def hat (d : Vector Bool 4) : UInt8 :=
  match d[0]!, d[1]!, d[2]!, d[3]! with
  | true, false, false, false => 0
  | true, false, false, true => 1
  | false, false, false, true => 2
  | false, true, false, true => 3
  | false, true, false, false => 4
  | false, true, true, false => 5
  | false, false, true, false => 6
  | true, false, true, false => 7
  | _, _, _, _ => 8

def dualsenseHat (dpad : Vector Bool 4) : UInt8 := hat dpad

def encodeTouch {maxX maxY : UInt16} : Option (TouchContact maxX maxY) → List UInt8
  | some contact =>
    let (xLo, xHi) := (contact.x.toUInt8, (contact.x >>> 8).toUInt8)
    let (yLo, yHi) := (contact.y.toUInt8, (contact.y >>> 8).toUInt8)
    [contact.id &&& 0x7f, xLo, (xHi &&& (0x0f : UInt8)) ||| (yLo &&& (0x0f : UInt8)) <<< (4 : UInt8),
      yHi <<< (4 : UInt8) ||| yLo >>> (4 : UInt8)]
  | none => [0x80, 0, 0, 0]

def encodeHidTouches (touches : Vector (Option DualSenseTouchContact) 2) : List UInt8 :=
  encodeTouch touches[0]! ++ encodeTouch touches[1]!

def encodeDs4Touches (touches : Vector (Option DualShock4TouchContact) 2) : List UInt8 :=
  encodeTouch touches[0]! ++ encodeTouch touches[1]!

def dualsenseBatteryStatus (battery : BatteryState) : UInt8 :=
  if !battery.exposed then 0x20
  else min (UInt8.ofNat (min (battery.level.percent.toNat + 9) 255) / 10) 10

/-- A negation that wraps. -/
def wrappingNeg (v : Int16) : Int16 := -v

def dualsenseHidInputReport (state : DualSenseState) : HidInput :=
  let face := state.face
  let buttons := state.buttons
  let gyroscope := state.motion.gyroscope
  let accelerometer := state.motion.accelerometer
  ⟨some 0x01, assemble 63 0 [
    (0, [state.left.1, state.left.2, state.right.1, state.right.2, state.triggers.1,
      state.triggers.2]),
    (6, [state.inputSequence]),
    (7, [dualsenseHat state.dpad ||| flag face[2]! 4 ||| flag face[0]! 5 ||| flag face[1]! 6 |||
      flag face[3]! 7]),
    (8, [flag buttons[0]! 0 ||| flag buttons[1]! 1 ||| flag (state.triggers.1 ≠ 0) 2 |||
      flag (state.triggers.2 ≠ 0) 3 ||| flag buttons[2]! 4 ||| flag buttons[3]! 5 |||
      flag buttons[6]! 6 ||| flag buttons[7]! 7]),
    (9, [flag buttons[4]! 0 ||| flag buttons[5]! 1 ||| flag buttons[8]! 2]),
    -- The sensor axes go out as x, z and the negated y.
    (15, i16Bytes gyroscope[0]! ++ i16Bytes gyroscope[2]! ++
      i16Bytes (wrappingNeg gyroscope[1]!)),
    (21, i16Bytes accelerometer[0]! ++ i16Bytes accelerometer[1]! ++ i16Bytes accelerometer[2]!),
    (27, bytesLe 4 state.sensorTimestamp.toNat),
    (32, encodeHidTouches state.touches),
    (52, [dualsenseBatteryStatus state.battery])]⟩

def ds4Frame (state : DualShock4State) : HidInput :=
  let face := state.face
  let buttons := state.buttons
  let gyroscope := state.motion.gyroscope
  let accelerometer := state.motion.accelerometer
  ⟨some 1, assemble 63 0 [
    (0, [state.left.1, state.left.2, state.right.1, state.right.2]),
    (4, [hat state.dpad ||| flag face[2]! 4 ||| flag face[0]! 5 ||| flag face[1]! 6 |||
      flag face[3]! 7]),
    (5, [flag buttons[0]! 0 ||| flag buttons[1]! 1 ||| flag (state.triggers.1 ≠ 0) 2 |||
      flag (state.triggers.2 ≠ 0) 3 ||| flag buttons[2]! 4 ||| flag buttons[3]! 5 |||
      flag buttons[6]! 6 ||| flag buttons[7]! 7]),
    (6, [state.sequence <<< 4 ||| flag buttons[4]! 0 ||| flag buttons[5]! 1]),
    (7, [state.triggers.1, state.triggers.2]),
    (9, bytesLe 2 state.sensorTimestamp.toNat),
    (12, i16Bytes gyroscope[0]! ++ i16Bytes gyroscope[2]! ++
      i16Bytes (wrappingNeg gyroscope[1]!)),
    (18, i16Bytes accelerometer[0]! ++ i16Bytes accelerometer[1]! ++ i16Bytes accelerometer[2]!),
    (29, [0x1b]),
    -- With a count of zero the host would keep the contacts it has.
    (32, [1]),
    (33, [state.touchSequence]),
    (34, encodeDs4Touches state.touches)]⟩

end Frames

section Layouts

/-- The negation that takes the most negative value to the most positive one. -/
def saturatingNeg (v : Int16) : Int16 := if v = Int16.minValue then Int16.maxValue else -v

/-- Which of up, down, left and right are pressed for each of the eight ways. -/
def way (h : ℕ) : List Bool := [h ∈ [7, 0, 1], h ∈ [3, 4, 5], h ∈ [5, 6, 7], h ∈ [1, 2, 3]]

/-- Eight is the neutral position, to which directions belong that make no way. -/
def eightWay (d : Vector Bool 4) : ℕ := ((List.range 8).map way).idxOf d.toList

def padLayout (byte : ℕ) (dpad face : Vector Bool 4) : Layout :=
  [(span byte 0 4, eightWay dpad), (span byte 4 1, face[2]!.toNat), (span byte 5 1, face[0]!.toNat),
    (span byte 6 1, face[1]!.toNat), (span byte 7 1, face[3]!.toNat)]

def buttonsLayout {n : ℕ} (byte : ℕ) (buttons : Vector Bool n) (triggers : UInt8 × UInt8) : Layout :=
  [(span byte 0 1, buttons[0]!.toNat), (span byte 1 1, buttons[1]!.toNat),
    (span byte 2 1, (decide (triggers.1 ≠ 0)).toNat),
    (span byte 3 1, (decide (triggers.2 ≠ 0)).toNat),
    (span byte 4 1, buttons[2]!.toNat), (span byte 5 1, buttons[3]!.toNat),
    (span byte 6 1, buttons[6]!.toNat), (span byte 7 1, buttons[7]!.toNat)]

def motionLayout (negate : Int16 → Int16) (byte : ℕ) (motion : MotionSample) : Layout :=
  wordsLayout byte [motion.gyroscope[0]!, motion.gyroscope[2]!, negate motion.gyroscope[1]!,
    motion.accelerometer[0]!, motion.accelerometer[1]!, motion.accelerometer[2]!]

/-- The number of a contact, whether there is none, and its coordinates. -/
def touchLayout {maxX maxY : UInt16} (byte : ℕ) (contact : Option (TouchContact maxX maxY)) :
    Layout :=
  [(span byte 0 7, (contact.map fun c => c.id.toNat % 128).getD 0),
    (span byte 7 1, contact.isNone.toNat),
    (span (byte + 1) 0 8 ++ span (byte + 2) 0 4, (contact.map fun c => c.x.toNat).getD 0),
    (span (byte + 2) 4 4 ++ span (byte + 3) 0 8, (contact.map fun c => c.y.toNat).getD 0)]

def dualsenseLayout (negate : Int16 → Int16) (state : DualSenseState) : Layout :=
  bytesLayout 0 [state.left.1, state.left.2, state.right.1, state.right.2, state.triggers.1,
    state.triggers.2, state.inputSequence] ++
  padLayout 7 state.dpad state.face ++ buttonsLayout 8 state.buttons state.triggers ++
  [(span 9 0 1, state.buttons[4]!.toNat), (span 9 1 1, state.buttons[5]!.toNat),
    (span 9 2 1, state.buttons[8]!.toNat)] ++
  motionLayout negate 15 state.motion ++ [(whole 27 4, state.sensorTimestamp.toNat)] ++
  touchLayout 32 state.touches[0]! ++ touchLayout 36 state.touches[1]! ++
  bytesLayout 52 [dualsenseBatteryStatus state.battery]

def ds4Layout (negate : Int16 → Int16) (state : DualShock4State) : Layout :=
  bytesLayout 0 [state.left.1, state.left.2, state.right.1, state.right.2] ++
  padLayout 4 state.dpad state.face ++ buttonsLayout 5 state.buttons state.triggers ++
  [(span 6 0 1, state.buttons[4]!.toNat), (span 6 1 1, state.buttons[5]!.toNat),
    (span 6 4 4, state.sequence.toNat % 16)] ++
  bytesLayout 7 [state.triggers.1, state.triggers.2] ++
  [(whole 9 2, state.sensorTimestamp.toNat)] ++ motionLayout negate 12 state.motion ++
  bytesLayout 29 [0x1b] ++ bytesLayout 32 [1, state.touchSequence] ++
  touchLayout 34 state.touches[0]! ++ touchLayout 38 state.touches[1]!

end Layouts

section Reading

variable {bytes : List UInt8} {byte : ℕ}

theorem hat_eightWay (d : Vector Bool 4) : (hat d).toNat = eightWay d := by
  obtain ⟨⟨xs⟩, hxs⟩ := d
  match xs, hxs with
  | [up, down, left, right], _ =>
    revert up down left right
    decide

theorem hat_lt (d : Vector Bool 4) : (hat d).toNat < 2 ^ 4 := by
  unfold hat
  split <;> decide

theorem pad_reads {dpad face : Vector Bool 4}
    (h : bytes.getD byte 0 = hat dpad ||| flag face[2]! 4 ||| flag face[0]! 5 |||
      flag face[1]! 6 ||| flag face[3]! 7) : Reads bytes (padLayout byte dpad face) := by
  have hlow := hat_lt dpad
  have hhigh {first : ℕ} (hf : 4 ≤ first) : part (hat dpad) first 1 = 0 :=
    part_small (hlow.trans_le (Nat.pow_le_pow_right (by decide) hf))
  simp (disch := decide) only [padLayout, reads_cons, reads_nil, read_span, h, part_or, part_flag,
    part_flag_of_ne, hhigh, part_fits hlow, hat_eightWay, Nat.zero_or, Nat.or_zero, and_self]

theorem buttons_reads {n : ℕ} {buttons : Vector Bool n} {triggers : UInt8 × UInt8}
    (h : bytes.getD byte 0 = flag buttons[0]! 0 ||| flag buttons[1]! 1 |||
      flag (triggers.1 ≠ 0) 2 ||| flag (triggers.2 ≠ 0) 3 ||| flag buttons[2]! 4 |||
      flag buttons[3]! 5 ||| flag buttons[6]! 6 ||| flag buttons[7]! 7) :
    Reads bytes (buttonsLayout byte buttons triggers) := by
  simp (disch := decide) only [buttonsLayout, reads_cons, reads_nil, read_span, h, part_or,
    part_flag, part_flag_of_ne, Nat.zero_or, Nat.or_zero, and_self]

/-- Four bytes hold a contact, whose coordinates share the third. -/
theorem encodeTouch_eq {maxX maxY : UInt16} (contact : Option (TouchContact maxX maxY))
    (hx : maxX.toNat < 2 ^ 12) (hy : maxY.toNat < 2 ^ 12) :
    ∃ b₀ b₁ b₂ b₃, encodeTouch contact = [b₀, b₁, b₂, b₃] ∧
      part b₀ 0 7 = (contact.map fun c => c.id.toNat % 128).getD 0 ∧
      part b₀ 7 1 = contact.isNone.toNat ∧
      part b₁ 0 8 + 2 ^ 8 * part b₂ 0 4 = (contact.map fun c => c.x.toNat).getD 0 ∧
      part b₂ 4 4 + 2 ^ 4 * part b₃ 0 8 = (contact.map fun c => c.y.toNat).getD 0 := by
  cases contact with
  | none => exact ⟨_, _, _, _, rfl, rfl, rfl, rfl, rfl⟩
  | some c =>
    have hcx := UInt16.le_iff_toNat_le.mp c.xInRange
    have hcy := UInt16.le_iff_toNat_le.mp c.yInRange
    refine ⟨_, _, _, _, rfl, ?_, ?_, ?_, ?_⟩
    · rw [part_mask (by decide)]
      simp [part]
    · exact part_cleared (by decide)
    · rw [part_or, part_mask (by decide), part_below (by decide) (by decide), Nat.or_zero]
      simp [part, Nat.shiftRight_eq_div_pow]
      omega
    · have hsmall : part (c.y.toUInt8 >>> (4 : UInt8)) 4 4 = 0 := by
        rw [part_shiftRight (by decide)]
        exact part_small c.y.toUInt8.toNat_lt
      rw [part_or, part_cleared (by decide), Nat.zero_or,
        part_shiftLeft (by decide) (by decide) (by decide), part_mask (by decide), part_add _ 0 4 4,
        part_or, part_or, part_below (by decide) (by decide), Nat.zero_or, hsmall, Nat.or_zero,
        part_shiftLeft (by decide) (by decide) (by decide), part_shiftRight (by decide)]
      simp [part, Nat.shiftRight_eq_div_pow]
      omega

theorem touch_reads {maxX maxY : UInt16} {contact : Option (TouchContact maxX maxY)}
    (hx : maxX.toNat < 2 ^ 12) (hy : maxY.toNat < 2 ^ 12)
    (h : WireBytes.slice bytes byte 4 = encodeTouch contact) :
    Reads bytes (touchLayout byte contact) := by
  obtain ⟨b₀, b₁, b₂, b₃, hbytes, hid, hnone, hxs, hys⟩ := encodeTouch_eq contact hx hy
  rw [hbytes] at h
  have hget (i : ℕ) (hi : i < 4) : bytes.getD (byte + i) 0 = [b₀, b₁, b₂, b₃].getD i 0 := by
    rw [← h]
    simp [WireBytes.slice, hi]
  have h₀ : bytes.getD byte 0 = b₀ := hget 0 (by decide)
  have h₁ : bytes.getD (byte + 1) 0 = b₁ := hget 1 (by decide)
  have h₂ : bytes.getD (byte + 2) 0 = b₂ := hget 2 (by decide)
  have h₃ : bytes.getD (byte + 3) 0 = b₃ := hget 3 (by decide)
  simp (disch := decide) only [touchLayout, reads_cons, reads_nil, read_append, length_span,
    read_span, h₀, h₁, h₂, h₃, hid, hnone, hxs, hys, and_self]

theorem flags_reads {f g h : Bool} (hbyte : bytes.getD byte 0 = flag f 0 ||| flag g 1 ||| flag h 2) :
    Reads bytes [(span byte 0 1, f.toNat), (span byte 1 1, g.toNat), (span byte 2 1, h.toNat)] := by
  simp (disch := decide) only [reads_cons, reads_nil, read_span, hbyte, part_or, part_flag,
    part_flag_of_ne, Nat.zero_or, Nat.or_zero, and_self]

theorem counter_reads {counter : UInt8} {f g : Bool}
    (hbyte : bytes.getD byte 0 = counter <<< 4 ||| flag f 0 ||| flag g 1) :
    Reads bytes [(span byte 0 1, f.toNat), (span byte 1 1, g.toNat),
      (span byte 4 4, counter.toNat % 16)] := by
  have hcounter : part counter 0 4 = counter.toNat % 16 := by simp [part]
  simp (disch := decide) only [reads_cons, reads_nil, read_span, hbyte, part_or, part_flag,
    part_flag_of_ne, part_below, part_shiftLeft, UInt8.reduceToNat, Nat.sub_self, hcounter,
    Nat.zero_or, Nat.or_zero, and_self]

theorem dualsense_reads (state : DualSenseState) :
    Reads (dualsenseHidInputReport state).bytes (dualsenseLayout wrappingNeg state) := by
  obtain ⟨a₀, a₁, a₂, a₃, hfirst, -⟩ := encodeTouch_eq state.touches[0]! (by decide) (by decide)
  obtain ⟨b₀, b₁, b₂, b₃, hsecond, -⟩ := encodeTouch_eq state.touches[1]! (by decide) (by decide)
  have htime := state.sensorTimestamp.toNat_lt
  simp only [dualsenseHidInputReport, encodeHidTouches, dualsenseLayout, reads_append, and_assoc,
    hfirst, hsecond]
  refine ⟨bytes_reads 0 rfl, pad_reads rfl, buttons_reads rfl, flags_reads rfl, words_reads 15 rfl,
    ?_, touch_reads (by decide) (by decide) (by rw [hfirst]; rfl),
    touch_reads (by decide) (by decide) (by rw [hsecond]; rfl), bytes_reads 52 rfl⟩
  exact reads_cons.mpr ⟨read_bytesLe 27 rfl (Nat.le_of_ble_eq_true rfl) htime, reads_nil⟩

theorem ds4_reads (state : DualShock4State) :
    Reads (ds4Frame state).bytes (ds4Layout wrappingNeg state) := by
  obtain ⟨a₀, a₁, a₂, a₃, hfirst, -⟩ := encodeTouch_eq state.touches[0]! (by decide) (by decide)
  obtain ⟨b₀, b₁, b₂, b₃, hsecond, -⟩ := encodeTouch_eq state.touches[1]! (by decide) (by decide)
  have htime := state.sensorTimestamp.toNat_lt
  simp only [ds4Frame, encodeDs4Touches, ds4Layout, reads_append, and_assoc, hfirst, hsecond]
  refine ⟨bytes_reads 0 rfl, pad_reads rfl, buttons_reads rfl, counter_reads rfl, bytes_reads 7 rfl,
    ?_, words_reads 12 rfl, bytes_reads 29 rfl, bytes_reads 32 rfl,
    touch_reads (by decide) (by decide) (by rw [hfirst]; rfl),
    touch_reads (by decide) (by decide) (by rw [hsecond]; rfl)⟩
  exact reads_cons.mpr ⟨read_bytesLe 9 rfl (Nat.le_of_ble_eq_true rfl) htime, reads_nil⟩

/-- The places depend neither on the state nor on the negation. -/
theorem dualsense_places (negate negate' : Int16 → Int16) (state state' : DualSenseState) :
    (dualsenseLayout negate state).map Prod.fst =
      (dualsenseLayout negate' state').map Prod.fst := rfl

theorem ds4_places (negate negate' : Int16 → Int16) (state state' : DualShock4State) :
    (ds4Layout negate state).map Prod.fst = (ds4Layout negate' state').map Prod.fst := rfl

theorem dualsense_carries (state : DualSenseState) :
    Carries (dualsenseHidInputReport state).bytes (dualsenseLayout wrappingNeg state) := by
  refine ⟨?_, dualsense_reads state⟩
  rw [dualsense_places wrappingNeg wrappingNeg state .default]
  exact nodup_of_ascending (by decide +kernel)

theorem ds4_carries (state : DualShock4State) :
    Carries (ds4Frame state).bytes (ds4Layout wrappingNeg state) := by
  refine ⟨?_, ds4_reads state⟩
  rw [ds4_places wrappingNeg wrappingNeg state .default]
  exact nodup_of_ascending (by decide +kernel)

end Reading

section Faithfulness

theorem toInt_wrappingNeg {v : Int16} (h : v ≠ Int16.minValue) :
    (wrappingNeg v).toInt = -v.toInt := by
  have hmin : v.toInt ≠ -2 ^ 15 := fun hv => h (Int16.toInt_inj.mp hv)
  have hle := v.le_toInt
  have hlt := v.toInt_lt
  rw [wrappingNeg, Int16.toInt_neg]
  exact Int.bmod_eq_of_le (by omega) (by omega)

/-- Only the most negative value tells the two negations apart. -/
theorem negations_agree (v : Int16) : wrappingNeg v = saturatingNeg v ↔ v ≠ Int16.minValue := by
  unfold saturatingNeg
  constructor
  · rintro h rfl
    exact absurd h (by decide)
  · intro h
    rw [if_neg h, wrappingNeg]

theorem toInt_saturatingNeg (v : Int16) : (saturatingNeg v).toInt = min (-v.toInt) 32767 := by
  have hle := v.le_toInt
  by_cases h : v = Int16.minValue
  · subst h
    decide
  · rw [← (negations_agree v).mpr h, toInt_wrappingNeg h]
    have hmin : v.toInt ≠ -2 ^ 15 := fun hv => h (Int16.toInt_inj.mp hv)
    omega

theorem saturatingNeg_antitone {v w : Int16} (h : v ≤ w) : saturatingNeg w ≤ saturatingNeg v := by
  rw [Int16.le_iff_toInt_le] at h ⊢
  rw [toInt_saturatingNeg, toInt_saturatingNeg]
  omega

theorem twos_inj {v w : Int16} : twos v = twos w ↔ v = w := by
  unfold twos
  rw [UInt16.toNat_inj]
  constructor
  · intro h
    cases v
    cases w
    exact congrArg Int16.ofUInt16 h
  · rintro rfl
    rfl

/-- Two active contacts with different numbers have different numbers in the report. -/
def Distinguishes {maxX maxY : UInt16} (bytes : List UInt8) (byte : ℕ)
    (touches : Vector (Option (TouchContact maxX maxY)) 2) : Prop :=
  ∀ a b, touches[0]! = some a → touches[1]! = some b → a.id ≠ b.id →
    read bytes (span byte 0 7) ≠ read bytes (span (byte + 4) 0 7)

/-- The numbers of two active contacts do not differ by the highest bit alone. -/
def Distinguishable {maxX maxY : UInt16} (touches : Vector (Option (TouchContact maxX maxY)) 2) :
    Prop :=
  ∀ a b, touches[0]! = some a → touches[1]! = some b → a.id.toNat % 128 = b.id.toNat % 128 →
    a.id = b.id

theorem distinguishes_iff {maxX maxY : UInt16} {bytes : List UInt8} {byte : ℕ}
    {touches : Vector (Option (TouchContact maxX maxY)) 2}
    (hfirst : Reads bytes (touchLayout byte touches[0]!))
    (hsecond : Reads bytes (touchLayout (byte + 4) touches[1]!)) :
    Distinguishes bytes byte touches ↔ Distinguishable touches := by
  have h₀ := (reads_cons.mp hfirst).1
  have h₁ := (reads_cons.mp hsecond).1
  refine forall₄_congr fun a b ha hb => ?_
  rw [h₀, h₁, ha, hb]
  exact not_imp_not

structure DualSenseFaithful (state : DualSenseState) : Prop where
  carries : Carries (dualsenseHidInputReport state).bytes (dualsenseLayout saturatingNeg state)
  contacts : Distinguishes (dualsenseHidInputReport state).bytes 32 state.touches

structure DualShock4Faithful (state : DualShock4State) : Prop where
  carries : Carries (ds4Frame state).bytes (ds4Layout saturatingNeg state)
  contacts : Distinguishes (ds4Frame state).bytes 34 state.touches

theorem dualsenseFaithful_iff (state : DualSenseState) : DualSenseFaithful state ↔
    state.motion.gyroscope[1]! ≠ Int16.minValue ∧ Distinguishable state.touches := by
  have hreads := dualsense_reads state
  simp only [dualsenseLayout, reads_append] at hreads
  have hcontacts := distinguishes_iff hreads.1.1.2 hreads.1.2
  have hcarries : Carries (dualsenseHidInputReport state).bytes
      (dualsenseLayout saturatingNeg state) ↔ state.motion.gyroscope[1]! ≠ Int16.minValue := by
    rw [carries_iff (dualsense_carries state) (dualsense_places ..), ← negations_agree]
    simp [dualsenseLayout, motionLayout, wordsLayout, twos_inj]
  constructor
  · intro h
    exact ⟨hcarries.mp h.carries, hcontacts.mp h.contacts⟩
  · intro h
    exact ⟨hcarries.mpr h.1, hcontacts.mpr h.2⟩

theorem dualShock4Faithful_iff (state : DualShock4State) : DualShock4Faithful state ↔
    state.motion.gyroscope[1]! ≠ Int16.minValue ∧ Distinguishable state.touches := by
  have hreads := ds4_reads state
  simp only [ds4Layout, reads_append] at hreads
  have hcontacts := distinguishes_iff hreads.1.2 hreads.2
  have hcarries : Carries (ds4Frame state).bytes (ds4Layout saturatingNeg state) ↔
      state.motion.gyroscope[1]! ≠ Int16.minValue := by
    rw [carries_iff (ds4_carries state) (ds4_places ..), ← negations_agree]
    simp [ds4Layout, motionLayout, wordsLayout, twos_inj]
  constructor
  · intro h
    exact ⟨hcarries.mp h.carries, hcontacts.mp h.contacts⟩
  · intro h
    exact ⟨hcarries.mpr h.1, hcontacts.mpr h.2⟩

end Faithfulness

end SonyInput
