import Mathlib.Algebra.Order.BigOperators.Group.List
import VirtualGamepad.BrokerWire
import VirtualGamepad.ByteReader
import VirtualGamepad.NativeState
import VirtualGamepad.WireBytes

/-! Versioned, bounded snapshots of a native state. -/
namespace NativeState

open ByteReader WireBytes
open BrokerWire (maxWirePayload)

inductive StateError where
  | malformed
  | version
  | family
  | stale
  | conflictingRetry
  deriving DecidableEq, Repr

abbrev Read := Reader StateError UInt8

section Readers

def byte : Read UInt8 := do
  let bytes ← take .malformed 1
  return bytes.headD 0

def boolean : Read Bool := do
  match ← byte with
  | 0 => return false
  | 1 => return true
  | _ => fail .malformed

def booleans (n : ℕ) : Read (Vector Bool n) := replicate boolean n

def u16 : Read UInt16 := do
  let bytes ← take .malformed 2
  return UInt16.ofNat (ofBytesLe bytes)

def i16 : Read Int16 := do
  let bytes ← take .malformed 2
  return (UInt16.ofNat (ofBytesLe bytes)).toInt16

def u32 : Read UInt32 := do
  let bytes ← take .malformed 4
  return UInt32.ofNat (ofBytesLe bytes)

def pair {α : Type} (r : Read α) : Read (α × α) := do
  let first ← r
  let second ← r
  return (first, second)

def touch {maxX maxY : UInt16} : Read (Option (TouchContact maxX maxY)) := do
  match ← boolean with
  | false => return none
  | true =>
    let id ← byte
    let x ← u16
    let y ← u16
    match TouchContact.new id x y with
    | some contact => return some contact
    | none => fail .malformed

def motionSample : Read MotionSample := do
  let accelerometer ← replicate i16 3
  let gyroscope ← replicate i16 3
  return ⟨accelerometer, gyroscope⟩

def batteryState : Read BatteryState := do
  let exposed ← boolean
  let percent ← byte
  match BatteryLevel.new percent with
  | some level => return ⟨exposed, level⟩
  | none => fail .malformed

end Readers

section Payloads

def bit (b : Bool) : UInt8 := if b then 1 else 0

def bits {n : ℕ} (bs : Vector Bool n) : List UInt8 := bs.toList.map bit

def touchBytes {maxX maxY : UInt16} : Option (TouchContact maxX maxY) → List UInt8
  | none => [bit false]
  | some contact =>
    [bit true, contact.id] ++ bytesLe 2 contact.x.toNat ++ bytesLe 2 contact.y.toNat

def i16Bytes (value : Int16) : List UInt8 := bytesLe 2 value.toUInt16.toNat

def motionBytes (m : MotionSample) : List UInt8 :=
  (m.accelerometer.toList ++ m.gyroscope.toList).flatMap i16Bytes

def batteryBytes (b : BatteryState) : List UInt8 := [bit b.exposed, b.level.percent]

namespace DualSenseState

def encodePayload (s : DualSenseState) : List UInt8 :=
  bits s.face ++ bits s.dpad ++ [s.left.1, s.left.2, s.right.1, s.right.2] ++
    [s.triggers.1, s.triggers.2] ++ bits s.buttons ++ s.touches.toList.flatMap touchBytes ++
    motionBytes s.motion ++ [s.inputSequence] ++ bytesLe 4 s.sensorTimestamp.toNat ++
    batteryBytes s.battery

def decodePayload : Read DualSenseState := do
  let face ← booleans 4
  let dpad ← booleans 4
  let left ← pair byte
  let right ← pair byte
  let triggers ← pair byte
  let buttons ← booleans 9
  let touches ← replicate touch 2
  let motion ← motionSample
  let inputSequence ← byte
  let sensorTimestamp ← u32
  let battery ← batteryState
  return { face, dpad, left, right, triggers, buttons, touches, motion, inputSequence,
           sensorTimestamp, battery }

end DualSenseState

namespace DualShock4State

def encodePayload (s : DualShock4State) : List UInt8 :=
  bits s.face ++ bits s.dpad ++ [s.left.1, s.left.2, s.right.1, s.right.2] ++
    [s.triggers.1, s.triggers.2] ++ bits s.buttons ++ s.touches.toList.flatMap touchBytes ++
    motionBytes s.motion ++ [s.touchSequence, s.sequence] ++ bytesLe 2 s.sensorTimestamp.toNat ++
    batteryBytes s.battery

def decodePayload : Read DualShock4State := do
  let face ← booleans 4
  let dpad ← booleans 4
  let left ← pair byte
  let right ← pair byte
  let triggers ← pair byte
  let buttons ← booleans 8
  let touches ← replicate touch 2
  let motion ← motionSample
  let touchSequence ← byte
  let sequence ← byte
  let sensorTimestamp ← u16
  let battery ← batteryState
  return { face, dpad, left, right, triggers, buttons, touches, touchSequence, motion, sequence,
           sensorTimestamp, battery }

end DualShock4State

namespace Xbox360State

def encodePayload (s : Xbox360State) : List UInt8 :=
  bits s.face ++ bits s.dpad ++ [s.left.1, s.left.2, s.right.1, s.right.2].flatMap i16Bytes ++
    [s.triggers.1, s.triggers.2] ++ bits s.buttons ++ batteryBytes s.battery

def decodePayload : Read Xbox360State := do
  let face ← booleans 4
  let dpad ← booleans 4
  let left ← pair i16
  let right ← pair i16
  let triggers ← pair byte
  let buttons ← booleans 7
  let battery ← batteryState
  return { face, dpad, left, right, triggers, buttons, battery }

end Xbox360State

end Payloads

section Snapshots

def encode : NativeState → List UInt8
  | .dualSense s => [1, 1] ++ s.encodePayload
  | .dualShock4 s => [1, 2] ++ s.encodePayload
  | .xbox360 s => [1, 3] ++ s.encodePayload

/-- The update of a worker: whose, the how manieth, and the snapshot. -/
def updateBody (generation sequence : ℕ) (s : NativeState) : List UInt8 :=
  bytesLe 8 generation ++ bytesLe 8 sequence ++ encode s

def snapshot (expectedFamily : UInt8) : Read NativeState := do
  let version ← byte
  if version ≠ 1 then fail .version
  else
    let family ← byte
    if family ≠ expectedFamily then fail .family
    else
      match family with
      | 1 => return .dualSense (← DualSenseState.decodePayload)
      | 2 => return .dualShock4 (← DualShock4State.decodePayload)
      | 3 => return .xbox360 (← Xbox360State.decodePayload)
      | _ => fail .family

/-- Only the family of the owning worker session is decoded. -/
def decode (bytes : List UInt8) (expectedFamily : UInt8) : Except StateError NativeState :=
  if 128 < bytes.length then .error .malformed
  else complete .malformed (snapshot expectedFamily) bytes

end Snapshots

section Codecs

theorem byte_codes : Codes byte fun b => [b] := by
  intro xs b rest
  unfold byte
  rw [bind_ok]
  constructor
  · rintro ⟨bytes, ys, htake, hpure⟩
    obtain ⟨hlen, rfl⟩ := take_ok.mp htake
    obtain ⟨rfl, rfl⟩ := pure_ok.mp hpure
    obtain ⟨x, rfl⟩ := List.length_eq_one_iff.mp hlen
    rfl
  · rintro rfl
    exact ⟨[b], rest, take_ok.mpr ⟨rfl, rfl⟩, rfl⟩

theorem boolean_codes : Codes boolean fun b => [bit b] := by
  intro xs b rest
  unfold boolean
  rw [byte_codes.bind_ok]
  constructor
  · rintro ⟨x, ys, rfl, h⟩
    split at h
    · obtain ⟨rfl, rfl⟩ := pure_ok.mp h
      rfl
    · obtain ⟨rfl, rfl⟩ := pure_ok.mp h
      rfl
    · cases h
  · rintro rfl
    cases b with
    | false => exact ⟨0, rest, rfl, rfl⟩
    | true => exact ⟨1, rest, rfl, rfl⟩

/-- A number of `n` bytes, in whatever type holds it. -/
theorem littleEndian_codes {α : Type} (n : ℕ) {ofNat : ℕ → α} {toNat : α → ℕ}
    (hlt : ∀ v, toNat v < 256 ^ n) (hback : ∀ v, ofNat (toNat v) = v)
    (hforth : ∀ k, k < 256 ^ n → toNat (ofNat k) = k) :
    Codes (do let bytes ← take .malformed n; return ofNat (ofBytesLe bytes) : Read α)
      fun v => bytesLe n (toNat v) := by
  intro xs v rest
  rw [bind_ok]
  constructor
  · rintro ⟨bytes, ys, htake, hpure⟩
    obtain ⟨rfl, rfl⟩ := take_ok.mp htake
    obtain ⟨rfl, rfl⟩ := pure_ok.mp hpure
    dsimp only
    rw [hforth _ (ofBytesLe_lt bytes), bytesLe_ofBytesLe]
  · rintro rfl
    refine ⟨bytesLe n (toNat v), rest, take_ok.mpr ⟨length_bytesLe _ _, rfl⟩, pure_ok.mpr ⟨?_, rfl⟩⟩
    rw [ofBytesLe_bytesLe (hlt v), hback]

theorem u16_codes : Codes u16 fun v => bytesLe 2 v.toNat :=
  littleEndian_codes 2 UInt16.toNat_lt (fun _ => UInt16.ofNat_toNat) fun _ => UInt16.toNat_ofNat_of_lt

theorem u32_codes : Codes u32 fun v => bytesLe 4 v.toNat :=
  littleEndian_codes 4 UInt32.toNat_lt (fun _ => UInt32.ofNat_toNat) fun _ => UInt32.toNat_ofNat_of_lt

theorem i16_codes : Codes i16 i16Bytes := by
  refine @littleEndian_codes Int16 2 (fun k => (UInt16.ofNat k).toInt16) (fun v => v.toUInt16.toNat)
    (fun v => v.toUInt16.toNat_lt) (fun v => ?_) fun k hk => ?_
  · rw [UInt16.ofNat_toNat]
    rfl
  · exact UInt16.toNat_ofNat_of_lt hk

theorem pair_codes {α : Type} {r : Read α} {enc : α → List UInt8} (h : Codes r enc) :
    Codes (pair r) fun p => enc p.1 ++ enc p.2 := by
  intro xs p rest
  unfold pair
  rw [h.bind_ok]
  constructor
  · rintro ⟨first, ys, rfl, hrest⟩
    obtain ⟨second, zs, rfl, hpure⟩ := h.bind_ok.mp hrest
    obtain ⟨rfl, rfl⟩ := pure_ok.mp hpure
    exact (List.append_assoc _ _ _).symm
  · rintro rfl
    exact ⟨p.1, enc p.2 ++ rest, List.append_assoc _ _ _, h.bind_ok.mpr ⟨p.2, rest, rfl, rfl⟩⟩

theorem booleans_codes (n : ℕ) : Codes (booleans n) bits := by
  have h := boolean_codes.replicate n
  intro xs v rest
  rw [bits, List.map_eq_flatMap]
  exact h xs v rest

theorem TouchContact.new_eq_some {maxX maxY : UInt16} {id : UInt8} {x y : UInt16}
    {c : TouchContact maxX maxY} :
    TouchContact.new id x y = some c ↔ id = c.id ∧ x = c.x ∧ y = c.y := by
  unfold TouchContact.new
  constructor
  · intro h
    split at h
    · split at h
      · cases h
        exact ⟨rfl, rfl, rfl⟩
      · cases h
    · cases h
  · rintro ⟨rfl, rfl, rfl⟩
    rw [dif_pos c.xInRange, dif_pos c.yInRange]

theorem touch_codes {maxX maxY : UInt16} :
    Codes (touch : Read (Option (TouchContact maxX maxY))) touchBytes := by
  intro xs t rest
  unfold touch
  rw [boolean_codes.bind_ok]
  constructor
  · rintro ⟨present, ys, rfl, h⟩
    cases present with
    | false =>
      obtain ⟨rfl, rfl⟩ := pure_ok.mp h
      rfl
    | true =>
      obtain ⟨id, _, rfl, hid⟩ := byte_codes.bind_ok.mp h
      obtain ⟨x, _, rfl, hx⟩ := u16_codes.bind_ok.mp hid
      obtain ⟨y, _, rfl, hy⟩ := u16_codes.bind_ok.mp hx
      cases hnew : (TouchContact.new id x y : Option (TouchContact maxX maxY)) with
      | none =>
        rw [hnew] at hy
        cases hy
      | some contact =>
        rw [hnew] at hy
        obtain ⟨rfl, rfl⟩ := pure_ok.mp hy
        obtain ⟨rfl, rfl, rfl⟩ := TouchContact.new_eq_some.mp hnew
        simp [touchBytes]
  · rintro rfl
    cases t with
    | none => exact ⟨false, rest, rfl, rfl⟩
    | some contact =>
      refine ⟨true, [contact.id] ++ (bytesLe 2 contact.x.toNat ++ (bytesLe 2 contact.y.toNat ++ rest)),
        by simp [touchBytes], byte_codes.bind_ok.mpr ⟨_, _, rfl, u16_codes.bind_ok.mpr ⟨_, _, rfl,
          u16_codes.bind_ok.mpr ⟨_, _, rfl, ?_⟩⟩⟩⟩
      rw [TouchContact.new_eq_some.mpr ⟨rfl, rfl, rfl⟩]
      rfl

theorem motionSample_codes : Codes motionSample motionBytes := by
  intro xs m rest
  unfold motionSample motionBytes
  rw [(i16_codes.replicate 3).bind_ok, List.flatMap_append]
  constructor
  · rintro ⟨accelerometer, ys, rfl, h⟩
    obtain ⟨gyroscope, zs, rfl, hpure⟩ := (i16_codes.replicate 3).bind_ok.mp h
    obtain ⟨rfl, rfl⟩ := pure_ok.mp hpure
    exact (List.append_assoc _ _ _).symm
  · rintro rfl
    exact ⟨m.accelerometer, m.gyroscope.toList.flatMap i16Bytes ++ rest, List.append_assoc _ _ _,
      (i16_codes.replicate 3).bind_ok.mpr ⟨m.gyroscope, rest, rfl, rfl⟩⟩

theorem batteryState_codes : Codes batteryState batteryBytes := by
  intro xs b rest
  unfold batteryState
  rw [boolean_codes.bind_ok]
  constructor
  · rintro ⟨exposed, ys, rfl, h⟩
    obtain ⟨percent, zs, rfl, hlevel⟩ := byte_codes.bind_ok.mp h
    unfold BatteryLevel.new at hlevel
    by_cases hp : percent ≤ 100
    · rw [dif_pos hp] at hlevel
      obtain ⟨rfl, rfl⟩ := pure_ok.mp hlevel
      rfl
    · rw [dif_neg hp] at hlevel
      cases hlevel
  · rintro rfl
    refine ⟨b.exposed, [b.level.percent] ++ rest, rfl, byte_codes.bind_ok.mpr ⟨_, _, rfl, ?_⟩⟩
    unfold BatteryLevel.new
    rw [dif_pos b.level.inRange]
    rfl

theorem DualSenseState.payload_codes : Codes decodePayload encodePayload := by
  intro xs s rest
  unfold decodePayload
  simp only [(booleans_codes _).bind_ok, (pair_codes byte_codes).bind_ok,
    (touch_codes.replicate 2).bind_ok, motionSample_codes.bind_ok, byte_codes.bind_ok,
    u32_codes.bind_ok, batteryState_codes.bind_ok, pure_ok]
  constructor
  · rintro ⟨face, _, rfl, dpad, _, rfl, left, _, rfl, right, _, rfl, triggers, _, rfl, buttons, _, rfl,
      touches, _, rfl, motion, _, rfl, inputSequence, _, rfl, sensorTimestamp, _, rfl, battery, _, rfl,
      rfl, rfl⟩
    simp [encodePayload]
  · rintro rfl
    refine ⟨s.face, _, ?_, s.dpad, _, rfl, s.left, _, rfl, s.right, _, rfl, s.triggers, _, rfl,
      s.buttons, _, rfl, s.touches, _, rfl, s.motion, _, rfl, s.inputSequence, _, rfl,
      s.sensorTimestamp, _, rfl, s.battery, rest, rfl, rfl, rfl⟩
    simp [encodePayload]

theorem DualShock4State.payload_codes : Codes decodePayload encodePayload := by
  intro xs s rest
  unfold decodePayload
  simp only [(booleans_codes _).bind_ok, (pair_codes byte_codes).bind_ok,
    (touch_codes.replicate 2).bind_ok, motionSample_codes.bind_ok, byte_codes.bind_ok,
    u16_codes.bind_ok, batteryState_codes.bind_ok, pure_ok]
  constructor
  · rintro ⟨face, _, rfl, dpad, _, rfl, left, _, rfl, right, _, rfl, triggers, _, rfl, buttons, _, rfl,
      touches, _, rfl, motion, _, rfl, touchSequence, _, rfl, sequence, _, rfl, sensorTimestamp, _, rfl,
      battery, _, rfl, rfl, rfl⟩
    simp [encodePayload]
  · rintro rfl
    refine ⟨s.face, _, ?_, s.dpad, _, rfl, s.left, _, rfl, s.right, _, rfl, s.triggers, _, rfl,
      s.buttons, _, rfl, s.touches, _, rfl, s.motion, _, rfl, s.touchSequence, _, rfl, s.sequence, _,
      rfl, s.sensorTimestamp, _, rfl, s.battery, rest, rfl, rfl, rfl⟩
    simp [encodePayload]

theorem Xbox360State.payload_codes : Codes decodePayload encodePayload := by
  intro xs s rest
  unfold decodePayload
  simp only [(booleans_codes _).bind_ok, (pair_codes byte_codes).bind_ok,
    (pair_codes i16_codes).bind_ok, batteryState_codes.bind_ok, pure_ok]
  constructor
  · rintro ⟨face, _, rfl, dpad, _, rfl, left, _, rfl, right, _, rfl, triggers, _, rfl, buttons, _, rfl,
      battery, _, rfl, rfl, rfl⟩
    simp [encodePayload]
  · rintro rfl
    refine ⟨s.face, _, ?_, s.dpad, _, rfl, s.left, _, rfl, s.right, _, rfl, s.triggers, _, rfl,
      s.buttons, _, rfl, s.battery, rest, rfl, rfl, rfl⟩
    simp [encodePayload]

/-- The family byte of a snapshot. -/
def familyOf : NativeState → UInt8
  | .dualSense _ => 1
  | .dualShock4 _ => 2
  | .xbox360 _ => 3

theorem snapshot_ok {family : UInt8} {xs rest : List UInt8} {s : NativeState} :
    snapshot family xs = .ok (s, rest) ↔ familyOf s = family ∧ xs = encode s ++ rest := by
  unfold snapshot
  rw [byte_codes.bind_ok]
  constructor
  · rintro ⟨version, ys, rfl, h⟩
    by_cases hversion : version ≠ 1
    · rw [if_pos hversion] at h
      cases h
    · rw [if_neg hversion] at h
      obtain rfl := not_not.mp hversion
      obtain ⟨found, zs, rfl, hfound⟩ := byte_codes.bind_ok.mp h
      by_cases hfamily : found ≠ family
      · rw [if_pos hfamily] at hfound
        cases hfound
      · rw [if_neg hfamily] at hfound
        obtain rfl := not_not.mp hfamily
        split at hfound
        · obtain ⟨state, _, rfl, hpure⟩ := DualSenseState.payload_codes.bind_ok.mp hfound
          obtain ⟨rfl, rfl⟩ := pure_ok.mp hpure
          exact ⟨rfl, rfl⟩
        · obtain ⟨state, _, rfl, hpure⟩ := DualShock4State.payload_codes.bind_ok.mp hfound
          obtain ⟨rfl, rfl⟩ := pure_ok.mp hpure
          exact ⟨rfl, rfl⟩
        · obtain ⟨state, _, rfl, hpure⟩ := Xbox360State.payload_codes.bind_ok.mp hfound
          obtain ⟨rfl, rfl⟩ := pure_ok.mp hpure
          exact ⟨rfl, rfl⟩
        · cases hfound
  · rintro ⟨rfl, rfl⟩
    refine ⟨1, (encode s ++ rest).tail, ?_, ?_⟩
    · cases s <;> rfl
    · rw [if_neg (not_not.mpr rfl)]
      refine byte_codes.bind_ok.mpr ⟨familyOf s, (encode s ++ rest).drop 2, ?_, ?_⟩
      · cases s <;> rfl
      · rw [if_neg (not_not.mpr rfl)]
        cases s with
        | dualSense state => exact DualSenseState.payload_codes.bind_ok.mpr ⟨state, rest, rfl, rfl⟩
        | dualShock4 state => exact DualShock4State.payload_codes.bind_ok.mpr ⟨state, rest, rfl, rfl⟩
        | xbox360 state => exact Xbox360State.payload_codes.bind_ok.mpr ⟨state, rest, rfl, rfl⟩

end Codecs

section Bijection

theorem length_bits {n : ℕ} (bs : Vector Bool n) : (bits bs).length = n := by
  unfold bits
  rw [List.length_map, Vector.length_toList]

theorem length_flatMap_le {α : Type} {n k : ℕ} (v : Vector α n) {enc : α → List UInt8}
    (h : ∀ a, (enc a).length ≤ k) : (v.toList.flatMap enc).length ≤ n * k := by
  rw [List.length_flatMap]
  have hsum := List.sum_le_card_nsmul (v.toList.map fun a => (enc a).length) k (by
    intro x hx
    obtain ⟨a, _, rfl⟩ := List.mem_map.mp hx
    exact h a)
  rw [List.length_map, Vector.length_toList] at hsum
  exact hsum

theorem touchBytes_le {maxX maxY : UInt16} (t : Option (TouchContact maxX maxY)) :
    (touchBytes t).length ≤ 6 := by
  cases t with
  | none => exact Nat.succ_le_of_lt (by decide)
  | some c => simp [touchBytes]

theorem motionBytes_le (m : MotionSample) : (motionBytes m).length ≤ 12 := by
  have hvalue : ∀ v : Int16, (i16Bytes v).length ≤ 2 := fun v => (length_bytesLe _ _).le
  have haccelerometer := length_flatMap_le m.accelerometer hvalue
  have hgyroscope := length_flatMap_le m.gyroscope hvalue
  unfold motionBytes
  rw [List.flatMap_append, List.length_append]
  omega

/-- A snapshot fits the bound of the decoder. -/
theorem encode_le (s : NativeState) : (encode s).length ≤ 128 := by
  cases s with
  | dualSense s =>
    have htouches := length_flatMap_le s.touches touchBytes_le
    have hmotion := motionBytes_le s.motion
    simp only [encode, DualSenseState.encodePayload, List.length_append, length_bits, length_bytesLe,
      batteryBytes, List.length_cons, List.length_nil]
    omega
  | dualShock4 s =>
    have htouches := length_flatMap_le s.touches touchBytes_le
    have hmotion := motionBytes_le s.motion
    simp only [encode, DualShock4State.encodePayload, List.length_append, length_bits, length_bytesLe,
      batteryBytes, List.length_cons, List.length_nil]
    omega
  | xbox360 s =>
    simp [encode, Xbox360State.encodePayload, length_bits, batteryBytes, i16Bytes]

theorem one_lt_encode (s : NativeState) : 1 < (encode s).length := by
  cases s <;> exact Nat.succ_lt_succ (Nat.succ_pos _)

/-- What is decoded is the snapshot of the state, of the family that was asked for. -/
theorem decode_ok {bytes : List UInt8} {family : UInt8} {s : NativeState} :
    decode bytes family = .ok s ↔ familyOf s = family ∧ bytes = encode s := by
  unfold decode
  by_cases hlong : 128 < bytes.length
  · rw [if_pos hlong]
    constructor
    · intro h
      cases h
    · rintro ⟨_, rfl⟩
      exact absurd (encode_le s) (Nat.not_le_of_lt hlong)
  · rw [if_neg hlong, complete_ok, snapshot_ok, List.append_nil]

/-- Neither a truncated nor a padded snapshot is one. -/
theorem decode_unique {xs ys : List UInt8} {family : UInt8} {s t : NativeState}
    (hx : decode xs family = .ok s) (hy : decode ys family = .ok t) (hp : xs <+: ys) : xs = ys := by
  obtain ⟨hs, rfl⟩ := decode_ok.mp hx
  obtain ⟨ht, rfl⟩ := decode_ok.mp hy
  obtain ⟨tail, htail⟩ := hp
  have hlong : snapshot family (encode t) = .ok (s, tail) := snapshot_ok.mpr ⟨hs, htail.symm⟩
  have hshort : snapshot family (encode t) = .ok (t, []) :=
    snapshot_ok.mpr ⟨ht, (List.append_nil _).symm⟩
  rw [hlong] at hshort
  obtain ⟨rfl, _⟩ := Prod.mk.inj (Except.ok.inj hshort)
  rfl

def TouchInRange {maxX maxY : UInt16} (t : Option (TouchContact maxX maxY)) : Prop :=
  ∀ c ∈ t, c.x ≤ maxX ∧ c.y ≤ maxY

def BatteryInRange (b : BatteryState) : Prop := b.level.percent ≤ 100

/-- What the constructors check. The other fields use the whole range of their types. -/
def Constructible : NativeState → Prop
  | .dualSense s => (∀ t ∈ s.touches, TouchInRange t) ∧ BatteryInRange s.battery
  | .dualShock4 s => (∀ t ∈ s.touches, TouchInRange t) ∧ BatteryInRange s.battery
  | .xbox360 s => BatteryInRange s.battery

theorem constructible (s : NativeState) : Constructible s := by
  cases s with
  | dualSense s => exact ⟨fun _ _ c _ => ⟨c.xInRange, c.yInRange⟩, s.battery.level.inRange⟩
  | dualShock4 s => exact ⟨fun _ _ c _ => ⟨c.xInRange, c.yInRange⟩, s.battery.level.inRange⟩
  | xbox360 s => exact s.battery.level.inRange

/-- Snapshots and accepted byte strings correspond one to one, within the bounds of the wire. -/
structure CodecBijective : Prop where
  decode_encode : ∀ s, decode (encode s) (familyOf s) = .ok s
  encode_le : ∀ s, (encode s).length ≤ 128
  update_fits : ∀ generation sequence s, 17 ≤ (updateBody generation sequence s).length ∧
    (updateBody generation sequence s).length ≤ 144 ∧
    (updateBody generation sequence s).length ≤ maxWirePayload
  encode_decode : ∀ bytes family s, decode bytes family = .ok s →
    encode s = bytes ∧ familyOf s = family ∧ bytes.take 2 = [1, family] ∧ Constructible s
  /-- No byte string decodes to two states. -/
  decode_family : ∀ bytes family family' s t, decode bytes family = .ok s →
    decode bytes family' = .ok t → s = t ∧ family = family'

theorem encode_take (s : NativeState) : (encode s).take 2 = [1, familyOf s] := by
  cases s <;> rfl

theorem familyOf_eq (s : NativeState) : familyOf s = (encode s).getD 1 0 := by
  cases s <;> rfl

theorem codec_bijective : CodecBijective := by
  constructor
  · intro s
    exact decode_ok.mpr ⟨rfl, rfl⟩
  · exact NativeState.encode_le
  · intro generation sequence s
    have hlow := one_lt_encode s
    have hhigh := NativeState.encode_le s
    unfold updateBody maxWirePayload
    rw [List.length_append, List.length_append, length_bytesLe, length_bytesLe]
    omega
  · intro bytes family s h
    obtain ⟨rfl, rfl⟩ := decode_ok.mp h
    exact ⟨rfl, rfl, encode_take s, constructible s⟩
  · intro bytes family family' s t hs ht
    obtain ⟨rfl, rfl⟩ := decode_ok.mp hs
    obtain ⟨rfl, hst⟩ := decode_ok.mp ht
    have hfamily : familyOf s = familyOf t := by rw [familyOf_eq, hst, ← familyOf_eq]
    have hagain : decode (encode t) (familyOf t) = .ok s := decode_ok.mpr ⟨hfamily, hst.symm⟩
    rw [decode_ok.mpr ⟨rfl, rfl⟩] at hagain
    exact ⟨(Except.ok.inj hagain).symm, hfamily⟩

end Bijection

end NativeState
