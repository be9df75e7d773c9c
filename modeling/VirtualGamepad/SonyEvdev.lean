import VirtualGamepad.CompoundSession
import VirtualGamepad.NativeState

/-! The evdev snapshots of the Sony controllers, and the gamepad and touch devices that they are
divided over. -/
namespace SonyEvdev

open CompoundSession (EvdevEvent ProviderError)
open NativeState

section Devices

structure NativeDeviceIdentity where
  vendorId : ℕ
  productId : ℕ
  version : ℕ
  deriving DecidableEq, Repr

structure NativeAbsoluteAxis where
  code : ℕ
  minimum : ℤ
  maximum : ℤ
  flat : ℤ
  deriving DecidableEq, Repr

structure NativeEvdevRealization where
  physicalPath : Option String
  deviceName : String
  identity : NativeDeviceIdentity
  eventCodes : List ℕ
  keyCodes : List ℕ
  absoluteAxes : List NativeAbsoluteAxis
  relativeAxes : List ℕ
  ledCodes : List ℕ
  switchCodes : List ℕ
  forceFeedbackCodes : List ℕ
  deriving DecidableEq, Repr

inductive NativeControllerRealization where
  | evdev (spec : NativeEvdevRealization)
  | uhid
  | dummyHcd

/-- A request to open a device; what else it carries is in `R`. -/
structure ProviderOpenRequest (Q R : Type) where
  realization : NativeControllerRealization
  requirements : Q
  rest : R

def evSyn : ℕ := 0
def evKey : ℕ := 1
def evAbs : ℕ := 3
def evFf : ℕ := 21
def synReport : ℕ := 0

/-- Finger contact and touch. -/
def isTouchKey (code : ℕ) : Bool := code = 325 ∨ code = 330

def gamepadSpec (spec : NativeEvdevRealization) : NativeEvdevRealization :=
  { spec with
    physicalPath := spec.physicalPath.map (· ++ "/gamepad")
    -- the revision of the native layout that the host's mapping pins
    identity := { spec.identity with version := 0x8111 }
    keyCodes := spec.keyCodes.filter fun code => !isTouchKey code
    absoluteAxes := spec.absoluteAxes.filter fun axis => axis.code < 47 }

def touchName (identity : NativeDeviceIdentity) : Option String :=
  if identity.vendorId = 0x054c ∧ identity.productId = 0x05c4 then
    some "Virtual DS4 Touch Contacts"
  else if identity.vendorId = 0x054c ∧ identity.productId = 0x0ce6 then
    some "Virtual DualSense Touch Contacts"
  else none

def touchSpec (name : String) (spec : NativeEvdevRealization) : NativeEvdevRealization :=
  { spec with
    physicalPath := spec.physicalPath.map (· ++ "/touch")
    deviceName := name
    -- a generic touch device, not a second gamepad
    identity := if spec.identity.productId = 0x0ce6 then ⟨0, 0, 1⟩ else spec.identity
    eventCodes := [evKey, evAbs]
    keyCodes := spec.keyCodes.filter isTouchKey
    forceFeedbackCodes := []
    absoluteAxes :=
      (spec.absoluteAxes.filter fun axis => 47 ≤ axis.code) ++ [⟨0, 0, 1919, 0⟩, ⟨1, 0, 941, 0⟩] }

def requests {Q R : Type} [Inhabited Q] (request : ProviderOpenRequest Q R) :
    Except ProviderError (ProviderOpenRequest Q R × ProviderOpenRequest Q R) :=
  match request.realization with
  | .evdev spec =>
    match touchName spec.identity with
    | some name =>
      .ok ({ request with realization := .evdev (gamepadSpec spec) },
        { request with
          realization := .evdev (touchSpec name spec)
          requirements := default })
    | none => .error (.unsupported "unknown Sony touch geometry")
  | _ => .error (.unsupported "Sony composition requires evdev")

/-- The stick, trigger and pad axes of both controllers. -/
def padAxes : List NativeAbsoluteAxis :=
  [⟨0, 0, 255, 0⟩, ⟨1, 0, 255, 0⟩, ⟨2, 0, 255, 0⟩, ⟨3, 0, 255, 0⟩, ⟨4, 0, 255, 0⟩,
    ⟨5, 0, 255, 0⟩, ⟨16, -1, 1, 0⟩, ⟨17, -1, 1, 0⟩]

def faceCodes : List ℕ := [304, 305, 308, 307]

def buttonCodes : List ℕ := [310, 311, 314, 315, 316, 704, 317, 318]

def padKeys : List ℕ := [312, 313] ++ faceCodes ++ buttonCodes

def dualshock4Realization (physicalPath : Option String) : NativeEvdevRealization where
  physicalPath := physicalPath
  deviceName := "Wireless Controller"
  identity := ⟨0x054c, 0x05c4, 0x0120⟩
  eventCodes := [evKey, evAbs, evFf]
  keyCodes := padKeys ++ [330]
  absoluteAxes := padAxes ++
    [⟨47, 0, 1, 0⟩, ⟨57, -1, 127, 0⟩, ⟨53, 0, 1919, 0⟩, ⟨54, 0, 941, 0⟩]
  relativeAxes := []
  ledCodes := []
  switchCodes := []
  forceFeedbackCodes := [0x50]

def dualsenseRealization (physicalPath : Option String) : NativeEvdevRealization where
  physicalPath := physicalPath
  deviceName := "DualSense Wireless Controller"
  identity := ⟨0x054c, 0x0ce6, 0x8111⟩
  eventCodes := [evKey, evAbs, evFf]
  keyCodes := padKeys ++ [330, 325]
  absoluteAxes := padAxes ++
    [⟨47, 0, 1, 0⟩, ⟨53, 0, 1919, 0⟩, ⟨54, 0, 941, 0⟩, ⟨57, 0, 255, 0⟩]
  relativeAxes := []
  ledCodes := []
  switchCodes := []
  forceFeedbackCodes := [0x50]

end Devices

section Snapshots

def key (code : ℕ) (pressed : Bool) : EvdevEvent := ⟨evKey, code, if pressed then 1 else 0⟩

def absolute (code : ℕ) (value : ℤ) : EvdevEvent := ⟨evAbs, code, value⟩

def report : EvdevEvent := ⟨evSyn, synReport, 0⟩

def direction (negative positive : Bool) : ℤ :=
  (if positive then 1 else 0) - (if negative then 1 else 0)

/-- Keys and axes that both controllers encode alike. -/
def padEvents (face dpad buttons : List Bool) (left right triggers : UInt8 × UInt8) :
    List EvdevEvent :=
  List.zipWith key faceCodes face ++ List.zipWith key buttonCodes buttons ++
    [key 312 (triggers.1 ≠ 0), key 313 (triggers.2 ≠ 0),
      absolute 0 left.1.toNat, absolute 1 left.2.toNat, absolute 2 triggers.1.toNat,
      absolute 3 right.1.toNat, absolute 4 right.2.toNat, absolute 5 triggers.2.toNat,
      absolute 16 (direction dpad[2]! dpad[3]!), absolute 17 (direction dpad[0]! dpad[1]!)]

variable {maxX maxY : UInt16}

def touchEvents (slot : ℤ) : Option (TouchContact maxX maxY) → List EvdevEvent
  | some contact =>
    [absolute 47 slot, absolute 57 contact.id.toNat, absolute 53 contact.x.toNat,
      absolute 54 contact.y.toNat]
  | none => [absolute 47 slot, absolute 57 (-1)]

def active (touches : Vector (Option (TouchContact maxX maxY)) 2) : Bool :=
  touches[0]!.isSome || touches[1]!.isSome

def ds4Touches (touches : Vector (Option DualShock4TouchContact) 2) : List EvdevEvent :=
  touchEvents 0 touches[0]! ++ touchEvents 1 touches[1]! ++ [key 330 (active touches)]

def encodeTouches (touches : Vector (Option DualSenseTouchContact) 2) : List EvdevEvent :=
  [key 330 (active touches), key 325 (active touches)] ++
    (touchEvents 0 touches[0]! ++ touchEvents 1 touches[1]!)

def ds4EvdevFrame (state : DualShock4State) : List EvdevEvent :=
  padEvents state.face.toList state.dpad.toList state.buttons.toList state.left state.right
    state.triggers ++ ds4Touches state.touches ++ [report]

def dualsenseEvdevFrame (state : DualSenseState) : List EvdevEvent :=
  padEvents state.face.toList state.dpad.toList state.buttons.toList state.left state.right
    state.triggers ++ encodeTouches state.touches ++ [report]

end Snapshots

section Split

/-- The tracking id and the coordinates that a slot has. -/
structure SlotContact where
  trackingId : ℤ
  x : ℤ
  y : ℤ

structure Split where
  gamepad : List EvdevEvent
  touch : List EvdevEvent
  contacts : List SlotContact
  slot : ℕ

def Split.start : Split := ⟨[], [], List.replicate 2 ⟨-1, 0, 0⟩, 0⟩

def SlotContact.set (contact : SlotContact) (code : ℕ) (value : ℤ) : SlotContact :=
  if code = 57 then { contact with trackingId := value }
  else if code = 53 then { contact with x := value }
  else { contact with y := value }

def Split.event (s : Split) (e : EvdevEvent) : Split :=
  if e.eventType = evAbs ∧ e.code = 47 then
    { s with slot := if 0 ≤ e.value then e.value.toNat else 2, touch := s.touch ++ [e] }
  else if e.eventType = evAbs ∧ (e.code = 53 ∨ e.code = 54 ∨ e.code = 57) then
    { s with
      contacts := s.contacts.modify s.slot fun contact => contact.set e.code e.value
      touch := s.touch ++ [e] }
  else if e.eventType = evKey ∧ isTouchKey e.code then { s with touch := s.touch ++ [e] }
  else if e.eventType = evSyn ∧ e.code = synReport then s
  else { s with gamepad := s.gamepad ++ [e] }

/-- Coordinates of the first active contact, never of the gamepad's stick. -/
def Split.legacy (s : Split) : List EvdevEvent :=
  match s.contacts.find? fun contact => 0 ≤ contact.trackingId with
  | some contact => [absolute 0 contact.x, absolute 1 contact.y]
  | none => []

/-- The frames of the gamepad and of the touch device. -/
def split (events : List EvdevEvent) : List EvdevEvent × List EvdevEvent :=
  let s := events.foldl Split.event .start
  (s.gamepad ++ [report], s.touch ++ s.legacy ++ [report])

end Split

section Division

def isReport (e : EvdevEvent) : Bool := e.eventType = evSyn ∧ e.code = synReport

def onTouch (e : EvdevEvent) : Bool :=
  (e.eventType = evAbs ∧ (e.code = 47 ∨ e.code = 53 ∨ e.code = 54 ∨ e.code = 57)) ∨
    (e.eventType = evKey ∧ isTouchKey e.code)

def onGamepad (e : EvdevEvent) : Bool := !onTouch e && !isReport e

/-- An event goes to one of the devices, and the marker of the report to none. -/
theorem event_frames (s : Split) (e : EvdevEvent) :
    (s.event e).touch = s.touch ++ [e].filter onTouch ∧
    (s.event e).gamepad = s.gamepad ++ [e].filter onGamepad := by
  by_cases hslot : e.eventType = evAbs ∧ e.code = 47
  · have htouch : onTouch e = true := by simp [onTouch, hslot]
    simp [Split.event, hslot, onGamepad, htouch]
  by_cases hcontact : e.eventType = evAbs ∧ (e.code = 53 ∨ e.code = 54 ∨ e.code = 57)
  · have htouch : onTouch e = true := by
      simp only [onTouch, decide_eq_true_eq]
      exact .inl ⟨hcontact.1, .inr hcontact.2⟩
    simp [Split.event, if_neg hslot, if_pos hcontact, onGamepad, htouch]
  by_cases hkey : e.eventType = evKey ∧ isTouchKey e.code
  · have htouch : onTouch e = true := by
      simp only [onTouch, decide_eq_true_eq]
      exact .inr hkey
    simp [Split.event, if_neg hslot, if_neg hcontact, if_pos hkey, onGamepad, htouch]
  have htouch : onTouch e = false := by
    simp only [onTouch, decide_eq_false_iff_not]
    tauto
  by_cases hreport : e.eventType = evSyn ∧ e.code = synReport
  · have hmarker : isReport e = true := by simp [isReport, hreport]
    simp [Split.event, if_neg hslot, if_neg hcontact, if_neg hkey, if_pos hreport, onGamepad,
      htouch, hmarker]
  · have hmarker : isReport e = false := by
      simp only [isReport, decide_eq_false_iff_not]
      exact hreport
    simp [Split.event, if_neg hslot, if_neg hcontact, if_neg hkey, if_neg hreport, onGamepad,
      htouch, hmarker]

theorem events_frames (s : Split) (events : List EvdevEvent) :
    (events.foldl Split.event s).touch = s.touch ++ events.filter onTouch ∧
    (events.foldl Split.event s).gamepad = s.gamepad ++ events.filter onGamepad := by
  induction events generalizing s with
  | nil => simp
  | cons e events ih =>
    have hcons : ∀ p : EvdevEvent → Bool,
        (e :: events).filter p = [e].filter p ++ events.filter p := by
      intro p
      rw [← List.filter_append, List.singleton_append]
    obtain ⟨htouch, hgamepad⟩ := event_frames s e
    rw [List.foldl_cons, hcons, hcons, ← List.append_assoc, ← List.append_assoc, ← htouch, ← hgamepad]
    exact ih _

theorem split_frames (events : List EvdevEvent) :
    split events = (events.filter onGamepad ++ [report],
      events.filter onTouch ++ (events.foldl Split.event .start).legacy ++ [report]) := by
  obtain ⟨htouch, hgamepad⟩ := events_frames .start events
  simp only [split, htouch, hgamepad]
  rfl

end Division

section Frames

/-- The device declares the code of the event, and its value unless it releases a contact. -/
def Within (spec : NativeEvdevRealization) (e : EvdevEvent) : Prop :=
  (e.eventType = evKey → e.code ∈ spec.keyCodes) ∧
  (e.eventType = evAbs → (∃ axis ∈ spec.absoluteAxes, axis.code = e.code) ∧
    (¬(e.code = 57 ∧ e.value = -1) →
      ∀ axis ∈ spec.absoluteAxes, axis.code = e.code →
        axis.minimum ≤ e.value ∧ e.value ≤ axis.maximum))

/-- Every event of the snapshot is in one of the frames, in its order; each frame ends with the
report marker, and the touch frame may add coordinates of its own. -/
def Divided (snapshot gamepad touch added : List EvdevEvent) : Prop :=
  ∃ (body : List EvdevEvent) (forTouch : EvdevEvent → Bool),
    snapshot = body ++ [report] ∧ (∀ e ∈ body, isReport e = false) ∧
    gamepad = body.filter (fun e => !forTouch e) ++ [report] ∧
    touch = body.filter forTouch ++ added ++ [report]

variable {maxX maxY : UInt16}

/-- The coordinates of the first active contact. -/
def firstContact (touches : Vector (Option (TouchContact maxX maxY)) 2) : List EvdevEvent :=
  match touches[0]!, touches[1]! with
  | some contact, _ | none, some contact =>
    [absolute 0 contact.x.toNat, absolute 1 contact.y.toNat]
  | none, none => []

/-- A snapshot that stays inside the devices that are requested for it. -/
def Contained (spec : NativeEvdevRealization) (snapshot added : List EvdevEvent) : Prop :=
  ∃ (gamepad touch : NativeEvdevRealization),
    (∀ {Q R : Type} [Inhabited Q] (requirements : Q) (rest : R),
      requests ⟨.evdev spec, requirements, rest⟩ =
        .ok (⟨.evdev gamepad, requirements, rest⟩, ⟨.evdev touch, default, rest⟩)) ∧
    (∀ e ∈ (split snapshot).1, Within gamepad e) ∧
    (∀ e ∈ (split snapshot).2, Within touch e) ∧
    Divided snapshot (split snapshot).1 (split snapshot).2 added

theorem within_report (spec : NativeEvdevRealization) : Within spec report := by
  simp [Within, report, evSyn, evKey, evAbs]

theorem within_key {spec : NativeEvdevRealization} {code : ℕ} {pressed : Bool} :
    Within spec (key code pressed) ↔ code ∈ spec.keyCodes := by
  simp [Within, key, evKey, evAbs]

/-- The axis of this code stands once or more in a table, always with this range. -/
def Declares (axes : List NativeAbsoluteAxis) (code : ℕ) (minimum maximum : ℤ) : Prop :=
  (∃ axis ∈ axes, axis.code = code) ∧
    ∀ axis ∈ axes, axis.code = code → axis.minimum = minimum ∧ axis.maximum = maximum

instance (axes : List NativeAbsoluteAxis) (code : ℕ) (minimum maximum : ℤ) :
    Decidable (Declares axes code minimum maximum) :=
  inferInstanceAs (Decidable (_ ∧ _))

theorem within_absolute {spec : NativeEvdevRealization} {code : ℕ} {value minimum maximum : ℤ}
    (h : Declares spec.absoluteAxes code minimum maximum) :
    Within spec (absolute code value) ↔
      (code = 57 ∧ value = -1) ∨ (minimum ≤ value ∧ value ≤ maximum) := by
  have hkey : evAbs ≠ evKey := by decide
  constructor
  · intro hwithin
    obtain ⟨⟨axis, haxis, hcode⟩, hrange⟩ := hwithin.2 rfl
    by_cases hrelease : code = 57 ∧ value = -1
    · exact .inl hrelease
    · obtain ⟨hmin, hmax⟩ := h.2 axis haxis hcode
      exact .inr (hmin ▸ hmax ▸ hrange hrelease axis haxis hcode)
  · intro hvalue
    refine ⟨fun heq => absurd heq hkey, fun _ => ⟨h.1, ?_⟩⟩
    intro hrelease axis haxis hcode
    obtain ⟨hmin, hmax⟩ := h.2 axis haxis hcode
    rw [hmin, hmax]
    exact hvalue.resolve_left hrelease

theorem mem_keys {codes : List ℕ} {pressed : List Bool} {e : EvdevEvent}
    (h : e ∈ List.zipWith key codes pressed) : ∃ code ∈ codes, ∃ p, e = key code p := by
  induction codes generalizing pressed with
  | nil => simp at h
  | cons code codes ih =>
    cases pressed with
    | nil => simp at h
    | cons p pressed =>
      rcases List.mem_cons.mp h with rfl | h
      · exact ⟨code, List.mem_cons_self, p, rfl⟩
      · obtain ⟨other, hother, q, rfl⟩ := ih h
        exact ⟨other, List.mem_cons_of_mem _ hother, q, rfl⟩

theorem mem_padEvents {face dpad buttons : List Bool} {left right triggers : UInt8 × UInt8}
    {e : EvdevEvent} (h : e ∈ padEvents face dpad buttons left right triggers) :
    (∃ code ∈ padKeys, ∃ p, e = key code p) ∨
    (∃ code ∈ [0, 1, 2, 3, 4, 5], ∃ value : UInt8, e = absolute code value.toNat) ∨
    (∃ code ∈ [16, 17], ∃ negative positive, e = absolute code (direction negative positive)) := by
  simp only [padEvents, List.mem_append, List.mem_cons, List.not_mem_nil, or_false] at h
  rcases h with (h | h) | h
  · obtain ⟨code, hcode, p, rfl⟩ := mem_keys h
    exact .inl ⟨code, by simp [padKeys, hcode], p, rfl⟩
  · obtain ⟨code, hcode, p, rfl⟩ := mem_keys h
    exact .inl ⟨code, by simp [padKeys, hcode], p, rfl⟩
  · rcases h with rfl | rfl | rfl | rfl | rfl | rfl | rfl | rfl | rfl | rfl
    · exact .inl ⟨312, by simp [padKeys], _, rfl⟩
    · exact .inl ⟨313, by simp [padKeys], _, rfl⟩
    · exact .inr (.inl ⟨0, by decide, _, rfl⟩)
    · exact .inr (.inl ⟨1, by decide, _, rfl⟩)
    · exact .inr (.inl ⟨2, by decide, _, rfl⟩)
    · exact .inr (.inl ⟨3, by decide, _, rfl⟩)
    · exact .inr (.inl ⟨4, by decide, _, rfl⟩)
    · exact .inr (.inl ⟨5, by decide, _, rfl⟩)
    · exact .inr (.inr ⟨16, by decide, _, _, rfl⟩)
    · exact .inr (.inr ⟨17, by decide, _, _, rfl⟩)

theorem direction_bounds (negative positive : Bool) :
    -1 ≤ direction negative positive ∧ direction negative positive ≤ 1 := by
  revert negative positive
  decide

/-- The part of both snapshots that is the gamepad's stays inside any device with its keys and
axes. -/
theorem pad_within {spec : NativeEvdevRealization} (hkeys : ∀ code ∈ padKeys, code ∈ spec.keyCodes)
    (haxes : spec.absoluteAxes = padAxes) {face dpad buttons : List Bool}
    {left right triggers : UInt8 × UInt8} {e : EvdevEvent}
    (h : e ∈ padEvents face dpad buttons left right triggers) : Within spec e := by
  rcases mem_padEvents h with ⟨code, hcode, p, rfl⟩ | ⟨code, hcode, value, rfl⟩ |
    ⟨code, hcode, negative, positive, rfl⟩
  · exact within_key.mpr (hkeys code hcode)
  · have hdeclared : ∀ code ∈ [0, 1, 2, 3, 4, 5], Declares padAxes code 0 255 := by decide
    have hvalue := value.toNat_lt
    exact (within_absolute (haxes ▸ hdeclared code hcode)).mpr (.inr (by omega))
  · have hdeclared : ∀ code ∈ [16, 17], Declares padAxes code (-1) 1 := by decide
    have hbounds := direction_bounds negative positive
    exact (within_absolute (haxes ▸ hdeclared code hcode)).mpr (.inr hbounds)

theorem pad_onGamepad {face dpad buttons : List Bool} {left right triggers : UInt8 × UInt8}
    {e : EvdevEvent} (h : e ∈ padEvents face dpad buttons left right triggers) :
    onTouch e = false ∧ isReport e = false := by
  rcases mem_padEvents h with ⟨code, hcode, p, rfl⟩ | ⟨code, hcode, value, rfl⟩ |
    ⟨code, hcode, negative, positive, rfl⟩
  · have hpad : ∀ code ∈ padKeys, isTouchKey code = false := by decide
    simp [onTouch, isReport, key, evKey, evAbs, evSyn, hpad code hcode]
  · have haxes : ∀ code ∈ [0, 1, 2, 3, 4, 5], code ≠ 47 ∧ code ≠ 53 ∧ code ≠ 54 ∧ code ≠ 57 := by
      decide
    simp [onTouch, isReport, absolute, evKey, evAbs, evSyn, haxes code hcode]
  · have haxes : ∀ code ∈ [16, 17], code ≠ 47 ∧ code ≠ 53 ∧ code ≠ 54 ∧ code ≠ 57 := by decide
    simp [onTouch, isReport, absolute, evKey, evAbs, evSyn, haxes code hcode]

/-- Events of the gamepad leave the contacts as they are. -/
theorem fold_gamepad {events : List EvdevEvent} (h : ∀ e ∈ events, onTouch e = false) (s : Split) :
    (events.foldl Split.event s).contacts = s.contacts ∧
      (events.foldl Split.event s).slot = s.slot := by
  induction events generalizing s with
  | nil => exact ⟨rfl, rfl⟩
  | cons e events ih =>
    have he := h e List.mem_cons_self
    simp only [onTouch, decide_eq_false_iff_not, not_or, not_and] at he
    obtain ⟨habs, hkey⟩ := he
    have hstep : (s.event e).contacts = s.contacts ∧ (s.event e).slot = s.slot := by
      have hslot : ¬(e.eventType = evAbs ∧ e.code = 47) := fun h => (habs h.1).1 h.2
      have hcontact : ¬(e.eventType = evAbs ∧ (e.code = 53 ∨ e.code = 54 ∨ e.code = 57)) := by
        rintro ⟨htype, h | h | h⟩
        · exact (habs htype).2.1 h
        · exact (habs htype).2.2.1 h
        · exact (habs htype).2.2.2 h
      have htouch : ¬(e.eventType = evKey ∧ isTouchKey e.code) := fun h => hkey h.1 h.2
      rw [Split.event, if_neg hslot, if_neg hcontact, if_neg htouch]
      split
      · exact ⟨rfl, rfl⟩
      · exact ⟨rfl, rfl⟩
    obtain ⟨hcontacts, hslot⟩ := ih (fun e he => h e (List.mem_cons_of_mem _ he)) (s.event e)
    exact ⟨hcontacts.trans hstep.1, hslot.trans hstep.2⟩

def slotContact : Option (TouchContact maxX maxY) → SlotContact
  | some contact => ⟨contact.id.toNat, contact.x.toNat, contact.y.toNat⟩
  | none => ⟨-1, 0, 0⟩

/-- A key of the touch device leaves the contacts as they are. -/
theorem event_touchKey (s : Split) {code : ℕ} (h : isTouchKey code) (pressed : Bool) :
    (s.event (key code pressed)).contacts = s.contacts := by
  simp [Split.event, key, evKey, evAbs, h]

theorem fold_touchEvents {s : Split} (first second : Option (TouchContact maxX maxY))
    (h : s.contacts = [⟨-1, 0, 0⟩, ⟨-1, 0, 0⟩]) :
    ((touchEvents 0 first ++ touchEvents 1 second).foldl Split.event s).contacts =
      [slotContact first, slotContact second] := by
  cases first with
  | none =>
    cases second with
    | none => simp [touchEvents, Split.event, absolute, SlotContact.set, slotContact, h]
    | some b => simp [touchEvents, Split.event, absolute, SlotContact.set, slotContact, h]
  | some a =>
    cases second with
    | none => simp [touchEvents, Split.event, absolute, SlotContact.set, slotContact, h]
    | some b => simp [touchEvents, Split.event, absolute, SlotContact.set, slotContact, h]

/-- The legacy coordinates are those of the first active contact. -/
theorem legacy_contacts {s : Split} {touches : Vector (Option (TouchContact maxX maxY)) 2}
    (h : s.contacts = [slotContact touches[0]!, slotContact touches[1]!]) :
    s.legacy = firstContact touches := by
  unfold Split.legacy firstContact
  rw [h]
  cases hfirst : touches[0]! with
  | some a => simp [slotContact]
  | none =>
    cases hsecond : touches[1]! with
    | some b => simp [slotContact]
    | none => simp [slotContact]

/-- A snapshot of gamepad events, then touch events, is divided where the one part ends. -/
theorem split_snapshot {pad touch : List EvdevEvent}
    {touches : Vector (Option (TouchContact maxX maxY)) 2}
    (hpad : ∀ e ∈ pad, onTouch e = false ∧ isReport e = false)
    (htouch : ∀ e ∈ touch, onTouch e = true)
    (hcontacts : ∀ s : Split, s.contacts = [⟨-1, 0, 0⟩, ⟨-1, 0, 0⟩] →
      (touch.foldl Split.event s).contacts = [slotContact touches[0]!, slotContact touches[1]!]) :
    split (pad ++ touch ++ [report]) =
      (pad ++ [report], touch ++ firstContact touches ++ [report]) := by
  have hmarker : onTouch report = false ∧ onGamepad report = false := by decide
  have hfold := fold_gamepad (fun e he => (hpad e he).1) .start
  have hlegacy : ((pad ++ touch ++ [report]).foldl Split.event .start).legacy =
      firstContact touches := by
    apply legacy_contacts
    rw [List.foldl_append, List.foldl_append]
    have hlast : ∀ e ∈ [report], onTouch e = false := by decide
    rw [(fold_gamepad hlast _).1]
    exact hcontacts _ hfold.1
  have hpadTouch : pad.filter onTouch = [] :=
    List.filter_eq_nil_iff.mpr fun e he => by simp [(hpad e he).1]
  have hpadGamepad : pad.filter onGamepad = pad :=
    List.filter_eq_self.mpr fun e he => by simp [onGamepad, hpad e he]
  have htouchTouch : touch.filter onTouch = touch := List.filter_eq_self.mpr htouch
  have htouchGamepad : touch.filter onGamepad = [] :=
    List.filter_eq_nil_iff.mpr fun e he => by simp [onGamepad, htouch e he]
  rw [split_frames, hlegacy]
  simp [List.filter_append, hmarker, hpadTouch, hpadGamepad, htouchTouch, htouchGamepad]

theorem divided_snapshot {pad touch added : List EvdevEvent}
    (hpad : ∀ e ∈ pad, onTouch e = false ∧ isReport e = false)
    (htouch : ∀ e ∈ touch, onTouch e = true) :
    Divided (pad ++ touch ++ [report]) (pad ++ [report]) (touch ++ added ++ [report]) added := by
  refine ⟨pad ++ touch, onTouch, rfl, ?_, ?_, ?_⟩
  · intro e he
    rcases List.mem_append.mp he with he | he
    · exact (hpad e he).2
    · have htype := htouch e he
      simp only [onTouch, decide_eq_true_eq] at htype
      rcases htype with ⟨htype, -⟩ | ⟨htype, -⟩
      · simp [isReport, htype, evAbs, evSyn]
      · simp [isReport, htype, evKey, evSyn]
  · have hpadGamepad : pad.filter (fun e => !onTouch e) = pad :=
      List.filter_eq_self.mpr fun e he => by simp [(hpad e he).1]
    have htouchGamepad : touch.filter (fun e => !onTouch e) = [] :=
      List.filter_eq_nil_iff.mpr fun e he => by simp [htouch e he]
    rw [List.filter_append, hpadGamepad, htouchGamepad, List.append_nil]
  · have hpadTouch : pad.filter onTouch = [] :=
      List.filter_eq_nil_iff.mpr fun e he => by simp [(hpad e he).1]
    rw [List.filter_append, hpadTouch, List.filter_eq_self.mpr htouch, List.nil_append]

/-- What the touch device of both controllers declares, but for the range of tracking ids. -/
structure TouchAxes (axes : List NativeAbsoluteAxis) (minimum maximum : ℤ) : Prop where
  slot : Declares axes 47 0 1
  trackingId : Declares axes 57 minimum maximum
  x : Declares axes 53 0 1919
  y : Declares axes 54 0 941
  legacyX : Declares axes 0 0 1919
  legacyY : Declares axes 1 0 941

theorem contact_bounds (contact : TouchContact 1919 941) :
    contact.x.toNat ≤ 1919 ∧ contact.y.toNat ≤ 941 :=
  ⟨UInt16.le_iff_toNat_le.mp contact.xInRange, UInt16.le_iff_toNat_le.mp contact.yInRange⟩

variable {spec : NativeEvdevRealization} {minimum maximum : ℤ}

/-- The contacts of a slot stay inside exactly when the declared ids cover the contact's. -/
theorem touchEvents_within (h : TouchAxes spec.absoluteAxes minimum maximum) {slot : ℤ}
    (hslot : 0 ≤ slot ∧ slot ≤ 1) (touch : Option (TouchContact 1919 941)) :
    (∀ e ∈ touchEvents slot touch, Within spec e) ↔
      ∀ contact, touch = some contact → minimum ≤ contact.id.toNat ∧ contact.id.toNat ≤ maximum := by
  have hin : Within spec (absolute 47 slot) := (within_absolute h.slot).mpr (.inr hslot)
  cases touch with
  | none =>
    have hrelease : Within spec (absolute 57 (-1)) :=
      (within_absolute h.trackingId).mpr (.inl ⟨rfl, rfl⟩)
    simp [touchEvents, hin, hrelease]
  | some contact =>
    obtain ⟨hx, hy⟩ := contact_bounds contact
    have hxin : Within spec (absolute 53 contact.x.toNat) :=
      (within_absolute h.x).mpr (.inr (by omega))
    have hyin : Within spec (absolute 54 contact.y.toNat) :=
      (within_absolute h.y).mpr (.inr (by omega))
    have hid : Within spec (absolute 57 contact.id.toNat) ↔
        minimum ≤ contact.id.toNat ∧ contact.id.toNat ≤ maximum := by
      rw [within_absolute h.trackingId]
      constructor
      · rintro (⟨-, hrelease⟩ | hrange)
        · omega
        · exact hrange
      · exact .inr
    simp [touchEvents, hin, hxin, hyin, hid]

theorem firstContact_within (h : TouchAxes spec.absoluteAxes minimum maximum)
    (touches : Vector (Option (TouchContact 1919 941)) 2) :
    ∀ e ∈ firstContact touches, Within spec e := by
  have hcontact : ∀ contact : TouchContact 1919 941,
      ∀ e ∈ [absolute 0 contact.x.toNat, absolute 1 contact.y.toNat], Within spec e := by
    intro contact e he
    obtain ⟨hx, hy⟩ := contact_bounds contact
    simp only [List.mem_cons, List.not_mem_nil, or_false] at he
    rcases he with rfl | rfl
    · exact (within_absolute h.legacyX).mpr (.inr (by omega))
    · exact (within_absolute h.legacyY).mpr (.inr (by omega))
  unfold firstContact
  split
  · exact hcontact _
  · exact hcontact _
  · simp

theorem touchEvents_onTouch (slot : ℤ) (touch : Option (TouchContact maxX maxY)) :
    ∀ e ∈ touchEvents slot touch, onTouch e = true := by
  cases touch with
  | none => simp [touchEvents, absolute, onTouch]
  | some contact => simp [touchEvents, absolute, onTouch]

/-- A snapshot whose gamepad part stays inside its device is contained exactly when the declared
ids cover those of its contacts. -/
theorem contained_iff {gamepad touchDevice : NativeEvdevRealization} {pad touch : List EvdevEvent}
    {touches : Vector (Option (TouchContact 1919 941)) 2}
    (hrequests : ∀ {Q R : Type} [Inhabited Q] (requirements : Q) (rest : R),
      requests ⟨.evdev spec, requirements, rest⟩ =
        .ok (⟨.evdev gamepad, requirements, rest⟩, ⟨.evdev touchDevice, default, rest⟩))
    (hpad : ∀ e ∈ pad, onTouch e = false ∧ isReport e = false)
    (hpadWithin : ∀ e ∈ pad, Within gamepad e)
    (htouch : ∀ e ∈ touch, onTouch e = true)
    (hcontacts : ∀ s : Split, s.contacts = [⟨-1, 0, 0⟩, ⟨-1, 0, 0⟩] →
      (touch.foldl Split.event s).contacts = [slotContact touches[0]!, slotContact touches[1]!])
    (haxes : TouchAxes touchDevice.absoluteAxes minimum maximum) :
    Contained spec (pad ++ touch ++ [report]) (firstContact touches) ↔
      ∀ e ∈ touch, Within touchDevice e := by
  have hsplit := split_snapshot hpad htouch hcontacts
  constructor
  · rintro ⟨gamepad', touchDevice', hrequests', -, htouchWithin, -⟩
    have hsame := (hrequests () ()).symm.trans (hrequests' () ())
    simp only [Except.ok.injEq, Prod.mk.injEq, ProviderOpenRequest.mk.injEq,
      NativeControllerRealization.evdev.injEq, and_true] at hsame
    obtain ⟨rfl, rfl⟩ := hsame
    intro e he
    apply htouchWithin
    rw [hsplit]
    simp [he]
  · intro htouchWithin
    refine ⟨gamepad, touchDevice, hrequests, ?_, ?_, ?_⟩
    · rw [hsplit]
      intro e he
      rcases List.mem_append.mp he with he | he
      · exact hpadWithin e he
      · obtain rfl := List.mem_singleton.mp he
        exact within_report _
    · rw [hsplit]
      intro e he
      simp only [List.mem_append, List.mem_singleton] at he
      rcases he with (he | he) | rfl
      · exact htouchWithin e he
      · exact firstContact_within haxes touches e he
      · exact within_report _
    · rw [hsplit]
      exact divided_snapshot hpad htouch

/-- The ids of all active contacts. -/
def contactIds (touches : Vector (Option (TouchContact maxX maxY)) 2) : List UInt8 :=
  (touches[0]!.toList ++ touches[1]!.toList).map fun contact => contact.id

theorem touches_within (h : TouchAxes spec.absoluteAxes minimum maximum)
    (touches : Vector (Option (TouchContact 1919 941)) 2) :
    (∀ e ∈ touchEvents 0 touches[0]! ++ touchEvents 1 touches[1]!, Within spec e) ↔
      ∀ id ∈ contactIds touches, minimum ≤ id.toNat ∧ (id.toNat : ℤ) ≤ maximum := by
  have hfirst : (0 : ℤ) ≤ 0 ∧ (0 : ℤ) ≤ 1 := by decide
  have hsecond : (0 : ℤ) ≤ 1 ∧ (1 : ℤ) ≤ 1 := by decide
  rw [List.forall_mem_append, touchEvents_within h hfirst, touchEvents_within h hsecond, contactIds]
  simp only [List.map_append, List.forall_mem_append, List.forall_mem_map, Option.mem_toList]

theorem encodeTouches_onTouch (touches : Vector (Option DualSenseTouchContact) 2) :
    ∀ e ∈ encodeTouches touches, onTouch e = true := by
  have hkeys : ∀ pressed, onTouch (key 330 pressed) = true ∧ onTouch (key 325 pressed) = true := by
    decide
  intro e he
  simp only [encodeTouches, List.cons_append, List.nil_append, List.mem_cons, List.mem_append] at he
  rcases he with rfl | rfl | he | he
  · exact (hkeys _).1
  · exact (hkeys _).2
  · exact touchEvents_onTouch _ _ e he
  · exact touchEvents_onTouch _ _ e he

theorem ds4Touches_onTouch (touches : Vector (Option DualShock4TouchContact) 2) :
    ∀ e ∈ ds4Touches touches, onTouch e = true := by
  have hkey : ∀ pressed, onTouch (key 330 pressed) = true := by decide
  intro e he
  simp only [ds4Touches, List.mem_append, List.mem_singleton] at he
  rcases he with (he | he) | rfl
  · exact touchEvents_onTouch _ _ e he
  · exact touchEvents_onTouch _ _ e he
  · exact hkey _

theorem encodeTouches_contacts {s : Split} (touches : Vector (Option DualSenseTouchContact) 2)
    (h : s.contacts = [⟨-1, 0, 0⟩, ⟨-1, 0, 0⟩]) :
    ((encodeTouches touches).foldl Split.event s).contacts =
      [slotContact touches[0]!, slotContact touches[1]!] := by
  rw [encodeTouches, List.foldl_append]
  apply fold_touchEvents
  rw [List.foldl_cons, List.foldl_cons, List.foldl_nil, event_touchKey _ (by decide),
    event_touchKey _ (by decide), h]

theorem ds4Touches_contacts {s : Split} (touches : Vector (Option DualShock4TouchContact) 2)
    (h : s.contacts = [⟨-1, 0, 0⟩, ⟨-1, 0, 0⟩]) :
    ((ds4Touches touches).foldl Split.event s).contacts =
      [slotContact touches[0]!, slotContact touches[1]!] := by
  rw [ds4Touches, List.foldl_append, List.foldl_cons, List.foldl_nil,
    event_touchKey _ (by decide)]
  exact fold_touchEvents _ _ h

/-- The ids that a DualSense declares are all that a contact may have. -/
theorem dualsense_contained (path : Option String) (state : DualSenseState) :
    Contained (dualsenseRealization path) (dualsenseEvdevFrame state)
      (firstContact state.touches) := by
  have haxes : TouchAxes
      [⟨47, 0, 1, 0⟩, ⟨53, 0, 1919, 0⟩, ⟨54, 0, 941, 0⟩, ⟨57, 0, 255, 0⟩, ⟨0, 0, 1919, 0⟩,
        ⟨1, 0, 941, 0⟩] 0 255 :=
    ⟨by decide, by decide, by decide, by decide, by decide, by decide⟩
  have hkeys : ∀ code ∈ padKeys, code ∈ padKeys := fun _ h => h
  refine (contained_iff (fun _ _ => rfl) (fun e he => pad_onGamepad he)
    (fun e he => pad_within hkeys rfl he) (encodeTouches_onTouch state.touches)
    (fun s h => encodeTouches_contacts state.touches h) haxes).mpr ?_
  intro e he
  rw [encodeTouches] at he
  rcases List.mem_append.mp he with he | he
  · simp only [List.mem_cons, List.not_mem_nil, or_false] at he
    have htouchKeys : 330 ∈ [330, 325] ∧ 325 ∈ [330, 325] := by decide
    rcases he with rfl | rfl
    · exact within_key.mpr htouchKeys.1
    · exact within_key.mpr htouchKeys.2
  · refine (touches_within haxes state.touches).mpr ?_ e he
    intro id _
    have hid := id.toNat_lt
    omega

/-- A DualShock 4 declares only half of the ids that a contact may have. -/
theorem ds4_contained_iff (path : Option String) (state : DualShock4State) :
    Contained (dualshock4Realization path) (ds4EvdevFrame state) (firstContact state.touches) ↔
      ∀ id ∈ contactIds state.touches, id ≤ 127 := by
  have haxes : TouchAxes
      [⟨47, 0, 1, 0⟩, ⟨57, -1, 127, 0⟩, ⟨53, 0, 1919, 0⟩, ⟨54, 0, 941, 0⟩, ⟨0, 0, 1919, 0⟩,
        ⟨1, 0, 941, 0⟩] (-1) 127 :=
    ⟨by decide, by decide, by decide, by decide, by decide, by decide⟩
  have hkeys : ∀ code ∈ padKeys, code ∈ padKeys := fun _ h => h
  have hcontained : Contained (dualshock4Realization path) (ds4EvdevFrame state)
      (firstContact state.touches) ↔ ∀ e ∈ ds4Touches state.touches,
        Within (touchSpec "Virtual DS4 Touch Contacts" (dualshock4Realization path)) e :=
    contained_iff (fun _ _ => rfl) (fun e he => pad_onGamepad he)
      (fun e he => pad_within hkeys rfl he) (ds4Touches_onTouch state.touches)
      (fun s h => ds4Touches_contacts state.touches h) haxes
  refine hcontained.trans ?_
  have htouchKey : 330 ∈ [330] := by decide
  have hrange : ∀ id : UInt8, (-1 ≤ (id.toNat : ℤ) ∧ (id.toNat : ℤ) ≤ 127) ↔ id ≤ 127 := by
    intro id
    rw [UInt8.le_iff_toNat_le]
    constructor
    · rintro ⟨-, h⟩
      exact_mod_cast h
    · intro h
      exact ⟨by omega, by exact_mod_cast h⟩
  rw [ds4Touches, List.forall_mem_append, List.forall_mem_singleton,
    touches_within haxes state.touches]
  simp only [hrange]
  constructor
  · exact fun h => h.1
  · exact fun h => ⟨h, within_key.mpr htouchKey⟩

end Frames

/-- A DualShock 4 with one finger of the id 128. -/
def highContact : DualShock4State :=
  { DualShock4State.default with touches := #v[some ⟨128, 0, 0, by decide, by decide⟩, none] }

theorem not_ds4_contained :
    ¬((∀ path (state : DualSenseState), Contained (dualsenseRealization path)
        (dualsenseEvdevFrame state) (firstContact state.touches)) ∧
      ∀ path (state : DualShock4State), Contained (dualshock4Realization path)
        (ds4EvdevFrame state) (firstContact state.touches)) := by
  rintro ⟨-, h⟩
  have hids := (ds4_contained_iff none highContact).mp (h none highContact)
  exact absurd (hids 128 (by decide)) (by decide)

/-- Snapshots stay inside their devices, on a DualShock 4 exactly for the ids that it declares. -/
theorem snapshots_contained_iff (path : Option String) (dualsense : DualSenseState)
    (dualshock4 : DualShock4State) :
    Contained (dualsenseRealization path) (dualsenseEvdevFrame dualsense)
      (firstContact dualsense.touches) ∧
    (Contained (dualshock4Realization path) (ds4EvdevFrame dualshock4)
        (firstContact dualshock4.touches) ↔
      ∀ id ∈ contactIds dualshock4.touches, id ≤ 127) :=
  ⟨dualsense_contained path dualsense, ds4_contained_iff path dualshock4⟩

end SonyEvdev
