import VirtualGamepad.AudioConnection
import VirtualGamepad.ControllerContract
import VirtualGamepad.Panicking

/-! Events of the kernel's user-space HID node. One read or one write moves one event, a packed
record whose numbers are in host order, which is little-endian here. -/
namespace UhidEvents

open ControllerContract Panicking WireBytes
open AudioConnection (utf8)

def uhidDestroy : UInt32 := 1
def uhidStart : UInt32 := 2
def uhidStop : UInt32 := 3
def uhidOpen : UInt32 := 4
def uhidClose : UInt32 := 5
def uhidOutput : UInt32 := 6
def uhidGetReport : UInt32 := 9
def uhidGetReportReply : UInt32 := 10
def uhidCreate2 : UInt32 := 11
def uhidInput2 : UInt32 := 12
def uhidSetReport : UInt32 := 13
def uhidSetReportReply : UInt32 := 14
def uhidDataMax : ℕ := 4096
def uhidEventSize : ℕ := 4 + 280 + uhidDataMax

section Reading

/-- What the kernel tells the device. -/
inductive Event where
  | output (bytes : List UInt8)
  | get (id : UInt32) (reportId reportType : UInt8)
  | set (id : UInt32) (reportId reportType : UInt8) (bytes : List UInt8)
  | lifecycle (event : HidRuntime.Lifecycle)
  deriving DecidableEq

def getU16 (bytes : List UInt8) (offset : ℕ) : Outcome ProviderError UInt16 := do
  let a ← index bytes offset
  let b ← index bytes (offset + 1)
  pure (UInt16.ofNat (ofBytesLe [a, b]))

def getU32 (bytes : List UInt8) (offset : ℕ) : Outcome ProviderError UInt32 := do
  let a ← index bytes offset
  let b ← index bytes (offset + 1)
  let c ← index bytes (offset + 2)
  let d ← index bytes (offset + 3)
  pure (UInt32.ofNat (ofBytesLe [a, b, c, d]))

def parseOutput (event : List UInt8) : Outcome ProviderError Event := do
  let size ← getU16 event 4100
  if uhidDataMax < size.toNat ∨ event.length < 4103 then .error (.read "malformed UHID output")
  else
    let bytes ← range event 4 (4 + size.toNat)
    pure (.output bytes)

def parseGet (event : List UInt8) : Outcome ProviderError Event := do
  let id ← getU32 event 4
  let reportId ← index event 8
  let reportType ← index event 9
  pure (.get id reportId reportType)

def parseSet (event : List UInt8) : Outcome ProviderError Event := do
  let size ← getU16 event 10
  if uhidDataMax < size.toNat ∨ event.length < 12 + size.toNat then
    .error (.read "malformed UHID set-report")
  else
    let id ← getU32 event 4
    let reportId ← index event 8
    let reportType ← index event 9
    let bytes ← range event 12 (12 + size.toNat)
    pure (.set id reportId reportType bytes)

def parseStart (event : List UInt8) : Outcome ProviderError Event := do
  let flags ← range event 4 12
  pure (.lifecycle (.start
    ((ofBytesLe flags).testBit 2) ((ofBytesLe flags).testBit 1) ((ofBytesLe flags).testBit 0)))

/-- The arms of `parse_event`, in their order. -/
def parseBody (kind : UInt32) (event : List UInt8) : Outcome ProviderError Event :=
  if kind = uhidOutput ∧ 4103 ≤ event.length then parseOutput event
  else if kind = uhidGetReport ∧ 10 ≤ event.length then parseGet event
  else if kind = uhidSetReport ∧ 12 ≤ event.length then parseSet event
  else if kind = uhidOutput ∨ kind = uhidGetReport ∨ kind = uhidSetReport then
    .error (.read "truncated UHID event")
  else if kind = uhidStart ∧ 12 ≤ event.length then parseStart event
  else if kind = uhidStop then .ok (.lifecycle .stop)
  else if kind = uhidOpen then .ok (.lifecycle .open)
  else if kind = uhidClose then .ok (.lifecycle .close)
  else .error (.read "unknown or truncated UHID lifecycle event")

def parseEvent (event : List UInt8) : Outcome ProviderError Event :=
  if event.length < 4 then .error (.read "truncated UHID event")
  else do
    let kind ← getU32 event 0
    parseBody kind event

end Reading

section Layout

/-- The kernel's layout of an event. Bytes behind its last field carry no meaning. -/
inductive Lays : List UInt8 → Event → Prop where
  | output (data padding rest : List UInt8) (reportType : UInt8)
      (h : data.length + padding.length = uhidDataMax) :
    Lays (bytesLe 4 uhidOutput.toNat ++ (data ++ (padding ++
      (bytesLe 2 data.length ++ reportType :: rest)))) (.output data)
  | get (id : UInt32) (reportId reportType : UInt8) (rest : List UInt8) :
    Lays (bytesLe 4 uhidGetReport.toNat ++ (bytesLe 4 id.toNat ++ reportId :: reportType :: rest))
      (.get id reportId reportType)
  | set (id : UInt32) (reportId reportType : UInt8) (data rest : List UInt8)
      (h : data.length ≤ uhidDataMax) :
    Lays (bytesLe 4 uhidSetReport.toNat ++ (bytesLe 4 id.toNat ++ reportId :: reportType ::
      (bytesLe 2 data.length ++ (data ++ rest)))) (.set id reportId reportType data)
  | start (flags : ℕ) (rest : List UInt8) (h : flags < 2 ^ 64) :
    Lays (bytesLe 4 uhidStart.toNat ++ (bytesLe 8 flags ++ rest))
      (.lifecycle (.start (flags.testBit 2) (flags.testBit 1) (flags.testBit 0)))
  | stop (rest : List UInt8) : Lays (bytesLe 4 uhidStop.toNat ++ rest) (.lifecycle .stop)
  | open (rest : List UInt8) : Lays (bytesLe 4 uhidOpen.toNat ++ rest) (.lifecycle .open)
  | close (rest : List UInt8) : Lays (bytesLe 4 uhidClose.toNat ++ rest) (.lifecycle .close)

section Fields

variable {bytes front : List UInt8} {offset n : ℕ}

theorem slice_two (h : offset + 2 ≤ bytes.length) :
    slice bytes offset 2 = [bytes[offset], bytes[offset + 1]] := by
  unfold slice
  rw [List.drop_eq_getElem_cons (by omega), List.drop_eq_getElem_cons (by omega)]
  rfl

theorem getU16_eq (h : offset + 2 ≤ bytes.length) :
    getU16 bytes offset = .ok (UInt16.ofNat (ofBytesLe (slice bytes offset 2))) := by
  unfold getU16
  rw [index_eq_ok (by omega), ok_bind, index_eq_ok (by omega), ok_bind, slice_two h]
  rfl

theorem getU32_eq (h : offset + 4 ≤ bytes.length) :
    getU32 bytes offset = .ok (UInt32.ofNat (ofBytesLe (slice bytes offset 4))) := by
  unfold getU32
  rw [index_eq_ok (by omega), ok_bind, index_eq_ok (by omega), ok_bind, index_eq_ok (by omega),
    ok_bind, index_eq_ok (by omega), ok_bind, ← slice_add bytes offset 2 2, slice_two (by omega),
    slice_two (by omega)]
  rfl

theorem toNat_word (bytes : List UInt8) (offset : ℕ) :
    (UInt32.ofNat (ofBytesLe (slice bytes offset 4))).toNat = ofBytesLe (slice bytes offset 4) := by
  rw [UInt32.toNat_ofNat']
  exact Nat.mod_eq_of_lt (slice_lt 4)

theorem toNat_half (bytes : List UInt8) (offset : ℕ) :
    (UInt16.ofNat (ofBytesLe (slice bytes offset 2))).toNat = ofBytesLe (slice bytes offset 2) := by
  rw [UInt16.toNat_ofNat']
  exact Nat.mod_eq_of_lt (slice_lt 2)

theorem length_of_slice {field : List UInt8} (h : slice bytes offset field.length = field) :
    field = [] ∨ offset + field.length ≤ bytes.length := by
  have hlength := congrArg List.length h
  unfold slice at hlength
  rw [List.length_take, List.length_drop] at hlength
  cases field with
  | nil => exact .inl rfl
  | cons b field =>
    right
    rw [List.length_cons] at *
    omega

theorem getU32_of {value : UInt32} (h : slice bytes offset 4 = bytesLe 4 value.toNat) :
    getU32 bytes offset = .ok value := by
  have hroom : offset + 4 ≤ bytes.length := by
    have hfield : slice bytes offset (bytesLe 4 value.toNat).length = bytesLe 4 value.toNat := by
      rw [length_bytesLe, h]
    rcases length_of_slice hfield with hnil | hroom
    · simp [bytesLe] at hnil
    · simpa using hroom
  rw [getU32_eq hroom, h, ofBytesLe_bytesLe (by simpa using value.toNat_lt), UInt32.ofNat_toNat]

theorem getU16_of {value : ℕ} (h : slice bytes offset 2 = bytesLe 2 value) :
    getU16 bytes offset = .ok (UInt16.ofNat value) := by
  have hroom : offset + 2 ≤ bytes.length := by
    have hfield : slice bytes offset (bytesLe 2 value).length = bytesLe 2 value := by
      rw [length_bytesLe, h]
    rcases length_of_slice hfield with hnil | hroom
    · simp [bytesLe] at hnil
    · simpa using hroom
  rw [getU16_eq hroom, h]
  congr 1
  apply UInt16.toNat_inj.mp
  rw [UInt16.toNat_ofNat', UInt16.toNat_ofNat']
  simp only [bytesLe, ofBytesLe, UInt8.toNat_ofNat']
  omega

theorem index_behind {b : UInt8} (h : front.length = n) :
    (index (front ++ b :: bytes) n : Outcome ProviderError UInt8) = .ok b := by
  unfold index
  rw [← h, List.getElem?_append_right (Nat.le_refl _), Nat.sub_self, List.getElem?_cons_zero]

theorem range_behind {data : List UInt8} {stop : ℕ} (h : front.length = n)
    (hstop : stop = n + data.length) :
    (range (front ++ (data ++ bytes)) n stop : Outcome ProviderError (List UInt8)) = .ok data := by
  rw [range_eq_ok (by omega) (by simp only [List.length_append]; omega), hstop,
    Nat.add_sub_cancel_left, ← h, List.drop_left, List.take_left]

end Fields

variable {bytes : List UInt8} {event : Event}

theorem parseEvent_eq {kind : UInt32} {rest : List UInt8}
    (h : bytes = bytesLe 4 kind.toNat ++ rest) : parseEvent bytes = parseBody kind bytes := by
  have hkind : getU32 bytes 0 = .ok kind := by
    rw [h]
    exact getU32_of (slice_front (length_bytesLe _ _))
  have hfour : ¬ bytes.length < 4 := by
    rw [h, List.length_append, length_bytesLe]
    omega
  unfold parseEvent
  rw [if_neg hfour, hkind, ok_bind]

theorem parseOutput_of (data padding rest : List UInt8) (reportType : UInt8)
    (h : data.length + padding.length = uhidDataMax) :
    parseOutput (bytesLe 4 uhidOutput.toNat ++ (data ++ (padding ++
      (bytesLe 2 data.length ++ reportType :: rest)))) = .ok (.output data) := by
  unfold uhidDataMax at h
  have hnat : (UInt16.ofNat data.length).toNat = data.length := by
    rw [UInt16.toNat_ofNat']
    omega
  have hsize : getU16 (bytesLe 4 uhidOutput.toNat ++ (data ++ (padding ++
      (bytesLe 2 data.length ++ reportType :: rest)))) 4100 = .ok (UInt16.ofNat data.length) := by
    apply getU16_of
    rw [slice_behind (by simp), slice_behind (by simp; omega), slice_behind (by simp; omega)]
    simp only [length_bytesLe]
    rw [show 4100 - 4 - data.length - padding.length = 0 by omega]
    exact slice_front (length_bytesLe _ _)
  have hroom : ¬ (uhidDataMax < data.length ∨ (bytesLe 4 uhidOutput.toNat ++ (data ++ (padding ++
      (bytesLe 2 data.length ++ reportType :: rest)))).length < 4103) := by
    simp only [uhidDataMax, List.length_append, List.length_cons, length_bytesLe]
    omega
  unfold parseOutput
  rw [hsize, ok_bind, hnat, if_neg hroom, range_behind (length_bytesLe _ _) rfl]
  rfl

/-- The fields that a GET and a SET begin with. -/
theorem request_fields (kind id : UInt32) (reportId reportType : UInt8) (rest : List UInt8)
    (h : bytes = bytesLe 4 kind.toNat ++ (bytesLe 4 id.toNat ++ reportId :: reportType :: rest)) :
    getU32 bytes 4 = .ok id ∧ (index bytes 8 : Outcome ProviderError UInt8) = .ok reportId ∧
      (index bytes 9 : Outcome ProviderError UInt8) = .ok reportType := by
  subst h
  refine ⟨?_, ?_, ?_⟩
  · apply getU32_of
    rw [slice_behind (by simp), length_bytesLe, Nat.sub_self]
    exact slice_front (length_bytesLe _ _)
  · rw [← List.append_assoc]
    exact index_behind (by simp)
  · rw [← List.append_assoc, List.append_cons]
    exact index_behind (by simp)

theorem parseGet_of (kind id : UInt32) (reportId reportType : UInt8) (rest : List UInt8) :
    parseGet (bytesLe 4 kind.toNat ++ (bytesLe 4 id.toNat ++ reportId :: reportType :: rest)) =
      .ok (.get id reportId reportType) := by
  obtain ⟨hid, hnumber, htype⟩ := request_fields kind id reportId reportType rest rfl
  unfold parseGet
  rw [hid, ok_bind, hnumber, ok_bind, htype, ok_bind]
  rfl

theorem parseSet_of (kind id : UInt32) (reportId reportType : UInt8) (data rest : List UInt8)
    (h : data.length ≤ uhidDataMax) :
    parseSet (bytesLe 4 kind.toNat ++ (bytesLe 4 id.toNat ++ reportId :: reportType ::
      (bytesLe 2 data.length ++ (data ++ rest)))) = .ok (.set id reportId reportType data) := by
  obtain ⟨hid, hnumber, htype⟩ :=
    request_fields kind id reportId reportType (bytesLe 2 data.length ++ (data ++ rest)) rfl
  have hgather : bytesLe 4 kind.toNat ++ (bytesLe 4 id.toNat ++ reportId :: reportType ::
      (bytesLe 2 data.length ++ (data ++ rest))) =
      (bytesLe 4 kind.toNat ++ bytesLe 4 id.toNat ++ [reportId, reportType]) ++
        (bytesLe 2 data.length ++ (data ++ rest)) := by
    simp
  have hsize : getU16 (bytesLe 4 kind.toNat ++ (bytesLe 4 id.toNat ++ reportId :: reportType ::
      (bytesLe 2 data.length ++ (data ++ rest)))) 10 = .ok (UInt16.ofNat data.length) := by
    apply getU16_of
    rw [hgather, slice_behind (by simp)]
    exact slice_front (length_bytesLe _ _)
  have hdata : (UInt16.ofNat data.length).toNat = data.length := by
    unfold uhidDataMax at h
    rw [UInt16.toNat_ofNat']
    omega
  have hroom : ¬ (uhidDataMax < data.length ∨ (bytesLe 4 kind.toNat ++ (bytesLe 4 id.toNat ++
      reportId :: reportType :: (bytesLe 2 data.length ++ (data ++ rest)))).length <
        12 + data.length) := by
    simp only [List.length_append, List.length_cons, length_bytesLe]
    omega
  unfold parseSet
  rw [hsize, ok_bind, hdata, if_neg hroom, hid, ok_bind, hnumber, ok_bind, htype, ok_bind, hgather,
    ← List.append_assoc, range_behind (by simp) rfl]
  rfl

theorem parseStart_of (kind : UInt32) (flags : ℕ) (rest : List UInt8) (h : flags < 2 ^ 64) :
    parseStart (bytesLe 4 kind.toNat ++ (bytesLe 8 flags ++ rest)) =
      .ok (.lifecycle (.start (flags.testBit 2) (flags.testBit 1) (flags.testBit 0))) := by
  unfold parseStart
  rw [range_behind (by simp) (by simp), ok_bind, ofBytesLe_bytesLe h]
  rfl

theorem parseEvent_of_lays (h : Lays bytes event) : parseEvent bytes = .ok event := by
  cases h with
  | output data padding rest reportType h =>
    have hlong : 4103 ≤ (bytesLe 4 uhidOutput.toNat ++ (data ++ (padding ++
        (bytesLe 2 data.length ++ reportType :: rest)))).length := by
      simp only [List.length_append, List.length_cons, length_bytesLe]
      unfold uhidDataMax at h
      omega
    rw [parseEvent_eq rfl]
    unfold parseBody
    rw [if_pos ⟨rfl, hlong⟩, parseOutput_of data padding rest reportType h]
  | get id reportId reportType rest =>
    rw [parseEvent_eq rfl]
    unfold parseBody
    rw [if_neg (by simp [uhidGetReport, uhidOutput]), if_pos ⟨rfl, by simp; omega⟩, parseGet_of]
  | set id reportId reportType data rest h =>
    rw [parseEvent_eq rfl]
    unfold parseBody
    rw [if_neg (by simp [uhidSetReport, uhidOutput]),
      if_neg (by simp [uhidSetReport, uhidGetReport]), if_pos ⟨rfl, by simp; omega⟩,
      parseSet_of _ _ _ _ _ _ h]
  | start flags rest h =>
    rw [parseEvent_eq rfl]
    unfold parseBody
    rw [if_neg (by simp [uhidStart, uhidOutput]), if_neg (by simp [uhidStart, uhidGetReport]),
      if_neg (by simp [uhidStart, uhidSetReport]), if_neg (by decide), if_pos ⟨rfl, by simp; omega⟩,
      parseStart_of _ _ _ h]
  | stop rest =>
    rw [parseEvent_eq rfl]
    simp [parseBody, uhidStop, uhidOutput, uhidGetReport, uhidSetReport, uhidStart]
  | «open» rest =>
    rw [parseEvent_eq rfl]
    simp [parseBody, uhidOpen, uhidStop, uhidOutput, uhidGetReport, uhidSetReport, uhidStart]
  | close rest =>
    rw [parseEvent_eq rfl]
    simp [parseBody, uhidClose, uhidOpen, uhidStop, uhidOutput, uhidGetReport, uhidSetReport,
      uhidStart]

theorem eq_kind_append {kind : UInt32} (h : 4 ≤ bytes.length) (hkind : getU32 bytes 0 = .ok kind) :
    bytes = bytesLe 4 kind.toNat ++ bytes.drop 4 := by
  have hroom : 0 + 4 ≤ bytes.length := by omega
  rw [getU32_eq hroom] at hkind
  rw [← Outcome.ok.inj hkind, toNat_word, bytesLe_slice hroom]
  exact (List.take_append_drop 4 bytes).symm

theorem parseOutput_yields (h : 4103 ≤ bytes.length)
    (hkind : bytes = bytesLe 4 uhidOutput.toNat ++ bytes.drop 4) :
    (parseOutput bytes).Yields (Lays bytes) (fun _ => True) False := by
  unfold parseOutput
  rw [getU16_eq (by omega), ok_bind, toNat_half]
  by_cases hbad : uhidDataMax < ofBytesLe (slice bytes 4100 2) ∨ bytes.length < 4103
  · rw [if_pos hbad]
    trivial
  · obtain ⟨size, hsize⟩ : ∃ n, ofBytesLe (slice bytes 4100 2) = n := ⟨_, rfl⟩
    rw [if_neg hbad, hsize]
    unfold uhidDataMax at hbad
    have hroom : 4 + size ≤ bytes.length := by omega
    rw [range_eq_ok (by omega) hroom, ok_bind, Nat.add_sub_cancel_left, pure_eq, yields_ok]
    have hdata : (slice bytes 4 size).length = size := length_slice hroom
    have hpadding : (slice bytes (4 + size) (4096 - size)).length = 4096 - size :=
      length_slice (by omega)
    have hfields : bytes.drop 4 = slice bytes 4 size ++ (slice bytes (4 + size) (4096 - size) ++
        (bytesLe 2 (slice bytes 4 size).length ++ bytes[4102] :: bytes.drop 4103)) := by
      rw [hdata, ← hsize, bytesLe_slice (by omega), hsize, ← List.drop_eq_getElem_cons,
        ← drop_slice 2, show 4100 = 4 + size + (4096 - size) by omega, ← drop_slice, ← drop_slice]
    have hlays := Lays.output (slice bytes 4 size) (slice bytes (4 + size) (4096 - size))
      (bytes.drop 4103) bytes[4102] (by unfold uhidDataMax; omega)
    rwa [← hfields, ← hkind] at hlays

theorem request_shape (h : 10 ≤ bytes.length) :
    bytes.drop 4 = bytesLe 4 (UInt32.ofNat (ofBytesLe (slice bytes 4 4))).toNat ++
      bytes[8] :: bytes[9] :: bytes.drop 10 := by
  rw [toNat_word, bytesLe_slice (by omega), ← List.drop_eq_getElem_cons,
    ← List.drop_eq_getElem_cons, ← drop_slice]

theorem parseGet_yields (h : 10 ≤ bytes.length)
    (hkind : bytes = bytesLe 4 uhidGetReport.toNat ++ bytes.drop 4) :
    (parseGet bytes).Yields (Lays bytes) (fun _ => True) False := by
  have hshape := request_shape h
  unfold parseGet
  rw [getU32_eq (by omega), ok_bind, index_eq_ok (by omega), ok_bind, index_eq_ok (by omega),
    ok_bind, pure_eq, yields_ok]
  have hlays := Lays.get (UInt32.ofNat (ofBytesLe (slice bytes 4 4))) bytes[8] bytes[9]
    (bytes.drop 10)
  rwa [← hshape, ← hkind] at hlays

theorem parseSet_yields (h : 12 ≤ bytes.length)
    (hkind : bytes = bytesLe 4 uhidSetReport.toNat ++ bytes.drop 4) :
    (parseSet bytes).Yields (Lays bytes) (fun _ => True) False := by
  unfold parseSet
  rw [getU16_eq (by omega), ok_bind, toNat_half]
  by_cases hbad : uhidDataMax < ofBytesLe (slice bytes 10 2) ∨
      bytes.length < 12 + ofBytesLe (slice bytes 10 2)
  · rw [if_pos hbad]
    trivial
  · obtain ⟨size, hsize⟩ : ∃ n, ofBytesLe (slice bytes 10 2) = n := ⟨_, rfl⟩
    rw [hsize] at hbad
    have hroom : 12 + size ≤ bytes.length := by omega
    have hdata : (slice bytes 12 size).length = size := length_slice hroom
    have hbehind : bytes.drop 10 = bytesLe 2 (slice bytes 12 size).length ++
        (slice bytes 12 size ++ bytes.drop (12 + size)) := by
      rw [hdata, ← hsize, bytesLe_slice (by omega), hsize, ← drop_slice, ← drop_slice]
    have hshape := request_shape (show 10 ≤ bytes.length by omega)
    rw [hsize, if_neg hbad, getU32_eq (by omega), ok_bind, index_eq_ok (by omega), ok_bind,
      index_eq_ok (by omega), ok_bind, range_eq_ok (by omega) hroom, ok_bind,
      Nat.add_sub_cancel_left, pure_eq, yields_ok]
    have hlays := Lays.set (UInt32.ofNat (ofBytesLe (slice bytes 4 4))) bytes[8] bytes[9]
      (slice bytes 12 size) (bytes.drop (12 + size)) (by omega)
    rwa [← hbehind, ← hshape, ← hkind] at hlays

theorem parseStart_yields (h : 12 ≤ bytes.length)
    (hkind : bytes = bytesLe 4 uhidStart.toNat ++ bytes.drop 4) :
    (parseStart bytes).Yields (Lays bytes) (fun _ => True) False := by
  have hfields : bytes.drop 4 = bytesLe 8 (ofBytesLe (slice bytes 4 8)) ++ bytes.drop 12 := by
    rw [bytesLe_slice (by omega), ← drop_slice]
  unfold parseStart
  rw [range_eq_ok (by decide) h, ok_bind, pure_eq, yields_ok]
  have hlays := Lays.start (ofBytesLe (slice bytes 4 8)) (bytes.drop 12) (slice_lt 8)
  rwa [← hfields, ← hkind] at hlays

theorem parseBody_yields {kind : UInt32} (hkind : bytes = bytesLe 4 kind.toNat ++ bytes.drop 4) :
    (parseBody kind bytes).Yields (Lays bytes) (fun _ => True) False := by
  unfold parseBody
  split_ifs with houtput hget hset htruncated hstart hstop hopen hclose
  · exact parseOutput_yields houtput.2 (houtput.1 ▸ hkind)
  · exact parseGet_yields hget.2 (hget.1 ▸ hkind)
  · exact parseSet_yields hset.2 (hset.1 ▸ hkind)
  · trivial
  · exact parseStart_yields hstart.2 (hstart.1 ▸ hkind)
  · rw [yields_ok, hkind, hstop]
    exact .stop _
  · rw [yields_ok, hkind, hopen]
    exact .open _
  · rw [yields_ok, hkind, hclose]
    exact .close _
  · trivial

theorem parseEvent_yields (bytes : List UInt8) :
    (parseEvent bytes).Yields (Lays bytes) (fun _ => True) False := by
  unfold parseEvent
  split_ifs with hshort
  · trivial
  · rw [getU32_eq (by omega), ok_bind]
    exact parseBody_yields (eq_kind_append (by omega) (getU32_eq (by omega)))

theorem parseEvent_returns (bytes : List UInt8) : parseEvent bytes ≠ .panicked := by
  intro hpanic
  have hyields := parseEvent_yields bytes
  rw [hpanic] at hyields
  exact hyields

/-- No byte string makes the parser index out of range, and it takes what the kernel lays out,
bytes behind the last field included, and nothing else. -/
theorem parseEvent_takes_laid (bytes : List UInt8) :
    parseEvent bytes ≠ .panicked ∧ ∀ event, parseEvent bytes = .ok event ↔ Lays bytes event := by
  refine ⟨parseEvent_returns bytes, fun event => ⟨?_, parseEvent_of_lays⟩⟩
  intro hok
  have hyields := parseEvent_yields bytes
  rwa [hok] at hyields

end Layout

section Writing

structure NativeDeviceIdentity where
  vendorId : UInt16
  productId : UInt16
  version : UInt16
  deriving DecidableEq, Repr

structure NativeHidRealization where
  busType : UInt16
  deviceName : String
  physicalPath : String
  uniqueId : String
  identity : NativeDeviceIdentity
  descriptor : List UInt8
  numberedInputReports : Bool
  numberedOutputReports : Bool
  numberedFeatureReports : Bool
  deriving DecidableEq

def zeros (n : ℕ) : List UInt8 := List.replicate n 0

def putU16 (out : List UInt8) (offset : ℕ) (value : UInt16) : Outcome ProviderError (List UInt8) :=
  copyFromSlice out offset (offset + 2) (bytesLe 2 value.toNat)

def putU32 (out : List UInt8) (offset : ℕ) (value : UInt32) : Outcome ProviderError (List UInt8) :=
  copyFromSlice out offset (offset + 4) (bytesLe 4 value.toNat)

/-- A text field from `start` up to `stop`, which keeps a NUL behind the text. -/
def copyText (out : List UInt8) (start stop : ℕ) (text : String) :
    Outcome ProviderError (List UInt8) :=
  if stop - start ≤ (utf8 text).length ∨ 0 ∈ utf8 text then
    .error (.open "UHID identity must fit its NUL-terminated field without truncation")
  else copyFromSlice out start (start + (utf8 text).length) (utf8 text)

def createEvent (spec : NativeHidRealization) : Outcome ProviderError (List UInt8) :=
  if uhidDataMax < spec.descriptor.length then .error (.open "HID descriptor exceeds UHID maximum")
  else do
    let event ← putU32 (zeros uhidEventSize) 0 uhidCreate2
    let event ← copyText event 4 132 spec.deviceName
    let event ← copyText event 132 196 spec.physicalPath
    let event ← copyText event 196 260 spec.uniqueId
    let event ← putU16 event 260 (UInt16.ofNat spec.descriptor.length)
    let event ← putU16 event 262 spec.busType
    let event ← putU32 event 264 spec.identity.vendorId.toUInt32
    let event ← putU32 event 268 spec.identity.productId.toUInt32
    let event ← putU32 event 272 spec.identity.version.toUInt32
    copyFromSlice event 280 (280 + spec.descriptor.length) spec.descriptor

def inputEvent (reportId : Option UInt8) (bytes : List UInt8) :
    Outcome ProviderError (List UInt8) := do
  let data := reportId.toList ++ bytes
  if uhidDataMax < data.length then .error (.write "HID input report exceeds UHID maximum")
  else
    let event ← putU32 (zeros (6 + data.length)) 0 uhidInput2
    let event ← putU16 event 4 (UInt16.ofNat data.length)
    copyFromSlice event 6 event.length data

def getReplyEvent (id : UInt32) (status : Int16) (bytes : List UInt8) :
    Outcome ProviderError (List UInt8) :=
  if uhidDataMax < bytes.length then .error (.write "feature reply exceeds UHID maximum")
  else do
    let event ← putU32 (zeros (12 + bytes.length)) 0 uhidGetReportReply
    let event ← putU32 event 4 id
    let event ← putU16 event 8 status.toUInt16
    let event ← putU16 event 10 (UInt16.ofNat bytes.length)
    copyFromSlice event 12 event.length bytes

def setReplyEvent (id : UInt32) (status : Int16) : Outcome ProviderError (List UInt8) := do
  let event ← putU32 (zeros 10) 0 uhidSetReportReply
  let event ← putU32 event 4 id
  putU16 event 8 status.toUInt16

def destroyEvent : Outcome ProviderError (List UInt8) := putU32 (zeros 4) 0 uhidDestroy

end Writing

section Encodings

variable {front : List UInt8} {k : ℕ}

theorem copy_zeros {start stop : ℕ} {field : List UInt8} (h : front.length = start)
    (hstop : stop = start + field.length) (hk : field.length ≤ k) :
    (copyFromSlice (front ++ zeros k) start stop field : Outcome ProviderError (List UInt8)) =
      .ok ((front ++ field) ++ zeros (k - field.length)) := by
  unfold zeros
  rw [copyFromSlice_eq_ok (by omega) (by simp; omega) (by omega), overlay_zeros h]

theorem putU16_zeros {offset : ℕ} (h : front.length = offset) (hk : 2 ≤ k) (value : UInt16) :
    putU16 (front ++ zeros k) offset value =
      .ok ((front ++ bytesLe 2 value.toNat) ++ zeros (k - 2)) := by
  have hcopy := copy_zeros h rfl (show (bytesLe 2 value.toNat).length ≤ k by simpa using hk)
  simpa only [putU16, length_bytesLe] using hcopy

theorem putU32_zeros {offset : ℕ} (h : front.length = offset) (hk : 4 ≤ k) (value : UInt32) :
    putU32 (front ++ zeros k) offset value =
      .ok ((front ++ bytesLe 4 value.toNat) ++ zeros (k - 4)) := by
  have hcopy := copy_zeros h rfl (show (bytesLe 4 value.toNat).length ≤ k by simpa using hk)
  simpa only [putU32, length_bytesLe] using hcopy

theorem putU32_first (hk : 4 ≤ k) (value : UInt32) :
    putU32 (zeros k) 0 value = .ok (bytesLe 4 value.toNat ++ zeros (k - 4)) := by
  have hput := putU32_zeros (show ([] : List UInt8).length = 0 from rfl) hk value
  simpa using hput

theorem toNat_length {n : ℕ} (h : n ≤ uhidDataMax) : (UInt16.ofNat n).toNat = n := by
  unfold uhidDataMax at h
  rw [UInt16.toNat_ofNat']
  omega

theorem inputEvent_eq {reportId : Option UInt8} {bytes : List UInt8}
    (h : (reportId.toList ++ bytes).length ≤ uhidDataMax) :
    inputEvent reportId bytes = .ok (bytesLe 4 uhidInput2.toNat ++
      bytesLe 2 (reportId.toList ++ bytes).length ++ (reportId.toList ++ bytes)) := by
  obtain ⟨data, hdata⟩ : ∃ data, reportId.toList ++ bytes = data := ⟨_, rfl⟩
  rw [hdata] at h
  unfold inputEvent
  rw [hdata, if_neg (by omega), putU32_first (by omega), ok_bind,
    putU16_zeros (length_bytesLe _ _) (by omega), ok_bind, toNat_length h,
    copy_zeros (by simp) (by simp [zeros]; omega) (by omega)]
  simp only [zeros, show 6 + data.length - 4 - 2 - data.length = 0 by omega, List.replicate_zero,
    List.append_nil]

theorem getReplyEvent_eq {bytes : List UInt8} (h : bytes.length ≤ uhidDataMax) (id : UInt32)
    (status : Int16) : getReplyEvent id status bytes = .ok (bytesLe 4 uhidGetReportReply.toNat ++
      bytesLe 4 id.toNat ++ bytesLe 2 status.toUInt16.toNat ++ bytesLe 2 bytes.length ++ bytes) := by
  unfold getReplyEvent
  rw [if_neg (by omega), putU32_first (by omega), ok_bind,
    putU32_zeros (length_bytesLe _ _) (by omega), ok_bind, putU16_zeros (by simp) (by omega),
    ok_bind, putU16_zeros (by simp) (by omega), ok_bind, toNat_length h,
    copy_zeros (by simp) (by simp [zeros]; omega) (by omega)]
  simp only [zeros, show 12 + bytes.length - 4 - 4 - 2 - 2 - bytes.length = 0 by omega,
    List.replicate_zero, List.append_nil]

theorem setReplyEvent_eq (id : UInt32) (status : Int16) : setReplyEvent id status =
    .ok (bytesLe 4 uhidSetReportReply.toNat ++ bytesLe 4 id.toNat ++
      bytesLe 2 status.toUInt16.toNat) := by
  unfold setReplyEvent
  rw [putU32_first (by omega), ok_bind, putU32_zeros (length_bytesLe _ _) (by omega), ok_bind,
    putU16_zeros (by simp) (by omega)]
  simp [zeros]

theorem destroyEvent_eq : destroyEvent = .ok (bytesLe 4 uhidDestroy.toNat) := by
  unfold destroyEvent
  rw [putU32_first (by omega)]
  simp [zeros]

theorem zeros_split {m : ℕ} (h : m ≤ k) : zeros k = zeros m ++ zeros (k - m) := by
  unfold zeros
  rw [← List.replicate_add, Nat.add_sub_cancel' h]

@[simp] theorem length_zeros (n : ℕ) : (zeros n).length = n := List.length_replicate

/-- A text and the NULs behind it. -/
def padded (n : ℕ) (text : String) : List UInt8 := utf8 text ++ zeros (n - (utf8 text).length)

def FitsField (n : ℕ) (text : String) : Prop := (utf8 text).length < n ∧ 0 ∉ utf8 text

instance (n : ℕ) (text : String) : Decidable (FitsField n text) :=
  inferInstanceAs (Decidable (_ ∧ _))

theorem length_padded {n : ℕ} {text : String} (h : FitsField n text) :
    (padded n text).length = n := by
  have hlength := h.1
  unfold padded
  rw [List.length_append, length_zeros]
  omega

theorem copyText_zeros {start stop : ℕ} {text : String} (h : front.length = start)
    (hfits : FitsField (stop - start) text) (hk : stop - start ≤ k) :
    copyText (front ++ zeros k) start stop text =
      .ok ((front ++ padded (stop - start) text) ++ zeros (k - (stop - start))) := by
  have hlength := hfits.1
  have hrest : zeros (k - (utf8 text).length) =
      zeros (stop - start - (utf8 text).length) ++ zeros (k - (stop - start)) := by
    rw [zeros_split (show stop - start - (utf8 text).length ≤ k - (utf8 text).length by omega)]
    congr 2
    omega
  have hroom : ¬ (stop - start ≤ (utf8 text).length ∨ 0 ∈ utf8 text) := by
    rintro (hlong | hnul)
    · omega
    · exact hfits.2 hnul
  unfold copyText padded
  rw [if_neg hroom, copy_zeros h rfl (by omega), hrest]
  simp only [List.append_assoc]

theorem copyText_refused {out : List UInt8} {start stop : ℕ} {text : String}
    (h : ¬ FitsField (stop - start) text) : copyText out start stop text =
      .error (.open "UHID identity must fit its NUL-terminated field without truncation") := by
  unfold copyText
  rw [if_pos]
  unfold FitsField at h
  by_cases hlong : stop - start ≤ (utf8 text).length
  · exact .inl hlong
  · exact .inr (not_not.mp fun hnul => h ⟨by omega, hnul⟩)

/-- An identity and a descriptor that fit the record. -/
structure FitsRecord (spec : NativeHidRealization) : Prop where
  name : FitsField 128 spec.deviceName
  path : FitsField 64 spec.physicalPath
  unique : FitsField 64 spec.uniqueId
  descriptor : spec.descriptor.length ≤ uhidDataMax

/-- The kernel's record of a new device. -/
def createRecord (spec : NativeHidRealization) : List (List UInt8) :=
  [bytesLe 4 uhidCreate2.toNat, padded 128 spec.deviceName, padded 64 spec.physicalPath,
    padded 64 spec.uniqueId, bytesLe 2 spec.descriptor.length, bytesLe 2 spec.busType.toNat,
    bytesLe 4 spec.identity.vendorId.toNat, bytesLe 4 spec.identity.productId.toNat,
    bytesLe 4 spec.identity.version.toNat, zeros 4, spec.descriptor,
    zeros (uhidEventSize - 280 - spec.descriptor.length)]

theorem createEvent_eq {spec : NativeHidRealization} (h : FitsRecord spec) :
    createEvent spec = .ok (createRecord spec).flatten := by
  have hname := length_padded h.name
  have hpath := length_padded h.path
  have hunique := length_padded h.unique
  have hdescriptor := h.descriptor
  have hmax : uhidDataMax = 4096 := rfl
  have hsize : uhidEventSize = 4380 := rfl
  have hgap : zeros 4104 = zeros 4 ++ zeros 4100 := zeros_split (by decide)
  unfold createEvent
  rw [if_neg (by omega), hsize, putU32_first (by decide), ok_bind,
    copyText_zeros (length_bytesLe _ _) h.name (by decide), ok_bind,
    copyText_zeros (by simp [hname]) h.path (by decide), ok_bind,
    copyText_zeros (by simp [hname, hpath]) h.unique (by decide), ok_bind,
    putU16_zeros (by simp [hname, hpath, hunique]) (by decide), ok_bind, toNat_length hdescriptor,
    putU16_zeros (by simp [hname, hpath, hunique]) (by decide), ok_bind,
    putU32_zeros (by simp [hname, hpath, hunique]) (by decide), ok_bind,
    putU32_zeros (by simp [hname, hpath, hunique]) (by decide), ok_bind,
    putU32_zeros (by simp [hname, hpath, hunique]) (by decide), ok_bind]
  simp only [Nat.reduceSub]
  rw [hgap, ← List.append_assoc, copy_zeros (by simp [hname, hpath, hunique]) rfl (by omega)]
  simp [createRecord, hsize]

theorem createEvent_refused {spec : NativeHidRealization} (h : ¬ FitsRecord spec) :
    ∃ reason, createEvent spec = .error (.open reason) := by
  unfold createEvent
  by_cases hdescriptor : uhidDataMax < spec.descriptor.length
  · exact ⟨_, if_pos hdescriptor⟩
  rw [if_neg hdescriptor, show uhidEventSize = 4380 from rfl, putU32_first (by decide), ok_bind]
  by_cases hname : FitsField 128 spec.deviceName
  case neg => exact ⟨_, by rw [copyText_refused hname, error_bind]⟩
  rw [copyText_zeros (length_bytesLe _ _) hname (by decide), ok_bind]
  by_cases hpath : FitsField 64 spec.physicalPath
  case neg => exact ⟨_, by rw [copyText_refused hpath, error_bind]⟩
  rw [copyText_zeros (by simp [length_padded hname]) hpath (by decide), ok_bind]
  by_cases hunique : FitsField 64 spec.uniqueId
  case neg => exact ⟨_, by rw [copyText_refused hunique, error_bind]⟩
  exact absurd ⟨hname, hpath, hunique, by omega⟩ h

end Encodings

section KernelSide

def word (event : List UInt8) (offset : ℕ) : UInt32 := UInt32.ofNat (ofBytesLe (slice event offset 4))

def half (event : List UInt8) (offset : ℕ) : UInt16 := UInt16.ofNat (ofBytesLe (slice event offset 2))

/-- A text field up to its first NUL. -/
def cString (field : List UInt8) : List UInt8 := field.takeWhile (· ≠ 0)

/-- The answer to a GET, or without `get` to a SET. -/
structure KernelReply where
  id : UInt32
  get : Bool
  status : Int16
  bytes : List UInt8
  deriving DecidableEq

/-- What the kernel reads of a device it is asked to create. -/
structure Created where
  name : List UInt8
  physicalPath : List UInt8
  uniqueId : List UInt8
  bus : UInt16
  vendor : UInt32
  product : UInt32
  version : UInt32
  country : UInt32
  descriptor : List UInt8
  deriving DecidableEq

/-- The kernel's reading of an event that the device writes. -/
inductive Written where
  | create (device : Created)
  | input (data : List UInt8)
  | reply (reply : KernelReply)
  | destroy
  deriving DecidableEq

def readWritten (event : List UInt8) : Option Written :=
  if word event 0 = uhidInput2 then some (.input (slice event 6 (half event 4).toNat))
  else if word event 0 = uhidGetReportReply then
    some (.reply ⟨word event 4, true, (half event 8).toInt16, slice event 12 (half event 10).toNat⟩)
  else if word event 0 = uhidSetReportReply then
    some (.reply ⟨word event 4, false, (half event 8).toInt16, []⟩)
  else if word event 0 = uhidDestroy then some .destroy
  else if word event 0 = uhidCreate2 then
    some (.create {
      name := cString (slice event 4 128)
      physicalPath := cString (slice event 132 64)
      uniqueId := cString (slice event 196 64)
      bus := half event 262
      vendor := word event 264
      product := word event 268
      version := word event 272
      country := word event 276
      descriptor := slice event 280 (half event 260).toNat })
  else none

def Created.of (spec : NativeHidRealization) : Created where
  name := utf8 spec.deviceName
  physicalPath := utf8 spec.physicalPath
  uniqueId := utf8 spec.uniqueId
  bus := spec.busType
  vendor := spec.identity.vendorId.toUInt32
  product := spec.identity.productId.toUInt32
  version := spec.identity.version.toUInt32
  country := 0
  descriptor := spec.descriptor

@[simp] theorem ofNat_word (value : UInt32) :
    UInt32.ofNat (ofBytesLe (bytesLe 4 value.toNat)) = value := by
  rw [ofBytesLe_bytesLe (by simpa using value.toNat_lt), UInt32.ofNat_toNat]

@[simp] theorem ofNat_half (value : ℕ) :
    UInt16.ofNat (ofBytesLe (bytesLe 2 value)) = UInt16.ofNat value := by
  apply UInt16.toNat_inj.mp
  rw [UInt16.toNat_ofNat', UInt16.toNat_ofNat']
  simp only [bytesLe, ofBytesLe, UInt8.toNat_ofNat']
  omega

theorem slice_whole {bytes : List UInt8} {n : ℕ} (h : bytes.length = n) :
    slice bytes 0 n = bytes := by
  simp [slice, ← h]

theorem readWritten_input {data : List UInt8} (h : data.length ≤ uhidDataMax) :
    readWritten (bytesLe 4 uhidInput2.toNat ++ bytesLe 2 data.length ++ data) =
      some (.input data) := by
  unfold readWritten word half
  simp (disch := simp) only [List.append_assoc, slice_front, slice_behind, length_bytesLe,
    Nat.reduceSub, ofNat_word, ofNat_half, if_true, toNat_length h, slice_whole]

theorem readWritten_getReply {bytes : List UInt8} (h : bytes.length ≤ uhidDataMax) (id : UInt32)
    (status : Int16) : readWritten (bytesLe 4 uhidGetReportReply.toNat ++ bytesLe 4 id.toNat ++
      bytesLe 2 status.toUInt16.toNat ++ bytesLe 2 bytes.length ++ bytes) =
      some (.reply ⟨id, true, status, bytes⟩) := by
  have hkind : uhidGetReportReply ≠ uhidInput2 := by decide
  unfold readWritten word half
  simp (disch := simp) only [List.append_assoc, slice_front, slice_behind, length_bytesLe,
    Nat.reduceSub, ofNat_word, ofNat_half, if_neg hkind, if_true, toNat_length h, slice_whole,
    UInt16.ofNat_toNat, Int16.toInt16_toUInt16]

theorem readWritten_setReply (id : UInt32) (status : Int16) :
    readWritten (bytesLe 4 uhidSetReportReply.toNat ++ bytesLe 4 id.toNat ++
      bytesLe 2 status.toUInt16.toNat) = some (.reply ⟨id, false, status, []⟩) := by
  have hinput : uhidSetReportReply ≠ uhidInput2 := by decide
  have hget : uhidSetReportReply ≠ uhidGetReportReply := by decide
  unfold readWritten word half
  simp (disch := simp) only [List.append_assoc, slice_front, slice_behind, length_bytesLe,
    Nat.reduceSub, ofNat_word, ofNat_half, if_neg hinput, if_neg hget, if_true, slice_whole,
    UInt16.ofNat_toNat, Int16.toInt16_toUInt16]

theorem readWritten_destroy : readWritten (bytesLe 4 uhidDestroy.toNat) = some .destroy := by
  decide

/-- What an encoder writes reads back as `w`, and refusals are no reason to wait. -/
abbrev Encodes (event : Outcome ProviderError (List UInt8)) (w : Written) : Prop :=
  event.Yields (fun bytes => readWritten bytes = some w) (fun error => error ≠ .wouldBlock) False

theorem inputEvent_encodes (reportId : Option UInt8) (bytes : List UInt8) :
    Encodes (inputEvent reportId bytes) (.input (reportId.toList ++ bytes)) := by
  by_cases hlong : uhidDataMax < (reportId.toList ++ bytes).length
  · have herror : inputEvent reportId bytes =
        .error (.write "HID input report exceeds UHID maximum") := if_pos hlong
    simp [herror]
  · have hfits := Nat.le_of_not_lt hlong
    rw [inputEvent_eq hfits]
    exact readWritten_input hfits

theorem getReplyEvent_encodes (id : UInt32) (status : Int16) (bytes : List UInt8) :
    Encodes (getReplyEvent id status bytes) (.reply ⟨id, true, status, bytes⟩) := by
  by_cases hlong : uhidDataMax < bytes.length
  · have herror : getReplyEvent id status bytes =
        .error (.write "feature reply exceeds UHID maximum") := if_pos hlong
    simp [herror]
  · have hfits := Nat.le_of_not_lt hlong
    rw [getReplyEvent_eq hfits]
    exact readWritten_getReply hfits id status

theorem setReplyEvent_encodes (id : UInt32) (status : Int16) :
    Encodes (setReplyEvent id status) (.reply ⟨id, false, status, []⟩) := by
  rw [setReplyEvent_eq]
  exact readWritten_setReply id status

theorem destroyEvent_encodes : Encodes destroyEvent .destroy := by
  rw [destroyEvent_eq]
  exact readWritten_destroy

theorem cString_padded {n : ℕ} {text : String} (h : FitsField n text) :
    cString (padded n text) = utf8 text := by
  have hlength := h.1
  have hnonzero : ∀ b ∈ utf8 text, decide (b ≠ 0) = true := by
    intro b hb
    rw [decide_eq_true_eq]
    rintro rfl
    exact h.2 hb
  obtain ⟨k, hk⟩ : ∃ k, n - (utf8 text).length = k + 1 := ⟨n - (utf8 text).length - 1, by omega⟩
  unfold cString padded
  rw [List.takeWhile_append_of_pos hnonzero, hk]
  simp [zeros, List.replicate_succ]

theorem readWritten_create {spec : NativeHidRealization} (h : FitsRecord spec) :
    readWritten (createRecord spec).flatten = some (.create (Created.of spec)) := by
  have hname := length_padded h.name
  have hpath := length_padded h.path
  have hunique := length_padded h.unique
  have hinput : uhidCreate2 ≠ uhidInput2 := by decide
  have hget : uhidCreate2 ≠ uhidGetReportReply := by decide
  have hset : uhidCreate2 ≠ uhidSetReportReply := by decide
  have hdestroy : uhidCreate2 ≠ uhidDestroy := by decide
  unfold readWritten word half createRecord
  simp (disch := simp [hname, hpath, hunique]) only [List.flatten_cons, List.flatten_nil, slice_front,
    slice_behind, length_bytesLe, hname, hpath, hunique, length_zeros, Nat.reduceSub, ofNat_word,
    ofNat_half, if_neg hinput, if_neg hget, if_neg hset, if_neg hdestroy, if_true,
    toNat_length h.descriptor, UInt16.ofNat_toNat, cString_padded h.name, cString_padded h.path,
    cString_padded h.unique]
  have hword : ∀ value : UInt16,
      UInt32.ofNat (ofBytesLe (bytesLe 4 value.toNat)) = value.toUInt32 := by
    intro value
    simpa using ofNat_word value.toUInt32
  have hcountry : UInt32.ofNat (ofBytesLe (zeros 4)) = 0 := by decide
  simp only [hword, hcountry, Created.of]

/-- Creation either writes nothing, because the specification does not fit the record, or writes
one record of the size of an event from which the kernel reads the specification. -/
theorem createEvent_reads_back (spec : NativeHidRealization) :
    createEvent spec ≠ .panicked ∧ ((∃ event, createEvent spec = .ok event) ↔ FitsRecord spec) ∧
      ∀ event, createEvent spec = .ok event → event.length = uhidEventSize ∧
        readWritten event = some (.create (Created.of spec)) := by
  by_cases hfits : FitsRecord spec
  · have hevent := createEvent_eq hfits
    refine ⟨by simp [hevent], ⟨fun _ => hfits, fun _ => ⟨_, hevent⟩⟩, fun event hok => ?_⟩
    obtain rfl := Outcome.ok.inj (hevent.symm.trans hok)
    refine ⟨?_, readWritten_create hfits⟩
    have hname := length_padded hfits.name
    have hpath := length_padded hfits.path
    have hunique := length_padded hfits.unique
    have hdescriptor := hfits.descriptor
    have hmax : uhidDataMax = 4096 := rfl
    have hsize : uhidEventSize = 4380 := rfl
    simp only [createRecord, List.length_flatten, List.map_cons, List.map_nil, List.sum_cons,
      List.sum_nil, length_bytesLe, hname, hpath, hunique, length_zeros]
    omega
  · obtain ⟨reason, hrefused⟩ := createEvent_refused hfits
    rw [hrefused]
    simp [hfits]

end KernelSide

end UhidEvents
