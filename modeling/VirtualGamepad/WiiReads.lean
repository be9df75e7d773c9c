import VirtualGamepad.WiiConversation
import VirtualGamepad.WiiStore

/-! The reads of a Wii Remote. A host that asks for bytes of a memory window hears them in chunks of sixteen,
or one error and nothing else. -/
namespace WiiReads

open HidRuntime (Report Error ReplyError)
open Panicking Runs WireBytes WiiRemote WiiReports WiiMemory WiiProtocol WiiSafety WiiInput WiiReplies
open WiiRuns WiiConversation WiiStore

section Windows

variable {m : Memory} {state : WiiRemoteState} {r : Read} {count offset base : ℕ}
  {block : Option (List UInt8)} {remaining : UInt16}

/-- The errors that a read can be answered with. -/
def Coded (o : Outcome UInt8 (List UInt8)) : Prop :=
  ∀ code, o = .error code → code = 6 ∨ code = 7 ∨ code = 8

theorem coded_error {code : UInt8} (h : code = 6 ∨ code = 7 ∨ code = 8) :
    Coded (.error code : Outcome UInt8 (List UInt8)) := by
  intro code heq
  cases heq
  exact h

theorem coded_range (bytes : List UInt8) (start stop : ℕ) : Coded (range bytes start stop) := by
  intro code h
  unfold range at h
  split at h
  · cases h
  · cases h

theorem windowRead_coded : Coded (Memory.windowRead block offset base remaining count) := by
  unfold Memory.windowRead
  split
  · exact coded_error (by decide)
  · dsimp only
    split
    · exact coded_range _ _ _
    · exact coded_error (by decide)

theorem readMotionPlus_coded : Coded (m.readMotionPlus state offset remaining count) := by
  unfold Memory.readMotionPlus
  split
  · exact windowRead_coded
  · have hidentity : Coded
        (if 0xfa ≤ offset then Memory.readIdentity (m.motionplusIdentity state) offset count
        else if offset = 0xfe ∧ count = 1 then .ok [m.mpMode.getD 0]
        else .error 7) := by
      split
      · exact coded_range _ _ _
      · split
        · intro code h
          cases h
        · exact coded_error (by decide)
    dsimp only
    split
    · split
      · exact windowRead_coded
      · split
        · exact windowRead_coded
        · exact hidentity
    · exact hidentity

theorem readExtension_coded : Coded (m.readExtension state offset remaining count) := by
  unfold Memory.readExtension
  split
  · exact windowRead_coded
  · split
    · split
      · exact coded_range _ _ _
      · exact coded_error (by decide)
    · split
      · exact coded_range _ _ _
      · exact coded_error (by decide)
    · exact coded_error (by decide)

theorem read_coded (m : Memory) (state : WiiRemoteState) (r : Read) (count : ℕ) :
    Coded (m.read state r count) := by
  unfold Memory.read
  split
  · dsimp only
    split
    · exact coded_error (by decide)
    · split
      · exact coded_error (by decide)
      · exact coded_range _ _ _
  · split
    · exact coded_error (by decide)
    · split
      · exact coded_error (by decide)
      · dsimp only
        split
        · exact coded_error (by decide)
        · split
          · exact readMotionPlus_coded
          · split
            · exact readExtension_coded
            · exact coded_error (by decide)

/-- A block of sixteen bytes has no room for a longer read. -/
theorem windowRead_long (hblock : ∀ bytes, block = some bytes → bytes.length ≤ 16)
    (hlong : 16 < remaining.toNat) : Memory.windowRead block offset base remaining count = .error 7 := by
  unfold Memory.windowRead
  cases block with
  | none => rfl
  | some bytes =>
    have hshort := hblock bytes rfl
    dsimp only
    rw [if_neg (by omega)]

theorem calibration_short {n : ℕ} (calibration : Option (Bytes n)) :
    ∀ bytes, calibration.map Bytes.toList = some bytes → bytes.length ≤ n := by
  intro bytes h
  obtain ⟨b, _, rfl⟩ := Option.map_eq_some_iff.mp h
  exact b.length_eq.le

/-- Beside its calibration a MotionPlus has nothing longer than a chunk. -/
theorem readMotionPlus_long (hout : ¬(0x20 ≤ offset ∧ offset < 0x40)) (hlong : 16 < remaining.toNat)
    (hcount : 16 ≤ count) (hfits : offset + count ≤ 256) :
    m.readMotionPlus state offset remaining count = .error 7 := by
  have hidentity : (if 0xfa ≤ offset then Memory.readIdentity (m.motionplusIdentity state) offset count
      else if offset = 0xfe ∧ count = 1 then .ok [m.mpMode.getD 0]
      else .error 7) = (.error 7 : Outcome UInt8 (List UInt8)) := by
    rw [if_neg (by omega), if_neg (by omega)]
  unfold Memory.readMotionPlus
  rw [if_neg hout]
  dsimp only
  split
  · next id calibration _ =>
    split
    · refine windowRead_long ?_ hlong
      rintro bytes ⟨⟩
      exact (by decide : 4 ≤ 16)
    · split
      · exact windowRead_long (calibration_short calibration) hlong
      · exact hidentity
  · exact hidentity

theorem readExtension_long (hlong : 16 < remaining.toNat) (hcount : 16 ≤ count)
    (hfits : offset + count ≤ 256) : m.readExtension state offset remaining count = .error 7 := by
  unfold Memory.readExtension
  split
  · exact windowRead_long (calibration_short _) hlong
  · split
    · rw [if_neg (by omega)]
    · rw [if_neg (by omega)]
    · rfl

end Windows

section Wholes

variable {m : Memory} {state : WiiRemoteState} {r : Read}

/-- A read as if it were answered at once. -/
def whole (m : Memory) (state : WiiRemoteState) (r : Read) : Outcome UInt8 (List UInt8) :=
  m.read state r r.remaining.toNat

/-- The first chunk of a read agrees with the whole, and what is left with the rest of it. -/
inductive Splits (m : Memory) (state : WiiRemoteState) (r : Read) : Prop where
  | data (bytes : List UInt8) : whole m state r = .ok bytes → bytes.length = r.remaining.toNat →
      m.read state r (size r) = .ok (bytes.take (size r)) →
      ((advance r).remaining ≠ 0 → whole m state (advance r) = .ok (bytes.drop (size r))) →
      Splits m state r
  | error (code : UInt8) : whole m state r = .error code → m.read state r (size r) = .error code →
      code = 6 ∨ code = 7 ∨ code = 8 → Splits m state r

theorem remaining_advance (r : Read) : (advance r).remaining.toNat = r.remaining.toNat - size r := by
  have hn := r.remaining.toNat_lt
  have hsize : size r ≤ r.remaining.toNat := Nat.min_le_left _ _
  have hofNat : (UInt16.ofNat (size r)).toNat = size r := by
    rw [UInt16.toNat_ofNat']
    omega
  change (r.remaining - UInt16.ofNat (size r)).toNat = _
  rw [UInt16.toNat_sub_of_le _ _ (UInt16.le_iff_toNat_le.mpr (by omega)), hofNat]

theorem size_long (h : 16 < r.remaining.toNat) : size r = 16 := Nat.min_eq_right h.le

theorem address_advance (h : 16 < r.remaining.toNat) (hfits : r.address.toNat + 16 < 65536) :
    (advance r).address.toNat = r.address.toNat + 16 := by
  change (r.address + UInt16.ofNat (size r)).toNat = _
  rw [size_long h, UInt16.toNat_add]
  change (r.address.toNat + 16) % 65536 = _
  omega

/-- The part of an address that a register window sees. -/
def offset (r : Read) : ℕ := (r.address &&& 0xff).toNat

theorem offset_eq (r : Read) : offset r = r.address.toNat % 256 := by
  unfold offset
  rw [UInt16.toNat_and]
  exact Nat.and_two_pow_sub_one_eq_mod _ 8

theorem offset_advance (h : 16 < r.remaining.toNat) (hfits : offset r + 16 < 256) :
    offset (advance r) = offset r + 16 := by
  have ha := r.address.toNat_lt
  rw [offset_eq] at hfits ⊢
  rw [offset_eq, address_advance h (by omega)]
  omega

/-- A short read is one chunk. -/
theorem short_splits (h : r.remaining.toNat ≤ 16) : Splits m state r := by
  have hsize : size r = r.remaining.toNat := Nat.min_eq_left h
  have hfetched := read_fetched m state r
  have hcoded := read_coded m state r (size r)
  cases hread : m.read state r (size r) with
  | ok bytes =>
    rw [hread] at hfetched
    obtain ⟨hlength⟩ := hfetched
    refine .data bytes ?_ (hlength.trans hsize) ?_ ?_
    · unfold whole
      rw [← hsize]
      exact hread
    · rw [hread, ← hlength, List.take_length]
    · intro hrest
      exfalso
      apply hrest
      apply UInt16.toNat_inj.mp
      rw [remaining_advance, hsize, Nat.sub_self]
      rfl
  | error code =>
    refine .error code ?_ hread (hcoded code hread)
    unfold whole
    rw [← hsize]
    exact hread
  | panicked =>
    rw [hread] at hfetched
    cases hfetched

theorem range_part {bytes : List UInt8} {start n : ℕ} (h : start + n ≤ bytes.length) :
    (range bytes start (start + n) : Outcome UInt8 (List UInt8)) = .ok (slice bytes start n) := by
  rw [range_eq_ok (Nat.le_add_right _ _) h, Nat.add_sub_cancel_left]
  rfl

theorem take_slice {bytes : List UInt8} {start n k : ℕ} (h : k ≤ n) :
    (slice bytes start n).take k = slice bytes start k := by
  unfold slice
  rw [List.take_take, Nat.min_eq_left h]

theorem drop_slice_part {bytes : List UInt8} {start n k : ℕ} :
    (slice bytes start n).drop k = slice bytes (start + k) (n - k) := by
  unfold slice
  rw [List.drop_take, List.drop_drop]

/-- A long read of the EEPROM. -/
theorem eeprom_splits (hspace : r.space = 0) (hlong : 16 < r.remaining.toNat) : Splits m state r := by
  have hread (k : ℕ) : m.read state r k = if 0x1700 < r.address.toNat + r.remaining.toNat then .error 8
      else if m.image.bytes.length < r.address.toNat + r.remaining.toNat then .error 8
      else range m.image.bytes r.address.toNat (r.address.toNat + k) := by
    unfold Memory.read
    rw [if_pos hspace]
  by_cases hwindow : 0x1700 < r.address.toNat + r.remaining.toNat
  · have herror (k : ℕ) : m.read state r k = .error 8 := by rw [hread, if_pos hwindow]
    exact .error 8 (herror _) (herror _) (by decide)
  by_cases himage : m.image.bytes.length < r.address.toNat + r.remaining.toNat
  · have herror (k : ℕ) : m.read state r k = .error 8 := by rw [hread, if_neg hwindow, if_pos himage]
    exact .error 8 (herror _) (herror _) (by decide)
  have hfits : r.address.toNat + r.remaining.toNat ≤ m.image.bytes.length := Nat.le_of_not_lt himage
  have hdata {k : ℕ} (hk : k ≤ r.remaining.toNat) :
      m.read state r k = .ok (slice m.image.bytes r.address.toNat k) := by
    rw [hread, if_neg hwindow, if_neg himage, range_part (by omega)]
  refine .data (slice m.image.bytes r.address.toNat r.remaining.toNat) (hdata le_rfl)
    (length_slice hfits) ?_ ?_
  · rw [size_long hlong, hdata hlong.le, take_slice hlong.le]
  · intro _
    have haddress := address_advance hlong (by omega)
    have hremaining := remaining_advance r
    rw [size_long hlong] at hremaining ⊢
    unfold whole Memory.read
    rw [if_pos (show (advance r).space = 0 from hspace)]
    dsimp only
    rw [haddress, hremaining, if_neg (by omega), if_neg (by omega), range_part (by omega),
      drop_slice_part]

/-- A read that is refused at every length up to its own. -/
theorem error_splits (code : UInt8) (hlong : 16 < r.remaining.toNat)
    (h : ∀ k, 16 ≤ k → m.read state r k = .error code) : Splits m state r := by
  have herror := h (size r) (size_long hlong).ge
  exact .error code (h _ hlong.le) herror (read_coded m state r _ code herror)

theorem read_registers {q : Read} (hspace : q.space ≠ 0) (hknown : q.space = 1 ∨ q.space = 2)
    (hslave : q.slave ≠ 0x50) (k : ℕ) : m.read state q k =
      if 256 < offset q + k then .error 7
      else if m.motionPlusSelected state q.slave = true then
        m.readMotionPlus state (offset q) q.remaining k
      else if q.slave = 0x52 ∧ m.initialized = (true, true) then
        m.readExtension state (offset q) q.remaining k
      else .error 7 := by
  unfold Memory.read
  rw [if_neg hspace, if_neg (not_not.mpr hknown), if_neg hslave]
  rfl

/-- The calibration of a MotionPlus is the only register window that is longer than a chunk. -/
theorem calibration_splits (hspace : r.space ≠ 0) (hknown : r.space = 1 ∨ r.space = 2)
    (hslave : r.slave ≠ 0x50) (hselected : m.motionPlusSelected state r.slave = true)
    (hwindow : 0x20 ≤ offset r ∧ offset r < 0x40) (hlong : 16 < r.remaining.toNat) : Splits m state r := by
  have hread {q : Read} {k : ℕ} (hq : q.space = r.space ∧ q.slave = r.slave)
      (hin : 0x20 ≤ offset q ∧ offset q < 0x40) (hfits : offset q + k ≤ 256) : m.read state q k =
        Memory.windowRead (m.image.calibration.motionPlus.map Bytes.toList) (offset q) 0x20 q.remaining
          k := by
    rw [read_registers (hq.1 ▸ hspace) (hq.1 ▸ hknown) (hq.2 ▸ hslave), if_neg (by omega),
      if_pos (hq.2 ▸ hselected)]
    unfold Memory.readMotionPlus
    rw [if_pos hin]
    rfl
  have hout {k : ℕ} (hk : 256 < offset r + k) : m.read state r k = .error 7 := by
    rw [read_registers hspace hknown hslave, if_pos hk]
  cases hblock : m.image.calibration.motionPlus.map Bytes.toList with
  | none =>
    refine error_splits 7 hlong fun k _ => ?_
    by_cases hk : offset r + k ≤ 256
    · rw [hread ⟨rfl, rfl⟩ hwindow hk, hblock]
      rfl
    · exact hout (by omega)
  | some block =>
    have hlength : block.length = 32 := by
      obtain ⟨b, _, rfl⟩ := Option.map_eq_some_iff.mp hblock
      exact b.length_eq
    by_cases hfits : offset r - 0x20 + r.remaining.toNat ≤ block.length
    · have hdata {k : ℕ} (hk : k ≤ r.remaining.toNat) :
          m.read state r k = .ok (slice block (offset r - 0x20) k) := by
        rw [hread ⟨rfl, rfl⟩ hwindow (by omega), hblock]
        unfold Memory.windowRead
        dsimp only
        rw [if_pos hfits, range_part (by omega)]
      refine .data (slice block (offset r - 0x20) r.remaining.toNat) (hdata le_rfl)
        (length_slice hfits) ?_ ?_
      · rw [size_long hlong, hdata hlong.le, take_slice hlong.le]
      · intro _
        have hoffset := offset_advance hlong (by omega)
        have hremaining := remaining_advance r
        rw [size_long hlong] at hremaining ⊢
        have hstart : offset r + 16 - 0x20 = offset r - 0x20 + 16 := by omega
        unfold whole
        rw [@hread (advance r) _ ⟨rfl, rfl⟩ (by omega) (by omega), hblock]
        unfold Memory.windowRead
        dsimp only
        rw [hoffset, hremaining, if_pos (by omega), range_part (by omega), drop_slice_part, hstart]
    · refine error_splits 7 hlong fun k _ => ?_
      by_cases hk : offset r + k ≤ 256
      · rw [hread ⟨rfl, rfl⟩ hwindow hk, hblock]
        unfold Memory.windowRead
        dsimp only
        rw [if_neg hfits]
      · exact hout (by omega)

theorem read_splits (m : Memory) (state : WiiRemoteState) (r : Read) : Splits m state r := by
  by_cases hshort : r.remaining.toNat ≤ 16
  · exact short_splits hshort
  have hlong : 16 < r.remaining.toNat := Nat.lt_of_not_le hshort
  by_cases hspace : r.space = 0
  · exact eeprom_splits hspace hlong
  by_cases hknown : r.space = 1 ∨ r.space = 2
  · by_cases hslave : r.slave = 0x50
    · refine error_splits 8 hlong fun k _ => ?_
      unfold Memory.read
      rw [if_neg hspace, if_neg (not_not.mpr hknown), if_pos hslave]
    by_cases hcalibration : m.motionPlusSelected state r.slave = true ∧ 0x20 ≤ offset r ∧ offset r < 0x40
    · exact calibration_splits hspace hknown hslave hcalibration.1 hcalibration.2 hlong
    refine error_splits 7 hlong fun k hk => ?_
    rw [read_registers hspace hknown hslave]
    by_cases hfits : 256 < offset r + k
    · rw [if_pos hfits]
    rw [if_neg hfits]
    by_cases hselected : m.motionPlusSelected state r.slave = true
    · rw [if_pos hselected]
      exact readMotionPlus_long (fun hwindow => hcalibration ⟨hselected, hwindow⟩) hlong hk (by omega)
    rw [if_neg hselected]
    split
    · exact readExtension_long hlong hk (by omega)
    · rfl
  · refine error_splits 6 hlong fun k _ => ?_
    unfold Memory.read
    rw [if_neg hspace, if_pos hknown]

end Wholes

section Answers

variable {m : Memory} {state : WiiRemoteState} {r : Read} {w w' : Wii} {report : Report}

/-- What a host makes of an answer to a read: an error, or as many bytes as the answer says. -/
structure Answer where
  address : UInt16
  error : UInt8
  data : List UInt8
  deriving DecidableEq, Repr

def Answer.of (report : Report) : Answer where
  address := be16 (report.payload.getD 3 0) (report.payload.getD 4 0)
  error := report.payload.getD 2 0 &&& 0x0f
  data :=
    if report.payload.getD 2 0 &&& 0x0f = 0 then
      slice report.payload 5 ((report.payload.getD 2 0 >>> 4).toNat + 1)
    else []

/-- So many answers with the bytes from an address on. -/
def chunks : ℕ → UInt16 → List UInt8 → List Answer
  | 0, _, _ => []
  | k + 1, address, bytes => ⟨address, 0, bytes.take 16⟩ :: chunks k (address + 16) (bytes.drop 16)

/-- The answers that a host is to hear for a read. -/
def answers (m : Memory) (state : WiiRemoteState) (r : Read) : List Answer :=
  match whole m state r with
  | .ok bytes => chunks ((bytes.length + 15) / 16) r.address bytes
  | .error code => [⟨r.address, code, []⟩]
  | .panicked => []

theorem length_chunks (k : ℕ) (address : UInt16) (bytes : List UInt8) :
    (chunks k address bytes).length = k := by
  induction k generalizing address bytes with
  | zero => rfl
  | succ k ih => rw [chunks, List.length_cons, ih]

/-- The bytes of the answers are the bytes of the window. -/
theorem chunks_data (k : ℕ) (address : UInt16) (bytes : List UInt8) :
    (chunks k address bytes).flatMap Answer.data = bytes.take (16 * k) := by
  induction k generalizing address bytes with
  | zero => rfl
  | succ k ih => rw [chunks, List.flatMap_cons, ih, Nat.mul_succ, Nat.add_comm, List.take_add]

theorem chunks_calm (k : ℕ) (address : UInt16) (bytes : List UInt8) :
    ∀ a ∈ chunks k address bytes, a.error = 0 := by
  induction k generalizing address bytes with
  | zero => exact List.forall_mem_nil _
  | succ k ih => exact List.forall_mem_cons.mpr ⟨rfl, ih _ _⟩

theorem be16_be16Bytes (a : UInt16) : be16 (a >>> 8).toUInt8 a.toUInt8 = a := by
  have ha := a.toNat_lt
  have hhigh : (a >>> 8).toUInt8.toUInt16.toNat <<< 8 = a.toNat / 256 * 256 := by
    rw [UInt8.toNat_toUInt16, UInt16.toNat_toUInt8, UInt16.toNat_shiftRight, Nat.shiftLeft_eq]
    change a.toNat >>> 8 % 256 * 256 = _
    rw [Nat.shiftRight_eq_div_pow]
    omega
  have hlow : a.toUInt8.toUInt16.toNat = a.toNat % 256 := by
    rw [UInt8.toNat_toUInt16, UInt16.toNat_toUInt8]
  apply UInt16.toNat_inj.mp
  unfold be16
  rw [UInt16.toNat_or, UInt16.toNat_shiftLeft, hlow]
  change (a >>> 8).toUInt8.toUInt16.toNat <<< 8 % 2 ^ 16 ||| a.toNat % 256 = _
  rw [hhigh, Nat.mod_eq_of_lt (by omega), Nat.mul_comm, ← Nat.two_pow_add_eq_or_of_lt (i := 8) (by omega)]
  omega

/-- A chunk is read back as the bytes that it carries. -/
theorem answer_data {d : List UInt8} (hd : d.length = size r) (hsize : 0 < size r)
    (h : report.payload = chunkBytes state (UInt8.ofNat (size r - 1) <<< 4) r d) :
    Answer.of report = ⟨r.address, 0, d⟩ := by
  have hsmall : size r ≤ 16 := Nat.min_le_right _ _
  have hflag : ∀ k < 16, (UInt8.ofNat k <<< 4 &&& 0x0f = 0) ∧ (UInt8.ofNat k <<< 4 >>> 4).toNat = k := by
    decide
  obtain ⟨herror, hcount⟩ := hflag (size r - 1) (by omega)
  have hdata : slice report.payload 5 (size r) = d := by
    rw [h]
    unfold chunkBytes
    have hhead : (core state ++ UInt8.ofNat (size r - 1) <<< 4 :: be16Bytes r.address).length = 5 := rfl
    rw [List.append_assoc, slice_behind hhead.le, hhead]
    exact slice_front hd
  have h2 : report.payload.getD 2 0 = UInt8.ofNat (size r - 1) <<< 4 := by rw [h]; rfl
  have h3 : report.payload.getD 3 0 = (r.address >>> 8).toUInt8 := by rw [h]; rfl
  have h4 : report.payload.getD 4 0 = r.address.toUInt8 := by rw [h]; rfl
  unfold Answer.of
  rw [h2, h3, h4, be16_be16Bytes, herror, if_pos rfl, hcount, Nat.sub_add_cancel hsize, hdata]

theorem answer_error {code : UInt8} (hcode : code = 6 ∨ code = 7 ∨ code = 8)
    (h : report.payload = chunkBytes state (0xf0 ||| code) r []) :
    Answer.of report = ⟨r.address, code, []⟩ := by
  have hflag : (0xf0 ||| code) &&& 0x0f = code ∧ code ≠ 0 := by
    rcases hcode with rfl | rfl | rfl
    · decide
    · decide
    · decide
  have h2 : report.payload.getD 2 0 = 0xf0 ||| code := by rw [h]; rfl
  have h3 : report.payload.getD 3 0 = (r.address >>> 8).toUInt8 := by rw [h]; rfl
  have h4 : report.payload.getD 4 0 = r.address.toUInt8 := by rw [h]; rfl
  unfold Answer.of
  rw [h2, h3, h4, be16_be16Bytes, hflag.1, if_neg hflag.2]

/-- The answers that are owed for a read, or for none. -/
def owed (m : Memory) (state : WiiRemoteState) (read : Option Read) : List Answer :=
  read.elim [] (answers m state)

/-- One chunk is the first of the answers owed. -/
theorem chunk_answers {bytes : List UInt8} {rest : Option Read} (hzero : r.remaining ≠ 0)
    (h : Chunk m state r bytes rest) (hpayload : report.payload = bytes) :
    answers m state r = Answer.of report :: owed m state rest := by
  have hpositive : 0 < r.remaining.toNat := Nat.pos_of_ne_zero fun h0 => hzero (UInt16.toNat_inj.mp h0)
  have hsize : 0 < size r := Nat.lt_min.mpr ⟨hpositive, by decide⟩
  cases h with
  | error hread =>
    cases read_splits m state r with
    | data _ _ _ hchunk =>
      rw [hread] at hchunk
      cases hchunk
    | error code hwhole hchunk hcode =>
      rw [hread] at hchunk
      cases hchunk
      unfold answers
      rw [hwhole, answer_error hcode hpayload]
      rfl
  | data hread hlength =>
    cases read_splits m state r with
    | error _ _ hchunk =>
      rw [hread] at hchunk
      cases hchunk
    | data bytes hwhole hbytes hchunk hrest =>
      rw [hread] at hchunk
      cases hchunk
      obtain ⟨k, hk⟩ : ∃ k, (bytes.length + 15) / 16 = k + 1 := ⟨(bytes.length - 1) / 16, by omega⟩
      have htake : bytes.take 16 = bytes.take (size r) := by
        unfold size
        rw [← hbytes, ← List.take_take]
        exact (List.take_of_length_le (by rw [List.length_take]; omega)).symm
      have hremaining := remaining_advance r
      unfold answers
      rw [hwhole]
      dsimp only
      rw [hk, chunks, htake, answer_data hlength hsize hpayload]
      refine congrArg _ ?_
      by_cases hlong : 16 < r.remaining.toNat
      · have hmore : (advance r).remaining ≠ 0 := by
          intro h0
          rw [h0, size_long hlong] at hremaining
          change 0 = _ at hremaining
          omega
        rw [if_neg hmore]
        have hwhole' := hrest hmore
        change _ = answers m state (advance r)
        unfold answers
        rw [hwhole', size_long hlong]
        dsimp only
        have hcount : ((bytes.drop 16).length + 15) / 16 = k := by
          rw [List.length_drop]
          omega
        have haddress : (advance r).address = r.address + 16 := by
          change r.address + UInt16.ofNat (size r) = _
          rw [size_long hlong]
          rfl
        rw [hcount, haddress]
      · have hdone : (advance r).remaining = 0 := by
          apply UInt16.toNat_inj.mp
          rw [hremaining]
          change r.remaining.toNat - min r.remaining.toNat 16 = 0
          omega
        have hlast : k = 0 := by omega
        rw [if_pos hdone, hlast]
        rfl

end Answers

section Streams

variable {β : Type} {f : Answer → β} {m : Memory} {state : WiiRemoteState} {r : Read} {w w' : Wii}
  {call : Call}

/-- The answers to reads that a call hands to the transport. -/
def heard (call : Call) : List Answer := ((sent call).filter (·.id = some 0x21)).map Answer.of

/-- The answers that the personality still owes. -/
def left (w : Wii) : List Answer := owed w.memory w.state w.read

/-- A call with the answers that it made the personality owe. -/
structure Talk where
  call : Call
  asked : List Answer

/-- Only where no read is in progress can one be started. -/
def begun (w w' : Wii) : List Answer := if w.read = none then left w' else []

/-- What `f` tells of the answers to a read in progress stays the same. -/
def Steady (f : Answer → β) (w w' : Wii) : Prop :=
  ∀ r, w.read = some r → (answers w'.memory w'.state r).map f = (answers w.memory w.state r).map f

/-- A stop drops the read in progress. -/
def Uninterrupted (w : Wii) : Call → Prop
  | .lifecycle .stop _ => w.read = none
  | _ => True

def Talk.Step (f : Answer → β) (w : Wii) (x : Talk) (w' : Wii) : Prop :=
  WiiRuns.Step w x.call w' ∧ x.asked = begun w w' ∧ Steady f w w' ∧ Uninterrupted w x.call

/-- The read in progress is one of the EEPROM, which may be written meanwhile. -/
def Talk.EepromStep (w : Wii) (x : Talk) (w' : Wii) : Prop :=
  WiiRuns.Step w x.call w' ∧ x.asked = begun w w' ∧ Uninterrupted w x.call ∧
    ∀ r, w.read = some r → r.space = 0

/-- An input call that was answered. -/
def isInput : Call → Bool
  | .input _ _ (.ok _) => true
  | _ => false

/-- The answers that a run hands to the transport. -/
def told (log : List Talk) : List Answer := log.flatMap fun x => heard x.call

/-- What is told of the answers that are heard, left and asked for balances. -/
def Balanced (f : Answer → β) (w : Wii) (call : Call) (w' : Wii) : Prop :=
  (heard call).map f ++ (left w').map f = (left w).map f ++ (begun w w').map f

theorem balanced_still (hsteady : Steady f w w') (hheard : heard call = [])
    (hread : w.read ≠ none → w'.read = w.read) : Balanced f w call w' := by
  unfold Balanced begun
  rw [hheard]
  by_cases hnone : w.read = none
  · have hleft : left w = [] := by
      unfold left
      rw [hnone]
      rfl
    rw [if_pos hnone, hleft]
  · obtain ⟨r, hr⟩ := Option.ne_none_iff_exists'.mp hnone
    have hleft : (left w').map f = (left w).map f := by
      unfold left
      rw [hread hnone, hr]
      exact hsteady r hr
    rw [if_neg hnone, hleft, List.map_nil, List.append_nil, List.nil_append]

/-- The turns of the accessories are not read back. -/
theorem answers_turn (m : Memory) (turn : Bool) (state : WiiRemoteState) (r : Read) :
    answers { m with mpTurn := turn } state r = answers m state r := rfl

/-- The answers among the reports of a batch are its chunks. -/
theorem sent_heard {now : ℕ} {reports : List Report} (h : Sound w) (hs : Sent w state now reports w')
    (hactive : w.active = true) : ∃ chunks, Chunked { w with state, startStatus := false, pending := [] }
      state chunks w'.read ∧ heard (.input state now (.ok reports)) = chunks.map Answer.of := by
  cases hs with
  | silent haway =>
    rw [hactive] at haway
    cases haway
  | @batch chunks data read w₁ _ hchunked hgenerated =>
    obtain ⟨_, hread, _⟩ := generated_keeps hgenerated
    refine ⟨chunks, ?_, ?_⟩
    · rw [show (schedule now w₁).read = read from hread]
      exact hchunked
    · have hreplies : ∀ x ∈ greeting w state ++ w.pending, ¬x.id = some 0x21 := by
        intro x hx hid
        have hreply : isReply x = true := by
          rcases List.mem_append.mp hx with hx | hx
          · exact greeting_replies w state x hx
          · exact h.replies x hx
        unfold isReply at hreply
        rw [hid] at hreply
        exact absurd hreply (by decide)
      have hchunks : ∀ x ∈ chunks, x.id = some 0x21 := by
        cases hchunked with
        | idle => exact List.forall_mem_nil _
        | chunk _ _ _ hid => exact List.forall_mem_singleton.mpr hid
      have hdata : ∀ x ∈ data, ¬x.id = some 0x21 := by
        cases hgenerated with
        | awaiting => exact List.forall_mem_nil _
        | @data report _ _ hreport =>
          refine List.forall_mem_singleton.mpr fun hid => ?_
          have hmode := Option.some.inj (hreport.id_eq.symm.trans hid)
          have hknown : ∀ e ∈ modes, e.1 ≠ 0x21 := by decide
          exact hknown _ hreport.size hmode
      unfold heard sent
      rw [List.filter_append, List.filter_append,
        List.filter_eq_nil_iff.mpr (by simpa using hreplies),
        List.filter_eq_self.mpr (by simpa using hchunks),
        List.filter_eq_nil_iff.mpr (by simpa using hdata), List.nil_append, List.append_nil]

theorem handled_read {p : List UInt8} {both : Bool} {id : UInt8} (h : Handled p both w id w')
    (hread : w.read ≠ none) : w'.read = w.read := by
  cases h with
  | switched => exact (edges_keeps _ _).2
  | read hnone => exact absurd hnone hread
  | _ => rfl

theorem accepted_read {report : Report} {now : ℕ} (h : Accepted report now w w') (hread : w.read ≠ none) :
    w'.read = w.read := by
  obtain ⟨id, both, w₁, _, hhandled, hfinished⟩ := h
  obtain ⟨outputs, queued, rfl, _⟩ := finished_eq hfinished
  have hkept : w₁.read = w.read := handled_read hhandled hread
  exact hkept

theorem attached_read {extension : WiiExtension} {motionPlus : Bool} {now : ℕ}
    (h : Attached extension motionPlus now w w') : w'.read = w.read := by
  cases h with
  | away => rfl
  | seen => exact (edges_keeps _ _).2

/-- A read that is asked for too early is acknowledged as an error. -/
theorem handled_busy {p : List UInt8} {both : Bool} {id : UInt8} (h : Handled p both w id w')
    (hid : id = 0x17) (hread : w.read ≠ none) : w'.pending = w.pending ++ [ack w 0x17 4] := by
  cases h with
  | busy => rfl
  | read hnone => exact absurd hnone hread
  | audio hother =>
    subst hid
    exact absurd hother (by decide)
  | speaker _ _ hother =>
    subst hid
    exact absurd hother (by decide)
  | _ => exact absurd hid (by decide)

theorem accepted_busy {report : Report} {now : ℕ} (h : Accepted report now w w')
    (hid : report.id = some 0x17) (hread : w.read ≠ none) :
    w'.pending = w.pending ++ [ack w 0x17 4] := by
  obtain ⟨id, both, w₁, hadmitted, hhandled, hfinished⟩ := h
  obtain ⟨outputs, queued, rfl, _, _, hqueued⟩ := finished_eq hfinished
  have hrequest : id = 0x17 := Option.some.inj (hadmitted.id_eq.symm.trans hid)
  have hnothing : queued = [] := by
    rw [hrequest] at hqueued
    exact List.eq_nil_of_length_eq_zero (Nat.le_zero.mp hqueued)
  subst hnothing
  exact (List.append_nil _).trans (handled_busy hhandled hrequest hread)

/-- What a call leaves of the reads, an input call of a started personality aside. -/
structure Idles (w : Wii) (call : Call) (w' : Wii) : Prop where
  heard : heard call = []
  read : w.read ≠ none → w'.read = w.read
  active : w.read ≠ none → w.active = true → w'.active = true

/-- An input call hands over the first answer of the read in progress. -/
structure Serves (w : Wii) (call : Call) (w' : Wii) : Prop where
  active : w'.active = true
  none : w.read = none → heard call = [] ∧ w'.read = none
  some : ∀ r, w.read = some r → ∃ a, heard call = [a] ∧
    answers w'.memory w'.state r = a :: left w'

theorem sent_serves {now : ℕ} {reports : List Report} (h : Sound w) (hs : Sent w state now reports w')
    (hactive : w.active = true) : Serves w (.input state now (.ok reports)) w' := by
  obtain ⟨turn, hmemory⟩ := sent_memory hs
  obtain ⟨chunks, hchunked, hheard⟩ := sent_heard h hs hactive
  have hsettled : w'.active = true ∧ w'.state = state := by
    cases hs with
    | silent haway =>
      rw [hactive] at haway
      cases haway
    | batch _ _ hgenerated =>
      cases hgenerated with
      | awaiting => exact ⟨hactive, rfl⟩
      | data => exact ⟨hactive, rfl⟩
  have hleft : left w' = owed w.memory state w'.read := by
    unfold left owed
    rw [hmemory, hsettled.2]
    rfl
  generalize hread : w'.read = read at hchunked hleft
  refine ⟨hsettled.1, ?_, ?_⟩
  · intro hnone
    cases hchunked with
    | idle => exact ⟨hheard, hread⟩
    | chunk hsome =>
      rw [show w.read = _ from hsome] at hnone
      cases hnone
  · intro r hr
    cases hchunked with
    | idle hnone =>
      rw [show w.read = _ from hnone] at hr
      cases hr
    | chunk hsome hchunk _ _ hpayload =>
      obtain rfl := Option.some.inj (hr.symm.trans hsome)
      refine ⟨_, hheard, ?_⟩
      rw [hmemory, hsettled.2, answers_turn, hleft]
      exact chunk_answers (h.nonzero r hr) hchunk hpayload

theorem step_reads {call : Call} (h : Sound w) (hs : WiiRuns.Step w call w')
    (hkept : Uninterrupted w call) :
    (isInput call = true ∧ w.active = true ∧ Serves w call w') ∨
      ((isInput call = true → w.active = false) ∧ Idles w call w') := by
  have hsame (call : Call) (hheard : heard call = []) : Idles w call w :=
    ⟨hheard, fun _ => rfl, fun _ hactive => hactive⟩
  cases call with
  | accept report now result =>
    refine .inr ⟨fun hinput => (by cases hinput), ?_⟩
    rcases accept_turn hs with ⟨_, haccepted⟩ | ⟨_, rfl⟩
    · refine ⟨rfl, accepted_read haccepted, fun _ hactive => ?_⟩
      obtain ⟨id, both, w₁, _, hhandled, hfinished⟩ := haccepted
      obtain ⟨outputs, queued, rfl, _⟩ := finished_eq hfinished
      exact (handled_keeps hhandled).1.trans hactive
    · exact hsame _ rfl
  | input state now result =>
    rcases input_turn h.nonzero hs with ⟨reports, rfl, _, hsent⟩ | ⟨rfl, _, rfl⟩
    · by_cases hactive : w.active = true
      · exact .inl ⟨rfl, hactive, sent_serves h hsent hactive⟩
      · refine .inr ⟨fun _ => by simpa using hactive, ?_⟩
        cases hsent with
        | silent => exact ⟨rfl, fun _ => rfl, fun _ hactive => hactive⟩
        | batch hon => exact absurd hon hactive
    · exact .inr ⟨fun hinput => (by cases hinput), hsame _ rfl⟩
  | changeAttachment extension motionPlus now result =>
    refine .inr ⟨fun hinput => (by cases hinput), ?_⟩
    rcases attachment_turn hs with ⟨_, hattached⟩ | ⟨_, rfl⟩
    · refine ⟨rfl, fun _ => attached_read hattached, fun _ hactive => ?_⟩
      cases hattached with
      | away haway => exact hactive
      | seen => exact ((edges_keeps _ _).1).trans hactive
    · exact hsame _ rfl
  | lifecycle event now =>
    obtain rfl : w' = lifecycle event now w := hs
    refine .inr ⟨fun hinput => (by cases hinput), ?_⟩
    cases event with
    | start => exact ⟨rfl, fun _ => rfl, fun _ _ => rfl⟩
    | stop => exact ⟨rfl, fun hread => absurd hkept hread, fun hread => absurd hkept hread⟩
    | «open» => exact hsame _ rfl
    | close => exact hsame _ rfl

theorem step_balanced {x : Talk} (h : Sound w) (hs : x.Step f w w') : Balanced f w x.call w' := by
  obtain ⟨hcall, _, hsteady, hkept⟩ := hs
  rcases step_reads h hcall hkept with ⟨_, _, hserves⟩ | ⟨_, hidles⟩
  · unfold Balanced begun
    cases hread : w.read with
    | none =>
      obtain ⟨hheard, hnone⟩ := hserves.none hread
      unfold left
      rw [hheard, hnone, hread]
      rfl
    | some r =>
      obtain ⟨a, hheard, hanswers⟩ := hserves.some r hread
      have hsame := hsteady r hread
      rw [hanswers] at hsame
      have hleft : left w = answers w.memory w.state r := by
        unfold left
        rw [hread]
        rfl
      rw [if_neg (by simp), hheard, hleft, ← hsame]
      simp
  · exact balanced_still hsteady hidles.heard hidles.read

theorem run_balanced {log : List Talk} (h : Sound w) (hrun : Run (Talk.Step f) w log w') : Sound w' ∧
    (told log).map f ++ (left w').map f =
      (left w).map f ++ (log.flatMap Talk.asked).map f := by
  induction hrun with
  | nil => exact ⟨h, by simp [told]⟩
  | @snoc log t x u _ hstep ih =>
    obtain ⟨hsound, hbalance⟩ := ih
    have hlast : (heard x.call).map f ++ (left u).map f = (left t).map f ++ x.asked.map f := by
      rw [hstep.2.1]
      exact step_balanced hsound hstep
    refine ⟨hsound.step hstep.1, ?_⟩
    unfold told at hbalance ⊢
    simp only [List.flatMap_append, List.map_append, List.flatMap_singleton]
    rw [List.append_assoc, hlast, ← List.append_assoc, hbalance, List.append_assoc]

theorem answers_ne_nil (h : r.remaining ≠ 0) : answers m state r ≠ [] := by
  have hpositive : 0 < r.remaining.toNat := Nat.pos_of_ne_zero fun h0 => h (UInt16.toNat_inj.mp h0)
  unfold answers
  cases read_splits m state r with
  | data bytes hwhole hlength =>
    rw [hwhole]
    apply List.ne_nil_of_length_pos
    change 0 < (chunks _ _ _).length
    rw [length_chunks]
    omega
  | error code hwhole =>
    rw [hwhole]
    exact List.cons_ne_nil _ _

theorem left_ne_nil (h : Sound w) (hread : w.read ≠ none) : left w ≠ [] := by
  obtain ⟨r, hr⟩ := Option.ne_none_iff_exists'.mp hread
  unfold left
  rw [hr]
  exact answers_ne_nil (h.nonzero r hr)

/-- A read in progress was there before, or is asked for by this call. -/
theorem still_reading {x : Talk} (hsound : Sound w') (hs : x.Step f w w') (hasked : x.asked = [])
    (hread : w'.read ≠ none) : w.read ≠ none := by
  intro hnone
  have hbegun : begun w w' = left w' := if_pos hnone
  rw [← hs.2.1, hasked] at hbegun
  exact left_ne_nil hsound hread hbegun.symm

/-- While a read goes on, the input calls are fewer than its answers. -/
theorem run_progress {log : List Talk} (h : Sound w) (hactive : w.active = true)
    (hrun : Run (Talk.Step f) w log w') (hasked : ∀ x ∈ log, x.asked = []) (hread : w'.read ≠ none) :
    w'.active = true ∧
      (log.countP fun x => isInput x.call) + (left w').length = (left w).length := by
  induction hrun with
  | nil => exact ⟨hactive, Nat.zero_add _⟩
  | @snoc log t x u hlog hstep ih =>
    have hsound := (run_balanced h hlog).1
    have hnone := hasked x (by simp)
    have hearlier := still_reading (hsound.step hstep.1) hstep hnone hread
    obtain ⟨hon, hcount⟩ := ih (fun y hy => hasked y (by simp [hy])) hearlier
    have hbalance := congrArg List.length (step_balanced hsound hstep)
    have hbegun : begun t u = [] := hstep.2.1.symm.trans hnone
    simp only [List.length_append, List.length_map, hbegun, List.length_nil] at hbalance
    rw [List.countP_append, List.countP_singleton]
    rcases step_reads hsound hstep.1 hstep.2.2.2 with ⟨hinput, _, hserves⟩ | ⟨hinput, hidles⟩
    · obtain ⟨r, hr⟩ := Option.ne_none_iff_exists'.mp hearlier
      obtain ⟨a, hheard, _⟩ := hserves.some r hr
      rw [hheard, List.length_singleton] at hbalance
      refine ⟨hserves.active, ?_⟩
      rw [if_pos hinput]
      omega
    · have hother : ¬isInput x.call = true := fun h => by simp [hinput h] at hon
      rw [hidles.heard, List.length_nil] at hbalance
      refine ⟨hidles.active hearlier hon, ?_⟩
      rw [if_neg hother]
      omega

end Streams

section Eeprom

variable {m m' : Memory} {state state' : WiiRemoteState} {r : Read} {w w' : Wii}

/-- All that a write to the EEPROM leaves of an answer. -/
def Answer.shape (a : Answer) : UInt16 × UInt8 × ℕ := (a.address, a.error, a.data.length)

theorem chunks_shape (k : ℕ) (address : UInt16) {bytes bytes' : List UInt8}
    (h : bytes.length = bytes'.length) :
    (chunks k address bytes).map Answer.shape = (chunks k address bytes').map Answer.shape := by
  induction k generalizing address bytes bytes' with
  | zero => rfl
  | succ k ih =>
    have hfirst : Answer.shape ⟨address, 0, bytes.take 16⟩ = Answer.shape ⟨address, 0, bytes'.take 16⟩ := by
      unfold Answer.shape
      rw [List.length_take, List.length_take, h]
    have hrest : (bytes.drop 16).length = (bytes'.drop 16).length := by
      rw [List.length_drop, List.length_drop, h]
    rw [chunks, chunks, List.map_cons, List.map_cons, hfirst, ih _ hrest]

/-- A read of the EEPROM reaches no further than its address window and the image. -/
def Readable (m : Memory) (r : Read) : Prop :=
  r.address.toNat + r.remaining.toNat ≤ min 0x1700 m.image.bytes.length

instance (m : Memory) (r : Read) : Decidable (Readable m r) := inferInstanceAs (Decidable (_ ≤ _))

theorem answers_eeprom (hspace : r.space = 0) : answers m state r =
    if Readable m r then
      chunks ((r.remaining.toNat + 15) / 16) r.address
        (slice m.image.bytes r.address.toNat r.remaining.toNat)
    else [⟨r.address, 8, []⟩] := by
  have hwhole : whole m state r = if 0x1700 < r.address.toNat + r.remaining.toNat then .error 8
      else if m.image.bytes.length < r.address.toNat + r.remaining.toNat then .error 8
      else range m.image.bytes r.address.toNat (r.address.toNat + r.remaining.toNat) := by
    unfold whole Memory.read
    rw [if_pos hspace]
  unfold answers
  rw [hwhole]
  by_cases hreadable : Readable m r
  · obtain ⟨hwindow, himage⟩ := Nat.le_min.mp hreadable
    rw [if_neg (by omega), if_neg (by omega), range_part himage, if_pos hreadable]
    dsimp only
    rw [length_slice himage]
  · rw [if_neg hreadable]
    by_cases hwindow : 0x1700 < r.address.toNat + r.remaining.toNat
    · rw [if_pos hwindow]
    · have himage : m.image.bytes.length < r.address.toNat + r.remaining.toNat := by
        by_contra hfits
        exact hreadable (Nat.le_min.mpr ⟨Nat.le_of_not_lt hwindow, Nat.le_of_not_lt hfits⟩)
      rw [if_neg hwindow, if_pos himage]

theorem eeprom_shape (hspace : r.space = 0) (hlength : m'.image.bytes.length = m.image.bytes.length) :
    (answers m' state' r).map Answer.shape = (answers m state r).map Answer.shape := by
  have hsame : Readable m' r ↔ Readable m r := by
    unfold Readable
    rw [hlength]
  rw [answers_eeprom hspace, answers_eeprom hspace]
  by_cases hreadable : Readable m r
  · rw [if_pos (hsame.mpr hreadable), if_pos hreadable]
    have himage := (Nat.le_min.mp hreadable).2
    exact chunks_shape _ _ (by rw [length_slice (hlength ▸ himage), length_slice himage])
  · rw [if_neg fun h => hreadable (hsame.mp h), if_neg hreadable]

/-- Writes between the chunks of an EEPROM read change no length, no address and no error. -/
theorem steady_eeprom {call : Call} (h : Sound w) (hs : WiiRuns.Step w call w')
    (hspace : ∀ r, w.read = some r → r.space = 0) : Steady Answer.shape w w' := by
  intro r hr
  refine eeprom_shape (hspace r hr) ?_
  have hlength := congrArg (fun e => e.bytes.length) (step_writes h hs).image
  exact hlength.trans (ByteStore.Image.length_puts _ _)

theorem run_eeprom {log : List Talk} {w w' : Wii} (h : Sound w)
    (hrun : Run Talk.EepromStep w log w') : Sound w' ∧ Run (Talk.Step Answer.shape) w log w' := by
  induction hrun with
  | nil => exact ⟨h, .nil⟩
  | snoc _ hstep ih =>
    obtain ⟨hcall, hasked, hkept, hspace⟩ := hstep
    exact ⟨ih.1.step hcall, ih.2.snoc ⟨hcall, hasked, steady_eeprom ih.1 hcall hspace, hkept⟩⟩

end Eeprom

section Results

/-- What a host hears of the memory from a state of a personality on. -/
structure ReadsBytes (w : Wii) : Prop where
  /-- A readable window is answered in chunks of sixteen bytes, whose bytes are the window's; any other
  request is answered by one error. -/
  whole : ∀ r, r.remaining ≠ 0 →
    (∃ bytes, whole w.memory w.state r = .ok bytes ∧ bytes.length = r.remaining.toNat ∧
      answers w.memory w.state r = chunks ((r.remaining.toNat + 15) / 16) r.address bytes ∧
      (answers w.memory w.state r).flatMap Answer.data = bytes) ∨
    ∃ code, whole w.memory w.state r = .error code ∧ (code = 6 ∨ code = 7 ∨ code = 8) ∧
      answers w.memory w.state r = [⟨r.address, code, []⟩]
  /-- The EEPROM is readable below 0x1700 as far as the image goes. -/
  eeprom : ∀ r, r.space = 0 → answers w.memory w.state r =
    if Readable w.memory r then
      chunks ((r.remaining.toNat + 15) / 16) r.address
        (slice w.memory.image.bytes r.address.toNat r.remaining.toNat)
    else [⟨r.address, 8, []⟩]
  /-- While the memory that a read in progress sees stays the same, its host hears the answers to each read,
  one read after the other, and nothing else. -/
  content : ∀ log w', Run (Talk.Step id) w log w' →
    told log ++ left w' = left w ++ log.flatMap Talk.asked
  /-- Whatever is written meanwhile, a read of the EEPROM is heard with these addresses, errors and lengths. -/
  shapes : ∀ log w', Run Talk.EepromStep w log w' →
    (told log).map Answer.shape ++ (left w').map Answer.shape =
      (left w).map Answer.shape ++ (log.flatMap Talk.asked).map Answer.shape
  /-- A second read is refused while one is in progress, which goes on. -/
  busy : ∀ report now w', WiiRuns.Step w (.accept report now (.ok ())) w' → report.id = some 0x17 →
    w.read ≠ none → w'.read = w.read ∧ w'.pending = w.pending ++ [ack w 0x17 4]
  /-- A read is over after as many input calls as it has answers. -/
  finishes : ∀ log w', w.active = true → Run (Talk.Step Answer.shape) w log w' →
    (∀ x ∈ log, x.asked = []) → (left w).length ≤ (log.countP fun x => isInput x.call) → w'.read = none

theorem reads_bytes {w : Wii} (h : Reachable w) : ReadsBytes w := by
  have hsound := reachable_sound h
  constructor
  · intro r hzero
    cases read_splits w.memory w.state r with
    | data bytes hwhole hlength =>
      have hanswers : answers w.memory w.state r =
          chunks ((r.remaining.toNat + 15) / 16) r.address bytes := by
        unfold answers
        rw [hwhole, ← hlength]
      refine .inl ⟨bytes, hwhole, hlength, hanswers, ?_⟩
      rw [hanswers, chunks_data, ← hlength]
      exact List.take_of_length_le (by omega)
    | error code hwhole _ hcode =>
      refine .inr ⟨code, hwhole, hcode, ?_⟩
      unfold answers
      rw [hwhole]
  · intro r hspace
    exact answers_eeprom hspace
  · intro log w' hrun
    have hbalance := (run_balanced hsound hrun).2
    rw [List.map_id, List.map_id, List.map_id, List.map_id] at hbalance
    exact hbalance
  · intro log w' hrun
    exact (run_balanced hsound (run_eeprom hsound hrun).2).2
  · intro report now w' hs hid hread
    rcases accept_turn hs with ⟨_, haccepted⟩ | ⟨hrefused, _⟩
    · exact ⟨accepted_read haccepted hread, accepted_busy haccepted hid hread⟩
    · exact absurd rfl hrefused
  · intro log w' hactive hrun hasked hcount
    by_contra hread
    have hprogress := (run_progress hsound hactive hrun hasked hread).2
    have hpositive := List.length_pos_iff.mpr (left_ne_nil (run_balanced hsound hrun).1 hread)
    omega

theorem reads_bytes_new : ReadsBytes (hidProtocol .original .default .default) :=
  reads_bytes ⟨.original, .default, .default, [], rfl, .nil⟩

end Results

end WiiReads
