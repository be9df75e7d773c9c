import VirtualGamepad.Fallible
import VirtualGamepad.MachineInt
import VirtualGamepad.Slab
import VirtualGamepad.WireBytes

/-! The USB/IP data-phase codec: headers, whole frames, completions and unlink replies. Words
of the wire are natural numbers below `2 ^ 32`. -/
namespace UsbipFrame

open Fallible WireBytes

def headerBytes : ℕ := 48
def maxTransferBytes : ℕ := 65536
def maxIsoPackets : ℕ := 1024
def maxFrameBytes : ℕ := headerBytes + maxTransferBytes + maxIsoPackets * 16

def u32Max : ℕ := 2 ^ 32 - 1

inductive Error where
  | incomplete
  | malformed
  | limit
  | wrongDevice
  | replyLength
  deriving DecidableEq, Repr

inductive Direction where
  | out
  | in
  deriving DecidableEq, Repr

structure Header where
  sequence : ℕ
  device : ℕ
  endpoint : ℕ
  direction : Direction
  transferFlags : ℕ
  transferBytes : ℕ
  startFrame : ℕ
  interval : ℕ
  setup : List UInt8
  packets : ℕ
  unlink : Option ℕ
  deriving DecidableEq, Repr

def Direction.decode : ℕ → Option Direction
  | 0 => some .out
  | 1 => some .in
  | _ => none

/-- A count of `-1` is the documented sentinel for a transfer that is not isochronous. -/
def Header.decode (bytes : List UInt8) (expectedDevice : ℕ) : Except Error Header :=
  if bytes.length < headerBytes then .error .incomplete
  else if word bytes 0 ≠ 1 ∧ word bytes 0 ≠ 2 then .error .malformed
  else if word bytes 8 ≠ expectedDevice then .error .wrongDevice
  else
    match Direction.decode (word bytes 12) with
    | none => .error .malformed
    | some direction =>
      if 15 < word bytes 16 then .error .malformed
      else
        let header : Header := {
          direction
          sequence := word bytes 4
          device := expectedDevice
          endpoint := word bytes 16
          transferFlags := 0
          transferBytes := 0
          startFrame := 0
          interval := 0
          setup := List.replicate 8 0
          packets := 0
          unlink := none }
        if word bytes 0 = 2 then
          if header.endpoint ≠ 0 ∨ (slice bytes 24 24).any (· ≠ 0) then .error .malformed
          else .ok { header with unlink := some (word bytes 20) }
        else
          let packets := if word bytes 32 = u32Max then 0 else word bytes 32
          if maxTransferBytes < word bytes 24 ∨ maxIsoPackets < packets then .error .limit
          else if header.endpoint = 0 ∧ packets ≠ 0 then .error .malformed
          else
            .ok { header with
              packets
              transferFlags := word bytes 20
              transferBytes := word bytes 24
              startFrame := word bytes 28
              interval := word bytes 36
              setup := slice bytes 40 8 }

/-- The bytes sent along with an OUT transfer; an IN transfer sends none. -/
def Header.payloadBytes (header : Header) : ℕ :=
  if header.direction = .out then header.transferBytes else 0

def Header.wireBytes (header : Header) : ℕ :=
  headerBytes + header.payloadBytes + header.packets * 16

structure IsoPacket where
  offset : ℕ
  length : ℕ
  deriving DecidableEq, Repr

structure Submit where
  header : Header
  payload : List UInt8
  packetTable : List UInt8
  deriving DecidableEq, Repr

inductive Request where
  | submit (submit : Submit)
  | unlink (sequence target : ℕ)
  deriving DecidableEq, Repr

def Submit.packets (submit : Submit) : List IsoPacket :=
  (Slab.chunks 16 (submit.packetTable.length / 16) submit.packetTable).map fun p =>
    ⟨word p 0, word p 4⟩

/-- The check of one packet after the other; packets ascend inside the transfer buffer. -/
def checkPackets (transferBytes : ℕ) : ℕ → List IsoPacket → Except Error Unit
  | _, [] => .ok ()
  | previousEnd, packet :: packets =>
    if u32Max < packet.offset + packet.length then .error .limit
    else if packet.offset < previousEnd ∨ transferBytes < packet.offset + packet.length then
      .error .malformed
    else checkPackets transferBytes (packet.offset + packet.length) packets

/-- One bounded frame and the length of the prefix it takes. -/
def decode (bytes : List UInt8) (expectedDevice : ℕ) : Except Error (Request × ℕ) :=
  match Header.decode bytes expectedDevice with
  | .error error => .error error
  | .ok header =>
    if bytes.length < header.wireBytes then .error .incomplete
    else
      match header.unlink with
      | some target => .ok (.unlink header.sequence target, headerBytes)
      | none =>
        let submit : Submit := {
          header
          payload := slice bytes headerBytes header.payloadBytes
          packetTable := slice bytes (headerBytes + header.payloadBytes) (header.packets * 16) }
        match checkPackets header.transferBytes 0 submit.packets with
        | .error error => .error error
        | .ok () => .ok (.submit submit, header.wireBytes)

/-- The actual lengths against the packet table; their sum is returned. -/
def totalActual : List IsoPacket → List ℕ → Except Error ℕ
  | packet :: packets, n :: actual =>
    if packet.length < n then .error .replyLength
    else (totalActual packets actual).map (n + ·)
  | _, _ => .ok 0

/-- One entry of a completed packet table. -/
def isoReply (status : ℤ) (packet : IsoPacket) (n : ℕ) : List UInt8 :=
  bytes32 packet.offset ++ bytes32 packet.length ++ bytes32 n ++ bytes32 (bits32 status)

def Submit.checkReply (submit : Submit) (status : ℤ) (data : List UInt8) (actual : ℕ)
    (isoActual : List ℕ) : Except Error Unit :=
  if submit.header.transferBytes < actual ∨ isoActual.length ≠ submit.header.packets ∨
      (submit.header.direction = .in ∧ data.length ≠ actual) ∨
      (submit.header.direction = .out ∧ data ≠ []) ∨
      (status ≠ 0 ∧ (actual ≠ 0 ∨ isoActual.any (· ≠ 0))) then
    .error .replyLength
  else if submit.header.packets ≠ 0 then
    match totalActual submit.packets isoActual with
    | .error error => .error error
    | .ok total => if total ≠ actual then .error .replyLength else .ok ()
  else .ok ()

/-- Header and payload of a completion, without its packet table. -/
def Submit.replyHeader (submit : Submit) (size : ℕ) (status : ℤ) (data : List UInt8)
    (actual : ℕ) : List UInt8 :=
  let bytes := List.replicate size 0
  let bytes := put bytes 0 3
  let bytes := put bytes 4 submit.header.sequence
  let bytes := put bytes 20 (bits32 status)
  let bytes := put bytes 24 actual
  let bytes := put bytes 28 submit.header.startFrame
  let bytes := put bytes 32 submit.header.packets
  let bytes := if status ≠ 0 then put bytes 36 submit.header.packets else bytes
  overlay bytes headerBytes data

/-- The bytes of a completion. -/
def Submit.encode (submit : Submit) (status : ℤ) (data : List UInt8) (actual : ℕ)
    (isoActual : List ℕ) : Except Error (List UInt8) :=
  match submit.checkReply status data actual isoActual with
  | .error error => .error error
  | .ok () =>
    let size := headerBytes + data.length + submit.header.packets * 16
    .ok (overlay (submit.replyHeader size status data actual) (headerBytes + data.length)
      (List.zipWith (isoReply status) submit.packets isoActual).flatten)

/-- Encodes a completion into the front of `destination` and returns its size. -/
def Submit.complete (submit : Submit) (status : ℤ) (data : List UInt8) (actual : ℕ)
    (isoActual : List ℕ) : Action Error (List UInt8) ℕ := do
  let bytes ← lift (submit.encode status data actual isoActual)
  let destination ← get
  if destination.length < bytes.length then fail .incomplete
  else
    modify fun destination => bytes ++ destination.drop bytes.length
    pure bytes.length

/-- A cancelled transfer returns the connection-reset status, a completed or unknown one 0. -/
def unlinkBytes (sequence : ℕ) (cancelled : Bool) : List UInt8 :=
  let bytes := List.replicate headerBytes 0
  let bytes := put bytes 0 4
  let bytes := put bytes 4 sequence
  put bytes 20 (bits32 (if cancelled then -104 else 0))

def unlinkReply (sequence : ℕ) (cancelled : Bool) : Action Error (List UInt8) ℕ := do
  let destination ← get
  if destination.length < headerBytes then fail .incomplete
  else
    modify fun destination => unlinkBytes sequence cancelled ++ destination.drop headerBytes
    pure headerBytes

section Decoding

variable {bytes more : List UInt8} {device n m : ℕ} {header : Header} {request : Request}

/-- Only the first 48 bytes decide. -/
theorem Header.decode_take (hm : headerBytes ≤ m) (hl : headerBytes ≤ bytes.length) :
    Header.decode (bytes.take m) device = Header.decode bytes device := by
  have h48 : headerBytes = 48 := rfl
  have hlen : ¬ (bytes.take m).length < headerBytes := by
    rw [List.length_take]
    omega
  have hw : ∀ i, i + 4 ≤ 48 → word (bytes.take m) i = word bytes i :=
    fun i hi => word_take (by omega)
  have hs : ∀ i k, i + k ≤ 48 → slice (bytes.take m) i k = slice bytes i k :=
    fun i k hi => slice_take (by omega)
  unfold Header.decode
  rw [if_neg hlen, if_neg (Nat.not_lt.mpr hl), hw 0 (by omega), hw 4 (by omega), hw 8 (by omega),
    hw 12 (by omega), hw 16 (by omega), hw 20 (by omega), hw 24 (by omega), hw 28 (by omega),
    hw 32 (by omega), hw 36 (by omega), hs 24 24 (by omega), hs 40 8 (by omega)]

theorem Header.decode_append (more : List UInt8) (hl : headerBytes ≤ bytes.length) :
    Header.decode (bytes ++ more) device = Header.decode bytes device := by
  have htake : (bytes ++ more).take bytes.length = bytes := List.take_left
  have h : Header.decode ((bytes ++ more).take bytes.length) device =
      Header.decode (bytes ++ more) device := by
    refine Header.decode_take hl ?_
    rw [List.length_append]
    omega
  rw [htake] at h
  exact h.symm

/-- What every decoded header satisfies. -/
structure Header.Decoded (bytes : List UInt8) (device : ℕ) (header : Header) : Prop where
  long : headerBytes ≤ bytes.length
  sequence_eq : header.sequence = word bytes 4
  endpoint_le : header.endpoint ≤ 15
  transfer_le : header.transferBytes ≤ maxTransferBytes
  packets_le : header.packets ≤ maxIsoPackets
  control_packets : header.endpoint = 0 → header.packets = 0
  unlink_bare : header.unlink.isSome → header.transferBytes = 0 ∧ header.packets = 0
  start_lt : header.startFrame < 2 ^ 32

theorem Header.decode_ok (h : Header.decode bytes device = .ok header) :
    header.Decoded bytes device := by
  unfold Header.decode at h
  split at h
  · cases h
  · next hlen =>
    split at h
    · cases h
    · split at h
      · cases h
      · split at h
        · cases h
        · next direction _ =>
          split at h
          · cases h
          · next hend =>
            dsimp only at h
            split at h
            · split at h
              · cases h
              · cases h
                exact ⟨by omega, rfl, by simpa using hend, by simp, by simp, by simp, by simp, by simp⟩
            · generalize (if word bytes 32 = u32Max then 0 else word bytes 32) = packets at h
              split at h
              · cases h
              · next hlim =>
                split at h
                · cases h
                · next hctl =>
                  cases h
                  simp only [not_or, Nat.not_lt] at hlim
                  refine ⟨by omega, rfl, by simpa using hend, hlim.1, hlim.2, ?_, by simp,
                    word_lt bytes 28⟩
                  intro he
                  by_contra hp
                  exact hctl ⟨he, hp⟩

theorem Header.Decoded.wireBytes_le (h : header.Decoded bytes device) :
    header.wireBytes ≤ maxFrameBytes := by
  have ht := h.transfer_le
  have hp := h.packets_le
  have hb : header.payloadBytes ≤ header.transferBytes := by
    unfold Header.payloadBytes
    split <;> omega
  unfold Header.wireBytes maxFrameBytes
  omega

theorem Header.headerBytes_le_wireBytes (header : Header) : headerBytes ≤ header.wireBytes := by
  unfold Header.wireBytes
  omega

theorem Header.Decoded.unlink_wireBytes (h : header.Decoded bytes device)
    (hu : header.unlink.isSome) : header.wireBytes = headerBytes := by
  obtain ⟨ht, hp⟩ := h.unlink_bare hu
  unfold Header.wireBytes Header.payloadBytes
  rw [ht, hp]
  split <;> rfl

/-- A whole frame needs no more than its own bytes. -/
theorem decode_take (h : Header.decode bytes device = .ok header)
    (hm : header.wireBytes ≤ m) (hl : header.wireBytes ≤ bytes.length) :
    decode (bytes.take m) device = decode bytes device := by
  have hd := Header.decode_ok h
  have hle := header.headerBytes_le_wireBytes
  have htake : Header.decode (bytes.take m) device = .ok header := by
    rw [Header.decode_take (by omega) hd.long, h]
  have hlen : ¬ (bytes.take m).length < header.wireBytes := by
    rw [List.length_take]
    omega
  have hs : ∀ i k, i + k ≤ header.wireBytes → slice (bytes.take m) i k = slice bytes i k :=
    fun i k hi => slice_take (by omega)
  have hw : header.wireBytes = headerBytes + header.payloadBytes + header.packets * 16 := rfl
  unfold decode
  simp only [h, htake, if_neg hlen, if_neg (Nat.not_lt.mpr hl)]
  rw [hs _ _ (by omega), hs _ _ (by omega)]

theorem decode_header_error {error : Error} (h : Header.decode bytes device = .error error) :
    decode bytes device = .error error := by
  unfold decode
  rw [h]

theorem decode_short (h : Header.decode bytes device = .ok header)
    (hl : bytes.length < header.wireBytes) : decode bytes device = .error .incomplete := by
  unfold decode
  simp only [h, if_pos hl]

/-- A decoded frame is as long as its header says. -/
theorem decode_ok (h : decode bytes device = .ok (request, n)) :
    ∃ header, Header.decode bytes device = .ok header ∧ n = header.wireBytes ∧
      n ≤ bytes.length ∧
      match request with
      | .unlink sequence target => sequence = header.sequence ∧ header.unlink = some target
      | .submit submit => submit.header = header ∧ header.unlink = none ∧
        submit.packetTable.length = header.packets * 16 ∧
        submit.payload.length = header.payloadBytes ∧
        checkPackets header.transferBytes 0 submit.packets = .ok () := by
  unfold decode at h
  cases hd : Header.decode bytes device with
  | error error => rw [hd] at h; cases h
  | ok header =>
    rw [hd] at h
    dsimp only at h
    split at h
    · cases h
    · next hl =>
      have hle : header.wireBytes ≤ bytes.length := by omega
      cases hu : header.unlink with
      | some target =>
        rw [hu] at h
        cases h
        have hw := (Header.decode_ok hd).unlink_wireBytes (by simp [hu])
        exact ⟨header, rfl, hw.symm, hw ▸ hle, rfl, hu⟩
      | none =>
        rw [hu] at h
        dsimp only at h
        split at h
        · cases h
        · next hc =>
          cases h
          have hw : header.wireBytes = headerBytes + header.payloadBytes + header.packets * 16 :=
            rfl
          refine ⟨header, rfl, rfl, hle, rfl, hu, ?_, ?_, hc⟩
          · simp only [slice, List.length_take, List.length_drop]
            omega
          · simp only [slice, List.length_take, List.length_drop]
            omega

/-- Every proper prefix of a frame is an incomplete frame. -/
theorem decode_prefix (h : decode bytes device = .ok (request, n)) (hm : m < n) :
    decode (bytes.take m) device = .error .incomplete := by
  obtain ⟨header, hd, rfl, hl, _⟩ := decode_ok h
  have hlen : (bytes.take m).length = m := by
    rw [List.length_take]
    omega
  by_cases h48 : headerBytes ≤ m
  · have hd' : Header.decode (bytes.take m) device = .ok header := by
      rw [Header.decode_take h48 (Header.decode_ok hd).long, hd]
    exact decode_short hd' (by omega)
  · unfold decode Header.decode
    rw [if_pos (by omega)]

theorem length_packets {submit : Submit} (h : decode bytes device = .ok (.submit submit, n)) :
    submit.packets.length = submit.header.packets := by
  obtain ⟨header, _, _, _, hs, _, ht, _⟩ := decode_ok h
  unfold Submit.packets
  rw [List.length_map, Slab.length_chunks, ht, hs]
  exact Nat.mul_div_cancel _ (by decide)

theorem checkPackets_ok {transferBytes previousEnd : ℕ} {packets : List IsoPacket}
    (h : checkPackets transferBytes previousEnd packets = .ok ()) :
    (∀ p ∈ packets, previousEnd ≤ p.offset ∧ p.offset + p.length ≤ transferBytes) ∧
      packets.Pairwise fun p q => p.offset + p.length ≤ q.offset := by
  induction packets generalizing previousEnd with
  | nil => exact ⟨by simp, List.Pairwise.nil⟩
  | cons packet packets ih =>
    rw [checkPackets] at h
    split at h
    · cases h
    · split at h
      · cases h
      · next hc =>
        simp only [not_or, Nat.not_lt] at hc
        obtain ⟨hin, hpair⟩ := ih h
        refine ⟨?_, List.Pairwise.cons (fun q hq => (hin q hq).1) hpair⟩
        intro p hp
        rcases List.mem_cons.mp hp with rfl | hp
        · exact ⟨hc.1, hc.2⟩
        · have := hin p hp
          omega

end Decoding

section Replies

/-- The three words of a reply that say what it is, what it answers and how. -/
structure Replies (command sequence : ℕ) (status : ℤ) (size : ℕ) (bytes : List UInt8) : Prop where
  length_eq : bytes.length = size
  command_eq : word bytes 0 = command
  sequence_eq : word bytes 4 = sequence
  status_eq : word bytes 20 = bits32 status

variable {command sequence size : ℕ} {status : ℤ} {bytes : List UInt8}

theorem Replies.start (hc : command < 2 ^ 32) (hs : sequence < 2 ^ 32) (h : 24 ≤ size) :
    Replies command sequence status size
      (put (put (put (List.replicate size 0) 0 command) 4 sequence) 20 (bits32 status)) := by
  have h₀ : (List.replicate size (0 : UInt8)).length = size := List.length_replicate
  have h₁ : (put (List.replicate size 0) 0 command).length = size := by
    rw [length_put (by omega), h₀]
  have h₂ : (put (put (List.replicate size 0) 0 command) 4 sequence).length = size := by
    rw [length_put (by omega), h₁]
  constructor
  · rw [length_put (by omega), h₂]
  · rw [word_put_of_disjoint (by omega) (by omega), word_put_of_disjoint (by omega) (by omega),
      word_put_self (by omega) hc]
  · rw [word_put_of_disjoint (by omega) (by omega), word_put_self (by omega) hs]
  · exact word_put_self (by omega) (bits32_lt status)

/-- Fields behind the status leave the three words alone. -/
theorem Replies.overlay (h : Replies command sequence status size bytes) {offset : ℕ}
    (field : List UInt8) (hl : 24 ≤ offset)
    (hr : offset + field.length ≤ size) :
    Replies command sequence status size (overlay bytes offset field) := by
  have hsize := h.length_eq
  constructor
  · rw [length_overlay (by omega), hsize]
  · rw [word_overlay_of_disjoint (by omega) (by omega), h.command_eq]
  · rw [word_overlay_of_disjoint (by omega) (by omega), h.sequence_eq]
  · rw [word_overlay_of_disjoint (by omega) (by omega), h.status_eq]

theorem Replies.put (h : Replies command sequence status size bytes) {offset : ℕ} (value : ℕ)
    (hl : 24 ≤ offset) (hr : offset + 4 ≤ size) :
    Replies command sequence status size (put bytes offset value) :=
  h.overlay (bytes32 value) hl (by rwa [length_bytes32])

theorem unlinkBytes_replies (cancelled : Bool) (hs : sequence < 2 ^ 32) :
    Replies 4 sequence (if cancelled then -104 else 0) headerBytes
      (unlinkBytes sequence cancelled) :=
  Replies.start (by decide) hs (by decide)

variable {submit : Submit} {data : List UInt8} {actual : ℕ} {isoActual : List ℕ}

theorem replyHeader_replies (hd : headerBytes + data.length ≤ size)
    (hs : submit.header.sequence < 2 ^ 32) :
    Replies 3 submit.header.sequence status size
      (submit.replyHeader size status data actual) := by
  have h48 : headerBytes = 48 := rfl
  have hstart : Replies 3 submit.header.sequence status size _ :=
    Replies.start (by decide) hs (by omega)
  have hactual := hstart.put actual (show 24 ≤ 24 by omega) (by omega)
  have hframe := hactual.put submit.header.startFrame (show 24 ≤ 28 by omega) (by omega)
  have hwords := hframe.put submit.header.packets (show 24 ≤ 32 by omega) (by omega)
  unfold Submit.replyHeader
  dsimp only
  split
  · exact (hwords.put _ (by omega) (by omega)).overlay _ (by omega) hd
  · exact hwords.overlay _ (by omega) hd

theorem length_isoReply (packet : IsoPacket) (n : ℕ) : (isoReply status packet n).length = 16 := rfl

theorem length_isoReplies (status : ℤ) (packets : List IsoPacket) (actual : List ℕ) :
    (List.zipWith (isoReply status) packets actual).flatten.length ≤ actual.length * 16 := by
  induction actual generalizing packets with
  | nil => simp
  | cons n actual ih =>
    cases packets with
    | nil => simp
    | cons packet packets =>
      have := ih packets
      simp only [List.zipWith_cons_cons, List.flatten_cons, List.length_append, length_isoReply,
        List.length_cons]
      omega

theorem checkReply_ok (h : submit.checkReply status data actual isoActual = .ok ()) :
    isoActual.length = submit.header.packets := by
  unfold Submit.checkReply at h
  split at h
  · cases h
  · next hc =>
    simp only [not_or] at hc
    exact not_not.mp hc.2.1

theorem encode_replies (hs : submit.header.sequence < 2 ^ 32)
    (h : submit.encode status data actual isoActual = .ok bytes) :
    Replies 3 submit.header.sequence status bytes.length bytes := by
  unfold Submit.encode at h
  split at h
  · cases h
  · next hc =>
    obtain rfl := Except.ok.inj h
    have hiso := length_isoReplies status submit.packets isoActual
    rw [checkReply_ok hc] at hiso
    have hheader : Replies 3 submit.header.sequence status
        (headerBytes + data.length + submit.header.packets * 16)
        (submit.replyHeader _ status data actual) := replyHeader_replies (Nat.le_add_right _ _) hs
    have hfront : 24 ≤ headerBytes + data.length := by
      unfold headerBytes
      omega
    have hwords := hheader.overlay _ hfront (Nat.add_le_add_left hiso _)
    rw [hwords.length_eq]
    exact hwords

/-- A completion carries its data right behind the header. -/
theorem encode_data (h : submit.encode status data actual isoActual = .ok bytes) :
    slice bytes headerBytes data.length = data := by
  unfold Submit.encode at h
  split at h
  · cases h
  · next hc =>
    obtain rfl := Except.ok.inj h
    have hiso := length_isoReplies status submit.packets isoActual
    rw [checkReply_ok hc] at hiso
    have h48 : headerBytes = 48 := rfl
    generalize hsize : headerBytes + data.length + submit.header.packets * 16 = size
    have hlong : 48 ≤ size := by omega
    have hl : ∀ f : List UInt8, f.length = size → ∀ i v, i + 4 ≤ 48 → (put f i v).length = size := by
      intro f hf i v hi
      rw [length_put (by omega), hf]
    have hheader : ∃ f, f.length = size ∧
        submit.replyHeader size status data actual = overlay f headerBytes data := by
      unfold Submit.replyHeader
      dsimp only
      refine ⟨_, ?_, rfl⟩
      have h₀ : (List.replicate size (0 : UInt8)).length = size := List.length_replicate
      have h₁ := hl _ (hl _ (hl _ (hl _ (hl _ (hl _ h₀ 0 3 (by omega)) 4 submit.header.sequence
        (by omega)) 20 (bits32 status) (by omega)) 24 actual (by omega)) 28
        submit.header.startFrame (by omega)) 32 submit.header.packets (by omega)
      split
      · exact hl _ h₁ 36 submit.header.packets (by omega)
      · exact h₁
    obtain ⟨f, hf, heq⟩ := hheader
    have hlen : (overlay f headerBytes data).length = size := by
      rw [length_overlay (by omega), hf]
    rw [heq, slice_overlay_of_disjoint (by omega) (by omega), slice_overlay_self _ (by omega)]

theorem Header.Decoded.sequence_lt {bytes : List UInt8} {device : ℕ} {header : Header}
    (h : header.Decoded bytes device) : header.sequence < 2 ^ 32 := by
  rw [h.sequence_eq]
  exact word_lt bytes 4

end Replies

end UsbipFrame
