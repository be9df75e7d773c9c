import VirtualGamepad.ByteReader
import VirtualGamepad.WireBytes

/-! Length-prefixed messages between an application, the broker and a worker. -/
namespace BrokerWire

open ByteReader WireBytes

def maxWirePayload : ℕ := 256

inductive WireError where
  | unsupportedVersion
  | oversized
  | invalidLength
  | unexpectedEof
  deriving DecidableEq, Repr

structure Message where
  version : ℕ
  tag : UInt8
  body : List UInt8
  deriving DecidableEq, Repr

def writeVersionedMessage (m : Message) : Except WireError (List UInt8) :=
  if ¬(m.version = 1 ∨ m.version = 2) then .error .unsupportedVersion
  else if maxWirePayload < m.body.length then .error .oversized
  else .ok (bytesLe 4 (3 + m.body.length) ++ bytesLe 2 m.version ++ m.tag :: m.body)

def writeMessage (tag : UInt8) (body : List UInt8) : Except WireError (List UInt8) :=
  writeVersionedMessage ⟨1, tag, body⟩

/-- Writes one part after the other, up to the first that fails. -/
def writeParts {σ ε : Type} (writeAll : List UInt8 → σ → Except ε Unit × σ) :
    List (List UInt8) → σ → Except ε Unit × σ
  | [], writer => (.ok (), writer)
  | part :: parts, writer =>
    match writeAll part writer with
    | (.ok (), writer) => writeParts writeAll parts writer
    | (.error e, writer) => (.error e, writer)

/-- The same message on any writer, with the writer's own errors beside those of the message. -/
def writeVersionedMessageTo {σ ε : Type} (writeAll : List UInt8 → σ → Except ε Unit × σ)
    (m : Message) (writer : σ) : Except (WireError ⊕ ε) Unit × σ :=
  if ¬(m.version = 1 ∨ m.version = 2) then (.error (.inl .unsupportedVersion), writer)
  else if maxWirePayload < m.body.length then (.error (.inl .oversized), writer)
  else
    let (result, writer) := writeParts writeAll
      [bytesLe 4 (3 + m.body.length), bytesLe 2 m.version, [m.tag], m.body] writer
    (result.mapError .inr, writer)

abbrev Read := Reader WireError UInt8

def readVersionedMessage : Read Message := do
  let length := ofBytesLe (← take .unexpectedEof 4)
  if ¬(3 ≤ length ∧ length ≤ maxWirePayload + 3) then fail .invalidLength
  else
    let message ← take .unexpectedEof length
    let version := ofBytesLe (message.take 2)
    if ¬(version = 1 ∨ version = 2) then fail .unsupportedVersion
    else return ⟨version, message.getD 2 0, message.drop 3⟩

/-- This many messages, one after the other. -/
def readVersionedMessages : ℕ → Read (List Message)
  | 0 => pure []
  | n + 1 => do
    let m ← readVersionedMessage
    let ms ← readVersionedMessages n
    return m :: ms

def readMessage : Read (UInt8 × List UInt8) := do
  let m ← readVersionedMessage
  if m.version ≠ 1 then fail .unsupportedVersion else return (m.tag, m.body)

section RoundTrip

variable {m : Message} {bytes rest : List UInt8} {tag : UInt8} {body : List UInt8}

theorem writeVersionedMessage_eq_ok : writeVersionedMessage m = .ok bytes ↔
    (m.version = 1 ∨ m.version = 2) ∧ m.body.length ≤ maxWirePayload ∧
      bytes = bytesLe 4 (3 + m.body.length) ++ bytesLe 2 m.version ++ m.tag :: m.body := by
  unfold writeVersionedMessage
  by_cases hv : m.version = 1 ∨ m.version = 2
  · rw [if_neg (not_not.mpr hv)]
    by_cases hl : maxWirePayload < m.body.length
    · rw [if_pos hl]
      constructor
      · intro h
        cases h
      · rintro ⟨_, hle, _⟩
        exact absurd hle (Nat.not_le_of_lt hl)
    · rw [if_neg hl, Except.ok.injEq]
      constructor
      · rintro rfl
        exact ⟨hv, Nat.le_of_not_lt hl, rfl⟩
      · rintro ⟨_, _, rfl⟩
        rfl
  · rw [if_pos hv]
    constructor
    · intro h
      cases h
    · rintro ⟨h, _⟩
      exact absurd h hv

/-- What is written is read back, whatever follows it. -/
theorem readVersionedMessage_append (h : writeVersionedMessage m = .ok bytes) :
    readVersionedMessage (bytes ++ rest) = .ok (m, rest) := by
  obtain ⟨hv, hle, rfl⟩ := writeVersionedMessage_eq_ok.mp h
  unfold maxWirePayload at hle
  have hlength : ofBytesLe (bytesLe 4 (3 + m.body.length)) = 3 + m.body.length :=
    ofBytesLe_bytesLe (by omega)
  have hversion : ofBytesLe (bytesLe 2 m.version) = m.version :=
    ofBytesLe_bytesLe (by rcases hv with hv | hv <;> rw [hv] <;> decide)
  have hbody : (bytesLe 2 m.version ++ m.tag :: m.body).length = 3 + m.body.length := by
    rw [List.length_append, length_bytesLe, List.length_cons]
    omega
  unfold readVersionedMessage
  refine bind_ok.mpr ⟨bytesLe 4 (3 + m.body.length),
    bytesLe 2 m.version ++ m.tag :: m.body ++ rest, take_ok.mpr ⟨length_bytesLe _ _, ?_⟩, ?_⟩
  · rw [List.append_assoc, List.append_assoc, List.append_assoc]
  · rw [hlength, if_neg (by unfold maxWirePayload; omega)]
    refine bind_ok.mpr ⟨bytesLe 2 m.version ++ m.tag :: m.body, rest, take_ok.mpr ⟨hbody, rfl⟩, ?_⟩
    have htake : (bytesLe 2 m.version ++ m.tag :: m.body).take 2 = bytesLe 2 m.version :=
      List.take_left' (length_bytesLe _ _)
    rw [htake, hversion, if_neg (not_not.mpr hv)]
    rfl

theorem readMessage_append (h : writeMessage tag body = .ok bytes) :
    readMessage (bytes ++ rest) = .ok ((tag, body), rest) :=
  bind_ok.mpr ⟨⟨1, tag, body⟩, rest, readVersionedMessage_append h, rfl⟩

/-- Whatever is read was written, and nothing more is consumed. -/
theorem readVersionedMessage_ok : readVersionedMessage bytes = .ok (m, rest) ↔
    ∃ frame, writeVersionedMessage m = .ok frame ∧ bytes = frame ++ rest := by
  constructor
  · intro hread
    unfold readVersionedMessage at hread
    obtain ⟨prefixed, ys, htake, h⟩ := bind_ok.mp hread
    obtain ⟨hlen, rfl⟩ := take_ok.mp htake
    by_cases hrange : 3 ≤ ofBytesLe prefixed ∧ ofBytesLe prefixed ≤ maxWirePayload + 3
    · rw [if_neg (not_not.mpr hrange)] at h
      obtain ⟨message, zs, htake', hmade⟩ := bind_ok.mp h
      obtain ⟨hmessage, rfl⟩ := take_ok.mp htake'
      by_cases hv : ofBytesLe (message.take 2) = 1 ∨ ofBytesLe (message.take 2) = 2
      · rw [if_neg (not_not.mpr hv)] at hmade
        obtain ⟨rfl, rfl⟩ := pure_ok.mp hmade
        have hbody : 3 + (message.drop 3).length = ofBytesLe prefixed := by
          rw [List.length_drop]
          omega
        have hlow : bytesLe 4 (ofBytesLe prefixed) = prefixed := by
          rw [← hlen, bytesLe_ofBytesLe]
        have hversion : bytesLe 2 (ofBytesLe (message.take 2)) = message.take 2 := by
          have htwo : (message.take 2).length = 2 := List.length_take_of_le (by omega)
          have hround := bytesLe_ofBytesLe (message.take 2)
          rwa [htwo] at hround
        have hparts : message.take 2 ++ message.getD 2 0 :: message.drop 3 = message := by
          match message, hmessage with
          | _ :: _ :: _ :: _, _ => rfl
          | [], hmessage | [_], hmessage | [_, _], hmessage =>
            simp at hmessage
            omega
        refine ⟨_, writeVersionedMessage_eq_ok.mpr ⟨hv, by dsimp only; omega, rfl⟩, ?_⟩
        dsimp only
        rw [hbody, hlow, hversion, List.append_assoc prefixed, hparts, List.append_assoc]
      · rw [if_pos hv] at hmade
        cases hmade
    · rw [if_pos hrange] at h
      cases h
  · rintro ⟨frame, hframe, rfl⟩
    exact readVersionedMessage_append hframe

theorem readVersionedMessages_append {ms : List Message} {frames : List (List UInt8)}
    (h : List.Forall₂ (fun m frame => writeVersionedMessage m = .ok frame) ms frames) :
    readVersionedMessages ms.length (frames.flatten ++ rest) = .ok (ms, rest) := by
  induction h with
  | nil => rfl
  | cons hframe _ ih =>
    rw [List.flatten_cons, List.append_assoc]
    exact bind_ok.mpr ⟨_, _, readVersionedMessage_append hframe, bind_ok.mpr ⟨_, _, ih, rfl⟩⟩

/-- A frame that breaks off cannot be read. -/
theorem readVersionedMessage_broken {frame broken : List UInt8}
    (h : writeVersionedMessage m = .ok frame) (hle : broken <+: frame) (hne : broken ≠ frame) :
    ∃ e, readVersionedMessage broken = .error e := by
  cases hread : readVersionedMessage broken with
  | error e => exact ⟨e, rfl⟩
  | ok result =>
    obtain ⟨m', rest⟩ := result
    obtain ⟨tail, rfl⟩ := hle
    obtain ⟨frame', hframe', rfl⟩ := readVersionedMessage_ok.mp hread
    -- The whole frame would be read in two ways.
    have hshort : readVersionedMessage (frame' ++ rest ++ tail) = .ok (m', rest ++ tail) := by
      rw [List.append_assoc]
      exact readVersionedMessage_append hframe'
    have hwhole : readVersionedMessage (frame' ++ rest ++ tail) = .ok (m, []) := by
      conv_lhs => rw [← List.append_nil (frame' ++ rest ++ tail)]
      exact readVersionedMessage_append h
    rw [hshort, Except.ok.injEq, Prod.mk.injEq, List.append_eq_nil_iff] at hwhole
    exact absurd (by rw [hwhole.2.2, List.append_nil]) hne

variable {σ ε : Type} {writeAll : List UInt8 → σ → Except ε Unit × σ}

theorem writeVersionedMessageTo_invalid (writer : σ)
    (h : ¬((m.version = 1 ∨ m.version = 2) ∧ m.body.length ≤ maxWirePayload)) :
    ∃ e, writeVersionedMessageTo writeAll m writer = (.error (.inl e), writer) ∧
      writeVersionedMessage m = .error e := by
  unfold writeVersionedMessageTo writeVersionedMessage
  by_cases hv : m.version = 1 ∨ m.version = 2
  · have hl : maxWirePayload < m.body.length := Nat.lt_of_not_le fun hle => h ⟨hv, hle⟩
    rw [if_neg (not_not.mpr hv), if_pos hl, if_neg (not_not.mpr hv), if_pos hl]
    exact ⟨_, rfl, rfl⟩
  · rw [if_pos hv, if_pos hv]
    exact ⟨_, rfl, rfl⟩

/-- A buffer that only grows receives the frame at its end. -/
theorem writeVersionedMessageTo_buffer {frame : List UInt8} (buffer : List UInt8)
    (h : writeVersionedMessage m = .ok frame) :
    writeVersionedMessageTo (fun part (buffer : List UInt8) =>
      ((.ok () : Except ε Unit), buffer ++ part)) m buffer = (.ok (), buffer ++ frame) := by
  obtain ⟨hv, hle, rfl⟩ := writeVersionedMessage_eq_ok.mp h
  unfold writeVersionedMessageTo
  rw [if_neg (not_not.mpr hv), if_neg (Nat.not_lt_of_le hle)]
  simp [writeParts, Except.mapError]

theorem framing_exact :
    (∀ m : Message, (m.version = 1 ∨ m.version = 2) → m.body.length ≤ maxWirePayload →
      ∃ frame, (∀ (ε : Type) (buffer : List UInt8), writeVersionedMessageTo (fun part buffer =>
          ((.ok () : Except ε Unit), buffer ++ part)) m buffer = (.ok (), buffer ++ frame)) ∧
        writeVersionedMessage m = .ok frame ∧
        (∀ rest, readVersionedMessage (frame ++ rest) = .ok (m, rest)) ∧
        ∀ broken, broken <+: frame → broken ≠ frame →
          ∃ e, readVersionedMessage broken = .error e) ∧
    (∀ ms frames rest,
      List.Forall₂ (fun m frame => writeVersionedMessage m = .ok frame) ms frames →
      readVersionedMessages ms.length (frames.flatten ++ rest) = .ok (ms, rest)) ∧
    (∀ bytes m rest, readVersionedMessage bytes = .ok (m, rest) →
      ∃ frame, writeVersionedMessage m = .ok frame ∧ bytes = frame ++ rest) ∧
    (∀ (σ ε : Type) (writeAll : List UInt8 → σ → Except ε Unit × σ) (m : Message) (writer : σ),
      ¬((m.version = 1 ∨ m.version = 2) ∧ m.body.length ≤ maxWirePayload) →
      ∃ e, writeVersionedMessageTo writeAll m writer = (.error (.inl e), writer) ∧
        writeVersionedMessage m = .error e) := by
  refine ⟨?_, fun _ _ _ h => readVersionedMessages_append h,
    fun _ _ _ h => readVersionedMessage_ok.mp h, fun _ _ _ _ writer h =>
      writeVersionedMessageTo_invalid writer h⟩
  intro m hv hle
  have hframe := writeVersionedMessage_eq_ok.mpr ⟨hv, hle, rfl⟩
  exact ⟨_, fun _ buffer => writeVersionedMessageTo_buffer buffer hframe, hframe,
    fun _ => readVersionedMessage_append hframe,
    fun _ hle hne => readVersionedMessage_broken hframe hle hne⟩

end RoundTrip

end BrokerWire
