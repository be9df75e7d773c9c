import VirtualGamepad.PcmIpc
import VirtualGamepad.RingBuffer

/-! Blocks survive the stream socket whole and in order, however it cuts them. -/
namespace PcmIpcFraming

open Fallible MachineInt WireBytes PcmIpc

section Bytes

variable {format : Format} {block : Block} {samples : List Int16} {p : Packet}

/-- What the encoder checks. -/
structure Valid (format : Format) (p : Packet) : Prop where
  pos : p.block.frames ≠ 0
  small : p.block.frames ≤ blockFrames
  samples_length : p.samples.length = p.block.frames * format.channels
  position : p.block.firstFrame + p.block.frames ≤ u64Max

def body (p : Packet) : List UInt8 := p.samples.flatMap sampleBytes

def encoded (format : Format) (p : Packet) : List UInt8 := header format p.block ++ body p

theorem encode_eq (format : Format) (p : Packet) :
    (Valid format p ∧ encode format p.block p.samples = .ok (encoded format p)) ∨
      encode format p.block p.samples = .error (.invalid "invalid PCM block") := by
  unfold encode
  split
  · exact .inr rfl
  · next h =>
    simp only [not_or, not_not, Nat.not_lt] at h
    obtain ⟨hpos, hsmall, hlen, hadd⟩ := h
    cases hc : checkedAdd p.block.firstFrame p.block.frames with
    | none => exact absurd hc hadd
    | some next => exact .inl ⟨⟨hpos, hsmall, hlen, (checkedAdd_eq_some.mp hc).2⟩, rfl⟩

@[simp] theorem length_header (format : Format) (block : Block) :
    (header format block).length = headerBytes := by
  simp [header, magic, headerBytes]

theorem length_sampleBytes (samples : List Int16) :
    (samples.flatMap sampleBytes).length = samples.length * 2 := by
  induction samples with
  | nil => rfl
  | cons s samples ih =>
    rw [List.flatMap_cons, List.length_append, ih, List.length_cons]
    unfold sampleBytes
    rw [length_bytesLe]
    omega

theorem Valid.length_encoded (h : Valid format p) :
    (encoded format p).length = headerBytes + p.block.frames * format.channels * 2 := by
  unfold encoded body
  rw [List.length_append, length_header, length_sampleBytes, h.samples_length]

/-- Two bytes carry a sample. -/
theorem samplesOf_flatMap (samples : List Int16) :
    samplesOf (samples.flatMap sampleBytes) = samples := by
  induction samples with
  | nil => rfl
  | cons s samples ih =>
    have hword : s.toUInt16.toNat < 256 ^ 2 := s.toUInt16.toNat_lt
    have hback := ofBytesLe_bytesLe hword
    change (UInt16.ofNat (ofBytesLe (bytesLe 2 s.toUInt16.toNat))).toInt16 ::
      samplesOf (samples.flatMap sampleBytes) = _
    rw [ih, hback, UInt16.ofNat_toNat]
    rfl

/-- The fields of a header, at their places. -/
theorem header_fields (format : Format) (block : Block) :
    slice (header format block) 0 4 = magic ∧ slice (header format block) 4 2 = [1, 0] ∧
      slice (header format block) 6 1 = [format.tag] ∧
      slice (header format block) 7 1 = [directionByte format] ∧
      slice (header format block) 8 8 = bytesLe 8 format.generation ∧
      slice (header format block) 16 8 = bytesLe 8 block.firstFrame ∧
      slice (header format block) 24 4 = bytesLe 4 block.frames ∧
      (header format block).getD 28 0 = flag block.discontinuity ∧
      slice (header format block) 29 3 = [0, 0, 0] ∧
      slice (header format block) 32 8 = bytesLe 8 block.producedAtUs.toNat :=
  ⟨rfl, rfl, rfl, rfl, rfl, rfl, rfl, rfl, rfl, rfl⟩

theorem flag_eq_one (b : Bool) : decide (flag b = 1) = b := by
  cases b <;> rfl

theorem flag_le_one (b : Bool) : ¬ 1 < flag b := by
  cases b <;> decide

theorem decode_header (h : Valid format p) :
    decode format (header format p.block) = .ok p.block := by
  obtain ⟨hmagic, hversion, htag, hdirection, hgeneration, hfirst, hframes, hflag, hreserved,
    hclock⟩ := header_fields format p.block
  have hframes' : ofBytesLe (bytesLe 4 p.block.frames) = p.block.frames := by
    apply ofBytesLe_bytesLe
    have hsmall := h.small
    unfold blockFrames at hsmall
    omega
  have hfirst' : ofBytesLe (bytesLe 8 p.block.firstFrame) = p.block.firstFrame := by
    apply ofBytesLe_bytesLe
    have hposition := h.position
    unfold u64Max at hposition
    omega
  have hclock' : ofBytesLe (bytesLe 8 p.block.producedAtUs.toNat) = p.block.producedAtUs.toNat :=
    ofBytesLe_bytesLe p.block.producedAtUs.toNat_lt
  have hadd : checkedAdd p.block.firstFrame p.block.frames ≠ none := by
    rw [checkedAdd_eq_some.mpr ⟨rfl, h.position⟩]
    exact Option.some_ne_none _
  have hbounds : 1 ≤ p.block.frames ∧ p.block.frames ≤ blockFrames :=
    ⟨Nat.one_le_iff_ne_zero.mpr h.pos, h.small⟩
  unfold decode
  rw [length_header, hmagic, hversion, htag, hdirection, hgeneration, hfirst, hframes, hflag,
    hreserved, hclock, hframes', hfirst', hclock', flag_eq_one, UInt64.ofNat_toNat]
  simp [hbounds, hadd, flag_le_one]

end Bytes

section Links

variable {format : Format} {l l' : Link} {rest : List Packet}

/-- The position behind a block. -/
def stop (p : Packet) : ℕ := p.block.firstFrame + p.block.frames

/-- Where a list of blocks ends, from a start on. -/
def ends : ℕ → List Packet → ℕ
  | start, [] => start
  | _, p :: ps => ends (stop p) ps

/-- Positions never go back, and each gap is announced. -/
def Announced : ℕ → List Packet → Prop
  | _, [] => True
  | start, p :: ps => (start ≤ p.block.firstFrame ∧
      (p.block.firstFrame ≠ start → p.block.discontinuity = true)) ∧ Announced (stop p) ps

theorem ends_append (start : ℕ) (ps qs : List Packet) :
    ends start (ps ++ qs) = ends (ends start ps) qs := by
  induction ps generalizing start with
  | nil => rfl
  | cons p ps ih => exact ih (stop p)

theorem announced_append (start : ℕ) (ps qs : List Packet) :
    Announced start (ps ++ qs) ↔ Announced start ps ∧ Announced (ends start ps) qs := by
  induction ps generalizing start with
  | nil => simp [Announced, ends]
  | cons p ps ih => simp [Announced, ends, ih, and_assoc]

def held (l : Link) : List UInt8 := l.receiver.channel.bytes.take l.receiver.channel.offset

def unsent (c : Channel) : List UInt8 := slice c.bytes c.offset (c.length - c.offset)

/-- The blocks `rest` are under way: the first of them may be held in part. -/
structure Flow (format : Format) (rest : List Packet) (l : Link) : Prop where
  bytes_eq : rest.flatMap (encoded format) = held l ++ l.wire ++ unsent l.sender
  held_le : l.receiver.channel.offset ≤ l.receiver.channel.bytes.length
  offset_le : l.receiver.channel.offset ≤ l.receiver.channel.length
  length_eq : l.receiver.channel.length = 0 ∨ l.receiver.channel.length = headerBytes ∨
    ∃ p rest', rest = p :: rest' ∧ l.receiver.channel.length = (encoded format p).length

structure Linked (format : Format) (l : Link) : Prop where
  sender_format : l.sender.format = format
  receiver_format : l.receiver.channel.format = format
  valid : ∀ p ∈ l.sent, Valid format p
  sending : (l.sender.length = 0 ∧ l.sender.offset = 0) ∨
    (l.sender.length = l.sender.bytes.length ∧ l.sender.offset < l.sender.length)
  next_eq : l.receiver.nextFrame = ends 0 l.received
  received_initial : l.received <+: l.sent
  flow : l.receiver.channel.closed = false → ∃ rest, l.sent = l.received ++ rest ∧
    Flow format rest l

theorem new_linked (format : Format) : Linked format (Link.new format) := by
  refine ⟨rfl, rfl, ?_, .inl ⟨rfl, rfl⟩, rfl, List.prefix_rfl, ?_⟩
  · intro p hp
    cases hp
  · intro _
    exact ⟨[], rfl, rfl, Nat.le_refl _, Nat.le_refl _, .inl rfl⟩

/-- What the sending end does to a link. -/
structure Sends (format : Format) (l l' : Link) (sent : List Packet) : Prop where
  linked : Linked format l'
  receiver_eq : l'.receiver = l.receiver
  received_eq : l'.received = l.received
  sent_eq : l'.sent = l.sent ++ sent

/-- A link in which only the sender has changed, but for what it has to send. -/
theorem Linked.sender_step (h : Linked format l) (c : Channel) (wire : List UInt8)
    (hformat : c.format = l.sender.format)
    (hsending : (c.length = 0 ∧ c.offset = 0) ∨ (c.length = c.bytes.length ∧ c.offset < c.length))
    (hbytes : wire ++ unsent c = l.wire ++ unsent l.sender) :
    Linked format { l with sender := c, wire := wire } := by
  refine ⟨hformat.trans h.sender_format, h.receiver_format, h.valid, hsending,
    h.next_eq, h.received_initial, ?_⟩
  intro hopen
  obtain ⟨rest, hsent, hflow⟩ := h.flow hopen
  refine ⟨rest, hsent, ?_, hflow.held_le, hflow.offset_le, hflow.length_eq⟩
  change rest.flatMap (encoded format) = held l ++ wire ++ unsent c
  rw [hflow.bytes_eq, List.append_assoc, List.append_assoc, hbytes]

theorem check_spec (now : UInt64) (c : Channel) :
    (∃ e, Channel.check now c = (.error e, c.close) ∧ (e = .brokenPipe ∨ e = .timedOut)) ∨
      (Channel.check now c = (.ok (), { c with lastNow := now.toNat }) ∧ c.closed = false) := by
  unfold Channel.check
  by_cases hc : c.closed = true
  · rw [if_pos hc]
    have hsame : c.close = c := by
      unfold Channel.close
      rw [← hc]
    exact .inl ⟨_, by rw [hsame], .inl rfl⟩
  · rw [if_neg hc]
    by_cases hd : now.toNat < c.lastNow ∨ c.deadline.any (· ≤ now.toNat)
    · rw [if_pos hd]
      exact .inl ⟨_, rfl, .inr rfl⟩
    · rw [if_neg hd]
      exact .inr ⟨rfl, Bool.eq_false_iff.mpr hc⟩

theorem onSender_run {α : Type} {m : Action PcmError Channel α} {r : Except PcmError α} {c : Channel}
    (h : m l.sender = (r, c)) : onSender m l = (r, { l with sender := c }) := by
  unfold onSender
  rw [h]

theorem onReceiver_run {α : Type} {m : Action PcmError Channel α} {r : Except PcmError α}
    {c : Channel} (h : m l.receiver.channel = (r, c)) :
    onReceiver m l = (r, { l with receiver := { l.receiver with channel := c } }) := by
  unfold onReceiver
  rw [h]

theorem Linked.sends (h : Linked format l) : Sends format l l [] :=
  ⟨h, rfl, rfl, (List.append_nil _).symm⟩

theorem unsent_split (c : Channel) (n : ℕ) :
    slice c.bytes c.offset (min n (c.length - c.offset)) ++
      slice c.bytes (c.offset + min n (c.length - c.offset))
        (c.length - (c.offset + min n (c.length - c.offset))) = unsent c := by
  unfold unsent slice
  generalize hm : min n (c.length - c.offset) = m
  have hle : m ≤ c.length - c.offset := hm ▸ Nat.min_le_right _ _
  rw [← List.drop_drop]
  have hsum : c.length - c.offset = m + (c.length - (c.offset + m)) := by omega
  conv_rhs => rw [hsum, List.take_add]

theorem advance_spec (h : Linked format l) (hbusy : l.sender.length ≠ 0) (n : ℕ) :
    Linked format (Sender.advance
      (slice l.sender.bytes l.sender.offset (min n (l.sender.length - l.sender.offset))) l) := by
  obtain ⟨hlen, hlt⟩ : l.sender.length = l.sender.bytes.length ∧
      l.sender.offset < l.sender.length := by
    rcases h.sending with ⟨hzero, _⟩ | hbusy'
    · exact absurd hzero hbusy
    · exact hbusy'
  have hsplit := unsent_split l.sender n
  generalize hm : min n (l.sender.length - l.sender.offset) = m at hsplit ⊢
  have hmle : m ≤ l.sender.length - l.sender.offset := hm ▸ Nat.min_le_right _ _
  have hchunk : (slice l.sender.bytes l.sender.offset m).length = m := by
    unfold slice
    rw [List.length_take, List.length_drop]
    omega
  unfold Sender.advance
  rw [hchunk]
  dsimp only
  by_cases hdone : l.sender.offset + m = l.sender.length
  · rw [if_pos hdone]
    apply h.sender_step
    · rfl
    · exact .inl ⟨rfl, rfl⟩
    · rw [← hsplit, hdone, Nat.sub_self]
      simp [unsent, slice]
  · rw [if_neg hdone]
    apply h.sender_step
    · rfl
    · refine .inr ⟨hlen, ?_⟩
      change l.sender.offset + m < l.sender.length
      omega
    · rw [← hsplit, List.append_assoc]
      rfl

/-- The error of a call whose deadline is not a number of the clock. -/
def overflow : PcmError := .invalid "PCM deadline overflow"

/-- A call that found the sender open and writes what it can. -/
structure Pumps (format : Format) (write : WriteOutcome) (l l' : Link) : Prop where
  sends : Sends format l l' []
  was_open : l.sender.closed = false
  opened : l'.sender.closed = false
  moves : ∀ n, write = .wrote (n + 1) → l.sender.length ≠ 0 → l.wire.length < l'.wire.length

/-- A call that failed has closed the sender and written nothing. -/
structure Stuck (format : Format) (l l' : Link) (e : PcmError) : Prop where
  sends : Sends format l l' []
  shut : l'.sender.closed = true
  unsent_eq : unsent l'.sender = unsent l.sender
  reason : e ≠ overflow

theorem pump_spec (h : Linked format l) (now : UInt64) (write : WriteOutcome) :
    Meets (Sender.pump now write l) (fun _ l' => Pumps format write l l')
      (fun e l' => Stuck format l l' e) := by
  unfold Sender.pump
  rcases check_spec now l.sender with ⟨e, hcheck, he⟩ | ⟨hcheck, hopen⟩
  · rw [bind_run_error (onSender_run hcheck), meets_error]
    refine ⟨⟨?_, rfl, rfl, (List.append_nil _).symm⟩, rfl, rfl, ?_⟩
    · exact h.sender_step _ _ rfl h.sending rfl
    · rcases he with rfl | rfl <;> exact PcmError.noConfusion
  · rw [meets_bind_ok (onSender_run hcheck), meets_get_bind]
    have hnow : Linked format { l with sender := { l.sender with lastNow := now.toNat } } :=
      h.sender_step _ _ rfl h.sending rfl
    generalize hl : ({ l with sender := { l.sender with lastNow := now.toNat } } : Link) = l₁ at hnow
    have hsame : Sends format l l₁ [] := by
      refine ⟨hnow, ?_, ?_, ?_⟩ <;> rw [← hl]
      exact (List.append_nil _).symm
    have hlength : l₁.sender.length = l.sender.length := by rw [← hl]
    have hwire : l₁.wire = l.wire := by rw [← hl]
    have hunsent : unsent l₁.sender = unsent l.sender := by
      rw [← hl]
      rfl
    have hopen₁ : l₁.sender.closed = false := by
      rw [← hl]
      exact hopen
    by_cases hidle : l₁.sender.length = 0
    · rw [if_pos hidle]
      exact ⟨hsame, hopen, hopen₁, fun _ _ hbusy => absurd (hlength ▸ hidle) hbusy⟩
    · rw [if_neg hidle]
      have hclosed : ∀ {e}, e ≠ overflow → Stuck format l (Sender.close l₁) e := fun he =>
        ⟨⟨hnow.sender_step _ _ rfl hnow.sending rfl, hsame.receiver_eq, hsame.received_eq,
          hsame.sent_eq⟩, rfl, hunsent, he⟩
      cases write with
      | blocked => exact ⟨hsame, hopen, hopen₁, fun _ h _ => WriteOutcome.noConfusion h⟩
      | failed => exact hclosed PcmError.noConfusion
      | wrote n =>
        have hadvance := advance_spec hnow hidle n
        dsimp only
        by_cases hempty : slice l₁.sender.bytes l₁.sender.offset
            (min n (l₁.sender.length - l₁.sender.offset)) = []
        · rw [if_pos hempty]
          exact hclosed PcmError.noConfusion
        · rw [if_neg hempty]
          refine ⟨⟨hadvance, hsame.receiver_eq, hsame.received_eq, hsame.sent_eq⟩, hopen, ?_, ?_⟩
          · unfold Sender.advance
            dsimp only
            split <;> exact hopen₁
          · intro _ _ _
            change l.wire.length < (l₁.wire ++ slice _ _ _).length
            rw [List.length_append, hwire]
            exact Nat.lt_add_of_pos_right (List.length_pos_iff.mpr hempty)

theorem enqueue_spec (h : Linked format l) (hidle : l.sender.length = 0) {p : Packet}
    (hp : Valid format p) : Linked format (Sender.enqueue (encoded format p) p l) := by
  have hoffset : l.sender.offset = 0 := by
    rcases h.sending with ⟨_, hoffset⟩ | ⟨_, hlt⟩ <;> omega
  have hpos : 0 < (encoded format p).length := by
    rw [hp.length_encoded]
    unfold headerBytes
    omega
  refine ⟨h.sender_format, h.receiver_format, ?_, .inr ⟨rfl, ?_⟩, h.next_eq,
    h.received_initial.trans (List.prefix_append _ _), ?_⟩
  · intro q hq
    rcases List.mem_append.mp hq with hq | hq
    · exact h.valid q hq
    · rw [List.mem_singleton.mp hq]
      exact hp
  · change l.sender.offset < (encoded format p).length
    omega
  · intro hopen
    obtain ⟨rest, hsent, hbytes, hheld, hoff, hlen⟩ := h.flow hopen
    have hnone : unsent l.sender = [] := by
      unfold unsent slice
      rw [hidle, Nat.zero_sub, List.take_zero]
    refine ⟨rest ++ [p], ?_, ?_, hheld, hoff, ?_⟩
    · change l.sent ++ [p] = l.received ++ (rest ++ [p])
      rw [hsent, List.append_assoc]
    · change (rest ++ [p]).flatMap (encoded format) =
        held l ++ l.wire ++ slice (encoded format p) l.sender.offset ((encoded format p).length - l.sender.offset)
      rw [List.flatMap_append, hbytes, hnone, hoffset]
      simp [slice]
    · rcases hlen with hlen | hlen | ⟨q, rest', rfl, hlen⟩
      · exact .inl hlen
      · exact .inr (.inl hlen)
      · exact .inr (.inr ⟨q, rest' ++ [p], rfl, hlen⟩)

/-- The block that a call of `send` makes of the front of its samples. -/
def packetOf (format : Format) (samples : List Int16) (firstFrame : ℕ) (discontinuity : Bool)
    (now : UInt64) : Packet :=
  let frames := min (samples.length / format.channels) blockFrames
  ⟨⟨frames, firstFrame, discontinuity, now⟩, samples.take (frames * format.channels)⟩

theorem Sends.trans {l'' : Link} {ps qs : List Packet} (h : Sends format l l' ps)
    (k : Sends format l' l'' qs) : Sends format l l'' (ps ++ qs) := by
  refine ⟨k.linked, k.receiver_eq.trans h.receiver_eq, k.received_eq.trans h.received_eq, ?_⟩
  rw [k.sent_eq, h.sent_eq, List.append_assoc]

theorem begin_spec (now : UInt64) (c : Channel) :
    Channel.begin now c = (.error overflow, c) ∨
      ∃ due, Channel.begin now c = (.ok (), { c with deadline := some due }) := by
  unfold Channel.begin
  cases checkedAdd deadlineUs now.toNat with
  | none => exact .inl rfl
  | some due => exact .inr ⟨due, rfl⟩

/-- What a failing call of `send` leaves: its block is dropped, waits for a later call or, with the
sender closed, is not written at all. -/
inductive Refused (format : Format) (l l' : Link) (p : Packet) (e : PcmError) : Prop where
  | dropped : e ≠ overflow → Sends format l l' [] → Refused format l l' p e
  | waiting : e = overflow → Sends format l l' [p] → Refused format l l' p e
  | shut : e ≠ overflow → Sends format l l' [p] → l'.sender.closed = true →
      unsent l'.sender = encoded format p → Refused format l l' p e

/-- From the encoder on, a call of `send` either fails or has handed its block to the socket. -/
theorem commit_spec (h : Linked format l) (hidle : l.sender.length = 0) (p : Packet) (now : UInt64)
    (write : WriteOutcome) :
    Meets ((do
        let bytes ← lift (encode format p.block p.samples)
        modify (Sender.enqueue bytes p)
        onSender (Channel.begin now)
        Sender.pump now write
        return p.block.frames : Action PcmError Link ℕ) l)
      (fun n l' => l'.sender.closed = false ∧ n = p.block.frames ∧ n ≠ 0 ∧ Sends format l l' [p])
      (fun e l' => Refused format l l' p e) := by
  rcases encode_eq format p with ⟨hvalid, hencode⟩ | hencode
  · rw [hencode, meets_lift_ok_bind, meets_modify_bind]
    have henqueued : Sends format l (Sender.enqueue (encoded format p) p l) [p] :=
      ⟨enqueue_spec h hidle hvalid, rfl, rfl, rfl⟩
    have hunsent : unsent (Sender.enqueue (encoded format p) p l).sender = encoded format p := by
      have hoffset : l.sender.offset = 0 := by
        rcases h.sending with ⟨_, hoffset⟩ | ⟨_, hlt⟩ <;> omega
      change slice (encoded format p) l.sender.offset
        ((encoded format p).length - l.sender.offset) = encoded format p
      rw [hoffset]
      exact List.take_length
    generalize Sender.enqueue (encoded format p) p l = l₁ at henqueued hunsent
    rcases begin_spec now l₁.sender with hbegin | ⟨due, hbegin⟩
    · rw [bind_run_error (onSender_run hbegin), meets_error]
      exact .waiting rfl henqueued
    · rw [meets_bind_ok (onSender_run hbegin)]
      have hbegun : Sends format l { l₁ with sender := { l₁.sender with deadline := some due } } [p] :=
        ⟨henqueued.linked.sender_step _ _ rfl henqueued.linked.sending rfl,
          henqueued.receiver_eq, henqueued.received_eq, henqueued.sent_eq⟩
      apply meets_bind ((pump_spec hbegun.linked now write).mono (fun _ _ hq => hq) ?_)
      · rintro _ l₂ hp
        exact ⟨hp.opened, rfl, hvalid.pos, hbegun.trans hp.sends⟩
      · intro e l₂ hstuck
        exact .shut hstuck.reason (hbegun.trans hstuck.sends) hstuck.shut
          (hstuck.unsent_eq.trans hunsent)
  · rw [hencode, meets_lift_error_bind]
    exact .dropped (by decide) h.sends

theorem send_spec (h : Linked format l) (samples : List Int16) (firstFrame : ℕ)
    (discontinuity : Bool) (now : UInt64) (first second : WriteOutcome) :
    Meets (Sender.send samples firstFrame discontinuity now first second l)
      (fun n l' => l'.sender.closed = false ∧ ((n = 0 ∧ Sends format l l' []) ∨
        (n = (packetOf format samples firstFrame discontinuity now).block.frames ∧ n ≠ 0 ∧
          Sends format l l' [packetOf format samples firstFrame discontinuity now])))
      (fun e l' => Refused format l l' (packetOf format samples firstFrame discontinuity now) e) := by
  unfold Sender.send
  apply meets_bind ((pump_spec h now first).mono (fun _ _ hq => hq)
    (fun _ _ he => .dropped he.reason he.sends))
  rintro _ l₁ ⟨h₁, _, hopen, _⟩
  rw [meets_get_bind, h₁.linked.sender_format]
  by_cases halign : samples.length % format.channels ≠ 0
  · rw [if_pos halign]
    exact .dropped (by decide) h₁
  · rw [if_neg halign]
    by_cases hbusy : l₁.sender.length ≠ 0 ∨ samples = []
    · rw [if_pos hbusy]
      exact ⟨hopen, .inl ⟨rfl, h₁⟩⟩
    · rw [if_neg hbusy]
      rw [not_or, not_not] at hbusy
      have hcommit := commit_spec h₁.linked hbusy.1
        (packetOf format samples firstFrame discontinuity now) now second
      apply hcommit.mono
      · rintro n l₂ ⟨hopen₂, hn, hpos, h₂⟩
        exact ⟨hopen₂, .inr ⟨hn, hpos, h₁.trans h₂⟩⟩
      · rintro e l₂ (⟨he, h₂⟩ | ⟨he, h₂⟩ | ⟨he, h₂, hshut, hunsent⟩)
        · exact .dropped he (h₁.trans h₂)
        · exact .waiting he (h₁.trans h₂)
        · exact .shut he (h₁.trans h₂) hshut hunsent

/-- The errors of a receiver that its own sender cannot be blamed for. -/
def harmless : List PcmError :=
  [.brokenPipe, .timedOut, .unexpectedEof, .socket, .invalid "PCM deadline overflow",
    .invalid "PCM destination too short"]

/-- What the receiving end leaves alone, unless it hands out a block. -/
structure Keeps (l l' : Link) : Prop where
  sender_eq : l'.sender = l.sender
  sent_eq : l'.sent = l.sent
  received_eq : l'.received = l.received
  next_eq : l'.receiver.nextFrame = l.receiver.nextFrame
  format_eq : l'.receiver.channel.format = l.receiver.channel.format

theorem Keeps.refl (l : Link) : Keeps l l := ⟨rfl, rfl, rfl, rfl, rfl⟩

theorem Keeps.trans {l'' : Link} (h : Keeps l l') (k : Keeps l' l'') : Keeps l l'' :=
  ⟨k.sender_eq.trans h.sender_eq, k.sent_eq.trans h.sent_eq, k.received_eq.trans h.received_eq,
    k.next_eq.trans h.next_eq, k.format_eq.trans h.format_eq⟩

/-- A link in which only the receiver's buffer and the wire have changed. -/
theorem Linked.receiver_step (h : Linked format l) (hk : Keeps l l')
    (hflow : l'.receiver.channel.closed = false →
      ∃ rest, l.sent = l.received ++ rest ∧ Flow format rest l') : Linked format l' := by
  refine ⟨?_, ?_, ?_, ?_, ?_, ?_, ?_⟩
  · rw [hk.sender_eq]
    exact h.sender_format
  · rw [hk.format_eq]
    exact h.receiver_format
  · rw [hk.sent_eq]
    exact h.valid
  · rw [hk.sender_eq]
    exact h.sending
  · rw [hk.next_eq, hk.received_eq]
    exact h.next_eq
  · rw [hk.sent_eq, hk.received_eq]
    exact h.received_initial
  · rw [hk.sent_eq, hk.received_eq]
    exact hflow

theorem held_store (h : l.receiver.channel.offset ≤ l.receiver.channel.bytes.length)
    (chunk : List UInt8) : held (Receiver.store chunk l) = held l ++ chunk := by
  unfold held Receiver.store
  dsimp only
  have hlen : (l.receiver.channel.bytes.take l.receiver.channel.offset ++ chunk).length =
      l.receiver.channel.offset + chunk.length := by
    rw [List.length_append, List.length_take, Nat.min_eq_left h]
  rw [← hlen, List.take_length]

/-- What a read does: it moves a piece of the wire into the buffer. -/
structure Filled (read : ReadOutcome) (l : Link) (full : Bool) (l' : Link) : Prop where
  keeps : Keeps l l'
  closed_eq : l'.receiver.channel.closed = l.receiver.channel.closed
  length_eq : l'.receiver.channel.length = l.receiver.channel.length
  held_le : l'.receiver.channel.offset ≤ l'.receiver.channel.bytes.length
  offset_le : l'.receiver.channel.offset ≤ l'.receiver.channel.length
  full_eq : full = decide (l'.receiver.channel.length ≤ l'.receiver.channel.offset)
  piece : ∃ chunk, l.wire = chunk ++ l'.wire ∧ held l' = held l ++ chunk ∧
    l'.receiver.channel.offset = l.receiver.channel.offset + chunk.length ∧
    ∀ n, read = .data (n + 1) → l.receiver.channel.offset < l.receiver.channel.length →
      l.wire ≠ [] → chunk ≠ []

theorem fill_spec (hheld : l.receiver.channel.offset ≤ l.receiver.channel.bytes.length)
    (hoff : l.receiver.channel.offset ≤ l.receiver.channel.length) (now : UInt64)
    (read : ReadOutcome) :
    Meets (Receiver.fill now read l) (Filled read l) (fun e l' => Keeps l l' ∧ e ∈ harmless) := by
  unfold Receiver.fill
  rw [meets_get_bind]
  have hsame : ∀ full, full = decide (l.receiver.channel.length ≤ l.receiver.channel.offset) →
      (∀ n, read = .data (n + 1) → l.receiver.channel.offset < l.receiver.channel.length →
        l.wire = []) → Filled read l full l := by
    intro full hfull hempty
    refine ⟨Keeps.refl l, rfl, rfl, hheld, hoff, hfull, [], rfl, (List.append_nil _).symm, rfl, ?_⟩
    intro n hn hlt hne
    exact absurd (hempty n hn hlt) hne
  by_cases hfull : l.receiver.channel.length ≤ l.receiver.channel.offset
  · rw [if_pos hfull]
    exact hsame true (decide_eq_true hfull).symm fun _ _ hlt => absurd hlt (Nat.not_lt_of_le hfull)
  · rw [if_neg hfull]
    have hfalse := (decide_eq_false hfull).symm
    cases read with
    | eof => exact ⟨Keeps.refl l, by simp [harmless]⟩
    | failed => exact ⟨Keeps.refl l, by simp [harmless]⟩
    | blocked => exact hsame false hfalse fun _ h => ReadOutcome.noConfusion h
    | data n =>
      dsimp only
      generalize hc : l.wire.take (min n (l.receiver.channel.length - l.receiver.channel.offset)) =
        chunk
      have hchunk : chunk.length =
          min (min n (l.receiver.channel.length - l.receiver.channel.offset)) l.wire.length := by
        rw [← hc, List.length_take]
      have hwire : l.wire = chunk ++ l.wire.drop chunk.length := by
        obtain ⟨tail, htail⟩ : chunk <+: l.wire := hc ▸ List.take_prefix _ _
        rw [← htail, List.drop_left]
      by_cases hempty : chunk = []
      · rw [if_pos hempty]
        apply hsame false hfalse
        intro k hk hlt
        obtain rfl := ReadOutcome.data.inj hk
        rw [hempty, List.length_nil] at hchunk
        apply List.eq_nil_of_length_eq_zero
        omega
      · rw [if_neg hempty, meets_modify_bind]
        have hstored : ∀ c : Channel, c.format = l.receiver.channel.format →
            c.bytes = l.receiver.channel.bytes → c.offset = l.receiver.channel.offset →
            c.length = l.receiver.channel.length → c.closed = l.receiver.channel.closed →
            Filled (.data n) l
              (decide (l.receiver.channel.length ≤ l.receiver.channel.offset + chunk.length))
              (Receiver.store chunk { l with
                wire := l.wire.drop chunk.length, receiver := { l.receiver with channel := c } }) := by
          intro c hformat hbytes hoffset hlength hclosed
          refine ⟨⟨rfl, rfl, rfl, rfl, hformat⟩, hclosed, hlength, ?_, ?_, ?_, chunk, hwire, ?_, ?_,
            fun _ _ _ _ => hempty⟩
          · change c.offset + chunk.length ≤ (c.bytes.take c.offset ++ chunk).length
            rw [List.length_append, List.length_take, hoffset, hbytes]
            omega
          · change c.offset + chunk.length ≤ c.length
            omega
          · change _ = decide (c.length ≤ c.offset + chunk.length)
            rw [hlength, hoffset]
          · rw [held_store (l := { l with
              wire := l.wire.drop chunk.length, receiver := { l.receiver with channel := c } })
              (by change c.offset ≤ c.bytes.length; rw [hoffset, hbytes]; exact hheld) chunk]
            unfold held
            dsimp only
            rw [hoffset, hbytes]
          · change c.offset + chunk.length = _
            rw [hoffset]
        by_cases hdue : l.receiver.channel.deadline = none
        · rw [if_pos hdue]
          rcases begin_spec now l.receiver.channel with hbegin | ⟨due, hbegin⟩
          · have hrun := onReceiver_run (l := { l with wire := l.wire.drop chunk.length }) hbegin
            rw [bind_run_error hrun, meets_error]
            exact ⟨⟨rfl, rfl, rfl, rfl, rfl⟩, by simp [harmless, overflow]⟩
          · have hrun := onReceiver_run (l := { l with wire := l.wire.drop chunk.length }) hbegin
            rw [meets_bind_ok hrun]
            exact hstored _ rfl rfl rfl rfl rfl
        · rw [if_neg hdue]
          exact hstored _ rfl rfl rfl rfl rfl

/-- A state between two reads of an open receiver that has begun a block. -/
structure Reading (format : Format) (l : Link) : Prop where
  linked : Linked format l
  opened : l.receiver.channel.closed = false
  begun : l.receiver.channel.length ≠ 0

theorem Reading.filled {read : ReadOutcome} {full : Bool} (h : Reading format l)
    (hf : Filled read l full l') : Reading format l' := by
  obtain ⟨rest, hsent, hbytes, _, _, hlen⟩ := h.linked.flow h.opened
  obtain ⟨chunk, hwire, hheld, _, _⟩ := hf.piece
  refine ⟨h.linked.receiver_step hf.keeps ?_, hf.closed_eq.trans h.opened, ?_⟩
  · intro _
    refine ⟨rest, hsent, ?_, hf.held_le, hf.offset_le, ?_⟩
    · calc rest.flatMap (encoded format)
          = held l ++ (chunk ++ l'.wire) ++ unsent l.sender := by rw [hbytes, hwire]
        _ = held l ++ chunk ++ l'.wire ++ unsent l.sender := by rw [← List.append_assoc (held l)]
        _ = held l' ++ l'.wire ++ unsent l'.sender := by rw [hheld, hf.keeps.sender_eq]
    · rw [hf.length_eq]
      exact hlen
  · rw [hf.length_eq]
    exact h.begun

theorem Flow.held_length {rest : List Packet} (h : Flow format rest l) :
    (held l).length = l.receiver.channel.offset := by
  unfold held
  rw [List.length_take, Nat.min_eq_left h.held_le]

theorem headerBytes_le (format : Format) (p : Packet) : headerBytes ≤ (encoded format p).length := by
  unfold encoded
  rw [List.length_append, length_header]
  exact Nat.le_add_right _ _

/-- Once the header is held, it is the header of the first block under way. -/
theorem Flow.header_held (h : Flow format rest l) (hfull : headerBytes ≤ l.receiver.channel.offset) :
    ∃ p rest', rest = p :: rest' ∧ l.receiver.channel.bytes.take headerBytes = header format p.block := by
  have hlen := h.held_length
  have hbytes := h.bytes_eq
  cases rest with
  | nil =>
    have hzero := congrArg List.length hbytes
    simp only [List.flatMap_nil, List.length_nil, List.length_append] at hzero
    unfold headerBytes at hfull
    omega
  | cons p rest' =>
    refine ⟨p, rest', rfl, ?_⟩
    calc l.receiver.channel.bytes.take headerBytes
        = (held l).take headerBytes := by
          unfold held
          rw [List.take_take, Nat.min_eq_left hfull]
      _ = ((held l ++ l.wire) ++ unsent l.sender).take headerBytes := by
          rw [List.append_assoc, List.take_append_of_le_length (by rw [hlen]; exact hfull)]
      _ = (header format p.block ++ (body p ++ rest'.flatMap (encoded format))).take headerBytes := by
          rw [← hbytes, List.flatMap_cons, encoded, List.append_assoc]
      _ = header format p.block := by
          rw [List.take_append_of_le_length (length_header format p.block).ge,
            List.take_of_length_le (length_header format p.block).le]

/-- Once as many bytes are held as the first block has, they are that block. -/
theorem Flow.block_held {p : Packet} {rest' : List Packet} (h : Flow format (p :: rest') l)
    (hfull : l.receiver.channel.offset = (encoded format p).length) :
    held l = encoded format p ∧
      rest'.flatMap (encoded format) = l.wire ++ unsent l.sender := by
  have hbytes := h.bytes_eq
  rw [List.flatMap_cons, List.append_assoc] at hbytes
  obtain ⟨hheld, htail⟩ := List.append_inj hbytes (by rw [h.held_length, hfull])
  exact ⟨hheld.symm, htail⟩

/-- What a call of the receiving end comes to when it does not fail. -/
structure Receives (format : Format) (l l' : Link) (dest : List Int16)
    (result : Option Block × List Int16) : Prop where
  linked : Linked format l'
  was_open : l.receiver.channel.closed = false
  opened : l'.receiver.channel.closed = false
  sender_eq : l'.sender = l.sender
  sent_eq : l'.sent = l.sent
  /-- Nothing complete stays behind. -/
  waits : l'.receiver.channel.offset < l'.receiver.channel.length ∨
    (l'.receiver.channel.offset = 0 ∧ l'.receiver.channel.length = 0)
  handed : (result = (none, dest) ∧ l'.received = l.received) ∨
    ∃ p, result = (some p.block, p.samples ++ dest.drop p.samples.length) ∧
      l'.received = l.received ++ [p]

theorem Reading.expect (h : Reading format l) {p : Packet} {rest' : List Packet}
    (hsent : l.sent = l.received ++ p :: rest') (hflow : Flow format (p :: rest') l)
    (hle : l.receiver.channel.offset ≤ (encoded format p).length) :
    Reading format (Receiver.expect (encoded format p).length l) := by
  refine ⟨h.linked.receiver_step ⟨rfl, rfl, rfl, rfl, rfl⟩ ?_, h.opened, ?_⟩
  · intro _
    exact ⟨p :: rest', hsent, hflow.bytes_eq, hflow.held_le, hle, .inr (.inr ⟨p, rest', rfl, rfl⟩)⟩
  · change (encoded format p).length ≠ 0
    have hheader := headerBytes_le format p
    unfold headerBytes at hheader
    omega

theorem Reading.accept (h : Reading format l) {p : Packet} {rest' : List Packet}
    (hsent : l.sent = l.received ++ p :: rest')
    (htail : rest'.flatMap (encoded format) = l.wire ++ unsent l.sender) :
    Linked format (Receiver.accept p l) := by
  have hl := h.linked
  refine ⟨hl.sender_format, hl.receiver_format, hl.valid, hl.sending, ?_, ?_, ?_⟩
  · change stop p = ends 0 (l.received ++ [p])
    rw [ends_append]
    rfl
  · change l.received ++ [p] <+: l.sent
    rw [hsent]
    exact (List.prefix_append_right_inj _).mpr ⟨rest', rfl⟩
  · intro _
    refine ⟨rest', ?_, ?_, Nat.zero_le _, Nat.le_refl _, .inl rfl⟩
    · change l.sent = l.received ++ [p] ++ rest'
      rw [hsent, List.append_assoc]
      rfl
    · change _ = l.receiver.channel.bytes.take 0 ++ l.wire ++ unsent l.sender
      rw [List.take_zero, List.nil_append]
      exact htail

theorem turns_spec (now : UInt64) (dest : List Int16) (reads : List ReadOutcome) :
    ∀ {l : Link}, Reading format l →
      (l.receiver.channel.offset < l.receiver.channel.length ∨ reads ≠ []) →
      Meets (Receiver.turns now dest reads l)
      (fun result l' => Receives format l l' dest result)
      (fun e l' => Keeps l l' ∧
        (e ∈ harmless ∨ (e = Receiver.gapError ∧ ¬ Announced 0 l.sent))) := by
  induction reads with
  | nil =>
    intro l h hmore
    have hwaits := hmore.resolve_right (not_not.mpr rfl)
    exact ⟨h.linked, h.opened, h.opened, rfl, rfl, .inl hwaits, .inl ⟨rfl, rfl⟩⟩
  | cons read reads ih =>
    intro l h _
    unfold Receiver.turns
    obtain ⟨_, _, _, hheld₀, hoff₀, _⟩ := h.linked.flow h.opened
    apply meets_bind ((fill_spec hheld₀ hoff₀ now read).mono (fun _ _ hq => hq)
      (fun _ _ he => ⟨he.1, .inl he.2⟩))
    intro full l₁ hf
    have h₁ := h.filled hf
    have hk := hf.keeps
    cases full with
    | false =>
      have hpart := Nat.lt_of_not_le (of_decide_eq_false hf.full_eq.symm)
      exact ⟨h₁.linked, h.opened, h₁.opened, hk.sender_eq, hk.sent_eq, .inl hpart,
        .inl ⟨rfl, hk.received_eq⟩⟩
    | true =>
      obtain ⟨rest, hsent, hflow⟩ := h₁.linked.flow h₁.opened
      have hoffset := Nat.le_antisymm hf.offset_le (of_decide_eq_true hf.full_eq.symm)
      have hheader : headerBytes ≤ l₁.receiver.channel.offset := by
        rcases hflow.length_eq with hlen | hlen | ⟨p, _, _, hlen⟩
        · exact absurd hlen h₁.begun
        · rw [hoffset, hlen]
        · rw [hoffset, hlen]
          exact headerBytes_le format p
      obtain ⟨p, rest', rfl, htake⟩ := hflow.header_held hheader
      have hvalid : Valid format p := by
        apply h₁.linked.valid
        rw [hsent]
        simp
      have hdecode : decode l₁.receiver.channel.format
          (l₁.receiver.channel.bytes.take headerBytes) = .ok p.block := by
        rw [h₁.linked.receiver_format, htake]
        exact decode_header hvalid
      have hlength : headerBytes + p.block.frames * l₁.receiver.channel.format.channels * 2 =
          (encoded format p).length := by
        rw [h₁.linked.receiver_format, hvalid.length_encoded]
      rw [if_pos rfl, meets_get_bind, hdecode, meets_lift_ok_bind, meets_modify_bind, hlength]
      by_cases hmore : l₁.receiver.channel.offset < (encoded format p).length
      · rw [if_pos hmore]
        have hnext : Reading format (Receiver.expect (encoded format p).length l₁) :=
          h₁.expect hsent hflow (Nat.le_of_lt hmore)
        apply (ih hnext (.inl hmore)).mono
        · intro result l₂ hr
          refine ⟨hr.linked, h.opened, hr.opened, hr.sender_eq.trans hk.sender_eq,
            hr.sent_eq.trans hk.sent_eq, hr.waits, ?_⟩
          rw [← hk.received_eq]
          exact hr.handed
        · rintro e l₂ ⟨hk₂, he⟩
          have hkeeps : Keeps l₁ (Receiver.expect (encoded format p).length l₁) :=
            ⟨rfl, rfl, rfl, rfl, rfl⟩
          refine ⟨hk.trans (hkeeps.trans hk₂), ?_⟩
          rw [← hk.sent_eq]
          exact he
      · rw [if_neg hmore]
        have hexact : l₁.receiver.channel.offset = (encoded format p).length := by
          rcases hflow.length_eq with hlen | hlen | ⟨q, rest'', hq, hlen⟩
          · exact absurd hlen h₁.begun
          · rw [hvalid.length_encoded] at hmore ⊢
            omega
          · obtain ⟨rfl, _⟩ := List.cons.inj hq
            rw [hoffset, hlen]
        obtain ⟨hheld, htail⟩ := hflow.block_held hexact
        by_cases hgap : p.block.firstFrame < l₁.receiver.nextFrame ∨
            (p.block.firstFrame ≠ l₁.receiver.nextFrame ∧ p.block.discontinuity = false)
        · rw [if_pos hgap, meets_fail]
          have hkeeps : Keeps l₁ (Receiver.expect (encoded format p).length l₁) :=
            ⟨rfl, rfl, rfl, rfl, rfl⟩
          refine ⟨hk.trans hkeeps, .inr ⟨rfl, ?_⟩⟩
          rw [← hk.sent_eq, hsent, announced_append, ← h₁.linked.next_eq]
          rintro ⟨_, ⟨hle, hmark⟩, _⟩
          rcases hgap with hlt | ⟨hne, hflag⟩
          · omega
          · rw [hmark hne] at hflag
            cases hflag
        · rw [if_neg hgap]
          have hsamples : samplesOf (slice l₁.receiver.channel.bytes headerBytes
              ((encoded format p).length - headerBytes)) = p.samples := by
            have hslice : slice l₁.receiver.channel.bytes headerBytes
                ((encoded format p).length - headerBytes) = body p := by
              unfold slice
              rw [← List.drop_take, ← hexact]
              change (held l₁).drop headerBytes = body p
              rw [hheld, encoded, List.drop_append_of_le_length (length_header _ _).ge,
                List.drop_of_length_le (length_header _ _).le, List.nil_append]
            rw [hslice]
            exact samplesOf_flatMap p.samples
          rw [hsamples, meets_modify_bind, meets_pure]
          have haccept : Linked format (Receiver.accept p (Receiver.expect (encoded format p).length l₁)) :=
            (h₁.expect hsent hflow hexact.le).accept hsent htail
          refine ⟨haccept, h.opened, h₁.opened, hk.sender_eq, hk.sent_eq, .inr ⟨rfl, rfl⟩,
            .inr ⟨p, rfl, ?_⟩⟩
          change l₁.received ++ [p] = l.received ++ [p]
          rw [hk.received_eq]

/-- A call of the receiving end that fails, which is its last. -/
structure Fails (format : Format) (l l' : Link) (e : PcmError) : Prop where
  linked : Linked format l'
  shut : l'.receiver.channel.closed = true
  sender_eq : l'.sender = l.sender
  sent_eq : l'.sent = l.sent
  received_eq : l'.received = l.received
  reason : e ∈ harmless ∨ (e = Receiver.gapError ∧ ¬ Announced 0 l.sent)

theorem receiveInner_spec (h : Linked format l) (dest : List Int16) (now : UInt64)
    (first second : ReadOutcome) :
    Meets (Receiver.receiveInner dest now first second l)
      (fun result l' => Receives format l l' dest result)
      (fun e l' => Keeps l l' ∧
        (e ∈ harmless ∨ (e = Receiver.gapError ∧ ¬ Announced 0 l.sent))) := by
  unfold Receiver.receiveInner
  rcases check_spec now l.receiver.channel with ⟨e, hcheck, he⟩ | ⟨hcheck, hopen⟩
  · rw [bind_run_error (onReceiver_run hcheck), meets_error]
    refine ⟨⟨rfl, rfl, rfl, rfl, rfl⟩, .inl ?_⟩
    rcases he with rfl | rfl <;> simp [harmless]
  · rw [meets_bind_ok (onReceiver_run hcheck), meets_get_bind]
    generalize hl : ({ l with receiver := { l.receiver with
      channel := { l.receiver.channel with lastNow := now.toNat } } } : Link) = l₁
    have hkeeps : Keeps l l₁ := by
      rw [← hl]
      exact ⟨rfl, rfl, rfl, rfl, rfl⟩
    have hopen₁ : l₁.receiver.channel.closed = false := by
      rw [← hl]
      exact hopen
    have hlinked : Linked format l₁ := by
      rw [← hl]
      refine h.receiver_step ⟨rfl, rfl, rfl, rfl, rfl⟩ ?_
      intro _
      obtain ⟨rest, hsent, hflow⟩ := h.flow hopen
      exact ⟨rest, hsent, hflow.bytes_eq, hflow.held_le, hflow.offset_le, hflow.length_eq⟩
    by_cases hshort : dest.length < blockFrames * l₁.receiver.channel.format.channels
    · rw [if_pos hshort]
      exact ⟨hkeeps, .inl (by simp [harmless])⟩
    · rw [if_neg hshort]
      have hturns : ∀ {l₂ : Link}, Keeps l₁ l₂ → Reading format l₂ →
          Meets (Receiver.turns now dest [first, second] l₂)
            (fun result l' => Receives format l l' dest result)
            (fun e l' => Keeps l l' ∧
              (e ∈ harmless ∨ (e = Receiver.gapError ∧ ¬ Announced 0 l.sent))) := by
        intro l₂ hk hr
        have hall := hkeeps.trans hk
        apply (turns_spec now dest [first, second] hr (.inr (List.cons_ne_nil _ _))).mono
        · intro result l₃ hq
          refine ⟨hq.linked, hopen, hq.opened, hq.sender_eq.trans hall.sender_eq,
            hq.sent_eq.trans hall.sent_eq, hq.waits, ?_⟩
          rw [← hall.received_eq]
          exact hq.handed
        · rintro e l₃ ⟨hk₃, he⟩
          refine ⟨hall.trans hk₃, ?_⟩
          rw [← hall.sent_eq]
          exact he
      by_cases hidle : l₁.receiver.channel.length = 0
      · rw [if_pos hidle, meets_modify_bind]
        have hoffset : l₁.receiver.channel.offset = 0 := by
          obtain ⟨rest, _, hflow⟩ := hlinked.flow hopen₁
          have hle := hflow.offset_le
          omega
        have hexpect : Keeps l₁ (Receiver.expect headerBytes l₁) := ⟨rfl, rfl, rfl, rfl, rfl⟩
        apply hturns hexpect
        refine ⟨hlinked.receiver_step ⟨rfl, rfl, rfl, rfl, rfl⟩ ?_, hopen₁, Nat.succ_ne_zero _⟩
        intro _
        obtain ⟨rest, hsent, hflow⟩ := hlinked.flow hopen₁
        refine ⟨rest, hsent, hflow.bytes_eq, hflow.held_le, ?_, .inr (.inl rfl)⟩
        change l₁.receiver.channel.offset ≤ headerBytes
        omega
      · rw [if_neg hidle]
        exact hturns (Keeps.refl l₁) ⟨hlinked, hopen₁, hidle⟩

theorem receive_spec (h : Linked format l) (dest : List Int16) (now : UInt64)
    (first second : ReadOutcome) :
    Meets (Receiver.receive dest now first second l)
      (fun result l' => Receives format l l' dest result)
      (fun e l' => Fails format l l' e) := by
  have hinner := receiveInner_spec h dest now first second
  unfold Receiver.receive
  rcases hr : Receiver.receiveInner dest now first second l with ⟨e | result, l₁⟩
  · rw [hr, meets_error] at hinner
    obtain ⟨hk, he⟩ := hinner
    refine ⟨h.receiver_step ⟨hk.sender_eq, hk.sent_eq, hk.received_eq, hk.next_eq, hk.format_eq⟩ ?_,
      rfl, hk.sender_eq, hk.sent_eq, hk.received_eq, he⟩
    intro hopen
    cases hopen
  · rw [hr, meets_ok] at hinner
    exact hinner

end Links

end PcmIpcFraming
