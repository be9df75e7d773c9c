import VirtualGamepad.PcmIpcFraming

/-! The receiving end against an arbitrary byte stream: what it hands out is what the stream
encodes, byte for byte. -/
namespace PcmIpcParsing

open Fallible MachineInt WireBytes PcmIpc PcmIpcFraming

section Bytes

variable {format : Format} {block : Block} {bytes : List UInt8}

theorem flag_of_le_one {b : UInt8} (h : ¬ 1 < b) : flag (decide (b = 1)) = b := by
  have hn : ¬ 1 < b.toNat := h
  have hb : b = UInt8.ofNat b.toNat := UInt8.ofNat_toNat.symm
  have hcases : b.toNat = 0 ∨ b.toNat = 1 := by omega
  rcases hcases with hz | ho
  · rw [hz] at hb
    rw [hb]
    decide
  · rw [ho] at hb
    rw [hb]
    decide

/-- The fields of forty bytes are all of them. -/
theorem fields_eq (h : bytes.length = headerBytes) :
    bytes = slice bytes 0 4 ++ slice bytes 4 2 ++ slice bytes 6 1 ++ slice bytes 7 1 ++
      slice bytes 8 8 ++ slice bytes 16 8 ++ slice bytes 24 4 ++ slice bytes 28 1 ++
      slice bytes 29 3 ++ slice bytes 32 8 := by
  have hall : slice bytes 0 40 = bytes := List.take_of_length_le h.le
  rw [slice_add bytes 0 4 2, slice_add bytes 0 6 1, slice_add bytes 0 7 1, slice_add bytes 0 8 8,
    slice_add bytes 0 16 8, slice_add bytes 0 24 4, slice_add bytes 0 28 1, slice_add bytes 0 29 3,
    slice_add bytes 0 32 8, hall]

theorem slice_one (h : 28 < bytes.length) : slice bytes 28 1 = [bytes.getD 28 0] := by
  unfold slice
  rw [List.drop_eq_getElem_cons h, List.getD_eq_getElem?_getD,
    List.getElem?_eq_getElem h]
  rfl

theorem length_slice {offset n : ℕ} (h : offset + n ≤ bytes.length) :
    (slice bytes offset n).length = n := by
  unfold slice
  rw [List.length_take, List.length_drop]
  omega

theorem bytesLe_slice {offset n : ℕ} (h : offset + n ≤ bytes.length) :
    bytesLe n (ofBytesLe (slice bytes offset n)) = slice bytes offset n := by
  have hback := bytesLe_ofBytesLe (slice bytes offset n)
  rw [length_slice h] at hback
  exact hback

/-- A header that is accepted is the header of its block. -/
theorem decode_ok (hlen : bytes.length = headerBytes) (h : decode format bytes = .ok block) :
    bytes = header format block ∧ block.frames ≠ 0 ∧ block.frames ≤ blockFrames ∧
      block.firstFrame + block.frames ≤ u64Max := by
  unfold decode at h
  by_cases hfields : bytes.length < headerBytes ∨ slice bytes 0 4 ≠ magic ∨
      slice bytes 4 2 ≠ [1, 0] ∨ slice bytes 6 1 ≠ [format.tag] ∨
      slice bytes 7 1 ≠ [directionByte format] ∨
      slice bytes 8 8 ≠ bytesLe 8 format.generation ∨ 1 < bytes.getD 28 0 ∨
      slice bytes 29 3 ≠ [0, 0, 0]
  · rw [if_pos hfields] at h
    cases h
  · rw [if_neg hfields] at h
    simp only [not_or, not_not] at hfields
    obtain ⟨_, hmagic, hversion, htag, hdirection, hgeneration, hflag, hreserved⟩ := hfields
    by_cases hbounds : ¬(1 ≤ ofBytesLe (slice bytes 24 4) ∧
        ofBytesLe (slice bytes 24 4) ≤ blockFrames) ∨
        checkedAdd (ofBytesLe (slice bytes 16 8)) (ofBytesLe (slice bytes 24 4)) = none
    · dsimp only at h
      rw [if_pos hbounds] at h
      cases h
    · dsimp only at h
      rw [if_neg hbounds] at h
      rw [not_or, not_not] at hbounds
      obtain ⟨⟨hpos, hsmall⟩, hadd⟩ := hbounds
      obtain rfl := Except.ok.inj h
      have hlen40 : bytes.length = 40 := hlen
      refine ⟨?_, Nat.one_le_iff_ne_zero.mp hpos, hsmall, ?_⟩
      · have hclock : (UInt64.ofNat (ofBytesLe (slice bytes 32 8))).toNat =
            ofBytesLe (slice bytes 32 8) := by
          apply UInt64.toNat_ofNat_of_lt'
          have hlt := ofBytesLe_lt (slice bytes 32 8)
          rw [length_slice (by omega)] at hlt
          exact hlt
        conv_lhs => rw [fields_eq hlen, hmagic, hversion, htag, hdirection, hgeneration, hreserved,
          slice_one (by omega)]
        unfold header
        dsimp only
        rw [hclock, bytesLe_slice (by omega), bytesLe_slice (by omega), bytesLe_slice (by omega),
          flag_of_le_one hflag]
        simp only [List.append_assoc, List.cons_append, List.nil_append]
      · obtain ⟨sum, hsum⟩ := Option.ne_none_iff_exists'.mp hadd
        exact (checkedAdd_eq_some.mp hsum).2

/-- An even number of bytes is a list of samples. -/
theorem flatMap_samplesOf (bytes : List UInt8) (n : ℕ) (h : bytes.length = n * 2) :
    (samplesOf bytes).flatMap sampleBytes = bytes ∧ (samplesOf bytes).length = n := by
  induction n generalizing bytes with
  | zero =>
    obtain rfl := List.eq_nil_of_length_eq_zero (h.trans (Nat.zero_mul 2))
    exact ⟨rfl, rfl⟩
  | succ n ih =>
    match bytes, h with
    | [], h => exact absurd h (by simp)
    | [_], h =>
      rw [List.length_singleton] at h
      omega
    | lo :: hi :: rest, h =>
      have hrest : rest.length = n * 2 := by
        simp only [List.length_cons] at h
        omega
      obtain ⟨hback, hlength⟩ := ih rest hrest
      have hword : sampleBytes (UInt16.ofNat (ofBytesLe [lo, hi])).toInt16 = [lo, hi] := by
        have hlt : ofBytesLe [lo, hi] < 256 ^ 2 := ofBytesLe_lt [lo, hi]
        have hnat : (UInt16.ofNat (ofBytesLe [lo, hi])).toNat = ofBytesLe [lo, hi] :=
          UInt16.toNat_ofNat_of_lt hlt
        change bytesLe 2 (UInt16.ofNat (ofBytesLe [lo, hi])).toNat = [lo, hi]
        rw [hnat]
        exact bytesLe_ofBytesLe [lo, hi]
      constructor
      · change sampleBytes (UInt16.ofNat (ofBytesLe [lo, hi])).toInt16 ++
          (samplesOf rest).flatMap sampleBytes = lo :: hi :: rest
        rw [hword, hback]
        rfl
      · exact congrArg (· + 1) hlength

end Bytes

section Streams

variable {format : Format} {stream : List UInt8} {l l' : Link}

/-- What an open receiver waits for: nothing yet, a header, or the body of a block it knows. -/
inductive Expects (format : Format) (c : Channel) : Prop where
  | idle : c.length = 0 → c.offset = 0 → Expects format c
  | header : c.length = headerBytes → c.offset ≤ c.length → Expects format c
  | body (block : Block) : decode format (c.bytes.take headerBytes) = .ok block →
      headerBytes ≤ c.offset → c.length = headerBytes + block.frames * format.channels * 2 →
      c.offset ≤ c.length → Expects format c

/-- An open receiver has handed out what the stream encodes so far. -/
structure Open (format : Format) (stream : List UInt8) (l : Link) : Prop where
  opened : l.receiver.channel.closed = false
  stream_eq : stream = l.received.flatMap (encoded format) ++ held l ++ l.wire
  held_le : l.receiver.channel.offset ≤ l.receiver.channel.bytes.length
  expects : Expects format l.receiver.channel

structure Parsed (format : Format) (l : Link) : Prop where
  format_eq : l.receiver.channel.format = format
  valid : ∀ p ∈ l.received, Valid format p
  announced : Announced 0 l.received
  next_eq : l.receiver.nextFrame = ends 0 l.received

theorem Expects.offset_le {c : Channel} (h : Expects format c) : c.offset ≤ c.length := by
  cases h with
  | idle hlength hoffset => omega
  | header _ hle => exact hle
  | body _ _ _ _ hle => exact hle

/-- What is expected stays so while bytes arrive. -/
theorem Expects.more {c c' : Channel} (h : Expects format c) (hbegun : c.length ≠ 0)
    (hlength : c'.length = c.length) (hgrow : c.offset ≤ c'.offset) (hle : c'.offset ≤ c.length)
    (hbytes : c'.bytes.take c.offset = c.bytes.take c.offset) : Expects format c' := by
  rcases h with ⟨hzero, _⟩ | ⟨hheader, _⟩ | ⟨block, hdecode, hfull, hbody, _⟩
  · exact absurd hzero hbegun
  · exact .header (hlength.trans hheader) (hlength ▸ hle)
  · refine .body block ?_ (hfull.trans hgrow) (hlength.trans hbody) (hlength ▸ hle)
    have hsame : c'.bytes.take headerBytes = c.bytes.take headerBytes := by
      have hcut := congrArg (List.take headerBytes) hbytes
      rw [List.take_take, List.take_take, Nat.min_eq_left hfull] at hcut
      exact hcut
    rw [hsame]
    exact hdecode

theorem Parsed.congr (h : Parsed format l) (hk : Keeps l l') : Parsed format l' := by
  refine ⟨hk.format_eq.trans h.format_eq, ?_, ?_, ?_⟩
  · rw [hk.received_eq]
    exact h.valid
  · rw [hk.received_eq]
    exact h.announced
  · rw [hk.next_eq, hk.received_eq]
    exact h.next_eq

theorem Open.filled {read : ReadOutcome} {full : Bool} (h : Open format stream l)
    (hbegun : l.receiver.channel.length ≠ 0) (hf : Filled read l full l') : Open format stream l' := by
  obtain ⟨chunk, hwire, hheld, hoffset, _⟩ := hf.piece
  refine ⟨hf.closed_eq.trans h.opened, ?_, hf.held_le, ?_⟩
  · calc stream = l.received.flatMap (encoded format) ++ held l ++ (chunk ++ l'.wire) := by
          rw [h.stream_eq, hwire]
      _ = l.received.flatMap (encoded format) ++ (held l ++ chunk) ++ l'.wire := by
          simp only [List.append_assoc]
      _ = l'.received.flatMap (encoded format) ++ held l' ++ l'.wire := by
          rw [hheld, hf.keeps.received_eq]
  · apply h.expects.more hbegun hf.length_eq
    · rw [hoffset]
      exact Nat.le_add_right _ _
    · rw [← hf.length_eq]
      exact hf.offset_le
    · have hcut := congrArg (List.take l.receiver.channel.offset) hheld
      unfold held at hcut
      rw [List.take_take, Nat.min_eq_left (by omega), List.take_append_of_le_length, List.take_take,
        Nat.min_self] at hcut
      · exact hcut
      · rw [List.length_take, Nat.min_eq_left h.held_le]

theorem Open.header_le (h : Open format stream l) (hbegun : l.receiver.channel.length ≠ 0)
    (hoffset : l.receiver.channel.offset = l.receiver.channel.length) :
    headerBytes ≤ l.receiver.channel.offset := by
  rcases h.expects with ⟨hzero, _⟩ | ⟨hheader, _⟩ | ⟨_, _, hfull, _, _⟩
  · exact absurd hzero hbegun
  · rw [hoffset, hheader]
  · exact hfull

/-- With a header held, the receiver turns to the body behind it. -/
theorem Open.expect {block : Block} (h : Open format stream l)
    (hdecode : decode format (l.receiver.channel.bytes.take headerBytes) = .ok block)
    (hheader : headerBytes ≤ l.receiver.channel.offset)
    (hle : l.receiver.channel.offset ≤ headerBytes + block.frames * format.channels * 2) :
    Open format stream (Receiver.expect (headerBytes + block.frames * format.channels * 2) l) :=
  ⟨h.opened, h.stream_eq, h.held_le, .body block hdecode hheader rfl hle⟩

theorem Open.block_length {block : Block} (h : Open format stream l)
    (hbegun : l.receiver.channel.length ≠ 0)
    (hoffset : l.receiver.channel.offset = l.receiver.channel.length)
    (hdecode : decode format (l.receiver.channel.bytes.take headerBytes) = .ok block)
    (hmore : ¬ l.receiver.channel.offset < headerBytes + block.frames * format.channels * 2) :
    l.receiver.channel.length = headerBytes + block.frames * format.channels * 2 := by
  rcases h.expects with ⟨hzero, _⟩ | ⟨hheader, _⟩ | ⟨block', hdecode', _, hbody, _⟩
  · exact absurd hzero hbegun
  · omega
  · rw [hdecode] at hdecode'
    obtain rfl := Except.ok.inj hdecode'
    exact hbody

/-- What a call on an open receiver comes to when it does not fail. -/
structure Takes (format : Format) (stream : List UInt8) (dest : List Int16) (l l' : Link)
    (result : Option Block × List Int16) : Prop where
  opened : Open format stream l'
  parsed : Parsed format l'
  waits : l'.receiver.channel.offset < l'.receiver.channel.length ∨
    (l'.receiver.channel.offset = 0 ∧ l'.receiver.channel.length = 0)
  wire_le : l'.wire.length ≤ l.wire.length
  handed : (result = (none, dest) ∧ l'.received = l.received) ∨
    ∃ p, result = (some p.block, p.samples ++ dest.drop p.samples.length) ∧
      l'.received = l.received ++ [p]

/-- The block whose header and body are held. -/
def heldPacket (block : Block) (l : Link) : Packet :=
  ⟨block, samplesOf (slice l.receiver.channel.bytes headerBytes
    (l.receiver.channel.length - headerBytes))⟩

theorem heldPacket_spec {block : Block} (h : Open format stream l)
    (hdecode : decode format (l.receiver.channel.bytes.take headerBytes) = .ok block)
    (hlength : l.receiver.channel.length = headerBytes + block.frames * format.channels * 2)
    (hoffset : l.receiver.channel.offset = l.receiver.channel.length) :
    Valid format (heldPacket block l) ∧ held l = encoded format (heldPacket block l) := by
  have hheldlen : (held l).length = l.receiver.channel.length := by
    unfold held
    rw [List.length_take, Nat.min_eq_left h.held_le, hoffset]
  have hhead : (l.receiver.channel.bytes.take headerBytes).length = headerBytes := by
    have hle := h.held_le
    rw [List.length_take]
    omega
  obtain ⟨hheader, hpos, hsmall, hposition⟩ := decode_ok hhead hdecode
  have hbody : slice l.receiver.channel.bytes headerBytes
      (l.receiver.channel.length - headerBytes) = (held l).drop headerBytes := by
    unfold slice held
    rw [← List.drop_take, hoffset]
  have hsize : ((held l).drop headerBytes).length = block.frames * format.channels * 2 := by
    rw [List.length_drop, hheldlen]
    omega
  obtain ⟨hback, hcount⟩ := flatMap_samplesOf _ _ hsize
  unfold heldPacket
  rw [hbody]
  refine ⟨⟨hpos, hsmall, hcount, hposition⟩, ?_⟩
  have hfront : (held l).take headerBytes = header format block := by
    unfold held
    rw [List.take_take, Nat.min_eq_left (by omega), hheader]
  calc held l = (held l).take headerBytes ++ (held l).drop headerBytes :=
        (List.take_append_drop _ _).symm
    _ = header format block ++ (samplesOf ((held l).drop headerBytes)).flatMap sampleBytes := by
        rw [hfront, hback]

theorem Open.accept {p : Packet} (h : Open format stream l) (hheld : held l = encoded format p) :
    Open format stream (Receiver.accept p l) := by
  refine ⟨h.opened, ?_, Nat.zero_le _, .idle rfl rfl⟩
  change stream = (l.received ++ [p]).flatMap (encoded format) ++ l.receiver.channel.bytes.take 0 ++
    l.wire
  rw [h.stream_eq, hheld, List.flatMap_append, List.flatMap_singleton, List.take_zero,
    List.append_nil]

theorem Parsed.accept {p : Packet} (h : Parsed format l) (hp : Valid format p)
    (hgap : ¬(p.block.firstFrame < l.receiver.nextFrame ∨
      (p.block.firstFrame ≠ l.receiver.nextFrame ∧ p.block.discontinuity = false))) :
    Parsed format (Receiver.accept p l) := by
  rw [not_or, not_and, Bool.not_eq_false] at hgap
  refine ⟨h.format_eq, ?_, ?_, ?_⟩
  · intro q hq
    rcases List.mem_append.mp hq with hq | hq
    · exact h.valid q hq
    · rw [List.mem_singleton.mp hq]
      exact hp
  · change Announced 0 (l.received ++ [p])
    rw [announced_append, ← h.next_eq]
    exact ⟨h.announced, ⟨Nat.le_of_not_lt hgap.1, hgap.2⟩, trivial⟩
  · change stop p = ends 0 (l.received ++ [p])
    rw [ends_append]
    rfl

theorem turns_parses (now : UInt64) (dest : List Int16) (reads : List ReadOutcome) :
    ∀ {l : Link}, Open format stream l → Parsed format l → l.receiver.channel.length ≠ 0 →
      (l.receiver.channel.offset < l.receiver.channel.length ∨ reads ≠ []) →
      Meets (Receiver.turns now dest reads l)
        (fun result l' => Takes format stream dest l l' result ∧
          ∀ n rest, reads = .data (n + 1) :: rest →
            l.receiver.channel.offset < l.receiver.channel.length → l.wire ≠ [] →
            l'.wire.length < l.wire.length)
        (fun _ l' => Keeps l l') := by
  induction reads with
  | nil =>
    intro l h hp _ hmore
    have hwaits := hmore.resolve_right (not_not.mpr rfl)
    exact ⟨⟨h, hp, .inl hwaits, le_rfl, .inl ⟨rfl, rfl⟩⟩, fun _ _ hn => by cases hn⟩
  | cons read reads ih =>
    intro l h hp hbegun _
    unfold Receiver.turns
    apply meets_bind ((fill_spec h.held_le h.expects.offset_le now read).mono (fun _ _ hq => hq)
      (fun _ _ he => he.1))
    intro full l₁ hf
    have h₁ := h.filled hbegun hf
    have hp₁ := hp.congr hf.keeps
    have hbegun₁ : l₁.receiver.channel.length ≠ 0 := hf.length_eq ▸ hbegun
    obtain ⟨chunk, hwire, _, _, hchunk⟩ := hf.piece
    have hwire_le : l₁.wire.length ≤ l.wire.length := by
      rw [hwire, List.length_append]
      exact Nat.le_add_left _ _
    have hmoves : ∀ n rest, read :: reads = .data (n + 1) :: rest →
        l.receiver.channel.offset < l.receiver.channel.length → l.wire ≠ [] →
        l₁.wire.length < l.wire.length := by
      intro n rest hn hlt hne
      have hpos := List.length_pos_iff.mpr (hchunk n (List.cons.inj hn).1 hlt hne)
      rw [hwire, List.length_append]
      omega
    cases full with
    | false =>
      have hpart := Nat.lt_of_not_le (of_decide_eq_false hf.full_eq.symm)
      exact ⟨⟨h₁, hp₁, .inl hpart, hwire_le, .inl ⟨rfl, hf.keeps.received_eq⟩⟩, hmoves⟩
    | true =>
      have hoffset := Nat.le_antisymm hf.offset_le (of_decide_eq_true hf.full_eq.symm)
      rw [if_pos rfl, meets_get_bind]
      cases hdecode : decode l₁.receiver.channel.format
          (l₁.receiver.channel.bytes.take headerBytes) with
      | error e =>
        rw [meets_lift_error_bind]
        exact hf.keeps
      | ok block =>
        rw [meets_lift_ok_bind, meets_modify_bind]
        rw [hp₁.format_eq] at hdecode ⊢
        have hkeeps : Keeps l (Receiver.expect
            (headerBytes + block.frames * format.channels * 2) l₁) :=
          hf.keeps.trans ⟨rfl, rfl, rfl, rfl, rfl⟩
        by_cases hmore : l₁.receiver.channel.offset <
            headerBytes + block.frames * format.channels * 2
        · rw [if_pos hmore]
          have hnext := h₁.expect hdecode (h₁.header_le hbegun₁ hoffset) hmore.le
          have hpnext : Parsed format (Receiver.expect
              (headerBytes + block.frames * format.channels * 2) l₁) := hp.congr hkeeps
          have hrest := ih hnext hpnext (by unfold Receiver.expect headerBytes; dsimp only; omega)
            (.inl hmore)
          apply hrest.mono
          · rintro result l₂ ⟨ht, _⟩
            refine ⟨⟨ht.opened, ht.parsed, ht.waits, ht.wire_le.trans hwire_le, ?_⟩, ?_⟩
            · rw [← hkeeps.received_eq]
              exact ht.handed
            · intro n rest hn hlt hne
              exact Nat.lt_of_le_of_lt ht.wire_le (hmoves n rest hn hlt hne)
          · intro _ _ hk
            exact hkeeps.trans hk
        · rw [if_neg hmore]
          have hexact := h₁.block_length hbegun₁ hoffset hdecode hmore
          have hnext := h₁.expect hdecode (h₁.header_le hbegun₁ hoffset) (hoffset.trans hexact).le
          obtain ⟨hvalid, hheld⟩ := heldPacket_spec hnext hdecode rfl (hoffset.trans hexact)
          by_cases hgap : block.firstFrame < l₁.receiver.nextFrame ∨
              (block.firstFrame ≠ l₁.receiver.nextFrame ∧ block.discontinuity = false)
          · rw [if_pos hgap, meets_fail]
            exact hkeeps
          · rw [if_neg hgap, meets_modify_bind, meets_pure]
            refine ⟨⟨hnext.accept hheld, (hp.congr hkeeps).accept hvalid hgap, .inr ⟨rfl, rfl⟩,
              hwire_le, .inr ⟨heldPacket block (Receiver.expect
                (headerBytes + block.frames * format.channels * 2) l₁), rfl, ?_⟩⟩, hmoves⟩
            change l₁.received ++ [_] = l.received ++ [_]
            rw [hf.keeps.received_eq]
            rfl

/-- Nothing complete is left in the buffer. -/
def Waits (c : Channel) : Prop := c.offset < c.length ∨ (c.offset = 0 ∧ c.length = 0)

/-- The receiving end between two calls, while it is open and after it has failed. -/
structure Listening (format : Format) (stream : List UInt8) (l : Link) : Prop where
  parsed : Parsed format l
  flow : l.receiver.channel.closed = false → Open format stream l ∧ Waits l.receiver.channel

/-- A call that did not fail takes at least a byte when one is there. -/
structure Heard (format : Format) (stream : List UInt8) (dest : List Int16) (first : ReadOutcome)
    (l l' : Link) (result : Option Block × List Int16) : Prop where
  takes : Takes format stream dest l l' result
  moves : ∀ n, first = .data (n + 1) → l.wire ≠ [] → l'.wire.length < l.wire.length

theorem receiveInner_parses (h : Listening format stream l) (dest : List Int16) (now : UInt64)
    (first second : ReadOutcome) :
    Meets (Receiver.receiveInner dest now first second l)
      (fun result l' => Heard format stream dest first l l' result)
      (fun _ l' => Keeps l l') := by
  unfold Receiver.receiveInner
  rcases check_spec now l.receiver.channel with ⟨e, hcheck, _⟩ | ⟨hcheck, hopen⟩
  · rw [bind_run_error (onReceiver_run hcheck), meets_error]
    exact ⟨rfl, rfl, rfl, rfl, rfl⟩
  · rw [meets_bind_ok (onReceiver_run hcheck), meets_get_bind]
    obtain ⟨⟨_, hstream, hheld, hexpects⟩, hwaits⟩ := h.flow hopen
    generalize hl : ({ l with receiver := { l.receiver with
      channel := { l.receiver.channel with lastNow := now.toNat } } } : Link) = l₁
    have hkeeps : Keeps l l₁ := by
      rw [← hl]
      exact ⟨rfl, rfl, rfl, rfl, rfl⟩
    have hwire : l₁.wire = l.wire := by rw [← hl]
    have hwaits₁ : Waits l₁.receiver.channel := by
      rw [← hl]
      exact hwaits
    have hopen₁ : Open format stream l₁ := by
      rw [← hl]
      refine ⟨hopen, hstream, hheld, ?_⟩
      rcases hexpects with ⟨hlength, hoffset⟩ | ⟨hlength, hle⟩ | ⟨block, hdecode, hfull, hbody, hle⟩
      · exact .idle hlength hoffset
      · exact .header hlength hle
      · exact .body block hdecode hfull hbody hle
    by_cases hshort : dest.length < blockFrames * l₁.receiver.channel.format.channels
    · rw [if_pos hshort]
      exact hkeeps
    · rw [if_neg hshort]
      have hturns : ∀ {l₂ : Link}, Keeps l₁ l₂ → l₂.wire = l₁.wire → Open format stream l₂ →
          l₂.receiver.channel.offset < l₂.receiver.channel.length →
          Meets (Receiver.turns now dest [first, second] l₂)
            (fun result l' => Heard format stream dest first l l' result)
            (fun _ l' => Keeps l l') := by
        intro l₂ hk hsame ho hlt
        have hall := hkeeps.trans hk
        apply (turns_parses now dest [first, second] ho (h.parsed.congr hall) (by omega)
          (.inl hlt)).mono
        · rintro result l₃ ⟨ht, hmoves⟩
          refine ⟨⟨ht.opened, ht.parsed, ht.waits, ?_, ?_⟩, ?_⟩
          · rw [← hwire, ← hsame]
            exact ht.wire_le
          · rw [← hall.received_eq]
            exact ht.handed
          · intro n hn hne
            rw [← hwire, ← hsame] at hne ⊢
            exact hmoves n [second] (by rw [hn]) hlt hne
        · intro _ _ hk₃
          exact hall.trans hk₃
      by_cases hidle : l₁.receiver.channel.length = 0
      · rw [if_pos hidle, meets_modify_bind]
        have hoffset : l₁.receiver.channel.offset = 0 := by
          have hle := hopen₁.expects.offset_le
          omega
        have hlt : l₁.receiver.channel.offset < headerBytes := by
          rw [hoffset]
          exact Nat.succ_pos _
        have hheader : Open format stream (Receiver.expect headerBytes l₁) :=
          ⟨hopen₁.opened, hopen₁.stream_eq, hopen₁.held_le, .header rfl hlt.le⟩
        have hexpect : Keeps l₁ (Receiver.expect headerBytes l₁) := ⟨rfl, rfl, rfl, rfl, rfl⟩
        exact hturns hexpect rfl hheader hlt
      · rw [if_neg hidle]
        have hlt := hwaits₁.resolve_right fun hzero => hidle hzero.2
        exact hturns (Keeps.refl l₁) rfl hopen₁ hlt

theorem receive_parses (h : Listening format stream l) (dest : List Int16) (now : UInt64)
    (first second : ReadOutcome) :
    Meets (Receiver.receive dest now first second l)
      (fun result l' => Listening format stream l' ∧ Heard format stream dest first l l' result)
      (fun _ l' => Listening format stream l' ∧ l'.receiver.channel.closed = true ∧
        l'.received = l.received) := by
  have hinner := receiveInner_parses h dest now first second
  unfold Receiver.receive
  rcases hr : Receiver.receiveInner dest now first second l with ⟨e | result, l₁⟩
  · rw [hr, meets_error] at hinner
    refine ⟨⟨h.parsed.congr ⟨hinner.sender_eq, hinner.sent_eq, hinner.received_eq, hinner.next_eq,
      hinner.format_eq⟩, ?_⟩, rfl, hinner.received_eq⟩
    intro hopen
    cases hopen
  · rw [hr, meets_ok] at hinner
    exact ⟨⟨hinner.takes.parsed, fun _ => ⟨hinner.takes.opened, hinner.takes.waits⟩⟩, hinner⟩

/-- A receiver that has failed, or was closed, fails every call. -/
theorem receive_closed (h : l.receiver.channel.closed = true) (dest : List Int16) (now : UInt64)
    (first second : ReadOutcome) :
    Receiver.receive dest now first second l = (.error .brokenPipe, Receiver.close l) := by
  have hcheck : Channel.check now l.receiver.channel = (.error .brokenPipe, l.receiver.channel) := by
    unfold Channel.check
    rw [if_pos h]
  unfold Receiver.receive Receiver.receiveInner
  rw [bind_run_error (onReceiver_run hcheck)]

/-- What the sending end does is more of the stream. -/
theorem Listening.sends (h : Listening format stream l) (hreceiver : l'.receiver = l.receiver)
    (hreceived : l'.received = l.received) :
    Listening format (l'.received.flatMap (encoded format) ++ held l' ++ l'.wire) l' := by
  refine ⟨⟨?_, ?_, ?_, ?_⟩, ?_⟩
  · rw [hreceiver]
    exact h.parsed.format_eq
  · rw [hreceived]
    exact h.parsed.valid
  · rw [hreceived]
    exact h.parsed.announced
  · rw [hreceiver, hreceived]
    exact h.parsed.next_eq
  · rw [hreceiver]
    intro hopen
    obtain ⟨⟨_, _, hheld, hexpects⟩, hwaits⟩ := h.flow hopen
    exact ⟨⟨by rw [hreceiver]; exact hopen, rfl, by rw [hreceiver]; exact hheld,
      by rw [hreceiver]; exact hexpects⟩, hwaits⟩

theorem new_listening (format : Format) : Listening format [] (Link.new format) := by
  refine ⟨⟨rfl, ?_, trivial, rfl⟩, fun _ => ⟨⟨rfl, rfl, Nat.le_refl _, .idle rfl rfl⟩, .inr ⟨rfl, rfl⟩⟩⟩
  intro p hp
  cases hp

/-- Bytes from whoever is at the other end. -/
def feed (bytes : List UInt8) (l : Link) : Link := { l with wire := l.wire ++ bytes }

theorem Listening.feed (h : Listening format stream l) (bytes : List UInt8) :
    Listening format (stream ++ bytes) (feed bytes l) := by
  refine ⟨⟨h.parsed.format_eq, h.parsed.valid, h.parsed.announced, h.parsed.next_eq⟩, ?_⟩
  intro hopen
  obtain ⟨⟨_, hstream, hheld, hexpects⟩, hwaits⟩ := h.flow hopen
  refine ⟨⟨hopen, ?_, hheld, hexpects⟩, hwaits⟩
  rw [hstream]
  exact List.append_assoc _ _ _

end Streams

end PcmIpcParsing
