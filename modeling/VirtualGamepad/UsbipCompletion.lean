import VirtualGamepad.UsbipFrame

/-! The completions that the encoder accepts, and what the host reads out of them. -/
namespace UsbipCompletion

open Fallible WireBytes UsbipFrame

section Allowed

variable {submit : Submit} {status : ℤ} {data : List UInt8} {actual : ℕ} {isoActual : List ℕ}

/-- What USB/IP allows as the answer to a submit. -/
structure Allowed (submit : Submit) (status : ℤ) (data : List UInt8) (actual : ℕ)
    (isoActual : List ℕ) : Prop where
  fits : actual ≤ submit.header.transferBytes
  count : isoActual.length = submit.header.packets
  in_data : submit.header.direction = .in → data.length = actual
  out_data : submit.header.direction = .out → data = []
  /-- A transfer that failed has moved nothing. -/
  failed : status ≠ 0 → actual = 0 ∧ ∀ n ∈ isoActual, n = 0
  lengths : submit.header.packets ≠ 0 →
    List.Forall₂ (fun packet n => n ≤ packet.length) submit.packets isoActual ∧
      isoActual.sum = actual

theorem totalActual_ok {packets : List IsoPacket} {isoActual : List ℕ} {total : ℕ}
    (h : packets.length = isoActual.length) : totalActual packets isoActual = .ok total ↔
      List.Forall₂ (fun packet n => n ≤ packet.length) packets isoActual ∧ isoActual.sum = total := by
  induction packets generalizing isoActual total with
  | nil =>
    obtain rfl := List.eq_nil_of_length_eq_zero h.symm
    simp [totalActual, eq_comm]
  | cons packet packets ih =>
    cases isoActual with
    | nil => cases h
    | cons n isoActual =>
      have hlen : packets.length = isoActual.length := Nat.succ.inj h
      rw [totalActual, List.forall₂_cons, List.sum_cons]
      by_cases hlong : packet.length < n
      · rw [if_pos hlong]
        constructor
        · intro hf
          cases hf
        · rintro ⟨⟨hle, _⟩, _⟩
          omega
      · rw [if_neg hlong]
        constructor
        · intro hmap
          cases hrest : totalActual packets isoActual with
          | error e =>
            rw [hrest] at hmap
            cases hmap
          | ok rest =>
            rw [hrest] at hmap
            obtain ⟨hall, hsum⟩ := (ih hlen).mp hrest
            exact ⟨⟨Nat.le_of_not_lt hlong, hall⟩, hsum ▸ Except.ok.inj hmap⟩
        · rintro ⟨⟨_, hall⟩, hsum⟩
          rw [(ih hlen).mpr ⟨hall, rfl⟩, ← hsum]
          rfl

theorem checkReply_allowed (hpackets : submit.packets.length = submit.header.packets) :
    submit.checkReply status data actual isoActual = .ok () ↔
      Allowed submit status data actual isoActual := by
  unfold Submit.checkReply
  by_cases hbad : submit.header.transferBytes < actual ∨ isoActual.length ≠ submit.header.packets ∨
      (submit.header.direction = .in ∧ data.length ≠ actual) ∨
      (submit.header.direction = .out ∧ data ≠ []) ∨
      (status ≠ 0 ∧ (actual ≠ 0 ∨ isoActual.any (· ≠ 0)))
  · rw [if_pos hbad]
    constructor
    · intro h
      cases h
    · intro h
      rcases hbad with hbad | hbad | ⟨hin, hbad⟩ | ⟨hout, hbad⟩ | ⟨hstatus, hbad⟩
      · exact absurd h.fits (Nat.not_le_of_lt hbad)
      · exact absurd h.count hbad
      · exact absurd (h.in_data hin) hbad
      · exact absurd (h.out_data hout) hbad
      · obtain ⟨hzero, hall⟩ := h.failed hstatus
        rcases hbad with hbad | hbad
        · exact absurd hzero hbad
        · obtain ⟨n, hn, hne⟩ := List.any_eq_true.mp hbad
          exact absurd (hall n hn) (of_decide_eq_true hne)
  · rw [if_neg hbad]
    simp only [not_or, not_and, Nat.not_lt, not_not] at hbad
    obtain ⟨hfits, hcount, hin, hout, hfailed⟩ := hbad
    have hzero : status ≠ 0 → actual = 0 ∧ ∀ n ∈ isoActual, n = 0 := by
      intro hstatus
      obtain ⟨hactual, hany⟩ := hfailed hstatus
      refine ⟨hactual, fun n hn => ?_⟩
      by_contra hne
      exact hany (List.any_eq_true.mpr ⟨n, hn, decide_eq_true hne⟩)
    by_cases hiso : submit.header.packets ≠ 0
    · rw [if_pos hiso]
      have htotal : ∀ {total}, totalActual submit.packets isoActual = .ok total ↔ _ :=
        totalActual_ok (hpackets.trans hcount.symm)
      cases hrun : totalActual submit.packets isoActual with
      | error e =>
        constructor
        · intro h
          cases h
        · intro h
          rw [htotal.mpr (h.lengths hiso)] at hrun
          cases hrun
      | ok total =>
        obtain ⟨hall, hsum⟩ := htotal.mp hrun
        dsimp only
        by_cases hne : total ≠ actual
        · rw [if_pos hne]
          constructor
          · intro h
            cases h
          · intro h
            exact absurd (hsum.symm.trans (h.lengths hiso).2) hne
        · rw [if_neg hne]
          rw [not_not] at hne
          exact iff_of_true rfl ⟨hfits, hcount, hin, hout, hzero, fun _ => ⟨hall, hsum.trans hne⟩⟩
    · rw [if_neg hiso]
      exact iff_of_true rfl ⟨hfits, hcount, hin, hout, hzero, fun h => absurd h hiso⟩

end Allowed

section Parsing

/-- One entry of the packet table of a reply. -/
structure IsoResult where
  offset : ℕ
  length : ℕ
  actual : ℕ
  status : ℤ
  deriving DecidableEq, Repr

/-- What a reply to a submit says. -/
structure Reply where
  sequence : ℕ
  status : ℤ
  actual : ℕ
  startFrame : ℕ
  errors : ℕ
  data : List UInt8
  table : List IsoResult
  deriving DecidableEq, Repr

def signed32 (word : ℕ) : ℤ := if word < 2 ^ 31 then word else word - 2 ^ 32

def parseResult (entry : List UInt8) : IsoResult :=
  ⟨word entry 0, word entry 4, word entry 8, signed32 (word entry 12)⟩

/-- The host's reading of a reply: data follow the header of an IN transfer, then the table. -/
def parseReply (direction : Direction) (bytes : List UInt8) : Option Reply :=
  let actual := word bytes 24
  let dataBytes := if direction = .in then actual else 0
  let packets := word bytes 32
  if bytes.length < headerBytes ∨ word bytes 0 ≠ 3 ∨
      bytes.length ≠ headerBytes + dataBytes + packets * 16 then none
  else some {
    sequence := word bytes 4
    status := signed32 (word bytes 20)
    actual
    startFrame := word bytes 28
    errors := word bytes 36
    data := slice bytes headerBytes dataBytes
    table := (Slab.chunks 16 packets (bytes.drop (headerBytes + dataBytes))).map parseResult }

theorem signed32_bits32 (status : Int32) : signed32 (bits32 status.toInt) = status.toInt := by
  have hlow := status.le_toInt
  have hhigh := status.toInt_lt
  unfold signed32 bits32
  split <;> omega

theorem parseResult_isoReply (status : Int32) {packet : IsoPacket} {n : ℕ}
    (hoffset : packet.offset < 2 ^ 32) (hlength : packet.length < 2 ^ 32) (hn : n ≤ packet.length) :
    parseResult (isoReply status.toInt packet n) =
      ⟨packet.offset, packet.length, n, status.toInt⟩ := by
  have h₀ : word (isoReply status.toInt packet n) 0 = ofBytes (bytes32 packet.offset) := rfl
  have h₄ : word (isoReply status.toInt packet n) 4 = ofBytes (bytes32 packet.length) := rfl
  have h₈ : word (isoReply status.toInt packet n) 8 = ofBytes (bytes32 n) := rfl
  have h₁₂ : word (isoReply status.toInt packet n) 12 = ofBytes (bytes32 (bits32 status.toInt)) := rfl
  unfold parseResult
  rw [h₀, h₄, h₈, h₁₂, ofBytes_bytes32 hoffset, ofBytes_bytes32 hlength,
    ofBytes_bytes32 (Nat.lt_of_le_of_lt hn hlength), ofBytes_bytes32 (bits32_lt _), signed32_bits32]

/-- The table of a reply: the submitted places with what was moved there. -/
def results (status : ℤ) (packets : List IsoPacket) (isoActual : List ℕ) : List IsoResult :=
  List.zipWith (fun packet n => ⟨packet.offset, packet.length, n, status⟩) packets isoActual

theorem parse_table (status : Int32) {packets : List IsoPacket} {isoActual : List ℕ}
    (hbounds : ∀ p ∈ packets, p.offset < 2 ^ 32 ∧ p.length < 2 ^ 32)
    (hall : List.Forall₂ (fun packet n => n ≤ packet.length) packets isoActual) :
    (List.zipWith (isoReply status.toInt) packets isoActual).map parseResult =
      results status.toInt packets isoActual := by
  induction hall with
  | nil => rfl
  | @cons packet n packets isoActual hn _ ih =>
    obtain ⟨hoffset, hlength⟩ := hbounds packet List.mem_cons_self
    unfold results at ih ⊢
    rw [List.zipWith_cons_cons, List.zipWith_cons_cons, List.map_cons,
      parseResult_isoReply status hoffset hlength hn,
      ih fun p hp => hbounds p (List.mem_cons_of_mem _ hp)]

theorem packets_lt (submit : Submit) :
    ∀ p ∈ submit.packets, p.offset < 2 ^ 32 ∧ p.length < 2 ^ 32 := by
  intro p hp
  obtain ⟨entry, _, rfl⟩ := List.mem_map.mp hp
  exact ⟨word_lt entry 0, word_lt entry 4⟩

end Parsing

section Encoding

variable {submit : Submit} {status : ℤ} {data bytes : List UInt8} {actual size offset : ℕ}
  {isoActual : List ℕ}

/-- A word written into the header of a frame. -/
theorem put_word {f : List UInt8} (hf : f.length = size) (hsize : headerBytes ≤ size) {i value : ℕ}
    (hi : i + 4 ≤ headerBytes) (hv : value < 2 ^ 32) :
    (put f i value).length = size ∧ word (put f i value) i = value ∧
      ∀ j, j + 4 ≤ i ∨ i + 4 ≤ j → word (put f i value) j = word f j := by
  refine ⟨?_, word_put_self (by omega) hv, fun j hj => word_put_of_disjoint (by omega) hj⟩
  rw [length_put (by omega), hf]

theorem word_zeros (h : offset + 4 ≤ size) : word (List.replicate size 0) offset = 0 := by
  unfold word slice
  rw [List.drop_replicate, List.take_replicate, Nat.min_eq_left (by omega)]
  rfl

theorem replyHeader_words (hsize : headerBytes + data.length ≤ size)
    (hsequence : submit.header.sequence < 2 ^ 32) (hactual : actual < 2 ^ 32)
    (hstart : submit.header.startFrame < 2 ^ 32) (hpackets : submit.header.packets < 2 ^ 32) :
    (submit.replyHeader size status data actual).length = size ∧
      word (submit.replyHeader size status data actual) 24 = actual ∧
      word (submit.replyHeader size status data actual) 28 = submit.header.startFrame ∧
      word (submit.replyHeader size status data actual) 32 = submit.header.packets ∧
      word (submit.replyHeader size status data actual) 36 =
        if status ≠ 0 then submit.header.packets else 0 := by
  have hlong : headerBytes ≤ size := by omega
  have h48 : headerBytes = 48 := rfl
  unfold Submit.replyHeader
  dsimp only
  have hzero : word (List.replicate size 0) 36 = 0 := word_zeros (by omega)
  have h₀ : (List.replicate size (0 : UInt8)).length = size := List.length_replicate
  generalize List.replicate size (0 : UInt8) = f₀ at h₀ hzero ⊢
  obtain ⟨h₁, _, k₁⟩ := put_word h₀ hlong (show 0 + 4 ≤ headerBytes by omega) (show 3 < 2 ^ 32 by decide)
  generalize put f₀ 0 3 = f₁ at h₁ k₁ ⊢
  obtain ⟨h₂, _, k₂⟩ := put_word h₁ hlong (show 4 + 4 ≤ headerBytes by omega) hsequence
  generalize put f₁ 4 submit.header.sequence = f₂ at h₂ k₂ ⊢
  obtain ⟨h₃, _, k₃⟩ := put_word h₂ hlong (show 20 + 4 ≤ headerBytes by omega) (bits32_lt status)
  generalize put f₂ 20 (bits32 status) = f₃ at h₃ k₃ ⊢
  obtain ⟨h₄, w₄, k₄⟩ := put_word h₃ hlong (show 24 + 4 ≤ headerBytes by omega) hactual
  generalize put f₃ 24 actual = f₄ at h₄ w₄ k₄ ⊢
  obtain ⟨h₅, w₅, k₅⟩ := put_word h₄ hlong (show 28 + 4 ≤ headerBytes by omega) hstart
  generalize put f₄ 28 submit.header.startFrame = f₅ at h₅ w₅ k₅ ⊢
  obtain ⟨h₆, w₆, k₆⟩ := put_word h₅ hlong (show 32 + 4 ≤ headerBytes by omega) hpackets
  generalize put f₅ 32 submit.header.packets = f₆ at h₆ w₆ k₆ ⊢
  obtain ⟨h₇, w₇, k₇⟩ := put_word h₆ hlong (show 36 + 4 ≤ headerBytes by omega) hpackets
  generalize put f₆ 36 submit.header.packets = f₇ at h₇ w₇ k₇ ⊢
  have hdata : ∀ f : List UInt8, f.length = size → (overlay f headerBytes data).length = size ∧
      ∀ j, j + 4 ≤ headerBytes → word (overlay f headerBytes data) j = word f j := by
    intro f hf
    refine ⟨?_, fun j hj => word_overlay_of_disjoint (by omega) (.inl hj)⟩
    rw [length_overlay (by omega), hf]
  by_cases hstatus : status ≠ 0
  · rw [if_pos hstatus, if_pos hstatus]
    obtain ⟨h₈, k₈⟩ := hdata f₇ h₇
    refine ⟨h₈, ?_, ?_, ?_, ?_⟩
    · rw [k₈ 24 (by omega), k₇ 24 (by omega), k₆ 24 (by omega), k₅ 24 (by omega), w₄]
    · rw [k₈ 28 (by omega), k₇ 28 (by omega), k₆ 28 (by omega), w₅]
    · rw [k₈ 32 (by omega), k₇ 32 (by omega), w₆]
    · rw [k₈ 36 (by omega), w₇]
  · rw [if_neg hstatus, if_neg hstatus]
    obtain ⟨h₈, k₈⟩ := hdata f₆ h₆
    refine ⟨h₈, ?_, ?_, ?_, ?_⟩
    · rw [k₈ 24 (by omega), k₆ 24 (by omega), k₅ 24 (by omega), w₄]
    · rw [k₈ 28 (by omega), k₆ 28 (by omega), w₅]
    · rw [k₈ 32 (by omega), w₆]
    · rw [k₈ 36 (by omega), k₆ 36 (by omega), k₅ 36 (by omega), k₄ 36 (by omega),
        k₃ 36 (by omega), k₂ 36 (by omega), k₁ 36 (by omega), hzero]

theorem length_table {packets : List IsoPacket} (h : packets.length = isoActual.length) :
    (∀ entry ∈ List.zipWith (isoReply status) packets isoActual, entry.length = 16) ∧
      (List.zipWith (isoReply status) packets isoActual).flatten.length = isoActual.length * 16 := by
  induction isoActual generalizing packets with
  | nil => simp
  | cons n isoActual ih =>
    cases packets with
    | nil => cases h
    | cons packet packets =>
      obtain ⟨hentries, hlength⟩ := ih (Nat.succ.inj h)
      rw [List.zipWith_cons_cons]
      constructor
      · intro entry hentry
        rcases List.mem_cons.mp hentry with rfl | hentry
        · exact length_isoReply packet n
        · exact hentries entry hentry
      · rw [List.flatten_cons, List.length_append, hlength, length_isoReply, List.length_cons]
        omega

theorem drop_overlay {xs ys : List UInt8} (h : offset + ys.length = xs.length) :
    (overlay xs offset ys).drop offset = ys := by
  have hfront : (xs.take offset).length = offset := by
    rw [List.length_take]
    omega
  unfold overlay
  rw [List.drop_left' hfront, h, List.drop_length, List.append_nil]

/-- What the submit asked for, as the host reads the answer. -/
def replyOf (submit : Submit) (status : ℤ) (data : List UInt8) (actual : ℕ)
    (isoActual : List ℕ) : Reply where
  sequence := submit.header.sequence
  status := status
  actual := actual
  startFrame := submit.header.startFrame
  errors := if status ≠ 0 then submit.header.packets else 0
  data := data
  table := results status submit.packets isoActual

theorem encode_parse {device n : ℕ} {frame : List UInt8} {status : Int32}
    (h : decode frame device = .ok (.submit submit, n))
    (hallowed : Allowed submit status.toInt data actual isoActual) :
    ∃ bytes, submit.encode status.toInt data actual isoActual = .ok bytes ∧
      bytes.length = headerBytes + data.length + submit.header.packets * 16 ∧
      parseReply submit.header.direction bytes =
        some (replyOf submit status.toInt data actual isoActual) := by
  obtain ⟨header, hheader, _, _, rfl, _⟩ := decode_ok h
  have hd := Header.decode_ok hheader
  have hpackets := length_packets h
  have hsequence := hd.sequence_lt
  have hactual : actual < 2 ^ 32 := by
    have hfits := hallowed.fits
    have hmax := hd.transfer_le
    unfold maxTransferBytes at hmax
    omega
  have hcount : submit.header.packets < 2 ^ 32 := by
    have hmax := hd.packets_le
    unfold maxIsoPackets at hmax
    omega
  have hencode : submit.encode status.toInt data actual isoActual = .ok
      (overlay (submit.replyHeader (headerBytes + data.length + submit.header.packets * 16)
        status.toInt data actual) (headerBytes + data.length)
        (List.zipWith (isoReply status.toInt) submit.packets isoActual).flatten) := by
    unfold Submit.encode
    rw [(checkReply_allowed hpackets).mpr hallowed]
  have hdata := encode_data hencode
  have hreplies := encode_replies hsequence hencode
  obtain ⟨hlength, h₂₄, h₂₈, h₃₂, h₃₆⟩ := @replyHeader_words submit status.toInt data actual
    (headerBytes + data.length + submit.header.packets * 16) (Nat.le_add_right _ _)
    hsequence hactual hd.start_lt hcount
  obtain ⟨hentries, htable⟩ := @length_table status.toInt _ _
    (hpackets.trans hallowed.count.symm)
  rw [hallowed.count] at htable
  have hdataBytes : (if submit.header.direction = .in then actual else 0) = data.length := by
    by_cases hin : submit.header.direction = .in
    · rw [if_pos hin, hallowed.in_data hin]
    · have hout : submit.header.direction = .out := by
        cases hdirection : submit.header.direction with
        | out => rfl
        | «in» => exact absurd hdirection hin
      rw [if_neg hin, hallowed.out_data hout]
      rfl
  have hall : List.Forall₂ (fun packet n => n ≤ packet.length) submit.packets isoActual := by
    by_cases hiso : submit.header.packets = 0
    · rw [List.eq_nil_of_length_eq_zero (hpackets.trans hiso),
        List.eq_nil_of_length_eq_zero (hallowed.count.trans hiso)]
      exact .nil
    · exact (hallowed.lengths hiso).1
  have hcounted : (List.zipWith (isoReply status.toInt) submit.packets isoActual).length =
      submit.header.packets := by
    rw [List.length_zipWith, hpackets, hallowed.count, Nat.min_self]
  have hdrop := @drop_overlay (headerBytes + data.length)
    (submit.replyHeader (headerBytes + data.length + submit.header.packets * 16)
      status.toInt data actual) _ (by rw [htable, hlength])
  have hword : ∀ j, j + 4 ≤ headerBytes → word (overlay (submit.replyHeader
      (headerBytes + data.length + submit.header.packets * 16) status.toInt data actual)
      (headerBytes + data.length)
      (List.zipWith (isoReply status.toInt) submit.packets isoActual).flatten) j = word
      (submit.replyHeader (headerBytes + data.length + submit.header.packets * 16)
        status.toInt data actual) j :=
    fun j hj => word_overlay_of_disjoint (by rw [htable, hlength]) (by omega)
  have hsize := hreplies.length_eq
  have htotal : (overlay (submit.replyHeader
      (headerBytes + data.length + submit.header.packets * 16) status.toInt data actual)
      (headerBytes + data.length)
      (List.zipWith (isoReply status.toInt) submit.packets isoActual).flatten).length =
      headerBytes + data.length + submit.header.packets * 16 := by
    rw [length_overlay (by rw [htable, hlength]), hlength]
  refine ⟨_, hencode, htotal, ?_⟩
  generalize overlay (submit.replyHeader
      (headerBytes + data.length + submit.header.packets * 16) status.toInt data actual)
      (headerBytes + data.length)
      (List.zipWith (isoReply status.toInt) submit.packets isoActual).flatten = bytes
    at hdata hreplies hdrop hword htotal
  have h48 : headerBytes = 48 := rfl
  unfold parseReply
  dsimp only
  rw [hword 24 (by omega), h₂₄, hdataBytes, hword 32 (by omega), h₃₂, hreplies.command_eq,
    if_neg (by rw [htotal]; omega), hreplies.sequence_eq, hreplies.status_eq, hword 28 (by omega),
    h₂₈, hword 36 (by omega), h₃₆, hdata, hdrop, signed32_bits32]
  have hchunks := Slab.chunks_flatten _ hentries []
  rw [List.append_nil, hcounted] at hchunks
  rw [hchunks, parse_table status (packets_lt submit) hall]
  rfl

/-- What a completion does, for one submit, one answer and one destination. -/
structure CompletesExactly (submit : Submit) (status : Int32) (data : List UInt8) (actual : ℕ)
    (isoActual : List ℕ) (destination : List UInt8) : Prop where
  succeeds : (∃ size written, submit.complete status.toInt data actual isoActual destination =
      (.ok size, written)) ↔ Allowed submit status.toInt data actual isoActual ∧
        headerBytes + data.length + submit.header.packets * 16 ≤ destination.length
  written : ∀ size written, submit.complete status.toInt data actual isoActual destination =
      (.ok size, written) → size = headerBytes + data.length + submit.header.packets * 16 ∧
        written.length = destination.length ∧ written.drop size = destination.drop size ∧
        parseReply submit.header.direction (written.take size) =
          some (replyOf submit status.toInt data actual isoActual)
  untouched : ∀ e written, submit.complete status.toInt data actual isoActual destination =
      (.error e, written) → written = destination
  /-- The packets that the lengths are about lie apart inside the buffer. -/
  placed : (∀ p ∈ submit.packets, p.offset + p.length ≤ submit.header.transferBytes) ∧
    submit.packets.Pairwise fun p q => p.offset + p.length ≤ q.offset

theorem complete_exact {frame : List UInt8} {device n : ℕ}
    (h : decode frame device = .ok (.submit submit, n)) (status : Int32) (data : List UInt8)
    (actual : ℕ) (isoActual : List ℕ) (destination : List UInt8) :
    CompletesExactly submit status data actual isoActual destination := by
  have hpackets := length_packets h
  have hplaced : (∀ p ∈ submit.packets, p.offset + p.length ≤ submit.header.transferBytes) ∧
      submit.packets.Pairwise fun p q => p.offset + p.length ≤ q.offset := by
    obtain ⟨_, _, _, _, rfl, _, _, _, hcheck⟩ := decode_ok h
    obtain ⟨hin, hpair⟩ := checkPackets_ok hcheck
    exact ⟨fun p hp => (hin p hp).2, hpair⟩
  by_cases hallowed : Allowed submit status.toInt data actual isoActual
  · obtain ⟨bytes, hencode, hlength, hparse⟩ := encode_parse h hallowed
    have hrun : submit.complete status.toInt data actual isoActual destination =
        if destination.length < bytes.length then (.error .incomplete, destination)
        else (.ok bytes.length, bytes ++ destination.drop bytes.length) := by
      unfold Submit.complete
      rw [hencode]
      change (if destination.length < bytes.length then fail .incomplete else do
        modify fun destination => bytes ++ destination.drop bytes.length
        pure bytes.length : Action Error (List UInt8) ℕ) destination = _
      split <;> rfl
    by_cases hroom : destination.length < bytes.length
    · rw [if_pos hroom] at hrun
      refine ⟨iff_of_false ?_ ?_, ?_, ?_, hplaced⟩
      · rintro ⟨_, _, hok⟩
        rw [hrun] at hok
        cases (Prod.mk.inj hok).1
      · rintro ⟨_, hfit⟩
        omega
      · intro _ _ hok
        rw [hrun] at hok
        cases (Prod.mk.inj hok).1
      · intro _ _ herror
        rw [hrun] at herror
        exact (Prod.mk.inj herror).2.symm
    · rw [if_neg hroom] at hrun
      refine ⟨iff_of_true ⟨_, _, hrun⟩ ⟨hallowed, by omega⟩, ?_, ?_, hplaced⟩
      · intro _ _ hok
        rw [hrun] at hok
        obtain ⟨hsize, rfl⟩ := Prod.mk.inj hok
        obtain rfl := Except.ok.inj hsize
        refine ⟨hlength, ?_, List.drop_left, ?_⟩
        · rw [List.length_append, List.length_drop]
          omega
        · rw [List.take_left]
          exact hparse
      · intro _ _ herror
        rw [hrun] at herror
        cases (Prod.mk.inj herror).1
  · have hcheck : submit.checkReply status.toInt data actual isoActual ≠ .ok () :=
      fun hok => hallowed ((checkReply_allowed hpackets).mp hok)
    obtain ⟨e, he⟩ : ∃ e, submit.checkReply status.toInt data actual isoActual = .error e := by
      cases hr : submit.checkReply status.toInt data actual isoActual with
      | error e => exact ⟨e, rfl⟩
      | ok _ => exact absurd hr hcheck
    have hrun : submit.complete status.toInt data actual isoActual destination =
        (.error e, destination) := by
      unfold Submit.complete Submit.encode
      rw [he]
      rfl
    refine ⟨iff_of_false ?_ fun hall => hallowed hall.1, ?_, ?_, hplaced⟩
    · rintro ⟨_, _, hok⟩
      rw [hrun] at hok
      cases (Prod.mk.inj hok).1
    · intro _ _ hok
      rw [hrun] at hok
      cases (Prod.mk.inj hok).1
    · intro _ _ herror
      rw [hrun] at herror
      exact (Prod.mk.inj herror).2.symm

/-- A four-byte IN transfer on the first endpoint of device 5. -/
def fourBytes : Submit := ⟨⟨7, 5, 1, .in, 0, 4, 0, 0, List.replicate 8 0, 0, none⟩, [], []⟩

def fourBytesFrame : List UInt8 :=
  bytes32 1 ++ bytes32 7 ++ bytes32 5 ++ bytes32 1 ++ bytes32 1 ++ bytes32 0 ++ bytes32 4 ++
    List.replicate 20 0

theorem complete_exact_four_bytes :
    CompletesExactly fourBytes 0 [1, 2, 3, 4] 4 [] (List.replicate 64 9) :=
  @complete_exact fourBytes fourBytesFrame 5 48 (by decide +kernel) 0 [1, 2, 3, 4] 4 []
    (List.replicate 64 9)

/-- A failed transfer cannot bring data along, although they would fit. -/
theorem failed_transfer_with_data_refused :
    decode fourBytesFrame 5 = .ok (.submit fourBytes, 48) ∧ 4 ≤ fourBytes.header.transferBytes ∧
      fourBytes.header.direction = .in ∧ fourBytes.header.packets = 0 ∧
      (fourBytes.complete (-32) [1, 2, 3, 4] 4 [] (List.replicate 64 9)).1 = .error .replyLength :=
  ⟨by decide +kernel, by decide, rfl, rfl, by decide +kernel⟩

end Encoding

end UsbipCompletion
