import VirtualGamepad.UsbipWorkerTrace

/-! Isochronous transfers stay inside their buffers: no packet table, transfer buffer or clock is
overrun, in any state the parts of the main loop can lead to. -/
namespace UsbipWorkerBounds

open Fallible MachineInt Runs WireBytes UsbipFrame UsbipPending UsbipControl UsbipWorker
open UsbipWorkerLedger UsbipWorkerTrace

section Packets

variable {transferBytes b i : ℕ} {packets : List IsoPacket} {p : IsoPacket}

/-- The data of one captured packet. -/
def packetBytes (channels : ℕ) : ℕ := 48 * channels * 2

/-- Packets of at least `b` bytes before a packet push it to the right by as much. -/
theorem checkPackets_room {previousEnd : ℕ}
    (h : checkPackets transferBytes previousEnd packets = .ok ()) (hp : packets[i]? = some p)
    (hlong : ∀ q ∈ packets.take i, b ≤ q.length) :
    previousEnd + i * b ≤ p.offset ∧ p.offset + p.length ≤ transferBytes := by
  induction packets generalizing previousEnd i with
  | nil => cases hp
  | cons packet packets ih =>
    rw [checkPackets] at h
    split at h
    · cases h
    · split at h
      · cases h
      · next hroom =>
        rw [not_or, Nat.not_lt, Nat.not_lt] at hroom
        cases i with
        | zero =>
          obtain rfl := Option.some.inj hp
          exact ⟨by omega, hroom.2⟩
        | succ i =>
          rw [List.take_succ_cons] at hlong
          obtain ⟨hle, hin⟩ := ih h hp fun q hq => hlong q (List.mem_cons_of_mem _ hq)
          have hfirst : b ≤ packet.length := hlong packet List.mem_cons_self
          refine ⟨?_, hin⟩
          rw [Nat.succ_mul]
          omega

variable {bytes : List UInt8} {device n : ℕ} {submit : Submit}

theorem packets_room (h : decode bytes device = .ok (.submit submit, n))
    (hp : submit.packets[i]? = some p) (hlong : ∀ q ∈ submit.packets.take i, b ≤ q.length) :
    i * b ≤ p.offset ∧ p.offset + p.length ≤ submit.header.transferBytes ∧
      submit.header.transferBytes ≤ maxTransferBytes := by
  obtain ⟨header, hh, _, _, hs, _, _, _, hcheck⟩ := decode_ok h
  obtain ⟨hle, hin⟩ := checkPackets_room hcheck hp hlong
  rw [Nat.zero_add] at hle
  rw [hs]
  exact ⟨hle, hin, (Header.decode_ok hh).transfer_le⟩

end Packets

section Pace

variable {H K : Type} {device : ℕ} {profile : Profile} {s : Slot}

/-- A transfer is ready no sooner than its packets are due, and every packet captured so far was
long enough for its data. -/
structure Paced (device : ℕ) (profile : Profile) (s : Slot) : Prop where
  ready : s.capturePackets * 1000 ≤ s.ready
  long : ∀ submit n, decode s.bytes device = .ok (.submit submit, n) →
    ∀ q ∈ submit.packets.take s.captured, packetBytes profile.microphoneChannels ≤ q.length

def AllPaced (w : Worker H K) : Prop := ∀ s ∈ w.live, Paced w.device w.profile s

/-- The slots, and what they are about, are as they were. -/
structure Still (w w' : Worker H K) : Prop where
  slots : w'.slots = w.slots
  device : w'.device = w.device
  profile : w'.profile = w.profile

variable {w w' : Worker H K}

theorem Still.refl (w : Worker H K) : Still w w := ⟨rfl, rfl, rfl⟩

theorem Still.trans {w'' : Worker H K} (h : Still w w') (h' : Still w' w'') : Still w w'' :=
  ⟨h'.slots.trans h.slots, h'.device.trans h.device, h'.profile.trans h.profile⟩

theorem AllPaced.still (h : AllPaced w) (hs : Still w w') : AllPaced w' := by
  intro s hlive
  rw [hs.device, hs.profile]
  unfold Worker.live at hlive
  rw [hs.slots] at hlive
  exact h s hlive

/-- An error that is not a panic. -/
def Orderly (e : Failure) (_ : Worker H K) : Prop := e ≠ .panic

theorem orderly_error {debug : String} : error debug ≠ .panic := by
  intro h
  cases h

theorem orderly_io {e : UsbipCompletionQueue.IoError} : Failure.io e ≠ .panic := by
  intro h
  cases h

end Pace

section Quiet

variable {H K : Type} {w : Worker H K} {now : ℕ}

theorem onPending_quiet {α : Type} (call : Action PendingError Pending α) :
    Meets (onPending call w) (fun _ => Still w) Orderly := by
  unfold onPending
  rcases call w.pending with ⟨result | a, p⟩
  · exact orderly_error
  · exact ⟨rfl, rfl, rfl⟩

theorem onPlayback_quiet {α : Type} (call : Action PcmQueue.AudioError PcmQueue.Queue α) :
    Meets (onPlayback call w) (fun _ => Still w) Orderly := by
  unfold onPlayback
  rcases call w.playback with ⟨result | a, q⟩
  · exact orderly_error
  · exact ⟨rfl, rfl, rfl⟩

theorem onMicrophone_quiet {α : Type} (call : Action PcmQueue.AudioError PcmQueue.Queue α) :
    Meets (onMicrophone call w) (fun _ => Still w) Orderly := by
  unfold onMicrophone
  rcases call w.microphone with ⟨result | a, q⟩
  · exact orderly_error
  · exact ⟨rfl, rfl, rfl⟩

theorem liftFrame_quiet {α : Type} (result : Except UsbipFrame.Error α) :
    Meets (liftFrame result w : Except Failure α × Worker H K)
      (fun a w' => result = .ok a ∧ w' = w) Orderly := by
  cases result with
  | ok a => exact ⟨rfl, rfl⟩
  | error e => exact orderly_error

theorem heldRequest_quiet {s : Slot} {otherwise : String} :
    Meets (heldRequest s otherwise w)
      (fun submit w' => w' = w ∧ ∃ n, decode s.bytes w.device = .ok (.submit submit, n)) Orderly := by
  unfold heldRequest
  rw [meets_get_bind]
  refine meets_bind (liftFrame_quiet _) ?_
  rintro ⟨request, n⟩ _ ⟨hd, rfl⟩
  cases request with
  | submit submit => exact ⟨rfl, n, hd⟩
  | unlink => exact orderly_error

theorem push_quiet {bytes : List UInt8} {event : Event} :
    Meets (push bytes now event w) (fun _ => Still w) Orderly := by
  unfold push
  rcases UsbipCompletionQueue.push bytes now w.outgoing with ⟨result | _, outgoing⟩
  · exact orderly_io
  · exact ⟨rfl, rfl, rfl⟩

theorem produceAll_still (calls : List ProducerCall) (w : Worker H K) :
    Still w (calls.foldl UsbipWorker.produce w) := by
  induction calls generalizing w with
  | nil => exact .refl w
  | cons call calls ih =>
    have hfirst : Still w (UsbipWorker.produce w call) := ⟨rfl, rfl, rfl⟩
    exact hfirst.trans (ih _)

variable [Host K]

theorem flush_quiet : Meets (flush now w) (fun _ => Still w) Orderly := by
  unfold flush
  rcases UsbipCompletionQueue.flush Host.write now ⟨w.outgoing, w.host, []⟩ with
    ⟨result | _, outlet⟩
  · exact orderly_io
  · exact ⟨rfl, rfl, rfl⟩

theorem hearProducer_quiet : Meets (hearProducer w) (fun _ => Still w) Orderly := by
  unfold hearProducer
  rw [meets_modify]
  rcases Host.produced w.host with ⟨calls, host⟩
  have hhost : Still w { w with host } := ⟨rfl, rfl, rfl⟩
  exact hhost.trans (produceAll_still calls _)

theorem hearConsumer_quiet : Meets (hearConsumer w) (fun _ => Still w) Orderly := by
  unfold hearConsumer
  rw [meets_modify]
  exact ⟨rfl, rfl, rfl⟩

/-- A packet is captured only into a buffer and a packet with room for it. -/
theorem capturePacket_quiet {length channels room : ℕ} (hfew : channels ≤ 2) :
    Meets (capturePacket length channels room w)
      (fun _ w' => Still w w' ∧ packetBytes channels ≤ length ∧ packetBytes channels ≤ room)
      Orderly := by
  unfold capturePacket packetBytes
  dsimp only
  split
  · exact orderly_error
  · next hroom =>
    rw [not_or, Nat.not_lt, Nat.not_lt] at hroom
    rw [if_neg (by omega)]
    refine meets_bind hearProducer_quiet ?_
    intro _ w₁ h₁
    refine meets_bind (onMicrophone_quiet _) ?_
    rintro ⟨read, samples⟩ w₂ h₂
    refine meets_modify_bind.mpr ?_
    have h₃ : Still w₂ { w₂ with
        counters := ({ w₂.counters with
          microphoneConsumedFrames := w₂.counters.microphoneConsumedFrames + read.frames
          }).recordMicrophoneProgress (48 - read.frames) } := ⟨rfl, rfl, rfl⟩
    exact ⟨(h₁.trans h₂).trans h₃, hroom⟩

end Quiet

section Receive

variable {H K : Type} {w : Worker H K} {now : ℕ}

theorem captureCount_le_delay (header : Header) : captureCount header * 1000 ≤ delayOf header := by
  unfold captureCount delayOf
  by_cases hzero : header.packets = 0
  · simp [hzero]
  · rw [if_pos hzero]
    split
    · exact le_rfl
    · exact Nat.zero_le _

theorem submitRequest_paced {header : Header} (h : AllPaced w) :
    Meets (submitRequest header now w) (fun _ => AllPaced) Orderly := by
  unfold submitRequest
  rw [meets_get_bind]
  cases hr : checkedAdd (latestReady w.live (streamOf header) now)
      (delayOf header) with
  | none => exact orderly_error
  | some ready =>
    obtain ⟨rfl, _⟩ := checkedAdd_eq_some.mp hr
    dsimp only
    split
    · exact orderly_error
    · next hfree =>
      refine meets_bind (onPending_quiet _) ?_
      intro ticket w₁ h₁
      refine meets_modify_bind.mpr ?_
      generalize hslot : (⟨w.receive, ticket, _, w.nextOrder, streamOf header,
        captureCount header, 0, []⟩ : Slot) = slot
      obtain ⟨slots, hslots⟩ : ∃ slots, SlotTable.insert slot w₁.slots = some slots := by
        rw [h₁.slots]
        cases hins : SlotTable.insert slot w.slots with
        | some slots => exact ⟨slots, rfl⟩
        | none => exact absurd (List.all_eq_true.mpr (SlotTable.insert_none hins)) hfree
      have hpaced : Paced w₁.device w₁.profile slot := by
        subst hslot
        refine ⟨?_, by simp⟩
        exact (captureCount_le_delay header).trans (Nat.le_add_left _ _)
      have hall : ∀ s ∈ SlotTable.live slots, Paced w₁.device w₁.profile s := by
        obtain ⟨_, hperm⟩ := SlotTable.insert_some hslots
        intro s hs
        rcases List.mem_cons.mp (hperm.mem_iff.mp hs) with rfl | hs
        · exact hpaced
        · exact (h.still h₁) s hs
      rw [hslots]
      cases checkedAdd w.nextOrder 1 with
      | none => exact orderly_error
      | some next => exact hall

theorem cancel_paced {sequence target : ℕ} (h : AllPaced w) :
    Meets (cancel sequence target w) (fun _ => AllPaced) Orderly := by
  intro s hs
  have hlive : s ∈ SlotTable.live (SlotTable.clear (·.ticket.sequence = target) w.slots) := hs
  rw [SlotTable.live_clear] at hlive
  exact h s (List.mem_of_mem_filter hlive)

variable [Host K]

theorem unlinkRequest_paced {sequence target : ℕ} (h : AllPaced w) :
    Meets (unlinkRequest sequence target now w) (fun _ => AllPaced) Orderly := by
  unfold unlinkRequest
  refine meets_bind (cancel_paced h) ?_
  intro found w₁ h₁
  refine meets_bind push_quiet ?_
  intro _ w₂ h₂
  exact flush_quiet.mono (fun _ w₃ h₃ => (h₁.still h₂).still h₃) fun _ _ he => he

theorem readMore_quiet : Meets (readMore now w) (fun _ => Still w) Orderly := by
  unfold readMore
  rw [meets_get_bind]
  by_cases hpart : w.receive.length < w.expected
  · rw [if_pos hpart]
    rcases hr : Host.read w.host (w.expected - w.receive.length) with ⟨outcome, host⟩
    dsimp only
    rw [meets_modify_bind]
    have hhost : Still w { w with host } := ⟨rfl, rfl, rfl⟩
    cases outcome with
    | wouldBlock => exact hhost
    | interrupted => exact hhost
    | failed e => exact orderly_io
    | data bytes =>
      cases bytes with
      | nil => exact orderly_io
      | cons byte bytes =>
        dsimp only
        rw [meets_modify_bind, meets_pure]
        exact ⟨rfl, rfl, rfl⟩
  · rw [if_neg hpart]
    exact .refl w

theorem receiveOne_paced (h : AllPaced w) :
    Meets (receiveOne now w) (fun _ => AllPaced) Orderly := by
  unfold receiveOne
  refine meets_bind readMore_quiet ?_
  intro early w₁ hstill
  have h₁ := h.still hstill
  rw [meets_get_bind]
  cases early with
  | some more => exact h₁
  | none =>
    dsimp only
    split
    · exact h₁
    · refine meets_bind (liftFrame_quiet _) ?_
      rintro header _ ⟨_, rfl⟩
      refine meets_modify_bind.mpr ?_
      split
      · exact h₁
      · refine meets_bind (liftFrame_quiet _) ?_
        rintro ⟨request, n⟩ _ ⟨_, rfl⟩
        refine meets_modify_bind.mpr ?_
        cases request with
        | unlink sequence target => exact meets_bind (unlinkRequest_paced h₁) fun _ _ h₂ => h₂
        | submit submit => exact meets_bind (submitRequest_paced h₁) fun _ _ h₂ => h₂

end Receive

section Capture

variable {H K : Type} {w : Worker H K} {now index : ℕ} {s : Slot}

theorem slot_eq (h : w.slots[index]? = some (some s)) : w.slot index = some s := by
  unfold Worker.slot
  rw [h]
  rfl

theorem mem_live (h : w.slots[index]? = some (some s)) : s ∈ w.live := by
  obtain ⟨a, b, hl, _⟩ := SlotTable.set_splice h
  unfold Worker.live
  rw [hl]
  simp

/-- Writing one slot leaves the transfers in the others as they were. -/
theorem AllPaced.set {s' : Slot} (h : AllPaced w) (hs : w.slots[index]? = some (some s))
    (hnew : Paced w.device w.profile s') :
    ∀ u ∈ SlotTable.live (w.slots.set index (some s')), Paced w.device w.profile u := by
  obtain ⟨a, b, hl, _, hset⟩ := SlotTable.set_splice hs
  intro u hu
  rw [hset] at hu
  have hrest : ∀ v ∈ a ++ b, Paced w.device w.profile v := by
    intro v hv
    refine h v ?_
    unfold Worker.live
    rw [hl]
    simp only [List.mem_append, List.mem_cons] at hv ⊢
    exact hv.imp_right .inr
  simp only [List.mem_append, List.mem_cons] at hu
  rcases hu with hu | rfl | hu
  · exact hrest u (List.mem_append_left _ hu)
  · exact hnew
  · exact hrest u (List.mem_append_right _ hu)

theorem AllPaced.clear (h : AllPaced w) (hs : w.slots[index]? = some (some s)) :
    ∀ u ∈ SlotTable.live (w.slots.set index none), Paced w.device w.profile u := by
  obtain ⟨a, b, hl, hnone, _⟩ := SlotTable.set_splice hs
  intro u hu
  rw [hnone] at hu
  refine h u ?_
  unfold Worker.live
  rw [hl]
  simp only [List.mem_append, List.mem_cons] at hu ⊢
  exact hu.imp_right .inr

theorem take_getElem_succ {packets : List IsoPacket} {i : ℕ} {p : IsoPacket}
    (h : packets[i]? = some p) : packets.take (i + 1) = packets.take i ++ [p] := by
  rw [List.take_add_one, h]
  rfl

/-- The next packet of a capture is in the table, and its data fits the buffer. -/
theorem Paced.room {device : ℕ} {profile : Profile} (h : Paced device profile s) {submit : Submit}
    {n : ℕ} {p : IsoPacket} (hd : decode s.bytes device = .ok (.submit submit, n))
    (hp : submit.packets[s.captured]? = some p) :
    s.captured * packetBytes profile.microphoneChannels ≤ p.offset ∧
      p.offset + p.length ≤ maxTransferBytes := by
  obtain ⟨hle, hin, hmax⟩ := packets_room hd hp (h.long submit n hd)
  exact ⟨hle, hin.trans hmax⟩

variable [Host K]

theorem captureOne_paced (h : AllPaced w) (hfew : w.profile.microphoneChannels ≤ 2)
    (hs : w.slots[index]? = some (some s)) :
    Meets (captureOne index w) (fun _ => AllPaced) Orderly := by
  have hpaced := h s (mem_live hs)
  unfold captureOne
  rw [meets_get_bind, slot_eq hs]
  refine meets_bind heldRequest_quiet ?_
  rintro request w' ⟨hw, n, hd⟩
  subst w'
  cases hp : request.packets[s.captured]? with
  | none => exact orderly_error
  | some packet =>
    obtain ⟨hle, hin⟩ := hpaced.room hd hp
    have hoffset : s.captured * 48 * w.profile.microphoneChannels * 2 =
        s.captured * packetBytes w.profile.microphoneChannels := by
      unfold packetBytes
      simp only [Nat.mul_assoc]
    dsimp only
    rw [if_neg (by omega)]
    refine meets_bind (capturePacket_quiet hfew) ?_
    rintro ⟨read, samples⟩ w₁ ⟨hstill, hlong, _⟩
    rw [meets_modify]
    have h₁ := h.still hstill
    have hs₁ : w₁.slots[index]? = some (some s) := by
      rw [hstill.slots]
      exact hs
    refine h₁.set hs₁ ⟨hpaced.ready, ?_⟩
    intro submit m hd' q hq
    rw [hstill.device, hd] at hd'
    obtain rfl := Request.submit.inj (Prod.mk.inj (Except.ok.inj hd')).1
    rw [hstill.profile]
    dsimp only at hq
    rw [take_getElem_succ hp] at hq
    rcases List.mem_append.mp hq with hq | hq
    · exact hpaced.long request n hd q hq
    · rw [List.mem_singleton.mp hq]
      exact hlong

end Capture

section Packing

variable {H K : Type} [Host K] {w : Worker H K} {s : Slot} {channels : ℕ}

/-- The queue behind the microphone is in order, and as wide as it is taken for. -/
def Hearing (channels : ℕ) (w : Worker H K) : Prop :=
  ∃ capacity log, PcmQueueDelivery.Accounted capacity channels log w.microphone

omit [Host K] in
theorem Hearing.step {label : PcmQueue.Label} {q : PcmQueue.Queue} (h : Hearing channels w)
    (hs : PcmQueue.Step w.microphone label q) :
    ∃ capacity log, PcmQueueDelivery.Accounted capacity channels log q := by
  obtain ⟨capacity, log, haccounted⟩ := h
  exact ⟨capacity, _, PcmQueueDelivery.step_accounted haccounted hs⟩

omit [Host K] in
theorem Hearing.produce (h : Hearing channels w) (call : ProducerCall) :
    Hearing channels (UsbipWorker.produce w call) := by
  cases call with
  | push samples => exact @Hearing.step _ _ _ _ (.push samples _) _ h rfl
  | discard frames => exact @Hearing.step _ _ _ _ (.discard frames _) _ h rfl
  | flush => exact @Hearing.step _ _ _ _ (.flush _) _ h rfl
  | close => exact @Hearing.step _ _ _ _ .close _ h rfl

omit [Host K] in
theorem Hearing.produceAll (calls : List ProducerCall) {w : Worker H K} (h : Hearing channels w) :
    Hearing channels (calls.foldl UsbipWorker.produce w) := by
  induction calls generalizing w with
  | nil => exact h
  | cons call calls ih => exact ih (h.produce call)

theorem hearProducer_hearing (h : Hearing channels w) :
    Meets (hearProducer w) (fun _ w' => Still w w' ∧ Hearing channels w') Orderly := by
  unfold hearProducer
  rw [meets_modify]
  rcases Host.produced w.host with ⟨calls, host⟩
  have hhost : Still w { w with host } := ⟨rfl, rfl, rfl⟩
  have hhear : Hearing channels { w with host } := h
  exact ⟨hhost.trans (produceAll_still calls _), hhear.produceAll calls⟩

omit [Host K] in
/-- A read fills what it was given, whatever the queue has. -/
theorem read_hearing (h : Hearing channels w) :
    Meets (onMicrophone (PcmQueue.read (List.replicate (48 * channels) 0)) w)
      (fun r w' => Still w w' ∧ Hearing channels w' ∧ r.2.length = 48 * channels) Orderly := by
  obtain ⟨capacity, log, haccounted⟩ := h
  unfold onMicrophone
  rcases hread : PcmQueue.read (List.replicate (48 * channels) 0) w.microphone with ⟨result, q⟩
  have hq : Hearing channels { w with microphone := q } :=
    @Hearing.step _ _ _ _ (.read _ result) _ ⟨capacity, log, haccounted⟩ hread
  rcases PcmQueueDelivery.read_spec haccounted.wf hread with ⟨error, rfl, rfl⟩ |
    ⟨r, dest', taken, tail, skipped, rfl, hlength, _, _, htakes, _⟩
  · exact orderly_error
  · refine ⟨⟨rfl, rfl, rfl⟩, hq, ?_⟩
    have hbounded := htakes.bounded
    rw [List.length_replicate] at hlength hbounded
    have hle : taken.length * w.microphone.channels ≤ 48 * channels :=
      (Nat.mul_le_mul_right _ hbounded).trans (Nat.div_mul_le_self _ _)
    rw [Nat.max_eq_left hle] at hlength
    exact hlength

theorem capturePacket_fills {length room : ℕ} (hfew : channels ≤ 2) (h : Hearing channels w) :
    Meets (capturePacket length channels room w)
      (fun r w' => Still w w' ∧ Hearing channels w' ∧ packetBytes channels ≤ length ∧
        r.2.length = 48 * channels) Orderly := by
  unfold capturePacket packetBytes
  dsimp only
  split
  · exact orderly_error
  · next hroom =>
    rw [not_or, Nat.not_lt, Nat.not_lt] at hroom
    rw [if_neg (by omega)]
    refine meets_bind (hearProducer_hearing h) ?_
    rintro _ w₁ ⟨h₁, hhear₁⟩
    refine meets_bind (read_hearing hhear₁) ?_
    rintro ⟨read, samples⟩ w₂ ⟨h₂, hhear₂, hlength⟩
    refine meets_modify_bind.mpr ?_
    have h₃ : Still w₂ { w₂ with
        counters := ({ w₂.counters with
          microphoneConsumedFrames := w₂.counters.microphoneConsumedFrames + read.frames
          }).recordMicrophoneProgress (48 - read.frames) } := ⟨rfl, rfl, rfl⟩
    exact ⟨(h₁.trans h₂).trans h₃, hhear₂, hroom.1, hlength⟩

theorem length_sampleBytes (samples : List Int16) : (sampleBytes samples).length = samples.length * 2 := by
  induction samples with
  | nil => rfl
  | cons sample samples ih =>
    have hcons : sampleBytes (sample :: samples) =
        le16 sample.toUInt16.toNat ++ sampleBytes samples := rfl
    rw [hcons, List.length_append, ih, List.length_cons, Nat.succ_mul]
    exact Nat.add_comm _ _

/-- The data of a capture transfer is one piece for each packet, each no longer than its packet. -/
theorem capturePackets_fills {device n : ℕ} {submit : Submit} (hfew : channels ≤ 2)
    (hd : decode s.bytes device = .ok (.submit submit, n))
    (hdata : s.captureData.length = s.captured * packetBytes channels)
    (hlong : ∀ q ∈ submit.packets.take s.captured, packetBytes channels ≤ q.length)
    (packets before : List IsoPacket) (hpackets : submit.packets = before ++ packets)
    (hbefore : ∀ q ∈ before, packetBytes channels ≤ q.length) (h : Hearing channels w) :
    Meets (capturePackets s channels before.length packets w)
      (fun data w' => Still w w' ∧ data.length = packets.length * packetBytes channels ∧
        ∀ q ∈ packets, packetBytes channels ≤ q.length) Orderly := by
  induction packets generalizing before w with
  | nil => exact ⟨.refl w, (Nat.zero_mul _).symm, nofun⟩
  | cons packet packets ih =>
    have hp : submit.packets[before.length]? = some packet := by
      rw [hpackets, List.getElem?_append_right le_rfl, Nat.sub_self]
      rfl
    have htake : submit.packets.take before.length = before := by
      rw [hpackets, List.take_left]
    obtain ⟨hle, hin, hmax⟩ := packets_room hd hp (by rwa [htake])
    have hnext (hpacket : packetBytes channels ≤ packet.length) {v : Worker H K}
        (hv : Hearing channels v) := ih (before ++ [packet]) (w := v) (by rw [hpackets]; simp)
      (fun q hq => (List.mem_append.mp hq).elim (hbefore q) fun hq => List.mem_singleton.mp hq ▸ hpacket)
      hv
    rw [List.length_append, List.length_singleton] at hnext
    have hbytes : 48 * channels * 2 = packetBytes channels := rfl
    unfold capturePackets
    dsimp only
    rw [hbytes]
    by_cases hcaptured : before.length < s.captured
    · have hpacket : packetBytes channels ≤ packet.length := by
        refine hlong packet (List.mem_of_getElem? (i := before.length) ?_)
        rw [List.getElem?_take_of_lt hcaptured]
        exact hp
      rw [if_pos hcaptured, if_neg (by omega)]
      refine meets_bind (hnext hpacket h) ?_
      rintro rest w₁ ⟨hstill, hrest, hall⟩
      refine ⟨hstill, ?_, ?_⟩
      · have hslot : before.length * packetBytes channels + packetBytes channels ≤
            s.captureData.length := by
          rw [hdata, ← Nat.succ_mul]
          exact Nat.mul_le_mul_right _ hcaptured
        rw [List.length_append, hrest, List.length_cons, Nat.succ_mul]
        unfold slice
        rw [List.length_take, List.length_drop]
        omega
      · intro q hq
        rcases List.mem_cons.mp hq with rfl | hq
        · exact hpacket
        · exact hall q hq
    · rw [if_neg hcaptured, if_neg (by omega)]
      refine meets_bind (capturePacket_fills hfew h) ?_
      rintro ⟨read, samples⟩ w₁ ⟨hstill, hhear, hpacket, hlength⟩
      refine meets_bind (hnext hpacket hhear) ?_
      rintro rest w₂ ⟨hstill₂, hrest, hall⟩
      refine ⟨hstill.trans hstill₂, ?_, ?_⟩
      · dsimp only at hlength
        rw [List.length_append, hrest, length_sampleBytes, hlength, hbytes, List.length_cons,
          Nat.succ_mul, Nat.add_comm]
      · intro q hq
        rcases List.mem_cons.mp hq with rfl | hq
        · exact hpacket
        · exact hall q hq

end Packing

section Transfers

variable {H K : Type} [HidHandler H] [Host K] {w : Worker H K} {s : Slot} {now n : ℕ}
variable {submit : Submit}

omit [Host K] in
theorem controlTransfer_quiet :
    Meets (controlTransfer s submit now w) (fun _ => Still w) Orderly := by
  unfold controlTransfer
  rw [meets_get_bind]
  rcases handle w.profile submit.header.setup submit.payload w.control with ⟨completion, control⟩
  dsimp only
  rw [meets_modify_bind]
  have hresponse {v : Worker H K} :
      Meets (controlResponse completion now v) (fun _ => Still v) Orderly := by
    unfold controlResponse
    cases completion with
    | data bytes => exact Still.refl v
    | stall => exact Still.refl v
    | hid kind => exact ⟨rfl, rfl, rfl⟩
  refine meets_bind hresponse ?_
  intro response w₁ h₁
  have hstill : Still w w₁ := ⟨h₁.slots, h₁.device, h₁.profile⟩
  cases response with
  | none => exact hstill
  | some bytes =>
    dsimp only
    split
    · exact hstill
    · exact hstill

omit [Host K] in
theorem inputTransfer_quiet {header : Header} :
    Meets (inputTransfer header now w) (fun _ => Still w) Orderly := by
  unfold inputTransfer
  rw [meets_get_bind]
  rcases HidHandler.input w.hid now with ⟨report, hid⟩
  dsimp only
  rw [meets_modify_bind]
  cases report with
  | none => exact orderly_error
  | some report =>
    dsimp only
    split
    · exact orderly_error
    · exact ⟨rfl, rfl, rfl⟩

omit [Host K] in
theorem outputTransfer_quiet :
    Meets (outputTransfer submit now w) (fun _ => Still w) Orderly := by
  unfold outputTransfer
  rw [meets_get_bind]
  rcases HidHandler.output w.hid submit.payload now with ⟨accepted, hid⟩
  dsimp only
  rw [meets_modify_bind]
  split
  · exact ⟨rfl, rfl, rfl⟩
  · exact ⟨rfl, rfl, rfl⟩

omit [HidHandler H] in
theorem playbackPackets_quiet (channels : ℕ) (payload : List UInt8) (packets : List IsoPacket) :
    Meets (playbackPackets channels payload packets w) (fun _ => Still w) Orderly := by
  induction packets generalizing w with
  | nil => exact Still.refl w
  | cons packet packets ih =>
    unfold playbackPackets
    split
    · exact orderly_error
    · refine meets_bind hearConsumer_quiet ?_
      intro _ w₁ h₁
      refine meets_bind (onPlayback_quiet _) ?_
      intro frames w₂ h₂
      refine meets_bind hearConsumer_quiet ?_
      intro _ w₃ h₃
      refine meets_bind (onPlayback_quiet _) ?_
      intro _ w₄ h₄
      have hstill := ((h₁.trans h₂).trans h₃).trans h₄
      exact ih.mono (fun _ _ h => hstill.trans h) fun _ _ he => he

/-- What a capture transfer needs to know of its slot. -/
structure Fits (w : Worker H K) (s : Slot) (submit : Submit) : Prop where
  channels : w.microphone.format.channels.length = w.profile.microphoneChannels
  data : s.captureData.length = s.captured * packetBytes w.profile.microphoneChannels
  long : ∀ q ∈ submit.packets.take s.captured, packetBytes w.profile.microphoneChannels ≤ q.length
  hearing : Hearing w.profile.microphoneChannels w

theorem transfer_quiet (hd : decode s.bytes w.device = .ok (.submit submit, n))
    (hfew : w.profile.microphoneChannels ≤ 2) (h : Fits w s submit) :
    Meets (transfer s submit now w) (fun _ => Still w) Orderly := by
  have hplayback : Meets (playbackTransfer submit w) (fun _ => Still w) Orderly := by
    unfold playbackTransfer
    rw [meets_get_bind]
    exact meets_bind (playbackPackets_quiet _ _ _) fun _ _ h => h
  have hcapture : Meets (captureTransfer s submit w) (fun _ => Still w) Orderly := by
    unfold captureTransfer
    rw [meets_get_bind]
    dsimp only
    rw [h.channels]
    refine meets_bind
      (capturePackets_fills hfew hd h.data h.long submit.packets [] rfl nofun h.hearing) ?_
    rintro data w₁ ⟨hstill, _⟩
    exact hstill
  unfold transfer
  rw [meets_get_bind]
  split
  · exact controlTransfer_quiet
  · split
    · exact inputTransfer_quiet
    · split
      · exact outputTransfer_quiet
      · split
        · exact hplayback
        · split
          · exact hcapture
          · exact Still.refl w

omit [HidHandler H] [Host K] in
theorem recordTransfer_quiet {header : Header} {status : ℤ} {actual : ℕ} :
    Meets (recordTransfer s header status actual w) (fun _ => Still w) Orderly := by
  unfold recordTransfer
  rw [meets_modify]
  dsimp only
  split
  · exact ⟨rfl, rfl, rfl⟩
  · split
    · exact Still.refl w
    · split
      · exact ⟨rfl, rfl, rfl⟩
      · exact ⟨rfl, rfl, rfl⟩

theorem complete_quiet (hfew : w.profile.microphoneChannels ≤ 2)
    (h : ∀ submit n, decode s.bytes w.device = .ok (.submit submit, n) → Fits w s submit) :
    Meets (UsbipWorker.complete s now w) (fun _ => Still w) Orderly := by
  unfold UsbipWorker.complete
  refine meets_bind (((onPending_spec _).and (onPending_quiet _)).mono (fun _ _ hp => hp.1)
    fun _ _ he => he.2) ?_
  rintro _ _ ⟨pending, _, rfl⟩
  refine meets_modify_bind.mpr ?_
  refine meets_bind heldRequest_quiet ?_
  rintro request w' ⟨hw, n, hd⟩
  subst w'
  have hfits := h request n hd
  have hlate : Meets (recordAudioLateness request.header s.ready now
      ({ w with pending }.record (.completing now s)))
      (fun _ w' => Still w w' ∧ Fits w' s request) Orderly := by
    unfold recordAudioLateness
    split
    · exact ⟨⟨rfl, rfl, rfl⟩, hfits.channels, hfits.data, hfits.long, hfits.hearing⟩
    · exact ⟨⟨rfl, rfl, rfl⟩, hfits.channels, hfits.data, hfits.long, hfits.hearing⟩
  refine meets_bind hlate ?_
  rintro _ w₁ ⟨h₁, hfits₁⟩
  have hd₁ : decode s.bytes w₁.device = .ok (.submit request, n) := by
    rw [h₁.device]
    exact hd
  refine meets_bind (transfer_quiet hd₁ (h₁.profile ▸ hfew) hfits₁) ?_
  intro outcome w₂ h₂
  refine meets_bind recordTransfer_quiet ?_
  intro _ w₃ h₃
  refine meets_bind (liftFrame_quiet _) ?_
  rintro bytes _ ⟨_, rfl⟩
  split
  · exact orderly_error
  · exact (h₁.trans h₂).trans h₃

theorem completeOne_paced {index : ℕ} (h : AllPaced w) (hfew : w.profile.microphoneChannels ≤ 2)
    (hs : w.slots[index]? = some (some s))
    (hfits : ∀ submit n, decode s.bytes w.device = .ok (.submit submit, n) → Fits w s submit) :
    Meets (completeOne index now w) (fun _ => AllPaced) Orderly := by
  unfold completeOne
  rw [meets_get_bind, slot_eq hs]
  refine meets_bind (complete_quiet hfew hfits) ?_
  rintro ⟨status, bytes⟩ w₁ h₁
  refine meets_bind push_quiet ?_
  intro _ w₂ h₂
  refine meets_bind flush_quiet ?_
  intro _ w₃ h₃
  have hstill := (h₁.trans h₂).trans h₃
  rw [← hstill.slots] at hs
  exact (h.still hstill).clear hs

end Transfers

section Playback

variable {H K : Type} [Host K] {w : Worker H K}

/-- What the producer was given to queue, in order. -/
def handed (log : List PcmQueue.Label) : List (List Int16) :=
  log.filterMap fun label => match label with
    | .push samples _ => some samples
    | _ => none

theorem handed_append (log log' : List PcmQueue.Label) :
    handed (log ++ log') = handed log ++ handed log' := List.filterMap_append

/-- The queue went from one state to another while these samples were queued. -/
def Hands (samples : List (List Int16)) (q q' : PcmQueue.Queue) : Prop :=
  ∃ log, Run PcmQueue.Step q log q' ∧ handed log = samples

theorem Hands.refl (q : PcmQueue.Queue) : Hands [] q q := ⟨[], .nil, rfl⟩

theorem Hands.trans {a b : List (List Int16)} {q q' q'' : PcmQueue.Queue} (h : Hands a q q')
    (h' : Hands b q' q'') : Hands (a ++ b) q q'' := by
  obtain ⟨log, hr, rfl⟩ := h
  obtain ⟨log', hr', rfl⟩ := h'
  exact ⟨log ++ log', hr.append hr', handed_append log log'⟩

theorem Hands.step {label : PcmQueue.Label} {q q' : PcmQueue.Queue}
    (h : PcmQueue.Step q label q') : Hands (handed [label]) q q' :=
  ⟨[label], run_singleton.mpr h, rfl⟩

theorem consume_hands (calls : List ConsumerCall) (q : PcmQueue.Queue) :
    Hands [] q (calls.foldl ConsumerCall.apply q) := by
  induction calls generalizing q with
  | nil => exact .refl q
  | cons call calls ih =>
    have hfirst : Hands [] q (call.apply q) := by
      cases call with
      | read dest => exact @Hands.step (.read dest _) _ _ rfl
      | flush => exact @Hands.step (.consumerFlush _) _ _ rfl
      | close => exact @Hands.step .close _ _ rfl
    exact hfirst.trans (ih _)

theorem hearConsumer_hands :
    Meets (hearConsumer w) (fun _ w' => Hands [] w.playback w'.playback) fun _ _ => False :=
  consume_hands _ _

omit [Host K] in
theorem push_hands (samples : List Int16) :
    Meets (onPlayback (PcmQueue.push samples) w)
      (fun _ w' => Hands [samples] w.playback w'.playback)
      (fun e w' => Orderly e w' ∧ Hands [samples] w.playback w'.playback) := by
  have h : Hands [samples] w.playback (PcmQueue.push samples w.playback).2 :=
    @Hands.step (.push samples _) _ _ rfl
  unfold onPlayback
  rcases hp : PcmQueue.push samples w.playback with ⟨result | frames, q⟩
  · rw [hp] at h
    exact ⟨orderly_error, h⟩
  · rw [hp] at h
    exact h

omit [Host K] in
theorem discard_hands (frames : ℕ) :
    Meets (onPlayback (PcmQueue.discard frames) w)
      (fun _ w' => Hands [] w.playback w'.playback)
      (fun e w' => Orderly e w' ∧ Hands [] w.playback w'.playback) := by
  have h : Hands [] w.playback (PcmQueue.discard frames w.playback).2 :=
    @Hands.step (.discard frames _) _ _ rfl
  unfold onPlayback
  rcases hp : PcmQueue.discard frames w.playback with ⟨result | _, q⟩
  · rw [hp] at h
    exact ⟨orderly_error, h⟩
  · rw [hp] at h
    exact h

/-- The samples of one packet. -/
def packetSamples (payload : List UInt8) (packet : IsoPacket) : List Int16 :=
  bytesSamples (slice payload packet.offset packet.length)

/-- The packets are queued in the order of the table, each from its own part of the payload. -/
theorem playbackPackets_order (channels : ℕ) (payload : List UInt8) (packets : List IsoPacket)
    (w : Worker H K) :
    Meets (playbackPackets channels payload packets w)
      (fun _ w' => Hands (packets.map (packetSamples payload)) w.playback w'.playback)
      (fun e w' => e ≠ .panic ∧ ∃ queued, queued <+: packets.map (packetSamples payload) ∧
        Hands queued w.playback w'.playback) := by
  induction packets generalizing w with
  | nil => exact Hands.refl _
  | cons packet packets ih =>
    unfold playbackPackets
    split
    · exact ⟨orderly_error, [], List.nil_prefix, .refl _⟩
    · refine meets_bind (hearConsumer_hands.mono (fun _ _ h => h) fun _ _ h => h.elim) ?_
      intro _ w₁ h₁
      have hfirst : [packetSamples payload packet] <+:
          (packet :: packets).map (packetSamples payload) := ⟨packets.map _, rfl⟩
      refine meets_bind ((push_hands _).mono (fun _ _ h => h₁.trans h)
        fun _ _ h => ⟨h.1, _, hfirst, h₁.trans h.2⟩) ?_
      intro frames w₂ h₂
      refine meets_bind (hearConsumer_hands.mono (fun _ _ h => h₂.trans h) fun _ _ h => h.elim) ?_
      intro _ w₃ h₃
      refine meets_bind ((discard_hands _).mono (fun _ _ h => h₃.trans h)
        fun _ _ h => ⟨h.1, _, hfirst, h₃.trans h.2⟩) ?_
      intro _ w₄ h₄
      refine (ih w₄).mono (fun _ _ h => h₄.trans h) ?_
      rintro e w₅ ⟨he, queued, hqueued, h₅⟩
      refine ⟨he, _, ?_, h₄.trans h₅⟩
      exact (List.prefix_append_right_inj _).mpr hqueued

end Playback

section Parts

variable {H K : Type} [HidHandler H] [Host K]

/-- The calls that the main loop is made of. -/
inductive Part where
  | service
  | receive
  | ready
  | deadlines
  | flush
  | observe
  | wait
  deriving DecidableEq, Repr

def observe : Work H K Unit := do
  hearProducer
  modify fun w => { w with counters := { w.counters with
    microphoneQueueDroppedFrames := w.microphone.discarded } }

/-- A call without its answer. -/
def quietly {α : Type} (call : Work H K α) : Work H K Unit := do
  let _ ← call
  pure ()

def Part.run (now : ℕ) : Part → Work H K Unit
  | .service => quietly (UsbipWorker.service now)
  | .receive => quietly (receiveOne now)
  | .ready => quietly (readyTurn now)
  | .deadlines => quietly (checkDeadlines now)
  | .flush => quietly (UsbipWorker.flush now)
  | .observe => quietly UsbipWorkerBounds.observe
  | .wait => quietly UsbipWorker.wait

/-- Parts that went well lead from one worker to another, in any order and at any times. -/
def Turns : Worker H K → Worker H K → Prop :=
  Relation.ReflTransGen fun w w' => ∃ part now, Part.run now part w = (.ok (), w')

/-- One of the parts fails, in a state that the others led to. -/
def Stops (w : Worker H K) (e : Failure) (w' : Worker H K) : Prop :=
  ∃ v part now, Turns w v ∧ Part.run now part v = (.error e, w')

variable {w v : Worker H K} {now : ℕ}

theorem passes {α : Type} {call : Work H K α} (now : ℕ) (part : Part)
    (hpart : (Part.run now part : Work H K Unit) = quietly call) (h : Turns w v) :
    Meets (call v) (fun _ => Turns w) (Stops w) := by
  rcases hc : call v with ⟨e | a, v'⟩
  · refine ⟨v, part, now, h, ?_⟩
    rw [hpart]
    exact bind_run_error hc
  · refine h.tail ⟨part, now, ?_⟩
    rw [hpart]
    exact bind_run_ok hc

theorem receiveLoop_passes (turns : ℕ) (h : Turns w v) :
    Meets (receiveLoop now turns v) (fun _ => Turns w) (Stops w) := by
  induction turns generalizing v with
  | zero => exact h
  | succ turns ih =>
    unfold receiveLoop
    refine meets_bind (passes now .receive rfl h) ?_
    intro more v₁ h₁
    cases more with
    | false => exact h₁
    | true => exact ih h₁

theorem readyLoop_passes (fuel : ℕ) (h : Turns w v) :
    Meets (readyLoop now fuel v) (fun _ => Turns w) (Stops w) := by
  induction fuel generalizing v with
  | zero => exact h
  | succ fuel ih =>
    unfold readyLoop
    refine meets_bind (passes now .ready rfl h) ?_
    intro more v₁ h₁
    cases more with
    | false => exact h₁
    | true => exact ih h₁

theorem iteration_passes (h : Turns w v) :
    Meets (iteration now v) (fun _ => Turns w) (Stops w) := by
  unfold iteration
  refine meets_bind (passes now .service rfl h) ?_
  intro _ v₁ h₁
  refine meets_bind (receiveLoop_passes slotCount h₁) ?_
  intro _ v₂ h₂
  rw [meets_get_bind]
  refine meets_bind (readyLoop_passes _ h₂) ?_
  intro _ v₃ h₃
  refine meets_bind (passes now .deadlines rfl h₃) ?_
  intro _ v₄ h₄
  refine meets_bind (passes now .flush rfl h₄) ?_
  intro _ v₅ h₅
  have hrest := meets_bind (passes now .observe rfl h₅) fun _ _ h₆ => passes now .wait rfl h₆
  exact hrest

/-- A run is made of parts, however it ends. -/
theorem runInner_passes (nows : List ℕ) (h : Turns w v) :
    Meets (runInner nows v) (fun _ => Turns w) (Stops w) := by
  induction nows generalizing v with
  | nil => exact h
  | cons now nows ih =>
    unfold runInner
    refine meets_bind (iteration_passes h) ?_
    intro _ v₁ h₁
    exact ih h₁

end Parts

section Safety

variable {H K : Type} [HidHandler H] [Host K] {w : Worker H K} {now device capacity : ℕ}
variable {profile : Profile} {microphone : PcmQueue.Queue} {prior : List PcmQueue.Label}

/-- The worker between two parts. -/
structure Safe (device : ℕ) (profile : Profile) (microphone : PcmQueue.Queue)
    (w : Worker H K) : Prop where
  steady : Steady device profile microphone w
  paced : AllPaced w

omit [HidHandler H] [Host K] in
theorem Steady.sound (ho : Origin profile capacity prior microphone)
    (h : Steady device profile microphone w) :
    Sound device profile capacity prior w.log (ledger w.receive .idle w) :=
  ho.sound h.tracks.run

omit [HidHandler H] [Host K] in
theorem Safe.fits (ho : Origin profile capacity prior microphone)
    (h : Safe device profile microphone w) {s : Slot} (hs : s ∈ w.live) {submit : Submit} {n : ℕ}
    (hd : decode s.bytes w.device = .ok (.submit submit, n)) : Fits w s submit := by
  have hsound := Steady.sound ho h.steady
  have hprofile := h.steady.tracks.profile_eq
  refine ⟨?_, ?_, (h.paced s hs).long submit n hd, ?_⟩
  · rw [hprofile]
    exact hsound.format
  · rw [hprofile]
    exact (hsound.filled s hs).data_length
  · rw [hprofile]
    exact ⟨capacity, _, hsound.microphone⟩

theorem readyTurn_paced (ho : Origin profile capacity prior microphone)
    (hfew : profile.microphoneChannels ≤ 2) (h : Safe device profile microphone w) :
    Meets (readyTurn now w) (fun _ => AllPaced) Orderly := by
  have hprofile := h.steady.tracks.profile_eq
  unfold readyTurn
  rw [meets_get_bind]
  cases hn : w.nextReady now with
  | none => exact h.paced
  | some index =>
    obtain ⟨s, hs, hdue, _⟩ := nextReady_spec hn
    have hslot : (w.slot index).bind (captureDue w.control) = captureDue w.control s := by
      rw [slot_eq hs]
      rfl
    have hcomplete : Meets ((completeOne index now >>= fun _ => pure true : Work H K Bool) w)
        (fun _ => AllPaced) Orderly := by
      refine meets_bind (completeOne_paced h.paced (hprofile ▸ hfew) hs ?_) fun _ _ h => h
      exact fun submit n hd => h.fits ho (mem_live hs) hd
    dsimp only
    rw [hslot]
    cases hc : captureDue w.control s with
    | none => exact hcomplete
    | some due =>
      dsimp only
      by_cases hle : due ≤ now
      · rw [if_pos hle]
        refine meets_modify_bind.mpr ?_
        exact meets_bind (captureOne_paced h.paced (hprofile ▸ hfew) hs) fun _ _ h => h
      · rw [if_neg hle]
        exact hcomplete

omit [HidHandler H] [Host K] in
theorem checkDeadlines_quiet : Meets (checkDeadlines now w) (fun _ => Still w) Orderly := by
  unfold checkDeadlines
  refine meets_bind (onPending_quiet _) ?_
  intro expired w₁ h₁
  cases expired with
  | some header => exact orderly_error
  | none =>
    refine meets_modify_bind.mpr ?_
    rw [meets_get_bind]
    split
    · exact orderly_error
    · exact ⟨h₁.slots, h₁.device, h₁.profile⟩

theorem part_safe (ho : Origin profile capacity prior microphone)
    (hfew : profile.microphoneChannels ≤ 2) (h : Safe device profile microphone w) (now : ℕ)
    (part : Part) : Meets (part.run now w) (fun _ => Safe device profile microphone) Orderly := by
  have hu := h.steady.undecodable
  have ht := h.steady.tracks
  have hend {α : Type} {call : Work H K α} {Q : α → Worker H K → Prop}
      {E : Failure → Worker H K → Prop}
      (hcall : Meets (call w) (fun a w' => Q a w' ∧ AllPaced w') (fun e w' => E e w' ∧ Orderly e w'))
      (hq : ∀ a w', Q a w' → Steady device profile microphone w') :
      Meets (quietly call w) (fun _ => Safe device profile microphone) Orderly :=
    meets_bind (hcall.mono (fun _ _ h => h) fun _ _ he => he.2) fun a w' h => ⟨hq a w' h.1, h.2⟩
  have hpaced (w' : Worker H K) : Still w w' → AllPaced w' := h.paced.still
  cases part with
  | service =>
    have hservice : Meets (UsbipWorker.service now w)
        (fun _ w' => Steady device profile microphone w' ∧ AllPaced w')
        (fun e w' => True ∧ Orderly e w') := by
      unfold UsbipWorker.service
      rcases HidHandler.service now w.hid with ⟨result | _, hid⟩
      · exact ⟨trivial, orderly_io⟩
      · exact ⟨h.steady.keep ⟨rfl, rfl⟩ (ht.congr rfl rfl rfl rfl rfl), hpaced _ ⟨rfl, rfl, rfl⟩⟩
    exact hend hservice fun _ _ h => h
  | receive => exact hend ((receiveOne_spec h.steady).and (receiveOne_paced h.paced)) fun _ _ h => h
  | ready =>
    exact hend ((readyTurn_spec ho h.steady).and (readyTurn_paced ho hfew h)) fun _ _ h => h.1
  | deadlines =>
    refine hend ((checkDeadlines_spec h.steady).and
      (checkDeadlines_quiet.mono (fun _ => hpaced) fun _ _ he => he)) fun _ _ h => h.1
  | flush =>
    refine hend ((flush_spec ht hu).and
      (flush_quiet.mono (fun _ => hpaced) fun _ _ he => he)) ?_
    rintro _ _ ⟨ht', outgoing, host, log, rfl⟩
    exact h.steady.keep ⟨rfl, rfl⟩ ht'
  | observe =>
    obtain ⟨_, hrun, ⟨host, mic, log, rfl⟩, ht'⟩ := hearProducer_spec ht
    have hs : Steady device profile microphone { w with host, microphone := mic, log } :=
      h.steady.keep ⟨rfl, rfl⟩ ht'
    refine hend (Q := fun _ w' => Steady device profile microphone w') (E := fun _ _ => True)
      ?_ fun _ _ h => h
    unfold UsbipWorkerBounds.observe
    rw [meets_bind_ok hrun]
    refine ⟨hs.keep ⟨rfl, rfl⟩ ?_, hpaced _ ⟨rfl, rfl, rfl⟩⟩
    exact ht'.congr rfl rfl rfl rfl rfl
  | wait =>
    have hwait : Meets (UsbipWorker.wait w)
        (fun _ w' => Steady device profile microphone w' ∧ AllPaced w')
        (fun e w' => True ∧ Orderly e w') := by
      unfold UsbipWorker.wait
      rcases Host.wait w.host with ⟨result | _, host⟩
      · exact ⟨trivial, orderly_io⟩
      · exact ⟨h.steady.keep ⟨rfl, rfl⟩ (ht.congr rfl rfl rfl rfl rfl), hpaced _ ⟨rfl, rfl, rfl⟩⟩
    exact hend hwait fun _ _ h => h

theorem turns_safe (ho : Origin profile capacity prior microphone)
    (hfew : profile.microphoneChannels ≤ 2) {w₀ : Worker H K}
    (h₀ : Safe device profile microphone w₀) (h : Turns w₀ w) :
    Safe device profile microphone w := by
  induction h with
  | refl => exact h₀
  | tail _ hstep ih =>
    obtain ⟨part, now, hrun⟩ := hstep
    have hpart := part_safe ho hfew ih now part
    rw [hrun] at hpart
    exact hpart

/-- What one transfer reads and writes. -/
structure TransferBounds (w : Worker H K) (s : Slot) (submit : Submit) : Prop where
  placed : ∀ p ∈ submit.packets, p.offset + p.length ≤ submit.header.transferBytes
  ordered : submit.packets.Pairwise fun p q => p.offset + p.length ≤ q.offset
  limit : submit.header.transferBytes ≤ maxTransferBytes
  captured_le : s.captured ≤ s.capturePackets
  packets_le : s.capturePackets ≤ submit.packets.length
  /-- The packet that is captured next, and its place in the buffer. -/
  next : captureDue w.control s ≠ none → ∃ p, submit.packets[s.captured]? = some p ∧
    s.captured * packetBytes w.profile.microphoneChannels ≤ p.offset
  /-- The pieces of a capture are packed, each within what its packet asked for. -/
  capture : ∀ v : Worker H K, v.microphone = w.microphone →
    Meets (capturePackets s w.microphone.format.channels.length 0 submit.packets v)
      (fun data _ =>
        data.length = submit.packets.length * packetBytes w.profile.microphoneChannels ∧
        ∀ i p, submit.packets[i]? = some p →
          packetBytes w.profile.microphoneChannels ≤ p.length ∧
            i * packetBytes w.profile.microphoneChannels ≤ p.offset)
      (fun e _ => e ≠ .panic)
  payload : submit.header.direction = .out →
    submit.payload.length = submit.header.transferBytes
  playback : ∀ v : Worker H K,
    Meets (playbackPackets w.profile.playbackChannels submit.payload submit.packets v)
      (fun _ v' =>
        Hands (submit.packets.map (packetSamples submit.payload)) v.playback v'.playback)
      (fun e v' => e ≠ .panic ∧ ∃ queued,
        queued <+: submit.packets.map (packetSamples submit.payload) ∧
          Hands queued v.playback v'.playback)

/-- Nothing that an isochronous transfer does leaves its buffers. -/
structure IsoBounds (w : Worker H K) : Prop where
  playing : 0 < w.profile.playbackChannels
  /-- The clock of a capture does not underflow. -/
  due : ∀ s ∈ w.live, (s.capturePackets - s.captured - 1) * 1000 ≤ s.ready
  transfers : ∀ s ∈ w.live, ∃ submit n, decode s.bytes w.device = .ok (.submit submit, n) ∧
    TransferBounds w s submit
  orderly : ∀ part now e w', Part.run now part w = (.error e, w') → e ≠ .panic

omit [HidHandler H] in
theorem Safe.transferBounds (ho : Origin profile capacity prior microphone)
    (hfew : profile.microphoneChannels ≤ 2) (h : Safe device profile microphone w) {s : Slot}
    (hs : s ∈ w.live) : ∃ submit n, decode s.bytes w.device = .ok (.submit submit, n) ∧
      TransferBounds w s submit := by
  have hfilled := (Steady.sound ho h.steady).filled s hs
  obtain ⟨submit, hd, _, _, hcount⟩ := hfilled.holds
  have hdevice := h.steady.tracks.device_eq
  rw [← hdevice] at hd
  have hfits := h.fits ho hs hd
  rw [← h.steady.tracks.profile_eq] at hfew
  obtain ⟨header, hh, _, _, hheader, _, _, hpayload, hcheck⟩ := decode_ok hd
  obtain ⟨hplaced, hordered⟩ := checkPackets_ok hcheck
  have hpackets : s.capturePackets ≤ submit.packets.length := by
    rw [length_packets hd, hcount]
    unfold captureCount
    split
    · exact le_rfl
    · exact Nat.zero_le _
  refine ⟨submit, _, hd, ?_, hordered, ?_, hfilled.captured_le, hpackets, ?_, ?_, ?_, ?_⟩
  · rw [hheader]
    exact fun p hp => (hplaced p hp).2
  · rw [hheader]
    exact (Header.decode_ok hh).transfer_le
  · intro hdue
    have hlt : s.captured < s.capturePackets := by
      by_contra hge
      refine hdue ?_
      unfold captureDue
      rw [if_neg fun h => hge h.2]
    obtain ⟨p, hp⟩ : ∃ p, submit.packets[s.captured]? = some p :=
      ⟨_, List.getElem?_eq_getElem (hlt.trans_le hpackets)⟩
    exact ⟨p, hp, ((h.paced s hs).room hd hp).1⟩
  · intro v hv
    have hhear : Hearing w.profile.microphoneChannels v := by
      unfold Hearing
      rw [hv]
      exact hfits.hearing
    rw [hfits.channels]
    refine (capturePackets_fills hfew hd hfits.data hfits.long submit.packets [] rfl nofun
      hhear).mono ?_ fun _ _ he => he
    rintro data v' ⟨_, hlength, hlong⟩
    refine ⟨hlength, fun i p hp => ⟨hlong p (List.mem_of_getElem? hp), ?_⟩⟩
    exact (packets_room hd hp fun q hq => hlong q (List.mem_of_mem_take hq)).1
  · intro hout
    rw [hpayload, hheader]
    rw [hheader] at hout
    unfold Header.payloadBytes
    rw [if_pos hout]
  · exact fun v => playbackPackets_order _ _ _ v

omit [HidHandler H] [Host K] in
theorem new_playing {playback : PcmQueue.Queue} {host : K} {hid : H}
    (h : UsbipWorker.new host device profile hid playback microphone = .ok w) :
    0 < profile.playbackChannels ∧ w.live = [] := by
  unfold UsbipWorker.new at h
  split at h
  · cases h
  · next hf =>
    obtain rfl := Except.ok.inj h
    refine ⟨?_, rfl⟩
    have hacc : profile.acceptsPlayback playback.format = true := by
      by_contra hn
      exact hf (.inl hn)
    unfold Profile.acceptsPlayback at hacc
    rw [decide_eq_true_eq] at hacc
    have hpos := playback.format.channels_pos
    rw [hacc.2] at hpos
    exact hpos

/-- Captures and playback stay in their buffers and no part panics, in every worker that parts of
the main loop can lead to; the main loop itself is made of such parts. -/
theorem isochronous_in_bounds {format : PcmQueue.PcmFormat} {q₀ playback : PcmQueue.Queue}
    {host : K} {hid : H} {w₀ : Worker H K} (hq : PcmQueue.pcmQueue format capacity = .ok q₀)
    (hp : Run PcmQueue.Step q₀ prior microphone)
    (hn : UsbipWorker.new host device profile hid playback microphone = .ok w₀)
    (hfew : profile.microphoneChannels ≤ 2) :
    (∀ w, Turns w₀ w → IsoBounds w) ∧
      ∀ nows, Meets (runInner nows w₀) (fun _ => Turns w₀)
        (fun e w' => e ≠ .panic ∧ Stops w₀ e w') := by
  obtain ⟨hsteady, hc⟩ := new_steady hn
  have ho : Origin profile capacity prior microphone := ⟨⟨format, q₀, hq, hp⟩, hc⟩
  obtain ⟨hplaying, hempty⟩ := new_playing hn
  have hpaced : AllPaced w₀ := by
    intro s hs
    rw [hempty] at hs
    cases hs
  have hsafe (w : Worker H K) (h : Turns w₀ w) : Safe device profile microphone w :=
    turns_safe ho hfew ⟨hsteady, hpaced⟩ h
  have horderly {w w' : Worker H K} (h : Turns w₀ w) {part : Part} {now : ℕ} {e : Failure}
      (hrun : part.run now w = (.error e, w')) : e ≠ .panic := by
    have hpart := part_safe ho hfew (hsafe w h) now part
    rw [hrun] at hpart
    exact hpart
  constructor
  · intro w h
    have hw := hsafe w h
    refine ⟨?_, ?_, fun s hs => hw.transferBounds ho hfew hs, fun _ _ _ _ => horderly h⟩
    · rw [hw.steady.tracks.profile_eq]
      exact hplaying
    · intro s hs
      refine le_trans (Nat.mul_le_mul_right _ ?_) (hw.paced s hs).ready
      omega
  · intro nows
    refine (runInner_passes nows .refl).mono (fun _ _ h => h) ?_
    rintro e w' ⟨v, part, now, h, hrun⟩
    exact ⟨horderly h hrun, v, part, now, h, hrun⟩

/-- Two packets of the microphone are asked for, each with room to spare. -/
def roomy : Script :=
  ⟨[submitFrame 1 0 0 0 0 [0, 9, 1, 0, 0, 0, 0, 0], submitFrame 2 0 0 0 0 [1, 11, 1, 0, 2, 0, 0, 0],
      submitFrame 3 1 2 210 2 (List.replicate 8 0) ++
        (bytes32 0 ++ bytes32 100 ++ bytes32 0 ++ bytes32 0) ++
        (bytes32 110 ++ bytes32 100 ++ bytes32 0 ++ bytes32 0)], []⟩

theorem isochronous_in_bounds_roomy : ∃ w : Worker Mute Script,
    w.live.map (fun s => (s.captured, s.capturePackets)) = [(1, 2)] ∧ IsoBounds w := by
  obtain ⟨w₀, hn, hf⟩ := rehearse_ok roomy
    (fun w => ((runInner [0, 1000] w).1,
      (runInner [0, 1000] w).2.live.map fun s => (s.captured, s.capturePackets)))
    (b := (.ok (), [(1, 2)])) (by decide +kernel)
  obtain ⟨hok, hlive⟩ := Prod.mk.inj hf
  obtain ⟨hbounds, hrun⟩ :=
    isochronous_in_bounds (pcmQueue_mono .microphone) .nil hn (by decide)
  have hturns := hrun [0, 1000]
  rcases hr : runInner [0, 1000] w₀ with ⟨result, w⟩
  rw [hr] at hok hlive hturns
  rw [show result = .ok () from hok] at hturns
  exact ⟨w, hlive, hbounds w hturns⟩

end Safety

end UsbipWorkerBounds
