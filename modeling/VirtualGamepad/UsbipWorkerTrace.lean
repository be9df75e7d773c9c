import VirtualGamepad.UsbipWorkerLedger

/-! Every run of the worker is a run of its ledger. A call that succeeds leaves the worker and
the ledger in step; a call that fails leaves them with the same slots and the same counters. -/
namespace UsbipWorkerTrace

open Fallible MachineInt Runs WireBytes UsbipFrame UsbipPending UsbipControl UsbipWorker
open UsbipWorkerLedger
open UsbipCompletionQueue (CompletionQueue Outlet IoError)

variable {H K : Type}

def books (c : Counters) : Books :=
  ⟨c.microphoneConsumedFrames, c.microphoneSilenceFrames, c.microphoneHostFrames, c.captureFrames,
    c.abandonedCaptureFrames⟩

/-- The ledger of a worker; `receive` is not its buffer while a command is carried out. -/
def ledger (receive : List UInt8) (phase : Phase) (w : Worker H K) : Ledger :=
  ⟨receive, w.live, w.pending, w.control, w.microphone, w.outgoing.unsent, w.nextOrder,
    books w.counters, phase⟩

def Undecodable (device : ℕ) (receive : List UInt8) : Prop :=
  ∀ r, decode receive device ≠ .ok r

/-- Where the worker's parts come from. The microphone queue may have been in use before. -/
structure Origin (profile : Profile) (capacity : ℕ) (prior : List PcmQueue.Label)
    (microphone : PcmQueue.Queue) : Prop where
  queue : ∃ format q₀, PcmQueue.pcmQueue format capacity = .ok q₀ ∧
    Run PcmQueue.Step q₀ prior microphone
  channels : microphone.format.channels.length = profile.microphoneChannels

section Tracking

variable (device : ℕ) (profile : Profile) (microphone : PcmQueue.Queue)

/-- The worker and the ledger are in step. -/
structure Tracks (receive : List UInt8) (phase : Phase) (w : Worker H K) : Prop where
  run : Run (Step device profile) (Ledger.new device microphone) w.log (ledger receive phase w)
  device_eq : w.device = device
  profile_eq : w.profile = profile
  outgoing : w.outgoing.Valid

/-- What is known after a failure. -/
def Lost (w : Worker H K) : Prop :=
  ∃ L, Run (Step device profile) (Ledger.new device microphone) w.log L ∧ L.slots = w.live ∧
    L.books = books w.counters ∧ Undecodable device L.receive

end Tracking

variable {device capacity : ℕ} {profile : Profile} {microphone : PcmQueue.Queue}
variable {prior : List PcmQueue.Label} {receive : List UInt8} {phase : Phase}
variable {w w' : Worker H K} {now : ℕ}

theorem Origin.sound (ho : Origin profile capacity prior microphone) {log : List Event} {L : Ledger}
    (h : Run (Step device profile) (Ledger.new device microphone) log L) :
    Sound device profile capacity prior log L := by
  obtain ⟨format, q₀, hq, hr⟩ := ho.queue
  exact run_sound hq hr ho.channels h

theorem Tracks.lost (h : Tracks device profile microphone receive phase w)
    (hu : Undecodable device receive) : Lost device profile microphone w :=
  ⟨_, h.run, rfl, rfl, hu⟩

/-- A failure may leave any part that the slots and the counters do not depend on. -/
theorem Tracks.lost_of (h : Tracks device profile microphone receive phase w)
    (hu : Undecodable device receive) (hl : w'.log = w.log) (hs : w'.slots = w.slots)
    (hc : books w'.counters = books w.counters) : Lost device profile microphone w' := by
  refine ⟨ledger receive phase w, ?_, ?_, hc.symm, hu⟩
  · rw [hl]
    exact h.run
  · change w.live = w'.live
    unfold Worker.live
    rw [hs]

theorem Tracks.step {e : Event} {receive' : List UInt8} {phase' : Phase} {L : Ledger}
    (h : Tracks device profile microphone receive phase w)
    (st : Step device profile (ledger receive phase w) e L) (hl : w'.log = w.log ++ [e])
    (hs : ledger receive' phase' w' = L) (hd : w'.device = w.device) (hp : w'.profile = w.profile)
    (ho : w'.outgoing.Valid) : Tracks device profile microphone receive' phase' w' := by
  constructor
  · rw [hl, hs]
    exact h.run.snoc st
  · rw [hd, h.device_eq]
  · rw [hp, h.profile_eq]
  · exact ho

/-- Changes that the ledger does not see. -/
theorem Tracks.congr (h : Tracks device profile microphone receive phase w)
    (hl : w'.log = w.log) (hs : ledger receive phase w' = ledger receive phase w)
    (hd : w'.device = w.device) (hp : w'.profile = w.profile) (ho : w'.outgoing = w.outgoing) :
    Tracks device profile microphone receive phase w' := by
  constructor
  · rw [hl, hs]
    exact h.run
  · rw [hd, h.device_eq]
  · rw [hp, h.profile_eq]
  · rw [ho]
    exact h.outgoing

theorem undecodable_nil : Undecodable device [] := by
  intro r h
  have hd : decode [] device = .error .incomplete := rfl
  rw [hd] at h
  cases h

section Parts

theorem Tracks.produce (h : Tracks device profile microphone receive phase w) (call : ProducerCall) :
    Tracks device profile microphone receive phase (produce w call) := by
  have hq : Produces (call.label w.microphone).1 ∧
      PcmQueue.Step w.microphone (call.label w.microphone).1 (call.label w.microphone).2 := by
    cases call with
    | push samples => exact ⟨.push _ _, rfl⟩
    | discard frames => exact ⟨.discard _ _, rfl⟩
    | flush => exact ⟨.flush _, rfl⟩
    | close => exact ⟨.close, rfl⟩
  exact h.step (.microphone hq.1 hq.2) rfl rfl rfl rfl h.outgoing

/-- Only the microphone queue, the host and the log hear of the producer. -/
def Hears (w w' : Worker H K) : Prop :=
  ∃ host microphone log, w' = { w with host, microphone, log }

theorem foldl_produce_hears (calls : List ProducerCall) (h : Hears w w') :
    Hears w (calls.foldl UsbipWorker.produce w') := by
  induction calls generalizing w' with
  | nil => exact h
  | cons call calls ih =>
    apply ih
    obtain ⟨host, microphone, log, rfl⟩ := h
    exact ⟨_, _, _, rfl⟩

theorem Tracks.produceAll (calls : List ProducerCall)
    (h : Tracks device profile microphone receive phase w) :
    Tracks device profile microphone receive phase (calls.foldl UsbipWorker.produce w) := by
  induction calls generalizing w with
  | nil => exact h
  | cons call calls ih => exact ih (h.produce call)

theorem push_spec {bytes : List UInt8} {event : Event} {phase' : Phase}
    (h : Tracks device profile microphone receive phase w) (hu : Undecodable device receive)
    (st : Step device profile (ledger receive phase w) event
      { ledger receive phase w with
        unsent := (ledger receive phase w).unsent ++ bytes, phase := phase' }) :
    Meets (push bytes now event w)
      (fun _ w' => Tracks device profile microphone receive phase' w' ∧
        ∃ outgoing log, w' = { w with outgoing, log })
      (fun _ => Lost device profile microphone) := by
  unfold push
  rcases hp : UsbipCompletionQueue.push bytes now w.outgoing with ⟨result, outgoing⟩
  rcases UsbipCompletionQueue.CompletionQueue.push_spec h.outgoing hp with
    ⟨error, rfl, rfl⟩ | ⟨rfl, hv, hs⟩
  · exact h.lost hu
  · refine ⟨?_, outgoing, _, rfl⟩
    refine h.step st rfl ?_ rfl rfl hv
    exact Ledger.ext rfl rfl rfl rfl rfl hs rfl rfl rfl

variable [Host K]

theorem hearProducer_spec (h : Tracks device profile microphone receive phase w) :
    ∃ w', hearProducer w = (.ok (), w') ∧ Hears w w' ∧
      Tracks device profile microphone receive phase w' := by
  rcases hp : Host.produced w.host with ⟨calls, host⟩
  have hrun : hearProducer w = (.ok (), calls.foldl UsbipWorker.produce { w with host }) := by
    unfold hearProducer Fallible.modify
    dsimp only
    rw [hp]
  have hstart : Tracks device profile microphone receive phase { w with host } :=
    h.congr rfl rfl rfl rfl rfl
  exact ⟨_, hrun, foldl_produce_hears calls ⟨host, _, _, rfl⟩, hstart.produceAll calls⟩

theorem flush_spec (h : Tracks device profile microphone receive phase w)
    (hu : Undecodable device receive) :
    Meets (flush now w)
      (fun _ w' => Tracks device profile microphone receive phase w' ∧
        ∃ outgoing host log, w' = { w with outgoing, host, log })
      (fun _ => Lost device profile microphone) := by
  unfold flush
  rcases hf : UsbipCompletionQueue.flush Host.write now ⟨w.outgoing, w.host, []⟩ with
    ⟨result, outlet⟩
  obtain ⟨hv, hs⟩ := UsbipCompletionQueue.CompletionQueue.flushTurns_conserves h.outgoing hf
  have ht : Tracks device profile microphone receive phase
      { w.record (.written outlet.sent) with outgoing := outlet.queue, host := outlet.writer } :=
    h.step (.written hs.symm) rfl rfl rfl rfl hv
  cases result with
  | error e => exact ht.lost hu
  | ok _ => exact ⟨ht, _, _, _, rfl⟩

end Parts

section Capture

/-- The receiver's own fields. -/
def Undisturbed (w w' : Worker H K) : Prop :=
  w'.receive = w.receive ∧ w'.expected = w.expected

theorem heldRequest_spec {s : Slot} {otherwise : String} :
    Meets (heldRequest s otherwise w)
      (fun submit w' => w' = w ∧ ∃ n, decode s.bytes w.device = .ok (.submit submit, n))
      (fun _ w' => w' = w) := by
  unfold heldRequest
  rw [meets_get_bind]
  cases hd : decode s.bytes w.device with
  | error e => exact rfl
  | ok r =>
    obtain ⟨request, n⟩ := r
    cases request with
    | submit submit => exact ⟨rfl, n, rfl⟩
    | unlink sequence target => exact rfl

/-- The counters after one packet of the microphone. -/
def capturedCounters (c : Counters) (read : PcmQueue.PcmRead) : Counters :=
  ({ c with microphoneConsumedFrames := c.microphoneConsumedFrames + read.frames
    }).recordMicrophoneProgress (48 - read.frames)

theorem onMicrophone_spec {α : Type} (call : Action PcmQueue.AudioError PcmQueue.Queue α) :
    Meets (onMicrophone call w)
      (fun a w' => ∃ q, call w.microphone = (.ok a, q) ∧ w' = { w with microphone := q })
      (fun _ w' => ∃ q, w' = { w with microphone := q }) := by
  unfold onMicrophone
  rcases hc : call w.microphone with ⟨result | a, q⟩
  · exact ⟨q, rfl⟩
  · exact ⟨q, rfl, rfl⟩

variable [Host K]

theorem capturePacket_spec (length channels room : ℕ)
    (h : Tracks device profile microphone receive phase w) (hu : Undecodable device receive) :
    Meets (capturePacket length channels room w)
      (fun r w' => ∃ w₁ q, Hears w w₁ ∧ Tracks device profile microphone receive phase w₁ ∧
        PcmQueue.read (List.replicate (48 * channels) 0) w₁.microphone = (.ok r, q) ∧
        w' = { w₁ with microphone := q, counters := capturedCounters w₁.counters r.1 })
      (fun _ => Lost device profile microphone) := by
  unfold capturePacket
  dsimp only
  split
  · exact h.lost hu
  · split
    · exact h.lost hu
    · obtain ⟨w₁, hrun, hears, ht⟩ := hearProducer_spec h
      rw [meets_bind_ok hrun]
      have hread := (onMicrophone_spec (w := w₁)
        (PcmQueue.read (List.replicate (48 * channels) 0))).mono (fun a t hq => hq)
        fun e t ⟨q, hq⟩ => by
          subst hq
          exact ht.lost_of hu rfl rfl rfl
      refine meets_bind hread ?_
      rintro ⟨read, samples⟩ w₂ ⟨q, hq, rfl⟩
      exact ⟨w₁, q, hears, ht, hq, rfl⟩

/-- A capture transfer whose next packet is due takes 48 frames from the queue. -/
theorem captureOne_spec {index due : ℕ} {s : Slot}
    (h : Tracks device profile microphone receive .idle w) (hu : Undecodable device receive)
    (hs : w.slots[index]? = some (some s)) (hsel : Selected (ledger receive .idle w) s)
    (hdue : captureDue w.control s = some due) :
    Meets (captureOne index w)
      (fun _ w' => Tracks device profile microphone receive .idle w' ∧ Undisturbed w w' ∧
        w'.work < w.work)
      (fun _ => Lost device profile microphone) := by
  have hslot : w.slot index = some s := by
    unfold Worker.slot
    rw [hs]
    rfl
  have hcap : w.control.microphoneActive ∧ s.captured < s.capturePackets := by
    unfold captureDue at hdue
    split at hdue
    · next hc => exact hc
    · cases hdue
  unfold captureOne
  rw [meets_get_bind, hslot]
  refine meets_bind (heldRequest_spec.mono (fun a t ht => ht) fun e t ht => ?_) ?_
  · subst ht
    exact h.lost hu
  · rintro request v ⟨hv, n, hd⟩
    rw [hv]
    cases hp : request.packets[s.captured]? with
    | none => exact h.lost hu
    | some packet =>
      dsimp only
      split
      · exact h.lost hu
      · refine meets_bind (capturePacket_spec _ _ _ h hu) ?_
        rintro ⟨read, samples⟩ _ ⟨w₁, q, ⟨host, mic, log, rfl⟩, ht, hq, rfl⟩
        obtain ⟨a, b, hl, _, hset⟩ := SlotTable.set_splice hs
        rw [meets_modify]
        refine ⟨?_, ⟨rfl, rfl⟩, ?_⟩
        · rw [h.profile_eq] at hq
          have hst : Step device profile
              (ledger receive .idle { w with host, microphone := mic, log }) _ _ :=
            .captured (a := a) (b := b) rfl hl hcap.1 hcap.2 hsel hq
          refine ht.step hst rfl ?_ rfl rfl h.outgoing
          exact Ledger.ext rfl (hset _) rfl rfl rfl rfl rfl rfl rfl
        · unfold Worker.work Worker.live
          dsimp only [Worker.record]
          rw [hset, hl]
          simp only [List.map_append, List.map_cons, List.sum_append, List.sum_cons]
          omega

end Capture

section Receive

/-- What a partial frame in the buffer is waiting for. -/
def Framed (w : Worker H K) : Prop :=
  w.expected = headerBytes ∨
    ∃ header, Header.decode w.receive w.device = .ok header ∧ w.expected = header.wireBytes

/-- The worker between two calls. -/
structure Steady (device : ℕ) (profile : Profile) (microphone : PcmQueue.Queue)
    (w : Worker H K) : Prop where
  tracks : Tracks device profile microphone w.receive .idle w
  part : w.receive.length < w.expected
  framed : Framed w

theorem Steady.undecodable (h : Steady device profile microphone w) :
    Undecodable device w.receive := by
  have hd := h.tracks.device_eq
  intro r hr
  rcases h.framed with he | ⟨header, hh, he⟩
  · have hl : w.receive.length < headerBytes := he ▸ h.part
    have herr : Header.decode w.receive device = .error .incomplete := by
      unfold Header.decode
      rw [if_pos hl]
    rw [decode_header_error herr] at hr
    cases hr
  · rw [hd] at hh
    rw [decode_short hh (he ▸ h.part)] at hr
    cases hr

/-- Calls that leave the receiver alone keep the worker steady. -/
theorem Steady.keep (h : Steady device profile microphone w) (hu : Undisturbed w w')
    (ht : Tracks device profile microphone w.receive .idle w') :
    Steady device profile microphone w' := by
  obtain ⟨hr, he⟩ := hu
  constructor
  · rw [hr]
    exact ht
  · rw [hr, he]
    exact h.part
  · unfold Framed
    rw [hr, he, ht.device_eq, ← h.tracks.device_eq]
    exact h.framed

theorem onPending_spec {α : Type} (call : Action PendingError Pending α) :
    Meets (onPending call w)
      (fun a w' => ∃ p, call w.pending = (.ok a, p) ∧ w' = { w with pending := p })
      (fun _ w' => ∃ p, w' = { w with pending := p }) := by
  unfold onPending
  rcases hc : call w.pending with ⟨result | a, p⟩
  · exact ⟨p, rfl⟩
  · exact ⟨p, rfl, rfl⟩

theorem liftFrame_ok {α : Type} {a : α} : (liftFrame (.ok a) : Work H K α) w = (.ok a, w) := rfl

theorem liftFrame_error {α : Type} {e : UsbipFrame.Error} :
    (liftFrame (.error e) : Work H K α) w = (.error (error (frameDebug e)), w) := rfl

theorem submitRequest_spec {submit : Submit}
    (h : Tracks device profile microphone [] (.commanded w.receive (.submit submit)) w)
    (hd : decode w.receive device = .ok (.submit submit, w.receive.length)) :
    Meets (submitRequest submit.header now w)
      (fun _ w' => Tracks device profile microphone [] .idle w')
      (fun _ => Lost device profile microphone) := by
  have hu : Undecodable device [] := undecodable_nil
  unfold submitRequest
  rw [meets_get_bind]
  cases hr : checkedAdd (latestReady w.live (streamOf submit.header) now)
      (delayOf submit.header) with
  | none => exact h.lost hu
  | some ready =>
    obtain ⟨rfl, _⟩ := checkedAdd_eq_some.mp hr
    dsimp only
    split
    · exact h.lost hu
    · next hfree =>
      refine meets_bind ((onPending_spec _).mono (fun a t ht => ht) fun e t ⟨p, hp⟩ => ?_) ?_
      · subst hp
        exact h.lost_of hu rfl rfl rfl
      · rintro ticket _ ⟨pending, hi, rfl⟩
        let slot := freshSlot (ledger [] (.commanded w.receive (.submit submit)) w) w.receive
          submit.header ticket now
        obtain ⟨slots, hslots⟩ : ∃ slots, SlotTable.insert slot w.slots = some slots := by
          cases hins : SlotTable.insert slot w.slots with
          | some slots => exact ⟨slots, rfl⟩
          | none => exact absurd (List.all_eq_true.mpr (SlotTable.insert_none hins)) hfree
        obtain ⟨a, b, hl, hl'⟩ := SlotTable.insert_splice hslots
        have hst : Step device profile
            (ledger [] (.commanded w.receive (.submit submit)) w) _ _ := .admitted rfl hd hi hl
        have hlive : SlotTable.live ((SlotTable.insert slot w.slots).getD w.slots) =
            a ++ slot :: b := by
          rw [hslots]
          exact hl'
        refine meets_modify_bind.mpr ?_
        cases hn : checkedAdd w.nextOrder 1 with
        | none =>
          exact ⟨_, h.run.snoc hst, hlive.symm, rfl, hu⟩
        | some next =>
          obtain ⟨rfl, _⟩ := checkedAdd_eq_some.mp hn
          refine h.step hst rfl ?_ rfl rfl h.outgoing
          exact Ledger.ext rfl hlive rfl rfl rfl rfl rfl rfl rfl

theorem cancel_spec {bytes : List UInt8} {sequence target : ℕ}
    (h : Tracks device profile microphone [] (.commanded bytes (.unlink sequence target)) w) :
    ∃ found w', cancel sequence target w = (.ok found, w') ∧
      Tracks device profile microphone [] (.cancelled sequence found) w' := by
  have hst : Step device profile (ledger [] (.commanded bytes (.unlink sequence target)) w) _ _ :=
    .cancelled rfl rfl
  refine ⟨_, _, rfl, h.step hst rfl ?_ rfl rfl h.outgoing⟩
  exact Ledger.ext rfl SlotTable.live_clear rfl rfl rfl rfl rfl rfl rfl

variable [Host K]

theorem unlinkRequest_spec {bytes : List UInt8} {sequence target : ℕ}
    (h : Tracks device profile microphone [] (.commanded bytes (.unlink sequence target)) w) :
    Meets (unlinkRequest sequence target now w)
      (fun _ w' => Tracks device profile microphone [] .idle w')
      (fun _ => Lost device profile microphone) := by
  have hu : Undecodable device [] := undecodable_nil
  obtain ⟨found, w₁, hrun, hc⟩ := cancel_spec h
  unfold unlinkRequest
  rw [meets_bind_ok hrun]
  refine meets_bind (push_spec hc hu (.retUnlink rfl)) ?_
  rintro _ w₂ ⟨ht, _⟩
  exact (flush_spec ht hu).mono (fun a t hf => hf.1) fun e t hf => hf

theorem readMore_spec (h : Steady device profile microphone w) :
    Meets (readMore now w)
      (fun early w' => match early with
        | some _ => Steady device profile microphone w'
        | none => Tracks device profile microphone w'.receive .idle w' ∧ Framed w' ∧
          w'.receive.length ≤ w'.expected)
      (fun _ => Lost device profile microphone) := by
  have hu := h.undecodable
  have ht : ∀ host : K, Tracks device profile microphone w.receive .idle { w with host } := by
    intro host
    exact h.tracks.congr rfl rfl rfl rfl rfl
  unfold readMore
  rw [meets_get_bind, if_pos h.part]
  rcases hr : Host.read w.host (w.expected - w.receive.length) with ⟨outcome, host⟩
  dsimp only
  rw [meets_modify_bind]
  have hs : Steady device profile microphone { w with host } := h.keep ⟨rfl, rfl⟩ (ht host)
  cases outcome with
  | wouldBlock => exact hs
  | interrupted => exact hs
  | failed e => exact (ht host).lost hu
  | data bytes =>
    cases bytes with
    | nil => exact (ht host).lost hu
    | cons byte bytes =>
      dsimp only
      rw [meets_modify_bind]
      generalize hb : (byte :: bytes).take (w.expected - w.receive.length) = taken
      have hlen : taken.length ≤ w.expected - w.receive.length := by
        rw [← hb, List.length_take]
        omega
      have hpart := h.part
      refine ⟨(ht host).step (.received taken rfl) rfl rfl rfl rfl h.tracks.outgoing, ?_, ?_⟩
      · rcases h.framed with he | ⟨header, hh, he⟩
        · exact .inl he
        · refine .inr ⟨header, ?_, he⟩
          exact (Header.decode_append taken (Header.decode_ok hh).long).trans hh
      · change (w.receive ++ taken).length ≤ w.expected
        rw [List.length_append]
        omega

theorem receiveOne_spec (h : Steady device profile microphone w) :
    Meets (receiveOne now w) (fun _ => Steady device profile microphone)
      (fun _ => Lost device profile microphone) := by
  unfold receiveOne
  refine meets_bind (readMore_spec h) ?_
  intro early w₁ hr
  rw [meets_get_bind]
  cases early with
  | some more => exact hr
  | none =>
    obtain ⟨ht, hf, hle⟩ := hr
    dsimp only
    split
    · next hlt => exact ⟨ht, hlt, hf⟩
    · next hge =>
      have hdev := ht.device_eq
      cases hh : Header.decode w₁.receive w₁.device with
      | error e =>
        refine ht.lost ?_
        intro r hr
        rw [hdev] at hh
        rw [decode_header_error hh] at hr
        cases hr
      | ok header =>
        rw [meets_bind_ok liftFrame_ok]
        refine meets_modify_bind.mpr ?_
        split
        · next hshort =>
          refine ⟨ht.congr rfl rfl rfl rfl rfl, hshort, .inr ⟨header, hh, rfl⟩⟩
        · next hlong =>
          have hlen : w₁.receive.length = header.wireBytes := by
            have h48 := header.headerBytes_le_wireBytes
            rcases hf with he | ⟨header', hh', he⟩
            · omega
            · rw [hh] at hh'
              obtain rfl := Except.ok.inj hh'
              omega
          cases hd : decode w₁.receive w₁.device with
          | error e =>
            refine (ht.congr rfl rfl rfl rfl rfl : Tracks device profile microphone
              w₁.receive .idle { w₁ with expected := header.wireBytes }).lost ?_
            intro r hr
            rw [hdev] at hd
            rw [hd] at hr
            cases hr
          | ok r =>
            obtain ⟨request, n⟩ := r
            obtain ⟨header', hh', hn, _⟩ := decode_ok hd
            rw [hh] at hh'
            obtain rfl := Except.ok.inj hh'
            have hd' : decode w₁.receive device = .ok (request, w₁.receive.length) := by
              rw [hlen, ← hn, ← hdev]
              exact hd
            rw [meets_bind_ok liftFrame_ok]
            refine meets_modify_bind.mpr ?_
            have hst : Step device profile (ledger w₁.receive .idle w₁) _ _ :=
              .command request rfl hd'
            have htc : Tracks device profile microphone [] (.commanded w₁.receive request)
                { w₁.record (.command request) with expected := header.wireBytes } :=
              ht.step hst rfl rfl rfl rfl ht.outgoing
            have hreset : ∀ w₂ : Worker H K, Tracks device profile microphone [] .idle w₂ →
                Steady device profile microphone { w₂ with
                  receive := [], expected := headerBytes, frameStarted := none } := by
              intro w₂ ht₂
              exact ⟨ht₂.congr rfl rfl rfl rfl rfl, Nat.zero_lt_succ 47, .inl rfl⟩
            cases request with
            | unlink sequence target =>
              refine meets_bind (unlinkRequest_spec htc) ?_
              intro _ w₂ ht₂
              exact hreset w₂ ht₂
            | submit submit =>
              obtain ⟨header', hh', _, _, hs, _⟩ := decode_ok hd
              rw [hh] at hh'
              obtain rfl := Except.ok.inj hh'
              subst hs
              refine meets_bind (submitRequest_spec htc hd') ?_
              intro _ w₂ ht₂
              exact hreset w₂ ht₂

theorem receiveLoop_spec (turns : ℕ) (h : Steady device profile microphone w) :
    Meets (receiveLoop now turns w) (fun _ => Steady device profile microphone)
      (fun _ => Lost device profile microphone) := by
  induction turns generalizing w with
  | zero => exact h
  | succ turns ih =>
    unfold receiveLoop
    refine meets_bind (receiveOne_spec h) ?_
    intro more w₁ h₁
    cases more with
    | true => exact ih h₁
    | false => exact h₁

end Receive

section Complete

/-- Only the personality, the playback queue and the host see this. -/
def Aside (w w' : Worker H K) : Prop := ∃ host hid playback, w' = { w with host, hid, playback }

theorem Aside.refl (w : Worker H K) : Aside w w := ⟨w.host, w.hid, w.playback, rfl⟩

theorem Aside.trans {w'' : Worker H K} (h : Aside w w') (h' : Aside w' w'') : Aside w w'' := by
  obtain ⟨_, _, _, rfl⟩ := h
  obtain ⟨host, hid, playback, rfl⟩ := h'
  exact ⟨host, hid, playback, rfl⟩

theorem Tracks.aside (h : Tracks device profile microphone receive phase w) (ha : Aside w w') :
    Tracks device profile microphone receive phase w' := by
  obtain ⟨_, _, _, rfl⟩ := ha
  exact h.congr rfl rfl rfl rfl rfl

theorem capturePackets_held {s : Slot} [Host K] (channels : ℕ) (packets : List IsoPacket) (i : ℕ)
    (hi : i + packets.length ≤ s.captured) :
    capturePackets s channels i packets w = (.error .panic, w) ∨
      capturePackets s channels i packets w = (.ok (slice s.captureData (i * (48 * channels * 2))
        (packets.length * (48 * channels * 2))), w) := by
  induction packets generalizing i with
  | nil =>
    right
    simp [capturePackets, slice]
    rfl
  | cons packet packets ih =>
    rw [List.length_cons] at hi
    unfold capturePackets
    dsimp only
    rw [if_pos (by omega)]
    split
    · exact .inl rfl
    · rcases ih (i + 1) (by omega) with h | h
      · rw [bind_run_error h]
        exact .inl rfl
      · rw [bind_run_ok h]
        right
        have hs : ∀ d : List UInt8, ∀ a x y, slice d a x ++ slice d (a + x) y = slice d a (x + y) := by
          intro d a x y
          unfold slice
          rw [List.take_add, List.drop_drop]
        have hlen : (packet :: packets).length * (48 * channels * 2) =
            48 * channels * 2 + packets.length * (48 * channels * 2) := by
          rw [List.length_cons, Nat.succ_mul, Nat.add_comm]
        rw [hlen, ← hs, ← Nat.succ_mul]
        rfl

theorem sum_map_const (n : ℕ) (packets : List IsoPacket) :
    (packets.map fun _ => n).sum = packets.length * n := by
  induction packets with
  | nil => exact (Nat.zero_mul n).symm
  | cons packet packets ih =>
    rw [List.map_cons, List.sum_cons, ih, List.length_cons, Nat.succ_mul, Nat.add_comm]

/-- What the outcome of a transfer says: a successful capture returns what the slot holds. -/
structure Agrees (s : Slot) (header : Header) (channels : ℕ) (o : Outcome) : Prop where
  status_eq : o.status = 0 ∨ o.status = -32
  capture : o.status = 0 → header.packets ≠ 0 → header.direction = .in →
    s.captured = s.capturePackets ∧ o.actual = s.captured * (48 * channels * 2) ∧
      o.data = s.captureData

theorem Agrees.plain {s : Slot} {header : Header} {channels : ℕ} {o : Outcome}
    (hs : o.status = 0 ∨ o.status = -32)
    (hn : o.status = -32 ∨ header.packets = 0 ∨ header.direction = .out) :
    Agrees s header channels o := by
  refine ⟨hs, ?_⟩
  intro h₀ hp hd
  rcases hn with hn | hn | hn
  · rw [h₀] at hn
    cases hn
  · exact absurd hn hp
  · rw [hd] at hn
    cases hn

theorem Agrees.stalled (s : Slot) (header : Header) (channels : ℕ) :
    Agrees s header channels (.stalled header) := .plain (.inr rfl) (.inl rfl)

/-- The state in the middle of one transfer: at most the control state has changed. -/
def Serving (device : ℕ) (profile : Profile) (microphone : PcmQueue.Queue)
    (receive : List UInt8) (s : Slot) (w w' : Worker H K) : Prop :=
  (∃ applied, Tracks device profile microphone receive (.completing s applied) w') ∧
    w'.slots = w.slots ∧ Undisturbed w w'

theorem Serving.aside {s : Slot} {applied : Bool}
    (h : Tracks device profile microphone receive (.completing s applied) w)
    (ha : Aside w w') : Serving device profile microphone receive s w w' := by
  refine ⟨⟨applied, h.aside ha⟩, ?_⟩
  obtain ⟨_, _, _, rfl⟩ := ha
  exact ⟨rfl, rfl, rfl⟩

theorem onPlayback_spec {α : Type} (call : Action PcmQueue.AudioError PcmQueue.Queue α) :
    Meets (onPlayback call w) (fun _ => Aside w) (fun _ => Aside w) := by
  unfold onPlayback
  rcases call w.playback with ⟨result | a, playback⟩
  · exact ⟨w.host, w.hid, playback, rfl⟩
  · exact ⟨w.host, w.hid, playback, rfl⟩

section Personality

variable [HidHandler H]

theorem controlResponse_spec (completion : Completion) :
    Meets (controlResponse completion now w) (fun _ => Aside w) (fun _ => Aside w) := by
  unfold controlResponse
  cases completion with
  | data bytes => exact Aside.refl w
  | stall => exact Aside.refl w
  | hid kind => exact ⟨w.host, _, w.playback, rfl⟩

theorem controlTransfer_spec {s : Slot} {submit : Submit} {n channels : ℕ}
    (h : Tracks device profile microphone receive (.completing s false) w)
    (hu : Undecodable device receive) (hd : decode s.bytes device = .ok (.submit submit, n))
    (he : submit.header.endpoint = 0) (hp : submit.header.packets = 0) :
    Meets (controlTransfer s submit now w)
      (fun o w' => Serving device profile microphone receive s w w' ∧
        Agrees s submit.header channels o)
      (fun _ => Lost device profile microphone) := by
  unfold controlTransfer
  rw [meets_get_bind]
  rcases hh : handle w.profile submit.header.setup submit.payload w.control with
    ⟨completion, control⟩
  dsimp only
  rw [meets_modify_bind]
  have ht : Tracks device profile microphone receive (.completing s true)
      { w.record (.control s submit.header.setup submit.payload) with control } := by
    have hst : Step device profile (ledger receive (.completing s false) w) _ _ :=
      .control rfl hd he
    refine h.step hst rfl ?_ rfl rfl h.outgoing
    rw [h.profile_eq] at hh
    exact Ledger.ext rfl rfl rfl (congrArg Prod.snd hh).symm rfl rfl rfl rfl rfl
  refine meets_bind ((controlResponse_spec completion).mono (fun a t ha => ha) fun e t ha =>
    (ht.aside ha).lost hu) ?_
  intro response w₂ ha
  have hserve : Serving device profile microphone receive s w w₂ := by
    refine ⟨⟨true, ht.aside ha⟩, ?_⟩
    obtain ⟨_, _, _, rfl⟩ := ha
    exact ⟨rfl, rfl, rfl⟩
  cases response with
  | none => exact ⟨hserve, .stalled s _ channels⟩
  | some bytes =>
    dsimp only
    split
    · exact ⟨hserve, .plain (.inl rfl) (.inr (.inl hp))⟩
    · exact ⟨hserve, .plain (.inl rfl) (.inr (.inl hp))⟩

theorem inputTransfer_spec {header : Header} :
    Meets (inputTransfer header now w)
      (fun o w' => Aside w w' ∧ o.status = 0) (fun _ => Aside w) := by
  unfold inputTransfer
  rw [meets_get_bind]
  rcases HidHandler.input w.hid now with ⟨report, hid⟩
  dsimp only
  rw [meets_modify_bind]
  have ha : Aside w { w with hid } := ⟨w.host, hid, w.playback, rfl⟩
  cases report with
  | none => exact ha
  | some report =>
    dsimp only
    split
    · exact ha
    · exact ⟨ha, rfl⟩

theorem outputTransfer_spec {submit : Submit} :
    Meets (outputTransfer submit now w)
      (fun o w' => Aside w w' ∧ (o.status = 0 ∨ o.status = -32)) (fun _ => Aside w) := by
  unfold outputTransfer
  rw [meets_get_bind]
  rcases HidHandler.output w.hid submit.payload now with ⟨accepted, hid⟩
  dsimp only
  rw [meets_modify_bind]
  have ha : Aside w { w with hid } := ⟨w.host, hid, w.playback, rfl⟩
  split
  · exact ⟨ha, .inl rfl⟩
  · exact ⟨ha, .inr rfl⟩

end Personality

section Streams

variable [Host K]

theorem hearConsumer_spec : ∃ w', hearConsumer w = (.ok (), w') ∧ Aside w w' :=
  ⟨_, rfl, _, w.hid, _, rfl⟩

theorem playbackPackets_spec (channels : ℕ) (payload : List UInt8) (packets : List IsoPacket) :
    Meets (playbackPackets channels payload packets w) (fun _ => Aside w) (fun _ => Aside w) := by
  induction packets generalizing w with
  | nil => exact Aside.refl w
  | cons packet packets ih =>
    unfold playbackPackets
    split
    · exact Aside.refl w
    · obtain ⟨w₁, h₁, ha₁⟩ := hearConsumer_spec (w := w)
      rw [meets_bind_ok h₁]
      refine meets_bind ((onPlayback_spec _).mono (fun a t ha => ha₁.trans ha)
        fun e t ha => ha₁.trans ha) ?_
      intro frames w₂ ha₂
      obtain ⟨w₃, h₃, ha₃⟩ := hearConsumer_spec (w := w₂)
      rw [meets_bind_ok h₃]
      have ha₄ := ha₂.trans ha₃
      refine meets_bind ((onPlayback_spec _).mono (fun a t ha => ha₄.trans ha)
        fun e t ha => ha₄.trans ha) ?_
      intro _ w₅ ha₅
      exact ih.mono (fun a t ha => ha₅.trans ha) fun e t ha => ha₅.trans ha

theorem playbackTransfer_spec {submit : Submit} :
    Meets (playbackTransfer submit w)
      (fun o w' => Aside w w' ∧ o.status = 0) (fun _ => Aside w) := by
  unfold playbackTransfer
  rw [meets_get_bind]
  refine meets_bind (playbackPackets_spec _ _ _) ?_
  intro _ w₁ ha
  exact ⟨ha, rfl⟩

/-- All packets were captured before the transfer is served. -/
theorem captureTransfer_spec {s : Slot} {submit : Submit}
    (hc : submit.packets.length = s.captured)
    (hl : s.captureData.length = s.captured * (48 * w.microphone.format.channels.length * 2)) :
    Meets (captureTransfer s submit w)
      (fun o w' => w' = w ∧ o.status = 0 ∧ o.data = s.captureData ∧
        o.actual = s.captured * (48 * w.microphone.format.channels.length * 2))
      (fun _ w' => w' = w) := by
  unfold captureTransfer
  rw [meets_get_bind]
  dsimp only
  rcases capturePackets_held (w := w) (s := s) w.microphone.format.channels.length
    submit.packets 0 (by omega) with h | h
  · rw [bind_run_error h]
    exact rfl
  · rw [meets_bind_ok h]
    refine ⟨rfl, rfl, ?_, ?_⟩
    · dsimp only
      rw [Nat.zero_mul, hc, ← hl]
      exact List.take_length
    · exact (sum_map_const _ _).trans (by rw [hc])

end Streams

variable [HidHandler H] [Host K]

theorem transfer_spec {s : Slot} {submit : Submit} {n : ℕ}
    (h : Tracks device profile microphone receive (.completing s false) w)
    (hu : Undecodable device receive) (hd : decode s.bytes device = .ok (.submit submit, n))
    (hf : Filled device profile s) (hdue : captureDue w.control s = none)
    (hch : w.microphone.format.channels.length = profile.microphoneChannels) :
    Meets (transfer s submit now w)
      (fun o w' => Serving device profile microphone receive s w w' ∧
        Agrees s submit.header profile.microphoneChannels o)
      (fun _ => Lost device profile microphone) := by
  unfold transfer
  rw [meets_get_bind]
  split
  · next hc => exact controlTransfer_spec h hu hd hc.1 hc.2.1
  · split
    · next hc =>
      refine inputTransfer_spec.mono ?_ fun e t ha => (h.aside ha).lost hu
      rintro o t ⟨ha, ho⟩
      exact ⟨.aside h ha, .plain (.inl ho) (.inr (.inl hc.2.2.1))⟩
    · split
      · next hc =>
        refine outputTransfer_spec.mono ?_ fun e t ha => (h.aside ha).lost hu
        rintro o t ⟨ha, ho⟩
        exact ⟨.aside h ha, .plain ho (.inr (.inl hc.2.2.1))⟩
      · split
        · next hc =>
          refine playbackTransfer_spec.mono ?_ fun e t ha => (h.aside ha).lost hu
          rintro o t ⟨ha, ho⟩
          exact ⟨.aside h ha, .plain (.inl ho) (.inr (.inr hc.2.1))⟩
        · split
          · next hc =>
            obtain ⟨hend, hin, hpos, hact⟩ := hc
            obtain ⟨submit', hd', _, _, hcount⟩ := hf.holds
            rw [hd] at hd'
            obtain rfl := Request.submit.inj (Prod.mk.inj (Except.ok.inj hd')).1
            have hcp : s.capturePackets = submit.header.packets := by
              rw [hcount]
              unfold captureCount
              rw [if_pos ⟨hend, hin⟩]
            have hall : s.captured = s.capturePackets := by
              apply Nat.le_antisymm hf.captured_le
              by_contra hlt
              unfold captureDue at hdue
              rw [if_pos ⟨hact, by omega⟩] at hdue
              cases hdue
            have hlen : submit.packets.length = s.captured := by
              rw [length_packets hd, hall, hcp]
            have hdata := hf.data_length
            rw [← hch] at hdata
            refine (captureTransfer_spec hlen hdata).mono ?_ fun e t ht => ?_
            · rintro o t ⟨rfl, ho, hdat, hact⟩
              rw [hch] at hact
              exact ⟨⟨⟨false, h⟩, rfl, rfl, rfl⟩, .inl ho, fun _ _ _ => ⟨hall, hact, hdat⟩⟩
            · rw [ht]
              exact h.lost hu
          · exact ⟨⟨⟨false, h⟩, rfl, rfl, rfl⟩, .stalled s _ _⟩

/-- How far one transfer has come when its reply is encoded. -/
def Encoded (device : ℕ) (profile : Profile) (microphone : PcmQueue.Queue)
    (receive : List UInt8) (s : Slot) (status : ℤ) (bytes : List UInt8) (w w' : Worker H K) : Prop :=
  (∃ counted phase submit n data actual isoActual,
    Tracks device profile microphone receive phase w' ∧
    Returns (ledger receive phase w') s status data counted ∧
    decode s.bytes device = .ok (.submit submit, n) ∧
    submit.encode status data actual isoActual = .ok bytes) ∧
  (status = 0 ∨ status = -32) ∧ w'.slots = w.slots ∧ Undisturbed w w'

omit [HidHandler H] [Host K] in
theorem recordTransfer_spec {s : Slot} {submit : Submit} {n : ℕ} {o : Outcome}
    (h : Serving device profile microphone receive s w w')
    (hd : decode s.bytes device = .ok (.submit submit, n)) (hf : Filled device profile s)
    (ha : Agrees s submit.header profile.microphoneChannels o)
    (hpos : 0 < profile.microphoneChannels) :
    ∃ w'', recordTransfer s submit.header o.status o.actual w' = (.ok (), w'') ∧
      ∃ counted phase, Tracks device profile microphone receive phase w'' ∧
        Returns (ledger receive phase w'') s o.status o.data counted ∧
        w''.slots = w.slots ∧ Undisturbed w w'' := by
  obtain ⟨⟨applied, ht⟩, hs, hr⟩ := h
  unfold recordTransfer
  refine ⟨_, rfl, ?_⟩
  dsimp only
  split
  · next hst =>
    exact ⟨false, .completing s applied, ht.congr rfl rfl rfl rfl rfl, ⟨⟨applied, rfl⟩, .inl hst⟩,
      hs, hr⟩
  · next hst =>
    rw [not_not] at hst
    split
    · next hp =>
      exact ⟨false, .completing s applied, ht,
        ⟨⟨applied, rfl⟩, .inr (hf.captured_eq_zero hd (.inl hp))⟩, hs, hr⟩
    · next hp =>
      split
      · next hdir =>
        exact ⟨false, .completing s applied, ht.congr rfl rfl rfl rfl rfl,
          ⟨⟨applied, rfl⟩, .inr (hf.captured_eq_zero hd (.inr hdir))⟩, hs, hr⟩
      · next hdir =>
        have hin : submit.header.direction = .in := by
          cases hx : submit.header.direction with
          | out => exact absurd hx hdir
          | «in» => rfl
        obtain ⟨hall, hact, hdata⟩ := ha.capture hst hp hin
        have hframes : o.actual / (w'.profile.microphoneChannels * 2) = s.frames := by
          rw [hact, ht.profile_eq, show s.captured * (48 * profile.microphoneChannels * 2) =
            s.captured * 48 * (profile.microphoneChannels * 2) by
              rw [Nat.mul_assoc 48, ← Nat.mul_assoc]]
          exact Nat.mul_div_cancel _ (by omega)
        have hstep : Step device profile (ledger receive (.completing s applied) w') _ _ :=
          .counted rfl hall
        refine ⟨true, .counted s, ?_, ⟨rfl, hst, hdata⟩, hs, hr⟩
        rw [hframes]
        exact ht.step hstep rfl rfl rfl rfl ht.outgoing

theorem complete_spec (ho : Origin profile capacity prior microphone) {s : Slot}
    (h : Tracks device profile microphone receive .idle w) (hu : Undecodable device receive)
    (hmem : s ∈ w.live) (hsel : Selected (ledger receive .idle w) s)
    (hdue : captureDue w.control s = none) :
    Meets (UsbipWorker.complete s now w)
      (fun r w' => Encoded device profile microphone receive s r.1 r.2 w w')
      (fun _ => Lost device profile microphone) := by
  have hsound := ho.sound h.run
  have hf := hsound.filled s hmem
  unfold UsbipWorker.complete
  refine meets_bind ((onPending_spec _).mono (fun a t hp => hp) fun e t ⟨p, hp⟩ => ?_) ?_
  · subst hp
    exact h.lost_of hu rfl rfl rfl
  · rintro header _ ⟨pending, hc, rfl⟩
    refine meets_modify_bind.mpr ?_
    have hst : Step device profile (ledger receive .idle w) _ _ :=
      .completing rfl hmem hsel hdue hc
    have ht : Tracks device profile microphone receive (.completing s false)
        { w.record (.completing now s) with pending } :=
      h.step hst rfl rfl rfl rfl h.outgoing
    refine meets_bind (heldRequest_spec.mono (fun a t hx => hx) fun e t hx => ?_) ?_
    · rw [hx]
      exact ht.lost hu
    · rintro submit v ⟨hv, n, hd⟩
      rw [hv]
      replace hd : decode s.bytes device = .ok (.submit submit, n) := by
        rw [← h.device_eq]
        exact hd
      have hlate : ∃ v', recordAudioLateness submit.header s.ready now
            { w.record (.completing now s) with pending } = (.ok (), v') ∧
          Tracks device profile microphone receive (.completing s false) v' ∧
          v'.control = w.control ∧ v'.microphone = w.microphone ∧ v'.slots = w.slots ∧
          Undisturbed w v' := by
        unfold recordAudioLateness
        split
        · exact ⟨_, rfl, ht.congr rfl rfl rfl rfl rfl, rfl, rfl, rfl, rfl, rfl⟩
        · exact ⟨_, rfl, ht, rfl, rfl, rfl, rfl, rfl⟩
      obtain ⟨v', hrun, ht', hcontrol, hmic, hslots, hund⟩ := hlate
      have hch : v'.microphone.format.channels.length = profile.microphoneChannels := by
        rw [hmic]
        exact hsound.format
      have hpos : 0 < profile.microphoneChannels := by
        rw [← hch]
        exact v'.microphone.format.channels_pos
      refine (meets_bind_ok hrun).mpr ?_
      refine meets_bind (transfer_spec ht' hu hd hf (by rw [hcontrol]; exact hdue) hch) ?_
      rintro o v₂ ⟨hserve, hagree⟩
      obtain ⟨v₃, hrun₃, counted, phase, ht₃, hret, hs₃, hu₃⟩ :=
        recordTransfer_spec hserve hd hf hagree hpos
      rw [meets_bind_ok hrun₃]
      cases he : submit.encode o.status o.data o.actual o.isoActual with
      | error e => exact ht₃.lost hu
      | ok bytes =>
        rw [meets_bind_ok liftFrame_ok]
        split
        · exact ht₃.lost hu
        · exact ⟨⟨counted, phase, submit, n, o.data, o.actual, o.isoActual, ht₃, hret, hd, he⟩,
            hagree.status_eq, hs₃.trans hslots, hu₃.1.trans hund.1, hu₃.2.trans hund.2⟩

theorem encode_status {bytes data : List UInt8} {submit : Submit} {status : ℤ} {actual n : ℕ}
    {isoActual : List ℕ} {frame : List UInt8} (hd : decode frame device = .ok (.submit submit, n))
    (he : submit.encode status data actual isoActual = .ok bytes) :
    Replies 3 submit.header.sequence status bytes.length bytes := by
  obtain ⟨header, hh, _, _, hs, _⟩ := decode_ok hd
  refine encode_replies ?_ he
  rw [hs]
  exact (Header.decode_ok hh).sequence_lt

theorem bits32_eq_zero {status : ℤ} (h : status = 0 ∨ status = -32) :
    bits32 status ≠ 0 ↔ status ≠ 0 := by
  rcases h with rfl | rfl <;> decide

omit [HidHandler H] [Host K] in
theorem deliver_spec {index : ℕ} {s : Slot} {status : ℤ} {counted : Bool} {bytes : List UInt8}
    (h : Tracks device profile microphone receive (.replied s status counted) w)
    (hs : w.slots[index]? = some (some s)) (hb : word bytes 20 ≠ 0 ↔ status ≠ 0) :
    ∃ w', deliver index s bytes w = (.ok (), w') ∧
      Tracks device profile microphone receive .idle w' ∧ Undisturbed w w' ∧
      w'.work < w.work := by
  obtain ⟨a, b, hl, hnone, _⟩ := SlotTable.set_splice hs
  have hph : (ledger receive (.replied s status counted) w).phase = .replied s status counted := rfl
  have hst : Step device profile (ledger receive (.replied s status counted) w) _ _ :=
    .delivered hph hl
  refine ⟨_, rfl, h.step hst ?_ ?_ rfl rfl h.outgoing, ⟨rfl, rfl⟩, ?_⟩
  · simp only [Worker.record, hb]
  · refine Ledger.ext rfl hnone rfl rfl rfl rfl rfl ?_ rfl
    simp only [ledger, books, hb]
  · unfold Worker.work Worker.live
    dsimp only [Worker.record]
    rw [hnone, hl]
    simp only [List.map_append, List.map_cons, List.sum_append, List.sum_cons]
    omega

theorem completeOne_spec (ho : Origin profile capacity prior microphone) {index : ℕ} {s : Slot}
    (h : Tracks device profile microphone receive .idle w) (hu : Undecodable device receive)
    (hs : w.slots[index]? = some (some s)) (hsel : Selected (ledger receive .idle w) s)
    (hdue : captureDue w.control s = none) :
    Meets (completeOne index now w)
      (fun _ w' => Tracks device profile microphone receive .idle w' ∧ Undisturbed w w' ∧
        w'.work < w.work)
      (fun _ => Lost device profile microphone) := by
  have hslot : w.slot index = some s := by
    unfold Worker.slot
    rw [hs]
    rfl
  have hmem : s ∈ w.live := by
    obtain ⟨a, b, hl, _⟩ := SlotTable.set_splice hs
    unfold Worker.live
    rw [hl]
    simp
  unfold completeOne
  rw [meets_get_bind, hslot]
  refine meets_bind (complete_spec ho h hu hmem hsel hdue) ?_
  rintro ⟨status, bytes⟩ w₁ ⟨⟨counted, phase, submit, n, data, actual, iso, ht, hret, hd, he⟩,
    hst, hslots, hr, hx⟩
  have hreply := encode_status hd he
  have hb : word bytes 20 ≠ 0 ↔ status ≠ 0 := by
    rw [hreply.status_eq]
    exact bits32_eq_zero hst
  refine meets_bind (push_spec ht hu (.retSubmit hret hd he)) ?_
  rintro _ _ ⟨ht₂, outgoing, log, rfl⟩
  refine meets_bind (flush_spec ht₂ hu) ?_
  rintro _ _ ⟨ht₃, outgoing', host, log', rfl⟩
  have hs₃ : w₁.slots[index]? = some (some s) := by
    rw [hslots]
    exact hs
  obtain ⟨w₄, hrun, ht₄, ⟨hr₄, hx₄⟩, hwork⟩ := deliver_spec ht₃ hs₃ hb
  rw [hrun]
  refine ⟨ht₄, ⟨hr₄.trans hr, hx₄.trans hx⟩, ?_⟩
  have heq : w₁.work = w.work := by
    unfold Worker.work Worker.live
    rw [hslots]
  rw [← heq]
  exact hwork

end Complete

section Loops

theorem nextReady_spec {index : ℕ} (h : w.nextReady now = some index) :
    ∃ s, w.slots[index]? = some (some s) ∧ dueAt w.control s ≤ now ∧
      ∀ r, Selected (ledger r .idle w) s := by
  unfold Worker.nextReady at h
  rw [Option.map_eq_some_iff] at h
  obtain ⟨⟨i, s⟩, hp, rfl⟩ := h
  obtain ⟨n, rfl, hs, hdue, hmin⟩ := SlotTable.pick_some hp
  rw [decide_eq_true_eq] at hdue
  refine ⟨s, by simpa using hs, hdue, ?_⟩
  intro r t ht hlt
  -- an earlier transfer would be due as well
  refine hmin t ht ?_ hlt
  rw [decide_eq_true_eq]
  unfold SlotTable.Earlier Slot.key at hlt
  dsimp only [ledger] at hlt
  omega

theorem nextReady_none (h : w.nextReady now = none) : ∀ s ∈ w.live, now < dueAt w.control s := by
  unfold Worker.nextReady at h
  rw [Option.map_eq_none_iff] at h
  intro s hs
  have := SlotTable.pick_none h s hs
  rw [decide_eq_false_iff_not] at this
  omega

variable [HidHandler H] [Host K]

theorem readyTurn_spec (ho : Origin profile capacity prior microphone)
    (h : Steady device profile microphone w) :
    Meets (readyTurn now w)
      (fun more w' => Steady device profile microphone w' ∧
        if more then w'.work < w.work else w' = w ∧ w.nextReady now = none)
      (fun _ => Lost device profile microphone) := by
  have hu := h.undecodable
  unfold readyTurn
  rw [meets_get_bind]
  cases hn : w.nextReady now with
  | none => exact ⟨h, rfl, rfl⟩
  | some index =>
    obtain ⟨s, hs, hdue, hsel⟩ := nextReady_spec hn
    have hslot : (w.slot index).bind (captureDue w.control) = captureDue w.control s := by
      unfold Worker.slot
      rw [hs]
      rfl
    dsimp only
    rw [hslot]
    cases hc : captureDue w.control s with
    | none =>
      refine meets_bind (completeOne_spec ho h.tracks hu hs (hsel _) hc) ?_
      rintro _ w₁ ⟨ht, hund, hwork⟩
      exact ⟨h.keep hund ht, hwork⟩
    | some due =>
      have hle : due ≤ now := by
        unfold dueAt at hdue
        rw [hc] at hdue
        exact hdue
      dsimp only
      rw [if_pos hle]
      refine meets_modify_bind.mpr ?_
      let w₁ : Worker H K := { w with counters := { w.counters with
        maximumAudioLatenessUs := max w.counters.maximumAudioLatenessUs (now - due) } }
      have ht₁ : Tracks device profile microphone w.receive .idle w₁ :=
        h.tracks.congr rfl rfl rfl rfl rfl
      refine meets_bind (captureOne_spec (w := w₁) ht₁ hu hs (hsel _) hc) ?_
      rintro _ w₂ ⟨ht₂, hund, hwork⟩
      exact ⟨h.keep hund ht₂, hwork⟩

/-- With a turn for each packet and each completion the loop ends by itself. -/
theorem readyLoop_spec (ho : Origin profile capacity prior microphone) (fuel : ℕ)
    (h : Steady device profile microphone w) (hf : w.work < fuel) :
    Meets (readyLoop now fuel w)
      (fun _ w' => Steady device profile microphone w' ∧ w'.nextReady now = none)
      (fun _ => Lost device profile microphone) := by
  induction fuel generalizing w with
  | zero => omega
  | succ fuel ih =>
    unfold readyLoop
    refine meets_bind (readyTurn_spec ho h) ?_
    rintro more w₁ ⟨h₁, hm⟩
    cases more with
    | false =>
      obtain ⟨rfl, hn⟩ := hm
      exact ⟨h₁, hn⟩
    | true =>
      rw [if_pos rfl] at hm
      exact ih h₁ (by omega)

/-- No request that is still waiting has passed its deadline. -/
def Timely (now : ℕ) (w : Worker H K) : Prop := ∀ e ∈ w.pending.live, now < e.deadline

omit [HidHandler H] [Host K] in
theorem checkDeadlines_spec (h : Steady device profile microphone w) :
    Meets (checkDeadlines now w)
      (fun _ w' => Steady device profile microphone w' ∧ Timely now w')
      (fun _ => Lost device profile microphone) := by
  have hu := h.undecodable
  unfold checkDeadlines
  refine meets_bind ((onPending_spec _).mono (fun a t hp => hp) fun e t ⟨p, hp⟩ => ?_) ?_
  · subst hp
    exact h.tracks.lost_of hu rfl rfl rfl
  · rintro expired _ ⟨pending, hx, rfl⟩
    cases expired with
    | some header => exact h.tracks.lost_of hu rfl rfl rfl
    | none =>
      have hst : Step device profile (ledger w.receive .idle w) _ _ := .checked rfl hx
      have ht : Tracks device profile microphone w.receive .idle
          { w.record (.checked now) with pending } := h.tracks.step hst rfl rfl rfl rfl
        h.tracks.outgoing
      have htime : ∀ e ∈ pending.live, now < e.deadline := by
        rcases expire_spec hx with ⟨_, he, _⟩ | ⟨_, _, rfl, hall⟩ | ⟨_, he, _⟩
        · cases he
        · exact hall
        · cases he
      refine meets_modify_bind.mpr ?_
      rw [meets_get_bind]
      split
      · exact ht.lost hu
      · exact ⟨h.keep ⟨rfl, rfl⟩ ht, htime⟩

theorem iteration_spec (ho : Origin profile capacity prior microphone)
    (h : Steady device profile microphone w) :
    Meets (iteration now w)
      (fun _ w' => Steady device profile microphone w' ∧ Timely now w')
      (fun _ => Lost device profile microphone) := by
  have hservice : Meets (service now w) (fun _ => Steady device profile microphone)
      (fun _ => Lost device profile microphone) := by
    unfold service
    rcases HidHandler.service now w.hid with ⟨result | _, hid⟩
    · exact (h.tracks.congr rfl rfl rfl rfl rfl : Tracks device profile microphone w.receive .idle
        { w with hid }).lost h.undecodable
    · exact h.keep ⟨rfl, rfl⟩ (h.tracks.congr rfl rfl rfl rfl rfl)
  unfold iteration
  refine meets_bind hservice ?_
  intro _ w₁ h₁
  refine meets_bind (receiveLoop_spec slotCount h₁) ?_
  intro _ w₂ h₂
  rw [meets_get_bind]
  refine meets_bind (readyLoop_spec ho _ h₂ (Nat.lt_succ_self _)) ?_
  rintro _ w₃ ⟨h₃, _⟩
  refine meets_bind (checkDeadlines_spec h₃) ?_
  rintro _ w₄ ⟨h₄, htime⟩
  refine meets_bind (flush_spec h₄.tracks h₄.undecodable) ?_
  rintro _ _ ⟨ht₅, outgoing, host, log, rfl⟩
  have h₅ : Steady device profile microphone { w₄ with outgoing, host, log } :=
    h₄.keep ⟨rfl, rfl⟩ ht₅
  obtain ⟨_, hrun, ⟨host', mic, log', rfl⟩, ht₆⟩ := hearProducer_spec ht₅
  refine (meets_bind_ok hrun).mpr ?_
  have h₆ : Steady device profile microphone
      { w₄ with outgoing, host := host', microphone := mic, log := log' } :=
    h₅.keep ⟨rfl, rfl⟩ ht₆
  refine meets_modify_bind.mpr ?_
  unfold wait
  dsimp only
  rcases Host.wait host' with ⟨result | _, host''⟩
  · exact h₆.tracks.lost_of h₆.undecodable rfl rfl rfl
  · exact ⟨h₆.keep ⟨rfl, rfl⟩ (h₆.tracks.congr rfl rfl rfl rfl rfl), htime⟩

theorem runInner_spec (ho : Origin profile capacity prior microphone) (nows : List ℕ)
    (h : Steady device profile microphone w) :
    Meets (runInner nows w)
      (fun _ w' => Steady device profile microphone w' ∧ ∀ now ∈ nows.getLast?, Timely now w')
      (fun _ => Lost device profile microphone) := by
  induction nows generalizing w with
  | nil => exact ⟨h, by simp⟩
  | cons now nows ih =>
    unfold runInner
    refine meets_bind (iteration_spec ho h) ?_
    rintro _ w₁ ⟨h₁, htime⟩
    cases nows with
    | nil =>
      refine ⟨h₁, ?_⟩
      intro t ht
      obtain rfl := Option.some.inj ht
      exact htime
    | cons next nows => exact ih h₁

omit [HidHandler H] [Host K] in
theorem new_steady {host : K} {hid : H} {playback : PcmQueue.Queue}
    (h : UsbipWorker.new host device profile hid playback microphone = .ok w) :
    Steady device profile microphone w ∧
      microphone.format.channels.length = profile.microphoneChannels := by
  unfold UsbipWorker.new at h
  split at h
  · cases h
  · next hf =>
    obtain rfl := Except.ok.inj h
    have hacc : profile.acceptsMicrophone microphone.format = true := by
      by_contra hn
      exact hf (.inr hn)
    refine ⟨⟨⟨?_, rfl, rfl, ?_⟩, Nat.zero_lt_succ 47, .inl rfl⟩, ?_⟩
    · have hrun : Run (Step device profile) (Ledger.new device microphone) []
          (Ledger.new device microphone) := .nil
      exact hrun
    · exact UsbipCompletionQueue.CompletionQueue.new_valid (by decide)
    · unfold Profile.acceptsMicrophone at hacc
      rw [decide_eq_true_eq] at hacc
      rw [hacc.2]
      rfl

variable {format : PcmQueue.PcmFormat} {q₀ playback : PcmQueue.Queue} {host : K} {hid : H}
variable {nows : List ℕ} {w₀ : Worker H K} {result : Except Failure Unit}

/-- A run from the start is a run of the ledger, however it ends. -/
theorem runInner_traces (hq : PcmQueue.pcmQueue format capacity = .ok q₀)
    (hp : Run PcmQueue.Step q₀ prior microphone)
    (hn : UsbipWorker.new host device profile hid playback microphone = .ok w₀)
    (hr : runInner nows w₀ = (result, w)) :
    Origin profile capacity prior microphone ∧ Lost device profile microphone w ∧
      (result = .ok () → Steady device profile microphone w ∧
        ∀ now ∈ nows.getLast?, Timely now w) := by
  obtain ⟨hsteady, hc⟩ := new_steady hn
  have ho : Origin profile capacity prior microphone := ⟨⟨format, q₀, hq, hp⟩, hc⟩
  have hspec := runInner_spec ho nows hsteady
  unfold Meets at hspec
  rw [hr] at hspec
  refine ⟨ho, ?_⟩
  cases result with
  | error e =>
    refine ⟨hspec, ?_⟩
    intro hok
    cases hok
  | ok _ => exact ⟨hspec.1.tracks.lost hspec.1.undecodable, fun _ => hspec⟩

end Loops

section Rehearsal

/-- A host for examples. It sends these bytes in these pieces and answers writes in this way,
then it has nothing to send and takes every write. -/
structure Script where
  reads : List (List UInt8)
  writes : List UsbipCompletionQueue.Written

def Script.read (k : Script) (room : ℕ) : Received × Script :=
  match k.reads with
  | [] => (.wouldBlock, k)
  | bytes :: reads =>
    if bytes.length ≤ room then (.data bytes, { k with reads })
    else (.data (bytes.take room), { k with reads := bytes.drop room :: reads })

def Script.write (k : Script) (bytes : List UInt8) : UsbipCompletionQueue.Written × Script :=
  match k.writes with
  | [] => (.taken bytes.length, k)
  | written :: writes => (written, { k with writes })

instance : Host Script where
  read := Script.read
  write := Script.write
  wait := pure ()
  produced k := ([], k)
  consumed k := ([], k)

/-- A personality without reports. -/
structure Mute where

instance : HidHandler Mute where
  request h _ _ := (.set (.error .unsupported), h)
  input h _ := (none, h)
  output h _ _ := (false, h)

def monoFormat (channel : PcmQueue.AudioChannel) : PcmQueue.PcmFormat :=
  ⟨48000, [channel], by decide, by simp, by simp, by simp⟩

def monoProfile : Profile :=
  .new ⟨[], false, [], "", [.speaker], [.microphone]⟩

def monoQueue (channel : PcmQueue.AudioChannel) : PcmQueue.Queue :=
  ⟨monoFormat channel, List.replicate 5 0, List.replicate 5 0, 1, 5, 0, 0, false, 0, 0, 0, 0⟩

theorem pcmQueue_mono (channel : PcmQueue.AudioChannel) :
    PcmQueue.pcmQueue (monoFormat channel) 4 = .ok (monoQueue channel) := rfl

/-- What a worker with this script does. -/
def rehearse {β : Type} (script : Script) (f : Worker Mute Script → β) : Except Failure β :=
  (UsbipWorker.new script 5 monoProfile {} (monoQueue .speaker) (monoQueue .microphone)).map f

theorem rehearse_ok {β : Type} {b : β} (script : Script) (f : Worker Mute Script → β)
    (h : rehearse script f = .ok b) :
    ∃ w₀, UsbipWorker.new script 5 monoProfile {} (monoQueue .speaker) (monoQueue .microphone) =
      .ok w₀ ∧ f w₀ = b := by
  unfold rehearse at h
  cases hn : UsbipWorker.new (H := Mute) script 5 monoProfile {} (monoQueue .speaker)
      (monoQueue .microphone) with
  | error e =>
    rw [hn] at h
    cases h
  | ok w₀ =>
    rw [hn] at h
    exact ⟨w₀, rfl, Except.ok.inj h⟩

def submitFrame (sequence direction endpoint length packets : ℕ) (setup : List UInt8) : List UInt8 :=
  bytes32 1 ++ bytes32 sequence ++ bytes32 5 ++ bytes32 direction ++ bytes32 endpoint ++ bytes32 0 ++
    bytes32 length ++ bytes32 0 ++ bytes32 packets ++ bytes32 0 ++ setup

def unlinkFrame (sequence target : ℕ) : List UInt8 :=
  bytes32 2 ++ bytes32 sequence ++ bytes32 5 ++ bytes32 0 ++ bytes32 0 ++ bytes32 target ++
    List.replicate 24 0

end Rehearsal

end UsbipWorkerTrace
