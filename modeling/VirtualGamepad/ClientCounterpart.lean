import VirtualGamepad.ClientMicrophone
import VirtualGamepad.ClientPlayback

/-! A worker that reads the source whenever the client does, over a socket that takes everything. -/
namespace ClientCounterpart

open Fallible MachineInt ClientPcm ClientMicrophone PcmIpcFraming PcmChain PcmChainPositions
open PcmChainDelivery
open PcmIpc
open PcmQueue (PcmFormat PcmRead Queue Label pcmQueue)

section Sockets

variable {format : Format} {l : Link}

/-- A sender with nothing to send, at the start of its clock. -/
structure Ready (l : Link) : Prop where
  opened : l.sender.closed = false
  idle : l.sender.length = 0
  offset_eq : l.sender.offset = 0
  last_eq : l.sender.lastNow = 0
  deadline_eq : l.sender.deadline = none

theorem check_zero {c : Channel} (hopen : c.closed = false) (hlast : c.lastNow = 0)
    (hdue : c.deadline.any (· ≤ 0) = false) : Channel.check 0 c = (.ok (), c) := by
  have htime : ¬((0 : UInt64).toNat < c.lastNow ∨ c.deadline.any (· ≤ (0 : UInt64).toNat) = true) := by
    rw [hlast]
    simpa using hdue
  unfold Channel.check
  rw [if_neg (by rw [hopen]; exact Bool.noConfusion), if_neg htime]
  cases c
  cases hlast
  rfl

theorem pump_ready (h : Ready l) (write : WriteOutcome) : Sender.pump 0 write l = (.ok (), l) := by
  have hcheck : Channel.check 0 l.sender = (.ok (), l.sender) := by
    apply check_zero h.opened h.last_eq
    rw [h.deadline_eq]
    rfl
  unfold Sender.pump
  rw [bind_run_ok (onSender_run hcheck), get_bind_run, if_pos h.idle]
  rfl

/-- A call that writes all there is to write. -/
theorem pump_all {n : ℕ} (hopen : l.sender.closed = false) (hlast : l.sender.lastNow = 0)
    (hdue : l.sender.deadline.any (· ≤ 0) = false) (hoffset : l.sender.offset = 0)
    (hlength : l.sender.length = l.sender.bytes.length) (hbusy : l.sender.length ≠ 0)
    (hroom : l.sender.length ≤ n) :
    ∃ l', Sender.pump 0 (.wrote n) l = (.ok (), l') ∧ Ready l' := by
  have hchunk : WireBytes.slice l.sender.bytes l.sender.offset
      (min n (l.sender.length - l.sender.offset)) = l.sender.bytes := by
    unfold WireBytes.slice
    rw [hoffset, Nat.sub_zero, Nat.min_eq_right hroom, List.drop_zero, hlength, List.take_length]
  have hsome : l.sender.bytes ≠ [] := by
    intro hnil
    rw [hlength, hnil] at hbusy
    exact hbusy rfl
  refine ⟨Sender.advance l.sender.bytes l, ?_, ?_⟩
  · unfold Sender.pump
    rw [bind_run_ok (onSender_run (check_zero hopen hlast hdue)), get_bind_run, if_neg hbusy]
    dsimp only
    rw [hchunk, if_neg hsome]
    rfl
  · have hdone : l.sender.offset + l.sender.bytes.length = l.sender.length := by
      rw [hoffset, hlength, Nat.zero_add]
    unfold Sender.advance
    dsimp only
    rw [if_pos hdone]
    exact ⟨hopen, rfl, rfl, hlast, rfl⟩

/-- What the largest block takes. -/
def room (format : Format) : ℕ := headerBytes + blockFrames * format.channels * 2

theorem encoded_le_room {p : Packet} (h : Valid format p) : (encoded format p).length ≤ room format := by
  rw [h.length_encoded]
  unfold room
  have hmul := Nat.mul_le_mul_right format.channels h.small
  omega

theorem encode_valid {p : Packet} (h : Valid format p) :
    encode format p.block p.samples = .ok (encoded format p) := by
  rcases encode_eq format p with ⟨_, hencode⟩ | hencode
  · exact hencode
  · have hposition : checkedAdd p.block.firstFrame p.block.frames =
        some (p.block.firstFrame + p.block.frames) := checkedAdd_eq_some.mpr ⟨rfl, h.position⟩
    unfold encode at hencode
    rw [if_neg] at hencode
    · cases hencode
    · rw [hposition]
      rintro (hzero | hlarge | hlength | hnone)
      · exact h.pos hzero
      · exact Nat.not_lt_of_le h.small hlarge
      · exact hlength h.samples_length
      · cases hnone

theorem commit_ready (h : Ready l) {p : Packet} (hvalid : Valid format p) :
    ∃ l', (do
        let bytes ← lift (encode format p.block p.samples)
        modify (Sender.enqueue bytes p)
        onSender (Channel.begin 0)
        Sender.pump 0 (.wrote (room format))
        return p.block.frames : Action PcmError Link ℕ) l = (.ok p.block.frames, l') ∧ Ready l' := by
  have hbegin : Channel.begin 0 (Sender.enqueue (encoded format p) p l).sender =
      (.ok (), { (Sender.enqueue (encoded format p) p l).sender with deadline := some deadlineUs }) :=
    rfl
  have hbusy : (encoded format p).length ≠ 0 := by
    have hheader := headerBytes_le format p
    unfold headerBytes at hheader
    omega
  obtain ⟨l', hpump, hready⟩ := pump_all (n := room format) (l := { Sender.enqueue (encoded format p) p l with
    sender := { (Sender.enqueue (encoded format p) p l).sender with deadline := some deadlineUs } })
    h.opened h.last_eq rfl h.offset_eq rfl hbusy (encoded_le_room hvalid)
  refine ⟨l', ?_, hready⟩
  rw [encode_valid hvalid]
  change (onSender (Channel.begin 0) >>= fun _ => Sender.pump 0 (.wrote (room format)) >>= fun _ =>
    (pure p.block.frames : Action PcmError Link ℕ)) (Sender.enqueue (encoded format p) p l) = _
  rw [bind_run_ok (onSender_run hbegin), bind_run_ok hpump]
  rfl

theorem send_ready (h : Ready l) (hformat : l.sender.format = format) {samples : List Int16}
    {firstFrame : ℕ} {discontinuity : Bool}
    (hvalid : Valid format (packetOf format samples firstFrame discontinuity 0))
    (halign : samples.length % format.channels = 0) :
    ∃ l', Sender.send samples firstFrame discontinuity 0 .blocked (.wrote (room format)) l =
      (.ok (packetOf format samples firstFrame discontinuity 0).block.frames, l') ∧ Ready l' := by
  have hsome : samples ≠ [] := by
    rintro rfl
    apply hvalid.pos
    unfold packetOf
    simp
  unfold Sender.send
  rw [bind_run_ok (pump_ready h .blocked), get_bind_run, hformat]
  rw [if_neg (not_not.mpr halign), if_neg (not_or.mpr ⟨not_not.mpr h.idle, hsome⟩)]
  exact commit_ready h hvalid

end Sockets

section Reads

variable {c : ℕ} {format : Format} {s : Chain} {q : Queue}

theorem produce_clock (op : ProducerOp) (h : s.source.nextFrame ≤ u64Max) :
    (produce op s).source.nextFrame ≤ u64Max := by
  cases op with
  | push samples =>
    change (PcmQueue.push samples s.source).2.nextFrame ≤ u64Max
    unfold PcmQueue.push
    split
    · exact h
    · dsimp only
      split
      · exact h
      · next hadd =>
        obtain ⟨rfl, hmax⟩ := checkedAdd_eq_some.mp hadd
        exact hmax
  | discard frames =>
    change (PcmQueue.discard frames s.source).2.nextFrame ≤ u64Max
    unfold PcmQueue.discard
    split
    · exact h
    · split
      · exact h
      · next hadd =>
        obtain ⟨rfl, hmax⟩ := checkedAdd_eq_some.mp hadd
        exact hmax
  | flush =>
    change (PcmQueue.flush s.source).2.nextFrame ≤ u64Max
    unfold PcmQueue.flush
    split
    · exact h
    · exact h

theorem read_clock (dest : List Int16) (q : Queue) :
    (PcmQueue.read dest q).2.nextFrame = q.nextFrame := by
  obtain ⟨tail, expected, hsame⟩ := ClientPlayback.read_quiet dest q
  rw [hsame]

/-- The consumer never stands behind the producer's clock. -/
theorem expected_le {log : List Label} (h : PcmQueueDelivery.Accounted c format.channels log q) :
    q.expectedFrame ≤ q.nextFrame := by
  rw [h.expected]
  unfold PcmQueueDelivery.endOf
  cases hlast : (PcmQueueDelivery.delivered format.channels log).getLast? with
  | none => exact Nat.zero_le _
  | some f =>
    obtain ⟨_, hconveys, _⟩ := h.conveys
    have hmem : f ∈ PcmQueueDelivery.accepted format.channels log :=
      hconveys.delivered_sublist.subset (List.mem_of_getLast? hlast)
    exact h.below f hmem

theorem fetch_run {r : PcmRead} {dest' : List Int16}
    (hr : PcmQueue.read (s.outbound.samples.take (blockFrames * c)) s.source = (.ok (r, dest'), q)) :
    Outbound.fetch c s = (.ok (), { s with
      source := q
      sourceLog := s.sourceLog ++
        [.read (s.outbound.samples.take (blockFrames * c)) (.ok (r, dest'))]
      outbound := ⟨dest' ++ s.outbound.samples.drop dest'.length,
        if r.frames = 0 then none else some r⟩ }) := by
  have hrun := atSource_run (Label.read (s.outbound.samples.take (blockFrames * c))) hr
  unfold Outbound.fetch
  rw [get_bind_run]
  dsimp only
  rw [bind_run_ok hrun]
  rfl

theorem fetch_failed {e : PcmQueue.AudioError}
    (hr : PcmQueue.read (s.outbound.samples.take (blockFrames * c)) s.source = (.error e, q)) :
    Outbound.fetch c s = (.error (.audio e), { s with
      source := q
      sourceLog := s.sourceLog ++
        [.read (s.outbound.samples.take (blockFrames * c)) (.error e)] }) := by
  have hrun := atSource_run (Label.read (s.outbound.samples.take (blockFrames * c))) hr
  unfold Outbound.fetch
  rw [get_bind_run]
  dsimp only
  rw [bind_run_error hrun]

/-- The segment just read makes a block that the encoder takes. -/
theorem fetched_valid (hfeeds : Feeds c format s) (hclock : s.source.nextFrame ≤ u64Max) {r : PcmRead}
    (hr : s.outbound.pending = some r) (hopen : s.link.sender.closed = false) :
    Valid format (packetOf format (s.outbound.samples.take (r.frames * format.channels)) r.firstFrame
      r.discontinuity 0) := by
  obtain ⟨hpos, hsmall, hsize⟩ := hfeeds.pending r hr
  obtain ⟨hframes, hwaiting⟩ := hfeeds.waiting_eq hfeeds.source.channels_pos hr 0
  have hread := hfeeds.read_eq hopen
  have hends := hfeeds.marked.ends_eq
  have hexpected := expected_le hfeeds.source
  have hlength : (s.outbound.samples.take (r.frames * format.channels)).length =
      r.frames * format.channels := by
    rw [List.length_take, Nat.min_eq_left hsize]
  have hsamples : ∀ p, p = packetOf format (s.outbound.samples.take (r.frames * format.channels))
      r.firstFrame r.discontinuity 0 → p.block.firstFrame = r.firstFrame ∧ p.samples =
        (s.outbound.samples.take (r.frames * format.channels)).take
          (p.block.frames * format.channels) := by
    rintro p rfl
    exact ⟨rfl, rfl⟩
  generalize packetOf format (s.outbound.samples.take (r.frames * format.channels)) r.firstFrame
    r.discontinuity 0 = p at hframes hwaiting hsamples ⊢
  obtain ⟨hfirst, hsamples⟩ := hsamples p rfl
  rw [hread, hwaiting, ends_append] at hends
  change p.block.firstFrame + p.block.frames = s.source.expectedFrame at hends
  refine ⟨hframes ▸ hpos, hframes ▸ hsmall, ?_, ?_⟩
  · rw [hsamples, List.length_take, hlength, hframes, Nat.min_self]
  · omega

theorem pumpInner_ready (hlinked : Linked format s.link) (hready : Ready s.link)
    (hidle : s.outbound.pending = none) (third : WriteOutcome) :
    Outbound.pumpInner 0 .blocked .blocked third s = (Outbound.fetch format.channels >>= fun _ =>
      Outbound.transmit format.channels 0 .blocked third) s := by
  have hpump : onLink (Sender.pump 0 .blocked) s = (.ok (), s) := by
    unfold onLink
    rw [pump_ready hready]
  unfold Outbound.pumpInner
  rw [bind_run_ok hpump, get_bind_run, if_neg (not_not.mpr hready.idle)]
  dsimp only
  rw [if_pos hidle, hlinked.sender_format]

/-- Such a worker sends what it reads at once. -/
theorem pump_ready_run (hfeeds : Feeds c format s) (hlinked : Linked format s.link)
    (hready : Ready s.link) (hidle : s.outbound.pending = none) (hclock : s.source.nextFrame ≤ u64Max)
    {r : PcmRead} {dest' : List Int16}
    (hr : PcmQueue.read (s.outbound.samples.take (blockFrames * format.channels)) s.source =
      (.ok (r, dest'), q)) :
    ∃ l', Ready l' ∧ (Outbound.pump 0 .blocked .blocked (.wrote (room format)) s).2 = { s with
      source := q
      sourceLog := s.sourceLog ++
        [.read (s.outbound.samples.take (blockFrames * format.channels)) (.ok (r, dest'))]
      link := l'
      outbound := ⟨dest' ++ s.outbound.samples.drop dest'.length, none⟩ } := by
  have hfetched := hfeeds.fetched hidle hr
  have hfetch := fetch_run hr
  have hquiet := read_clock (s.outbound.samples.take (blockFrames * format.channels)) s.source
  rw [hr] at hquiet
  unfold Outbound.pump
  rw [pumpInner_ready hlinked hready hidle, bind_run_ok hfetch]
  unfold Outbound.transmit
  rw [get_bind_run]
  dsimp only
  by_cases hzero : r.frames = 0
  · rw [if_pos hzero]
    exact ⟨s.link, hready, rfl⟩
  · rw [if_neg hzero] at hfetched ⊢
    have hvalid := fetched_valid hfetched (hquiet.trans_le hclock) rfl hready.opened
    have halign : ((dest' ++ s.outbound.samples.drop dest'.length).take
        (r.frames * format.channels)).length % format.channels = 0 := by
      obtain ⟨_, _, hsize⟩ := hfetched.pending r rfl
      rw [List.length_take, Nat.min_eq_left hsize]
      exact Nat.mul_mod_left _ _
    obtain ⟨hframes, _⟩ := hfetched.waiting_eq hfetched.source.channels_pos rfl 0
    obtain ⟨l', hsend, hready'⟩ := send_ready hready hlinked.sender_format hvalid halign
    have hlink : onLink (Sender.send ((dest' ++ s.outbound.samples.drop dest'.length).take
        (r.frames * format.channels)) r.firstFrame r.discontinuity 0 .blocked
        (.wrote (room format))) { s with
          source := q
          sourceLog := s.sourceLog ++
            [.read (s.outbound.samples.take (blockFrames * format.channels)) (.ok (r, dest'))]
          outbound := ⟨dest' ++ s.outbound.samples.drop dest'.length, some r⟩ } =
        (.ok r.frames, { s with
          source := q
          sourceLog := s.sourceLog ++
            [.read (s.outbound.samples.take (blockFrames * format.channels)) (.ok (r, dest'))]
          link := l'
          outbound := ⟨dest' ++ s.outbound.samples.drop dest'.length, some r⟩ }) := by
      unfold onLink
      dsimp only
      rw [hsend]
      exact congrArg (fun n => (Except.ok n, _)) hframes
    refine ⟨l', hready', ?_⟩
    dsimp only
    rw [bind_run_ok hlink, if_pos rfl]
    rfl

end Reads

section Pairs

variable {c : ℕ} {format : Format} {s s₀ t : Chain} {α : Type}

/-- The worker in `s` has read what the client in `t` has read, and sent all of it. -/
structure Follows (c : ℕ) (format : Format) (t s : Chain) : Prop where
  source_eq : s.source = t.source
  log_eq : s.sourceLog = t.sourceLog
  samples_eq : s.outbound.samples = t.outbound.samples
  idle : s.outbound.pending = none
  feeds : Feeds c format s
  linked : Linked format s.link
  ready : Ready s.link
  clock : s.source.nextFrame ≤ u64Max

/-- The queue that both have left behind. -/
structure Stopped (c : ℕ) (t s : Chain) : Prop where
  source_eq : s.source = t.source
  log_eq : s.sourceLog = t.sourceLog
  sent_eq : s.link.sent.map unstamped = pieces c s.sourceLog

theorem Follows.sent_eq (h : Follows c format t s) :
    s.link.sent.map unstamped = pieces format.channels s.sourceLog := by
  have hread := h.feeds.read_eq h.ready.opened
  unfold waiting at hread
  rw [h.idle, List.append_nil] at hread
  exact hread.symm

/-- The worker's turn for a read of the client. -/
def readTurn (format : Format) : Event := .outboundPump 0 .blocked .blocked (.wrote (room format))

theorem Follows.fetch (h : Follows c format t s) :
    Meets (Outbound.fetch format.channels t)
      (fun _ t' => Follows c format t' (perform s (readTurn format)))
      (fun _ t' => Stopped format.channels (closeSource t') (perform s (readTurn format))) := by
  rcases hr : PcmQueue.read (s.outbound.samples.take (blockFrames * format.channels)) s.source with
    ⟨e | ⟨r, dest'⟩, q⟩
  · have hrun : perform s (readTurn format) = Outbound.close { s with
        source := q
        sourceLog := s.sourceLog ++
          [.read (s.outbound.samples.take (blockFrames * format.channels)) (.error e)] } := by
      change (Outbound.pump 0 .blocked .blocked (.wrote (room format)) s).2 = _
      unfold Outbound.pump
      rw [pumpInner_ready h.linked h.ready h.idle, bind_run_error (fetch_failed hr)]
    rw [h.samples_eq, h.source_eq] at hr
    rw [fetch_failed hr, meets_error, hrun, h.samples_eq]
    refine ⟨rfl, congrArg (· ++ _ ++ _) h.log_eq, ?_⟩
    change s.link.sent.map unstamped = pieces format.channels (s.sourceLog ++ [_] ++ [_])
    rw [pieces_snoc, pieces_snoc, h.sent_eq]
    exact ((List.append_nil _).trans (List.append_nil _)).symm
  · have hpumped := outbound_pump_spec h.feeds h.linked 0 .blocked .blocked (.wrote (room format))
    obtain ⟨l', hready, hrun⟩ := pump_ready_run h.feeds h.linked h.ready h.idle h.clock hr
    have hclock : q.nextFrame ≤ u64Max := by
      have hread := read_clock (s.outbound.samples.take (blockFrames * format.channels)) s.source
      rw [hr] at hread
      exact hread.trans_le h.clock
    change Pumping c format s (perform s (readTurn format)) at hpumped
    change perform s (readTurn format) = _ at hrun
    rw [h.samples_eq, h.source_eq] at hr
    rw [fetch_run hr, meets_ok]
    refine ⟨?_, ?_, ?_, ?_, hpumped.feeds, hpumped.linked, ?_, ?_⟩
    · rw [hrun]
    · rw [hrun, h.samples_eq, h.log_eq]
    · rw [hrun, h.samples_eq]
    · rw [hrun]
    · rw [hrun]
      exact hready
    · rw [hrun]
      exact hclock

theorem Follows.produce (h : Follows c format t s) (op : ProducerOp) :
    Follows c format (produce op t) (perform s (.produce op)) := by
  have hfeeds := h.feeds.produce op
  have hclock := produce_clock op h.clock
  cases op with
  | push samples =>
    refine ⟨?_, ?_, h.samples_eq, h.idle, hfeeds, h.linked, h.ready, hclock⟩
    · exact congrArg (fun q => (PcmQueue.push samples q).2) h.source_eq
    · exact congrArg₂ (fun log q => log ++ [Label.push samples (PcmQueue.push samples q).1]) h.log_eq
        h.source_eq
  | discard frames =>
    refine ⟨?_, ?_, h.samples_eq, h.idle, hfeeds, h.linked, h.ready, hclock⟩
    · exact congrArg (fun q => (PcmQueue.discard frames q).2) h.source_eq
    · exact congrArg₂ (fun log q => log ++ [Label.discard frames (PcmQueue.discard frames q).1])
        h.log_eq h.source_eq
  | flush =>
    refine ⟨?_, ?_, h.samples_eq, h.idle, hfeeds, h.linked, h.ready, hclock⟩
    · exact congrArg (fun q => (PcmQueue.flush q).2) h.source_eq
    · exact congrArg₂ (fun log q => log ++ [Label.flush (PcmQueue.flush q).1]) h.log_eq h.source_eq

theorem Follows.closeSource (h : Follows c format t s) :
    Follows c format (closeSource t) (perform s .closeSource) :=
  ⟨congrArg PcmQueue.close h.source_eq, congrArg (· ++ _) h.log_eq, h.samples_eq, h.idle,
    h.feeds.closeSource, h.linked, h.ready, h.clock⟩

theorem Follows.stopped (h : Follows c format t s) : Stopped format.channels t s :=
  ⟨h.source_eq, h.log_eq, h.sent_eq⟩

theorem Stopped.produce (h : Stopped c t s) (op : ProducerOp) :
    Stopped c (produce op t) (perform s (.produce op)) := by
  have hpieces : ∀ label, piece c label = [] →
      s.link.sent.map unstamped = pieces c (s.sourceLog ++ [label]) := by
    intro label hnone
    rw [pieces_snoc, hnone, List.append_nil]
    exact h.sent_eq
  cases op with
  | push samples =>
    refine ⟨congrArg (fun q => (PcmQueue.push samples q).2) h.source_eq, ?_, hpieces _ rfl⟩
    exact congrArg₂ (fun log q => log ++ [Label.push samples (PcmQueue.push samples q).1]) h.log_eq
      h.source_eq
  | discard frames =>
    refine ⟨congrArg (fun q => (PcmQueue.discard frames q).2) h.source_eq, ?_, hpieces _ rfl⟩
    exact congrArg₂ (fun log q => log ++ [Label.discard frames (PcmQueue.discard frames q).1])
      h.log_eq h.source_eq
  | flush =>
    refine ⟨congrArg (fun q => (PcmQueue.flush q).2) h.source_eq, ?_, hpieces _ rfl⟩
    exact congrArg₂ (fun log q => log ++ [Label.flush (PcmQueue.flush q).1]) h.log_eq h.source_eq

theorem Stopped.closeSource (h : Stopped c t s) :
    Stopped c (closeSource t) (perform s .closeSource) := by
  refine ⟨congrArg PcmQueue.close h.source_eq, congrArg (· ++ _) h.log_eq, ?_⟩
  change s.link.sent.map unstamped = pieces c (s.sourceLog ++ [.close])
  rw [pieces_snoc]
  exact h.sent_eq.trans (List.append_nil _).symm

end Pairs

section Runs

variable {c : ℕ} {format : Format} {s₀ t t' : Chain} {m : Microphone} {α : Type}

/-- Some worker that started in `s₀` has followed the client up to `t`. -/
def Shadowed (c : ℕ) (format : Format) (s₀ t : Chain) : Prop :=
  ∃ events : List Event, Follows c format t (events.foldl perform s₀)

def Abandoned (c : ℕ) (s₀ t : Chain) : Prop :=
  ∃ events : List Event, Stopped c t (events.foldl perform s₀)

theorem Shadowed.step (h : Shadowed c format s₀ t) (event : Event)
    (hstep : ∀ s, Follows c format t s → Follows c format t' (perform s event)) :
    Shadowed c format s₀ t' := by
  obtain ⟨events, hfollows⟩ := h
  refine ⟨events ++ [event], ?_⟩
  rw [List.foldl_append]
  exact hstep _ hfollows

theorem Shadowed.stop (h : Shadowed c format s₀ t) (event : Event)
    (hstep : ∀ s, Follows c format t s → Stopped format.channels t' (perform s event)) :
    Abandoned format.channels s₀ t' := by
  obtain ⟨events, hfollows⟩ := h
  refine ⟨events ++ [event], ?_⟩
  rw [List.foldl_append]
  exact hstep _ hfollows

theorem Abandoned.step (h : Abandoned c s₀ t) (event : Event)
    (hstep : ∀ s, Stopped c t s → Stopped c t' (perform s event)) : Abandoned c s₀ t' := by
  obtain ⟨events, hstopped⟩ := h
  refine ⟨events ++ [event], ?_⟩
  rw [List.foldl_append]
  exact hstep _ hstopped

/-- The worker does not look at the client's socket. -/
theorem Shadowed.congr (h : Shadowed c format s₀ t) (hsource : t'.source = t.source)
    (hlog : t'.sourceLog = t.sourceLog) (hsamples : t'.outbound.samples = t.outbound.samples) :
    Shadowed c format s₀ t' := by
  obtain ⟨events, hfollows⟩ := h
  exact ⟨events, hfollows.source_eq.trans hsource.symm, hfollows.log_eq.trans hlog.symm,
    hfollows.samples_eq.trans hsamples.symm, hfollows.idle, hfollows.feeds, hfollows.linked,
    hfollows.ready, hfollows.clock⟩

theorem Shadowed.exit (h : Shadowed c format s₀ t) :
    Abandoned format.channels s₀ (closeSource t) :=
  h.stop .closeSource fun _ hfollows => hfollows.closeSource.stopped

theorem produceAll_shadowed (ops : List ProducerOp) (h : Shadowed c format s₀ t) :
    Shadowed c format s₀ (produceAll ops t) := by
  induction ops generalizing t with
  | nil => exact h
  | cons op ops ih => exact ih (h.step (.produce op) fun _ hfollows => hfollows.produce op)

theorem onLink_shadowed (h : Shadowed c format s₀ t) (m : Action PcmError Link α) :
    Meets (atPcm (onLink m) t) (fun _ t' => Shadowed c format s₀ t')
      (fun _ t' => Abandoned format.channels s₀ (closeSource t')) := by
  have hstate : Shadowed c format s₀ (onLink m t).2 := h.congr rfl rfl rfl
  have hmeets : Meets (onLink m t) (fun _ t' => Shadowed c format s₀ t')
      (fun _ t' => Shadowed c format s₀ t') := meets_state.mpr hstate
  exact (meets_atPcm hmeets).mono (fun _ _ hq => hq) fun _ _ he => he.2.exit

theorem fetch_shadowed (h : Shadowed c format s₀ t) :
    Meets (atPcm (Outbound.fetch format.channels) t) (fun _ t' => Shadowed c format s₀ t')
      (fun _ t' => Abandoned format.channels s₀ (closeSource t')) := by
  obtain ⟨events, hfollows⟩ := h
  have hfetch := hfollows.fetch
  have hmeets : Meets (Outbound.fetch format.channels t) (fun _ t' => Shadowed c format s₀ t')
      (fun _ t' => Abandoned format.channels s₀ (closeSource t')) := by
    refine hfetch.mono ?_ ?_
    · intro _ t' hq
      refine ⟨events ++ [readTurn format], ?_⟩
      rw [List.foldl_append]
      exact hq
    · intro e t' he
      refine ⟨events ++ [readTurn format], ?_⟩
      rw [List.foldl_append]
      exact he
  exact (meets_atPcm hmeets).mono (fun _ _ hq => hq) fun _ _ he => he.2

theorem offer_shadowed (h : Shadowed c format s₀ t) (now : UInt64) (turn : Turn)
    {rest : Action PumpError Chain Unit}
    (hrest : ∀ t', Shadowed c format s₀ t' → Meets (rest t') (fun _ t' => Shadowed c format s₀ t')
      (fun _ t' => Abandoned format.channels s₀ (closeSource t'))) :
    Meets (offer format.channels now turn rest t) (fun _ t' => Shadowed c format s₀ t')
      (fun _ t' => Abandoned format.channels s₀ (closeSource t')) := by
  unfold offer
  rw [meets_get_bind]
  cases t.outbound.pending with
  | none => exact h
  | some packet =>
    refine meets_bind (onLink_shadowed h _) ?_
    intro accepted t₁ h₁
    by_cases hnone : accepted = 0
    · rw [if_pos hnone]
      exact h₁
    · rw [if_neg hnone]
      by_cases hpart : accepted ≠ packet.frames
      · rw [if_pos hpart]
        exact h₁.exit
      · rw [if_neg hpart, meets_modify_bind]
        exact hrest _ (h₁.congr rfl rfl rfl)

theorem burst_shadowed (now : UInt64) (turns : ℕ → Turn) (n : ℕ) (h : Shadowed c format s₀ t) :
    Meets (burst format.channels now turns n t) (fun _ t' => Shadowed c format s₀ t')
      (fun _ t' => Abandoned format.channels s₀ (closeSource t')) := by
  induction n generalizing t with
  | zero => exact h
  | succ n ih =>
    unfold burst
    rw [meets_modify_bind, meets_get_bind]
    have h₁ := produceAll_shadowed (turns n).produced h
    generalize produceAll (turns n).produced t = t₁ at h₁ ⊢
    by_cases hidle : t₁.outbound.pending = none
    · simp only [if_pos hidle]
      exact meets_bind (fetch_shadowed h₁) fun _ t₂ h₂ => offer_shadowed h₂ now (turns n) fun _ => ih
    · simp only [if_neg hidle]
      exact offer_shadowed h₁ now (turns n) fun _ => ih

/-- A worker that has read what the microphone's pump has read. -/
structure Mirrored (c : ℕ) (format : Format) (s₀ : Chain) (m : Microphone) : Prop where
  running : m.exited = false → Shadowed c format s₀ m.chain
  finished : m.exited = true → Abandoned format.channels s₀ m.chain

theorem mirrored_exit (h : Abandoned format.channels s₀ (closeSource m.chain)) :
    Mirrored c format s₀ m.exit := by
  refine ⟨?_, fun _ => h⟩
  intro hrunning
  cases hrunning

theorem mirrored_remote (h : Mirrored c format s₀ m) (l : Link) :
    Mirrored c format s₀ { m with chain := { m.chain with link := l } } := by
  refine ⟨fun hrunning => (h.running hrunning).congr rfl rfl rfl, fun hover => ?_⟩
  obtain ⟨events, hstopped⟩ := h.finished hover
  exact ⟨events, hstopped.source_eq, hstopped.log_eq, hstopped.sent_eq⟩

theorem perform_mirrored (h : Mirrored c format s₀ m) (event : MicrophoneEvent) :
    Mirrored c format s₀ (Microphone.perform format.channels m event) := by
  cases event with
  | pump now write turns =>
    change Mirrored c format s₀ (if m.exited = true then m
      else Microphone.after (pumpMicrophone format.channels now write turns m.chain))
    by_cases hexited : m.exited = true
    · rw [if_pos hexited]
      exact h
    · rw [if_neg hexited]
      have hshadowed := h.running (Bool.eq_false_iff.mpr hexited)
      have hspec : Meets (pumpMicrophone format.channels now write turns m.chain)
          (fun _ t' => Shadowed c format s₀ t')
          (fun _ t' => Abandoned format.channels s₀ (closeSource t')) :=
        meets_bind (onLink_shadowed hshadowed _) fun _ t₁ h₁ => burst_shadowed now turns burstLimit h₁
      rcases hrun : pumpMicrophone format.channels now write turns m.chain with ⟨e | _, s⟩
      · rw [hrun] at hspec
        exact mirrored_exit (m := ⟨s, true⟩) hspec
      · rw [hrun] at hspec
        exact ⟨fun _ => hspec, fun hover => by cases hover⟩
  | leave =>
    change Mirrored c format s₀ (if m.exited = true then m else m.exit)
    by_cases hexited : m.exited = true
    · rw [if_pos hexited]
      exact h
    · rw [if_neg hexited]
      exact mirrored_exit (h.running (Bool.eq_false_iff.mpr hexited)).exit
  | produce op =>
    refine ⟨fun hrunning => ?_, fun hover => ?_⟩
    · exact (h.running hrunning).step (.produce op) fun _ hfollows => hfollows.produce op
    · exact (h.finished hover).step (.produce op) fun _ hstopped => hstopped.produce op
  | closeSource =>
    refine ⟨fun hrunning => ?_, fun hover => ?_⟩
    · exact (h.running hrunning).step .closeSource fun _ hfollows => hfollows.closeSource
    · exact (h.finished hover).step .closeSource fun _ hstopped => hstopped.closeSource
  | receive dest now first second => exact mirrored_remote h _
  | closeReceiver => exact mirrored_remote h _

theorem run_mirrored (h : Mirrored c format s₀ m) (events : List MicrophoneEvent) :
    Mirrored c format s₀ (Microphone.run format.channels m events) := by
  induction events generalizing m with
  | nil => exact h
  | cons event events ih => exact ih (perform_mirrored h event)

theorem Mirrored.stopped (h : Mirrored c format s₀ m) : ∃ events : List Event,
    Stopped format.channels m.chain (events.foldl perform s₀) := by
  cases hexited : m.exited with
  | true => exact h.finished hexited
  | false =>
    obtain ⟨events, hfollows⟩ := h.running hexited
    exact ⟨events, hfollows.stopped⟩

end Runs

section Guarantee

variable {c₁ c₂ : ℕ} {format : Format} {s₀ : Chain}

/-- The client's pump against a worker's pump that starts from the same chain. -/
structure SameMicrophone (c : ℕ) (s₀ : Chain) (m : Microphone) : Prop where
  /-- Whatever was read is sent once, in order, or waits. -/
  once : m.exited = false → blocks c m.chain = pieces c m.chain.sourceLog
  sent_initial : m.chain.link.sent.map unstamped <+: pieces c m.chain.sourceLog
  /-- A worker that reads the source at the same points sends the same blocks. -/
  agrees : ∀ events : List Event, (events.foldl PcmChain.perform s₀).sourceLog = m.chain.sourceLog →
    SameBlocks c m (events.foldl PcmChain.perform s₀)
  /-- And there is such a worker, which keeps nothing back. -/
  worker : ∃ events : List Event, (events.foldl PcmChain.perform s₀).sourceLog = m.chain.sourceLog ∧
    (events.foldl PcmChain.perform s₀).link.sent.map unstamped = pieces c m.chain.sourceLog
  bounded : m.exited = false → ∀ now write turns,
    Bounded c m.chain (pumpMicrophone c now write turns m.chain)

theorem sameMicrophone (h : Tied c₁ c₂ format s₀) (hready : Ready s₀.link)
    (hidle : s₀.outbound.pending = none) (hclock : s₀.source.nextFrame ≤ u64Max)
    (events : List MicrophoneEvent) :
    SameMicrophone format.channels s₀ (Microphone.run format.channels ⟨s₀, false⟩ events) := by
  have hstart : Serves c₁ format ⟨s₀, false⟩ :=
    ⟨h.linked, feeds_shut h.feeds, fun _ => ⟨h.feeds, hready.opened⟩⟩
  have hserves := run_serves hstart events
  have hself : Follows c₁ format s₀ s₀ := ⟨rfl, rfl, rfl, hidle, h.feeds, h.linked, hready, hclock⟩
  have hmirror : Mirrored c₁ format s₀ ⟨s₀, false⟩ := by
    constructor
    · intro _
      exact ⟨[], hself⟩
    · intro hover
      cases hover
  refine ⟨?_, hserves.halted.sent_initial, ?_, ?_, fun hrunning => bounded hserves hrunning⟩
  · intro hrunning
    obtain ⟨hfeeds, hopened⟩ := hserves.running hrunning
    exact (hfeeds.read_eq hopened).symm
  · intro worker hlog
    exact sameBlocks hserves (run_tied h worker).feeds hlog
  · obtain ⟨worker, hstopped⟩ := (run_mirrored hmirror events).stopped
    refine ⟨worker, hstopped.log_eq, ?_⟩
    rw [← hstopped.log_eq]
    exact hstopped.sent_eq

theorem initial_discarded {pcm : PcmFormat} {capacity : ℕ} {q : Queue}
    (h : pcmQueue pcm capacity = .ok q) : q.discarded = 0 := by
  unfold pcmQueue at h
  split at h
  · cases h
    rfl
  · cases h

/-- Both branches of the client's pump against the worker's pumps, from the same new chain. -/
structure Agrees (playbackChannels microphoneChannels : ℕ) (s₀ : Chain) : Prop where
  playback : ∀ events, ClientPlayback.SamePlayback
    (playEvents (playbackTurn playbackChannels) events s₀) (playEvents Inbound.pump events s₀)
  microphone : ∀ events, SameMicrophone microphoneChannels s₀
    (Microphone.run microphoneChannels ⟨s₀, false⟩ events)

theorem client_agrees {family : Option Family} {direction : Direction} {generation : ℕ}
    {pcm pcm' : PcmFormat} {source destination : Queue}
    (hformat : Format.new family direction generation = .ok format)
    (hsource : pcmQueue pcm c₁ = .ok source) (hdestination : pcmQueue pcm' c₂ = .ok destination)
    (hnew : Chain.new format source destination = .ok s₀) :
    Agrees pcm'.channels.length pcm.channels.length s₀ := by
  have htied := new_tied hformat hsource hdestination hnew
  obtain ⟨hv₁, hv₂, rfl⟩ := chain_new hnew
  rw [PcmQueueDelivery.run_format hsource .nil] at hv₁
  rw [PcmQueueDelivery.run_format hdestination .nil] at hv₂
  obtain ⟨_, _, _, hclock, _⟩ := PcmQueueDelivery.initial_spec hsource
  constructor
  · intro events
    refine ClientPlayback.samePlayback (channels_eq hformat hv₂).symm ?_ events
    rw [initial_discarded hdestination]
    exact Nat.two_pow_pos 64
  · intro events
    rw [channels_eq hformat hv₁]
    refine sameMicrophone htied ⟨rfl, rfl, rfl, rfl, rfl⟩ rfl ?_ events
    rw [hclock]
    exact Nat.zero_le _

theorem client_agrees_microphone : ∃ format source destination s₀,
    Format.new (some PcmChainDelivery.family) .microphone 1 = .ok format ∧
      pcmQueue PcmQueueDelivery.microphone 4 = .ok source ∧
      pcmQueue PcmQueueDelivery.microphone 1 = .ok destination ∧
      Chain.new format source destination = .ok s₀ ∧ Agrees 1 1 s₀ := by
  obtain ⟨format, source, destination, s₀, hformat, hsource, hdestination, hnew⟩ :
      ∃ format source destination s₀,
        Format.new (some PcmChainDelivery.family) .microphone 1 = .ok format ∧
        pcmQueue PcmQueueDelivery.microphone 4 = .ok source ∧
        pcmQueue PcmQueueDelivery.microphone 1 = .ok destination ∧
        Chain.new format source destination = .ok s₀ :=
    ⟨_, _, _, _, rfl, rfl, rfl, rfl⟩
  exact ⟨format, source, destination, s₀, hformat, hsource, hdestination, hnew,
    client_agrees hformat hsource hdestination hnew⟩

end Guarantee

end ClientCounterpart
