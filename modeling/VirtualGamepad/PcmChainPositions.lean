import VirtualGamepad.PcmChain
import VirtualGamepad.PcmIpcFraming
import VirtualGamepad.PcmQueueLosses

/-! Frames keep their positions and samples from the source queue to the destination queue. -/
namespace PcmChainPositions

open Fallible MachineInt PcmQueueDelivery PcmQueueLosses PcmIpcFraming PcmChain
open PcmIpc
open PcmQueue (Queue Label AudioError PcmRead PcmFormat pcmQueue)

section Pieces

variable {c capacity : ℕ} {q q' : Queue} {log : List Label} {label : Label}

/-- A block without its time stamp. -/
def unstamped (p : Packet) : Packet := { p with block := { p.block with producedAtUs := 0 } }

/-- The block that a read of the source makes, if it takes anything. -/
def piece (c : ℕ) : Label → List Packet
  | .read _ (.ok (r, dest)) =>
    if r.frames = 0 then []
    else [⟨⟨r.frames, r.firstFrame, r.discontinuity, 0⟩, dest.take (r.frames * c)⟩]
  | _ => []

def pieces (c : ℕ) (log : List Label) : List Packet := log.flatMap (piece c)

def framesOf (c : ℕ) (p : Packet) : List Frame :=
  number p.block.firstFrame (Slab.chunks c p.block.frames p.samples)

theorem pieces_snoc (c : ℕ) (log : List Label) (label : Label) :
    pieces c (log ++ [label]) = pieces c log ++ piece c label := by
  unfold pieces
  rw [List.flatMap_append, List.flatMap_singleton]

theorem announced_unstamped (start : ℕ) (ps : List Packet) :
    Announced start (ps.map unstamped) ↔ Announced start ps := by
  induction ps generalizing start with
  | nil => exact Iff.rfl
  | cons p ps ih => exact and_congr Iff.rfl (ih (stop p))

theorem ends_unstamped (start : ℕ) (ps : List Packet) :
    ends start (ps.map unstamped) = ends start ps := by
  induction ps generalizing start with
  | nil => rfl
  | cons p ps ih => exact ih (stop p)

theorem framesOf_unstamped (ps : List Packet) :
    (ps.map unstamped).flatMap (framesOf c) = ps.flatMap (framesOf c) := by
  rw [List.flatMap_map]
  rfl

theorem chunks_take (n : ℕ) (xs : List Int16) :
    Slab.chunks c n (xs.take (n * c)) = Slab.chunks c n xs := by
  induction n generalizing xs with
  | zero => rfl
  | succ n ih =>
    have hsum : (n + 1) * c = c + n * c := by rw [Nat.succ_mul, Nat.add_comm]
    unfold Slab.chunks
    rw [List.take_take, Nat.min_eq_left (by omega), hsum, List.drop_take, Nat.add_sub_cancel_left, ih]

theorem segment_eq (c : ℕ) (label : Label) :
    segment c label = (piece c label).flatMap (framesOf c) := by
  cases label with
  | read dest result =>
    cases result with
    | error e => rfl
    | ok r =>
      obtain ⟨r, dest'⟩ := r
      unfold PcmQueueDelivery.segment piece
      dsimp only
      by_cases hr : r.frames = 0
      · rw [if_pos hr, hr]
        rfl
      · rw [if_neg hr, List.flatMap_singleton]
        unfold framesOf
        dsimp only
        rw [chunks_take]
  | push _ _ => rfl
  | discard _ _ => rfl
  | flush _ => rfl
  | consumerFlush _ => rfl
  | close => rfl

theorem delivered_eq (c : ℕ) (log : List Label) :
    delivered c log = (pieces c log).flatMap (framesOf c) := by
  unfold delivered pieces
  rw [List.flatMap_assoc]
  exact congrArg (log.flatMap ·) (funext (segment_eq c))

/-- The reads of a log announce their gaps, and end where the consumer stands. -/
structure Marked (c : ℕ) (log : List Label) (q : Queue) : Prop where
  announced : Announced 0 (pieces c log)
  ends_eq : ends 0 (pieces c log) = q.expectedFrame

theorem Marked.idle (h : Marked c log q) (label : Label) (hp : piece c label = [])
    (he : q'.expectedFrame = q.expectedFrame) : Marked c (log ++ [label]) q' := by
  have hsame : pieces c (log ++ [label]) = pieces c log := by
    rw [pieces_snoc, hp, List.append_nil]
  constructor
  · rw [hsame]
    exact h.announced
  · rw [hsame, he]
    exact h.ends_eq

/-- In ascending frames a further segment starts behind the last one. -/
theorem endOf_le {frames : List Frame} {position : ℕ} (samples : List Int16)
    (rest : List (List Int16))
    (h : (frames ++ number position (samples :: rest)).Pairwise (·.position < ·.position)) :
    endOf frames ≤ position := by
  unfold endOf
  cases hl : frames.getLast? with
  | none => exact Nat.zero_le _
  | some f =>
    have hmem : f ∈ frames := List.mem_of_getLast? hl
    exact (List.pairwise_append.mp h).2.2 f hmem ⟨position, samples⟩ List.mem_cons_self

theorem Marked.read (h : Marked c log q) (ha : Accounted capacity c log q) {dest : List Int16}
    {result : Except AudioError (PcmRead × List Int16)}
    (hr : PcmQueue.read dest q = (result, q')) : Marked c (log ++ [.read dest result]) q' := by
  have hafter := ha.read hr
  rcases read_spec ha.wf hr with ⟨e, rfl, rfl⟩ |
    ⟨r, dest', taken, tail, skipped, rfl, _, _, _, ht, hnum, _, _⟩
  · exact h.idle _ rfl rfl
  · cases htaken : taken with
    | nil =>
      have hframes : r.frames = 0 := by rw [ht.frames_eq, htaken, List.length_nil]
      apply h.idle
      · exact if_pos hframes
      · have hend := ht.expected_eq
        rw [htaken, List.length_nil, Nat.add_zero, ht.idle htaken] at hend
        exact hend
    | cons samples rest =>
      have hframes : r.frames ≠ 0 := by
        rw [ht.frames_eq, htaken]
        exact Nat.succ_ne_zero _
      have hpiece : piece c (.read dest (.ok (r, dest'))) =
          [⟨⟨r.frames, r.firstFrame, r.discontinuity, 0⟩, dest'.take (r.frames * c)⟩] :=
        if_neg hframes
      have hstart : q.expectedFrame ≤ r.firstFrame := by
        rw [ha.expected]
        apply endOf_le samples rest
        obtain ⟨flushed, hconveys, _⟩ := hafter.conveys
        have hsub := hafter.ascending.sublist hconveys.delivered_sublist
        have hseg : segment c (.read dest (.ok (r, dest'))) = number r.firstFrame taken := by
          rw [← ha.channels_eq]
          exact hnum
        rw [delivered_snoc, hseg, htaken] at hsub
        exact hsub
      have hmark : r.firstFrame ≠ q.expectedFrame → r.discontinuity = true := ht.discontinuity.mpr
      constructor
      · rw [pieces_snoc, hpiece, announced_append, h.ends_eq]
        exact ⟨h.announced, ⟨hstart, hmark⟩, trivial⟩
      · rw [pieces_snoc, hpiece, ends_append]
        change r.firstFrame + r.frames = q'.expectedFrame
        rw [ht.expected_eq, ht.frames_eq]

theorem step_marked (ha : Accounted capacity c log q) (h : Marked c log q)
    (st : PcmQueue.Step q label q') : Marked c (log ++ [label]) q' := by
  cases label with
  | push samples result =>
    apply h.idle _ rfl
    rcases push_spec ha.wf st with ⟨e, _, rfl⟩ | ⟨frames, _, _, _, hsame⟩
    · rfl
    · simp only [Prod.mk.injEq] at hsame
      exact hsame.2.2.2
  | discard frames result =>
    apply h.idle _ rfl
    rcases discard_spec st with ⟨e, _, rfl⟩ | ⟨_, discarded, rfl⟩ <;> rfl
  | flush result =>
    apply h.idle _ rfl
    rcases flush_spec st with ⟨e, _, rfl⟩ | ⟨_, rfl⟩ <;> rfl
  | read dest result => exact h.read ha st
  | consumerFlush result =>
    apply h.idle _ rfl
    rcases consumerFlush_spec st with ⟨e, _, rfl⟩ | ⟨_, rfl⟩ <;> rfl
  | close =>
    obtain rfl : q' = PcmQueue.close q := st
    exact h.idle .close rfl rfl

end Pieces

section Source

variable {c₁ c₂ : ℕ} {format : Format} {s s' : Chain}

/-- What waits for the socket: the segment that was read and not yet sent. -/
def waiting (c : ℕ) (o : Outbound) : List Packet :=
  match o.pending with
  | none => []
  | some r =>
    [⟨⟨r.frames, r.firstFrame, r.discontinuity, 0⟩, o.samples.take (r.frames * c)⟩]

/-- The source half: what was read from the queue is sent, or waits for the socket. -/
structure Feeds (capacity : ℕ) (format : Format) (s : Chain) : Prop where
  source : Accounted capacity format.channels s.sourceLog s.source
  marked : Marked format.channels s.sourceLog s.source
  sent_initial : s.link.sent.map unstamped <+: pieces format.channels s.sourceLog
  read_eq : s.link.sender.closed = false →
    pieces format.channels s.sourceLog =
      s.link.sent.map unstamped ++ waiting format.channels s.outbound
  pending : ∀ r, s.outbound.pending = some r → r.frames ≠ 0 ∧ r.frames ≤ blockFrames ∧
    r.frames * format.channels ≤ s.outbound.samples.length

theorem Feeds.announced (h : Feeds c₁ format s) : Announced 0 s.link.sent := by
  rw [← announced_unstamped]
  obtain ⟨tail, htail⟩ := h.sent_initial
  have hall := h.marked.announced
  rw [← htail, announced_append] at hall
  exact hall.1

/-- An operation on the source that reads nothing. -/
theorem Feeds.step (h : Feeds c₁ format s) {q : Queue} {label : Label}
    (st : PcmQueue.Step s.source label q) (hp : piece format.channels label = []) :
    Feeds c₁ format { s with source := q, sourceLog := s.sourceLog ++ [label] } := by
  have hpieces : pieces format.channels (s.sourceLog ++ [label]) =
      pieces format.channels s.sourceLog := by
    rw [pieces_snoc, hp, List.append_nil]
  refine ⟨step_accounted h.source st, step_marked h.source h.marked st, ?_, ?_, h.pending⟩
  · rw [hpieces]
    exact h.sent_initial
  · intro hopen
    rw [hpieces]
    exact h.read_eq hopen

theorem Feeds.produce (h : Feeds c₁ format s) (op : ProducerOp) : Feeds c₁ format (produce op s) := by
  cases op with
  | push samples =>
    have st : PcmQueue.Step s.source (.push samples (PcmQueue.push samples s.source).1)
      (PcmQueue.push samples s.source).2 := rfl
    exact h.step st rfl
  | discard frames =>
    have st : PcmQueue.Step s.source (.discard frames (PcmQueue.discard frames s.source).1)
      (PcmQueue.discard frames s.source).2 := rfl
    exact h.step st rfl
  | flush =>
    have st : PcmQueue.Step s.source (.flush (PcmQueue.flush s.source).1)
      (PcmQueue.flush s.source).2 := rfl
    exact h.step st rfl

theorem Feeds.closeSource (h : Feeds c₁ format s) : Feeds c₁ format (closeSource s) := by
  have st : PcmQueue.Step s.source .close (PcmQueue.close s.source) := rfl
  exact h.step st rfl

/-- The destination half and the receiving end do not concern the source half. -/
theorem Feeds.congr (h : Feeds c₁ format s) (hsource : s'.source = s.source)
    (hlog : s'.sourceLog = s.sourceLog) (houtbound : s'.outbound = s.outbound)
    (hsent : s'.link.sent = s.link.sent)
    (hclosed : s'.link.sender.closed = false → s.link.sender.closed = false) :
    Feeds c₁ format s' := by
  refine ⟨?_, ?_, ?_, ?_, ?_⟩
  · rw [hsource, hlog]
    exact h.source
  · rw [hsource, hlog]
    exact h.marked
  · rw [hsent, hlog]
    exact h.sent_initial
  · intro hopen
    rw [hsent, hlog, houtbound]
    exact h.read_eq (hclosed hopen)
  · rw [houtbound]
    exact h.pending

/-- What the outbound pump leaves alone. -/
structure Upstream (s s' : Chain) : Prop where
  destination_eq : s'.destination = s.destination
  log_eq : s'.destinationLog = s.destinationLog
  inbound_eq : s'.inbound = s.inbound
  receiver_eq : s'.link.receiver = s.link.receiver
  received_eq : s'.link.received = s.link.received

theorem Upstream.refl (s : Chain) : Upstream s s := ⟨rfl, rfl, rfl, rfl, rfl⟩

theorem Upstream.trans {s'' : Chain} (h : Upstream s s') (k : Upstream s' s'') : Upstream s s'' :=
  ⟨k.destination_eq.trans h.destination_eq, k.log_eq.trans h.log_eq,
    k.inbound_eq.trans h.inbound_eq, k.receiver_eq.trans h.receiver_eq,
    k.received_eq.trans h.received_eq⟩

/-- A state of the outbound pump: the source half stands, and the rest is as it was. -/
structure Pumping (capacity : ℕ) (format : Format) (s s' : Chain) : Prop where
  linked : Linked format s'.link
  feeds : Feeds capacity format s'
  upstream : Upstream s s'

theorem atSource_run {α : Type} {op : Action AudioError Queue α} {result : Except AudioError α}
    {q : Queue} (label : Except AudioError α → Label) (h : op s.source = (result, q)) :
    atSource op label s =
      (ioResult result, { s with source := q, sourceLog := s.sourceLog ++ [label result] }) := by
  unfold atSource
  rw [h]

theorem atDestination_run {α : Type} {op : Action AudioError Queue α} {result : Except AudioError α}
    {q : Queue} (label : Except AudioError α → Label) (h : op s.destination = (result, q)) :
    atDestination op label s = (ioResult result, { s with
      destination := q, destinationLog := s.destinationLog ++ [label result] }) := by
  unfold atDestination
  rw [h]

/-- The buffer keeps the samples of the segment, and the segment fits in one block. -/
theorem Feeds.fetched (h : Feeds c₁ format s) (hidle : s.outbound.pending = none) {r : PcmRead}
    {dest' : List Int16} {q : Queue}
    (hr : PcmQueue.read (s.outbound.samples.take (blockFrames * format.channels)) s.source =
      (.ok (r, dest'), q)) :
    Feeds c₁ format { s with
      source := q
      sourceLog := s.sourceLog ++
        [.read (s.outbound.samples.take (blockFrames * format.channels)) (.ok (r, dest'))]
      outbound := ⟨dest' ++ s.outbound.samples.drop dest'.length,
        if r.frames = 0 then none else some r⟩ } := by
  generalize hd : s.outbound.samples.take (blockFrames * format.channels) = dest at hr
  obtain ⟨hsize, hsmall⟩ : r.frames * format.channels ≤ dest'.length ∧ r.frames ≤ blockFrames := by
    rcases read_spec h.source.wf hr with ⟨e, he, _⟩ |
      ⟨r', dest'', taken, tail, skipped, he, hlen, _, _, ht, _, _, _⟩
    · cases he
    · obtain ⟨rfl, rfl⟩ := Prod.mk.inj (Except.ok.inj he)
      have hbounded := ht.bounded
      rw [h.source.channels_eq] at hlen hbounded
      rw [ht.frames_eq]
      refine ⟨hlen ▸ Nat.le_max_right _ _, hbounded.trans ?_⟩
      apply Nat.div_le_of_le_mul
      rw [← hd, List.length_take, Nat.mul_comm]
      exact Nat.min_le_left _ _
  have hpieces := pieces_snoc format.channels s.sourceLog (.read dest (.ok (r, dest')))
  refine ⟨h.source.read hr, h.marked.read h.source hr, ?_, ?_, ?_⟩
  · rw [hpieces]
    exact h.sent_initial.trans (List.prefix_append _ _)
  · intro hopen
    have hread := h.read_eq hopen
    unfold waiting at hread ⊢
    rw [hidle] at hread
    rw [hpieces, hread, List.append_nil]
    unfold piece
    dsimp only
    by_cases hzero : r.frames = 0
    · rw [if_pos hzero, if_pos hzero]
    · rw [if_neg hzero, if_neg hzero]
      dsimp only
      rw [List.take_append_of_le_length hsize]
  · intro r' hpending
    dsimp only at hpending ⊢
    by_cases hzero : r.frames = 0
    · rw [if_pos hzero] at hpending
      cases hpending
    · rw [if_neg hzero] at hpending
      obtain rfl := Option.some.inj hpending
      refine ⟨hzero, hsmall, ?_⟩
      rw [List.length_append]
      exact hsize.trans (Nat.le_add_right _ _)

theorem fetch_spec (h : Feeds c₁ format s) (hlinked : Linked format s.link)
    (hidle : s.outbound.pending = none) :
    Meets (Outbound.fetch format.channels s) (fun _ s' => Pumping c₁ format s s' ∧
        s'.link = s.link)
      (fun _ s' => Pumping c₁ format s s') := by
  unfold Outbound.fetch
  rw [meets_get_bind]
  rcases hr : PcmQueue.read (s.outbound.samples.take (blockFrames * format.channels)) s.source with
    ⟨e | result, q⟩
  · have hrun := atSource_run (.read (s.outbound.samples.take (blockFrames * format.channels))) hr
    rw [bind_run_error hrun, meets_error]
    exact ⟨hlinked, h.step hr rfl, rfl, rfl, rfl, rfl, rfl⟩
  · have hrun := atSource_run (.read (s.outbound.samples.take (blockFrames * format.channels))) hr
    rw [meets_bind_ok hrun]
    obtain ⟨r, dest'⟩ := result
    exact ⟨⟨hlinked, h.fetched hidle hr, rfl, rfl, rfl, rfl, rfl⟩, rfl⟩

theorem meets_onLink {α : Type} {m : Action PcmError Link α} {Q : α → Link → Prop}
    {E : PcmError → Link → Prop} (h : Meets (m s.link) Q E) :
    Meets (onLink m s) (fun a s' => ∃ l, Q a l ∧ s' = { s with link := l })
      (fun e s' => ∃ l, E e l ∧ s' = { s with link := l }) := by
  unfold onLink
  rcases hm : m s.link with ⟨e | a, l⟩
  · rw [hm, meets_error] at h
    exact ⟨l, h, rfl⟩
  · rw [hm, meets_ok] at h
    exact ⟨l, h, rfl⟩

theorem Pumping.close (h : Pumping c₁ format s s') : Pumping c₁ format s (Outbound.close s') := by
  have hlinked : Linked format (Sender.close s'.link) :=
    h.linked.sender_step _ _ rfl h.linked.sending rfl
  refine ⟨hlinked, ?_, h.upstream.trans ⟨rfl, rfl, rfl, rfl, rfl⟩⟩
  exact h.feeds.closeSource.congr rfl rfl rfl rfl fun hopen => absurd hopen Bool.noConfusion

/-- A call of the sender that failed, with the sender closed after it. -/
theorem Feeds.failed (h : Feeds c₁ format s) {l : Link} {ps : List Packet}
    (hsends : Sends format s.link l ps)
    (hsent : (s.link.sent ++ ps).map unstamped <+: pieces format.channels s.sourceLog) :
    Pumping c₁ format s (Outbound.close { s with link := l }) := by
  have hlinked : Linked format (Sender.close l) :=
    hsends.linked.sender_step _ _ rfl hsends.linked.sending rfl
  have hclosed := h.closeSource
  refine ⟨hlinked, ⟨hclosed.source, hclosed.marked, ?_, ?_, h.pending⟩, ?_⟩
  · change l.sent.map unstamped <+: pieces format.channels (s.sourceLog ++ [.close])
    rw [hsends.sent_eq, pieces_snoc]
    exact hsent.trans (List.prefix_append _ _)
  · intro hopen
    cases hopen
  · exact ⟨rfl, rfl, rfl, hsends.receiver_eq, hsends.received_eq⟩

/-- The block made of a pending segment carries all of it. -/
theorem Feeds.waiting_eq (h : Feeds c₁ format s) (hchannels : 0 < format.channels) {r : PcmRead}
    (hr : s.outbound.pending = some r) (now : UInt64) :
    let p := packetOf format (s.outbound.samples.take (r.frames * format.channels)) r.firstFrame
      r.discontinuity now
    p.block.frames = r.frames ∧ waiting format.channels s.outbound = [unstamped p] := by
  obtain ⟨_, hsmall, hsize⟩ := h.pending r hr
  have hlen : (s.outbound.samples.take (r.frames * format.channels)).length =
      r.frames * format.channels := by
    rw [List.length_take, Nat.min_eq_left hsize]
  have hframes : min ((s.outbound.samples.take (r.frames * format.channels)).length /
      format.channels) blockFrames = r.frames := by
    rw [hlen, Nat.mul_div_cancel _ hchannels, Nat.min_eq_left hsmall]
  refine ⟨hframes, ?_⟩
  unfold waiting packetOf unstamped
  rw [hr]
  dsimp only
  rw [hframes, List.take_take, Nat.min_self]

theorem transmit_spec (h : Feeds c₁ format s) (hlinked : Linked format s.link)
    (hopen : s.link.sender.closed = false) (now : UInt64) (first second : WriteOutcome) :
    Meets (Outbound.transmit format.channels now first second s)
      (fun _ s' => Pumping c₁ format s s')
      (fun _ s' => Pumping c₁ format s (Outbound.close s')) := by
  unfold Outbound.transmit
  rw [meets_get_bind]
  cases hr : s.outbound.pending with
  | none => exact ⟨hlinked, h, Upstream.refl s⟩
  | some r =>
    obtain ⟨hpos, _, _⟩ := h.pending r hr
    obtain ⟨hframes, hwaiting⟩ := h.waiting_eq h.source.channels_pos hr now
    have hread := h.read_eq hopen
    have hsend := send_spec hlinked (s.outbound.samples.take (r.frames * format.channels))
      r.firstFrame r.discontinuity now first second
    generalize packetOf format (s.outbound.samples.take (r.frames * format.channels)) r.firstFrame
      r.discontinuity now = p at hframes hwaiting hsend
    rw [hwaiting] at hread
    have hboth : (s.link.sent ++ [p]).map unstamped <+: pieces format.channels s.sourceLog := by
      rw [hread, List.map_append]
      exact List.prefix_rfl
    refine meets_bind ((meets_onLink hsend).mono (fun _ _ hq => hq) ?_) ?_
    · rintro e _ ⟨l, ⟨_, hs⟩ | ⟨_, hs⟩ | ⟨_, hs, _, _⟩, rfl⟩
      · apply h.failed hs
        rw [List.append_nil]
        exact h.sent_initial
      · exact h.failed hs hboth
      · exact h.failed hs hboth
    · rintro n _ ⟨l, ⟨_, ⟨rfl, hs⟩ | ⟨rfl, _, hs⟩⟩, rfl⟩
      · rw [if_neg (Ne.symm hpos)]
        refine ⟨hs.linked, ?_, rfl, rfl, rfl, hs.receiver_eq, hs.received_eq⟩
        have hsent : l.sent = s.link.sent := by rw [hs.sent_eq, List.append_nil]
        exact h.congr rfl rfl rfl hsent fun _ => hopen
      · rw [if_pos hframes]
        refine ⟨hs.linked, ⟨h.source, h.marked, ?_, ?_, ?_⟩, rfl, rfl, rfl, hs.receiver_eq,
          hs.received_eq⟩
        · change l.sent.map unstamped <+: _
          rw [hs.sent_eq]
          exact hboth
        · intro _
          change _ = l.sent.map unstamped ++ []
          rw [hs.sent_eq, List.map_append, List.append_nil]
          exact hread
        · intro r' hr'
          cases hr'

theorem outbound_pumpInner_spec (h : Feeds c₁ format s) (hlinked : Linked format s.link)
    (now : UInt64) (first second third : WriteOutcome) :
    Meets (Outbound.pumpInner now first second third s)
      (fun _ s' => Pumping c₁ format s s')
      (fun _ s' => Pumping c₁ format s (Outbound.close s')) := by
  unfold Outbound.pumpInner
  refine meets_bind ((meets_onLink (pump_spec hlinked now first)).mono (fun _ _ hq => hq) ?_) ?_
  · rintro e _ ⟨l, hs, rfl⟩
    apply h.failed hs.sends
    rw [List.append_nil]
    exact h.sent_initial
  · rintro _ _ ⟨l, ⟨hs, hwas, hopen, _⟩, rfl⟩
    have hsent : l.sent = s.link.sent := by rw [hs.sent_eq, List.append_nil]
    have h₁ : Pumping c₁ format s { s with link := l } :=
      ⟨hs.linked, h.congr rfl rfl rfl hsent fun _ => hwas, rfl, rfl, rfl, hs.receiver_eq,
        hs.received_eq⟩
    have hopen₁ : ({ s with link := l } : Chain).link.sender.closed = false := hopen
    generalize ({ s with link := l } : Chain) = s₁ at h₁ hopen₁ ⊢
    rw [meets_get_bind]
    by_cases hbusy : s₁.link.sender.length ≠ 0
    · rw [if_pos hbusy]
      exact h₁
    · rw [if_neg hbusy]
      dsimp only
      rw [h₁.linked.sender_format]
      have htransmit : ∀ {s₂ : Chain}, Pumping c₁ format s s₂ → s₂.link.sender.closed = false →
          Meets (Outbound.transmit format.channels now second third s₂)
            (fun _ s' => Pumping c₁ format s s')
            (fun _ s' => Pumping c₁ format s (Outbound.close s')) := by
        intro s₂ h₂ hopen₂
        apply (transmit_spec h₂.feeds h₂.linked hopen₂ now second third).mono
        · intro _ s₃ h₃
          exact ⟨h₃.linked, h₃.feeds, h₂.upstream.trans h₃.upstream⟩
        · intro e s₃ h₃
          exact ⟨h₃.linked, h₃.feeds, h₂.upstream.trans h₃.upstream⟩
      by_cases hidle : s₁.outbound.pending = none
      · rw [if_pos hidle]
        refine meets_bind ((fetch_spec h₁.feeds h₁.linked hidle).mono (fun _ _ hq => hq) ?_) ?_
        · intro e s₂ h₂
          exact Pumping.close ⟨h₂.linked, h₂.feeds, h₁.upstream.trans h₂.upstream⟩
        · rintro _ s₂ ⟨h₂, hlink⟩
          apply htransmit ⟨h₂.linked, h₂.feeds, h₁.upstream.trans h₂.upstream⟩
          rw [hlink]
          exact hopen₁
      · rw [if_neg hidle]
        exact htransmit h₁ hopen₁

theorem outbound_pump_spec (h : Feeds c₁ format s) (hlinked : Linked format s.link) (now : UInt64)
    (first second third : WriteOutcome) :
    Pumping c₁ format s (Outbound.pump now first second third s).2 := by
  have hinner := outbound_pumpInner_spec h hlinked now first second third
  unfold Outbound.pump
  rcases hp : Outbound.pumpInner now first second third s with ⟨e | _, s₁⟩
  · rw [hp] at hinner
    exact hinner
  · rw [hp] at hinner
    exact hinner

end Source

section Destination

variable {c₁ c₂ : ℕ} {format : Format} {s s' : Chain} {handled : List Packet}

/-- The frames of some blocks. -/
def total (ps : List Packet) : ℕ := (ps.map (·.block.frames)).sum

/-- What the destination holds and counts when these blocks have been dealt with. -/
structure Settled (format : Format) (handled : List Packet) (s : Chain) : Prop where
  clock_eq : clock format.channels s.destinationLog = ends 0 handled
  arrived : (accepted format.channels s.destinationLog).Sublist
    (handled.flatMap (framesOf format.channels))
  offered : (accepted format.channels s.destinationLog).length +
    refused format.channels s.destinationLog = total handled

/-- The destination half. The last block received finds the queue closed at worst. -/
structure Drains (capacity : ℕ) (format : Format) (handled : List Packet) (s : Chain) : Prop where
  destination : Accounted capacity format.channels s.destinationLog s.destination
  counted : Counted format.channels s.destinationLog s.destination
  settled : Settled format handled s
  next_eq : s.inbound.nextFrame = ends 0 handled
  received : s.link.received = handled ∨ s.destination.closed = true ∧
    s.link.receiver.channel.closed = true ∧ ∃ p, s.link.received = handled ++ [p]

/-- Labels of the consumer neither accept nor refuse. -/
structure Passive (c : ℕ) (label : Label) : Prop where
  produced_eq : ∀ t, produced c t label = t
  refusal_eq : refusal c label = 0

theorem Settled.passive (h : Settled format handled s) {label : Label}
    (hp : Passive format.channels label) {q : Queue} :
    Settled format handled { s with
      destination := q, destinationLog := s.destinationLog ++ [label] } := by
  have haccepted : accepted format.channels (s.destinationLog ++ [label]) =
      accepted format.channels s.destinationLog := by
    rw [accepted_snoc, hp.produced_eq]
  refine ⟨?_, ?_, ?_⟩
  · change clock format.channels (s.destinationLog ++ [label]) = _
    rw [clock_snoc, hp.produced_eq]
    exact h.clock_eq
  · change (accepted format.channels (s.destinationLog ++ [label])).Sublist _
    rw [haccepted]
    exact h.arrived
  · change (accepted format.channels (s.destinationLog ++ [label])).length +
      refused format.channels (s.destinationLog ++ [label]) = _
    rw [haccepted, refused_snoc, hp.refusal_eq]
    exact h.offered

theorem Settled.congr (h : Settled format handled s) (hlog : s'.destinationLog = s.destinationLog) :
    Settled format handled s' := by
  refine ⟨?_, ?_, ?_⟩
  · rw [hlog]
    exact h.clock_eq
  · rw [hlog]
    exact h.arrived
  · rw [hlog]
    exact h.offered

theorem passive_read (c : ℕ) (dest : List Int16)
    (result : Except AudioError (PcmRead × List Int16)) : Passive c (.read dest result) := by
  constructor
  · intro t
    rfl
  · rfl

theorem passive_consumerFlush (c : ℕ) (result : Except AudioError Unit) :
    Passive c (.consumerFlush result) := by
  constructor
  · intro t
    rfl
  · rfl

theorem passive_close (c : ℕ) : Passive c .close := ⟨fun _ => rfl, rfl⟩

/-- What the consumer of the destination leaves alone. -/
structure Downstream (s s' : Chain) : Prop where
  source_eq : s'.source = s.source
  log_eq : s'.sourceLog = s.sourceLog
  outbound_eq : s'.outbound = s.outbound

/-- The destination and its log after operations that fit together. -/
structure Queued (capacity : ℕ) (format : Format) (s : Chain) : Prop where
  accounted : Accounted capacity format.channels s.destinationLog s.destination
  counted : Counted format.channels s.destinationLog s.destination

theorem Queued.step (h : Queued c₂ format s) {q : Queue} {label : Label}
    (st : PcmQueue.Step s.destination label q) :
    Queued c₂ format { s with
      destination := q, destinationLog := s.destinationLog ++ [label] } :=
  ⟨step_accounted h.accounted st, step_counted h.accounted h.counted st⟩

theorem consume_spec (h : Queued c₂ format s) (op : ConsumerOp) :
    ∃ q label, consume op s = { s with
        destination := q, destinationLog := s.destinationLog ++ [label] } ∧
      Passive format.channels label ∧ PcmQueue.Step s.destination label q ∧
      q.closed = s.destination.closed := by
  cases op with
  | read dest =>
    rcases hr : PcmQueue.read dest s.destination with ⟨result, q⟩
    refine ⟨q, .read dest result, congrArg Prod.snd (atDestination_run (.read dest) hr),
      passive_read _ _ _, hr, ?_⟩
    rcases read_spec h.accounted.wf hr with ⟨e, _, rfl⟩ |
      ⟨r, dest', taken, tail, skipped, _, _, _, _, _, _, _, hsame⟩
    · rfl
    · rw [hsame]
  | flush =>
    rcases hf : PcmQueue.consumerFlush s.destination with ⟨result, q⟩
    refine ⟨q, .consumerFlush result, congrArg Prod.snd (atDestination_run .consumerFlush hf),
      passive_consumerFlush _ _, hf, ?_⟩
    rcases consumerFlush_spec hf with ⟨e, _, rfl⟩ | ⟨_, rfl⟩ <;> rfl

/-- The destination of `s'` on the way of one block from `s` on. -/
structure Filling (capacity : ℕ) (format : Format) (s s' : Chain) (position : ℕ)
    (taken : List Frame) (loss : ℕ) : Prop where
  queued : Queued capacity format s'
  clock_eq : clock format.channels s'.destinationLog = position
  accepted_eq : accepted format.channels s'.destinationLog = taken
  refused_eq : refused format.channels s'.destinationLog = loss
  closed_eq : s'.destination.closed = s.destination.closed
  downstream : Downstream s s'
  link_eq : s'.link = s.link
  inbound_eq : s'.inbound = s.inbound

variable {position loss : ℕ} {taken : List Frame}

/-- One more operation on the destination. -/
theorem Filling.step (h : Filling c₂ format s s' position taken loss) {q : Queue} {label : Label}
    (st : PcmQueue.Step s'.destination label q) (hclosed : q.closed = s'.destination.closed) :
    Filling c₂ format s
      { s' with destination := q, destinationLog := s'.destinationLog ++ [label] }
      (produced format.channels (position, taken) label).1
      (produced format.channels (position, taken) label).2
      (loss + refusal format.channels label) := by
  refine ⟨h.queued.step st, ?_, ?_, ?_, hclosed.trans h.closed_eq, ?_, h.link_eq, h.inbound_eq⟩
  · rw [← h.clock_eq, ← h.accepted_eq]
    exact clock_snoc _ _ _
  · rw [← h.clock_eq, ← h.accepted_eq]
    exact accepted_snoc _ _ _
  · rw [← h.refused_eq]
    exact refused_snoc _ _ _
  · exact ⟨h.downstream.source_eq, h.downstream.log_eq, h.downstream.outbound_eq⟩

theorem Filling.consumeAll (h : Filling c₂ format s s' position taken loss) (ops : List ConsumerOp) :
    Filling c₂ format s (consumeAll ops s') position taken loss := by
  unfold PcmChain.consumeAll
  induction ops generalizing s' with
  | nil => exact h
  | cons op ops ih =>
    apply ih
    obtain ⟨q, label, hconsume, hpassive, st, hclosed⟩ := consume_spec h.queued op
    have hstep := h.step st hclosed
    rw [hpassive.produced_eq, hpassive.refusal_eq] at hstep
    change Filling c₂ format s (consume op s') position taken loss
    rw [hconsume]
    exact hstep

theorem Filling.nextFrame_eq (h : Filling c₂ format s s' position taken loss) :
    s'.destination.nextFrame = position := by
  rw [← h.queued.accounted.clock_eq, h.clock_eq]

theorem skipTo_spec (h : Filling c₂ format s s' position taken loss)
    (hnext : s'.inbound.nextFrame = position) {firstFrame : ℕ} (hle : position ≤ firstFrame)
    (hmax : firstFrame ≤ u64Max) :
    Meets (Inbound.skipTo firstFrame s')
      (fun _ s'' => Filling c₂ format s s'' firstFrame taken loss ∧
        (position < firstFrame → s.destination.closed = false))
      (fun e s'' => e = .audio .closed ∧ s.destination.closed = true ∧
        Filling c₂ format s s'' position taken loss) := by
  have hclock := h.nextFrame_eq
  unfold Inbound.skipTo
  rw [meets_get_bind, hnext]
  by_cases hgap : position < firstFrame
  · rw [if_pos hgap]
    have hroom : s'.destination.nextFrame + (firstFrame - position) ≤ u64Max := by omega
    rcases discard_result hroom with ⟨hclosed, hrun⟩ | ⟨hopen, hrun⟩
    · have st : PcmQueue.Step s'.destination (.discard (firstFrame - position) (.error .closed))
        s'.destination := hrun
      have hstep := h.step st rfl
      rw [atDestination_run (.discard (firstFrame - position)) hrun]
      exact ⟨rfl, h.closed_eq.symm.trans hclosed, hstep⟩
    · have st : PcmQueue.Step s'.destination (.discard (firstFrame - position) (.ok ())) _ := hrun
      have hstep := h.step st rfl
      rw [atDestination_run (.discard (firstFrame - position)) hrun]
      change Filling c₂ format s _ (position + (firstFrame - position)) taken loss at hstep
      rw [Nat.add_sub_cancel' hle] at hstep
      exact ⟨hstep, fun _ => h.closed_eq.symm.trans hopen⟩
  · rw [if_neg hgap]
    obtain rfl : position = firstFrame := Nat.le_antisymm hle (Nat.le_of_not_lt hgap)
    exact ⟨h, fun hlt => absurd hlt (Nat.lt_irrefl _)⟩

theorem place_spec (h : Filling c₂ format s s' position taken loss) (block : Block)
    {samples : List Int16} (hstart : block.firstFrame = position)
    (hlen : samples.length = block.frames * format.channels) (hchannels : 0 < format.channels)
    (hmax : block.firstFrame + block.frames ≤ u64Max) (before after : List ConsumerOp) :
    Meets (Inbound.place block samples before after s')
      (fun _ s'' => ∃ s₁ frames, frames ≤ block.frames ∧
        Filling c₂ format s s₁ (position + block.frames)
          (taken ++ number position (Slab.chunks format.channels frames samples))
          (loss + (block.frames - frames)) ∧
        s'' = { s₁ with inbound := { s₁.inbound with
          nextFrame := block.firstFrame + block.frames } })
      (fun e s'' => e = .audio .closed ∧ s.destination.closed = true ∧
        Filling c₂ format s s'' position taken loss) := by
  unfold Inbound.place
  rw [meets_modify_bind]
  have h₁ := h.consumeAll before
  generalize PcmChain.consumeAll before s' = s₁ at h₁
  have hwhole : samples.length / format.channels = block.frames := by
    rw [hlen, Nat.mul_div_cancel _ hchannels]
  have hch := h₁.queued.accounted.channels_eq
  have hclock₁ := h₁.nextFrame_eq
  have halign : samples.length % s₁.destination.channels = 0 := by
    rw [hch, hlen, Nat.mul_mod_left]
  have hroom : s₁.destination.nextFrame + samples.length / s₁.destination.channels ≤ u64Max := by
    rw [hch, hwhole]
    omega
  rcases push_result halign hroom with ⟨hclosed, hrun⟩ | ⟨hopen, frames, q, hrun, hle, hshut⟩
  · have st : PcmQueue.Step s₁.destination (.push samples (.error .closed)) s₁.destination := hrun
    have hstep := h₁.step st rfl
    rw [bind_run_error (atDestination_run (.push samples) hrun), meets_error]
    exact ⟨rfl, h₁.closed_eq.symm.trans hclosed, hstep⟩
  · rw [hch, hwhole] at hle
    have st : PcmQueue.Step s₁.destination (.push samples (.ok frames)) q := hrun
    have hstep := h₁.step st (hshut.trans hopen.symm)
    rw [meets_bind_ok (atDestination_run (.push samples) hrun), meets_modify_bind]
    change Filling c₂ format s _ (position + frames)
      (taken ++ number position (Slab.chunks format.channels frames samples))
      (loss + (samples.length / format.channels - frames)) at hstep
    rw [hwhole] at hstep
    have h₂ := hstep.consumeAll after
    generalize PcmChain.consumeAll after _ = s₂ at h₂
    have hclock₂ := h₂.nextFrame_eq
    have hroom₂ : s₂.destination.nextFrame + (block.frames - frames) ≤ u64Max := by omega
    rcases discard_result hroom₂ with ⟨hclosed₂, hrun₂⟩ | ⟨hopen₂, hrun₂⟩
    · rw [h₂.closed_eq, ← h₁.closed_eq, hopen] at hclosed₂
      cases hclosed₂
    · have st₂ : PcmQueue.Step s₂.destination (.discard (block.frames - frames) (.ok ())) _ := hrun₂
      have h₃ := h₂.step st₂ rfl
      rw [meets_bind_ok (atDestination_run (.discard (block.frames - frames)) hrun₂), meets_modify]
      change Filling c₂ format s _ (position + frames + (block.frames - frames)) _
        (loss + (block.frames - frames)) at h₃
      have hsum : position + frames + (block.frames - frames) = position + block.frames := by omega
      rw [hsum] at h₃
      exact ⟨_, frames, hle, h₃, rfl⟩

theorem number_chunks_initial {c frames n : ℕ} (hle : frames ≤ n) (position : ℕ)
    (samples : List Int16) :
    number position (Slab.chunks c frames samples) <+: number position (Slab.chunks c n samples) := by
  induction frames generalizing n position samples with
  | zero => exact List.nil_prefix
  | succ frames ih =>
    obtain ⟨m, rfl⟩ := Nat.exists_eq_add_of_le' (Nat.lt_of_lt_of_le (Nat.succ_pos _) hle)
    exact (List.prefix_cons_inj _).mpr (ih (Nat.le_of_succ_le_succ hle) _ _)

/-- The block after the handled ones has been dealt with. -/
theorem Settled.handle (h : Settled format handled s) {p : Packet} {frames : ℕ}
    (hle : frames ≤ p.block.frames)
    (hf : Filling c₂ format s s' (p.block.firstFrame + p.block.frames)
      (accepted format.channels s.destinationLog ++
        number p.block.firstFrame (Slab.chunks format.channels frames p.samples))
      (refused format.channels s.destinationLog + (p.block.frames - frames))) :
    Settled format (handled ++ [p]) s' := by
  refine ⟨?_, ?_, ?_⟩
  · rw [hf.clock_eq, ends_append]
    rfl
  · rw [hf.accepted_eq, List.flatMap_append, List.flatMap_singleton]
    exact h.arrived.append (number_chunks_initial hle _ _).sublist
  · have hoffered := h.offered
    unfold total at hoffered ⊢
    rw [hf.accepted_eq, hf.refused_eq, List.length_append, length_number, Slab.length_chunks,
      List.map_append, List.sum_append, List.map_singleton, List.sum_singleton]
    omega

/-- What a block on its way into the destination leaves of a failing pump. -/
theorem Filling.settled (h : Settled format handled s)
    (hf : Filling c₂ format s s' position (accepted format.channels s.destinationLog)
      (refused format.channels s.destinationLog))
    (hposition : position = ends 0 handled) : Settled format handled s' := by
  refine ⟨hf.clock_eq.trans hposition, ?_, ?_⟩
  · rw [hf.accepted_eq]
    exact h.arrived
  · rw [hf.accepted_eq, hf.refused_eq]
    exact h.offered

end Destination

section Chains

variable {c₁ c₂ : ℕ} {format : Format} {s s' : Chain} {handled : List Packet}

/-- Both halves of a chain, over one socket. -/
structure Tied (c₁ c₂ : ℕ) (format : Format) (s : Chain) : Prop where
  linked : Linked format s.link
  feeds : Feeds c₁ format s
  drains : ∃ handled, Drains c₂ format handled s

/-- The source half and the sending end do not concern the destination half. -/
theorem Drains.upstream (h : Drains c₂ format handled s) (hu : Upstream s s') :
    Drains c₂ format handled s' := by
  obtain ⟨hdestination, hlog, hinbound, hreceiver, hreceived⟩ := hu
  refine ⟨?_, ?_, h.settled.congr hlog, ?_, ?_⟩
  · rw [hdestination, hlog]
    exact h.destination
  · rw [hdestination, hlog]
    exact h.counted
  · rw [hinbound]
    exact h.next_eq
  · rw [hreceived, hdestination, hreceiver]
    exact h.received

theorem Pumping.tied (h : Pumping c₁ format s s') (hd : Drains c₂ format handled s) :
    Tied c₁ c₂ format s' := ⟨h.linked, h.feeds, handled, hd.upstream h.upstream⟩

theorem Drains.passive (h : Drains c₂ format handled s) {q : Queue} {label : Label}
    (hp : Passive format.channels label) (st : PcmQueue.Step s.destination label q)
    (hclosed : s.destination.closed = true → q.closed = true) :
    Drains c₂ format handled { s with
      destination := q, destinationLog := s.destinationLog ++ [label] } := by
  refine ⟨step_accounted h.destination st, step_counted h.destination h.counted st,
    h.settled.passive hp, h.next_eq, ?_⟩
  rcases h.received with heq | ⟨hshut, hreceiver, hlast⟩
  · exact .inl heq
  · exact .inr ⟨hclosed hshut, hreceiver, hlast⟩

theorem Tied.consume (h : Tied c₁ c₂ format s) (op : ConsumerOp) :
    Tied c₁ c₂ format (consume op s) := by
  obtain ⟨handled, hd⟩ := h.drains
  obtain ⟨q, label, hconsume, hpassive, st, hclosed⟩ := consume_spec ⟨hd.destination, hd.counted⟩ op
  rw [hconsume]
  refine ⟨h.linked, h.feeds.congr rfl rfl rfl rfl id, handled, hd.passive hpassive st ?_⟩
  rw [hclosed]
  exact id

theorem Tied.closeDestination (h : Tied c₁ c₂ format s) :
    Tied c₁ c₂ format (closeDestination s) := by
  obtain ⟨handled, hd⟩ := h.drains
  have st : PcmQueue.Step s.destination .close (PcmQueue.close s.destination) := rfl
  exact ⟨h.linked, h.feeds.congr rfl rfl rfl rfl id, handled,
    hd.passive (passive_close _) st fun _ => rfl⟩

theorem close_linked (h : Linked format s.link) : Linked format (Receiver.close s.link) := by
  exact h.receiver_step ⟨rfl, rfl, rfl, rfl, rfl⟩ fun hopen => absurd hopen Bool.noConfusion

theorem Tied.closeInbound (h : Tied c₁ c₂ format s) : Tied c₁ c₂ format (Inbound.close s) := by
  obtain ⟨hlinked, hfeeds, handled, hd⟩ := h.closeDestination
  refine ⟨close_linked h.linked, hfeeds.congr rfl rfl rfl rfl id, handled, hd.destination, hd.counted,
    hd.settled.congr rfl, hd.next_eq, ?_⟩
  rcases hd.received with heq | ⟨hshut, _, hlast⟩
  · exact .inl heq
  · exact .inr ⟨hshut, rfl, hlast⟩

/-- The receiving end of a link, lifted to the chain. -/
theorem Tied.receive (h : Tied c₁ c₂ format s) {l : Link} (hlinked : Linked format l)
    (hsender : l.sender = s.link.sender) (hsent : l.sent = s.link.sent)
    (hreceived : l.received = s.link.received)
    (hclosed : s.link.receiver.channel.closed = true → l.receiver.channel.closed = true) :
    Tied c₁ c₂ format { s with link := l } := by
  obtain ⟨handled, hd⟩ := h.drains
  refine ⟨hlinked, h.feeds.congr rfl rfl rfl hsent ?_, handled, hd.destination, hd.counted,
    hd.settled.congr rfl, hd.next_eq, ?_⟩
  · change l.sender.closed = false → _
    rw [hsender]
    exact id
  · change l.received = handled ∨ s.destination.closed = true ∧ l.receiver.channel.closed = true ∧
      ∃ p, l.received = handled ++ [p]
    rw [hreceived]
    rcases hd.received with heq | ⟨hshut, hreceiver, hlast⟩
    · exact .inl heq
    · exact .inr ⟨hshut, hclosed hreceiver, hlast⟩

/-- The errors that a pump of the destination can end with. -/
def Excused (e : PcmError) : Prop := e ∈ harmless ∨ e = .audio .closed

/-- The call that handed out the block `p` left the chain in `s₁`. -/
structure Handed (c₁ c₂ : ℕ) (format : Format) (handled : List Packet) (p : Packet) (s s₁ : Chain) :
    Prop where
  tied : Tied c₁ c₂ format s
  drains : Drains c₂ format handled s
  linked : Linked format s₁.link
  sender_eq : s₁.link.sender = s.link.sender
  sent_eq : s₁.link.sent = s.link.sent
  received_eq : s₁.link.received = handled ++ [p]
  next_eq : s₁.inbound.nextFrame = s.inbound.nextFrame
  destination_eq : s₁.destination = s.destination
  log_eq : s₁.destinationLog = s.destinationLog
  downstream : Downstream s s₁

variable {p : Packet} {s₁ s₂ : Chain}

theorem Handed.filling (h : Handed c₁ c₂ format handled p s s₁) :
    Filling c₂ format s₁ s₁ (ends 0 handled) (accepted format.channels s₁.destinationLog)
      (refused format.channels s₁.destinationLog) := by
  refine ⟨⟨?_, ?_⟩, ?_, rfl, rfl, rfl, ⟨rfl, rfl, rfl⟩, rfl, rfl⟩
  · rw [h.log_eq, h.destination_eq]
    exact h.drains.destination
  · rw [h.log_eq, h.destination_eq]
    exact h.drains.counted
  · rw [h.log_eq]
    exact h.drains.settled.clock_eq

/-- The block is whole and lies behind the handled ones. -/
theorem Handed.block (h : Handed c₁ c₂ format handled p s s₁) :
    Valid format p ∧ ends 0 handled ≤ p.block.firstFrame := by
  have hinitial := h.linked.received_initial
  rw [h.received_eq] at hinitial
  constructor
  · exact h.linked.valid p (hinitial.subset (List.mem_append_right _ List.mem_cons_self))
  · obtain ⟨tail, htail⟩ := hinitial
    have hannounced := h.tied.feeds.announced
    rw [← h.sent_eq, ← htail, List.append_assoc, announced_append] at hannounced
    exact hannounced.2.1.1

/-- A pump that fails at a closed destination has not dealt with the block. -/
theorem Handed.interrupted (h : Handed c₁ c₂ format handled p s s₁)
    (hf : Filling c₂ format s₁ s₂ (ends 0 handled) (accepted format.channels s₁.destinationLog)
      (refused format.channels s₁.destinationLog)) (hshut : s₁.destination.closed = true) :
    Tied c₁ c₂ format (Inbound.close s₂) := by
  have st : PcmQueue.Step s₂.destination .close (PcmQueue.close s₂.destination) := rfl
  have hclosed := hf.step st (hshut.symm.trans hf.closed_eq.symm)
  have hsource := hf.downstream
  have hbefore := h.downstream
  refine ⟨close_linked (hf.link_eq ▸ h.linked), ?_, handled, hclosed.queued.accounted,
    hclosed.queued.counted, ?_, ?_, .inr ⟨rfl, rfl, p, ?_⟩⟩
  · refine h.tied.feeds.congr (hsource.source_eq.trans hbefore.source_eq)
      (hsource.log_eq.trans hbefore.log_eq) (hsource.outbound_eq.trans hbefore.outbound_eq) ?_ ?_
    · change s₂.link.sent = _
      rw [hf.link_eq]
      exact h.sent_eq
    · change s₂.link.sender.closed = false → _
      rw [hf.link_eq, h.sender_eq]
      exact id
  · have hsettled : Settled format handled s₁ := h.drains.settled.congr h.log_eq
    exact (hclosed.settled hsettled rfl).congr rfl
  · change s₂.inbound.nextFrame = _
    rw [hf.inbound_eq, h.next_eq]
    exact h.drains.next_eq
  · change s₂.link.received = _
    rw [hf.link_eq]
    exact h.received_eq

/-- A pump that went through has dealt with the block. -/
theorem Handed.placed (h : Handed c₁ c₂ format handled p s s₁) {frames : ℕ}
    (hle : frames ≤ p.block.frames)
    (hf : Filling c₂ format s₁ s₂ (p.block.firstFrame + p.block.frames)
      (accepted format.channels s₁.destinationLog ++
        number p.block.firstFrame (Slab.chunks format.channels frames p.samples))
      (refused format.channels s₁.destinationLog + (p.block.frames - frames))) :
    Tied c₁ c₂ format { s₂ with
      inbound := { s₂.inbound with nextFrame := p.block.firstFrame + p.block.frames } } := by
  have hsource := hf.downstream
  have hbefore := h.downstream
  refine ⟨hf.link_eq ▸ h.linked, ?_, handled ++ [p], hf.queued.accounted, hf.queued.counted, ?_, ?_,
    .inl ?_⟩
  · refine h.tied.feeds.congr (hsource.source_eq.trans hbefore.source_eq)
      (hsource.log_eq.trans hbefore.log_eq) (hsource.outbound_eq.trans hbefore.outbound_eq) ?_ ?_
    · change s₂.link.sent = _
      rw [hf.link_eq]
      exact h.sent_eq
    · change s₂.link.sender.closed = false → _
      rw [hf.link_eq, h.sender_eq]
      exact id
  · have hsettled : Settled format handled s₁ := h.drains.settled.congr h.log_eq
    exact (hsettled.handle hle hf).congr rfl
  · rw [ends_append]
    rfl
  · change s₂.link.received = _
    rw [hf.link_eq]
    exact h.received_eq

theorem Handed.deliver (h : Handed c₁ c₂ format handled p s s₁) (before after : List ConsumerOp) :
    Meets ((Inbound.skipTo p.block.firstFrame >>= fun _ =>
        Inbound.place p.block p.samples before after) s₁)
      (fun _ s' => Tied c₁ c₂ format s')
      (fun e s' => e = .audio .closed ∧ Tied c₁ c₂ format (Inbound.close s')) := by
  obtain ⟨hvalid, hle⟩ := h.block
  have hmax := hvalid.position
  have hnext : s₁.inbound.nextFrame = ends 0 handled := h.next_eq.trans h.drains.next_eq
  have hskip := skipTo_spec h.filling hnext hle (by omega)
  refine meets_bind (hskip.mono (fun _ _ hq => hq) ?_) ?_
  · rintro e s₂ ⟨he, hshut, hf⟩
    exact ⟨he, h.interrupted hf hshut⟩
  · rintro _ s₂ ⟨hf, hgap⟩
    have hplace := place_spec hf p.block rfl hvalid.samples_length h.tied.feeds.source.channels_pos hmax
      before after
    apply hplace.mono
    · rintro _ _ ⟨s₃, frames, hframes, hf₃, rfl⟩
      exact h.placed hframes hf₃
    · rintro e s₃ ⟨he, hshut, hf₃⟩
      refine ⟨he, ?_⟩
      have hsame : ends 0 handled = p.block.firstFrame := by
        apply Nat.le_antisymm hle
        by_contra hlt
        have hopen := hgap (Nat.lt_of_not_le hlt)
        rw [hshut] at hopen
        cases hopen
      rw [← hsame] at hf₃
      exact h.interrupted hf₃ hshut

theorem inbound_pumpInner_spec (h : Tied c₁ c₂ format s) (now : UInt64) (first second : ReadOutcome)
    (before after : List ConsumerOp) :
    Meets (Inbound.pumpInner now first second before after s)
      (fun _ s' => Tied c₁ c₂ format s')
      (fun e s' => Excused e ∧ Tied c₁ c₂ format (Inbound.close s')) := by
  obtain ⟨handled, hd⟩ := h.drains
  unfold Inbound.pumpInner
  rw [meets_get_bind]
  refine meets_bind ((meets_onLink (receive_spec h.linked s.inbound.samples now first second)).mono
    (fun _ _ hq => hq) ?_) ?_
  · rintro e _ ⟨l, hf, rfl⟩
    constructor
    · rcases hf.reason with he | ⟨_, hgap⟩
      · exact .inl he
      · exact absurd h.feeds.announced hgap
    · exact (h.receive hf.linked hf.sender_eq hf.sent_eq hf.received_eq fun _ => hf.shut).closeInbound
  · rintro ⟨block, samples⟩ _ ⟨l, hr, rfl⟩
    rw [meets_modify_bind]
    rcases hr.handed with ⟨hresult, hsame⟩ | ⟨p, hresult, hnew⟩
    · obtain ⟨rfl, rfl⟩ := Prod.mk.inj hresult
      exact h.receive hr.linked hr.sender_eq hr.sent_eq hsame
        fun hshut => absurd hr.was_open (by rw [hshut]; exact Bool.noConfusion)
    · obtain ⟨rfl, rfl⟩ := Prod.mk.inj hresult
      have hreceived : s.link.received = handled := by
        rcases hd.received with heq | ⟨_, hshut, _⟩
        · exact heq
        · rw [hr.was_open] at hshut
          cases hshut
      have hhanded : Handed c₁ c₂ format handled p s { s with
          link := l
          inbound := ⟨p.samples ++ s.inbound.samples.drop p.samples.length, s.inbound.nextFrame⟩ } :=
        ⟨h, hd, hr.linked, hr.sender_eq, hr.sent_eq, hreceived ▸ hnew, rfl, rfl, rfl, rfl,
          rfl, rfl⟩
      have hsamples : (p.samples ++ s.inbound.samples.drop p.samples.length).take
          (p.block.frames * s.link.receiver.channel.format.channels) = p.samples := by
        rw [h.linked.receiver_format, ← hhanded.block.1.samples_length]
        exact List.take_left
      dsimp only
      rw [hsamples]
      apply (hhanded.deliver before after).mono
      · intro _ _ hq
        exact hq
      · rintro e s' ⟨rfl, ht⟩
        exact ⟨.inr rfl, ht⟩

theorem inbound_pump_spec (h : Tied c₁ c₂ format s) (now : UInt64) (first second : ReadOutcome)
    (before after : List ConsumerOp) :
    Meets (Inbound.pump now first second before after s)
      (fun _ s' => Tied c₁ c₂ format s')
      (fun e s' => Excused e ∧ Tied c₁ c₂ format s') := by
  have hinner := inbound_pumpInner_spec h now first second before after
  unfold Inbound.pump
  rcases hp : Inbound.pumpInner now first second before after s with ⟨e | _, s₁⟩
  · rw [hp] at hinner
    exact hinner
  · rw [hp] at hinner
    exact hinner

end Chains

end PcmChainPositions
