import VirtualGamepad.ClientPcm
import VirtualGamepad.PcmIpcDelivery

/-! The client's microphone pump sends what it reads, in order and once, however the socket blocks in
the middle of a burst. -/
namespace ClientMicrophone

open Fallible ClientPcm PcmIpcFraming PcmChain PcmChainPositions PcmChainDelivery
open PcmIpc
open PcmQueue (PcmRead Queue Label)

section Bursts

variable {c i j i' j' : ℕ} {format : Format} {s s' s'' : Chain} {α : Type}

/-- The same chain with a closed sender, which has nothing more to send. -/
def shut (s : Chain) : Chain := { s with link := Sender.close s.link }

theorem feeds_shut (h : Feeds c format s) : Feeds c format (shut s) :=
  h.congr rfl rfl rfl rfl fun hopen => absurd hopen Bool.noConfusion

/-- At most `i` segments were read and at most `j` blocks were sent. -/
structure Bursts (c : ℕ) (format : Format) (i j : ℕ) (s s' : Chain) : Prop where
  linked : Linked format s'.link
  halted : Feeds c format (shut s')
  taken : (pieces format.channels s'.sourceLog).length ≤
    (pieces format.channels s.sourceLog).length + i
  sent : ∃ ps, s'.link.sent = s.link.sent ++ ps ∧ ps.length ≤ j

/-- A burst that goes on, with an open sender. -/
structure Running (c : ℕ) (format : Format) (i j : ℕ) (s s' : Chain) : Prop where
  bursts : Bursts c format i j s s'
  feeds : Feeds c format s'
  opened : s'.link.sender.closed = false

theorem Bursts.trans (h : Bursts c format i j s s') (k : Bursts c format i' j' s' s'') :
    Bursts c format (i + i') (j + j') s s'' := by
  obtain ⟨ps, hps, hlen⟩ := h.sent
  obtain ⟨ps', hps', hlen'⟩ := k.sent
  have htaken := h.taken
  have htaken' := k.taken
  refine ⟨k.linked, k.halted, by omega, ps ++ ps', ?_, ?_⟩
  · rw [hps', hps, List.append_assoc]
  · rw [List.length_append]
    omega

theorem Bursts.mono (h : Bursts c format i j s s') (hi : i ≤ i') (hj : j ≤ j') :
    Bursts c format i' j' s s' := by
  obtain ⟨ps, hps, hlen⟩ := h.sent
  have htaken := h.taken
  exact ⟨h.linked, h.halted, by omega, ps, hps, by omega⟩

theorem Running.trans (h : Running c format i j s s') (k : Running c format i' j' s' s'') :
    Running c format (i + i') (j + j') s s'' :=
  ⟨h.bursts.trans k.bursts, k.feeds, k.opened⟩

theorem Running.mono (h : Running c format i j s s') (hi : i ≤ i') (hj : j ≤ j') :
    Running c format i' j' s s' := ⟨h.bursts.mono hi hj, h.feeds, h.opened⟩

theorem Running.refl (hlinked : Linked format s.link) (hfeeds : Feeds c format s)
    (hopen : s.link.sender.closed = false) : Running c format 0 0 s s :=
  ⟨⟨hlinked, feeds_shut hfeeds, Nat.le_refl _, [], (List.append_nil _).symm, Nat.le_refl _⟩, hfeeds, hopen⟩

theorem meets_atPcm {m : Action PcmError Chain α} {Q : α → Chain → Prop} {E : Chain → Prop}
    (h : Meets (m s) Q (fun _ => E)) :
    Meets (atPcm m s) Q (fun e s' => e ≠ partialAcceptance ∧ E s') := by
  unfold atPcm
  rcases hm : m s with ⟨e | a, s'⟩
  · rw [hm] at h
    exact ⟨PumpError.noConfusion, h⟩
  · rw [hm] at h
    exact h

theorem Running.step (h : Running c format i j s s') {q : Queue} {label : Label}
    (st : PcmQueue.Step s'.source label q) (hp : piece format.channels label = []) :
    Running c format i j s { s' with source := q, sourceLog := s'.sourceLog ++ [label] } := by
  have hnext := h.feeds.step st hp
  refine ⟨⟨h.bursts.linked, feeds_shut hnext, ?_, h.bursts.sent⟩, hnext, h.opened⟩
  have htaken := h.bursts.taken
  rw [pieces_snoc, hp, List.append_nil]
  exact htaken

/-- The application's own calls read nothing. -/
theorem produce_running (h : Running c format i j s s') (op : ProducerOp) :
    Running c format i j s (produce op s') := by
  cases op with
  | push samples =>
    have st : PcmQueue.Step s'.source (.push samples (PcmQueue.push samples s'.source).1)
      (PcmQueue.push samples s'.source).2 := rfl
    exact h.step st rfl
  | discard frames =>
    have st : PcmQueue.Step s'.source (.discard frames (PcmQueue.discard frames s'.source).1)
      (PcmQueue.discard frames s'.source).2 := rfl
    exact h.step st rfl
  | flush =>
    have st : PcmQueue.Step s'.source (.flush (PcmQueue.flush s'.source).1)
      (PcmQueue.flush s'.source).2 := rfl
    exact h.step st rfl

theorem produceAll_running (ops : List ProducerOp) (h : Running c format i j s s') :
    Running c format i j s (produceAll ops s') := by
  induction ops generalizing s' with
  | nil => exact h
  | cons op ops ih => exact ih (produce_running h op)

theorem length_piece_le (c : ℕ) (label : Label) : (piece c label).length ≤ 1 := by
  cases label with
  | read dest result =>
    cases result with
    | error e => exact Nat.zero_le _
    | ok r =>
      obtain ⟨r, dest'⟩ := r
      unfold piece
      dsimp only
      split
      · exact Nat.zero_le _
      · exact Nat.le_refl _
  | push _ _ => exact Nat.zero_le _
  | discard _ _ => exact Nat.zero_le _
  | flush _ => exact Nat.zero_le _
  | consumerFlush _ => exact Nat.zero_le _
  | close => exact Nat.zero_le _

/-- Whatever the read answers, the log grows by the read alone. -/
theorem fetch_log (c : ℕ) (s : Chain) : ∃ label,
    (Outbound.fetch c s).2.sourceLog = s.sourceLog ++ [label] ∧
      (Outbound.fetch c s).2.link = s.link := by
  unfold Outbound.fetch
  rcases hr : PcmQueue.read (s.outbound.samples.take (blockFrames * c)) s.source with ⟨e | result, q⟩
  · have hrun := atSource_run (.read (s.outbound.samples.take (blockFrames * c))) hr
    refine ⟨.read (s.outbound.samples.take (blockFrames * c)) (.error e), ?_⟩
    change ((atSource _ _ >>= _) s).2.sourceLog = _ ∧ ((atSource _ _ >>= _) s).2.link = _
    rw [bind_run_error hrun]
    exact ⟨rfl, rfl⟩
  · have hrun := atSource_run (.read (s.outbound.samples.take (blockFrames * c))) hr
    refine ⟨.read (s.outbound.samples.take (blockFrames * c)) (.ok result), ?_⟩
    change ((atSource _ _ >>= _) s).2.sourceLog = _ ∧ ((atSource _ _ >>= _) s).2.link = _
    rw [bind_run_ok hrun]
    exact ⟨rfl, rfl⟩

theorem fetch_running (h : Running c format i j s s') (hidle : s'.outbound.pending = none) :
    Meets (Outbound.fetch format.channels s') (fun _ s'' => Running c format (i + 1) j s s'')
      (fun _ s'' => Bursts c format (i + 1) j s s'') := by
  have hspec := fetch_spec h.feeds h.bursts.linked hidle
  have hlogs := fetch_log format.channels s'
  have hbursts : ∀ {s''}, (∃ label, s''.sourceLog = s'.sourceLog ++ [label] ∧ s''.link = s'.link) →
      Pumping c format s' s'' → Bursts c format (i + 1) j s s'' := by
    rintro s'' ⟨label, hlog, hlink⟩ hp
    have hbefore := h.bursts.taken
    have hone := length_piece_le format.channels label
    refine ⟨hp.linked, feeds_shut hp.feeds, ?_, ?_⟩
    · rw [hlog, pieces_snoc, List.length_append]
      omega
    · rw [hlink]
      exact h.bursts.sent
  rcases hrun : Outbound.fetch format.channels s' with ⟨e | _, s''⟩
  · rw [hrun] at hspec hlogs
    exact hbursts hlogs hspec
  · rw [hrun] at hspec hlogs
    obtain ⟨hp, hlink⟩ := hspec
    refine ⟨hbursts hlogs hp, hp.feeds, ?_⟩
    rw [hlink]
    exact h.opened

/-- The next turns, with the pending segment sent, or the end of the burst where the socket is
busy. -/
theorem send_running (h : Running c format i j s s') {r : PcmRead}
    (hr : s'.outbound.pending = some r) (now : UInt64) (first second : WriteOutcome) :
    Meets (onLink (Sender.send (s'.outbound.samples.take (r.frames * format.channels)) r.firstFrame
        r.discontinuity now first second) s')
      (fun n s'' => (n = 0 ∧ Running c format i j s s'') ∨
        (n = r.frames ∧ n ≠ 0 ∧ Running c format i (j + 1) s
          { s'' with outbound := { s''.outbound with pending := none } }))
      (fun _ s'' => Bursts c format i (j + 1) s s'') := by
  obtain ⟨hframes, hwaiting⟩ := h.feeds.waiting_eq h.feeds.source.channels_pos hr now
  have hread := h.feeds.read_eq h.opened
  have hsend := send_spec h.bursts.linked (s'.outbound.samples.take (r.frames * format.channels))
    r.firstFrame r.discontinuity now first second
  generalize packetOf format (s'.outbound.samples.take (r.frames * format.channels)) r.firstFrame
    r.discontinuity now = p at hframes hwaiting hsend
  rw [hwaiting] at hread
  have hboth : (s'.link.sent ++ [p]).map unstamped <+: pieces format.channels s'.sourceLog := by
    rw [hread, List.map_append]
    exact List.prefix_rfl
  obtain ⟨ps, hps, hlen⟩ := h.bursts.sent
  have hfailed : ∀ {l qs}, Sends format s'.link l qs → qs.length ≤ 1 →
      (s'.link.sent ++ qs).map unstamped <+: pieces format.channels s'.sourceLog →
      Bursts c format i (j + 1) s { s' with link := l } := by
    intro l qs hs hone hinitial
    refine ⟨hs.linked, ⟨h.feeds.source, h.feeds.marked, ?_, ?_, h.feeds.pending⟩,
      h.bursts.taken.trans (Nat.le_refl _), ps ++ qs, ?_, ?_⟩
    · change l.sent.map unstamped <+: _
      rw [hs.sent_eq]
      exact hinitial
    · intro hopen
      cases hopen
    · change l.sent = _
      rw [hs.sent_eq, hps, List.append_assoc]
    · rw [List.length_append]
      omega
  refine (meets_onLink hsend).mono ?_ ?_
  · rintro n _ ⟨l, ⟨hopen, ⟨rfl, hs⟩ | ⟨rfl, hpos, hs⟩⟩, rfl⟩
    · have hsent : l.sent = s'.link.sent := by rw [hs.sent_eq, List.append_nil]
      have hfeeds : Feeds c format { s' with link := l } :=
        h.feeds.congr rfl rfl rfl hsent fun _ => h.opened
      refine .inl ⟨rfl, ⟨hs.linked, feeds_shut hfeeds, h.bursts.taken, ps, ?_, hlen⟩, hfeeds, hopen⟩
      exact hsent.trans hps
    · have hfeeds : Feeds c format { s' with
          link := l, outbound := { s'.outbound with pending := none } } := by
        refine ⟨h.feeds.source, h.feeds.marked, ?_, ?_, fun r' hr' => by cases hr'⟩
        · change l.sent.map unstamped <+: _
          rw [hs.sent_eq]
          exact hboth
        · intro _
          change _ = l.sent.map unstamped ++ []
          rw [hs.sent_eq, List.map_append, List.append_nil]
          exact hread
      refine .inr ⟨hframes, hpos, ⟨hs.linked, feeds_shut hfeeds, h.bursts.taken, ps ++ [p], ?_, ?_⟩,
        hfeeds, hopen⟩
      · change l.sent = _
        rw [hs.sent_eq, hps, List.append_assoc]
      · rw [List.length_append]
        exact Nat.succ_le_succ hlen
  · rintro e _ ⟨l, ⟨_, hs⟩ | ⟨_, hs⟩ | ⟨_, hs, _, _⟩, rfl⟩
    · apply hfailed hs (Nat.zero_le _)
      rw [List.append_nil]
      exact h.feeds.sent_initial
    · exact hfailed hs (Nat.le_refl _) hboth
    · exact hfailed hs (Nat.le_refl _) hboth

theorem offer_running (h : Running c format i j s s') (now : UInt64) (turn : Turn)
    {rest : Action PumpError Chain Unit} (hi : i ≤ i') (hj : j + 1 ≤ j')
    (hrest : ∀ s'', Running c format i (j + 1) s s'' → Meets (rest s'')
      (fun _ s'' => Running c format i' j' s s'')
      (fun e s'' => e ≠ partialAcceptance ∧ Bursts c format i' j' s s'')) :
    Meets (offer format.channels now turn rest s') (fun _ s'' => Running c format i' j' s s'')
      (fun e s'' => e ≠ partialAcceptance ∧ Bursts c format i' j' s s'') := by
  unfold offer
  rw [meets_get_bind]
  cases hr : s'.outbound.pending with
  | none => exact h.mono hi (Nat.le_of_succ_le hj)
  | some packet =>
    dsimp only
    refine meets_bind ((meets_atPcm (send_running h hr now turn.first turn.second)).mono
      (fun _ _ hq => hq) ?_) ?_
    · rintro e s₃ ⟨he, h₃⟩
      exact ⟨he, h₃.mono hi hj⟩
    · rintro accepted s₃ (⟨rfl, h₃⟩ | ⟨rfl, hpos, h₃⟩)
      · rw [if_pos rfl]
        exact h₃.mono hi (Nat.le_of_succ_le hj)
      · rw [if_neg hpos, if_neg (not_not.mpr rfl), meets_modify_bind]
        exact hrest _ h₃

/-- The catch-up: every turn may read one segment and send one block. -/
theorem burst_running (now : UInt64) (turns : ℕ → Turn) (n : ℕ) (h : Running c format i j s s') :
    Meets (burst format.channels now turns n s') (fun _ s'' => Running c format (i + n) (j + n) s s'')
      (fun e s'' => e ≠ partialAcceptance ∧ Bursts c format (i + n) (j + n) s s'') := by
  induction n generalizing i j s' with
  | zero => exact h
  | succ n ih =>
    unfold burst
    rw [meets_modify_bind, meets_get_bind]
    have h₁ := produceAll_running (turns n).produced h
    generalize produceAll (turns n).produced s' = s₁ at h₁ ⊢
    have hfetch : Meets ((if s₁.outbound.pending = none then atPcm (Outbound.fetch format.channels)
          else pure () : Action PumpError Chain Unit) s₁)
        (fun _ s₂ => Running c format (i + 1) j s s₂)
        (fun e s₂ => e ≠ partialAcceptance ∧ Bursts c format (i + 1) j s s₂) := by
      by_cases hidle : s₁.outbound.pending = none
      · rw [if_pos hidle]
        exact meets_atPcm (fetch_running h₁ hidle)
      · rw [if_neg hidle]
        exact h₁.mono (Nat.le_succ i) (Nat.le_refl j)
    have hrest : ∀ s₂, Running c format (i + 1) j s s₂ →
        Meets (offer format.channels now (turns n) (burst format.channels now turns n) s₂)
          (fun _ s'' => Running c format (i + (n + 1)) (j + (n + 1)) s s'')
          (fun e s'' => e ≠ partialAcceptance ∧
            Bursts c format (i + (n + 1)) (j + (n + 1)) s s'') := by
      intro s₂ h₂
      refine offer_running h₂ now (turns n) (by omega) (by omega) ?_
      intro s₃ h₃
      have hrest := ih h₃
      rw [Nat.add_assoc, Nat.add_comm 1 n, Nat.add_assoc, Nat.add_comm 1 n] at hrest
      exact hrest
    by_cases hidle : s₁.outbound.pending = none
    · simp only [if_pos hidle] at hfetch ⊢
      refine meets_bind (hfetch.mono (fun _ _ hq => hq) ?_) fun _ s₂ h₂ => hrest s₂ h₂
      rintro e s₂ ⟨he, h₂⟩
      exact ⟨he, h₂.mono (by omega) (by omega)⟩
    · simp only [if_neg hidle] at hfetch ⊢
      exact hrest s₁ hfetch

theorem pumpMicrophone_running (hlinked : Linked format s.link) (hfeeds : Feeds c format s)
    (hopen : s.link.sender.closed = false) (now : UInt64) (write : WriteOutcome) (turns : ℕ → Turn) :
    Meets (pumpMicrophone format.channels now write turns s)
      (fun _ s' => Running c format burstLimit burstLimit s s')
      (fun e s' => e ≠ partialAcceptance ∧ Bursts c format burstLimit burstLimit s s') := by
  have hself := Running.refl hlinked hfeeds hopen
  have hsends : ∀ {l}, Sends format s.link l [] → Bursts c format 0 0 s { s with link := l } := by
    intro l hs
    have hsent : l.sent = s.link.sent := by rw [hs.sent_eq, List.append_nil]
    refine ⟨hs.linked, ?_, Nat.le_refl _, [], hsent.trans (List.append_nil _).symm, Nat.le_refl _⟩
    exact hself.bursts.halted.congr rfl rfl rfl hsent fun hclosed => absurd hclosed Bool.noConfusion
  have hpump : Meets (onLink (Sender.pump now write) s) (fun _ s' => Running c format 0 0 s s')
      (fun _ s' => Bursts c format burstLimit burstLimit s s') := by
    refine (meets_onLink (pump_spec hlinked now write)).mono ?_ ?_
    · rintro _ _ ⟨l, ⟨hs, hwas, hopened, _⟩, rfl⟩
      have hsent : l.sent = s.link.sent := by rw [hs.sent_eq, List.append_nil]
      exact ⟨hsends hs, hfeeds.congr rfl rfl rfl hsent fun _ => hwas, hopened⟩
    · rintro e _ ⟨l, hs, rfl⟩
      exact (hsends hs.sends).mono (Nat.zero_le _) (Nat.zero_le _)
  unfold pumpMicrophone
  refine meets_bind (meets_atPcm hpump) ?_
  intro _ s₁ h₁
  have hburst := burst_running now turns burstLimit h₁
  rw [Nat.zero_add] at hburst
  exact hburst

end Bursts

section Runs

variable {c : ℕ} {format : Format} {m : Microphone}

/-- A pump that is over leaves a queue that nobody reads, and a socket that gets nothing new. -/
structure Serves (c : ℕ) (format : Format) (m : Microphone) : Prop where
  linked : Linked format m.chain.link
  halted : Feeds c format (shut m.chain)
  running : m.exited = false → Feeds c format m.chain ∧ m.chain.link.sender.closed = false

theorem serves_exit (hlinked : Linked format m.chain.link) (hhalted : Feeds c format (shut m.chain)) :
    Serves c format m.exit :=
  ⟨hlinked, hhalted.closeSource, fun hrunning => by cases hrunning⟩

/-- An operation on the source that keeps both halves. -/
theorem Serves.source (h : Serves c format m) {f : Chain → Chain}
    (hkeep : ∀ s, Feeds c format s → Feeds c format (f s)) (hshut : f (shut m.chain) = shut (f m.chain))
    (hlink : (f m.chain).link = m.chain.link) : Serves c format { m with chain := f m.chain } := by
  refine ⟨?_, ?_, ?_⟩
  · change Linked format (f m.chain).link
    rw [hlink]
    exact h.linked
  · rw [← hshut]
    exact hkeep _ h.halted
  · intro hrunning
    obtain ⟨hfeeds, hopen⟩ := h.running hrunning
    refine ⟨hkeep _ hfeeds, ?_⟩
    change (f m.chain).link.sender.closed = false
    rw [hlink]
    exact hopen

/-- The other end of the socket leaves the sender alone. -/
theorem Serves.remote (h : Serves c format m) {l : Link} (hlinked : Linked format l)
    (hsender : l.sender = m.chain.link.sender) (hsent : l.sent = m.chain.link.sent) :
    Serves c format { m with chain := { m.chain with link := l } } := by
  refine ⟨hlinked, ?_, ?_⟩
  · exact h.halted.congr rfl rfl rfl hsent fun hopen => absurd hopen Bool.noConfusion
  · intro hrunning
    obtain ⟨hfeeds, hopen⟩ := h.running hrunning
    refine ⟨hfeeds.congr rfl rfl rfl hsent fun _ => hopen, ?_⟩
    change l.sender.closed = false
    rw [hsender]
    exact hopen

theorem perform_serves (h : Serves c format m) (event : MicrophoneEvent) :
    Serves c format (Microphone.perform format.channels m event) := by
  cases event with
  | pump now write turns =>
    change Serves c format (if m.exited = true then m
      else Microphone.after (pumpMicrophone format.channels now write turns m.chain))
    by_cases hexited : m.exited = true
    · rw [if_pos hexited]
      exact h
    · rw [if_neg hexited]
      obtain ⟨hfeeds, hopen⟩ := h.running (Bool.eq_false_iff.mpr hexited)
      have hspec := pumpMicrophone_running h.linked hfeeds hopen now write turns
      rcases hrun : pumpMicrophone format.channels now write turns m.chain with ⟨e | _, s⟩
      · rw [hrun] at hspec
        exact serves_exit (m := ⟨s, true⟩) hspec.2.linked hspec.2.halted
      · rw [hrun] at hspec
        exact ⟨hspec.bursts.linked, hspec.bursts.halted, fun _ => ⟨hspec.feeds, hspec.opened⟩⟩
  | leave =>
    change Serves c format (if m.exited = true then m else m.exit)
    by_cases hexited : m.exited = true
    · rw [if_pos hexited]
      exact h
    · rw [if_neg hexited]
      exact serves_exit h.linked h.halted
  | produce op =>
    refine h.source (fun _ hfeeds => hfeeds.produce op) ?_ ?_
    · cases op <;> rfl
    · cases op <;> rfl
  | closeSource => exact h.source (fun _ hfeeds => hfeeds.closeSource) rfl rfl
  | receive dest now first second =>
    have hspec := receive_spec h.linked dest now first second
    change Serves c format ⟨{ m.chain with
      link := (Receiver.receive dest now first second m.chain.link).2 }, m.exited⟩
    rcases hrun : Receiver.receive dest now first second m.chain.link with ⟨e | result, l⟩
    · rw [hrun] at hspec
      exact h.remote hspec.linked hspec.sender_eq hspec.sent_eq
    · rw [hrun] at hspec
      exact h.remote hspec.linked hspec.sender_eq hspec.sent_eq
  | closeReceiver => exact h.remote (PcmIpcDelivery.closeReceiver_linked h.linked) rfl rfl

theorem run_serves (h : Serves c format m) (events : List MicrophoneEvent) :
    Serves c format (Microphone.run format.channels m events) := by
  induction events generalizing m with
  | nil => exact h
  | cons event events ih => exact ih (perform_serves h event)

end Runs

section Blocks

variable {c₁ : ℕ} {format : Format} {s : Chain} {m : Microphone}

/-- The blocks of a pump in the order in which it reads them, with the one that waits. -/
def blocks (c : ℕ) (s : Chain) : List Packet :=
  s.link.sent.map unstamped ++ waiting c s.outbound

/-- Neither pump has sent a block that the other one has not, or has yet to send. -/
structure SameBlocks (c : ℕ) (m : Microphone) (s : Chain) : Prop where
  in_step : m.chain.link.sent.map unstamped <+: s.link.sent.map unstamped ∨
    s.link.sent.map unstamped <+: m.chain.link.sent.map unstamped
  blocks_eq : m.exited = false → s.link.sender.closed = false → blocks c m.chain = blocks c s

/-- What one call of the pump may do. -/
structure Bounded (c : ℕ) (s : Chain) (outcome : Except PumpError Unit × Chain) : Prop where
  whole : outcome.1 ≠ .error partialAcceptance
  taken : (pieces c outcome.2.sourceLog).length ≤ (pieces c s.sourceLog).length + burstLimit
  sent : ∃ ps, outcome.2.link.sent = s.link.sent ++ ps ∧ ps.length ≤ burstLimit

theorem sameBlocks (h : Serves c₁ format m) (k : Feeds c₁ format s)
    (hlog : s.sourceLog = m.chain.sourceLog) : SameBlocks format.channels m s := by
  have hinitial := k.sent_initial
  rw [hlog] at hinitial
  constructor
  · exact List.prefix_or_prefix_of_prefix h.halted.sent_initial hinitial
  · intro hrunning hopen
    obtain ⟨hfeeds, hopened⟩ := h.running hrunning
    have hread := k.read_eq hopen
    rw [hlog] at hread
    exact (hfeeds.read_eq hopened).symm.trans hread

theorem bounded (h : Serves c₁ format m) (hrunning : m.exited = false) (now : UInt64)
    (write : WriteOutcome) (turns : ℕ → Turn) :
    Bounded format.channels m.chain (pumpMicrophone format.channels now write turns m.chain) := by
  obtain ⟨hfeeds, hopen⟩ := h.running hrunning
  have hspec := pumpMicrophone_running h.linked hfeeds hopen now write turns
  rcases hrun : pumpMicrophone format.channels now write turns m.chain with ⟨e | _, s⟩
  · rw [hrun] at hspec
    exact ⟨fun herror => hspec.1 (Except.error.inj herror), hspec.2.taken, hspec.2.sent⟩
  · rw [hrun] at hspec
    refine ⟨?_, hspec.bursts.taken, hspec.bursts.sent⟩
    intro herror
    cases herror

end Blocks

end ClientMicrophone
