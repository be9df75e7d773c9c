import VirtualGamepad.ClientPcm
import VirtualGamepad.Coupling
import VirtualGamepad.PcmIpcDelivery

/-! The playback branch of the client's pump does to its queue what the worker's pump does. -/
namespace ClientPlayback

open Fallible MachineInt Coupling ClientPcm PcmChain
open PcmIpc
open PcmQueue (Queue Label AudioError)

section Logs

/-- Whether an operation is the count of no frames at all. -/
def isIdle : Label → Bool
  | .discard 0 (.ok ()) => true
  | _ => false

def effective (log : List Label) : List Label := log.filter fun label => !isIdle label

/-- Each push with the position of its first frame. -/
def pushes : ℕ → List Label → List (ℕ × Label)
  | _, [] => []
  | position, label :: log =>
    match label with
    | .push _ (.ok frames) => (position, label) :: pushes (position + frames) log
    | .push _ (.error _) => (position, label) :: pushes position log
    | .discard frames (.ok ()) => pushes (position + frames) log
    | _ => pushes position log

/-- A count of no frames moves no position. -/
theorem pushes_effective (position : ℕ) (log : List Label) :
    pushes position (effective log) = pushes position log := by
  induction log generalizing position with
  | nil => rfl
  | cons label log ih =>
    unfold effective at ih ⊢
    by_cases hidle : isIdle label = true
    · have hskip : pushes position (label :: log) = pushes position log := by
        unfold isIdle at hidle
        split at hidle
        · rfl
        · cases hidle
      rw [List.filter_cons_of_neg (by simp [hidle]), ih, hskip]
    · rw [List.filter_cons_of_pos (by simp [hidle])]
      unfold pushes
      split
      · exact congrArg _ (ih _)
      · exact congrArg _ (ih _)
      · exact ih _
      · exact ih _

end Logs

section Queues

variable {q q' q'' : Queue}

/-- The consumer moves its own end alone. -/
def Quiet (q q' : Queue) : Prop := ∃ tail expected, q' = { q with tail, expectedFrame := expected }

theorem Quiet.refl (q : Queue) : Quiet q q := ⟨q.tail, q.expectedFrame, rfl⟩

theorem Quiet.trans (h : Quiet q q') (k : Quiet q' q'') : Quiet q q'' := by
  obtain ⟨tail, expected, rfl⟩ := h
  obtain ⟨tail', expected', rfl⟩ := k
  exact ⟨tail', expected', rfl⟩

theorem skipFlushed_quiet (n : ℕ) (q : Queue) : Quiet q (Queue.skipFlushed n q) := by
  induction n generalizing q with
  | zero => exact .refl q
  | succ n ih =>
    unfold Queue.skipFlushed
    split
    · have hstep : Quiet q { q with tail := RingBuffer.next q.slots q.tail } := ⟨_, _, rfl⟩
      exact hstep.trans (ih _)
    · exact .refl q

theorem copy_quiet (n : ℕ) (result : PcmQueue.PcmRead) (dest : List Int16) (q : Queue) :
    Quiet q (Queue.copy n result dest q).2.2 := by
  induction n generalizing result dest q with
  | zero => exact .refl q
  | succ n ih =>
    have hstep : Quiet q { q with
        expectedFrame := q.position q.tail + 1
        tail := RingBuffer.next q.slots q.tail } := ⟨_, _, rfl⟩
    unfold Queue.copy
    split
    · exact .refl q
    · dsimp only
      split
      · exact hstep.trans (ih _ _ _)
      · split
        · exact .refl q
        · exact hstep.trans (ih _ _ _)

theorem read_quiet (dest : List Int16) (q : Queue) : Quiet q (PcmQueue.read dest q).2 := by
  unfold PcmQueue.read
  split
  · exact .refl q
  · exact (skipFlushed_quiet _ q).trans (copy_quiet _ _ _ _)

theorem consumerFlush_quiet (q : Queue) : Quiet q (PcmQueue.consumerFlush q).2 := by
  unfold PcmQueue.consumerFlush
  split
  · exact .refl q
  · exact ⟨q.head, q.expectedFrame, rfl⟩

theorem push_discarded (samples : List Int16) (q : Queue) :
    (PcmQueue.push samples q).2.discarded = q.discarded := by
  unfold PcmQueue.push
  split
  · rfl
  · dsimp only
    split
    · rfl
    · exact (PcmQueueLosses.storeAll_kept _ _ _).2

theorem discard_lt (frames : ℕ) (h : q.discarded < 2 ^ 64) :
    (PcmQueue.discard frames q).2.discarded < 2 ^ 64 := by
  unfold PcmQueue.discard
  split
  · exact h
  · split
    · exact h
    · exact Nat.mod_lt _ (by decide)

/-- A push that went through left the queue open and its clock in range. -/
theorem push_ok {samples : List Int16} {frames : ℕ} (h : PcmQueue.push samples q = (.ok frames, q')) :
    q'.closed = false ∧ q'.nextFrame ≤ u64Max := by
  unfold PcmQueue.push Queue.validate at h
  by_cases hclosed : q.closed = true
  · rw [if_pos hclosed] at h
    cases (Prod.mk.inj h).1
  · rw [if_neg hclosed] at h
    split at h
    · cases (Prod.mk.inj h).1
    · dsimp only at h
      split at h
      · cases (Prod.mk.inj h).1
      · next next hadd =>
        obtain ⟨-, rfl⟩ := Prod.mk.inj h
        obtain ⟨rfl, hmax⟩ := checkedAdd_eq_some.mp hadd
        refine ⟨?_, hmax⟩
        exact (PcmQueueLosses.storeAll_kept _ _ _).1.trans (Bool.eq_false_iff.mpr hclosed)

/-- In such a queue the count of no frames changes nothing. -/
theorem discard_zero (hopen : q.closed = false) (hmax : q.nextFrame ≤ u64Max)
    (hcounter : q.discarded < 2 ^ 64) : PcmQueue.discard 0 q = (.ok (), q) := by
  have hroom : q.nextFrame + 0 ≤ u64Max := hmax
  rcases PcmQueueLosses.discard_result hroom with ⟨hclosed, _⟩ | ⟨_, hrun⟩
  · rw [hopen] at hclosed
    cases hclosed
  · rw [hrun, Nat.add_zero, Nat.add_zero, Nat.mod_eq_of_lt hcounter]

end Queues

section Formats

variable {l l' : Link} {α : Type}

/-- The receiver reads the format that it was made for. -/
def SameFormat (l l' : Link) : Prop := l'.receiver.channel.format = l.receiver.channel.format

theorem onReceiver_format {m : Action PcmError Channel α}
    (h : ∀ c, (m c).2.format = c.format) (l : Link) : SameFormat l (onReceiver m l).2 :=
  h l.receiver.channel

theorem check_format (now : UInt64) (c : Channel) : (Channel.check now c).2.format = c.format := by
  unfold Channel.check
  split
  · rfl
  · split
    · rfl
    · rfl

theorem begin_format (now : UInt64) (c : Channel) : (Channel.begin now c).2.format = c.format := by
  unfold Channel.begin
  split
  · rfl
  · rfl

theorem fill_format (now : UInt64) (read : ReadOutcome) (l : Link) :
    Meets (Receiver.fill now read l) (fun _ l' => SameFormat l l') (fun _ l' => SameFormat l l') := by
  unfold Receiver.fill
  rw [meets_get_bind]
  by_cases hfull : l.receiver.channel.length ≤ l.receiver.channel.offset
  · rw [if_pos hfull]
    exact rfl
  · rw [if_neg hfull]
    cases read with
    | eof => exact rfl
    | failed => exact rfl
    | blocked => exact rfl
    | data n =>
      dsimp only
      generalize l.wire.take (min n (l.receiver.channel.length - l.receiver.channel.offset)) = chunk
      by_cases hempty : chunk = []
      · rw [if_pos hempty]
        exact rfl
      · rw [if_neg hempty, meets_modify_bind]
        have hbegin : ∀ l₁ : Link, SameFormat l l₁ →
            Meets (onReceiver (Channel.begin now) l₁) (fun _ => SameFormat l)
              (fun _ => SameFormat l) := fun l₁ h₁ =>
          meets_state.mpr ((onReceiver_format (begin_format now) l₁).trans h₁)
        by_cases hdue : l.receiver.channel.deadline = none
        · rw [if_pos hdue]
          refine meets_bind (hbegin _ rfl) ?_
          intro _ l₂ h₂
          exact h₂
        · rw [if_neg hdue]
          exact rfl

theorem turns_format (now : UInt64) (dest : List Int16) (reads : List ReadOutcome) (l : Link) :
    Meets (Receiver.turns now dest reads l) (fun _ l' => SameFormat l l')
      (fun _ l' => SameFormat l l') := by
  induction reads generalizing l with
  | nil => exact rfl
  | cons read reads ih =>
    unfold Receiver.turns
    refine meets_bind (fill_format now read l) ?_
    intro full l₁ h₁
    cases full with
    | false => exact h₁
    | true =>
      rw [if_pos rfl, meets_get_bind]
      cases hdecode : decode l₁.receiver.channel.format
          (l₁.receiver.channel.bytes.take headerBytes) with
      | error e => exact h₁
      | ok block =>
        rw [meets_lift_ok_bind, meets_modify_bind]
        have hnext (l₂ : Link) (h₂ : SameFormat l l₂) :
            Meets (Receiver.turns now dest reads l₂) (fun _ l' => SameFormat l l')
              (fun _ l' => SameFormat l l') :=
          (ih l₂).mono (fun _ _ h => h.trans h₂) (fun _ _ h => h.trans h₂)
        dsimp only
        split
        · exact hnext _ h₁
        · split
          · exact h₁
          · exact h₁

theorem receive_format (dest : List Int16) (now : UInt64) (first second : ReadOutcome) (l : Link) :
    SameFormat l (Receiver.receive dest now first second l).2 := by
  have hinner : Meets (Receiver.receiveInner dest now first second l) (fun _ l' => SameFormat l l')
      (fun _ l' => SameFormat l l') := by
    unfold Receiver.receiveInner
    refine meets_bind (meets_state.mpr (onReceiver_format (check_format now) l)) ?_
    intro _ l₁ h₁
    rw [meets_get_bind]
    have hturns (l₂ : Link) (h₂ : SameFormat l l₂) :
        Meets (Receiver.turns now dest [first, second] l₂) (fun _ l' => SameFormat l l')
          (fun _ l' => SameFormat l l') :=
      (turns_format now dest _ l₂).mono (fun _ _ h => h.trans h₂) (fun _ _ h => h.trans h₂)
    dsimp only
    split
    · exact h₁
    · split
      · exact hturns _ h₁
      · exact hturns _ h₁
  unfold Receiver.receive
  rcases hrun : Receiver.receiveInner dest now first second l with ⟨e | result, l₁⟩
  · rw [hrun] at hinner
    exact hinner
  · rw [hrun] at hinner
    exact hinner

end Formats
section Chains

variable {channels : ℕ} {s t : Chain} {α : Type}

/-- Two chains that differ at most in idle counts, with a counter and a format in range. -/
structure Alike (channels : ℕ) (s t : Chain) : Prop where
  same : ∃ log, t = { s with destinationLog := log } ∧
    effective log = effective s.destinationLog
  channels_eq : s.link.receiver.channel.format.channels = channels
  counter : s.destination.discarded < 2 ^ 64

/-- Nothing but the destination and its log tells the two sides apart. -/
def Ended (s t : Chain) : Prop :=
  s.destination = t.destination ∧ effective s.destinationLog = effective t.destinationLog

theorem Alike.ended (h : Alike channels s t) : Ended s t := by
  obtain ⟨⟨log, rfl, hlog⟩, -, -⟩ := h
  exact ⟨rfl, hlog.symm⟩

theorem effective_snoc (log : List Label) (label : Label) :
    effective (log ++ [label]) = effective log ++ effective [label] := List.filter_append _ _

/-- What neither looks at the destination nor changes the receiver's format. -/
theorem Alike.update (h : Alike channels s t) {f : Chain → Chain}
    (hf : ∀ log, f { s with destinationLog := log } = { f s with destinationLog := log })
    (hdestination : (f s).destination = s.destination)
    (hlog : (f s).destinationLog = s.destinationLog)
    (hformat : (f s).link.receiver.channel.format = s.link.receiver.channel.format) :
    Alike channels (f s) (f t) := by
  obtain ⟨⟨log, rfl, heq⟩, hchannels, hcounter⟩ := h
  refine ⟨⟨log, hf log, ?_⟩, ?_, ?_⟩
  · rw [hlog]
    exact heq
  · rw [hformat]
    exact hchannels
  · rw [hdestination]
    exact hcounter

theorem coupled_onLink (h : Alike channels s t) {m : Action PcmError Link α}
    (hformat : (m s.link).2.receiver.channel.format = s.link.receiver.channel.format) :
    Coupled (Alike channels) (Alike channels) (onLink m s) (onLink m t) := by
  have hstate : Alike channels { s with link := (m s.link).2 } { t with link := (m s.link).2 } :=
    h.update (f := fun s' => { s' with link := (m s.link).2 }) (fun _ => rfl) rfl rfl hformat
  obtain ⟨⟨log, rfl, heq⟩, -, -⟩ := h
  exact coupled_of_eq hstate

theorem coupled_atSource (h : Alike channels s t) (op : Action AudioError Queue α)
    (label : Except AudioError α → Label) :
    Coupled (Alike channels) (Alike channels) (atSource op label s) (atSource op label t) := by
  obtain ⟨⟨log, rfl, heq⟩, hchannels, hcounter⟩ := h
  exact coupled_of_eq ⟨⟨log, rfl, heq⟩, hchannels, hcounter⟩

theorem coupled_atDestination (h : Alike channels s t) {op : Action AudioError Queue α}
    (label : Except AudioError α → Label)
    (hcounter : (op s.destination).2.discarded < 2 ^ 64) :
    Coupled (Alike channels) (Alike channels) (atDestination op label s)
      (atDestination op label t) := by
  obtain ⟨⟨log, rfl, heq⟩, hchannels, -⟩ := h
  refine coupled_of_eq ⟨⟨log ++ [label (op s.destination).1], rfl, ?_⟩, hchannels, hcounter⟩
  exact (effective_snoc _ _).trans (congrArg (· ++ _) heq |>.trans (effective_snoc _ _).symm)

theorem alike_consume (h : Alike channels s t) (op : ConsumerOp) :
    Alike channels (consume op s) (consume op t) := by
  cases op with
  | read dest =>
    obtain ⟨tail, expected, hread⟩ := read_quiet dest s.destination
    refine (coupled_atDestination h _ ?_).state
    rw [hread]
    exact h.counter
  | flush =>
    obtain ⟨tail, expected, hflush⟩ := consumerFlush_quiet s.destination
    refine (coupled_atDestination h _ ?_).state
    rw [hflush]
    exact h.counter

theorem alike_consumeAll (h : Alike channels s t) (ops : List ConsumerOp) :
    Alike channels (consumeAll ops s) (consumeAll ops t) := by
  induction ops generalizing s t with
  | nil => exact h
  | cons op ops ih => exact ih (alike_consume h op)

theorem consumeAll_quiet (ops : List ConsumerOp) (s : Chain) :
    Quiet s.destination (consumeAll ops s).destination := by
  induction ops generalizing s with
  | nil => exact .refl _
  | cons op ops ih =>
    have hstep : Quiet s.destination (consume op s).destination := by
      cases op with
      | read dest => exact read_quiet dest s.destination
      | flush => exact consumerFlush_quiet s.destination
    exact hstep.trans (ih (consume op s))

theorem coupled_skipTo (h : Alike channels s t) (firstFrame : ℕ) :
    Coupled (Alike channels) (Alike channels) (Inbound.skipTo firstFrame s)
      (Inbound.skipTo firstFrame t) := by
  have hcoupled (gap : ℕ) :=
    coupled_atDestination h (Label.discard gap) (discard_lt gap h.counter)
  have hinbound : t.inbound = s.inbound := by
    obtain ⟨⟨log, rfl, -⟩, -, -⟩ := h
    rfl
  unfold Inbound.skipTo
  change Coupled _ _ ((if s.inbound.nextFrame < firstFrame then _ else _ : Action _ _ _) s)
    ((if t.inbound.nextFrame < firstFrame then _ else _ : Action _ _ _) t)
  rw [hinbound]
  by_cases hgap : s.inbound.nextFrame < firstFrame
  · rw [if_pos hgap]
    exact hcoupled _
  · rw [if_neg hgap]
    exact ⟨rfl, h⟩

theorem coupled_finish (h : Alike channels s t) (nextFrame : ℕ) :
    Alike channels { s with inbound := { s.inbound with nextFrame } }
      { t with inbound := { t.inbound with nextFrame } } :=
  h.update (f := fun s => { s with inbound := { s.inbound with nextFrame } }) (fun _ => rfl) rfl rfl
    rfl

/-- Where everything fits, one side counts nothing and the other side does not count. -/
theorem coupled_idle (h : Alike channels s t) (hopen : s.destination.closed = false)
    (hmax : s.destination.nextFrame ≤ u64Max) :
    Coupled (Alike channels) (Alike channels) ((pure () : Action PcmError Chain Unit) s)
      (atDestination (PcmQueue.discard 0) (Label.discard 0) t) := by
  obtain ⟨⟨log, rfl, heq⟩, hchannels, hcounter⟩ := h
  have hzero := discard_zero hopen hmax hcounter
  unfold atDestination
  change Coupled _ _ (_, s) (match PcmQueue.discard 0 s.destination with
    | (result, q) => (ioResult result, { s with
        destination := q
        destinationLog := log ++ [Label.discard 0 result] }))
  rw [hzero]
  refine ⟨rfl, ⟨log ++ [Label.discard 0 (.ok ())], rfl, ?_⟩, hchannels, hcounter⟩
  rw [effective_snoc, heq]
  exact List.append_nil _

/-- The end of a block: the client leaves out the count of no frames. -/
theorem coupled_refuse (h : Alike channels s t) (hopen : s.destination.closed = false)
    (hmax : s.destination.nextFrame ≤ u64Max) (frames accepted : ℕ) :
    Coupled (Alike channels) (Alike channels)
      ((if accepted < frames then
          atDestination (PcmQueue.discard (frames - accepted)) (Label.discard (frames - accepted))
        else pure () : Action PcmError Chain Unit) s)
      (atDestination (PcmQueue.discard (frames - accepted)) (Label.discard (frames - accepted)) t) := by
  by_cases hrefused : accepted < frames
  · rw [if_pos hrefused]
    exact coupled_atDestination h (Label.discard _) (discard_lt _ h.counter)
  · rw [if_neg hrefused]
    have hnone : frames - accepted = 0 := by omega
    rw [hnone]
    exact coupled_idle h hopen hmax

/-- After the push, while the queue is open and its clock in range. -/
def Pushed (channels : ℕ) (s t : Chain) : Prop :=
  Alike channels s t ∧ s.destination.closed = false ∧ s.destination.nextFrame ≤ u64Max

theorem coupled_push (h : Alike channels s t) (samples : List Int16) :
    Coupled (Pushed channels) (Alike channels)
      (atDestination (PcmQueue.push samples) (.push samples) s)
      (atDestination (PcmQueue.push samples) (.push samples) t) := by
  have hcounter : (PcmQueue.push samples s.destination).2.discarded < 2 ^ 64 := by
    rw [push_discarded]
    exact h.counter
  have hcoupled := coupled_atDestination h (Label.push samples) hcounter
  have hdestination : t.destination = s.destination := by
    obtain ⟨⟨log, rfl, -⟩, -, -⟩ := h
    rfl
  unfold atDestination at hcoupled ⊢
  rw [hdestination] at hcoupled ⊢
  rcases hrun : PcmQueue.push samples s.destination with ⟨e | frames, q⟩
  · simp only [hrun] at hcoupled ⊢
    exact hcoupled
  · simp only [hrun] at hcoupled ⊢
    exact ⟨rfl, hcoupled.2, push_ok hrun⟩

theorem Pushed.consumeAll (h : Pushed channels s t) (ops : List ConsumerOp) :
    Pushed channels (consumeAll ops s) (consumeAll ops t) := by
  obtain ⟨halike, hopen, hmax⟩ := h
  obtain ⟨tail, expected, hquiet⟩ := consumeAll_quiet ops s
  refine ⟨alike_consumeAll halike ops, ?_, ?_⟩
  · rw [hquiet]
    exact hopen
  · rw [hquiet]
    exact hmax

theorem coupled_accept (h : Alike channels s t) (block : Block) (samples : List Int16)
    (before after : List ConsumerOp) :
    Coupled (Alike channels) (Alike channels) (accept block samples before after s)
      ((Inbound.skipTo block.firstFrame >>= fun _ =>
        Inbound.place block samples before after) t) := by
  unfold accept Inbound.place
  refine coupled_bind (coupled_skipTo h block.firstFrame) ?_
  intro _ s₁ t₁ h₁
  have hbefore := alike_consumeAll h₁ before
  refine coupled_bind (coupled_modify hbefore) ?_
  intro _ s₂ t₂ h₂
  refine coupled_bind (coupled_push h₂ samples) ?_
  intro accepted s₃ t₃ h₃
  have hafter := h₃.consumeAll after
  refine coupled_bind (coupled_modify hafter) ?_
  rintro _ s₄ t₄ ⟨h₄, hopen, hmax⟩
  have hrefuse := coupled_refuse h₄ hopen hmax block.frames accepted
  have hfinish : ∀ (u : Unit) s t, Alike channels s t →
      Coupled (Alike channels) (Alike channels)
        ((modify fun s => { s with
          inbound := { s.inbound with nextFrame := block.firstFrame + block.frames } } :
          Action PcmError Chain Unit) s)
        ((modify fun s => { s with
          inbound := { s.inbound with nextFrame := block.firstFrame + block.frames } } :
          Action PcmError Chain Unit) t) :=
    fun _ _ _ h₅ => ⟨rfl, coupled_finish h₅ _⟩
  have hboth := coupled_bind hrefuse hfinish
  by_cases hrefused : accepted < block.frames
  · simp only [if_pos hrefused] at hboth ⊢
    exact hboth
  · simp only [if_neg hrefused] at hboth ⊢
    exact hboth

end Chains

section Turns

variable {channels : ℕ} {s t : Chain}

theorem coupled_playback (h : Alike channels s t) (now : UInt64) (first second : ReadOutcome)
    (before after : List ConsumerOp) :
    Coupled (Alike channels) (Alike channels) (playback channels now first second before after s)
      (Inbound.pumpInner now first second before after t) := by
  have hinbound : t.inbound = s.inbound ∧ t.link = s.link := by
    obtain ⟨⟨log, rfl, -⟩, -, -⟩ := h
    exact ⟨rfl, rfl⟩
  unfold playback Inbound.pumpInner
  change Coupled _ _ ((onLink (Receiver.receive s.inbound.samples now first second) >>= _) s)
    ((onLink (Receiver.receive t.inbound.samples now first second) >>= _) t)
  rw [hinbound.1, hinbound.2, h.channels_eq]
  refine coupled_bind (coupled_onLink h (receive_format _ now first second _)) ?_
  rintro ⟨block, samples⟩ s₁ t₁ h₁
  have hkept : Alike channels { s₁ with inbound := { s₁.inbound with samples } }
      { t₁ with inbound := { t₁.inbound with samples } } :=
    h₁.update (f := fun s => { s with inbound := { s.inbound with samples } }) (fun _ => rfl) rfl
      rfl rfl
  refine coupled_bind (coupled_modify hkept) ?_
  intro _ s₂ t₂ h₂
  cases block with
  | none => exact ⟨rfl, h₂⟩
  | some block => exact coupled_accept h₂ block _ before after

theorem Alike.closeDestination (h : Alike channels s t) :
    Alike channels (closeDestination s) (closeDestination t) := by
  obtain ⟨⟨log, rfl, heq⟩, hchannels, hcounter⟩ := h
  refine ⟨⟨log ++ [.close], rfl, ?_⟩, hchannels, hcounter⟩
  exact (effective_snoc _ _).trans ((congrArg (· ++ _) heq).trans (effective_snoc _ _).symm)

theorem coupled_turn (h : Alike channels s t) (now : UInt64) (first second : ReadOutcome)
    (before after : List ConsumerOp) :
    Coupled (Alike channels) Ended (playbackTurn channels now first second before after s)
      (Inbound.pump now first second before after t) := by
  have hinner := coupled_playback h now first second before after
  unfold playbackTurn Inbound.pump
  rcases hs : playback channels now first second before after s with ⟨e | _, s₁⟩
  · rcases ht : Inbound.pumpInner now first second before after t with ⟨e' | _, t₁⟩
    · rw [hs, ht] at hinner
      exact ⟨hinner.1, hinner.2.closeDestination.ended⟩
    · rw [hs, ht] at hinner
      exact hinner.elim
  · rcases ht : Inbound.pumpInner now first second before after t with ⟨e' | _, t₁⟩
    · rw [hs, ht] at hinner
      exact hinner.elim
    · rw [hs, ht] at hinner
      exact hinner

theorem coupled_event (h : Alike channels s t) (event : PlaybackEvent) :
    Coupled (Alike channels) Ended (playEvent (playbackTurn channels) event s)
      (playEvent Inbound.pump event t) := by
  cases event with
  | turn now first second before after => exact coupled_turn h now first second before after
  | consume op => exact coupled_modify (alike_consume h op)
  | closeDestination => exact coupled_modify h.closeDestination
  | feed bytes =>
    have hfed : Alike channels { s with link := PcmIpcParsing.feed bytes s.link }
        { t with link := PcmIpcParsing.feed bytes t.link } :=
      h.update (f := fun s => { s with link := PcmIpcParsing.feed bytes s.link }) (fun _ => rfl) rfl
        rfl rfl
    exact ⟨rfl, hfed⟩

theorem coupled_events (h : Alike channels s t) (events : List PlaybackEvent) :
    Coupled Ended Ended (playEvents (playbackTurn channels) events s)
      (playEvents Inbound.pump events t) := by
  induction events generalizing s t with
  | nil => exact ⟨rfl, h.ended⟩
  | cons event events ih =>
    refine coupled_bind (coupled_event h event) ?_
    intro _ s₁ t₁ h₁
    exact ih h₁

/-- What the two pumps did to their queues. -/
structure SamePlayback (client worker : Except PcmError Unit × Chain) : Prop where
  result_eq : client.1 = worker.1
  pushes_eq : pushes 0 client.2.destinationLog = pushes 0 worker.2.destinationLog
  discarded_eq : client.2.destination.discarded = worker.2.destination.discarded
  destination_eq : client.2.destination = worker.2.destination

theorem samePlayback (hchannels : s.link.receiver.channel.format.channels = channels)
    (hcounter : s.destination.discarded < 2 ^ 64) (events : List PlaybackEvent) :
    SamePlayback (playEvents (playbackTurn channels) events s)
      (playEvents Inbound.pump events s) := by
  have hself : Alike channels s s := ⟨⟨s.destinationLog, rfl, rfl⟩, hchannels, hcounter⟩
  have hcoupled := coupled_events hself events
  obtain ⟨hqueue, hlog⟩ := hcoupled.state
  refine ⟨hcoupled.result_eq, ?_, congrArg Queue.discarded hqueue, hqueue⟩
  rw [← pushes_effective, hlog, pushes_effective]

end Turns

end ClientPlayback
