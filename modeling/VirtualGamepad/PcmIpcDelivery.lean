import VirtualGamepad.PcmIpcParsing
import VirtualGamepad.Runs

/-! Whole runs of both ends of a socket, and of the receiving end alone. -/
namespace PcmIpcDelivery

open Fallible Runs PcmIpc PcmIpcFraming PcmIpcParsing

/-- A call with its result. -/
inductive Call where
  | send (samples : List Int16) (firstFrame : ℕ) (discontinuity : Bool) (now : UInt64)
      (result : Except PcmError ℕ)
  | pump (result : Except PcmError Unit)
  | receive (dest : List Int16) (result : Except PcmError (Option Block × List Int16))
  | closeSender
  | closeReceiver
  | feed (bytes : List UInt8)

/-- The two ends of one socket. -/
inductive Step : Link → Call → Link → Prop where
  | send {l l' samples firstFrame discontinuity now first second result} :
      Sender.send samples firstFrame discontinuity now first second l = (result, l') →
      Step l (.send samples firstFrame discontinuity now result) l'
  | pump {l l' now write result} : Sender.pump now write l = (result, l') → Step l (.pump result) l'
  | receive {l l' dest now first second result} :
      Receiver.receive dest now first second l = (result, l') → Step l (.receive dest result) l'
  | closeSender {l} : Step l .closeSender (Sender.close l)
  | closeReceiver {l} : Step l .closeReceiver (Receiver.close l)

/-- The receiving end, with anyone at the other. -/
inductive Foreign : Link → Call → Link → Prop where
  | feed {l bytes} : Foreign l (.feed bytes) (feed bytes l)
  | receive {l l' dest now first second result} :
      Receiver.receive dest now first second l = (result, l') → Foreign l (.receive dest result) l'
  | closeReceiver {l} : Foreign l .closeReceiver (Receiver.close l)

/-- The block that a call of `send` has put into the socket's queue. A deadline that overflows is
noticed after that. -/
def queued (format : Format) : Call → Option Packet
  | .send samples firstFrame discontinuity now (.ok n) =>
    if n = 0 then none else some (packetOf format samples firstFrame discontinuity now)
  | .send samples firstFrame discontinuity now (.error e) =>
    if e = overflow then some (packetOf format samples firstFrame discontinuity now) else none
  | _ => none

/-- The block that a call of `receive` has handed out. -/
def returned (format : Format) : Call → Option Packet
  | .receive _ (.ok (some block, samples)) =>
    some ⟨block, samples.take (block.frames * format.channels)⟩
  | _ => none

def fed : Call → List UInt8
  | .feed bytes => bytes
  | _ => []

section Ends

variable {format : Format} {log : List Call} {l l' : Link} {stream : List UInt8}

/-- The last block of a sender that failed may be left over, with all its bytes. -/
def Leftover (format : Format) (log : List Call) (l : Link) : Prop :=
  l.sender.closed = true ∧ ∃ p, l.sent = log.filterMap (queued format) ++ [p] ∧
    unsent l.sender = encoded format p

structure Delivering (format : Format) (log : List Call) (l : Link) : Prop where
  linked : Linked format l
  listening : ∃ stream, Listening format stream l
  returned_eq : log.filterMap (returned format) = l.received
  sent_eq : l.sent = log.filterMap (queued format) ∨ Leftover format log l
  received_initial : l.received <+: log.filterMap (queued format)

theorem new_delivering (format : Format) : Delivering format [] (Link.new format) :=
  ⟨new_linked format, ⟨_, new_listening format⟩, rfl, .inl rfl, List.prefix_rfl⟩

theorem filterMap_snoc {α β : Type} (f : α → Option β) (xs : List α) (x : α) :
    (xs ++ [x]).filterMap f = xs.filterMap f ++ (f x).toList := by
  rw [List.filterMap_append]
  cases hx : f x <;> simp [hx]

/-- The sending end hands out nothing, and a block is queued at most once. -/
theorem Delivering.sends (h : Delivering format log l) {call : Call} {ps : List Packet}
    (hs : Sends format l l' ps) (hcall : returned format call = none)
    (hsent : l'.sent = (log ++ [call]).filterMap (queued format) ∨
      Leftover format (log ++ [call]) l') :
    Delivering format (log ++ [call]) l' := by
  obtain ⟨stream, hlistening⟩ := h.listening
  refine ⟨hs.linked, ⟨_, hlistening.sends hs.receiver_eq hs.received_eq⟩, ?_, hsent, ?_⟩
  · rw [filterMap_snoc, hcall, h.returned_eq, hs.received_eq]
    exact List.append_nil _
  · rw [hs.received_eq, filterMap_snoc]
    exact h.received_initial.trans (List.prefix_append _ _)

theorem closeSender_sends (h : Linked format l) : Sends format l (Sender.close l) [] :=
  ⟨h.sender_step _ _ rfl h.sending rfl, rfl, rfl, (List.append_nil _).symm⟩

theorem pump_closed (h : l.sender.closed = true) (now : UInt64) (write : WriteOutcome) :
    Sender.pump now write l = (.error .brokenPipe, l) := by
  have hcheck : Channel.check now l.sender = (.error .brokenPipe, l.sender) := by
    unfold Channel.check
    rw [if_pos h]
  unfold Sender.pump
  rw [bind_run_error (onSender_run hcheck)]

theorem send_closed (h : l.sender.closed = true) (samples : List Int16) (firstFrame : ℕ)
    (discontinuity : Bool) (now : UInt64) (first second : WriteOutcome) :
    Sender.send samples firstFrame discontinuity now first second l = (.error .brokenPipe, l) := by
  unfold Sender.send
  rw [bind_run_error (pump_closed h now first)]

theorem Delivering.sent_open (h : Delivering format log l) (hopen : l.sender.closed = false) :
    l.sent = log.filterMap (queued format) := by
  rcases h.sent_eq with hsent | ⟨hshut, _⟩
  · exact hsent
  · rw [hopen] at hshut
    cases hshut

/-- A call that queues nothing and leaves the sender's rest alone. -/
theorem Delivering.quiet (h : Delivering format log l) {call : Call} (hs : Sends format l l' [])
    (hreturned : returned format call = none) (hqueued : queued format call = none)
    (hshut : l.sender.closed = true → l'.sender.closed = true ∧ unsent l'.sender = unsent l.sender) :
    Delivering format (log ++ [call]) l' := by
  have hlog : (log ++ [call]).filterMap (queued format) = log.filterMap (queued format) := by
    rw [filterMap_snoc, hqueued]
    exact List.append_nil _
  have hsent : l'.sent = l.sent := by rw [hs.sent_eq, List.append_nil]
  apply h.sends hs hreturned
  rcases h.sent_eq with heq | ⟨hclosed, p, heq, hunsent⟩
  · exact .inl (by rw [hlog, hsent, heq])
  · obtain ⟨hclosed', hsame⟩ := hshut hclosed
    exact .inr ⟨hclosed', p, by rw [hlog, hsent, heq], hsame.trans hunsent⟩

theorem Delivering.send (h : Delivering format log l) {samples : List Int16} {firstFrame : ℕ}
    {discontinuity : Bool} {now : UInt64} {first second : WriteOutcome} {result : Except PcmError ℕ}
    (hrun : Sender.send samples firstFrame discontinuity now first second l = (result, l')) :
    Delivering format (log ++ [.send samples firstFrame discontinuity now result]) l' := by
  by_cases hclosed : l.sender.closed = true
  · rw [send_closed hclosed] at hrun
    obtain ⟨rfl, rfl⟩ := Prod.mk.inj hrun
    exact h.quiet h.linked.sends rfl rfl fun hc => ⟨hc, rfl⟩
  · have hopen := Bool.eq_false_iff.mpr hclosed
    have hsent := h.sent_open hopen
    have hspec := send_spec h.linked samples firstFrame discontinuity now first second
    rw [hrun] at hspec
    have hshut : ∀ {P : Prop}, l.sender.closed = true → P := fun hc => absurd hc hclosed
    -- what is in the log when the block went into the queue
    have hqueue : ∀ {result}, queued format
        (.send samples firstFrame discontinuity now result) =
          some (packetOf format samples firstFrame discontinuity now) →
        Sends format l l' [packetOf format samples firstFrame discontinuity now] →
        Delivering format (log ++ [.send samples firstFrame discontinuity now result]) l' := by
      intro result hq hs
      apply h.sends hs (by rfl)
      refine .inl ?_
      rw [hs.sent_eq, hsent, filterMap_snoc, hq]
      rfl
    cases result with
    | ok n =>
      obtain ⟨_, ⟨rfl, hs⟩ | ⟨_, hpos, hs⟩⟩ := meets_ok.mp hspec
      · exact h.quiet hs rfl rfl hshut
      · exact hqueue (if_neg hpos) hs
    | error e =>
      rcases meets_error.mp hspec with ⟨he, hs⟩ | ⟨he, hs⟩ | ⟨he, hs, hdown, hunsent⟩
      · exact h.quiet hs rfl (if_neg he) hshut
      · exact hqueue (if_pos he) hs
      · apply h.sends hs (by rfl)
        refine .inr ⟨hdown, _, ?_, hunsent⟩
        rw [hs.sent_eq, hsent, filterMap_snoc]
        change _ = _ ++ (if e = overflow then _ else none).toList ++ _
        rw [if_neg he]
        exact congrArg (· ++ _) (List.append_nil _).symm

theorem Delivering.pump (h : Delivering format log l) {now : UInt64} {write : WriteOutcome}
    {result : Except PcmError Unit} (hrun : Sender.pump now write l = (result, l')) :
    Delivering format (log ++ [.pump result]) l' := by
  by_cases hclosed : l.sender.closed = true
  · rw [pump_closed hclosed] at hrun
    obtain ⟨rfl, rfl⟩ := Prod.mk.inj hrun
    exact h.quiet h.linked.sends rfl rfl fun hc => ⟨hc, rfl⟩
  · have hspec := pump_spec h.linked now write
    rw [hrun] at hspec
    cases result with
    | ok _ => exact h.quiet (meets_ok.mp hspec).sends rfl rfl fun hc => absurd hc hclosed
    | error e => exact h.quiet (meets_error.mp hspec).sends rfl rfl fun hc => absurd hc hclosed

theorem closeReceiver_linked (h : Linked format l) : Linked format (Receiver.close l) :=
  h.receiver_step ⟨rfl, rfl, rfl, rfl, rfl⟩ Bool.noConfusion

theorem closeReceiver_listening (h : Listening format stream l) :
    Listening format stream (Receiver.close l) :=
  ⟨⟨h.parsed.format_eq, h.parsed.valid, h.parsed.announced, h.parsed.next_eq⟩, Bool.noConfusion⟩

theorem returned_eq_samples {p : Packet} (hp : Valid format p) (dest rest : List Int16) :
    returned format (.receive dest (.ok (some p.block, p.samples ++ rest))) = some p := by
  change some (Packet.mk p.block ((p.samples ++ rest).take (p.block.frames * format.channels))) = _
  rw [List.take_append_of_le_length hp.samples_length.ge,
    List.take_of_length_le hp.samples_length.le]

/-- A block of which no byte has left the sender is not the one at the receiver. -/
theorem initial_of_leftover (hl : Linked format l) (hopen : l.receiver.channel.closed = false)
    {ps : List Packet} {p : Packet} (hsent : l.sent = ps ++ [p])
    (hunsent : unsent l.sender = encoded format p) : l.received <+: ps := by
  obtain ⟨rest, hrest, hflow⟩ := hl.flow hopen
  rcases List.eq_nil_or_concat rest with rfl | ⟨init, q, rfl⟩
  · have hbytes := congrArg List.length hflow.bytes_eq
    have hheader := headerBytes_le format p
    rw [hunsent, List.length_append] at hbytes
    change 0 = _ at hbytes
    unfold headerBytes at hheader
    omega
  · have hsame : ps ++ [p] = (l.received ++ init) ++ [q] := by
      rw [← hsent, hrest, List.concat_eq_append, List.append_assoc]
    obtain ⟨hinit, _⟩ := List.append_inj' hsame rfl
    rw [hinit]
    exact List.prefix_append _ _

/-- The receiving end leaves the sender and its blocks alone. -/
theorem Delivering.receives (h : Delivering format log l) {call : Call} (hlinked : Linked format l')
    (hlistening : Listening format stream l') (hsender : l'.sender = l.sender)
    (hsent : l'.sent = l.sent) (hqueued : queued format call = none)
    (hreturned : l'.received = l.received ++ (returned format call).toList)
    (hopen : l'.received ≠ l.received → l'.receiver.channel.closed = false) :
    Delivering format (log ++ [call]) l' := by
  have hlog : (log ++ [call]).filterMap (queued format) = log.filterMap (queued format) := by
    rw [filterMap_snoc, hqueued]
    exact List.append_nil _
  refine ⟨hlinked, ⟨_, hlistening⟩, ?_, ?_, ?_⟩
  · rw [filterMap_snoc, h.returned_eq, hreturned]
  · rcases h.sent_eq with heq | ⟨hshut, p, heq, hunsent⟩
    · exact .inl (by rw [hsent, hlog, heq])
    · exact .inr ⟨hsender ▸ hshut, p, by rw [hsent, hlog, heq], hsender ▸ hunsent⟩
  · rw [hlog]
    by_cases hsame : l'.received = l.received
    · rw [hsame]
      exact h.received_initial
    · rcases h.sent_eq with heq | ⟨_, p, heq, hunsent⟩
      · rw [← heq, ← hsent]
        exact hlinked.received_initial
      · exact initial_of_leftover hlinked (hopen hsame) (hsent.trans heq) (hsender ▸ hunsent)

theorem Delivering.receive (h : Delivering format log l) {dest : List Int16} {now : UInt64}
    {first second : ReadOutcome} {result : Except PcmError (Option Block × List Int16)}
    (hrun : Receiver.receive dest now first second l = (result, l')) :
    Delivering format (log ++ [.receive dest result]) l' := by
  obtain ⟨stream, hlistening⟩ := h.listening
  have hspec := receive_spec h.linked dest now first second
  have hparses := receive_parses hlistening dest now first second
  rw [hrun] at hspec hparses
  cases result with
  | ok result =>
    have hr := meets_ok.mp hspec
    obtain ⟨hlistening', hheard⟩ := meets_ok.mp hparses
    apply h.receives hr.linked hlistening' hr.sender_eq hr.sent_eq (by rfl) ?_ fun _ => hr.opened
    rcases hr.handed with ⟨rfl, hsame⟩ | ⟨p, rfl, hmore⟩
    · rw [hsame]
      exact (List.append_nil _).symm
    · have hp : Valid format p := by
        apply hheard.takes.parsed.valid
        rw [hmore]
        exact List.mem_append_right _ (List.mem_singleton_self p)
      rw [hmore, returned_eq_samples hp]
      rfl
  | error e =>
    have hf := meets_error.mp hspec
    obtain ⟨hlistening', _, hsame⟩ := meets_error.mp hparses
    apply h.receives hf.linked hlistening' hf.sender_eq hf.sent_eq (by rfl)
    · rw [hsame]
      exact (List.append_nil _).symm
    · intro hne
      exact absurd hsame hne

theorem Step.delivering (h : Delivering format log l) {call : Call} (hstep : Step l call l') :
    Delivering format (log ++ [call]) l' := by
  cases hstep with
  | send hrun => exact h.send hrun
  | pump hrun => exact h.pump hrun
  | receive hrun => exact h.receive hrun
  | closeSender => exact h.quiet (closeSender_sends h.linked) rfl rfl fun _ => ⟨rfl, rfl⟩
  | closeReceiver =>
    obtain ⟨_, hlistening⟩ := h.listening
    exact h.receives (closeReceiver_linked h.linked) (closeReceiver_listening hlistening) rfl rfl
      (by rfl) (List.append_nil _).symm fun hne => absurd rfl hne

theorem run_delivering (h : Run Step (Link.new format) log l) : Delivering format log l := by
  induction h with
  | nil => exact new_delivering format
  | snoc _ hstep ih => exact Step.delivering ih hstep

/-- Once every byte has been written and read, nothing is missing. -/
theorem Delivering.complete (h : Delivering format log l)
    (hopen : l.receiver.channel.closed = false) (hwire : l.wire = []) (hidle : l.sender.length = 0) :
    log.filterMap (returned format) = log.filterMap (queued format) := by
  obtain ⟨stream, hlistening⟩ := h.listening
  obtain ⟨_, hwaits⟩ := hlistening.flow hopen
  obtain ⟨rest, hsent, hflow⟩ := h.linked.flow hopen
  have hnone : unsent l.sender = [] := by
    unfold unsent WireBytes.slice
    rw [hidle, Nat.zero_sub, List.take_zero]
  have hbytes : rest.flatMap (encoded format) = held l := by
    rw [hflow.bytes_eq, hwire, hnone, List.append_nil, List.append_nil]
  have hqueued : l.sent = log.filterMap (queued format) := by
    rcases h.sent_eq with heq | ⟨_, p, _, hunsent⟩
    · exact heq
    · have hheader := headerBytes_le format p
      rw [← hunsent, hnone] at hheader
      cases hheader
  cases rest with
  | nil => rw [h.returned_eq, ← hqueued, hsent, List.append_nil]
  | cons p rest =>
    have hlen := congrArg List.length hbytes
    rw [hflow.held_length, List.flatMap_cons, List.length_append] at hlen
    have hheader := headerBytes_le format p
    rcases hwaits with hlt | ⟨hzero, _⟩
    · rcases hflow.length_eq with hl | hl | ⟨q, _, hq, hl⟩
      · omega
      · omega
      · obtain ⟨rfl, _⟩ := List.cons.inj hq
        omega
    · unfold headerBytes at hheader
      omega

/-- A failed call is the receiver's last: no later one hands out a block. -/
def FailsForGood (format : Format) (log : List Call) : Prop :=
  ∀ before dest e after, log = before ++ .receive dest (.error e) :: after →
    after.filterMap (returned format) = [] ∧
      ∀ dest result, .receive dest result ∈ after → result = .error .brokenPipe

/-- What holds of both ends, however the socket cuts the stream. -/
structure Faithful (format : Format) (log : List Call) (l : Link) : Prop where
  in_order : log.filterMap (returned format) <+: log.filterMap (queued format)
  complete : l.receiver.channel.closed = false → l.wire = [] → l.sender.length = 0 →
    log.filterMap (returned format) = log.filterMap (queued format)
  buffered : l.sent = log.filterMap (queued format) ∨ Leftover format log l
  fails : ∀ dest now first second e l',
    Receiver.receive dest now first second l = (.error e, l') →
      e ∈ harmless ∨ (e = Receiver.gapError ∧ ¬ Announced 0 l.sent)
  reads : ∀ dest now n second result l',
    Receiver.receive dest now (.data (n + 1)) second l = (.ok result, l') → l.wire ≠ [] →
      l'.wire.length < l.wire.length
  writes : ∀ now n l', Sender.pump now (.wrote (n + 1)) l = (.ok (), l') → l.sender.length ≠ 0 →
    l.wire.length < l'.wire.length
  fails_for_good : FailsForGood format log

/-- What holds of the receiver on any byte stream. -/
structure Checked (format : Format) (log : List Call) (l : Link) : Prop where
  announced : Announced 0 (log.filterMap (returned format))
  valid : ∀ p ∈ log.filterMap (returned format), Valid format p
  /-- The blocks are the stream, up to what is not read or not complete. -/
  exact_stream : l.receiver.channel.closed = false →
    log.flatMap fed = (log.filterMap (returned format)).flatMap (encoded format) ++ held l ++ l.wire
  fails_for_good : FailsForGood format log

/-- A step of a closed receiver, or of its peer. -/
def Silent (R : Link → Call → Link → Prop) : Prop :=
  ∀ l call l', R l call l' →
    (l.receiver.channel.closed = true → l'.receiver.channel.closed = true ∧
      ∀ dest result, call = .receive dest result → result = .error .brokenPipe) ∧
    ∀ dest e, call = .receive dest (.error e) → l'.receiver.channel.closed = true

theorem receive_silent {dest : List Int16} {now : UInt64} {first second : ReadOutcome}
    {result : Except PcmError (Option Block × List Int16)}
    (hrun : Receiver.receive dest now first second l = (result, l')) :
    (l.receiver.channel.closed = true →
      l'.receiver.channel.closed = true ∧ result = .error .brokenPipe) ∧
    ∀ e, result = .error e → l'.receiver.channel.closed = true := by
  constructor
  · intro hclosed
    rw [receive_closed hclosed] at hrun
    obtain ⟨rfl, rfl⟩ := Prod.mk.inj hrun
    exact ⟨rfl, rfl⟩
  · rintro e rfl
    unfold Receiver.receive at hrun
    rcases hr : Receiver.receiveInner dest now first second l with ⟨e' | result, l₁⟩
    · rw [hr] at hrun
      obtain ⟨_, rfl⟩ := Prod.mk.inj hrun
      rfl
    · rw [hr] at hrun
      obtain ⟨hok, _⟩ := Prod.mk.inj hrun
      cases hok

theorem onSender_receiver {α : Type} (m : Action PcmError Channel α) (l : Link) :
    Meets (onSender m l) (fun _ l' => l'.receiver = l.receiver)
      (fun _ l' => l'.receiver = l.receiver) :=
  meets_state.mpr rfl

theorem pump_receiver (now : UInt64) (write : WriteOutcome) (l : Link) :
    Meets (Sender.pump now write l) (fun _ l' => l'.receiver = l.receiver)
      (fun _ l' => l'.receiver = l.receiver) := by
  unfold Sender.pump
  apply meets_bind (onSender_receiver _ l)
  intro _ l₁ h₁
  rw [meets_get_bind]
  by_cases hidle : l₁.sender.length = 0
  · rw [if_pos hidle]
    exact h₁
  · rw [if_neg hidle]
    cases write with
    | blocked => exact h₁
    | failed => exact h₁
    | wrote n =>
      dsimp only
      split
      · exact h₁
      · exact h₁

theorem send_receiver (samples : List Int16) (firstFrame : ℕ) (discontinuity : Bool) (now : UInt64)
    (first second : WriteOutcome) (l : Link) :
    Meets (Sender.send samples firstFrame discontinuity now first second l)
      (fun _ l' => l'.receiver = l.receiver) (fun _ l' => l'.receiver = l.receiver) := by
  unfold Sender.send
  apply meets_bind (pump_receiver now first l)
  intro _ l₁ h₁
  rw [meets_get_bind]
  by_cases halign : samples.length % l₁.sender.format.channels ≠ 0
  · rw [if_pos halign]
    exact h₁
  · rw [if_neg halign]
    by_cases hbusy : l₁.sender.length ≠ 0 ∨ samples = []
    · rw [if_pos hbusy]
      exact h₁
    · rw [if_neg hbusy]
      refine meets_bind (Q := fun _ l' => l'.receiver = l.receiver) (meets_state.mpr h₁) ?_
      intro bytes l₂ h₂
      have hbegin := onSender_receiver (Channel.begin now) (Sender.enqueue bytes
        ⟨⟨min (samples.length / l₁.sender.format.channels) blockFrames, firstFrame, discontinuity,
          now⟩, samples.take (min (samples.length / l₁.sender.format.channels) blockFrames *
            l₁.sender.format.channels)⟩ l₂)
      refine meets_modify_bind.mpr (meets_bind (hbegin.mono (fun _ _ hq => hq) ?_) ?_)
      · intro _ _ he
        exact he.trans h₂
      intro _ l₃ h₃
      have hsecond := pump_receiver now second l₃
      rw [h₃.trans h₂] at hsecond
      exact meets_bind hsecond fun _ _ h₄ => h₄

theorem step_silent : Silent Step := by
  intro l call l' hstep
  cases hstep with
  | @send _ samples firstFrame discontinuity now first second _ hrun =>
    have hsame := send_receiver samples firstFrame discontinuity now first second l
    rw [hrun, meets_state] at hsame
    rw [hsame]
    exact ⟨fun hc => ⟨hc, fun _ _ h => Call.noConfusion h⟩, fun _ _ h => Call.noConfusion h⟩
  | @pump _ now write _ hrun =>
    have hsame := pump_receiver now write l
    rw [hrun, meets_state] at hsame
    rw [hsame]
    exact ⟨fun hc => ⟨hc, fun _ _ h => Call.noConfusion h⟩, fun _ _ h => Call.noConfusion h⟩
  | receive hrun =>
    obtain ⟨hclosed, herror⟩ := receive_silent hrun
    constructor
    · intro hc
      obtain ⟨hc', hresult⟩ := hclosed hc
      refine ⟨hc', ?_⟩
      rintro dest result ⟨⟩
      exact hresult
    · rintro dest e ⟨⟩
      exact herror e rfl
  | closeSender => exact ⟨fun hc => ⟨hc, fun _ _ h => Call.noConfusion h⟩, fun _ _ h => Call.noConfusion h⟩
  | closeReceiver =>
    exact ⟨fun _ => ⟨rfl, fun _ _ h => Call.noConfusion h⟩, fun _ _ h => Call.noConfusion h⟩

theorem foreign_silent : Silent Foreign := by
  intro l call l' hstep
  cases hstep with
  | feed => exact ⟨fun hc => ⟨hc, fun _ _ h => Call.noConfusion h⟩, fun _ _ h => Call.noConfusion h⟩
  | receive hrun =>
    obtain ⟨hclosed, herror⟩ := receive_silent hrun
    constructor
    · intro hc
      obtain ⟨hc', hresult⟩ := hclosed hc
      refine ⟨hc', ?_⟩
      rintro dest result ⟨⟩
      exact hresult
    · rintro dest e ⟨⟩
      exact herror e rfl
  | closeReceiver =>
    exact ⟨fun _ => ⟨rfl, fun _ _ h => Call.noConfusion h⟩, fun _ _ h => Call.noConfusion h⟩

/-- From a closed receiver on, every call of it fails in the same way. -/
theorem run_silent {R : Link → Call → Link → Prop} (hR : Silent R) (h : Run R l log l')
    (hclosed : l.receiver.channel.closed = true) :
    l'.receiver.channel.closed = true ∧
      ∀ dest result, .receive dest result ∈ log → result = .error .brokenPipe := by
  induction h with
  | nil => exact ⟨hclosed, fun _ _ h => by cases h⟩
  | @snoc log t call u _ hstep ih =>
    obtain ⟨hc, hall⟩ := ih
    obtain ⟨hc', hcall⟩ := (hR t call u hstep).1 hc
    refine ⟨hc', ?_⟩
    intro dest result hmem
    rcases List.mem_append.mp hmem with hmem | hmem
    · exact hall dest result hmem
    · exact hcall dest result (List.mem_singleton.mp hmem).symm

theorem returned_of_failed (h : ∀ dest result, .receive dest result ∈ log →
    result = .error .brokenPipe) : log.filterMap (returned format) = [] := by
  rw [List.filterMap_eq_nil_iff]
  intro call hmem
  cases call with
  | receive dest result =>
    obtain rfl := h dest result hmem
    rfl
  | _ => rfl

theorem run_fails_for_good {R : Link → Call → Link → Prop} (hR : Silent R) (h : Run R l log l') :
    FailsForGood format log := by
  rintro before dest e after rfl
  obtain ⟨t, _, hrest⟩ := run_append.mp h
  obtain ⟨u, hstep, hafter⟩ := run_cons.mp hrest
  obtain ⟨_, hall⟩ := run_silent hR hafter ((hR t _ u hstep).2 dest e rfl)
  exact ⟨returned_of_failed hall, hall⟩

theorem run_checked (h : Run Foreign (Link.new format) log l) :
    Listening format (log.flatMap fed) l ∧ log.filterMap (returned format) = l.received := by
  induction h with
  | nil => exact ⟨new_listening format, rfl⟩
  | @snoc log t call u _ hstep ih =>
    obtain ⟨hl, hreturned⟩ := ih
    rw [List.flatMap_append, List.flatMap_singleton, filterMap_snoc, hreturned]
    cases hstep with
    | feed => exact ⟨hl.feed _, List.append_nil _⟩
    | closeReceiver =>
      change Listening format (log.flatMap fed ++ []) _ ∧ _
      rw [List.append_nil]
      exact ⟨closeReceiver_listening hl, List.append_nil _⟩
    | @receive _ dest now first second result hrun =>
      change Listening format (log.flatMap fed ++ []) _ ∧ _
      rw [List.append_nil]
      have hparses := receive_parses hl dest now first second
      rw [hrun] at hparses
      cases result with
      | error e =>
        obtain ⟨hl', _, hsame⟩ := meets_error.mp hparses
        exact ⟨hl', (List.append_nil _).trans hsame.symm⟩
      | ok result =>
        obtain ⟨hl', hheard⟩ := meets_ok.mp hparses
        refine ⟨hl', ?_⟩
        rcases hheard.takes.handed with ⟨rfl, hsame⟩ | ⟨p, rfl, hmore⟩
        · exact (List.append_nil _).trans hsame.symm
        · have hp : Valid format p := by
            apply hl'.parsed.valid
            rw [hmore]
            exact List.mem_append_right _ (List.mem_singleton_self p)
          rw [returned_eq_samples hp, hmore]
          rfl

end Ends

def mono : Format := ⟨⟨[.audibleLeft], [.microphone], by decide⟩, 1, 1, .playback, 1⟩

def gapCalls : List Call :=
  [.send [7] 5 false 0 (.ok 1), .receive (List.replicate 128 0) (.error Receiver.gapError)]

/-- The socket after `gapCalls`. -/
def gapLink : Link :=
  (Receiver.receive (List.replicate 128 0) 0 (.data 100) (.data 100)
    (Sender.send [7] 5 false 0 (.wrote 100) (.wrote 100) (Link.new mono)).2).2

end PcmIpcDelivery
