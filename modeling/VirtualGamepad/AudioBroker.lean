import VirtualGamepad.AudioConnectionLifecycle

/-! All audio connections of a broker at once: their calls interleave, they share the admission with
the rest of the process, and every session they hand out is one their clients accept. -/
namespace AudioBroker

open Admission AudioConnection AudioConnectionLifecycle BrokerWire ByteReader Dialogue WireBytes

section Interleaving

/-- A connection with what is left of its program. `account` is a ghost. -/
structure Connection where
  peer : Peer
  program : Program
  account : Account

/-- `outside` are the permits held by the other connections of the process. -/
structure Broker where
  admission : Limits
  connections : List Connection
  outside : List Peer

def Broker.new (globalLimit perPeer : ℕ) : Broker := ⟨.new globalLimit perPeer, [], []⟩

/-- Who answers a call, and with what: the shared admission decides on reservations, the rest of
the world may answer as it likes. -/
inductive Served (admission : Limits) (peer : Peer) : (call : Call) → Answer call → Limits → Prop
  where
  | granted {reserved : Limits} : admission.reserve peer = .ok reserved →
      Served admission peer .reserve (.ok ()) reserved
  | refused {error : BrokerError} : admission.reserve peer = .error error →
      Served admission peer .reserve (.error error) admission
  | released : Served admission peer .dropPermit () (admission.release peer)
  | other {call : Call} (answer : Answer call) : call ≠ .reserve → call ≠ .dropPermit →
      Served admission peer call answer admission

inductive Step : Broker → Broker → Prop where
  | accept (b : Broker) (peer : Peer) (fuel : ℕ) (first : UInt8 × List UInt8) : Step b { b with
      connections := ⟨peer, serveReported fuel first, .new first⟩ :: b.connections }
  | call (b : Broker) {before after : List Connection} {peer : Peer} {account : Account}
      {call : Call} {next : Answer call → Program} {answer : Answer call} {admission : Limits} :
      b.connections = before ++ ⟨peer, .ask call next, account⟩ :: after →
      Served b.admission peer call answer admission →
      Step b { b with
        admission
        connections := before ++ ⟨peer, next answer, account.after call answer⟩ :: after }
  | reserve (b : Broker) {peer : Peer} {admission : Limits} :
      b.admission.reserve peer = .ok admission →
      Step b { b with admission, outside := peer :: b.outside }
  | release (b : Broker) {before after : List Peer} {peer : Peer} :
      b.outside = before ++ peer :: after →
      Step b { b with admission := b.admission.release peer, outside := before ++ after }

inductive Reachable (globalLimit perPeer : ℕ) : Broker → Prop where
  | new : Reachable globalLimit perPeer (.new globalLimit perPeer)
  | step {b c : Broker} : Reachable globalLimit perPeer b → Step b c →
      Reachable globalLimit perPeer c

def Connection.permits (c : Connection) : List Peer := if c.account.permit then [c.peer] else []

def Connection.attachments (c : Connection) : List Peer :=
  if c.account.attached then [c.peer] else []

/-- The peers of all attachments that were opened and not yet closed. -/
def Broker.attachments (b : Broker) : List Peer := b.connections.flatMap Connection.attachments

end Interleaving

section Invariant

variable {b c : Broker} {globalLimit perPeer : ℕ} {s : Account}

structure Orderly (globalLimit perPeer : ℕ) (b : Broker) : Prop where
  obeys : ∀ c ∈ b.connections, Obeys monitor Finished c.program c.account
  guarded : ∀ c ∈ b.connections, c.account.attached = true → c.account.permit = true
  counts : Counts b.admission (b.connections.flatMap Connection.permits ++ b.outside)
  limits : b.admission.globalLimit = globalLimit ∧ b.admission.perPeer = perPeer

theorem after_permit {call : Call} (answer : Answer call) (hreserve : call ≠ .reserve)
    (hdrop : call ≠ .dropPermit) : (s.after call answer).permit = s.permit := by
  cases call with
  | reserve => exact absurd rfl hreserve
  | dropPermit => exact absurd rfl hdrop
  | openFactory profile identity => cases answer <;> rfl
  | readFrame => cases answer <;> rfl
  | _ => rfl

/-- An attachment is open only behind a permit. -/
theorem after_guarded {call : Call} (answer : Answer call) (hallowed : s.allows call)
    (h : s.attached = true → s.permit = true) :
    (s.after call answer).attached = true → (s.after call answer).permit = true := by
  cases call with
  | reserve => exact fun hattached => absurd (h hattached) (by rw [hallowed.2.2]; decide)
  | dropPermit => exact fun hattached => absurd (hallowed.2.symm.trans hattached) (by decide)
  | openFactory profile identity =>
    cases answer with
    | error e => exact h
    | ok opened => exact fun _ => hallowed.2.2.1
  | readFrame => cases answer <;> exact h
  | closeAttachment => exact fun hattached => absurd hattached Bool.false_ne_true
  | _ => exact h

theorem Orderly.perm {connections : List Connection} (h : Orderly globalLimit perPeer b)
    (hp : b.connections.Perm connections) : Orderly globalLimit perPeer { b with connections } :=
  ⟨fun c hc => h.obeys c (hp.mem_iff.mpr hc), fun c hc => h.guarded c (hp.mem_iff.mpr hc),
    h.counts.perm ((hp.flatMap_right _).append_right _), h.limits⟩

/-- One call of one connection. -/
theorem Orderly.called {rest : List Connection} {peer : Peer} {account : Account} {call : Call}
    {next : Answer call → Program} {answer : Answer call} {admission : Limits}
    (h : Orderly globalLimit perPeer
      { b with connections := ⟨peer, .ask call next, account⟩ :: rest })
    (hserved : Served b.admission peer call answer admission) :
    Orderly globalLimit perPeer { b with
      admission
      connections := ⟨peer, next answer, account.after call answer⟩ :: rest } := by
  obtain ⟨hallowed, hnext⟩ := h.obeys _ (List.mem_cons_self ..)
  have hguarded := after_guarded answer hallowed (h.guarded _ (List.mem_cons_self ..))
  have hcounts := h.counts
  rw [List.flatMap_cons, List.append_assoc] at hcounts
  refine ⟨List.forall_mem_cons.mpr ⟨hnext answer, fun c hc => h.obeys c (List.mem_cons_of_mem _ hc)⟩,
    List.forall_mem_cons.mpr ⟨hguarded, fun c hc => h.guarded c (List.mem_cons_of_mem _ hc)⟩, ?_, ?_⟩
  · rw [List.flatMap_cons, List.append_assoc]
    unfold Connection.permits at hcounts ⊢
    cases hserved with
    | granted hreserve =>
      have hnone : account.permit = false := hallowed.2.2
      rw [hnone] at hcounts
      exact reserve_counts hcounts hreserve
    | refused hreserve =>
      have hnone : account.permit = false := hallowed.2.2
      rw [hnone] at hcounts
      exact hcounts
    | released =>
      have hsome : account.permit = true := hallowed.1
      rw [hsome] at hcounts
      exact release_counts hcounts
    | other _ hreserve hdrop =>
      rw [after_permit answer hreserve hdrop]
      exact hcounts
  · cases hserved with
    | granted hreserve =>
      have hsame := reserve_limits hreserve
      exact ⟨hsame.1.trans h.limits.1, hsame.2.trans h.limits.2⟩
    | refused _ => exact h.limits
    | released =>
      have hsame := release_limits b.admission peer
      exact ⟨hsame.1.trans h.limits.1, hsame.2.trans h.limits.2⟩
    | other _ _ _ => exact h.limits

theorem orderly_step (h : Orderly globalLimit perPeer b) (hstep : Step b c) :
    Orderly globalLimit perPeer c := by
  cases hstep with
  | accept peer fuel first =>
    exact ⟨List.forall_mem_cons.mpr ⟨serveReported_obeys fuel first, h.obeys⟩,
      List.forall_mem_cons.mpr ⟨fun hattached => absurd hattached Bool.false_ne_true, h.guarded⟩,
      h.counts, h.limits⟩
  | call heq hserved =>
    exact ((h.perm (heq ▸ List.perm_middle)).called hserved).perm List.perm_middle.symm
  | reserve hreserve =>
    have hsame := reserve_limits hreserve
    refine ⟨h.obeys, h.guarded, ?_, hsame.1.trans h.limits.1, hsame.2.trans h.limits.2⟩
    exact (reserve_counts h.counts hreserve).perm List.perm_middle.symm
  | @release before after peer heq =>
    have hsame := release_limits b.admission peer
    have hcounts := h.counts
    rw [heq, ← List.append_assoc] at hcounts
    refine ⟨h.obeys, h.guarded, ?_, hsame.1.trans h.limits.1, hsame.2.trans h.limits.2⟩
    change Counts _ (_ ++ (before ++ after))
    rw [← List.append_assoc]
    exact release_counts (hcounts.perm List.perm_middle)

theorem reachable_orderly (h : Reachable globalLimit perPeer b) :
    Orderly globalLimit perPeer b := by
  induction h with
  | new => exact ⟨fun _ hc => absurd hc List.not_mem_nil, fun _ hc => absurd hc List.not_mem_nil,
      counts_new globalLimit perPeer, rfl, rfl⟩
  | step _ hstep ih => exact orderly_step ih hstep

/-- Open attachments are among the permits. -/
theorem attachments_sublist (connections : List Connection)
    (h : ∀ c ∈ connections, c.account.attached = true → c.account.permit = true) :
    (connections.flatMap Connection.attachments).Sublist
      (connections.flatMap Connection.permits) := by
  induction connections with
  | nil => exact .slnil
  | cons c rest ih =>
    rw [List.flatMap_cons, List.flatMap_cons]
    refine List.Sublist.append ?_ (ih fun d hd => h d (List.mem_cons_of_mem _ hd))
    unfold Connection.attachments Connection.permits
    by_cases hattached : c.account.attached = true
    · rw [if_pos hattached, if_pos (h c (List.mem_cons_self ..) hattached)]
    · rw [if_neg hattached]
      exact List.nil_sublist _

theorem attachments_bounded (h : Reachable globalLimit perPeer b) :
    b.attachments.length ≤ globalLimit ∧ ∀ peer, b.attachments.count peer ≤ perPeer := by
  have horderly := reachable_orderly h
  have hsublist : b.attachments.Sublist
      (b.connections.flatMap Connection.permits ++ b.outside) :=
    (attachments_sublist b.connections horderly.guarded).trans (List.sublist_append_left _ _)
  rw [← horderly.limits.1, ← horderly.limits.2]
  constructor
  · calc b.attachments.length
        ≤ (b.connections.flatMap Connection.permits ++ b.outside).length := hsublist.length_le
      _ = b.admission.total := horderly.counts.total_eq.symm
      _ ≤ b.admission.globalLimit := horderly.counts.total_le
  · intro peer
    calc b.attachments.count peer
        ≤ (b.connections.flatMap Connection.permits ++ b.outside).count peer :=
          hsublist.count_le peer
      _ = b.admission.count peer := (horderly.counts.count_eq peer).symm
      _ ≤ b.admission.perPeer := horderly.counts.count_le peer

end Invariant

section Handshake

variable {bytes : List UInt8} {opened : Opened} {body : List UInt8}

theorem fromUtf8_utf8 (text : String) : fromUtf8 (utf8 text) = some text := by
  unfold fromUtf8 utf8 String.fromUTF8?
  rw [Array.toArray_toList, dif_pos text.isValidUTF8]
  rfl

theorem splitOnce_eq_some {separator : UInt8} {before after : List UInt8}
    (h : splitOnce separator bytes = some (before, after)) :
    bytes = before ++ separator :: after := by
  induction bytes generalizing before with
  | nil => cases h
  | cons b rest ih =>
    unfold splitOnce at h
    by_cases hb : b = separator
    · rw [if_pos hb] at h
      cases h
      rw [hb]
      rfl
    · rw [if_neg hb] at h
      obtain ⟨⟨before', after'⟩, hrest, heq⟩ := Option.map_eq_some_iff.mp h
      cases heq
      rw [ih hrest]
      rfl

theorem positive_ne_nil (h : positive bytes = true) : bytes ≠ [] := by
  rintro rfl
  cases h

/-- A bus identifier is neither too short for the client nor too long for the wire. -/
theorem validBusId_length {value : String} (h : validBusId value = true) :
    3 ≤ (utf8 value).length ∧ (utf8 value).length ≤ 31 := by
  unfold validBusId at h
  by_cases hlong : 31 < (utf8 value).length
  · rw [if_pos hlong] at h
    cases h
  rw [if_neg hlong] at h
  cases hsplit : splitOnce 45 (utf8 value) with
  | none =>
    rw [hsplit] at h
    cases h
  | some parts =>
    obtain ⟨bus, ports⟩ := parts
    rw [hsplit] at h
    dsimp only at h
    obtain ⟨hbus, hports⟩ := Bool.and_eq_true_iff.mp h
    have hsome : ports ≠ [] := by
      rintro rfl
      cases hports
    have hlength : (utf8 value).length = bus.length + (ports.length + 1) := by
      rw [splitOnce_eq_some hsplit, List.length_append, List.length_cons]
    have hbus' := List.length_pos_of_ne_nil (positive_ne_nil hbus)
    have hports' := List.length_pos_of_ne_nil hsome
    omega

theorem metadata_ok (h : metadata opened = .ok body) :
    (opened.generation ≠ 0 ∧ opened.device ≠ 0 ∧ validBusId opened.busId = true) ∧
      body = bytesLe 8 opened.generation.toNat ++ bytesLe 4 opened.device.toNat ++
        utf8 opened.busId := by
  unfold metadata at h
  by_cases hbad : opened.generation = 0 ∨ opened.device = 0 ∨ validBusId opened.busId = false
  · rw [if_pos hbad] at h
    cases h
  · rw [if_neg hbad] at h
    obtain ⟨hgeneration, hrest⟩ := not_or.mp hbad
    obtain ⟨hdevice, hbus⟩ := not_or.mp hrest
    exact ⟨⟨hgeneration, hdevice, Bool.eq_true_of_not_eq_false hbus⟩, (Except.ok.inj h).symm⟩

/-- What the broker writes for a session is what its client accepts. -/
theorem handshake_accepts (h : metadata opened = .ok body) (profile : Profile)
    (identity rest : List UInt8) (channels : Channels) :
    ∃ bytes, writeVersionedMessage ⟨2, 0x80, body⟩ = .ok bytes ∧
      handshake profile identity (fun _ => .ok ()) (bytes ++ rest) (.ok channels) =
        .ok (⟨opened.generation, opened.device, opened.busId, false⟩, channels) := by
  obtain ⟨⟨hgeneration, hdevice, hbus⟩, hbody⟩ := metadata_ok h
  obtain ⟨hshort, hlong⟩ := validBusId_length hbus
  have hlength : body.length = 12 + (utf8 opened.busId).length := by
    rw [hbody, List.length_append, List.length_append, length_bytesLe, length_bytesLe]
  have hwritten := writeVersionedMessage_eq_ok (m := ⟨2, 0x80, body⟩).mpr
    ⟨.inr rfl, by unfold maxWirePayload; dsimp only; omega, rfl⟩
  refine ⟨_, hwritten, ?_⟩
  have hread := @readVersionedMessage_append _ _ rest hwritten
  have hgeneration' : body.take 8 = bytesLe 8 opened.generation.toNat := by
    rw [hbody, List.append_assoc]
    exact List.take_left' (length_bytesLe _ _)
  have hdevice' : (body.drop 8).take 4 = bytesLe 4 opened.device.toNat := by
    rw [hbody, List.append_assoc, List.drop_left' (length_bytesLe _ _)]
    exact List.take_left' (length_bytesLe _ _)
  have hbus' : body.drop 12 = utf8 opened.busId := by
    rw [hbody]
    refine List.drop_left' ?_
    rw [List.length_append, length_bytesLe, length_bytesLe]
  have htag : ∃ tag, profile.tag = .ok tag := by
    cases profile
    · exact ⟨1, rfl⟩
    · exact ⟨2, rfl⟩
    · exact ⟨3, rfl⟩
  obtain ⟨tag, htag⟩ := htag
  have hclient : clientOf body = .ok ⟨opened.generation, opened.device, opened.busId, false⟩ := by
    unfold clientOf
    rw [hgeneration', hdevice', hbus', fromUtf8_utf8,
      ofBytesLe_bytesLe opened.generation.toNat_lt, ofBytesLe_bytesLe opened.device.toNat_lt,
      UInt64.ofNat_toNat, UInt32.ofNat_toNat]
    dsimp only
    rw [if_neg (not_or.mpr ⟨hgeneration, not_or.mpr ⟨hdevice, by rw [hbus]; decide⟩⟩)]
  have hlong' : ¬((0x80 : UInt8) ≠ 0x80 ∨ body.length < 15) := by
    rintro (htag | hless)
    · exact htag rfl
    · omega
  unfold handshake
  rw [htag, hread]
  change (if (0x80 : UInt8) ≠ 0x80 ∨ body.length < 15 then _ else _) = _
  rw [if_neg hlong', hclient]
  rfl

end Handshake

section Connections

/-- What is known of a connection after the calls of `log`. -/
def account (first : UInt8 × List UInt8) (log : Log Call Answer) : Account :=
  monitor.state (.new first) log

def isFactoryCall : (Σ call, Answer call) → Bool
  | ⟨.openFactory _ _, _⟩ => true
  | _ => false

theorem asked_after (s : Account) (call : Call) (answer : Answer call) :
    (s.after call answer).asked = s.asked + [⟨call, answer⟩].countP isFactoryCall := by
  cases call with
  | openFactory profile identity => cases answer <;> rfl
  | readFrame => cases answer <;> rfl
  | _ => rfl

theorem asked_state (s : Account) (log : Log Call Answer) :
    (monitor.state s log).asked = s.asked + log.countP isFactoryCall := by
  induction log generalizing s with
  | nil => rfl
  | cons e log ih =>
    have hrest := ih (s.after e.1 e.2)
    rw [asked_after] at hrest
    rw [show e :: log = [e] ++ log from rfl, List.countP_append, ← Nat.add_assoc]
    exact hrest

theorem asked_once (s : Account) (call : Call) (answer : Answer call) (hallowed : s.allows call)
    (h : s.asked ≤ 1) : (s.after call answer).asked ≤ 1 := by
  cases call with
  | openFactory profile identity =>
    have hnone : s.asked = 0 := hallowed.2.1
    cases answer with
    | error e => exact (congrArg Nat.succ hnone).le
    | ok opened => exact (congrArg Nat.succ hnone).le
  | readFrame => cases answer <;> exact h
  | _ => exact h

/-- Over all interleavings, all frames and all failures: each call of a connection is in order, the
factory is asked at most once, nothing outlives the connection, the open attachments stay within
the limits, and the client accepts what the broker creates. -/
theorem connections_safe :
    (∀ fuel first log left, Run (serveReported fuel first) log left →
      (∀ before call answer after, log = before ++ ⟨call, answer⟩ :: after →
        (account first before).allows call) ∧
      log.countP isFactoryCall ≤ 1 ∧
      ∀ result, left = .ret (some result) → (account first log).settled) ∧
    (∀ globalLimit perPeer b, Reachable globalLimit perPeer b →
      b.attachments.length ≤ globalLimit ∧ ∀ peer, b.attachments.count peer ≤ perPeer) ∧
    (∀ opened body, metadata opened = .ok body → ∀ profile identity rest channels,
      ∃ bytes, writeVersionedMessage ⟨2, 0x80, body⟩ = .ok bytes ∧
        handshake profile identity (fun _ => .ok ()) (bytes ++ rest) (.ok channels) =
          .ok (⟨opened.generation, opened.device, opened.busId, false⟩, channels)) := by
  refine ⟨fun fuel first log left hrun => ?_, fun _ _ _ h => attachments_bounded h,
    fun _ _ h => handshake_accepts h⟩
  have hobeys := serveReported_obeys fuel first
  refine ⟨fun before call answer after hlog => ?_, ?_, fun result hleft => ?_⟩
  · exact hobeys.allowed (hlog ▸ hrun)
  · have hasked := hobeys.invariant asked_once hrun (Nat.zero_le 1)
    rw [asked_state] at hasked
    exact (Nat.le_add_left _ _).trans hasked
  · have hfinished := hobeys.run hrun
    rw [hleft] at hfinished
    exact finished_settled hfinished

end Connections

end AudioBroker
