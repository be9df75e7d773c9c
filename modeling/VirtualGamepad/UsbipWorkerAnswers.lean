import VirtualGamepad.UsbipWorkerTrace

/-! Each transfer the worker accepts is answered once: by its own completion, or by the unlink
that took it out of both tables. -/
namespace UsbipWorkerAnswers

open Fallible Runs WireBytes UsbipFrame UsbipControl UsbipWorker UsbipWorkerLedger UsbipWorkerTrace
open UsbipPending hiding Step
open UsbipPendingTickets (tickets)

section Logs

/-- The transfers whose completion was queued. -/
def returned (log : List Event) : List Ticket :=
  log.filterMap fun e => match e with
    | .retSubmit slot _ _ => some slot.ticket
    | _ => none

/-- The transfers that an unlink took. -/
def withdrawn (log : List Event) : List Ticket :=
  log.flatMap fun e => match e with
    | .cancelled _ _ _ gone => gone.map Slot.ticket
    | _ => []

/-- The sequences of the transfers that came in. -/
def submitted (log : List Event) : List ℕ :=
  log.filterMap fun e => match e with
    | .command (.submit submit) => some submit.header.sequence
    | _ => none

/-- The unlinks that came in, with their targets. -/
def unlinks (log : List Event) : List (ℕ × ℕ) :=
  log.filterMap fun e => match e with
    | .command (.unlink sequence target) => some (sequence, target)
    | _ => none

/-- The unlinks that were carried out, with what they found. -/
def cancellations (log : List Event) : List ((ℕ × ℕ) × Bool) :=
  log.filterMap fun e => match e with
    | .cancelled sequence target found _ => some ((sequence, target), found)
    | _ => none

def unlinkReplies (log : List Event) : List (ℕ × Bool) :=
  log.filterMap fun e => match e with
    | .retUnlink sequence found _ => some (sequence, found)
    | _ => none

def replies (log : List Event) : List (List UInt8) :=
  log.filterMap fun e => match e with
    | .retSubmit _ _ bytes | .retUnlink _ _ bytes => some bytes
    | _ => none

/-- What the socket took. -/
def sent (log : List Event) : List UInt8 :=
  log.flatMap fun e => match e with
    | .written bytes => bytes
    | _ => []

variable (log log' : List Event)

@[simp] theorem returned_append : returned (log ++ log') = returned log ++ returned log' :=
  List.filterMap_append

@[simp] theorem withdrawn_append : withdrawn (log ++ log') = withdrawn log ++ withdrawn log' :=
  List.flatMap_append

@[simp] theorem submitted_append : submitted (log ++ log') = submitted log ++ submitted log' :=
  List.filterMap_append

@[simp] theorem unlinks_append : unlinks (log ++ log') = unlinks log ++ unlinks log' :=
  List.filterMap_append

@[simp] theorem cancellations_append :
    cancellations (log ++ log') = cancellations log ++ cancellations log' := List.filterMap_append

@[simp] theorem unlinkReplies_append :
    unlinkReplies (log ++ log') = unlinkReplies log ++ unlinkReplies log' := List.filterMap_append

@[simp] theorem replies_append : replies (log ++ log') = replies log ++ replies log' :=
  List.filterMap_append

@[simp] theorem sent_append : sent (log ++ log') = sent log ++ sent log' := List.flatMap_append

end Logs

section Phases

/-- The transfer whose ticket is spent and whose reply is not queued yet. -/
def unanswered : Phase → List Ticket
  | .completing s _ | .counted s => [s.ticket]
  | _ => []

def admitting : Phase → List ℕ
  | .commanded _ (.submit submit) => [submit.header.sequence]
  | _ => []

def unlinking : Phase → List (ℕ × ℕ)
  | .commanded _ (.unlink sequence target) => [(sequence, target)]
  | _ => []

def owing : Phase → List (ℕ × Bool)
  | .cancelled sequence found => [(sequence, found)]
  | _ => []

end Phases

/-- Every transfer that was accepted is answered, being answered, or waiting. -/
def Fates (log : List Event) (L : Ledger) : Prop :=
  (accepted log).Perm
    (returned log ++ withdrawn log ++ (unanswered L.phase ++ tickets L.pending))

/-- Every command was carried out, but for the one in hand. -/
structure Obeyed (log : List Event) (L : Ledger) : Prop where
  submits : submitted log = (accepted log).map Ticket.sequence ++ admitting L.phase
  cancels : unlinks log = (cancellations log).map Prod.fst ++ unlinking L.phase
  answers : (cancellations log).map (fun c => (c.1.1, c.2)) = unlinkReplies log ++ owing L.phase
  sequence_lt : ∀ u ∈ unlinks log, u.1 < 2 ^ 32

/-- What the socket took and what still waits are the replies, in order. -/
def Paid (log : List Event) (L : Ledger) : Prop :=
  sent log ++ L.unsent = (replies log).flatten

/-- A transfer is due a second after it came. -/
def Dated (log : List Event) (L : Ledger) : Prop :=
  ∀ now s, .admitted now s ∈ log → ∀ e ∈ L.pending.live, e.ticket = s.ticket →
    e.deadline = now + 1000000

section Steps

variable {device capacity : ℕ} {profile : Profile} {prior : List PcmQueue.Label}
variable {log : List Event} {L L' : Ledger} {e : Event}

theorem returns_held {s : Slot} {status : ℤ} {data : List UInt8} {counted : Bool}
    (h : Returns L s status data counted) : L.phase.held = [s] := by
  cases counted with
  | true =>
    rw [h.1]
    rfl
  | false =>
    obtain ⟨⟨applied, hph⟩, _⟩ := h
    rw [hph]
    rfl

theorem returns_unanswered {s : Slot} {status : ℤ} {data : List UInt8} {counted : Bool}
    (h : Returns L s status data counted) : unanswered L.phase = [s.ticket] := by
  cases counted with
  | true =>
    rw [h.1]
    rfl
  | false =>
    obtain ⟨⟨applied, hph⟩, _⟩ := h
    rw [hph]
    rfl

theorem Fates.step (h : Fates log L)
    (hp : (unanswered L.phase ++ tickets L.pending ++ accepted [e]).Perm
      (returned [e] ++ withdrawn [e] ++ (unanswered L'.phase ++ tickets L'.pending))) :
    Fates (log ++ [e]) L' := by
  unfold Fates at *
  rw [accepted_append, returned_append, withdrawn_append]
  have hw : (withdrawn log ++ returned [e]).Perm (returned [e] ++ withdrawn log) :=
    List.perm_append_comm
  refine (h.append_right (accepted [e])).trans ?_
  rw [List.append_assoc]
  refine (hp.append_left (returned log ++ withdrawn log)).trans ?_
  have hmid := (hw.append_left (returned log)).append_right
    (withdrawn [e] ++ (unanswered L'.phase ++ tickets L'.pending))
  simp only [List.append_assoc] at hmid ⊢
  exact hmid

theorem Fates.keep (h : Fates log L) (ha : accepted [e] = []) (hr : returned [e] = [])
    (hw : withdrawn [e] = []) (hu : unanswered L'.phase = unanswered L.phase)
    (hp : tickets L'.pending = tickets L.pending) : Fates (log ++ [e]) L' := by
  apply h.step
  rw [ha, hr, hw, hu, hp, List.append_nil]
  exact List.Perm.refl _

/-- What an unlink takes out of the table is what it takes out of the slots. -/
theorem unlink_perm {bytes : List UInt8} {sequence target : ℕ} {found : Bool} {pending : Pending}
    (hs : Sound device profile capacity prior log L)
    (hph : L.phase = .commanded bytes (.unlink sequence target))
    (hu : unlink target L.pending = (found, pending)) :
    (tickets L.pending).Perm
      ((L.slots.filter (·.ticket.sequence = target)).map Slot.ticket ++ tickets pending) := by
  have hagree := hs.agree
  rw [hph] at hagree
  have hgone : ((L.slots.filter (·.ticket.sequence = target)).map Slot.ticket).Perm
      ((tickets L.pending).filter (·.sequence = target)) := by
    have hf := hagree.filter (fun t => decide (t.sequence = target))
    rw [List.filter_map] at hf
    exact hf
  have hsplit := List.filter_append_perm (fun t => decide (t.sequence = target)) (tickets L.pending)
  refine hsplit.symm.trans ?_
  exact hgone.symm.append (unlink_tickets hs.pending hu).symm

theorem step_fates (hs : Sound device profile capacity prior log L) (h : Fates log L)
    (st : Step device profile L e L') : Fates (log ++ [e]) L' := by
  cases st with
  | received bytes hph => exact h.keep rfl rfl rfl rfl rfl
  | command request hph _ => exact h.keep rfl rfl rfl (by rw [hph]; rfl) rfl
  | @admitted bytes submit now ticket pending a b hph hd hi _ =>
    rcases insert_spec hi with ⟨error, he, _⟩ | ⟨entry, he, _, _, _, _, _, _, hperm, _⟩
    · cases he
    · obtain rfl := Except.ok.inj he
      have htickets : (tickets pending).Perm (entry.ticket :: tickets L.pending) :=
        hperm.map Entry.ticket
      apply h.step
      rw [hph, accepted_one rfl]
      exact (List.perm_append_singleton _ _).trans htickets.symm
  | @cancelled bytes sequence target found pending hph hu =>
    have hperm := unlink_perm hs hph hu
    apply h.step
    rw [hph, show accepted [Event.cancelled sequence target found _] = [] from rfl,
      List.append_nil]
    change (tickets L.pending).Perm
      ((L.slots.filter (·.ticket.sequence = target)).map Slot.ticket ++ [] ++ tickets pending)
    rw [List.append_nil]
    exact hperm
  | retUnlink hph => exact h.keep rfl rfl rfl (by rw [hph]; rfl) rfl
  | microphone _ _ => exact h.keep rfl rfl rfl rfl rfl
  | captured _ _ _ _ _ _ => exact h.keep rfl rfl rfl rfl rfl
  | @completing s now header pending hph _ _ _ hc =>
    rcases complete_spec hc with ⟨error, he, _⟩ | ⟨entry, _, _, hticket, _, hperm, _⟩
    · cases he
    · have ht : (tickets L.pending).Perm (s.ticket :: tickets pending) := by
        rw [← hticket]
        exact hperm.map Entry.ticket
      apply h.step
      rw [hph, show accepted [Event.completing now s] = [] from rfl, List.append_nil]
      exact ht
  | control hph _ _ => exact h.keep rfl rfl rfl (by rw [hph]; rfl) rfl
  | counted hph _ => exact h.keep rfl rfl rfl (by rw [hph]; rfl) rfl
  | @retSubmit s submit n status data actual isoActual bytes counted hr _ _ =>
    have hun := returns_unanswered hr
    apply h.step
    rw [hun, show accepted [Event.retSubmit s status bytes] = [] from rfl, List.append_nil]
    exact List.Perm.refl _
  | delivered hph _ => exact h.keep rfl rfl rfl (by rw [hph]; rfl) rfl
  | written _ => exact h.keep rfl rfl rfl rfl rfl
  | @checked now pending hph hx =>
    have hlive : tickets pending = tickets L.pending := by
      rcases expire_spec hx with ⟨_, he, _⟩ | ⟨_, _, rfl, _⟩ | ⟨_, he, _⟩
      · cases he
      · rfl
      · cases he
    exact h.keep rfl rfl rfl rfl hlive

theorem Obeyed.step (h : Obeyed log L)
    (hs : admitting L.phase ++ submitted [e] =
      (accepted [e]).map Ticket.sequence ++ admitting L'.phase)
    (hu : unlinking L.phase ++ unlinks [e] =
      (cancellations [e]).map Prod.fst ++ unlinking L'.phase)
    (hr : owing L.phase ++ (cancellations [e]).map (fun c => (c.1.1, c.2)) =
      unlinkReplies [e] ++ owing L'.phase)
    (hlt : ∀ u ∈ unlinks [e], u.1 < 2 ^ 32) : Obeyed (log ++ [e]) L' := by
  constructor
  · rw [submitted_append, accepted_append, List.map_append, h.submits, List.append_assoc, hs,
      List.append_assoc]
  · rw [unlinks_append, cancellations_append, List.map_append, h.cancels, List.append_assoc, hu,
      List.append_assoc]
  · rw [cancellations_append, unlinkReplies_append, List.map_append, h.answers,
      List.append_assoc, hr, List.append_assoc]
  · intro u hmem
    rw [unlinks_append] at hmem
    rcases List.mem_append.mp hmem with hmem | hmem
    · exact h.sequence_lt u hmem
    · exact hlt u hmem

/-- Events that are neither commands nor their execution. -/
theorem Obeyed.keep (h : Obeyed log L) (hs : submitted [e] = []) (ha : accepted [e] = [])
    (hu : unlinks [e] = []) (hc : cancellations [e] = []) (hr : unlinkReplies [e] = [])
    (hi : admitting L'.phase = admitting L.phase) (hk : unlinking L'.phase = unlinking L.phase)
    (ho : owing L'.phase = owing L.phase) : Obeyed (log ++ [e]) L' := by
  apply h.step
  · rw [hs, ha, hi]
    exact List.append_nil _
  · rw [hu, hc, hk]
    exact List.append_nil _
  · rw [hc, hr, ho]
    exact List.append_nil _
  · rw [hu]
    intro u hmem
    cases hmem

/-- The phases of a transfer in hand owe nothing to a command. -/
theorem Obeyed.held {s : Slot} (h : Obeyed log L) (hs : submitted [e] = [])
    (ha : accepted [e] = []) (hu : unlinks [e] = []) (hc : cancellations [e] = [])
    (hr : unlinkReplies [e] = []) (hi : L.phase = .idle ∨ L.phase.held = [s])
    (hi' : L'.phase = .idle ∨ L'.phase.held = [s]) : Obeyed (log ++ [e]) L' := by
  have hnone : ∀ phase : Phase, phase = .idle ∨ phase.held = [s] →
      admitting phase = [] ∧ unlinking phase = [] ∧ owing phase = [] := by
    rintro (_ | _ | _ | _ | _ | _) hp
    case commanded | cancelled =>
      rcases hp with hp | hp
      · cases hp
      · cases hp
    all_goals exact ⟨rfl, rfl, rfl⟩
  obtain ⟨h₁, h₂, h₃⟩ := hnone _ hi
  obtain ⟨h₁', h₂', h₃'⟩ := hnone _ hi'
  exact h.keep hs ha hu hc hr (h₁'.trans h₁.symm) (h₂'.trans h₂.symm) (h₃'.trans h₃.symm)

theorem step_obeyed (h : Obeyed log L) (st : Step device profile L e L') :
    Obeyed (log ++ [e]) L' := by
  cases st with
  | received bytes hph => exact h.keep rfl rfl rfl rfl rfl rfl rfl rfl
  | command request hph hd =>
    obtain ⟨header, hh, _, _, hm⟩ := decode_ok hd
    cases request with
    | submit submit =>
      apply h.step
      · rw [hph]
        rfl
      · rw [hph]
        rfl
      · rw [hph]
        rfl
      · intro u hmem
        cases hmem
    | unlink sequence target =>
      apply h.step
      · rw [hph]
        rfl
      · rw [hph]
        rfl
      · rw [hph]
        rfl
      · intro u hmem
        rw [List.mem_singleton.mp hmem, hm.1]
        exact (Header.decode_ok hh).sequence_lt
  | @admitted bytes submit now ticket pending a b hph hd hi _ =>
    rcases insert_spec hi with ⟨error, he, _⟩ | ⟨entry, he, _, _, hentry, _⟩
    · cases he
    · obtain rfl := Except.ok.inj he
      apply h.step
      · rw [hph, accepted_one rfl, hentry]
        rfl
      · rw [hph]
        rfl
      · rw [hph]
        rfl
      · intro u hmem
        cases hmem
  | cancelled hph hu =>
    apply h.step
    · rw [hph]
      rfl
    · rw [hph]
      rfl
    · rw [hph]
      rfl
    · intro u hmem
      cases hmem
  | retUnlink hph =>
    apply h.step
    · rw [hph]
      rfl
    · rw [hph]
      rfl
    · rw [hph]
      rfl
    · intro u hmem
      cases hmem
  | microphone _ _ => exact h.keep rfl rfl rfl rfl rfl rfl rfl rfl
  | captured _ _ _ _ _ _ => exact h.keep rfl rfl rfl rfl rfl rfl rfl rfl
  | @completing s now header pending hph _ _ _ _ =>
    exact h.held (s := s) rfl rfl rfl rfl rfl (.inl hph) (.inr rfl)
  | @control s submit n hph _ _ =>
    exact h.held (s := s) rfl rfl rfl rfl rfl (.inr (by rw [hph]; rfl)) (.inr rfl)
  | @counted s applied hph _ =>
    exact h.held (s := s) rfl rfl rfl rfl rfl (.inr (by rw [hph]; rfl)) (.inr rfl)
  | @retSubmit s submit n status data actual isoActual bytes counted hr _ _ =>
    exact h.held (s := s) rfl rfl rfl rfl rfl (.inr (returns_held hr)) (.inr rfl)
  | @delivered a s b counted status hph _ =>
    exact h.held (s := s) rfl rfl rfl rfl rfl (.inr (by rw [hph]; rfl)) (.inl rfl)
  | written _ => exact h.keep rfl rfl rfl rfl rfl rfl rfl rfl
  | checked _ _ => exact h.keep rfl rfl rfl rfl rfl rfl rfl rfl

theorem Paid.keep (h : Paid log L) (hs : sent [e] = []) (hr : replies [e] = [])
    (hu : L'.unsent = L.unsent) : Paid (log ++ [e]) L' := by
  unfold Paid at *
  rw [sent_append, hs, replies_append, hr, hu]
  simpa using h

theorem Paid.reply {bytes : List UInt8} (h : Paid log L) (hs : sent [e] = [])
    (hr : replies [e] = [bytes]) (hu : L'.unsent = L.unsent ++ bytes) : Paid (log ++ [e]) L' := by
  unfold Paid at *
  rw [sent_append, hs, List.append_nil, replies_append, hr, hu, ← List.append_assoc, h]
  simp

theorem step_paid (h : Paid log L) (st : Step device profile L e L') : Paid (log ++ [e]) L' := by
  cases st with
  | retUnlink _ => exact h.reply rfl rfl rfl
  | retSubmit _ _ _ => exact h.reply rfl rfl rfl
  | @written bytes rest hrest =>
    unfold Paid at *
    rw [hrest] at h
    rw [sent_append, replies_append]
    change sent log ++ (bytes ++ []) ++ rest = (replies log ++ []).flatten
    rw [List.append_nil, List.append_nil, List.append_assoc]
    exact h
  | _ => exact h.keep rfl rfl rfl

theorem Dated.keep (h : Dated log L) (hn : ∀ now s, e ≠ .admitted now s)
    (hp : ∀ x ∈ L'.pending.live, x ∈ L.pending.live) : Dated (log ++ [e]) L' := by
  intro now s hmem x hx hticket
  rcases List.mem_append.mp hmem with hmem | hmem
  · exact h now s hmem x (hp x hx) hticket
  · exact absurd (List.mem_singleton.mp hmem).symm (hn now s)

theorem mem_accepted {now : ℕ} {s : Slot} (h : .admitted now s ∈ log) :
    s.ticket ∈ accepted log :=
  List.mem_filterMap.mpr ⟨_, h, rfl⟩

theorem step_dated (hs : Sound device profile capacity prior log L) (h : Dated log L)
    (st : Step device profile L e L') : Dated (log ++ [e]) L' := by
  cases st with
  | @admitted bytes submit now ticket pending a b hph hd hi _ =>
    rcases insert_spec hi with ⟨error, he, _⟩ | ⟨entry, he, _, _, hentry, _, _, _, hperm, _⟩
    · cases he
    · obtain rfl := Except.ok.inj he
      -- the new ticket is younger than every one before it
      have hnew : ∀ t ∈ accepted log, t ≠ entry.ticket := by
        intro t ht heq
        have hle := hs.pending.generations t ht
        rw [heq, hentry] at hle
        exact absurd hle (Nat.not_succ_le_self _)
      intro now' s hmem x hx hticket
      rcases List.mem_cons.mp (hperm.mem_iff.mp hx) with rfl | hx
      · rcases List.mem_append.mp hmem with hmem | hmem
        · exact absurd hticket.symm (hnew _ (mem_accepted hmem))
        · obtain ⟨rfl, _⟩ := Event.admitted.inj (List.mem_singleton.mp hmem)
          rw [hentry]
      · rcases List.mem_append.mp hmem with hmem | hmem
        · exact h now' s hmem x hx hticket
        · obtain ⟨_, rfl⟩ := Event.admitted.inj (List.mem_singleton.mp hmem)
          exact absurd hticket (hnew _ (hs.pending.live_issued x hx))
  | @cancelled bytes sequence target found pending hph hu =>
    apply h.keep
    · intro now s he
      cases he
    · intro x hx
      rcases unlink_spec hu with ⟨_, rfl, _⟩ | ⟨_, entry, _, hperm, _⟩
      · exact hx
      · exact hperm.mem_iff.mpr (List.mem_cons_of_mem _ hx)
  | @completing s now header pending hph _ _ _ hc =>
    apply h.keep
    · intro now s he
      cases he
    · intro x hx
      rcases complete_spec hc with ⟨error, he, _⟩ | ⟨entry, _, _, _, _, hperm, _⟩
      · cases he
      · exact hperm.mem_iff.mpr (List.mem_cons_of_mem _ hx)
  | @checked now pending hph hx =>
    apply h.keep
    · intro now s he
      cases he
    · intro x hmem
      rcases expire_spec hx with ⟨_, he, _⟩ | ⟨_, _, rfl, _⟩ | ⟨_, he, _⟩
      · cases he
      · exact hmem
      · cases he
  | _ => exact h.keep (fun _ _ he => by cases he) (fun _ hx => hx)

/-- Replies say whom they answer, and only requests are answered. -/
structure Worded (log : List Event) : Prop where
  submits : ∀ s status bytes, .retSubmit s status bytes ∈ log →
    Replies 3 s.ticket.sequence status bytes.length bytes
  unlinks : ∀ sequence found bytes, .retUnlink sequence found bytes ∈ log →
    Replies 4 sequence (if found then -104 else 0) headerBytes bytes

theorem Worded.keep (h : Worded log) (hr : replies [e] = []) : Worded (log ++ [e]) := by
  constructor
  · intro s status bytes hmem
    rcases List.mem_append.mp hmem with hmem | hmem
    · exact h.submits s status bytes hmem
    · rw [← List.mem_singleton.mp hmem] at hr
      cases hr
  · intro sequence found bytes hmem
    rcases List.mem_append.mp hmem with hmem | hmem
    · exact h.unlinks sequence found bytes hmem
    · rw [← List.mem_singleton.mp hmem] at hr
      cases hr

theorem step_worded (hs : Sound device profile capacity prior log L) (ho : Obeyed log L)
    (h : Worded log) (st : Step device profile L e L') : Worded (log ++ [e]) := by
  cases st with
  | @retUnlink sequence found hph =>
    have hlt : sequence < 2 ^ 32 := by
      have hmem : (sequence, found) ∈ (cancellations log).map (fun c => (c.1.1, c.2)) := by
        rw [ho.answers, hph]
        exact List.mem_append_right _ (List.mem_singleton_self _)
      obtain ⟨c, hc, heq⟩ := List.mem_map.mp hmem
      have hu : c.1 ∈ unlinks log := by
        rw [ho.cancels]
        exact List.mem_append_left _ (List.mem_map_of_mem hc)
      have hlt := ho.sequence_lt _ hu
      rw [(Prod.mk.inj heq).1] at hlt
      exact hlt
    constructor
    · intro s status bytes hmem
      rcases List.mem_append.mp hmem with hmem | hmem
      · exact h.submits s status bytes hmem
      · cases List.mem_singleton.mp hmem
    · intro sequence' found' bytes hmem
      rcases List.mem_append.mp hmem with hmem | hmem
      · exact h.unlinks sequence' found' bytes hmem
      · obtain ⟨rfl, rfl, rfl⟩ := Event.retUnlink.inj (List.mem_singleton.mp hmem)
        exact unlinkBytes_replies found' hlt
  | @retSubmit s submit n status data actual isoActual bytes counted hr hd he =>
    have hmem : s ∈ L.slots := by
      refine hs.held_live s ?_
      rw [returns_held hr]
      exact List.mem_singleton_self s
    obtain ⟨submit', hd', hseq, _⟩ := (hs.filled s hmem).holds
    rw [hd] at hd'
    obtain rfl := Request.submit.inj (Prod.mk.inj (Except.ok.inj hd')).1
    constructor
    · intro s' status' bytes' hmem
      rcases List.mem_append.mp hmem with hmem | hmem
      · exact h.submits s' status' bytes' hmem
      · obtain ⟨rfl, rfl, rfl⟩ := Event.retSubmit.inj (List.mem_singleton.mp hmem)
        rw [hseq]
        exact encode_status hd he
    · intro sequence found bytes' hmem
      rcases List.mem_append.mp hmem with hmem | hmem
      · exact h.unlinks sequence found bytes' hmem
      · cases List.mem_singleton.mp hmem
  | _ => exact h.keep rfl

end Steps

section Runs

variable {device capacity : ℕ} {profile : Profile} {prior : List PcmQueue.Label}
variable {log : List Event} {L : Ledger} {microphone : PcmQueue.Queue}

/-- What a run keeps. -/
structure Kept (log : List Event) (L : Ledger) : Prop where
  fates : Fates log L
  obeyed : Obeyed log L
  paid : Paid log L
  dated : Dated log L
  worded : Worded log

theorem run_kept (ho : Origin profile capacity prior microphone)
    (h : Run (Step device profile) (Ledger.new device microphone) log L) : Kept log L := by
  induction h with
  | nil =>
    have hlive : (Pending.new device).live = [] := SlotTable.live_replicate_none _
    constructor
    · unfold Fates tickets Ledger.new
      rw [hlive]
      exact List.Perm.refl _
    · refine ⟨rfl, rfl, rfl, ?_⟩
      intro u hmem
      cases hmem
    · exact rfl
    · intro now s hmem
      cases hmem
    · refine ⟨?_, ?_⟩
      · intro s status bytes hmem
        cases hmem
      · intro sequence found bytes hmem
        cases hmem
  | snoc hrun st ih =>
    have hs := ho.sound hrun
    constructor
    · exact step_fates hs ih.fates st
    · exact step_obeyed ih.obeyed st
    · exact step_paid ih.paid st
    · exact step_dated hs ih.dated st
    · exact step_worded hs ih.obeyed ih.worded st

theorem accepted_nodup (hs : Sound device profile capacity prior log L) : (accepted log).Nodup := by
  refine hs.pending.ascending.imp ?_
  intro t t' hlt heq
  rw [heq] at hlt
  exact Nat.lt_irrefl _ hlt

theorem Fates.nodup (h : Fates log L) (hs : Sound device profile capacity prior log L) :
    (returned log ++ withdrawn log ++ (unanswered L.phase ++ tickets L.pending)).Nodup :=
  h.nodup_iff.mp (accepted_nodup hs)

/-- What is still in the table is exactly what has no answer yet. -/
theorem Fates.waiting (h : Fates log L) (hs : Sound device profile capacity prior log L)
    (hun : unanswered L.phase = []) (t : Ticket) :
    t ∈ tickets L.pending ↔ t ∈ accepted log ∧ t ∉ returned log ++ withdrawn log := by
  have hnd := h.nodup hs
  rw [hun, List.nil_append] at hnd
  have hmem := h.mem_iff (a := t)
  rw [hun, List.nil_append] at hmem
  rw [hmem, List.mem_append]
  constructor
  · intro ht
    exact ⟨.inr ht, fun hin => List.disjoint_of_nodup_append hnd hin ht⟩
  · rintro ⟨hin | hin, hnot⟩
    · exact absurd hin hnot
    · exact hin

/-- An unlink finds its target exactly when that still waits for an answer. -/
theorem cancelled_finds {a : List Event} {sequence target : ℕ} {found : Bool} {gone : List Slot}
    (ho : Origin profile capacity prior microphone)
    (h : Run (Step device profile) (Ledger.new device microphone)
      (a ++ [.cancelled sequence target found gone]) L) :
    (found = true ↔ ∃ t ∈ accepted a, t.sequence = target ∧ t ∉ returned a ++ withdrawn a) ∧
      gone.map (·.ticket.sequence) = if found then [target] else [] := by
  obtain ⟨L₀, hrun, st⟩ := run_snoc.mp h
  have hs := ho.sound hrun
  have hk := run_kept ho hrun
  cases st with
  | @cancelled bytes _ _ _ pending hph hu =>
    have hwait := hk.fates.waiting hs (by rw [hph]; rfl)
    have hperm := unlink_perm hs hph hu
    have hsub := (hperm.map Ticket.sequence)
    rw [List.map_append, List.map_map] at hsub
    constructor
    · constructor
      · rintro rfl
        rcases unlink_spec hu with ⟨hf, _⟩ | ⟨_, entry, hseq, hp, _⟩
        · cases hf
        · have hin : entry.ticket ∈ tickets L₀.pending :=
            List.mem_map_of_mem (hp.mem_iff.mpr (List.mem_cons_self))
          obtain ⟨hacc, hnot⟩ := (hwait _).mp hin
          exact ⟨_, hacc, hseq, hnot⟩
      · rintro ⟨t, hacc, hseq, hnot⟩
        obtain ⟨x, hx, rfl⟩ := List.mem_map.mp ((hwait t).mpr ⟨hacc, hnot⟩)
        rcases unlink_spec hu with ⟨_, _, hnone⟩ | ⟨hf, _⟩
        · exact absurd hseq (hnone x hx)
        · exact hf
    · have htail : ∀ t ∈ tickets pending, t.sequence ≠ target := by
        intro t ht
        have hf := (unlink_tickets hs.pending hu).mem_iff.mp ht
        have := (List.mem_filter.mp hf).2
        simpa using this
      rcases unlink_spec hu with ⟨rfl, rfl, hnone⟩ | ⟨rfl, entry, hseq, hp, _⟩
      · have hlen := hperm.length_eq
        rw [List.length_append, List.length_map] at hlen
        have hnil : L₀.slots.filter (·.ticket.sequence = target) = [] :=
          List.length_eq_zero_iff.mp (by omega)
        rw [hnil]
        rfl
      · have hlen := hperm.length_eq
        have hlen' := (hp.map Entry.ticket).length_eq
        rw [List.length_append, List.length_map] at hlen
        have hone : (L₀.slots.filter (·.ticket.sequence = target)).length = 1 := by
          unfold tickets at hlen
          simp only [List.map_cons, List.length_cons] at hlen'
          omega
        obtain ⟨s, hs₁⟩ := List.length_eq_one_iff.mp hone
        have hmem : s ∈ L₀.slots.filter (·.ticket.sequence = target) := by
          rw [hs₁]
          exact List.mem_singleton_self s
        have hseq' : s.ticket.sequence = target := by
          simpa using (List.mem_filter.mp hmem).2
        rw [hs₁]
        exact congrArg (fun n => [n]) hseq'

end Runs

/-- What holds of the answers in every log. -/
structure Answered (log : List Event) : Prop where
  accepted_once : (accepted log).Nodup
  /-- No transfer is completed twice, unlinked twice, or both. -/
  answered_once : (returned log ++ withdrawn log).Nodup
  answers_known : ∀ t ∈ returned log ++ withdrawn log, t ∈ accepted log
  /-- An unlink finds its target if that was neither completed nor unlinked before. -/
  finds : ∀ a b sequence target found gone,
    log = a ++ .cancelled sequence target found gone :: b →
      (found = true ↔
        ∃ t ∈ accepted a, t.sequence = target ∧ t ∉ returned a ++ withdrawn a) ∧
      gone.map (·.ticket.sequence) = if found then [target] else []
  completions : ∀ s status bytes, .retSubmit s status bytes ∈ log →
    Replies 3 s.ticket.sequence status bytes.length bytes
  unlinks : ∀ sequence found bytes, .retUnlink sequence found bytes ∈ log →
    Replies 4 sequence (if found then -104 else 0) headerBytes bytes
  /-- The socket gets the replies in order and nothing else. -/
  sent_in_order : sent log <+: (replies log).flatten

section Main

variable {device capacity : ℕ} {profile : Profile} {prior : List PcmQueue.Label}
variable {log : List Event} {L : Ledger} {microphone : PcmQueue.Queue}

theorem run_answered (ho : Origin profile capacity prior microphone)
    (h : Run (Step device profile) (Ledger.new device microphone) log L) : Answered log := by
  have hs := ho.sound h
  have hk := run_kept ho h
  have hnd := hk.fates.nodup hs
  constructor
  · exact accepted_nodup hs
  · exact hnd.of_append_left
  · intro t ht
    exact hk.fates.mem_iff.mpr (List.mem_append_left _ ht)
  · rintro a b sequence target found gone rfl
    rw [List.append_cons] at h
    obtain ⟨L₁, hrun, _⟩ := run_append.mp h
    exact cancelled_finds ho hrun
  · exact hk.worded.submits
  · exact hk.worded.unlinks
  · exact ⟨L.unsent, hk.paid⟩

variable {H K : Type} [HidHandler H] [Host K]
variable {format : PcmQueue.PcmFormat} {q₀ playback : PcmQueue.Queue} {host : K} {hid : H}
variable {nows : List ℕ} {w₀ w : Worker H K} {result : Except Failure Unit}

/-- A worker that goes on: every transfer is answered or still waits, in both tables. -/
structure Settled (nows : List ℕ) (w : Worker H K) : Prop where
  tables : (w.live.map Slot.ticket).Perm (tickets w.pending)
  distinct : (w.live.map Slot.ticket).Nodup
  fates : (accepted w.log).Perm (returned w.log ++ withdrawn w.log ++ w.live.map Slot.ticket)
  submits : submitted w.log = (accepted w.log).map Ticket.sequence
  unlinks : unlinks w.log = (cancellations w.log).map Prod.fst
  /-- Each unlink gets one reply, which tells what it found. -/
  unlink_replies : unlinkReplies w.log = (cancellations w.log).map fun c => (c.1.1, c.2)
  bytes : sent w.log ++ w.outgoing.unsent = (replies w.log).flatten
  due : ∀ last ∈ nows.getLast?, ∀ now s, .admitted now s ∈ w.log → now + 1000000 ≤ last →
    s.ticket ∈ returned w.log ++ withdrawn w.log

/-- Every transfer is answered exactly once: by its completion, or by the unlink that took it. -/
theorem transfers_answered_once (hq : PcmQueue.pcmQueue format capacity = .ok q₀)
    (hp : Run PcmQueue.Step q₀ prior microphone)
    (hn : UsbipWorker.new host device profile hid playback microphone = .ok w₀)
    (hr : runInner nows w₀ = (result, w)) :
    Answered w.log ∧ (result = .ok () → Settled nows w) := by
  obtain ⟨ho, ⟨L, hrun, _⟩, hok⟩ := runInner_traces hq hp hn hr
  refine ⟨run_answered ho hrun, ?_⟩
  intro hresult
  obtain ⟨hsteady, htimely⟩ := hok hresult
  have hrun := hsteady.tracks.run
  have hs := ho.sound hrun
  have hk := run_kept ho hrun
  have hagree : (w.live.map Slot.ticket).Perm (tickets w.pending) := hs.agree
  have hfates : (accepted w.log).Perm (returned w.log ++ withdrawn w.log ++ tickets w.pending) :=
    hk.fates
  constructor
  · exact hagree
  · exact hs.unique
  · exact hfates.trans (hagree.symm.append_left _)
  · exact hk.obeyed.submits.trans (List.append_nil _)
  · exact hk.obeyed.cancels.trans (List.append_nil _)
  · exact (hk.obeyed.answers.trans (List.append_nil _)).symm
  · exact hk.paid
  · intro last hlast now s hmem hle
    have hacc := mem_accepted hmem
    rcases List.mem_append.mp (hfates.mem_iff.mp hacc) with hin | hin
    · exact hin
    · obtain ⟨x, hx, heq⟩ := List.mem_map.mp hin
      have hd := hk.dated now s hmem x hx heq
      have hlt := htimely last hlast x hx
      omega

/-- A transfer that arrives in two pieces, its unlink, and a second unlink that comes too late. -/
def cutAndUnlinked : Script :=
  let frame := submitFrame 1 1 3 64 0 (List.replicate 8 0)
  ⟨[frame.take 20, frame.drop 20, unlinkFrame 2 1, unlinkFrame 3 1], []⟩

theorem transfers_answered_once_unlinked : ∃ w : Worker Mute Script,
    cancellations w.log = [((2, 1), true), ((3, 1), false)] ∧ Answered w.log ∧ Settled [0] w := by
  obtain ⟨w₀, hn, hf⟩ := rehearse_ok cutAndUnlinked
    (fun w => ((runInner [0] w).1, cancellations (runInner [0] w).2.log))
    (b := (.ok (), [((2, 1), true), ((3, 1), false)])) (by decide +kernel)
  obtain ⟨hok, hlog⟩ := Prod.mk.inj hf
  rcases hr : runInner [0] w₀ with ⟨result, w⟩
  rw [hr] at hok hlog
  obtain ⟨ha, hs⟩ := transfers_answered_once (pcmQueue_mono .microphone) .nil hn hr
  exact ⟨w, hlog, ha, hs hok⟩

end Main

end UsbipWorkerAnswers
