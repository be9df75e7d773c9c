import VirtualGamepad.UsbipWorker
import VirtualGamepad.UsbipPendingTickets
import VirtualGamepad.PcmQueueDelivery

/-! The books of a worker, as a machine over its log: what was received, which transfers wait,
what the microphone gave, and how far the transfer in hand has come. Every theorem about the
worker's runs is proved of this machine. -/
namespace UsbipWorkerLedger

open Fallible Runs WireBytes UsbipFrame UsbipPending UsbipControl UsbipWorker
open UsbipPendingTickets (tickets)

/-- The microphone counters. -/
structure Books where
  consumed : ℕ
  silence : ℕ
  host : ℕ
  reported : ℕ
  abandoned : ℕ
  deriving DecidableEq, Repr

/-- The frame or the transfer that is being worked on. -/
inductive Phase where
  | idle
  | commanded (bytes : List UInt8) (request : Request)
  | cancelled (sequence : ℕ) (found : Bool)
  | completing (slot : Slot) (applied : Bool)
  | counted (slot : Slot)
  | replied (slot : Slot) (status : ℤ) (counted : Bool)
  deriving DecidableEq

@[ext] structure Ledger where
  receive : List UInt8
  slots : List Slot
  pending : Pending
  control : ControlState
  microphone : PcmQueue.Queue
  unsent : List UInt8
  nextOrder : ℕ
  books : Books
  phase : Phase

def Ledger.new (device : ℕ) (microphone : PcmQueue.Queue) : Ledger :=
  ⟨[], [], .new device, .default, microphone, [], 0, ⟨0, 0, 0, 0, 0⟩, .idle⟩

/-- The transfer whose ticket is spent and whose slot is not free yet. -/
def Phase.held : Phase → List Slot
  | .completing s _ | .counted s | .replied s _ _ => [s]
  | _ => []

/-- No live transfer is due before this one. -/
def Selected (L : Ledger) (s : Slot) : Prop :=
  ∀ t ∈ L.slots, ¬ SlotTable.Earlier (t.key L.control) (s.key L.control)

/-- Operations of the queue's other end. -/
inductive Produces : PcmQueue.Label → Prop where
  | push (samples result) : Produces (.push samples result)
  | discard (frames result) : Produces (.discard frames result)
  | flush (result) : Produces (.flush result)
  | close : Produces .close

def silent (profile : Profile) : List Int16 := List.replicate (48 * profile.microphoneChannels) 0

def Slot.capture (s : Slot) (samples : List Int16) : Slot :=
  { s with captured := s.captured + 1, captureData := s.captureData ++ sampleBytes samples }

/-- A submitted transfer as it enters its slot. -/
def freshSlot (L : Ledger) (bytes : List UInt8) (header : Header) (ticket : Ticket) (now : ℕ) : Slot where
  bytes := bytes
  ticket := ticket
  ready := latestReady L.slots (streamOf header) now + delayOf header
  order := L.nextOrder
  stream := streamOf header
  capturePackets := captureCount header
  captured := 0
  captureData := []

/-- What the status of a reply says about the transfer: data of a capture transfer is what its
slot collected, and a transfer that fails or is not a capture was not counted. -/
def Returns (L : Ledger) (s : Slot) (status : ℤ) (data : List UInt8) (counted : Bool) : Prop :=
  match counted with
  | true => L.phase = .counted s ∧ status = 0 ∧ data = s.captureData
  | false => (∃ applied, L.phase = .completing s applied) ∧ (status ≠ 0 ∨ s.captured = 0)

inductive Step (device : ℕ) (profile : Profile) : Ledger → Event → Ledger → Prop where
  | received {L} (bytes : List UInt8) : L.phase = .idle →
    Step device profile L (.received bytes) { L with receive := L.receive ++ bytes }
  | command {L} (request : Request) : L.phase = .idle →
    decode L.receive device = .ok (request, L.receive.length) →
    Step device profile L (.command request)
      { L with receive := [], phase := .commanded L.receive request }
  | admitted {L bytes submit now ticket pending a b} :
    L.phase = .commanded bytes (.submit submit) →
    decode bytes device = .ok (.submit submit, bytes.length) →
    insert submit.header now 1000000 L.pending = (.ok ticket, pending) →
    L.slots = a ++ b →
    Step device profile L (.admitted now (freshSlot L bytes submit.header ticket now))
      { L with
        pending, nextOrder := L.nextOrder + 1, phase := .idle
        slots := a ++ freshSlot L bytes submit.header ticket now :: b }
  | cancelled {L bytes sequence target found pending} :
    L.phase = .commanded bytes (.unlink sequence target) →
    unlink target L.pending = (found, pending) →
    Step device profile L
      (.cancelled sequence target found (L.slots.filter (·.ticket.sequence = target)))
      { L with
        pending, phase := .cancelled sequence found
        slots := L.slots.filter (fun s => !decide (s.ticket.sequence = target))
        books := { L.books with abandoned := L.books.abandoned +
          ((L.slots.filter (·.ticket.sequence = target)).map Slot.frames).sum } }
  | retUnlink {L sequence found} : L.phase = .cancelled sequence found →
    Step device profile L (.retUnlink sequence found (unlinkBytes sequence found))
      { L with unsent := L.unsent ++ unlinkBytes sequence found, phase := .idle }
  | microphone {L label q} : Produces label → PcmQueue.Step L.microphone label q →
    Step device profile L (.microphone label) { L with microphone := q }
  | captured {L a s b read samples q} : L.phase = .idle → L.slots = a ++ s :: b →
    L.control.microphoneActive → s.captured < s.capturePackets → Selected L s →
    PcmQueue.read (silent profile) L.microphone = (.ok (read, samples), q) →
    Step device profile L (.captured s read samples)
      { L with
        microphone := q, slots := a ++ Slot.capture s samples :: b
        books := { L.books with
          consumed := L.books.consumed + read.frames
          silence := L.books.silence + (48 - read.frames)
          host := L.books.host + 48 } }
  | completing {L s now header pending} : L.phase = .idle → s ∈ L.slots → Selected L s →
    captureDue L.control s = none → complete s.ticket now L.pending = (.ok header, pending) →
    Step device profile L (.completing now s) { L with pending, phase := .completing s false }
  | control {L s submit n} : L.phase = .completing s false →
    decode s.bytes device = .ok (.submit submit, n) → submit.header.endpoint = 0 →
    Step device profile L (.control s submit.header.setup submit.payload)
      { L with
        control := (handle profile submit.header.setup submit.payload L.control).2
        phase := .completing s true }
  | counted {L s applied} : L.phase = .completing s applied → s.captured = s.capturePackets →
    Step device profile L (.counted s s.frames)
      { L with
        phase := .counted s, books := { L.books with reported := L.books.reported + s.frames } }
  | retSubmit {L s submit n status data actual isoActual bytes counted} :
    Returns L s status data counted → decode s.bytes device = .ok (.submit submit, n) →
    submit.encode status data actual isoActual = .ok bytes →
    Step device profile L (.retSubmit s status bytes)
      { L with unsent := L.unsent ++ bytes, phase := .replied s status counted }
  | delivered {L a s b counted} {status : ℤ} : L.phase = .replied s status counted →
    L.slots = a ++ s :: b →
    Step device profile L (.delivered s (status ≠ 0))
      { L with
        phase := .idle, slots := a ++ b
        books := { L.books with
          abandoned := L.books.abandoned + if status ≠ 0 then s.frames else 0 } }
  | written {L bytes rest} : L.unsent = bytes ++ rest →
    Step device profile L (.written bytes) { L with unsent := rest }
  | checked {L now pending} : L.phase = .idle → expire now L.pending = (.ok none, pending) →
    Step device profile L (.checked now) { L with pending }

/-- The tickets of the transfers that were accepted, in order. -/
def accepted (log : List Event) : List Ticket :=
  log.filterMap fun e => match e with
    | .admitted _ slot => some slot.ticket
    | _ => none

@[simp] theorem accepted_append (log log' : List Event) :
    accepted (log ++ log') = accepted log ++ accepted log' := List.filterMap_append

/-- The operations on the microphone queue, those of its producer included. -/
def microphoneLog (log : List Event) : List PcmQueue.Label :=
  log.filterMap fun e => match e with
    | .microphone label => some label
    | .captured _ read samples =>
      some (.read (List.replicate samples.length 0) (.ok (read, samples)))
    | _ => none

@[simp] theorem microphoneLog_append (log log' : List Event) :
    microphoneLog (log ++ log') = microphoneLog log ++ microphoneLog log' := List.filterMap_append

/-- What every occupied slot satisfies. -/
structure Filled (device : ℕ) (profile : Profile) (s : Slot) : Prop where
  holds : ∃ submit, decode s.bytes device = .ok (.submit submit, s.bytes.length) ∧
    s.ticket.sequence = submit.header.sequence ∧ s.stream = streamOf submit.header ∧
    s.capturePackets = captureCount submit.header
  captured_le : s.captured ≤ s.capturePackets
  data_length : s.captureData.length = s.captured * (48 * profile.microphoneChannels * 2)

/-- The invariant of the machine. `prior` is what had happened to the microphone queue before
the worker got it. -/
structure Sound (device : ℕ) (profile : Profile) (capacity : ℕ) (prior : List PcmQueue.Label)
    (log : List Event) (L : Ledger) : Prop where
  pending : UsbipPendingTickets.Sound (accepted log) L.pending
  /-- Slots and pending entries are the same transfers, but for the one in hand. -/
  agree : (L.slots.map Slot.ticket).Perm (L.phase.held.map Slot.ticket ++ tickets L.pending)
  unique : (L.slots.map Slot.ticket).Nodup
  held_live : ∀ s ∈ L.phase.held, s ∈ L.slots
  filled : ∀ s ∈ L.slots, Filled device profile s
  microphone : PcmQueueDelivery.Accounted capacity profile.microphoneChannels
    (prior ++ microphoneLog log) L.microphone
  format : L.microphone.format.channels.length = profile.microphoneChannels

section Steps

variable {device capacity : ℕ} {profile : Profile} {prior : List PcmQueue.Label}
variable {log : List Event} {L L' : Ledger} {e : Event}

theorem tickets_nodup {ts : List Ticket} {p : Pending} (h : UsbipPendingTickets.Sound ts p) :
    (tickets p).Nodup := by
  apply List.Nodup.of_map Ticket.sequence
  unfold tickets
  rw [List.map_map]
  exact h.sequences

/-- An unlink takes out the tickets of one sequence. -/
theorem unlink_tickets {ts : List Ticket} {p p' : Pending} {target : ℕ} {found : Bool}
    (h : UsbipPendingTickets.Sound ts p) (hu : unlink target p = (found, p')) :
    (tickets p').Perm ((tickets p).filter (fun t => !decide (t.sequence = target))) := by
  rcases unlink_spec hu with ⟨_, rfl, hnone⟩ | ⟨_, entry, hseq, hperm, _⟩
  · rw [List.filter_eq_self.mpr]
    intro t ht
    obtain ⟨e, he, rfl⟩ := List.mem_map.mp ht
    simpa using hnone e he
  · have hsub : (tickets p).Perm (entry.ticket :: tickets p') := hperm.map Entry.ticket
    have hnd : ((entry :: p'.live).map (·.ticket.sequence)).Nodup :=
      (hperm.map _).nodup_iff.mp h.sequences
    rw [List.map_cons, List.nodup_cons] at hnd
    have hkeep : (tickets p').filter (fun t => !decide (t.sequence = target)) = tickets p' := by
      rw [List.filter_eq_self]
      intro t ht
      obtain ⟨e, he, rfl⟩ := List.mem_map.mp ht
      have hne : e.ticket.sequence ≠ target := by
        intro heq
        exact hnd.1 (List.mem_map.mpr ⟨e, he, heq.trans hseq.symm⟩)
      simpa using hne
    have hfilter := hsub.filter (fun t => !decide (t.sequence = target))
    rw [List.filter_cons_of_neg (by simp [hseq]), hkeep] at hfilter
    exact hfilter.symm

theorem accepted_one {ticket : Ticket} {now : ℕ} {slot : Slot} (h : slot.ticket = ticket) :
    accepted [.admitted now slot] = [ticket] := by
  rw [← h]
  rfl

/-- Reading at most 48 frames into a buffer that holds 48 fills it exactly. -/
theorem silent_read {q q' : PcmQueue.Queue} {read : PcmQueue.PcmRead} {samples : List Int16}
    {c : ℕ} {mlog : List PcmQueue.Label} (h : PcmQueueDelivery.Accounted capacity c mlog q)
    (hc : c = profile.microphoneChannels)
    (hr : PcmQueue.read (silent profile) q = (.ok (read, samples), q')) :
    samples.length = 48 * profile.microphoneChannels ∧ read.frames ≤ 48 := by
  subst hc
  have hq := h.channels_eq
  have hpos : 0 < profile.microphoneChannels := hq ▸ h.wf.channels_pos
  have hl : (silent profile).length = 48 * profile.microphoneChannels := List.length_replicate
  rcases PcmQueueDelivery.read_spec h.wf hr with ⟨error, he, _⟩ |
    ⟨r, dest', taken, tail, skipped, he, hlen, _, _, ht, _, _, _⟩
  · cases he
  · obtain ⟨rfl, rfl⟩ := Prod.mk.inj (Except.ok.inj he)
    have hb := ht.bounded
    rw [hl, hq, Nat.mul_div_cancel _ hpos] at hb
    have hm := Nat.mul_le_mul_right profile.microphoneChannels hb
    rw [hl, hq] at hlen
    refine ⟨by omega, ?_⟩
    rw [ht.frames_eq]
    exact hb

theorem silent_eq {samples : List Int16} (h : samples.length = 48 * profile.microphoneChannels) :
    List.replicate samples.length 0 = silent profile := by
  rw [h]
  rfl

theorem length_sampleBytes (samples : List Int16) :
    (sampleBytes samples).length = samples.length * 2 := by
  induction samples with
  | nil => rfl
  | cons s samples ih =>
    have hc : sampleBytes (s :: samples) = le16 s.toUInt16.toNat ++ sampleBytes samples := rfl
    rw [hc, List.length_append, ih, List.length_cons, Nat.add_mul, Nat.add_comm]
    rfl

theorem Filled.capture {s : Slot} {samples : List Int16} (h : Filled device profile s)
    (hlt : s.captured < s.capturePackets)
    (hl : samples.length = 48 * profile.microphoneChannels) :
    Filled device profile (Slot.capture s samples) := by
  constructor
  · exact h.holds
  · exact hlt
  · unfold Slot.capture
    rw [List.length_append, length_sampleBytes, h.data_length, hl, Nat.add_mul, Nat.one_mul]

/-- Only a capture transfer ever holds captured packets. -/
theorem Filled.captured_eq_zero {s : Slot} {submit : Submit} {n : ℕ}
    (hf : Filled device profile s) (hd : decode s.bytes device = .ok (.submit submit, n))
    (hn : submit.header.packets = 0 ∨ submit.header.direction = .out) : s.captured = 0 := by
  obtain ⟨submit', hd', _, _, hc⟩ := hf.holds
  rw [hd] at hd'
  obtain rfl := Request.submit.inj (Prod.mk.inj (Except.ok.inj hd')).1
  have hle := hf.captured_le
  rw [hc] at hle
  unfold captureCount at hle
  rcases hn with hn | hn
  · rw [hn] at hle
    split at hle <;> omega
  · rw [if_neg (by simp [hn])] at hle
    omega

/-- Steps that touch neither the table, the slots nor the microphone. -/
theorem Sound.idle (h : Sound device profile capacity prior log L) (ha : accepted [e] = [])
    (hm : microphoneLog [e] = []) (hp : L'.pending = L.pending) (hs : L'.slots = L.slots)
    (hq : L'.microphone = L.microphone) (hh : L'.phase.held = L.phase.held) :
    Sound device profile capacity prior (log ++ [e]) L' := by
  constructor
  · rw [accepted_append, ha, List.append_nil, hp]
    exact h.pending
  · rw [hs, hh, hp]
    exact h.agree
  · rw [hs]
    exact h.unique
  · rw [hh, hs]
    exact h.held_live
  · rw [hs]
    exact h.filled
  · rw [microphoneLog_append, hm, List.append_nil, hq]
    exact h.microphone
  · rw [hq]
    exact h.format

theorem Sound.admitted {bytes : List UInt8} {submit : Submit} {now : ℕ} {ticket : Ticket}
    {pending : Pending} {a b : List Slot} (h : Sound device profile capacity prior log L)
    (hph : L.phase = .commanded bytes (.submit submit))
    (hd : decode bytes device = .ok (.submit submit, bytes.length))
    (hi : insert submit.header now 1000000 L.pending = (.ok ticket, pending))
    (hs : L.slots = a ++ b) :
    Sound device profile capacity prior
      (log ++ [.admitted now (freshSlot L bytes submit.header ticket now)])
      { L with
        pending, nextOrder := L.nextOrder + 1, phase := .idle
        slots := a ++ freshSlot L bytes submit.header ticket now :: b } := by
  have hst : UsbipPending.Step L.pending (.insert submit.header now 1000000 (.ok ticket)) pending :=
    hi
  have hsound := UsbipPendingTickets.step_sound h.pending hst
  have hagree := h.agree
  rw [hph, hs] at hagree
  rcases insert_spec hi with ⟨error, he, _⟩ | ⟨entry, he, _, _, hentry, _, _, _, hperm, _⟩
  · cases he
  · obtain rfl := Except.ok.inj he
    have htickets : (tickets pending).Perm (entry.ticket :: tickets L.pending) :=
      hperm.map Entry.ticket
    have hmid : ((a ++ freshSlot L bytes submit.header entry.ticket now :: b).map Slot.ticket).Perm
        (tickets pending) := by
      rw [List.map_append, List.map_cons]
      refine List.perm_middle.trans ?_
      refine List.Perm.trans ?_ htickets.symm
      rw [← List.map_append]
      exact hagree.cons entry.ticket
    constructor
    · rw [accepted_append, accepted_one rfl]
      exact hsound
    · exact hmid
    · exact hmid.nodup_iff.mpr (tickets_nodup hsound)
    · intro s hs
      cases hs
    · intro s hmem
      have hold : s ∈ a ∨ s ∈ b → s ∈ L.slots := by
        rw [hs]
        exact List.mem_append.mpr
      rcases List.mem_append.mp hmem with hmem | hmem
      · exact h.filled s (hold (.inl hmem))
      · rcases List.mem_cons.mp hmem with rfl | hmem
        · refine ⟨⟨submit, hd, ?_, rfl, rfl⟩, Nat.zero_le _, ?_⟩
          · rw [hentry]
            rfl
          · exact (Nat.zero_mul _).symm
        · exact h.filled s (hold (.inr hmem))
    · rw [microphoneLog_append, show microphoneLog [Event.admitted now _] = [] from rfl,
        List.append_nil]
      exact h.microphone
    · exact h.format

theorem Sound.cancelled {bytes : List UInt8} {sequence target : ℕ} {found : Bool}
    {pending : Pending} {gone : List Slot} {books : Books}
    (h : Sound device profile capacity prior log L)
    (hph : L.phase = .commanded bytes (.unlink sequence target))
    (hu : unlink target L.pending = (found, pending)) :
    Sound device profile capacity prior (log ++ [.cancelled sequence target found gone])
      { L with
        pending, books, phase := .cancelled sequence found
        slots := L.slots.filter (fun s => !decide (s.ticket.sequence = target)) } := by
  have hst : UsbipPending.Step L.pending (.unlink target found) pending := hu
  have hsound := UsbipPendingTickets.step_sound h.pending hst
  have hagree := h.agree
  rw [hph] at hagree
  have hsub : (L.slots.filter (fun s => !decide (s.ticket.sequence = target))).Sublist L.slots :=
    List.filter_sublist
  constructor
  · rw [accepted_append]
    exact hsound
  · refine List.Perm.trans ?_ (unlink_tickets h.pending hu).symm
    have hf := hagree.filter (fun t => !decide (t.sequence = target))
    rw [List.filter_map] at hf
    exact hf
  · exact h.unique.sublist (hsub.map Slot.ticket)
  · intro s hs
    cases hs
  · intro s hs
    exact h.filled s (hsub.subset hs)
  · rw [microphoneLog_append, show microphoneLog [Event.cancelled _ _ _ _] = [] from rfl,
      List.append_nil]
    exact h.microphone
  · exact h.format

theorem Sound.captured {a b : List Slot} {s : Slot} {read : PcmQueue.PcmRead}
    {samples : List Int16} {q : PcmQueue.Queue} {books : Books}
    (h : Sound device profile capacity prior log L) (hph : L.phase = .idle)
    (hs : L.slots = a ++ s :: b) (hlt : s.captured < s.capturePackets)
    (hr : PcmQueue.read (silent profile) L.microphone = (.ok (read, samples), q)) :
    Sound device profile capacity prior (log ++ [.captured s read samples])
      { L with microphone := q, books, slots := a ++ Slot.capture s samples :: b } := by
  have hl := (silent_read h.microphone rfl hr).1
  have htickets : (a ++ Slot.capture s samples :: b).map Slot.ticket = L.slots.map Slot.ticket := by
    rw [hs, List.map_append, List.map_append]
    rfl
  have hmem : ∀ t, t ∈ a ∨ t ∈ b → t ∈ L.slots := by
    intro t ht
    rw [hs, List.mem_append, List.mem_cons]
    exact ht.imp_right .inr
  constructor
  · rw [accepted_append]
    simpa [accepted] using h.pending
  · rw [htickets]
    exact h.agree
  · rw [htickets]
    exact h.unique
  · intro t ht
    rw [hph] at ht
    cases ht
  · intro t ht
    rcases List.mem_append.mp ht with ht | ht
    · exact h.filled t (hmem t (.inl ht))
    · rcases List.mem_cons.mp ht with rfl | ht
      · exact (h.filled s (by rw [hs]; simp)).capture hlt hl
      · exact h.filled t (hmem t (.inr ht))
  · rw [microphoneLog_append, ← List.append_assoc]
    have hst : PcmQueue.Step L.microphone
        (.read (List.replicate samples.length 0) (.ok (read, samples))) q := by
      rw [silent_eq hl]
      exact hr
    exact PcmQueueDelivery.step_accounted h.microphone hst
  · have hst : PcmQueue.Step L.microphone (.read (silent profile) (.ok (read, samples))) q := hr
    rw [PcmQueueDelivery.step_format h.microphone.wf hst]
    exact h.format

theorem Sound.completing {s : Slot} {now : ℕ} {header : Header} {pending : Pending}
    (h : Sound device profile capacity prior log L) (hph : L.phase = .idle) (hs : s ∈ L.slots)
    (hc : complete s.ticket now L.pending = (.ok header, pending)) :
    Sound device profile capacity prior (log ++ [.completing now s])
      { L with pending, phase := .completing s false } := by
  have hst : UsbipPending.Step L.pending (.complete s.ticket now (.ok header)) pending := hc
  have hsound := UsbipPendingTickets.step_sound h.pending hst
  have hagree := h.agree
  rw [hph] at hagree
  rcases complete_spec hc with ⟨error, he, _⟩ | ⟨entry, _, _, hticket, _, hperm, _⟩
  · cases he
  · constructor
    · rw [accepted_append]
      exact hsound
    · have ht : (tickets L.pending).Perm (entry.ticket :: tickets pending) :=
        hperm.map Entry.ticket
      rw [hticket] at ht
      exact hagree.trans ht
    · exact h.unique
    · intro t ht
      rw [List.mem_singleton.mp ht]
      exact hs
    · exact h.filled
    · rw [microphoneLog_append, show microphoneLog [Event.completing _ _] = [] from rfl,
        List.append_nil]
      exact h.microphone
    · exact h.format

theorem Sound.delivered {a b : List Slot} {s : Slot} {status : ℤ} {counted : Bool} {books : Books}
    (h : Sound device profile capacity prior log L) (hph : L.phase = .replied s status counted)
    (hs : L.slots = a ++ s :: b) :
    Sound device profile capacity prior (log ++ [.delivered s (status ≠ 0)])
      { L with phase := .idle, books, slots := a ++ b } := by
  have hagree := h.agree
  rw [hph, hs, List.map_append, List.map_cons] at hagree
  have hsub : (a ++ b).Sublist L.slots := by
    rw [hs]
    exact (List.sublist_cons_self s b).append_left a
  constructor
  · rw [accepted_append]
    simpa [accepted] using h.pending
  · refine List.Perm.cons_inv (a := s.ticket) ?_
    refine List.Perm.trans ?_ hagree
    rw [List.map_append]
    exact List.perm_middle.symm
  · exact h.unique.sublist (hsub.map Slot.ticket)
  · intro t ht
    cases ht
  · intro t ht
    exact h.filled t (hsub.subset ht)
  · rw [microphoneLog_append, show microphoneLog [Event.delivered _ _] = [] from rfl,
      List.append_nil]
    exact h.microphone
  · exact h.format

theorem step_sound (h : Sound device profile capacity prior log L)
    (st : Step device profile L e L') : Sound device profile capacity prior (log ++ [e]) L' := by
  cases st with
  | received bytes hph => exact h.idle rfl rfl rfl rfl rfl rfl
  | command request hph _ => exact h.idle rfl rfl rfl rfl rfl (by rw [hph]; rfl)
  | admitted hph hd hi hs => exact h.admitted hph hd hi hs
  | cancelled hph hu => exact h.cancelled hph hu
  | retUnlink hph => exact h.idle rfl rfl rfl rfl rfl (by rw [hph]; rfl)
  | @microphone label q _ hq =>
    refine ⟨?_, h.agree, h.unique, h.held_live, h.filled, ?_, ?_⟩
    · rw [accepted_append]
      simpa [accepted] using h.pending
    · rw [microphoneLog_append, ← List.append_assoc]
      exact PcmQueueDelivery.step_accounted h.microphone hq
    · rw [PcmQueueDelivery.step_format h.microphone.wf hq]
      exact h.format
  | captured hph hs _ hlt _ hr => exact h.captured hph hs hlt hr
  | completing hph hs _ _ hc => exact h.completing hph hs hc
  | control hph _ _ => exact h.idle rfl rfl rfl rfl rfl (by rw [hph]; rfl)
  | counted hph _ => exact h.idle rfl rfl rfl rfl rfl (by rw [hph]; rfl)
  | @retSubmit s _ _ _ _ _ _ _ counted hr _ _ =>
    refine h.idle rfl rfl rfl rfl rfl ?_
    cases counted with
    | true =>
      rw [hr.1]
      rfl
    | false =>
      obtain ⟨⟨applied, hph⟩, _⟩ := hr
      rw [hph]
      rfl
  | delivered hph hs => exact h.delivered hph hs
  | written _ => exact h.idle rfl rfl rfl rfl rfl rfl
  | @checked now pending hph he =>
    have hst : UsbipPending.Step L.pending (.expire now (.ok none)) pending := he
    have hsound := UsbipPendingTickets.step_sound h.pending hst
    have hlive : tickets pending = tickets L.pending := by
      rcases expire_spec he with ⟨_, hx, _⟩ | ⟨_, _, rfl, _⟩ | ⟨_, hx, _⟩
      · cases hx
      · rfl
      · cases hx
    refine ⟨?_, ?_, h.unique, h.held_live, h.filled, ?_, h.format⟩
    · rw [accepted_append]
      exact hsound
    · rw [hlive]
      exact h.agree
    · rw [microphoneLog_append, show microphoneLog [Event.checked now] = [] from rfl,
        List.append_nil]
      exact h.microphone

end Steps

section Runs

variable {device capacity : ℕ} {profile : Profile} {prior : List PcmQueue.Label}
variable {format : PcmQueue.PcmFormat} {log : List Event} {L : Ledger}
variable {q₀ microphone : PcmQueue.Queue}

theorem run_sound (h₀ : PcmQueue.pcmQueue format capacity = .ok q₀)
    (hp : Run PcmQueue.Step q₀ prior microphone)
    (hc : microphone.format.channels.length = profile.microphoneChannels)
    (h : Run (Step device profile) (Ledger.new device microphone) log L) :
    Sound device profile capacity prior log L := by
  induction h with
  | nil =>
    have hnil : (Pending.new device).live = [] := SlotTable.live_replicate_none _
    have ha := PcmQueueDelivery.run_accounted h₀ hp
    rw [← PcmQueueDelivery.run_format h₀ hp, hc] at ha
    constructor
    · have hrun : Run UsbipPending.Step (Pending.new device) [] (Pending.new device) := .nil
      exact UsbipPendingTickets.run_sound hrun
    · unfold tickets Ledger.new
      rw [hnil]
      exact List.Perm.refl _
    · exact List.nodup_nil
    · intro s hs
      cases hs
    · intro s hs
      cases hs
    · simpa [microphoneLog, Ledger.new] using ha
    · exact hc
  | snoc _ st ih => exact step_sound ih st

end Runs

end UsbipWorkerLedger
