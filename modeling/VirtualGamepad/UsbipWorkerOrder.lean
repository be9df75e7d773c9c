import VirtualGamepad.UsbipWorkerAnswers
import VirtualGamepad.Procession

/-! The order of the worker's work. Transfers are numbered as they arrive. On one endpoint and
direction they are answered by number, control requests are carried out by number whatever
their direction, and the packets of the microphone go to the transfers by number. -/
namespace UsbipWorkerOrder

open Fallible Runs WireBytes UsbipFrame UsbipControl UsbipWorker UsbipWorkerLedger
open UsbipWorkerTrace UsbipWorkerAnswers Procession
open UsbipPending hiding Step
open SlotTable (Earlier)
open UsbipPendingTickets (tickets)

section Logs

def entered (log : List Event) : List Slot :=
  log.filterMap fun e => match e with
    | .admitted _ slot => some slot
    | _ => none

/-- The transfers in the order of their replies. -/
def answered (log : List Event) : List Slot :=
  log.filterMap fun e => match e with
    | .retSubmit slot _ _ => some slot
    | _ => none

structure ControlCall where
  slot : Slot
  setup : List UInt8
  payload : List UInt8

def controls (log : List Event) : List ControlCall :=
  log.filterMap fun e => match e with
    | .control slot setup payload => some ⟨slot, setup, payload⟩
    | _ => none

/-- One packet of the microphone, with its transfer as it was before. -/
structure Capture where
  slot : Slot
  read : PcmQueue.PcmRead
  samples : List Int16

def captures (log : List Event) : List Capture :=
  log.filterMap fun e => match e with
    | .captured slot read samples => some ⟨slot, read, samples⟩
    | _ => none

/-- The packets that one transfer got. -/
def packetsOf (ticket : Ticket) (log : List Event) : List Capture :=
  (captures log).filter (·.slot.ticket = ticket)

/-- The transfers that something was done for. -/
def touched (log : List Event) : List Slot :=
  log.filterMap fun e => match e with
    | .retSubmit slot _ _ | .control slot _ _ | .captured slot _ _ => some slot
    | _ => none

def Capture.bytes (c : Capture) : List UInt8 := sampleBytes c.samples

variable (log log' : List Event)

@[simp] theorem entered_append : entered (log ++ log') = entered log ++ entered log' :=
  List.filterMap_append

@[simp] theorem answered_append : answered (log ++ log') = answered log ++ answered log' :=
  List.filterMap_append

@[simp] theorem controls_append : controls (log ++ log') = controls log ++ controls log' :=
  List.filterMap_append

@[simp] theorem captures_append : captures (log ++ log') = captures log ++ captures log' :=
  List.filterMap_append

@[simp] theorem touched_append : touched (log ++ log') = touched log ++ touched log' :=
  List.filterMap_append

@[simp] theorem packetsOf_append (ticket : Ticket) :
    packetsOf ticket (log ++ log') = packetsOf ticket log ++ packetsOf ticket log' := by
  unfold packetsOf
  rw [captures_append, List.filter_append]

end Logs

/-- Control transfers of both directions share a lane; every other stream has its own. -/
def lane (s : Slot) : ℕ := if s.stream = 0 ∨ s.stream = 16 then 0 else s.stream

/-- The same transfer, which may have captured more or less. -/
def Alike (s t : Slot) : Prop :=
  s = { t with captured := s.captured, captureData := s.captureData }

theorem alike_refl (s : Slot) : Alike s s := rfl

theorem Alike.trans {s t u : Slot} (h : Alike s t) (k : Alike t u) : Alike s u := by
  unfold Alike at *
  rw [h, k]

theorem Alike.lane_eq {s t : Slot} (h : Alike s t) : lane s = lane t := by
  rw [h]
  rfl

theorem Alike.order_eq {s t : Slot} (h : Alike s t) : s.order = t.order := by
  rw [h]

theorem Alike.ticket_eq {s t : Slot} (h : Alike s t) : s.ticket = t.ticket := by
  rw [h]

theorem capture_alike (s : Slot) (samples : List Int16) : Alike (Slot.capture s samples) s := rfl

/-- What the slots say about the order of their transfers. -/
structure Lined (L : Ledger) : Prop where
  fresh : ∀ s ∈ L.slots, s.order < L.nextOrder
  distinct : (L.slots.map Slot.order).Nodup
  /-- Within a lane later transfers are ready later, by as much as they have to capture. -/
  ready : ∀ a ∈ L.slots, ∀ b ∈ L.slots, lane a = lane b → a.order < b.order →
    a.ready + b.capturePackets * 1000 ≤ b.ready
  early : ∀ s ∈ L.slots, s.capturePackets * 1000 ≤ s.ready
  prompt : ∀ s ∈ L.slots, lane s = 0 → s.ready ≤ L.pending.now
  microphone : ∀ s ∈ L.slots, s.capturePackets ≠ 0 → s.stream = 18

section Lines

variable {device capacity : ℕ} {profile : Profile} {prior : List PcmQueue.Label}
variable {log : List Event} {L L' : Ledger} {e : Event} {s t : Slot}

theorem dueAt_le (control : ControlState) (s : Slot) : dueAt control s ≤ s.ready := by
  unfold dueAt captureDue
  split
  · exact Nat.sub_le _ _
  · exact Nat.le_refl _

theorem Lined.order_ne (h : Lined L) (hs : s ∈ L.slots) (ht : t ∈ L.slots) (hne : t ≠ s) :
    t.order ≠ s.order := by
  intro heq
  exact hne (List.inj_on_of_nodup_map h.distinct ht hs heq)

/-- The transfer that is selected for completion is the first of its lane. -/
theorem Lined.first_of_selected (h : Lined L) (hs : s ∈ L.slots) (hsel : Selected L s)
    (hdue : captureDue L.control s = none) (ht : t ∈ L.slots) (hl : lane t = lane s)
    (hne : t ≠ s) : s.order < t.order := by
  by_contra hle
  have hlt : t.order < s.order := by
    have := h.order_ne hs ht hne
    omega
  have hready := h.ready t ht s hs hl hlt
  have hdt := dueAt_le L.control t
  have hds : dueAt L.control s = s.ready := by
    unfold dueAt
    rw [hdue]
    rfl
  apply hsel t ht
  unfold Earlier Slot.key
  dsimp only
  omega

/-- The transfer that is selected for a packet is the first that still wants one. -/
theorem Lined.first_of_capturing (h : Lined L) (hs : s ∈ L.slots) (hsel : Selected L s)
    (hactive : L.control.microphoneActive) (hcap : s.captured < s.capturePackets)
    (ht : t ∈ L.slots) (hwant : t.captured < t.capturePackets) (hne : t ≠ s) :
    s.order < t.order := by
  by_contra hle
  have hlt : t.order < s.order := by
    have := h.order_ne hs ht hne
    omega
  have hlane : lane t = lane s := by
    unfold lane
    rw [h.microphone s hs (by omega), h.microphone t ht (by omega)]
  have hready := h.ready t ht s hs hlane hlt
  have hdt := dueAt_le L.control t
  have hds : dueAt L.control s = s.ready - (s.capturePackets - s.captured - 1) * 1000 := by
    unfold dueAt captureDue
    rw [if_pos ⟨hactive, hcap⟩]
    rfl
  apply hsel t ht
  unfold Earlier Slot.key
  dsimp only
  omega

/-- Steps that admit nothing. -/
theorem Lined.keep (h : Lined L) (hslots : ∀ t ∈ L'.slots, ∃ t₀ ∈ L.slots, Alike t t₀)
    (hd : (L'.slots.map Slot.order).Nodup) (hn : L'.nextOrder = L.nextOrder)
    (hp : L.pending.now ≤ L'.pending.now) : Lined L' := by
  constructor
  · intro s hs
    obtain ⟨s₀, hs₀, ha⟩ := hslots s hs
    rw [ha.order_eq, hn]
    exact h.fresh s₀ hs₀
  · exact hd
  · intro a hmem b hmem' hl ho
    obtain ⟨a₀, ha₀, ha⟩ := hslots a hmem
    obtain ⟨b₀, hb₀, hb⟩ := hslots b hmem'
    rw [ha.lane_eq, hb.lane_eq] at hl
    rw [ha.order_eq, hb.order_eq] at ho
    have hready := h.ready a₀ ha₀ b₀ hb₀ hl ho
    rw [ha, hb]
    exact hready
  · intro s hs
    obtain ⟨s₀, hs₀, ha⟩ := hslots s hs
    rw [ha]
    exact h.early s₀ hs₀
  · intro s hs hl
    obtain ⟨s₀, hs₀, ha⟩ := hslots s hs
    rw [ha.lane_eq] at hl
    have hle := h.prompt s₀ hs₀ hl
    rw [ha]
    exact hle.trans hp
  · intro s hs hc
    obtain ⟨s₀, hs₀, ha⟩ := hslots s hs
    rw [ha] at hc ⊢
    exact h.microphone s₀ hs₀ hc

theorem Lined.same (h : Lined L) (hs : L'.slots = L.slots) (hn : L'.nextOrder = L.nextOrder)
    (hp : L.pending.now ≤ L'.pending.now) : Lined L' := by
  apply h.keep _ _ hn hp
  · intro t ht
    rw [hs] at ht
    exact ⟨t, ht, alike_refl t⟩
  · rw [hs]
    exact h.distinct

theorem Lined.sublist (h : Lined L) (hs : L'.slots.Sublist L.slots)
    (hn : L'.nextOrder = L.nextOrder) (hp : L.pending.now ≤ L'.pending.now) : Lined L' := by
  apply h.keep _ _ hn hp
  · intro t ht
    exact ⟨t, hs.subset ht, alike_refl t⟩
  · exact h.distinct.sublist (hs.map Slot.order)

theorem le_latestReady {slots : List Slot} {stream : ℕ} (now : ℕ) (hs : s ∈ slots)
    (hst : s.stream = stream) : s.ready ≤ latestReady slots stream now := by
  unfold latestReady
  have hmem : s.ready ∈ (slots.filter (·.stream = stream)).map Slot.ready := by
    apply List.mem_map_of_mem
    exact List.mem_filter.mpr ⟨hs, decide_eq_true hst⟩
  cases hm : ((slots.filter (·.stream = stream)).map Slot.ready).max? with
  | none =>
    rw [List.max?_eq_none_iff] at hm
    rw [hm] at hmem
    cases hmem
  | some m =>
    have hle := (List.max?_eq_some_iff.mp hm).2 _ hmem
    exact hle.trans (Nat.le_max_left _ _)

/-- Nothing of the stream is ready after `now`, so a transfer of it is ready at once. -/
theorem latestReady_eq {slots : List Slot} {stream now : ℕ}
    (h : ∀ s ∈ slots, s.stream = stream → s.ready ≤ now) : latestReady slots stream now = now := by
  unfold latestReady
  apply Nat.max_eq_right
  cases hm : ((slots.filter (·.stream = stream)).map Slot.ready).max? with
  | none => exact Nat.le_refl now
  | some m =>
    obtain ⟨s, hs, rfl⟩ := List.mem_map.mp (List.max?_eq_some_iff.mp hm).1
    obtain ⟨hs, hst⟩ := List.mem_filter.mp hs
    exact h s hs (of_decide_eq_true hst)

theorem lane_of_ne {s : Slot} (h : lane s ≠ 0) : lane s = s.stream := by
  unfold lane at h ⊢
  split
  · next hc => exact absurd (if_pos hc) h
  · rfl

theorem stream_of_lane {s : Slot} (h : lane s = 0) : s.stream = 0 ∨ s.stream = 16 := by
  unfold lane at h
  split at h
  · next hc => exact hc
  · exact .inl h

theorem streamOf_control {header : Header} {bytes : List UInt8}
    (h : header.Decoded bytes device) (hs : streamOf header = 0 ∨ streamOf header = 16) :
    header.endpoint = 0 := by
  have hle := h.endpoint_le
  unfold streamOf at hs
  split at hs <;> omega

theorem captureCount_le (header : Header) : captureCount header * 1000 ≤ delayOf header := by
  unfold captureCount delayOf
  split
  · by_cases hp : header.packets ≠ 0
    · rw [if_pos hp]
    · rw [not_not.mp hp]
      omega
  · omega

theorem captureCount_stream {header : Header} (h : captureCount header ≠ 0) :
    streamOf header = 18 := by
  unfold captureCount at h
  split at h
  · next hc =>
    unfold streamOf
    rw [hc.1, if_pos hc.2]
  · exact absurd rfl h

/-- A newcomer is behind everything in its lane. -/
theorem Lined.newcomer (h : Lined L) {header : Header} {bytes : List UInt8} {ticket : Ticket}
    {now : ℕ} (hnow : L.pending.now ≤ now) (hs : s ∈ L.slots)
    (hl : lane s = lane (freshSlot L bytes header ticket now)) :
    s.ready + captureCount header * 1000 ≤ (freshSlot L bytes header ticket now).ready := by
  have hcount := captureCount_le header
  change s.ready + captureCount header * 1000 ≤
    latestReady L.slots (streamOf header) now + delayOf header
  by_cases hz : lane s = 0
  · -- control transfers of the other direction are ready by now
    have hle := h.prompt s hs hz
    have hge : now ≤ latestReady L.slots (streamOf header) now := Nat.le_max_right _ _
    omega
  · have hstream : s.stream = streamOf header := by
      rw [← lane_of_ne hz, hl]
      rw [hl] at hz
      exact lane_of_ne hz
    have hle := le_latestReady now hs hstream
    omega

theorem Lined.admitted {bytes : List UInt8} {submit : Submit} {now : ℕ} {ticket : Ticket}
    {pending : Pending} {a b : List Slot} {phase : Phase} (h : Lined L)
    (hd : submit.header.Decoded bytes device) (hnow : L.pending.now ≤ now)
    (hnow' : pending.now = now) (hs : L.slots = a ++ b) :
    Lined { L with
      pending, nextOrder := L.nextOrder + 1, phase
      slots := a ++ freshSlot L bytes submit.header ticket now :: b } := by
  generalize hf : freshSlot L bytes submit.header ticket now = f
  have hmem : ∀ t ∈ a ++ f :: b, t = f ∨ t ∈ L.slots := by
    intro t ht
    rw [hs, List.mem_append]
    rcases List.mem_append.mp ht with ht | ht
    · exact .inr (.inl ht)
    · exact (List.mem_cons.mp ht).imp_right .inr
  have horder : f.order = L.nextOrder := by
    rw [← hf]
    rfl
  have hready : f.ready = latestReady L.slots (streamOf submit.header) now +
      delayOf submit.header := by
    rw [← hf]
    rfl
  have hpackets : f.capturePackets = captureCount submit.header := by
    rw [← hf]
    rfl
  have hstream : f.stream = streamOf submit.header := by
    rw [← hf]
    rfl
  constructor
  · intro t ht
    rcases hmem t ht with rfl | ht
    · exact Nat.lt_succ_of_le (Nat.le_of_eq horder)
    · exact Nat.lt_succ_of_lt (h.fresh t ht)
  · have hd := h.distinct
    rw [hs] at hd
    change ((a ++ f :: b).map Slot.order).Nodup
    have hperm : ((a ++ f :: b).map Slot.order).Perm (f.order :: (a ++ b).map Slot.order) :=
      (List.perm_middle).map Slot.order
    apply hperm.nodup_iff.mpr
    apply List.nodup_cons.mpr
    refine ⟨?_, hd⟩
    intro hin
    obtain ⟨t, ht, heq⟩ := List.mem_map.mp hin
    rw [← hs] at ht
    have hlt := h.fresh t ht
    omega
  · intro x hx y hy hl ho
    rcases hmem x hx with rfl | hx'
    · rcases hmem y hy with rfl | hy'
      · omega
      · have hlt := h.fresh y hy'
        omega
    · rcases hmem y hy with rfl | hy'
      · rw [hpackets, ← hf]
        rw [← hf] at hl
        exact h.newcomer hnow hx' hl
      · exact h.ready x hx' y hy' hl ho
  · intro t ht
    rcases hmem t ht with rfl | ht
    · have hcount := captureCount_le submit.header
      rw [hpackets, hready]
      omega
    · exact h.early t ht
  · intro t ht hl
    change t.ready ≤ pending.now
    rw [hnow']
    rcases hmem t ht with rfl | ht
    · have hst := stream_of_lane hl
      rw [hstream] at hst
      have hend := streamOf_control hd hst
      have hpk := hd.control_packets hend
      have hdelay : delayOf submit.header = 0 := by
        unfold delayOf
        rw [hpk, hend]
        rfl
      have hlatest : latestReady L.slots (streamOf submit.header) now = now := by
        apply latestReady_eq
        intro x hx hxs
        have hlane : lane x = 0 := by
          unfold lane
          rw [hxs, if_pos hst]
        exact (h.prompt x hx hlane).trans hnow
      rw [hready, hdelay, hlatest, Nat.add_zero]
    · exact (h.prompt t ht hl).trans hnow
  · intro t ht hc
    rcases hmem t ht with rfl | ht
    · rw [hpackets] at hc
      rw [hstream]
      exact captureCount_stream hc
    · exact h.microphone t ht hc

theorem capture_mem {a b : List Slot} {samples : List Int16} (hs : L.slots = a ++ s :: b)
    (ht : t ∈ a ++ Slot.capture s samples :: b) :
    t = Slot.capture s samples ∨ t ∈ L.slots ∧ (t ∈ a ∨ t ∈ b) := by
  rcases List.mem_append.mp ht with ht | ht
  · refine .inr ⟨?_, .inl ht⟩
    rw [hs]
    exact List.mem_append_left _ ht
  · rcases List.mem_cons.mp ht with rfl | ht
    · exact .inl rfl
    · refine .inr ⟨?_, .inr ht⟩
      rw [hs]
      exact List.mem_append_right _ (List.mem_cons_of_mem _ ht)

theorem step_lined (h : Lined L) (st : Step device profile L e L') : Lined L' := by
  cases st with
  | @admitted bytes submit now ticket pending a b hph hd hi hs =>
    obtain ⟨header, hh, _, _, hsub, _⟩ := decode_ok hd
    have hdec := Header.decode_ok hh
    rw [← hsub] at hdec
    rcases insert_spec hi with ⟨error, he, _⟩ | ⟨entry, he, hle, _, _, _, _, _, _, _, _, _, hnow⟩
    · cases he
    · exact h.admitted hdec hle hnow hs
  | @cancelled bytes sequence target found pending hph hu =>
    refine h.sublist List.filter_sublist rfl ?_
    rcases unlink_spec hu with ⟨_, rfl, _⟩ | ⟨_, entry, _, _, _, _, _, hnow⟩
    · exact Nat.le_refl _
    · exact Nat.le_of_eq hnow.symm
  | @captured a s b read samples q hph hs _ _ _ _ =>
    refine h.keep ?_ ?_ rfl (Nat.le_refl _)
    · intro t ht
      rcases capture_mem hs ht with rfl | ⟨ht, _⟩
      · refine ⟨s, ?_, capture_alike s samples⟩
        rw [hs]
        simp
      · exact ⟨t, ht, alike_refl t⟩
    · have hd := h.distinct
      rw [hs] at hd
      simpa [Slot.capture] using hd
  | @completing s now header pending hph _ _ _ hc =>
    refine h.same rfl rfl ?_
    rcases complete_spec hc with ⟨error, he, _⟩ | ⟨entry, _, hle, _, _, _, _, _, _, hnow⟩
    · cases he
    · exact hle.trans (Nat.le_of_eq hnow.symm)
  | @delivered a s b counted status hph hs =>
    refine h.sublist ?_ rfl (Nat.le_refl _)
    rw [hs]
    exact (List.sublist_cons_self s b).append_left a
  | @checked now pending hph hx =>
    refine h.same rfl rfl ?_
    rcases expire_spec hx with ⟨_, he, _⟩ | ⟨_, hle, rfl, _⟩ | ⟨_, he, _⟩
    · cases he
    · exact hle
    · cases he
  | _ => exact h.same rfl rfl (Nat.le_refl _)

end Lines

/-- The transfers in the slots and in the log are those that were admitted, by number. -/
structure Known (device : ℕ) (profile : Profile) (log : List Event) (L : Ledger) : Prop where
  numbered : (entered log).map Slot.order = List.range L.nextOrder
  live : ∀ s ∈ L.slots, ∃ a ∈ entered log, Alike s a
  done : ∀ s ∈ touched log, (∃ a ∈ entered log, Alike s a) ∧ Filled device profile s

/-- The transfer whose reply is queued. -/
def repliedSlot : Phase → List Slot
  | .replied s _ _ => [s]
  | _ => []

/-- The transfer whose control request was carried out. -/
def applied : Phase → List Slot
  | .completing s true | .counted s | .replied s _ _ => [s]
  | _ => []

def AnsweredBefore (s t : Slot) : Prop := lane s = lane t → s.order < t.order

def ControlBefore (c d : ControlCall) : Prop := c.slot.order < d.slot.order

def CapturedBefore (c d : Capture) : Prop :=
  c.slot.order < d.slot.order ∨
    (c.slot.order = d.slot.order ∧ c.slot.captured < d.slot.captured)

/-- What was done was done in order, and ahead of everything that waits. -/
structure Marching (log : List Event) (L : Ledger) : Prop where
  first : ∀ s ∈ L.phase.held, ∀ t ∈ L.slots, lane t = lane s → t ≠ s → s.order < t.order
  full : ∀ s, L.phase = .counted s → s.captured = s.capturePackets
  answers_order : InOrder AnsweredBefore (answered log)
    fun t => t ∈ L.slots ∧ t ∉ repliedSlot L.phase
  controls_order : InOrder ControlBefore (controls log)
    fun c => c.slot ∈ L.slots ∧ lane c.slot = 0 ∧ c.slot ∉ applied L.phase
  captures_order : InOrder CapturedBefore (captures log)
    fun c => c.slot ∈ L.slots ∧ c.slot.captured < c.slot.capturePackets

section Histories

variable {device capacity : ℕ} {profile : Profile} {prior : List PcmQueue.Label}
variable {log : List Event} {L L' : Ledger} {e : Event} {s t : Slot}

theorem mem_touched_of_answered (h : s ∈ answered log) : s ∈ touched log := by
  obtain ⟨e, he, hs⟩ := List.mem_filterMap.mp h
  cases e with
  | retSubmit slot status bytes => exact List.mem_filterMap.mpr ⟨_, he, hs⟩
  | _ => cases hs

theorem mem_touched_of_control {c : ControlCall} (h : c ∈ controls log) :
    c.slot ∈ touched log := by
  obtain ⟨e, he, hc⟩ := List.mem_filterMap.mp h
  cases e with
  | control slot setup payload =>
    obtain rfl := Option.some.inj hc
    exact List.mem_filterMap.mpr ⟨_, he, rfl⟩
  | _ => cases hc

theorem mem_touched_of_capture {c : Capture} (h : c ∈ captures log) : c.slot ∈ touched log := by
  obtain ⟨e, he, hc⟩ := List.mem_filterMap.mp h
  cases e with
  | captured slot read samples =>
    obtain rfl := Option.some.inj hc
    exact List.mem_filterMap.mpr ⟨_, he, rfl⟩
  | _ => cases hc

theorem Known.order_lt (h : Known device profile log L) (hs : ∃ a ∈ entered log, Alike s a) :
    s.order < L.nextOrder := by
  obtain ⟨a, ha, halike⟩ := hs
  have hmem : a.order ∈ (entered log).map Slot.order := List.mem_map_of_mem ha
  rw [h.numbered, List.mem_range] at hmem
  rw [halike.order_eq]
  exact hmem

theorem Known.keep (h : Known device profile log L) (he : entered [e] = [])
    (hn : L'.nextOrder = L.nextOrder) (hl : ∀ t ∈ L'.slots, ∃ t₀ ∈ L.slots, Alike t t₀)
    (ht : ∀ t ∈ touched [e], t ∈ L.slots ∧ Filled device profile t) :
    Known device profile (log ++ [e]) L' := by
  constructor
  · rw [entered_append, he, List.append_nil, hn]
    exact h.numbered
  · rw [entered_append, he, List.append_nil]
    intro t hmem
    obtain ⟨t₀, hmem₀, halike⟩ := hl t hmem
    obtain ⟨a, ha, halike'⟩ := h.live t₀ hmem₀
    exact ⟨a, ha, halike.trans halike'⟩
  · rw [entered_append, he, List.append_nil, touched_append]
    intro t hmem
    rcases List.mem_append.mp hmem with hmem | hmem
    · exact h.done t hmem
    · obtain ⟨hlive, hf⟩ := ht t hmem
      exact ⟨h.live t hlive, hf⟩

theorem Known.quiet (h : Known device profile log L) (he : entered [e] = [])
    (ht : touched [e] = []) (hn : L'.nextOrder = L.nextOrder)
    (hl : ∀ t ∈ L'.slots, t ∈ L.slots) : Known device profile (log ++ [e]) L' := by
  apply h.keep he hn
  · intro t hmem
    exact ⟨t, hl t hmem, alike_refl t⟩
  · rw [ht]
    intro t hmem
    cases hmem

theorem Known.admitted {now : ℕ} {f : Slot} {a b : List Slot} (h : Known device profile log L)
    (hs : L.slots = a ++ b) (ho : f.order = L.nextOrder) (hs' : L'.slots = a ++ f :: b)
    (hn : L'.nextOrder = L.nextOrder + 1) : Known device profile (log ++ [.admitted now f]) L' := by
  have hentered : entered (log ++ [.admitted now f]) = entered log ++ [f] := entered_append _ _
  have hold : ∀ t : Slot, (∃ a ∈ entered log, Alike t a) →
      ∃ a ∈ entered log ++ [f], Alike t a := by
    rintro t ⟨a, ha, halike⟩
    exact ⟨a, List.mem_append_left _ ha, halike⟩
  constructor
  · rw [hentered, List.map_append, h.numbered, hn, List.range_succ, List.map_singleton, ho]
  · rw [hentered, hs']
    intro t hmem
    have hcase : t = f ∨ t ∈ L.slots := by
      rw [hs, List.mem_append]
      rcases List.mem_append.mp hmem with hmem | hmem
      · exact .inr (.inl hmem)
      · exact (List.mem_cons.mp hmem).imp_right .inr
    rcases hcase with rfl | hmem
    · exact ⟨t, List.mem_append_right _ (List.mem_singleton_self t), alike_refl t⟩
    · exact hold t (h.live t hmem)
  · rw [hentered, touched_append]
    intro t hmem
    rcases List.mem_append.mp hmem with hmem | hmem
    · obtain ⟨hk, hf⟩ := h.done t hmem
      exact ⟨hold t hk, hf⟩
    · cases hmem

theorem step_known (hs : Sound device profile capacity prior log L)
    (h : Known device profile log L) (st : Step device profile L e L') :
    Known device profile (log ++ [e]) L' := by
  cases st with
  | admitted hph _ _ hslots => exact h.admitted hslots rfl rfl rfl
  | cancelled _ _ => exact h.quiet rfl rfl rfl fun t ht => List.mem_of_mem_filter ht
  | @captured a s b read samples q hph hslots _ _ _ _ =>
    have hmem : s ∈ L.slots := by
      rw [hslots]
      simp
    refine h.keep rfl rfl ?_ ?_
    · intro t ht
      rcases capture_mem hslots ht with rfl | ⟨ht, _⟩
      · exact ⟨s, hmem, capture_alike s samples⟩
      · exact ⟨t, ht, alike_refl t⟩
    · intro t ht
      rw [List.mem_singleton.mp ht]
      exact ⟨hmem, hs.filled s hmem⟩
  | @control s submit n hph _ _ =>
    have hmem : s ∈ L.slots := by
      apply hs.held_live s
      rw [hph]
      exact List.mem_singleton_self s
    refine h.keep rfl rfl ?_ ?_
    · intro t ht
      exact ⟨t, ht, alike_refl t⟩
    · intro t ht
      rw [List.mem_singleton.mp ht]
      exact ⟨hmem, hs.filled s hmem⟩
  | @retSubmit s submit n status data actual isoActual bytes counted hr _ _ =>
    have hmem : s ∈ L.slots := by
      apply hs.held_live s
      rw [returns_held hr]
      exact List.mem_singleton_self s
    refine h.keep rfl rfl ?_ ?_
    · intro t ht
      exact ⟨t, ht, alike_refl t⟩
    · intro t ht
      rw [List.mem_singleton.mp ht]
      exact ⟨hmem, hs.filled s hmem⟩
  | @delivered a s b counted status hph hslots =>
    refine h.quiet rfl rfl rfl ?_
    intro t ht
    rw [hslots]
    rcases List.mem_append.mp ht with ht | ht
    · exact List.mem_append_left _ ht
    · exact List.mem_append_right _ (List.mem_cons_of_mem s ht)
  | _ => exact h.quiet rfl rfl rfl fun _ ht => ht

/-- Steps that do nothing for a transfer. -/
theorem Marching.keep (h : Marching log L) (ha : answered [e] = []) (hc : controls [e] = [])
    (hp : captures [e] = []) (hw : ∀ t ∈ L'.slots, t ∈ L.slots ∧
      (t ∈ repliedSlot L.phase → t ∈ repliedSlot L'.phase) ∧
      (t ∈ applied L.phase → t ∈ applied L'.phase))
    (hf : ∀ s ∈ L'.phase.held, ∀ t ∈ L'.slots, lane t = lane s → t ≠ s → s.order < t.order)
    (hfull : ∀ s, L'.phase = .counted s → s.captured = s.capturePackets) :
    Marching (log ++ [e]) L' := by
  constructor
  · exact hf
  · exact hfull
  · rw [answered_append, ha, List.append_nil]
    apply h.answers_order.shrink
    rintro t ⟨ht, hn⟩
    obtain ⟨hmem, hr, _⟩ := hw t ht
    exact ⟨t, ⟨hmem, fun hin => hn (hr hin)⟩, fun _ _ hb => hb⟩
  · rw [controls_append, hc, List.append_nil]
    apply h.controls_order.shrink
    rintro c ⟨ht, hl, hn⟩
    obtain ⟨hmem, _, hr⟩ := hw c.slot ht
    exact ⟨c, ⟨hmem, hl, fun hin => hn (hr hin)⟩, fun _ _ hb => hb⟩
  · rw [captures_append, hp, List.append_nil]
    apply h.captures_order.shrink
    rintro c ⟨ht, hlt⟩
    exact ⟨c, ⟨(hw c.slot ht).1, hlt⟩, fun _ _ hb => hb⟩

/-- Steps between two transfers. -/
theorem Marching.idle (h : Marching log L) (ha : answered [e] = []) (hc : controls [e] = [])
    (hp : captures [e] = []) (hs : ∀ t ∈ L'.slots, t ∈ L.slots) (hph : L.phase.held = [])
    (hph' : L'.phase.held = []) : Marching (log ++ [e]) L' := by
  have hnone : repliedSlot L.phase = [] ∧ applied L.phase = [] := by
    cases hphase : L.phase with
    | completing s b | counted s | replied s status b =>
      rw [hphase] at hph
      cases hph
    | _ => exact ⟨rfl, rfl⟩
  refine h.keep ha hc hp ?_ ?_ ?_
  · intro t ht
    rw [hnone.1, hnone.2]
    exact ⟨hs t ht, fun hin => absurd hin List.not_mem_nil, fun hin => absurd hin List.not_mem_nil⟩
  · rw [hph']
    intro s hs
    cases hs
  · intro s hs
    rw [hs] at hph'
    cases hph'

/-- Steps that leave the slots and the phase alone. -/
theorem Marching.aside (h : Marching log L) (ha : answered [e] = []) (hc : controls [e] = [])
    (hp : captures [e] = []) (hs : L'.slots = L.slots) (hph : L'.phase = L.phase) :
    Marching (log ++ [e]) L' := by
  refine h.keep ha hc hp ?_ ?_ ?_
  · rw [hs, hph]
    intro t ht
    exact ⟨ht, fun hin => hin, fun hin => hin⟩
  · rw [hs, hph]
    exact h.first
  · rw [hph]
    exact h.full

theorem Marching.admitted {now : ℕ} {f : Slot} {a b : List Slot}
    (hk : Known device profile log L) (h : Marching log L) (hs : L.slots = a ++ b)
    (hph : L.phase.held = []) (ho : f.order = L.nextOrder) (hs' : L'.slots = a ++ f :: b)
    (hph' : L'.phase = .idle) : Marching (log ++ [.admitted now f]) L' := by
  have hbehind : ∀ p ∈ touched log, p.order < f.order := by
    intro p hp
    rw [ho]
    exact hk.order_lt (hk.done p hp).1
  have hmem : ∀ t ∈ L'.slots, t ∈ L.slots ∨ t = f := by
    rw [hs', hs]
    intro t ht
    rw [List.mem_append]
    rcases List.mem_append.mp ht with ht | ht
    · exact .inl (.inl ht)
    · rcases List.mem_cons.mp ht with rfl | ht
      · exact .inr rfl
      · exact .inl (.inr ht)
  have hnone : repliedSlot L.phase = [] ∧ applied L.phase = [] := by
    cases hphase : L.phase with
    | completing s b | counted s | replied s status b =>
      rw [hphase] at hph
      cases hph
    | _ => exact ⟨rfl, rfl⟩
  constructor
  · rw [hph']
    intro s hs
    cases hs
  · rw [hph']
    intro s hs
    cases hs
  · rw [answered_append]
    change InOrder _ (answered log ++ []) _
    rw [List.append_nil]
    apply h.answers_order.join
    rintro t ⟨ht, _⟩
    rcases hmem t ht with ht | rfl
    · left
      rw [hnone.1]
      exact ⟨ht, fun hin => absurd hin List.not_mem_nil⟩
    · right
      intro p hp _
      exact hbehind p (mem_touched_of_answered hp)
  · rw [controls_append]
    change InOrder _ (controls log ++ []) _
    rw [List.append_nil]
    apply h.controls_order.join
    rintro c ⟨ht, hl, _⟩
    rcases hmem c.slot ht with ht | heq
    · left
      rw [hnone.2]
      exact ⟨ht, hl, fun hin => absurd hin List.not_mem_nil⟩
    · right
      intro p hp
      unfold ControlBefore
      rw [heq]
      exact hbehind p.slot (mem_touched_of_control hp)
  · rw [captures_append]
    change InOrder _ (captures log ++ []) _
    rw [List.append_nil]
    apply h.captures_order.join
    rintro c ⟨ht, hlt⟩
    rcases hmem c.slot ht with ht | heq
    · exact .inl ⟨ht, hlt⟩
    · right
      intro p hp
      left
      rw [heq]
      exact hbehind p.slot (mem_touched_of_capture hp)

theorem Marching.captured {a b : List Slot} {read : PcmQueue.PcmRead} {samples : List Int16}
    (hl : Lined L) (h : Marching log L) (hph : L.phase = .idle) (hs : L.slots = a ++ s :: b)
    (hactive : L.control.microphoneActive) (hcap : s.captured < s.capturePackets)
    (hsel : Selected L s) (hs' : L'.slots = a ++ Slot.capture s samples :: b)
    (hph' : L'.phase = .idle) : Marching (log ++ [.captured s read samples]) L' := by
  have hsmem : s ∈ L.slots := by
    rw [hs]
    simp
  constructor
  · rw [hph']
    intro t ht
    cases ht
  · rw [hph']
    intro t ht
    cases ht
  · rw [answered_append]
    change InOrder _ (answered log ++ []) _
    rw [List.append_nil]
    apply h.answers_order.shrink
    rw [hs', hph', hph]
    rintro t ⟨ht, hn⟩
    rcases capture_mem hs ht with rfl | ⟨ht, _⟩
    · exact ⟨s, ⟨hsmem, fun hin => absurd hin List.not_mem_nil⟩, fun _ _ hb => hb⟩
    · exact ⟨t, ⟨ht, fun hin => absurd hin List.not_mem_nil⟩, fun _ _ hb => hb⟩
  · rw [controls_append]
    change InOrder _ (controls log ++ []) _
    rw [List.append_nil]
    apply h.controls_order.shrink
    rw [hs', hph', hph]
    rintro c ⟨ht, hlane, hn⟩
    rcases capture_mem hs ht with heq | ⟨ht, _⟩
    · refine ⟨⟨s, c.setup, c.payload⟩, ⟨hsmem, ?_, fun hin => absurd hin List.not_mem_nil⟩, ?_⟩
      · rw [heq] at hlane
        exact hlane
      · intro p _ hb
        unfold ControlBefore
        rw [heq]
        exact hb
    · exact ⟨c, ⟨ht, hlane, fun hin => absurd hin List.not_mem_nil⟩, fun _ _ hb => hb⟩
  · rw [captures_append]
    change InOrder _ (captures log ++ [⟨s, read, samples⟩]) _
    apply h.captures_order.leave
    · exact ⟨hsmem, hcap⟩
    · rw [hs']
      rintro c ⟨ht, hwant⟩
      rcases capture_mem hs ht with heq | ⟨ht, hab⟩
      · -- the next packet of the same transfer
        have horder : c.slot.order = s.order := by
          rw [heq]
          rfl
        have hcaptured : c.slot.captured = s.captured + 1 := by
          rw [heq]
          rfl
        refine ⟨.inr ⟨horder.symm, ?_⟩, ⟨s, read, samples⟩, ⟨hsmem, hcap⟩, ?_⟩
        · change s.captured < c.slot.captured
          omega
        · intro p _ hb
          unfold CapturedBefore at *
          dsimp only at hb
          omega
      · have hne : c.slot ≠ s := by
          intro heq
          rw [heq] at hab
          have hd := hl.distinct
          rw [hs, List.map_append, List.map_cons, List.nodup_append] at hd
          obtain ⟨_, hd, hdis⟩ := hd
          rcases hab with ha | hb
          · exact hdis _ (List.mem_map_of_mem ha) _ (List.mem_cons_self) rfl
          · exact (List.nodup_cons.mp hd).1 (List.mem_map_of_mem hb)
        refine ⟨.inl ?_, c, ⟨ht, hwant⟩, fun _ _ hb => hb⟩
        exact hl.first_of_capturing hsmem hsel hactive hcap ht hwant hne

theorem Marching.control {setup payload : List UInt8} (h : Marching log L)
    (hph : L.phase = .completing s false) (hmem : s ∈ L.slots) (hlane : lane s = 0)
    (hs' : L'.slots = L.slots) (hph' : L'.phase = .completing s true) :
    Marching (log ++ [.control s setup payload]) L' := by
  have hfirst := h.first
  rw [hph] at hfirst
  constructor
  · rw [hs', hph']
    exact hfirst
  · rw [hph']
    intro t ht
    cases ht
  · rw [answered_append]
    change InOrder _ (answered log ++ []) _
    rw [List.append_nil]
    apply h.answers_order.shrink
    rw [hs', hph', hph]
    intro t ht
    exact ⟨t, ht, fun _ _ hb => hb⟩
  · rw [controls_append]
    change InOrder _ (controls log ++ [⟨s, setup, payload⟩]) _
    apply h.controls_order.leave
    · rw [hph]
      exact ⟨hmem, hlane, fun hin => absurd hin List.not_mem_nil⟩
    · rw [hs', hph', hph]
      rintro c ⟨ht, hl, hn⟩
      have hne : c.slot ≠ s := by
        intro heq
        apply hn
        rw [heq]
        exact List.mem_singleton_self s
      refine ⟨?_, c, ⟨ht, hl, fun hin => absurd hin List.not_mem_nil⟩, fun _ _ hb => hb⟩
      exact hfirst s (List.mem_singleton_self s) c.slot ht (hl.trans hlane.symm) hne
  · rw [captures_append]
    change InOrder _ (captures log ++ []) _
    rw [List.append_nil]
    apply h.captures_order.shrink
    rw [hs']
    intro c hc
    exact ⟨c, hc, fun _ _ hb => hb⟩

theorem Marching.answered {status : ℤ} {bytes : List UInt8} {counted : Bool}
    (h : Marching log L) (hheld : L.phase.held = [s]) (hr : repliedSlot L.phase = [])
    (hmem : s ∈ L.slots) (hs' : L'.slots = L.slots) (hph' : L'.phase = .replied s status counted) :
    Marching (log ++ [.retSubmit s status bytes]) L' := by
  have hfirst := h.first
  rw [hheld] at hfirst
  have happ : ∀ t, t ∈ applied L.phase → t = s := by
    intro t ht
    cases hph : L.phase with
    | completing s' b =>
      rw [hph] at ht hheld
      cases b with
      | true => exact List.mem_singleton.mp (hheld ▸ ht)
      | false => cases ht
    | counted s' | replied s' st b =>
      rw [hph] at ht hheld
      exact List.mem_singleton.mp (hheld ▸ ht)
    | _ =>
      rw [hph] at ht
      cases ht
  constructor
  · rw [hs', hph']
    exact hfirst
  · rw [hph']
    intro t ht
    cases ht
  · rw [answered_append]
    change InOrder _ (UsbipWorkerOrder.answered log ++ [s]) _
    apply h.answers_order.leave
    · rw [hr]
      exact ⟨hmem, fun hin => absurd hin List.not_mem_nil⟩
    · rw [hs', hph', hr]
      rintro t ⟨ht, hn⟩
      have hne : t ≠ s := by
        intro heq
        apply hn
        rw [heq]
        exact List.mem_singleton_self s
      refine ⟨?_, t, ⟨ht, fun hin => absurd hin List.not_mem_nil⟩, fun _ _ hb => hb⟩
      intro hl
      exact hfirst s (List.mem_singleton_self s) t ht hl.symm hne
  · rw [controls_append]
    change InOrder _ (controls log ++ []) _
    rw [List.append_nil]
    apply h.controls_order.shrink
    rw [hs', hph']
    rintro c ⟨ht, hl, hn⟩
    refine ⟨c, ⟨ht, hl, ?_⟩, fun _ _ hb => hb⟩
    intro hin
    apply hn
    rw [happ _ hin]
    exact List.mem_singleton_self s
  · rw [captures_append]
    change InOrder _ (captures log ++ []) _
    rw [List.append_nil]
    apply h.captures_order.shrink
    rw [hs']
    intro c hc
    exact ⟨c, hc, fun _ _ hb => hb⟩

theorem lane_of_endpoint {header : Header} (h : s.stream = streamOf header)
    (he : header.endpoint = 0) : lane s = 0 := by
  have hst : s.stream = 0 ∨ s.stream = 16 := by
    rw [h]
    unfold streamOf
    rw [he]
    split
    · exact .inr rfl
    · exact .inl rfl
  unfold lane
  exact if_pos hst

theorem step_marching (hs : Sound device profile capacity prior log L) (hl : Lined L)
    (hk : Known device profile log L) (h : Marching log L) (st : Step device profile L e L') :
    Marching (log ++ [e]) L' := by
  cases st with
  | received bytes hph => exact h.aside rfl rfl rfl rfl rfl
  | command request hph _ => exact h.idle rfl rfl rfl (fun _ ht => ht) (by rw [hph]; rfl) rfl
  | admitted hph _ _ hslots => exact h.admitted hk hslots (by rw [hph]; rfl) rfl rfl rfl
  | cancelled hph _ =>
    exact h.idle rfl rfl rfl (fun t ht => List.mem_of_mem_filter ht) (by rw [hph]; rfl) rfl
  | retUnlink hph => exact h.idle rfl rfl rfl (fun _ ht => ht) (by rw [hph]; rfl) rfl
  | microphone _ _ => exact h.aside rfl rfl rfl rfl rfl
  | captured hph hslots hactive hcap hsel _ =>
    exact h.captured hl hph hslots hactive hcap hsel rfl hph
  | @completing s now header pending hph hmem hsel hdue _ =>
    refine h.keep rfl rfl rfl ?_ ?_ ?_
    · rw [hph]
      intro t ht
      exact ⟨ht, fun hin => absurd hin List.not_mem_nil, fun hin => absurd hin List.not_mem_nil⟩
    · intro x hx t ht hlane hne
      rw [List.mem_singleton.mp hx] at hlane hne ⊢
      exact hl.first_of_selected hmem hsel hdue ht hlane hne
    · intro t ht
      cases ht
  | @control s submit n hph hd he =>
    have hmem : s ∈ L.slots := by
      apply hs.held_live s
      rw [hph]
      exact List.mem_singleton_self s
    obtain ⟨submit', hd', _, hstream, _⟩ := (hs.filled s hmem).holds
    rw [hd] at hd'
    obtain rfl := Request.submit.inj (Prod.mk.inj (Except.ok.inj hd')).1
    exact h.control hph hmem (lane_of_endpoint hstream he) rfl rfl
  | @counted s done hph hcap =>
    have hfirst := h.first
    rw [hph] at hfirst
    refine h.keep rfl rfl rfl ?_ hfirst ?_
    · rw [hph]
      intro t ht
      refine ⟨ht, fun hin => absurd hin List.not_mem_nil, ?_⟩
      intro hin
      cases done with
      | true => exact hin
      | false => exact absurd hin List.not_mem_nil
    · intro t ht
      rw [← Phase.counted.inj ht]
      exact hcap
  | @retSubmit s submit n status data actual isoActual bytes counted hr _ _ =>
    have hheld := returns_held hr
    have hmem : s ∈ L.slots := by
      apply hs.held_live s
      rw [hheld]
      exact List.mem_singleton_self s
    have hnone : repliedSlot L.phase = [] := by
      cases counted with
      | true =>
        rw [hr.1]
        rfl
      | false =>
        obtain ⟨⟨done, hph⟩, _⟩ := hr
        rw [hph]
        rfl
    exact h.answered hheld hnone hmem rfl rfl
  | @delivered a s b counted status hph hslots =>
    have hgone : s ∉ a ++ b := by
      have hd := hl.distinct
      rw [hslots] at hd
      have hperm : ((a ++ s :: b).map Slot.order).Perm (s.order :: (a ++ b).map Slot.order) :=
        (List.perm_middle).map Slot.order
      intro hin
      exact (List.nodup_cons.mp (hperm.nodup_iff.mp hd)).1 (List.mem_map_of_mem hin)
    refine h.keep rfl rfl rfl ?_ ?_ ?_
    · rw [hph]
      intro t ht
      have hne : t ∉ [s] := by
        intro hin
        rw [List.mem_singleton.mp hin] at ht
        exact hgone ht
      refine ⟨?_, fun hin => absurd hin hne, fun hin => absurd hin hne⟩
      rw [hslots]
      rcases List.mem_append.mp ht with ht | ht
      · exact List.mem_append_left _ ht
      · exact List.mem_append_right _ (List.mem_cons_of_mem s ht)
    · intro t ht
      cases ht
    · intro t ht
      cases ht
  | written _ => exact h.aside rfl rfl rfl rfl rfl
  | checked _ _ => exact h.aside rfl rfl rfl rfl rfl

/-- A slot holds the packets that were captured for its transfer, in order. -/
def Collected (log : List Event) (L : Ledger) : Prop :=
  ∀ s ∈ L.slots, s.captured = (packetsOf s.ticket log).length ∧
    s.captureData = (packetsOf s.ticket log).flatMap Capture.bytes

theorem Collected.keep (h : Collected log L) (hc : captures [e] = [])
    (hs : ∀ t ∈ L'.slots, t ∈ L.slots) : Collected (log ++ [e]) L' := by
  intro s hmem
  have hnone : packetsOf s.ticket [e] = [] := by
    unfold packetsOf
    rw [hc]
    rfl
  rw [packetsOf_append, hnone, List.append_nil]
  exact h s (hs s hmem)

theorem accepted_eq (log : List Event) : accepted log = (entered log).map Slot.ticket := by
  unfold accepted entered
  rw [List.map_filterMap]
  congr 1
  funext e
  cases e with
  | _ => rfl

theorem step_collected (hs : Sound device profile capacity prior log L)
    (hk : Known device profile log L) (h : Collected log L) (st : Step device profile L e L') :
    Collected (log ++ [e]) L' := by
  cases st with
  | @admitted bytes submit now ticket pending a b hph hd hi hslots =>
    rcases insert_spec hi with ⟨error, he, _⟩ | ⟨entry, he, _, _, hentry, _⟩
    · cases he
    · obtain rfl := Except.ok.inj he
      intro s hmem
      rw [packetsOf_append]
      change s.captured = (packetsOf s.ticket log ++ []).length ∧
        s.captureData = (packetsOf s.ticket log ++ []).flatMap Capture.bytes
      rw [List.append_nil]
      have hcase : s = freshSlot L bytes submit.header entry.ticket now ∨ s ∈ L.slots := by
        rw [hslots, List.mem_append]
        rcases List.mem_append.mp hmem with hmem | hmem
        · exact .inr (.inl hmem)
        · exact (List.mem_cons.mp hmem).imp_right .inr
      rcases hcase with rfl | hmem
      · have hnone : packetsOf entry.ticket log = [] := by
          unfold packetsOf
          rw [List.filter_eq_nil_iff]
          intro c hc hticket
          have htouched := mem_touched_of_capture hc
          obtain ⟨x, hx, halike⟩ := (hk.done _ htouched).1
          have hacc : entry.ticket ∈ accepted log := by
            rw [accepted_eq, ← of_decide_eq_true hticket, halike.ticket_eq]
            exact List.mem_map_of_mem hx
          have hle := hs.pending.generations _ hacc
          rw [hentry] at hle
          exact absurd hle (Nat.not_succ_le_self _)
        change 0 = (packetsOf entry.ticket log).length ∧
          [] = (packetsOf entry.ticket log).flatMap Capture.bytes
        rw [hnone]
        exact ⟨rfl, rfl⟩
      · exact h s hmem
  | cancelled _ _ => exact h.keep rfl fun t ht => List.mem_of_mem_filter ht
  | @captured a s b read samples q hph hslots _ _ _ _ =>
    have hsmem : s ∈ L.slots := by
      rw [hslots]
      simp
    have hunique := hs.unique
    rw [hslots, List.map_append, List.map_cons, List.nodup_append] at hunique
    obtain ⟨_, hright, hleft⟩ := hunique
    intro t ht
    rw [packetsOf_append]
    rcases capture_mem hslots ht with rfl | ⟨ht, hab⟩
    · obtain ⟨hlen, hdata⟩ := h s hsmem
      have hone : packetsOf s.ticket [.captured s read samples] = [⟨s, read, samples⟩] := by
        unfold packetsOf captures
        simp
      change s.captured + 1 = _ ∧ s.captureData ++ sampleBytes samples = _
      rw [show (Slot.capture s samples).ticket = s.ticket from rfl, hone, List.length_append,
        List.flatMap_append, ← hlen, ← hdata]
      exact ⟨rfl, by simp [Capture.bytes]⟩
    · have hne : s.ticket ≠ t.ticket := by
        intro heq
        rcases hab with ha | hb
        · exact hleft _ (List.mem_map_of_mem ha) _ (List.mem_cons_self) heq.symm
        · refine (List.nodup_cons.mp hright).1 ?_
          rw [heq]
          exact List.mem_map_of_mem hb
      have hnone : packetsOf t.ticket [.captured s read samples] = [] := by
        unfold packetsOf captures
        simp [hne]
      rw [hnone, List.append_nil]
      exact h t ht
  | @delivered a s b counted status hph hslots =>
    refine h.keep rfl ?_
    intro t ht
    rw [hslots]
    rcases List.mem_append.mp ht with ht | ht
    · exact List.mem_append_left _ ht
    · exact List.mem_append_right _ (List.mem_cons_of_mem s ht)
  | _ => exact h.keep rfl fun _ ht => ht

/-- The control state after these requests. -/
def controlled (profile : Profile) (calls : List ControlCall) : ControlState :=
  calls.foldl (fun s call => (handle profile call.setup call.payload s).2) .default

theorem step_controlled (h : L.control = controlled profile (controls log))
    (st : Step device profile L e L') : L'.control = controlled profile (controls (log ++ [e])) := by
  have hquiet : controls [e] = [] → controlled profile (controls (log ++ [e])) = L.control := by
    intro hn
    rw [controls_append, hn, List.append_nil]
    exact h.symm
  cases st with
  | @control s submit n hph hd he =>
    have hone : controls (log ++ [.control s submit.header.setup submit.payload]) =
        controls log ++ [⟨s, submit.header.setup, submit.payload⟩] := controls_append _ _
    rw [hone]
    unfold controlled at *
    rw [List.foldl_append, ← h]
    rfl
  | _ => exact (hquiet rfl).symm

/-- The frames of the queue that one packet holds. -/
def Capture.frames (channels : ℕ) (c : Capture) : List PcmQueueDelivery.Frame :=
  PcmQueueDelivery.number c.read.firstFrame (Slab.chunks channels c.read.frames c.samples)

theorem step_heard {channels : ℕ}
    (h : PcmQueueDelivery.delivered channels (microphoneLog log) =
      (captures log).flatMap (Capture.frames channels))
    (st : Step device profile L e L') :
    PcmQueueDelivery.delivered channels (microphoneLog (log ++ [e])) =
      (captures (log ++ [e])).flatMap (Capture.frames channels) := by
  have hsplit : ∀ e : Event,
      PcmQueueDelivery.delivered channels (microphoneLog [e]) =
        (captures [e]).flatMap (Capture.frames channels) →
      PcmQueueDelivery.delivered channels (microphoneLog (log ++ [e])) =
        (captures (log ++ [e])).flatMap (Capture.frames channels) := by
    intro e he
    rw [microphoneLog_append, captures_append, List.flatMap_append, ← h, ← he]
    exact List.flatMap_append
  apply hsplit
  cases st with
  | @microphone label q hp _ =>
    cases hp with
    | push samples result => rfl
    | discard frames result => rfl
    | flush result => rfl
    | close => rfl
  | _ => rfl

end Histories

section Runs

variable {device capacity : ℕ} {profile : Profile} {prior : List PcmQueue.Label}
variable {log : List Event} {L : Ledger} {microphone : PcmQueue.Queue}

structure Kept (device : ℕ) (profile : Profile) (log : List Event) (L : Ledger) : Prop where
  lined : Lined L
  known : Known device profile log L
  marching : Marching log L
  collected : Collected log L
  controlled_eq : L.control = controlled profile (controls log)
  heard : PcmQueueDelivery.delivered profile.microphoneChannels (microphoneLog log) =
    (captures log).flatMap (Capture.frames profile.microphoneChannels)

theorem new_kept : Kept device profile [] (Ledger.new device microphone) := by
  have hnone : ∀ {p : Slot → Prop}, ∀ s ∈ (Ledger.new device microphone).slots, p s := by
    intro p s hs
    cases hs
  constructor
  · exact ⟨hnone, List.nodup_nil, hnone, hnone, hnone, hnone⟩
  · exact ⟨rfl, hnone, hnone⟩
  · refine ⟨hnone, ?_, inOrder_nil _, inOrder_nil _, inOrder_nil _⟩
    intro s hs
    cases hs
  · exact hnone
  · exact rfl
  · exact rfl

theorem run_kept (ho : Origin profile capacity prior microphone)
    (h : Run (Step device profile) (Ledger.new device microphone) log L) :
    Kept device profile log L := by
  induction h with
  | nil => exact new_kept
  | snoc hrun st ih =>
    have hs := ho.sound hrun
    constructor
    · exact step_lined ih.lined st
    · exact step_known hs ih.known st
    · exact step_marching hs ih.lined ih.known ih.marching st
    · exact step_collected hs ih.known ih.collected st
    · exact step_controlled ih.controlled_eq st
    · exact step_heard ih.heard st

end Runs

/-- Two transfers on one endpoint in one direction. -/
def SameStream (device : ℕ) (s t : Slot) : Prop :=
  ∃ r r' n n', decode s.bytes device = .ok (.submit r, n) ∧
    decode t.bytes device = .ok (.submit r', n') ∧
    r.header.endpoint = r'.header.endpoint ∧ r.header.direction = r'.header.direction

/-- The order of everything that was done for the transfers of a log. -/
structure InOrderOfArrival (device : ℕ) (profile : Profile) (prior : List PcmQueue.Label)
    (log : List Event) : Prop where
  /-- Transfers are numbered as they are admitted, and keep their numbers. -/
  numbered : (entered log).map Slot.order = List.range (entered log).length
  known : ∀ s ∈ touched log, ∃ a ∈ entered log, Alike s a
  answers : (answered log).Pairwise fun s t => SameStream device s t → s.order < t.order
  control_order : (controls log).Pairwise fun c d => c.slot.order < d.slot.order
  control_calls : ∀ c ∈ controls log, ∃ submit n,
    decode c.slot.bytes device = .ok (.submit submit, n) ∧ submit.header.endpoint = 0 ∧
      c.setup = submit.header.setup ∧ c.payload = submit.payload
  /-- Packets go to the transfers by number, and within a transfer one after the other. -/
  capture_order : (captures log).Pairwise CapturedBefore
  capture_positions : ∀ a b s read samples, log = a ++ .captured s read samples :: b →
    s.captured = (packetsOf s.ticket a).length
  /-- A completed capture transfer returns its packets, in order. -/
  capture_replies : ∀ a b s status bytes, log = a ++ .retSubmit s status bytes :: b → status = 0 →
    0 < s.captured → s.captured = s.capturePackets ∧
      slice bytes headerBytes s.captureData.length = s.captureData ∧
      s.captureData = (packetsOf s.ticket a).flatMap Capture.bytes
  /-- The packets hold what was read from the queue and nothing else was read. -/
  consumed : PcmQueueDelivery.delivered profile.microphoneChannels (prior ++ microphoneLog log) =
    PcmQueueDelivery.delivered profile.microphoneChannels prior ++
      (captures log).flatMap (Capture.frames profile.microphoneChannels)
  consumed_order : ((captures log).flatMap (Capture.frames profile.microphoneChannels)).Pairwise
    (·.position < ·.position)
  consumed_accepted : List.Sublist
    ((captures log).flatMap (Capture.frames profile.microphoneChannels))
    (PcmQueueDelivery.accepted profile.microphoneChannels (prior ++ microphoneLog log))

section Main

variable {device capacity : ℕ} {profile : Profile} {prior : List PcmQueue.Label}
variable {log : List Event} {L : Ledger} {microphone : PcmQueue.Queue}

theorem sameStream_lane {s t : Slot} (hs : Filled device profile s) (ht : Filled device profile t)
    (h : SameStream device s t) : lane s = lane t := by
  obtain ⟨r, r', n, n', hd, hd', he, hdir⟩ := h
  obtain ⟨x, hx, _, hstream, _⟩ := hs.holds
  obtain ⟨y, hy, _, hstream', _⟩ := ht.holds
  rw [hd] at hx
  rw [hd'] at hy
  obtain rfl := Request.submit.inj (Prod.mk.inj (Except.ok.inj hx)).1
  obtain rfl := Request.submit.inj (Prod.mk.inj (Except.ok.inj hy)).1
  have heq : s.stream = t.stream := by
    rw [hstream, hstream']
    unfold streamOf
    rw [he, hdir]
  unfold lane
  rw [heq]

theorem captured_position {a : List Event} {s : Slot} {read : PcmQueue.PcmRead}
    {samples : List Int16} (ho : Origin profile capacity prior microphone)
    (h : Run (Step device profile) (Ledger.new device microphone)
      (a ++ [.captured s read samples]) L) : s.captured = (packetsOf s.ticket a).length := by
  obtain ⟨L₀, hrun, st⟩ := run_snoc.mp h
  cases st with
  | captured hph hs _ _ _ _ =>
    apply ((run_kept ho hrun).collected s _).1
    rw [hs]
    simp

theorem reply_data {a : List Event} {s : Slot} {bytes : List UInt8}
    (ho : Origin profile capacity prior microphone)
    (h : Run (Step device profile) (Ledger.new device microphone)
      (a ++ [.retSubmit s 0 bytes]) L) (hc : 0 < s.captured) :
    s.captured = s.capturePackets ∧
      slice bytes headerBytes s.captureData.length = s.captureData ∧
      s.captureData = (packetsOf s.ticket a).flatMap Capture.bytes := by
  obtain ⟨L₀, hrun, st⟩ := run_snoc.mp h
  have hk := run_kept ho hrun
  cases st with
  | @retSubmit _ submit n _ data actual isoActual _ counted hr hd he =>
    have hmem : s ∈ L₀.slots := by
      apply (ho.sound hrun).held_live s
      rw [returns_held hr]
      exact List.mem_singleton_self s
    cases counted with
    | true =>
      obtain ⟨hph, _, rfl⟩ := hr
      exact ⟨hk.marching.full s hph, encode_data he, (hk.collected s hmem).2⟩
    | false =>
      rcases hr.2 with hne | hz
      · exact absurd rfl hne
      · omega

theorem control_call {c : ControlCall}
    (h : Run (Step device profile) (Ledger.new device microphone) log L) (hc : c ∈ controls log) :
    ∃ submit n, decode c.slot.bytes device = .ok (.submit submit, n) ∧
      submit.header.endpoint = 0 ∧ c.setup = submit.header.setup ∧ c.payload = submit.payload := by
  obtain ⟨e, he, hopt⟩ := List.mem_filterMap.mp hc
  cases e with
  | control s setup payload =>
    obtain rfl := Option.some.inj hopt
    obtain ⟨a, b, rfl⟩ := List.append_of_mem he
    rw [List.append_cons] at h
    obtain ⟨L₁, hrun, _⟩ := run_append.mp h
    obtain ⟨L₀, _, st⟩ := run_snoc.mp hrun
    cases st with
    | @control _ submit n _ hd hend => exact ⟨submit, n, hd, hend, rfl, rfl⟩
  | _ => cases hopt

theorem run_inOrder (ho : Origin profile capacity prior microphone)
    (h : Run (Step device profile) (Ledger.new device microphone) log L) :
    InOrderOfArrival device profile prior log := by
  have hk := run_kept ho h
  have hlen : (entered log).length = L.nextOrder := by
    have hl := congrArg List.length hk.known.numbered
    simpa using hl
  have hdelivered : PcmQueueDelivery.delivered profile.microphoneChannels
      (prior ++ microphoneLog log) =
      PcmQueueDelivery.delivered profile.microphoneChannels prior ++
        (captures log).flatMap (Capture.frames profile.microphoneChannels) := by
    rw [← hk.heard]
    exact List.flatMap_append
  have hacc := (ho.sound h).microphone
  obtain ⟨flushed, hconveys, _⟩ := hacc.conveys
  have hsub := hconveys.delivered_sublist
  rw [hdelivered] at hsub
  have hsuffix := (List.sublist_append_right _ _).trans hsub
  constructor
  · rw [hlen]
    exact hk.known.numbered
  · intro s hs
    exact (hk.known.done s hs).1
  · refine hk.marching.answers_order.ordered.imp_of_mem ?_
    intro s t hs ht hbefore hsame
    apply hbefore
    have hfs := (hk.known.done s (mem_touched_of_answered hs)).2
    have hft := (hk.known.done t (mem_touched_of_answered ht)).2
    exact sameStream_lane hfs hft hsame
  · exact hk.marching.controls_order.ordered
  · intro c hc
    exact control_call h hc
  · exact hk.marching.captures_order.ordered
  · rintro a b s read samples rfl
    rw [List.append_cons] at h
    obtain ⟨L₁, hrun, _⟩ := run_append.mp h
    exact captured_position ho hrun
  · rintro a b s status bytes rfl rfl hc
    rw [List.append_cons] at h
    obtain ⟨L₁, hrun, _⟩ := run_append.mp h
    exact reply_data ho hrun hc
  · exact hdelivered
  · exact hacc.ascending.sublist hsuffix
  · exact hsuffix

variable {H K : Type} [HidHandler H] [Host K]
variable {format : PcmQueue.PcmFormat} {q₀ playback : PcmQueue.Queue} {host : K} {hid : H}
variable {nows : List ℕ} {w₀ w : Worker H K} {result : Except Failure Unit}

/-- Transfers are answered, carried out and filled in the order in which they arrived, and the
replies reach the socket in the order in which they were queued. -/
theorem streams_in_order (hq : PcmQueue.pcmQueue format capacity = .ok q₀)
    (hp : Run PcmQueue.Step q₀ prior microphone)
    (hn : UsbipWorker.new host device profile hid playback microphone = .ok w₀)
    (hr : runInner nows w₀ = (result, w)) :
    InOrderOfArrival device profile prior w.log ∧ sent w.log <+: (replies w.log).flatten ∧
      (result = .ok () → w.control = controlled profile (controls w.log)) := by
  obtain ⟨ho, ⟨L, hrun, _⟩, hok⟩ := runInner_traces hq hp hn hr
  refine ⟨run_inOrder ho hrun, (run_answered ho hrun).sent_in_order, ?_⟩
  intro hresult
  exact (run_kept ho (hok hresult).1.tracks.run).controlled_eq

/-- Two control requests and a packet of the microphone. -/
def configuring : Script :=
  ⟨[submitFrame 1 0 0 0 0 [0, 9, 1, 0, 0, 0, 0, 0], submitFrame 2 0 0 0 0 [1, 11, 1, 0, 2, 0, 0, 0],
      submitFrame 3 1 2 96 1 (List.replicate 8 0) ++
        (bytes32 0 ++ bytes32 96 ++ bytes32 0 ++ bytes32 0)], []⟩

theorem streams_in_order_configured : ∃ w : Worker Mute Script,
    (answered w.log).map Slot.order = [0, 1, 2] ∧ w.control = ⟨1, [0, 0, 1, 0]⟩ ∧
    InOrderOfArrival 5 monoProfile [] w.log := by
  obtain ⟨w₀, hn, hf⟩ := rehearse_ok configuring
    (fun w => ((answered (runInner [0, 1000] w).2.log).map Slot.order,
      (runInner [0, 1000] w).2.control))
    (b := ([0, 1, 2], ⟨1, [0, 0, 1, 0]⟩)) (by decide +kernel)
  obtain ⟨hlog, hcontrol⟩ := Prod.mk.inj hf
  rcases hr : runInner [0, 1000] w₀ with ⟨result, w⟩
  rw [hr] at hlog hcontrol
  exact ⟨w, hlog, hcontrol, (streams_in_order (pcmQueue_mono .microphone) .nil hn hr).1⟩

end Main

end UsbipWorkerOrder
