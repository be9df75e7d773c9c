import VirtualGamepad.UsbipWorkerAnswers

/-! The microphone counters. What the host's clock called for was consumed or was silence, and
it was reported, abandoned, or is still held by a waiting transfer. The one exception is a
transfer that was reported and whose reply then failed: closing the worker abandons it again. -/
namespace UsbipWorkerAccounts

open Fallible Runs WireBytes UsbipFrame UsbipControl UsbipWorker UsbipWorkerLedger UsbipWorkerTrace
open UsbipWorkerAnswers
open UsbipPending hiding Step
open UsbipPendingTickets (tickets)

section Logs

def frames (slots : List Slot) : ℕ := (slots.map Slot.frames).sum

@[simp] theorem frames_nil : frames [] = 0 := rfl

@[simp] theorem frames_cons (s : Slot) (slots : List Slot) :
    frames (s :: slots) = s.frames + frames slots := List.sum_cons

@[simp] theorem frames_append (slots slots' : List Slot) :
    frames (slots ++ slots') = frames slots + frames slots' := by
  unfold frames
  rw [List.map_append, List.sum_append]

/-- What a filter keeps and what it drops add up. -/
theorem frames_filter (p : Slot → Bool) (slots : List Slot) :
    frames (slots.filter p) + frames (slots.filter fun s => !p s) = frames slots := by
  induction slots with
  | nil => rfl
  | cons s slots ih =>
    cases hp : p s
    · simp only [List.filter_cons, hp, frames_cons]
      simp only [Bool.not_false, if_true, frames_cons]
      simp only [Bool.false_eq_true, if_false]
      omega
    · simp only [List.filter_cons, hp, if_true, frames_cons]
      simp only [Bool.not_true, Bool.false_eq_true, if_false]
      omega

/-- The transfers whose frames were reported to the host. -/
def reported (log : List Event) : List Slot :=
  log.filterMap fun e => match e with
    | .counted slot _ => some slot
    | _ => none

/-- The transfers whose reply was taken, with what became of their frames. -/
def delivered (log : List Event) : List (Slot × Bool) :=
  log.filterMap fun e => match e with
    | .delivered slot abandoned => some (slot, abandoned)
    | _ => none

/-- The transfers whose frames were abandoned while the worker ran. -/
def abandoned (log : List Event) : List Slot :=
  log.flatMap fun e => match e with
    | .cancelled _ _ _ gone => gone
    | .delivered slot true => [slot]
    | _ => []

variable (log log' : List Event)

@[simp] theorem reported_append : reported (log ++ log') = reported log ++ reported log' :=
  List.filterMap_append

@[simp] theorem delivered_append : delivered (log ++ log') = delivered log ++ delivered log' :=
  List.filterMap_append

@[simp] theorem abandoned_append : abandoned (log ++ log') = abandoned log ++ abandoned log' :=
  List.flatMap_append

/-- Frames are abandoned by an unlink or by a reply that carries no data. -/
theorem mem_abandoned {log : List Event} {s : Slot} (h : s ∈ abandoned log) :
    s.ticket ∈ withdrawn log ∨ (s, true) ∈ delivered log := by
  obtain ⟨e, he, hs⟩ := List.mem_flatMap.mp h
  cases e with
  | cancelled sequence target found gone =>
    exact .inl (List.mem_flatMap.mpr ⟨_, he, List.mem_map_of_mem hs⟩)
  | delivered slot lost =>
    cases lost with
    | false => cases hs
    | true =>
      rw [List.mem_singleton.mp hs]
      exact .inr (List.mem_filterMap.mpr ⟨_, he, rfl⟩)
  | _ => cases hs

end Logs

/-- The transfer that is reported and still in its slot. -/
def charged : Phase → List Slot
  | .counted s | .replied s _ true => [s]
  | _ => []

/-- The transfer whose reply is queued and still in its slot. -/
def replying : Phase → List Ticket
  | .replied s _ _ => [s.ticket]
  | _ => []

/-- The counters, with the frames of a charged transfer counted twice for the moment. -/
structure Squared (log : List Event) (L : Ledger) : Prop where
  heard : L.books.consumed + L.books.silence = L.books.host
  balance : L.books.reported + L.books.abandoned + frames L.slots =
    L.books.host + frames (charged L.phase)
  reported_eq : L.books.reported = frames (reported log)
  abandoned_eq : L.books.abandoned = frames (abandoned log)
  plain : ∀ s status, L.phase = .replied s status false → status ≠ 0 ∨ s.captured = 0
  clean : ∀ s status, L.phase = .replied s status true → status = 0

/-- A transfer is reported before its reply is taken. -/
structure Released (log : List Event) (L : Ledger) : Prop where
  returned_eq : returned log = (delivered log).map (·.1.ticket) ++ replying L.phase
  fate : ∀ s ∈ reported log, (s, false) ∈ delivered log ∨ s ∈ charged L.phase
  charged_reported : ∀ s ∈ charged L.phase, s ∈ reported log

section Steps

variable {device capacity : ℕ} {profile : Profile} {prior : List PcmQueue.Label}
variable {log : List Event} {L L' : Ledger} {e : Event}

/-- Steps that touch neither the books nor what the slots hold. -/
theorem Squared.keep (h : Squared log L) (hr : reported [e] = []) (ha : abandoned [e] = [])
    (hb : L'.books = L.books) (hs : frames L'.slots = frames L.slots)
    (hc : charged L'.phase = charged L.phase)
    (hp : ∀ s status counted, L'.phase ≠ .replied s status counted) : Squared (log ++ [e]) L' := by
  constructor
  · rw [hb]
    exact h.heard
  · rw [hb, hs, hc]
    exact h.balance
  · rw [hb, reported_append, hr, List.append_nil]
    exact h.reported_eq
  · rw [hb, abandoned_append, ha, List.append_nil]
    exact h.abandoned_eq
  · intro s status hph
    exact absurd hph (hp s status false)
  · intro s status hph
    exact absurd hph (hp s status true)

/-- Steps that also leave the phase alone. -/
theorem Squared.aside (h : Squared log L) (hr : reported [e] = []) (ha : abandoned [e] = [])
    (hb : L'.books = L.books) (hs : L'.slots = L.slots) (hph : L'.phase = L.phase) :
    Squared (log ++ [e]) L' := by
  constructor
  · rw [hb]
    exact h.heard
  · rw [hb, hs, hph]
    exact h.balance
  · rw [hb, reported_append, hr, List.append_nil]
    exact h.reported_eq
  · rw [hb, abandoned_append, ha, List.append_nil]
    exact h.abandoned_eq
  · rw [hph]
    exact h.plain
  · rw [hph]
    exact h.clean

theorem Squared.captured {a b : List Slot} {s : Slot} {read : PcmQueue.PcmRead}
    {samples : List Int16} {q : PcmQueue.Queue} (h : Squared log L) (hph : L.phase = .idle)
    (hs : L.slots = a ++ s :: b) (hle : read.frames ≤ 48) :
    Squared (log ++ [.captured s read samples])
      { L with
        microphone := q, slots := a ++ Slot.capture s samples :: b
        books := { L.books with
          consumed := L.books.consumed + read.frames
          silence := L.books.silence + (48 - read.frames)
          host := L.books.host + 48 } } := by
  have hframes : (Slot.capture s samples).frames = s.frames + 48 := by
    unfold Slot.frames Slot.capture
    dsimp only
    omega
  have hheard := h.heard
  have hbalance := h.balance
  rw [hs, hph] at hbalance
  constructor
  · dsimp only
    omega
  · rw [hph]
    simp only [frames_append, frames_cons, hframes] at hbalance ⊢
    omega
  · rw [reported_append]
    simpa [reported] using h.reported_eq
  · rw [abandoned_append]
    simpa [abandoned] using h.abandoned_eq
  · rw [hph]
    intro s status hph
    cases hph
  · rw [hph]
    intro s status hph
    cases hph

theorem Squared.cancelled {bytes : List UInt8} {sequence target : ℕ} {found : Bool}
    {pending : Pending} (h : Squared log L)
    (hph : L.phase = .commanded bytes (.unlink sequence target)) :
    Squared (log ++ [.cancelled sequence target found
        (L.slots.filter (·.ticket.sequence = target))])
      { L with
        pending, phase := .cancelled sequence found
        slots := L.slots.filter (fun s => !decide (s.ticket.sequence = target))
        books := { L.books with abandoned := L.books.abandoned +
          ((L.slots.filter (·.ticket.sequence = target)).map Slot.frames).sum } } := by
  have hsplit := frames_filter (fun s => decide (s.ticket.sequence = target)) L.slots
  have hbalance := h.balance
  rw [hph] at hbalance
  constructor
  · exact h.heard
  · change L.books.reported + (L.books.abandoned +
      frames (L.slots.filter fun s => decide (s.ticket.sequence = target))) +
      frames (L.slots.filter fun s => !decide (s.ticket.sequence = target)) = L.books.host + 0
    change L.books.reported + L.books.abandoned + frames L.slots = L.books.host + 0 at hbalance
    omega
  · rw [reported_append]
    simpa [reported] using h.reported_eq
  · rw [abandoned_append, frames_append, ← h.abandoned_eq]
    change _ = L.books.abandoned + frames (_ ++ [])
    rw [List.append_nil]
    rfl
  · intro s status hph
    cases hph
  · intro s status hph
    cases hph

theorem Squared.delivered {a b : List Slot} {s : Slot} {status : ℤ} {counted : Bool}
    (h : Squared log L) (hph : L.phase = .replied s status counted) (hs : L.slots = a ++ s :: b) :
    Squared (log ++ [.delivered s (status ≠ 0)])
      { L with
        phase := .idle, slots := a ++ b
        books := { L.books with
          abandoned := L.books.abandoned + if status ≠ 0 then s.frames else 0 } } := by
  have hbalance := h.balance
  rw [hs, hph] at hbalance
  simp only [frames_append, frames_cons] at hbalance
  constructor
  · exact h.heard
  · simp only [frames_append, charged, frames_nil]
    cases counted with
    | true =>
      have h0 := h.clean s status hph
      rw [if_neg (not_not.mpr h0)]
      simp only [charged, frames_cons, frames_nil] at hbalance
      omega
    | false =>
      simp only [charged, frames_nil] at hbalance
      by_cases h0 : status ≠ 0
      · rw [if_pos h0]
        omega
      · rw [if_neg h0]
        have hz : s.captured = 0 := (h.plain s status hph).resolve_left h0
        have hf : s.frames = 0 := by
          unfold Slot.frames
          rw [hz]
        omega
  · rw [reported_append]
    simpa [reported] using h.reported_eq
  · rw [abandoned_append, frames_append, ← h.abandoned_eq]
    by_cases h0 : status ≠ 0
    · simp [abandoned, h0]
    · simp [abandoned, h0]
  · intro s status hph
    cases hph
  · intro s status hph
    cases hph

theorem step_squared (hs : Sound device profile capacity prior log L) (h : Squared log L)
    (st : Step device profile L e L') : Squared (log ++ [e]) L' := by
  cases st with
  | received bytes hph => exact h.aside rfl rfl rfl rfl rfl
  | command request hph _ =>
    refine h.keep rfl rfl rfl rfl (by rw [hph]; rfl) ?_
    intro s status counted hn
    cases hn
  | @admitted bytes submit now ticket pending a b hph _ _ hslots =>
    refine h.keep rfl rfl rfl ?_ (by rw [hph]; rfl) ?_
    · have hz : (freshSlot L bytes submit.header ticket now).frames = 0 := Nat.zero_mul 48
      rw [hslots]
      simp only [frames_append, frames_cons, hz, Nat.zero_add]
    · intro s status counted hn
      cases hn
  | cancelled hph _ => exact h.cancelled hph
  | retUnlink hph =>
    refine h.keep rfl rfl rfl rfl (by rw [hph]; rfl) ?_
    intro s status counted hn
    cases hn
  | microphone _ _ => exact h.aside rfl rfl rfl rfl rfl
  | captured hph hslots _ _ _ hr =>
    exact h.captured hph hslots (silent_read hs.microphone rfl hr).2
  | completing hph _ _ _ _ =>
    refine h.keep rfl rfl rfl rfl (by rw [hph]; rfl) ?_
    intro s status counted hn
    cases hn
  | control hph _ _ =>
    refine h.keep rfl rfl rfl rfl (by rw [hph]; rfl) ?_
    intro s status counted hn
    cases hn
  | @counted s applied hph _ =>
    have hbalance := h.balance
    rw [hph] at hbalance
    constructor
    · exact h.heard
    · simp only [charged, frames_cons, frames_nil] at hbalance ⊢
      omega
    · rw [reported_append, frames_append, ← h.reported_eq]
      rfl
    · rw [abandoned_append]
      simpa [abandoned] using h.abandoned_eq
    · intro s status hn
      cases hn
    · intro s status hn
      cases hn
  | @retSubmit s submit n status data actual isoActual bytes counted hr _ _ =>
    have hcharged : charged (.replied s status counted) = charged L.phase := by
      cases counted with
      | true =>
        rw [hr.1]
        rfl
      | false =>
        obtain ⟨⟨applied, hph⟩, _⟩ := hr
        rw [hph]
        rfl
    constructor
    · exact h.heard
    · rw [hcharged]
      exact h.balance
    · rw [reported_append]
      simpa [reported] using h.reported_eq
    · rw [abandoned_append]
      simpa [abandoned] using h.abandoned_eq
    · intro t status' hn
      obtain ⟨rfl, rfl, rfl⟩ := Phase.replied.inj hn
      exact hr.2
    · intro t status' hn
      obtain ⟨rfl, rfl, rfl⟩ := Phase.replied.inj hn
      exact hr.2.1
  | delivered hph hslots => exact h.delivered hph hslots
  | written _ => exact h.aside rfl rfl rfl rfl rfl
  | checked _ _ => exact h.aside rfl rfl rfl rfl rfl

theorem Released.keep (h : Released log L) (hr : reported [e] = []) (hd : delivered [e] = [])
    (ha : returned [e] = []) (hy : replying L'.phase = replying L.phase)
    (hc : charged L'.phase = charged L.phase) : Released (log ++ [e]) L' := by
  constructor
  · rw [returned_append, ha, List.append_nil, delivered_append, hd, List.append_nil, hy]
    exact h.returned_eq
  · rw [reported_append, hr, List.append_nil, delivered_append, hd, List.append_nil, hc]
    exact h.fate
  · rw [reported_append, hr, List.append_nil, hc]
    exact h.charged_reported

theorem step_released (hq : Squared log L) (h : Released log L)
    (st : Step device profile L e L') : Released (log ++ [e]) L' := by
  cases st with
  | received bytes hph => exact h.keep rfl rfl rfl rfl rfl
  | command request hph _ => exact h.keep rfl rfl rfl (by rw [hph]; rfl) (by rw [hph]; rfl)
  | admitted hph _ _ _ => exact h.keep rfl rfl rfl (by rw [hph]; rfl) (by rw [hph]; rfl)
  | cancelled hph _ => exact h.keep rfl rfl rfl (by rw [hph]; rfl) (by rw [hph]; rfl)
  | retUnlink hph => exact h.keep rfl rfl rfl (by rw [hph]; rfl) (by rw [hph]; rfl)
  | microphone _ _ => exact h.keep rfl rfl rfl rfl rfl
  | captured hph _ _ _ _ _ => exact h.keep rfl rfl rfl rfl rfl
  | completing hph _ _ _ _ => exact h.keep rfl rfl rfl (by rw [hph]; rfl) (by rw [hph]; rfl)
  | control hph _ _ => exact h.keep rfl rfl rfl (by rw [hph]; rfl) (by rw [hph]; rfl)
  | @counted s applied hph _ =>
    constructor
    · rw [returned_append, delivered_append, h.returned_eq, hph]
      simp [returned, delivered, replying]
    · intro t ht
      rw [reported_append] at ht
      rw [delivered_append]
      rcases List.mem_append.mp ht with ht | ht
      · rcases h.fate t ht with hd | hc
        · exact .inl (List.mem_append_left _ hd)
        · rw [hph] at hc
          cases hc
      · exact .inr ht
    · intro t ht
      rw [reported_append]
      exact List.mem_append_right _ ht
  | @retSubmit s submit n status data actual isoActual bytes counted hr _ _ =>
    have hphase : replying L.phase = [] ∧ charged (.replied s status counted) = charged L.phase := by
      cases counted with
      | true =>
        rw [hr.1]
        exact ⟨rfl, rfl⟩
      | false =>
        obtain ⟨⟨applied, hph⟩, _⟩ := hr
        rw [hph]
        exact ⟨rfl, rfl⟩
    constructor
    · rw [returned_append, delivered_append, h.returned_eq, hphase.1]
      simp [returned, delivered, replying]
    · rw [reported_append, delivered_append, hphase.2]
      simpa [reported, delivered] using h.fate
    · rw [reported_append, hphase.2]
      simpa [reported] using h.charged_reported
  | @delivered a s b counted status hph _ =>
    constructor
    · rw [returned_append, delivered_append, h.returned_eq, hph]
      simp [returned, delivered, replying]
    · intro t ht
      rw [reported_append] at ht
      rw [delivered_append]
      rcases List.mem_append.mp ht with ht | ht
      · rcases h.fate t ht with hd | hc
        · exact .inl (List.mem_append_left _ hd)
        · -- a charged transfer is answered with status 0
          rw [hph] at hc
          cases counted with
          | true =>
            have h0 := hq.clean s status hph
            rw [List.mem_singleton.mp hc]
            refine .inl (List.mem_append_right _ ?_)
            simp [delivered, h0]
          | false => cases hc
      · cases ht
    · intro t ht
      cases ht
  | written _ => exact h.keep rfl rfl rfl rfl rfl
  | checked _ _ => exact h.keep rfl rfl rfl rfl rfl

end Steps

section Runs

variable {device capacity : ℕ} {profile : Profile} {prior : List PcmQueue.Label}
variable {log : List Event} {L : Ledger} {microphone : PcmQueue.Queue}

theorem run_squared (ho : Origin profile capacity prior microphone)
    (h : Run (Step device profile) (Ledger.new device microphone) log L) :
    Squared log L ∧ Released log L := by
  induction h with
  | nil =>
    refine ⟨⟨rfl, rfl, rfl, rfl, ?_, ?_⟩, ⟨rfl, ?_, ?_⟩⟩
    · intro s status hph
      cases hph
    · intro s status hph
      cases hph
    · intro s hs
      cases hs
    · intro s hs
      cases hs
  | snoc hrun st ih => exact ⟨step_squared (ho.sound hrun) ih.1 st, step_released ih.1 ih.2 st⟩

/-- Tickets are delivered, withdrawn or live, and only one of these. -/
theorem fates_nodup (hs : Sound device profile capacity prior log L) (hf : Fates log L)
    (hr : Released log L) :
    ((delivered log).map (·.1.ticket) ++ withdrawn log ++ L.slots.map Slot.ticket).Nodup := by
  have hheld : L.phase.held.map Slot.ticket = replying L.phase ++ unanswered L.phase := by
    cases L.phase with
    | _ => rfl
  have hnd := hf.nodup hs
  rw [hr.returned_eq] at hnd
  refine List.Perm.nodup_iff ?_ |>.mp hnd
  refine List.Perm.trans ?_ (hs.agree.symm.append_left _)
  rw [hheld]
  have hswap : (replying L.phase ++ withdrawn log).Perm (withdrawn log ++ replying L.phase) :=
    List.perm_append_comm
  have hmid := (hswap.append_left ((delivered log).map (·.1.ticket))).append_right
    (unanswered L.phase ++ tickets L.pending)
  simp only [List.append_assoc] at hmid ⊢
  exact hmid

/-- Frames that were reported are not abandoned, unless their transfer is still in its slot. -/
theorem reported_apart (hs : Sound device profile capacity prior log L) (hf : Fates log L)
    (hr : Released log L) {s : Slot} (hmem : s ∈ reported log) :
    s.ticket ∉ (abandoned log).map Slot.ticket := by
  have hnd := fates_nodup hs hf hr
  obtain ⟨hdw, _, hlive⟩ := List.nodup_append'.mp hnd
  obtain ⟨hd, _, hwithdrawn⟩ := List.nodup_append'.mp hdw
  intro hin
  obtain ⟨x, hx, heq⟩ := List.mem_map.mp hin
  rcases hr.fate s hmem with hs' | hs'
  · have hdel : s.ticket ∈ (delivered log).map (·.1.ticket) := List.mem_map_of_mem hs'
    rcases mem_abandoned hx with hw | hx'
    · rw [heq] at hw
      exact hwithdrawn hdel hw
    · have := List.inj_on_of_nodup_map hd hs' hx' heq.symm
      exact Bool.false_ne_true (congrArg Prod.snd this)
  · have hslot : s ∈ L.slots := by
      refine hs.held_live s ?_
      cases hph : L.phase with
      | counted t =>
        rw [hph] at hs'
        exact hs'
      | replied t status counted =>
        rw [hph] at hs'
        cases counted with
        | true => exact hs'
        | false => cases hs'
      | _ =>
        rw [hph] at hs'
        cases hs'
    have hl : s.ticket ∈ L.slots.map Slot.ticket := List.mem_map_of_mem hslot
    rcases mem_abandoned hx with hw | hx'
    · rw [heq] at hw
      exact hlive (List.mem_append_right _ hw) hl
    · have hdel : x.ticket ∈ (delivered log).map (·.1.ticket) := List.mem_map_of_mem hx'
      rw [heq] at hdel
      exact hlive (List.mem_append_left _ hdel) hl

theorem charged_held : ∀ phase, ∀ s ∈ charged phase, s ∈ Phase.held phase
  | .counted _, _, h | .replied _ _ true, _, h => h

/-- Every transfer that was reported with frames had its reply taken, which freed its slot. -/
def Taken (log : List Event) : Prop :=
  ∀ s ∈ reported log, s.frames ≠ 0 → (s, false) ∈ delivered log

instance (log : List Event) : Decidable (Taken log) :=
  inferInstanceAs (Decidable (∀ s ∈ reported log, s.frames ≠ 0 → (s, false) ∈ delivered log))

theorem charged_eq_zero (hs : Sound device profile capacity prior log L) (hf : Fates log L)
    (hr : Released log L) : frames (charged L.phase) = 0 ↔ Taken log := by
  constructor
  · intro hz s hmem hne
    rcases hr.fate s hmem with hd | hc
    · exact hd
    · have hone : charged L.phase = [s] := by
        cases hph : L.phase with
        | counted t =>
          rw [hph] at hc
          rw [List.mem_singleton.mp hc]
          rfl
        | replied t status counted =>
          rw [hph] at hc
          cases counted with
          | true =>
            rw [List.mem_singleton.mp hc]
            rfl
          | false => cases hc
        | _ =>
          rw [hph] at hc
          cases hc
      rw [hone] at hz
      exact absurd hz hne
  · intro ht
    by_contra hne
    have hzero : ∀ s ∈ charged L.phase, s.frames = 0 := by
      intro s hc
      by_contra hs0
      have hd : s.ticket ∈ (delivered log).map (·.1.ticket) :=
        List.mem_map_of_mem (ht s (hr.charged_reported s hc) hs0)
      have hl : s.ticket ∈ L.slots.map Slot.ticket :=
        List.mem_map_of_mem (hs.held_live s (charged_held _ s hc))
      obtain ⟨_, _, hlive⟩ := List.nodup_append'.mp (fates_nodup hs hf hr)
      exact hlive (List.mem_append_left _ hd) hl
    refine hne (List.sum_eq_zero_iff_forall_eq_nat.mpr ?_)
    intro n hn
    obtain ⟨s, hc, rfl⟩ := List.mem_map.mp hn
    exact hzero s hc

end Runs

section Main

variable {H K : Type} [HidHandler H] [Host K]
variable {device capacity : ℕ} {profile : Profile} {prior : List PcmQueue.Label}
variable {format : PcmQueue.PcmFormat} {q₀ microphone playback : PcmQueue.Queue} {host : K} {hid : H}
variable {nows : List ℕ} {w₀ w : Worker H K} {result : Except Failure Unit}

/-- The counters agree. `pending` are the transfers that still wait, and the frames of `lost`
were abandoned when the worker closed. -/
structure Balanced (w : Worker H K) (pending lost : List Slot) : Prop where
  heard : w.counters.microphoneConsumedFrames + w.counters.microphoneSilenceFrames =
    w.counters.microphoneHostFrames
  balance : w.counters.captureFrames + w.counters.abandonedCaptureFrames + frames pending =
    w.counters.microphoneHostFrames
  reported_eq : w.counters.captureFrames = frames (reported w.log)
  abandoned_eq : w.counters.abandonedCaptureFrames = frames (abandoned w.log ++ lost)
  /-- No captured frame is both reported and abandoned. -/
  apart : ∀ s ∈ reported w.log, s.frames ≠ 0 →
    s.ticket ∉ (abandoned w.log ++ lost).map Slot.ticket

omit [HidHandler H] [Host K] in
theorem steady_balanced (ho : Origin profile capacity prior microphone)
    (h : Steady device profile microphone w) : Balanced w w.live [] := by
  have hrun := h.tracks.run
  obtain ⟨hsq, hrel⟩ := run_squared ho hrun
  constructor
  · exact hsq.heard
  · exact hsq.balance
  · exact hsq.reported_eq
  · rw [List.append_nil]
    exact hsq.abandoned_eq
  · intro s hmem _
    rw [List.append_nil]
    exact reported_apart (ho.sound hrun) (run_kept ho hrun).fates hrel hmem

omit [HidHandler H] [Host K] in
/-- After the worker closed the counters agree if and only if nothing was left charged. -/
theorem shutdown_balanced (ho : Origin profile capacity prior microphone)
    (h : Lost device profile microphone w) :
    Balanced (shutdown w) [] w.live ↔ Taken w.log := by
  obtain ⟨L, hrun, hslots, hbooks, _⟩ := h
  obtain ⟨hsq, hrel⟩ := run_squared ho hrun
  have hs := ho.sound hrun
  have hf := (run_kept ho hrun).fates
  rw [← charged_eq_zero hs hf hrel]
  have hbalance := hsq.balance
  have habandoned := hsq.abandoned_eq
  have hreported := hsq.reported_eq
  have hheard := hsq.heard
  rw [hslots] at hbalance
  rw [hbooks] at hbalance habandoned hreported hheard
  dsimp only [books] at hbalance habandoned hreported hheard
  constructor
  · intro hb
    have htotal : w.counters.captureFrames +
        (w.counters.abandonedCaptureFrames + frames w.live) + 0 =
        w.counters.microphoneHostFrames := hb.balance
    omega
  · intro hz
    constructor
    · exact hheard
    · change w.counters.captureFrames +
        (w.counters.abandonedCaptureFrames + frames w.live) + 0 =
        w.counters.microphoneHostFrames
      omega
    · exact hreported
    · change w.counters.abandonedCaptureFrames + frames w.live = _
      rw [frames_append]
      exact congrArg (· + frames w.live) habandoned
    · intro s hmem hne hin
      rw [List.map_append] at hin
      rcases List.mem_append.mp hin with hin | hin
      · exact reported_apart hs hf hrel hmem hin
      · have hd : s.ticket ∈ (delivered w.log).map (·.1.ticket) :=
          List.mem_map_of_mem ((charged_eq_zero hs hf hrel).mp hz s hmem hne)
        obtain ⟨_, _, hlive⟩ := List.nodup_append'.mp (fates_nodup hs hf hrel)
        rw [hslots] at hlive
        exact hlive (List.mem_append_left _ hd) hin

/-- The device is configured, its microphone is opened, and one packet of it is asked for. -/
def capturing (writes : List UsbipCompletionQueue.Written) : Script :=
  ⟨[submitFrame 1 0 0 0 0 [0, 9, 1, 0, 0, 0, 0, 0], submitFrame 2 0 0 0 0 [1, 11, 1, 0, 2, 0, 0, 0],
      submitFrame 3 1 2 96 1 (List.replicate 8 0) ++
        (bytes32 0 ++ bytes32 96 ++ bytes32 0 ++ bytes32 0)], writes⟩

end Main

end UsbipWorkerAccounts
