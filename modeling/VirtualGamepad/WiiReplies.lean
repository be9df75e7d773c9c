import VirtualGamepad.WiiInput

/-! What each call adds to the reply queue of the Wii Remote personality, and what holds of the queue in
every reachable state. -/
namespace WiiReplies

open HidRuntime (Report Error ReplyError Lifecycle)
open Panicking WiiRemote WiiReports WiiMemory WiiProtocol WiiSafety WiiInput WiiRuns
open Panicking.Action

section Additions

variable {w w₁ w' : Wii} {report : Report} {now : ℕ} {id code : UInt8} {p : List UInt8} {both : Bool}

/-- A status or an acknowledgement. -/
def isReply (r : Report) : Bool := r.id = some 0x20 || r.id = some 0x22

/-- The acknowledgement of a memory write. -/
def isWriteAck (r : Report) : Bool := r.id = some 0x22 && r.payload[2]? = some 0x16

/-- A call adds these replies behind the queue, with as many acknowledgements of writes. -/
structure Adds (w w' : Wii) (queued : List Report) (acks : ℕ) : Prop where
  pending_eq : w'.pending = w.pending ++ queued
  replies : ∀ r ∈ queued, isReply r = true
  acks_eq : queued.countP isWriteAck = acks

theorem Adds.nothing (h : w'.pending = w.pending) : Adds w w' [] 0 := by
  constructor
  · simp [h]
  · simp
  · rfl

theorem Adds.trans {q q' : List Report} {n n' : ℕ} (h : Adds w w₁ q n) (k : Adds w₁ w' q' n') :
    Adds w w' (q ++ q') (n + n') := by
  constructor
  · rw [k.pending_eq, h.pending_eq, List.append_assoc]
  · intro r hr
    rcases List.mem_append.mp hr with hr | hr
    · exact h.replies r hr
    · exact k.replies r hr
  · rw [List.countP_append, h.acks_eq, k.acks_eq]

theorem adds_status (w : Wii) : Adds w (push status w) [status w] 0 :=
  ⟨rfl, by simp [isReply, status, statusWith], rfl⟩

theorem adds_unplugged (w : Wii) : Adds w (push unplugged w) [unplugged w] 0 :=
  ⟨rfl, by simp [isReply, unplugged, statusWith], rfl⟩

theorem adds_ack (w : Wii) (id code : UInt8) :
    Adds w (push (ack · id code) w) [ack w id code] (if id = 0x16 then 1 else 0) := by
  constructor
  · rfl
  · simp [isReply, WiiProtocol.ack]
  · have hack : isWriteAck (ack w id code) = decide (id = 0x16) := by
      change (decide _ && decide (some id = some 0x16)) = _
      simp [WiiProtocol.ack]
    rw [List.countP_cons, hack]
    simp

/-- The statuses of an accessory that has changed. -/
def edgeReports (both : Bool) (w : Wii) : List Report :=
  if both then [unplugged w, status w] else [status w]

theorem adds_edges (both : Bool) (w : Wii) : Adds w (edges both w) (edgeReports both w) 0 := by
  cases both with
  | true => exact (adds_unplugged w).trans (adds_status (push unplugged w))
  | false => exact adds_status w

theorem length_edgeReports (both : Bool) (w : Wii) :
    (edgeReports both w).length = if both then 2 else 1 := by
  cases both with
  | true => rfl
  | false => rfl

/-- Only a memory write can take the room of two edges. -/
theorem Admitted.both_write (h : Admitted w report id both) (hboth : both = true) : id = 0x16 := by
  obtain ⟨d, r, hd, hr, rfl⟩ := h.both_eq
  by_contra hid
  unfold deactivates at hd
  rw [if_neg fun h => hid h.1] at hd
  unfold reattaches at hr
  rw [if_neg fun h => hid h.1] at hr
  cases hd
  cases hr
  cases hboth

theorem handled_adds (h : Handled p both w id w₁) :
    ∃ queued, Adds w w₁ queued (if id = 0x16 then 1 else 0) ∧
      queued.length + (if acknowledges id = true then 1 else 0) ≤ replies id both := by
  have hreplies (hid : id ≠ 0x16) : 1 ≤ replies id both := by
    unfold replies
    rw [if_neg hid]
    split
    · decide
    · exact Nat.le_refl 1
  have hwrite : replies 0x16 both = if both then 3 else 2 := by
    cases both with
    | true => rfl
    | false => rfl
  cases h with
  | audio hid =>
    have hother : id ≠ 0x16 ∧ acknowledges id = false := by
      rcases hid with rfl | rfl
      · decide
      · decide
    refine ⟨[], ?_, ?_⟩
    · rw [if_neg hother.1]
      exact .nothing rfl
    · rw [hother.2]
      exact Nat.le_of_succ_le (hreplies hother.1)
  | leds => exact ⟨[], .nothing rfl, hreplies (by decide)⟩
  | mode => exact ⟨[], .nothing rfl, hreplies (by decide)⟩
  | camera => exact ⟨[], .nothing rfl, hreplies (by decide)⟩
  | cameraLogic => exact ⟨[], .nothing rfl, hreplies (by decide)⟩
  | speaker _ speaker hid =>
    have hother : id ≠ 0x16 ∧ acknowledges id = true := by
      rcases hid with rfl | rfl
      · decide
      · decide
    refine ⟨[], ?_, ?_⟩
    · rw [if_neg hother.1]
      exact .nothing rfl
    · rw [hother.2]
      exact hreplies hother.1
  | status => exact ⟨_, ⟨rfl, (adds_status _).replies, rfl⟩, hreplies (by decide)⟩
  | @write code memory _ _ _ _ =>
    refine ⟨[ack { w with memory } 0x16 code], ?_, ?_⟩
    · exact ⟨rfl, (adds_ack _ _ _).replies, (adds_ack _ _ _).acks_eq⟩
    · rw [hwrite]
      cases both with
      | true => exact (by decide : 1 ≤ 3)
      | false => exact (by decide : 1 ≤ 2)
  | @switched code memory _ _ _ _ _ =>
    have hack : Adds w { push (ack · 0x16 code) { w with memory } with reporting := .awaitingMode }
        [ack { w with memory } 0x16 code] 1 :=
      ⟨rfl, (adds_ack _ _ _).replies, (adds_ack _ _ _).acks_eq⟩
    refine ⟨_, hack.trans (adds_edges both _), ?_⟩
    rw [hwrite, List.length_append, length_edgeReports]
    split
    · exact Nat.le_refl 3
    · exact Nat.le_refl 2
  | busy => exact ⟨_, ⟨rfl, (adds_ack _ _ _).replies, rfl⟩, hreplies (by decide)⟩
  | read => exact ⟨[], .nothing rfl, Nat.le_of_succ_le (hreplies (by decide))⟩

theorem revised_eq {before : WiiRemoteOutputs} (h : Revised before w w') :
    ∃ revision, w' = { w with outputs := { w.outputs with revision } } := by
  by_cases hchanged : w.outputs.leds ≠ before.leds ∨ w.outputs.rumble ≠ before.rumble
  · exact ⟨_, (h.changed hchanged).2⟩
  · obtain ⟨hleds, hrumble⟩ := not_or.mp hchanged
    exact ⟨w.outputs.revision, h.same (not_not.mp hleds) (not_not.mp hrumble)⟩

theorem finished_eq {before : WiiRemoteOutputs} (h : Finished id p before now w w') :
    ∃ outputs queued, w' = { w with outputs, pending := w.pending ++ queued, next := some now } ∧
      outputs.leds = w.outputs.leds ∧ Adds w w' queued 0 ∧
      queued.length ≤ if acknowledges id = true then 1 else 0 := by
  obtain ⟨w₁, hrevised, rfl⟩ := h.settled
  obtain ⟨revision, rfl⟩ := revised_eq hrevised
  by_cases hack : acknowledges id = true ∧ p.getD 0 0 &&& 2 ≠ 0
  · rw [if_pos hack, if_pos hack.1]
    have hid : id ≠ 0x16 := by
      rintro rfl
      exact absurd hack.1 (by decide)
    have hadds := adds_ack { w with outputs :=
      { w.outputs with rumble := p.getD 0 0 &&& 1 ≠ 0, revision } } id 0
    rw [if_neg hid] at hadds
    exact ⟨_, _, rfl, rfl, ⟨rfl, hadds.replies, hadds.acks_eq⟩, Nat.le_refl 1⟩
  · rw [if_neg hack]
    refine ⟨{ w.outputs with rumble := p.getD 0 0 &&& 1 ≠ 0, revision }, [], ?_, rfl, .nothing rfl,
      Nat.zero_le _⟩
    rw [List.append_nil]

theorem accepted_adds (h : Accepted report now w w') : ∃ queued,
    Adds w w' queued (if report.id = some 0x16 then 1 else 0) ∧
      w.pending.length + queued.length ≤ maxPending := by
  obtain ⟨id, both, w₁, hadmitted, hhandled, hfinished⟩ := h
  obtain ⟨q, hq, hlength⟩ := handled_adds hhandled
  obtain ⟨_, q', _, _, hq', hlength'⟩ := finished_eq hfinished
  refine ⟨q ++ q', ?_, ?_⟩
  · have hadds := hq.trans hq'
    rw [hadmitted.id_eq]
    simpa using hadds
  · have hroom := hadmitted.room
    rw [List.length_append]
    omega

end Additions

section Attachments

variable {w w' : Wii} {extension : WiiExtension} {motionPlus : Bool} {now : ℕ}

/-- The personality with another accessory, before its host is told. -/
def exchanged (extension : WiiExtension) (motionPlus : Bool) (w : Wii) : Wii :=
  { w with
    state := { w.state with
      extension, motionPlus := { w.state.motionPlus with attached := motionPlus } }
    memory := w.memory.resetExtension
    reporting := .awaitingMode }

/-- An accessory takes the place of another. -/
def replaces (extension : WiiExtension) (w : Wii) : Bool :=
  w.memory.present w.state && decide (extension.kind ≠ .none)

/-- Everything that an accepted attachment change does. -/
inductive Attached (extension : WiiExtension) (motionPlus : Bool) (now : ℕ) (w : Wii) : Wii → Prop where
  | away : w.active = false →
      Attached extension motionPlus now w (exchanged extension motionPlus w)
  | seen : w.active = true →
      w.pending.length + (if replaces extension w = true then 2 else 1) ≤ maxPending →
      Attached extension motionPlus now w
        { edges (replaces extension w) (exchanged extension motionPlus w) with next := some now }

theorem changeAttachment_spec : Meets (changeAttachment extension motionPlus now w)
    (fun _ w' => Attached extension motionPlus now w w') (fun _ w' => w' = w) False := by
  unfold changeAttachment
  cases hvalid : Extensions.validate extension with
  | error e => exact rfl
  | ok _ =>
    have hinstall (v : Wii) : installAttachment extension motionPlus v = (.ok (), { v with
        state := { v.state with
          extension, motionPlus := { v.state.motionPlus with attached := motionPlus } }
        memory := v.memory.resetExtension }) := by
      unfold installAttachment
      rw [hvalid]
      rfl
    dsimp only
    rw [get_bind_run, ite_run]
    by_cases haway : (!w.active) = true
    · rw [if_pos haway, bind_run_ok (hinstall w)]
      exact .away (by simpa using haway)
    · rw [if_neg haway, ite_run]
      have hactive : w.active = true := by simpa using haway
      change Meets (if maxPending < w.pending.length + (if replaces extension w = true then 2 else 1)
        then _ else _) _ _ _
      by_cases hroom : maxPending < w.pending.length + (if replaces extension w = true then 2 else 1)
      · rw [if_pos hroom]
        exact rfl
      · rw [if_neg hroom, bind_run_ok (hinstall w), modify_bind_run]
        have hseen : Attached extension motionPlus now w
            { edges (replaces extension w) (exchanged extension motionPlus w) with next := some now } :=
          .seen hactive (Nat.le_of_not_lt hroom)
        have hcondition : (w.memory.present w.state && decide (extension.kind ≠ .none)) =
            replaces extension w := rfl
        rw [hcondition]
        cases hreplaces : replaces extension w with
        | true =>
          rw [hreplaces] at hseen
          rw [if_pos rfl]
          exact hseen
        | false =>
          rw [hreplaces] at hseen
          rw [if_neg (by decide)]
          exact hseen

end Attachments

section Turns

variable {w w' : Wii} {report : Report} {now : ℕ} {state : WiiRemoteState}

theorem accept_turn {result : Outcome ReplyError Unit} (h : accept report now w = (result, w')) :
    (result = .ok () ∧ Accepted report now w w') ∨ (result ≠ .ok () ∧ w' = w) := by
  cases result with
  | ok _ =>
    refine .inl ⟨rfl, ?_⟩
    have hcalm : ¬Overreaching w report := by
      intro hover
      have hpanicked : (accept report now w).1 = .panicked := accept_overreaching hover
      rw [h] at hpanicked
      cases hpanicked
    have hspec : Meets (acceptInner report now w) (fun _ w' => Accepted report now w w')
        (fun _ _ => True) False := acceptInner_spec hcalm
    rw [accept_ok h] at hspec
    exact hspec
  | error e =>
    refine .inr ⟨by simp, ?_⟩
    have hkept := accept_error (e := e) (congrArg Prod.fst h)
    rw [h] at hkept
    exact hkept
  | panicked =>
    refine .inr ⟨by simp, ?_⟩
    unfold accept at h
    rcases hrun : acceptInner report now w with ⟨_ | _ | _, w₁⟩
    · rw [hrun] at h
      cases h
    · rw [hrun] at h
      cases h
    · rw [hrun] at h
      cases h
      rfl

theorem input_turn {result : Outcome Error (List Report)}
    (hnonzero : ∀ r, w.read = some r → r.remaining ≠ 0)
    (h : inputReports state now w = (result, w')) :
    (∃ reports, result = .ok reports ∧ Valid w state ∧ Sent w state now reports w') ∨
      (result = .error .invalidState ∧ ¬Valid w state ∧ w' = w) := by
  have hspec : Meets (inputReports state now w)
      (fun reports w' => Valid w state ∧ Sent w state now reports w')
      (fun e w' => e = .invalidState ∧ ¬Valid w state ∧ w' = w) False := inputReports_spec hnonzero
  rw [h] at hspec
  cases result with
  | ok reports => exact .inl ⟨reports, rfl, hspec.1, hspec.2⟩
  | error e =>
    obtain ⟨rfl, hinvalid, hkept⟩ := hspec
    exact .inr ⟨rfl, hinvalid, hkept⟩
  | panicked => exact hspec.elim

theorem attachment_turn {extension : WiiExtension} {motionPlus : Bool} {result : Outcome Error Unit}
    (h : changeAttachment extension motionPlus now w = (result, w')) :
    (result = .ok () ∧ Attached extension motionPlus now w w') ∨ (result ≠ .ok () ∧ w' = w) := by
  have hspec : Meets (changeAttachment extension motionPlus now w)
      (fun _ w' => Attached extension motionPlus now w w') (fun _ w' => w' = w) False :=
    changeAttachment_spec
  rw [h] at hspec
  cases result with
  | ok _ => exact .inl ⟨rfl, hspec⟩
  | error e => exact .inr ⟨by simp, hspec⟩
  | panicked => exact hspec.elim

end Turns

section Invariant

variable {w w' : Wii} {id : UInt8} {p : List UInt8} {both : Bool}

structure Sound (w : Wii) : Prop where
  nonzero : ∀ r, w.read = some r → r.remaining ≠ 0
  replies : ∀ r ∈ w.pending, isReply r = true
  bounded : w.pending.length ≤ maxPending
  hushed : w.active = false → w.pending = []

/-- A host report starts a read only where none is in progress. -/
theorem handled_keeps (h : Handled p both w id w') : w'.active = w.active ∧
    ∀ r, w'.read = some r → w.read = some r ∨ r.remaining ≠ 0 := by
  cases h with
  | read hnone => exact ⟨rfl, fun r hr => .inr (requested_nonzero hr)⟩
  | switched =>
    cases both with
    | true => exact ⟨rfl, fun r hr => .inl hr⟩
    | false => exact ⟨rfl, fun r hr => .inl hr⟩
  | _ => exact ⟨rfl, fun r hr => .inl hr⟩

theorem chunked_nonzero {state : WiiRemoteState} {chunks : List Report} {read : Option Read}
    (h : Chunked w state chunks read) : ∀ r, read = some r → r.remaining ≠ 0 := by
  intro r hr
  cases h with
  | idle => cases hr
  | chunk _ hchunk =>
    cases hchunk with
    | error => cases hr
    | data =>
      split at hr
      · cases hr
      · next hnonzero =>
        cases hr
        exact hnonzero

theorem edges_keeps (both : Bool) (w : Wii) : (edges both w).active = w.active ∧
    (edges both w).read = w.read := by
  cases both with
  | true => exact ⟨rfl, rfl⟩
  | false => exact ⟨rfl, rfl⟩

theorem Sound.accept {report : Report} {now : ℕ} (h : Sound w) (k : Accepted report now w w') :
    Sound w' := by
  obtain ⟨queued, hadds, hroom⟩ := accepted_adds k
  obtain ⟨id, both, w₁, hadmitted, hhandled, hfinished⟩ := k
  obtain ⟨outputs, q, rfl, _, _, _⟩ := finished_eq hfinished
  obtain ⟨hactive, hread⟩ := handled_keeps hhandled
  constructor
  · intro r hr
    rcases hread r hr with hold | hnonzero
    · exact h.nonzero r hold
    · exact hnonzero
  · intro r hr
    rw [hadds.pending_eq] at hr
    rcases List.mem_append.mp hr with hr | hr
    · exact h.replies r hr
    · exact hadds.replies r hr
  · rw [hadds.pending_eq, List.length_append]
    exact hroom
  · intro haway
    rw [hactive.trans hadmitted.hears.1] at haway
    cases haway

theorem generated_keeps {w₁ : Wii} {data : List Report} (h : Generated w data w₁) :
    w₁.pending = w.pending ∧ w₁.read = w.read ∧ w₁.active = w.active := by
  cases h with
  | awaiting => exact ⟨rfl, rfl, rfl⟩
  | data => exact ⟨rfl, rfl, rfl⟩

theorem Sound.input {state : WiiRemoteState} {now : ℕ} {reports : List Report} (h : Sound w)
    (k : Sent w state now reports w') : Sound w' := by
  cases k with
  | silent haway => exact ⟨h.nonzero, h.replies, h.bounded, fun _ => h.hushed haway⟩
  | batch hactive hchunked hgenerated =>
    obtain ⟨hpending, hread, hkept⟩ := generated_keeps hgenerated
    constructor
    · intro r hr
      exact chunked_nonzero hchunked r (hread.symm.trans hr)
    · intro r hr
      rw [show (schedule now _).pending = [] from hpending] at hr
      cases hr
    · rw [show (schedule now _).pending = [] from hpending]
      exact Nat.zero_le _
    · intro _
      exact hpending

theorem Sound.attach {extension : WiiExtension} {motionPlus : Bool} {now : ℕ} (h : Sound w)
    (k : Attached extension motionPlus now w w') : Sound w' := by
  cases k with
  | away haway => exact ⟨h.nonzero, h.replies, h.bounded, h.hushed⟩
  | seen hactive hroom =>
    have hadds := adds_edges (replaces extension w) (exchanged extension motionPlus w)
    obtain ⟨hkept, hread⟩ := edges_keeps (replaces extension w) (exchanged extension motionPlus w)
    constructor
    · intro r hr
      exact h.nonzero r (hread ▸ hr)
    · intro r hr
      rw [show (Wii.pending _) = _ from hadds.pending_eq] at hr
      rcases List.mem_append.mp hr with hr | hr
      · exact h.replies r hr
      · exact hadds.replies r hr
    · rw [show (Wii.pending _) = _ from hadds.pending_eq, List.length_append, length_edgeReports]
      exact hroom
    · intro haway
      rw [show (Wii.active _) = _ from hkept.trans hactive] at haway
      cases haway

theorem Sound.step {call : Call} (h : Sound w) (hs : Step w call w') : Sound w' := by
  cases call with
  | accept report now result =>
    rcases accept_turn hs with ⟨_, haccepted⟩ | ⟨_, rfl⟩
    · exact h.accept haccepted
    · exact h
  | input state now result =>
    rcases input_turn h.nonzero hs with ⟨_, _, _, hsent⟩ | ⟨_, _, rfl⟩
    · exact h.input hsent
    · exact h
  | changeAttachment extension motionPlus now result =>
    rcases attachment_turn hs with ⟨_, hattached⟩ | ⟨_, rfl⟩
    · exact h.attach hattached
    · exact h
  | lifecycle event now =>
    obtain rfl : w' = lifecycle event now w := hs
    cases event with
    | start => exact ⟨h.nonzero, h.replies, h.bounded, fun haway => (by cases haway)⟩
    | stop => exact ⟨by simp [lifecycle], by simp [lifecycle], Nat.zero_le _, fun _ => rfl⟩
    | «open» => exact h
    | close => exact h

theorem new_sound (revision : WiiRemoteRevision) (image : WiiEepromImage)
    (options : WiiRemoteCreationOptions) : Sound (hidProtocol revision image options) :=
  ⟨fun _ hr => (by cases hr), List.forall_mem_nil _, Nat.zero_le _, fun _ => rfl⟩

theorem reachable_sound (h : Reachable w) : Sound w :=
  h.invariant new_sound fun _ _ _ hsound hs => hsound.step hs

end Invariant

end WiiReplies
