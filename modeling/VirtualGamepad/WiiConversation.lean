import VirtualGamepad.WiiReplies

/-! What a host sees of a Wii Remote: every change of its accessory as an edge, then no data until it has
chosen a mode again, and its answers in the order of its requests. -/
namespace WiiConversation

open HidRuntime (Report Error ReplyError)
open Panicking Runs WiiRemote WiiReports WiiMemory WiiProtocol WiiSafety WiiInput WiiRuns WiiReplies

/-- A call with the replies that it queued. -/
structure Exchange where
  call : Call
  queued : List Report

/-- The reports that a call hands to the transport. -/
def sent : Call → List Report
  | .input _ _ (.ok reports) => reports
  | _ => []

def isData (r : Report) : Bool := modes.any fun mode => r.id = some mode.1

/-- Calls of a session that goes on. The application edits an accessory without exchanging it, and
exchanges it by an attachment change. -/
def Attended (w : Wii) : Call → Prop
  | .input state _ _ => state.extension.kind = w.state.extension.kind ∧
      state.motionPlus.attached = w.state.motionPlus.attached
  | .lifecycle _ _ => False
  | _ => True

/-- An input call takes replies out, every other call adds them behind the queue. -/
def added (w : Wii) (call : Call) (w' : Wii) : List Report :=
  match call with
  | .input _ _ _ => []
  | _ => w'.pending.drop w.pending.length

def Exchange.Step (w : Wii) (x : Exchange) (w' : Wii) : Prop :=
  WiiRuns.Step w x.call w' ∧ Attended w x.call ∧ x.queued = added w x.call w'

/-- The replies among the reports that a call hands to the transport. -/
def Exchange.spoken (x : Exchange) : List Report := (sent x.call).filter isReply

def isExchange : Call → Bool
  | .changeAttachment _ _ _ (.ok ()) => true
  | _ => false

def isWrite : Call → Bool
  | .accept report _ (.ok ()) => report.id = some 0x16
  | _ => false

def choosesMode : Call → Bool
  | .accept report _ (.ok ()) => report.id = some 0x12
  | _ => false

/-- What a host is told about the accessory. -/
def attachment (w : Wii) : Kind × Bool × Option UInt8 :=
  (w.state.extension.kind, w.state.motionPlus.attached, w.memory.mpMode)

/-- A call that changes the accessory under the eyes of the host. -/
def Changes (w : Wii) (call : Call) (w' : Wii) : Prop :=
  w.active = true ∧ (isExchange call = true ∨ attachment w' ≠ attachment w)

/-- The accessory is replaced: exchanged for another, taken away with its MotionPlus, or hidden behind
one. -/
def replaced (w : Wii) (call : Call) (w' : Wii) : Bool :=
  match call with
  | .changeAttachment extension _ _ _ => replaces extension w
  | _ => (w.memory.mpMode.isSome && w'.memory.mpMode.isNone) ||
      (w.memory.mpMode.isNone && w.memory.options.motionplusActivationReattachStatus &&
        w.memory.present w.state)

section Edges

variable {w w₁ w' : Wii} {report : Report} {now : ℕ} {id code : UInt8} {p : List UInt8} {both : Bool}

theorem edgeReports_congr (both : Bool) (hstate : w'.state = w.state) (hmemory : w'.memory = w.memory)
    (hspeaker : w'.speaker = w.speaker) (hir : w'.irEnabled = w.irEnabled)
    (hleds : w'.outputs.leds = w.outputs.leds) : edgeReports both w' = edgeReports both w := by
  have hflags : flags w' = flags w := by
    unfold flags
    rw [hstate, hmemory, hspeaker, hir, hleds]
  have hwith (f : UInt8) : statusWith w' f = statusWith w f := by
    unfold statusWith
    simp only [hstate]
  have hstatus : status w' = status w := (congrArg (statusWith w') hflags).trans (hwith _)
  have hunplugged : unplugged w' = unplugged w :=
    (congrArg (fun f => statusWith w' (f &&& ~~~2)) hflags).trans (hwith _)
  unfold edgeReports
  rw [hstatus, hunplugged]

theorem deactivated_mpMode (slave : UInt8) (m : Memory) :
    (Memory.deactivateMotionPlus slave m).mpMode = none := by
  unfold Memory.deactivateMotionPlus
  dsimp only
  split
  · rfl
  · rfl

theorem single_byte {value : UInt8} (h : p.length = 21) (hshort : (p.getD 4 0).toNat ≤ 16)
    (hdata : (Store.of p).data = [value]) : p.getD 4 0 = 1 ∧ p.getD 5 0 = value := by
  have hlength := Store.length_data h hshort
  rw [hdata] at hlength
  have hone : (p.getD 4 0).toNat = 1 := hlength.symm
  refine ⟨UInt8.toNat_inj.mp hone, ?_⟩
  have hbyte : ((p.drop 5).take (p.getD 4 0).toNat).getD 0 0 = value := by
    rw [show (p.drop 5).take (p.getD 4 0).toNat = [value] from hdata]
    rfl
  rw [hone] at hbyte
  rw [← hbyte]
  simp [List.getD_eq_getElem?_getD]

/-- The room that was kept for two edges is used for two. -/
theorem switched_both {memory : Memory} (hadmitted : Admitted w report 0x16 both)
    (hshort : (report.payload.getD 4 0).toNat ≤ 16)
    (hrun : (Store.of report.payload).run w.state w.memory =
      ((.ok code : Outcome ReplyError UInt8), memory))
    (hstored : Stored (Store.of report.payload) w.state w.memory code memory)
    (hmode : memory.mpMode ≠ w.memory.mpMode) :
    both = ((w.memory.mpMode.isSome && memory.mpMode.isNone) ||
      (w.memory.mpMode.isNone && w.memory.options.motionplusActivationReattachStatus &&
        w.memory.present w.state)) := by
  obtain ⟨d, r, hd, hr, rfl⟩ := hadmitted.both_eq
  have hlength : report.payload.length = 21 := (payloadSize_eq hadmitted.size_eq).2.2.1 rfl
  cases hold : w.memory.mpMode with
  | none =>
    unfold deactivates at hd
    rw [hold, if_neg (by simp)] at hd
    cases hd
    unfold reattaches at hr
    rw [hold] at hr
    by_cases hguard : w.memory.options.motionplusActivationReattachStatus = true ∧
        w.memory.present w.state = true
    · rw [if_pos ⟨rfl, rfl, hguard⟩, write_eq hlength hshort, hrun] at hr
      cases hr
      have hsome : memory.mpMode.isSome = true := by
        rw [Option.isSome_iff_ne_none]
        exact fun h => hmode (h.trans hold.symm)
      have hne : memory.mpMode ≠ none := Option.isSome_iff_ne_none.mp hsome
      simp [hsome, hguard.1, hguard.2, hne]
    · rw [if_neg fun h => hguard h.2.2] at hr
      cases hr
      have hfalse : (w.memory.options.motionplusActivationReattachStatus &&
          w.memory.present w.state) = false := by
        simpa using hguard
      simp [hfalse]
  | some mode =>
    have hsome : w.memory.mpMode.isSome = true := by simp [hold]
    unfold reattaches at hr
    rw [hold, if_neg (by simp)] at hr
    cases hr
    unfold deactivates at hd
    rw [if_pos ⟨rfl, hsome⟩, index_eq (by omega), index_eq (by omega), index_eq (by omega),
      index_eq (by omega), index_eq (by omega)] at hd
    cases hd
    cases hstored with
    | select value hspace hselected hoffset hdata hknown =>
      obtain ⟨_, hvalue⟩ := single_byte hlength hshort hdata
      rw [decide_eq_false]
      · rfl
      · rintro ⟨_, _, _, hreset | hrefused⟩
        · exact absurd (hreset.1.symm.trans hoffset) (by decide)
        · exact hrefused.2 (hvalue ▸ hknown)
    | deactivate hspace hselected hreset =>
      have hslave : (Store.of report.payload).slave = 0x52 := by
        unfold Memory.motionPlusSelected at hselected
        rw [hold] at hselected
        simp only [Option.isNone_some, Option.isSome_some, Bool.and_false, Bool.and_true,
          Bool.false_or, Bool.and_eq_true, decide_eq_true_eq] at hselected
        exact hselected.2
      rw [decide_eq_true, deactivated_mpMode]
      · rfl
      · rcases hreset with ⟨value, hoffset, hdata, hknown⟩ | ⟨hoffset, hdata⟩
        · obtain ⟨hone, hvalue⟩ := single_byte hlength hshort hdata
          exact ⟨hspace, hslave, hone, .inr ⟨hoffset, hvalue ▸ hknown⟩⟩
        · obtain ⟨hone, hvalue⟩ := single_byte hlength hshort hdata
          exact ⟨hspace, hslave, hone, .inl ⟨hoffset, hvalue⟩⟩
    | _ => exact absurd rfl hmode

theorem edges_eq (both : Bool) (w : Wii) :
    edges both w = { w with pending := w.pending ++ edgeReports both w } := by
  cases both with
  | true =>
    rw [show edgeReports true w = [unplugged w] ++ [status w] from rfl, ← List.append_assoc]
    rfl
  | false => rfl

theorem drop_eq {queued : List Report} (h : w'.pending = w.pending ++ queued) :
    w'.pending.drop w.pending.length = queued := by
  rw [h, List.drop_left]

theorem accept_edges (h : Accepted report now w w') (hchange : attachment w' ≠ attachment w) :
    w'.reporting = .awaitingMode ∧ ∃ earlier, w'.pending = w.pending ++ (earlier ++
      edgeReports (replaced w (.accept report now (.ok ())) w') w') := by
  obtain ⟨id, both, w₁, hadmitted, hhandled, hfinished⟩ := h
  obtain ⟨outputs, queued, hw', hleds, _, hlength⟩ := finished_eq hfinished
  have hsame : attachment w' = attachment w₁ := by rw [hw']; rfl
  rw [hsame] at hchange
  cases hhandled with
  | @switched code memory hnonzero hshort hrun hstored hmode =>
    have hboth := switched_both hadmitted hshort hrun hstored hmode
    obtain rfl : queued = [] := List.eq_nil_of_length_eq_zero (Nat.le_zero.mp hlength)
    rw [edges_eq] at hw' hleds
    have hmemory : w'.memory = memory := by rw [hw']; rfl
    have hreplaced : replaced w (.accept report now (.ok ())) w' = both := by
      rw [hboth, ← hmemory]
      rfl
    have hreports : edgeReports both w' = edgeReports both
        { push (ack · 0x16 code) { w with memory } with reporting := .awaitingMode } := by
      rw [hw']
      exact edgeReports_congr both rfl rfl rfl rfl hleds
    refine ⟨by rw [hw'], [ack { w with memory } 0x16 code], ?_⟩
    rw [hreplaced, hreports, hw', ← List.append_assoc]
    exact List.append_nil _
  | write _ _ _ hmode =>
    exact absurd (congrArg (fun mode => (w.state.extension.kind, w.state.motionPlus.attached, mode))
      hmode) hchange
  | _ => exact absurd rfl hchange

theorem attached_edges {extension : WiiExtension} {motionPlus : Bool} (hactive : w.active = true)
    (h : Attached extension motionPlus now w w') :
    w'.reporting = .awaitingMode ∧
      w'.pending = w.pending ++ edgeReports (replaces extension w) w' := by
  cases h with
  | away haway => exact absurd (haway.symm.trans hactive) (by decide)
  | seen =>
    rw [edges_eq]
    exact ⟨rfl, congrArg (w.pending ++ ·) (edgeReports_congr _ rfl rfl rfl rfl rfl).symm⟩

theorem sent_attachment {state : WiiRemoteState} {reports : List Report}
    (hkind : state.extension.kind = w.state.extension.kind)
    (hattached : state.motionPlus.attached = w.state.motionPlus.attached)
    (h : Sent w state now reports w') : attachment w' = attachment w := by
  have hnew : attachment { w with state } = attachment w := by
    unfold attachment
    rw [hkind, hattached]
  cases h with
  | silent => exact hnew
  | batch _ _ hgenerated =>
    cases hgenerated with
    | awaiting => exact hnew
    | data => exact hnew

theorem call_edges {call : Call} (h : Sound w) (hs : WiiRuns.Step w call w') (ha : Attended w call)
    (hchange : Changes w call w') : w'.reporting = .awaitingMode ∧
      ∃ earlier, added w call w' = earlier ++ edgeReports (replaced w call w') w' := by
  obtain ⟨hactive, hchange⟩ := hchange
  cases call with
  | accept report now result =>
    have hother : attachment w' ≠ attachment w := hchange.resolve_left (by simp [isExchange])
    rcases accept_turn hs with ⟨rfl, haccepted⟩ | ⟨_, rfl⟩
    · obtain ⟨hawaits, earlier, hpending⟩ := accept_edges haccepted hother
      exact ⟨hawaits, earlier, drop_eq hpending⟩
    · exact absurd rfl hother
  | input state now result =>
    have hother : attachment w' ≠ attachment w := hchange.resolve_left (by simp [isExchange])
    rcases input_turn h.nonzero hs with ⟨_, _, _, hsent⟩ | ⟨_, _, rfl⟩
    · exact absurd (sent_attachment ha.1 ha.2 hsent) hother
    · exact absurd rfl hother
  | changeAttachment extension motionPlus now result =>
    rcases attachment_turn hs with ⟨rfl, hattached⟩ | ⟨hrefused, rfl⟩
    · obtain ⟨hawaits, hpending⟩ := attached_edges hactive hattached
      exact ⟨hawaits, [], drop_eq hpending⟩
    · rcases hchange with hchange | hchange
      · cases result with
        | ok _ => exact absurd rfl hrefused
        | error e => cases hchange
        | panicked => cases hchange
      · exact absurd rfl hchange
  | lifecycle event now => exact ha.elim

end Edges

section Batches

variable {w w' : Wii} {state : WiiRemoteState} {now : ℕ} {reports : List Report} {r : Report}

theorem reply_not_data (h : isReply r = true) : isData r = false := by
  have hmodes : ∀ mode ∈ modes, mode.1 ≠ 0x20 ∧ mode.1 ≠ 0x22 := by decide
  apply List.any_eq_false.mpr
  intro mode hmem
  simp only [isReply, Bool.or_eq_true, decide_eq_true_eq] at h
  rcases h with h | h
  · simp [h, (hmodes mode hmem).1.symm]
  · simp [h, (hmodes mode hmem).2.symm]

theorem data_not_reply {mode : UInt8} (h : DataReport mode r) : isReply r = false := by
  have hmodes : ∀ mode ∈ modes, mode.1 ≠ 0x20 ∧ mode.1 ≠ 0x22 := by decide
  have hmode := hmodes _ h.size
  simp [isReply, h.id_eq, hmode.1, hmode.2]

theorem greeting_replies (w : Wii) (state : WiiRemoteState) :
    ∀ r ∈ greeting w state, isReply r = true := by
  unfold greeting
  split
  · simp [isReply, status, statusWith]
  · simp

theorem chunked_rest {chunks : List Report} {read : Option Read} (h : Chunked w state chunks read) :
    ∀ r ∈ chunks, isReply r = false ∧ isData r = false := by
  cases h with
  | idle => simp
  | chunk _ _ _ hid =>
    intro r hr
    obtain rfl := List.mem_singleton.mp hr
    have hmodes : ∀ mode ∈ modes, mode.1 ≠ 0x21 := by decide
    refine ⟨by simp [isReply, hid], List.any_eq_false.mpr fun mode hmem => ?_⟩
    simp [hid, (hmodes mode hmem).symm]

theorem generated_rest {data : List Report} (h : Generated w data w') :
    ∀ r ∈ data, isReply r = false := by
  cases h with
  | awaiting => simp
  | data _ hreport =>
    intro r hr
    obtain rfl := List.mem_singleton.mp hr
    exact data_not_reply hreport

/-- An accepted input call hands over everything that is owed, and only then data. -/
theorem sent_batch (h : Sound w) (hs : Sent w state now reports w') :
    ∃ replies rest, reports = replies ++ rest ∧ (∀ r ∈ replies, isReply r = true) ∧
      (∀ r ∈ rest, isReply r = false) ∧ w'.pending = [] ∧
      ((w.active = true ∧ replies = greeting w state ++ w.pending ∧ w'.startStatus = false) ∨
        (w.active = false ∧ replies = [] ∧ w'.startStatus = w.startStatus)) := by
  cases hs with
  | silent haway =>
    exact ⟨[], [], rfl, List.forall_mem_nil _, List.forall_mem_nil _, h.hushed haway,
      .inr ⟨haway, rfl, rfl⟩⟩
  | @batch chunks data read w₁ hactive hchunked hgenerated =>
    refine ⟨greeting w state ++ w.pending, chunks ++ data, List.append_assoc _ _ _, ?_, ?_,
      (generated_keeps hgenerated).1, .inl ⟨hactive, rfl, ?_⟩⟩
    · intro r hr
      rcases List.mem_append.mp hr with hr | hr
      · exact greeting_replies w state r hr
      · exact h.replies r hr
    · intro r hr
      rcases List.mem_append.mp hr with hr | hr
      · exact (chunked_rest hchunked r hr).1
      · exact generated_rest hgenerated r hr
    · cases hgenerated with
      | awaiting => rfl
      | data => rfl

theorem filter_batch {replies rest : List Report} (hreplies : ∀ r ∈ replies, isReply r = true)
    (hrest : ∀ r ∈ rest, isReply r = false) : (replies ++ rest).filter isReply = replies := by
  rw [List.filter_append, List.filter_eq_self.mpr hreplies, List.filter_eq_nil_iff.mpr, List.append_nil]
  intro r hr
  simp [hrest r hr]

end Batches

section Silence

variable {w w' : Wii} {call : Call} {log : List Call}

/-- A personality that awaits a mode sends no data, and goes on waiting until one is chosen. -/
theorem step_silent (h : Sound w) (hs : WiiRuns.Step w call w') (hawaits : w.reporting = .awaitingMode)
    (hchoice : choosesMode call = false) :
    w'.reporting = .awaitingMode ∧ ∀ r ∈ sent call, isData r = false := by
  cases call with
  | accept report now result =>
    refine ⟨?_, List.forall_mem_nil _⟩
    rcases accept_turn hs with ⟨rfl, id, both, w₁, hadmitted, hhandled, hfinished⟩ | ⟨_, rfl⟩
    · obtain ⟨outputs, queued, rfl, _⟩ := finished_eq hfinished
      cases hhandled with
      | mode => simp [choosesMode, hadmitted.id_eq] at hchoice
      | switched => rw [edges_eq]
      | _ => exact hawaits
    · exact hawaits
  | input state now result =>
    rcases input_turn h.nonzero hs with ⟨reports, rfl, _, hsent⟩ | ⟨rfl, _, rfl⟩
    · cases hsent with
      | silent => exact ⟨hawaits, List.forall_mem_nil _⟩
      | batch _ hchunked hgenerated =>
        cases hgenerated with
        | data hrunning => exact absurd (hrunning.symm.trans hawaits) (by decide)
        | awaiting =>
          refine ⟨hawaits, fun r hr => ?_⟩
          have hmem := List.mem_append.mp ((List.append_nil _) ▸ hr)
          rcases hmem with hmem | hmem
          · rcases List.mem_append.mp hmem with hmem | hmem
            · exact reply_not_data (greeting_replies w state r hmem)
            · exact reply_not_data (h.replies r hmem)
          · exact (chunked_rest hchunked r hmem).2
    · exact ⟨hawaits, List.forall_mem_nil _⟩
  | changeAttachment extension motionPlus now result =>
    refine ⟨?_, List.forall_mem_nil _⟩
    rcases attachment_turn hs with ⟨_, hattached⟩ | ⟨_, rfl⟩
    · cases hattached with
      | away => rfl
      | seen =>
        rw [edges_eq]
        rfl
    · exact hawaits
  | lifecycle event now =>
    obtain rfl : w' = lifecycle event now w := hs
    refine ⟨?_, List.forall_mem_nil _⟩
    cases event with
    | start => exact hawaits
    | stop => exact hawaits
    | «open» => exact hawaits
    | close => exact hawaits

theorem run_silent (h : Sound w) (hawaits : w.reporting = .awaitingMode)
    (hrun : Run WiiRuns.Step w log w') (hchoice : ∀ call ∈ log, choosesMode call = false) :
    (Sound w' ∧ w'.reporting = .awaitingMode) ∧ ∀ call ∈ log, ∀ r ∈ sent call, isData r = false := by
  induction hrun with
  | nil => exact ⟨⟨h, hawaits⟩, List.forall_mem_nil _⟩
  | @snoc log t call u _ hstep ih =>
    obtain ⟨⟨hsound, hwaiting⟩, hquiet⟩ := ih fun call hmem =>
      hchoice call (List.mem_append_left _ hmem)
    have hlast := hchoice call (List.mem_append_right _ (List.mem_singleton_self call))
    obtain ⟨hwaits, hnone⟩ := step_silent hsound hstep hwaiting hlast
    refine ⟨⟨hsound.step hstep, hwaits⟩, fun c hmem => ?_⟩
    rcases List.mem_append.mp hmem with hmem | hmem
    · exact hquiet c hmem
    · obtain rfl := List.mem_singleton.mp hmem
      exact hnone

end Silence

section Order

variable {w w' : Wii} {call : Call} {log : List Exchange}

theorem handled_start {id : UInt8} {p : List UInt8} {both : Bool} (h : Handled p both w id w') :
    w'.startStatus = w.startStatus := by
  cases h with
  | switched => rw [edges_eq]; rfl
  | _ => rfl

/-- What a call other than input adds to the queue. -/
structure Queues (w : Wii) (call : Call) (w' : Wii) : Prop where
  pending_eq : w'.pending = w.pending ++ added w call w'
  start_eq : w'.startStatus = w.startStatus
  acks_eq : (added w call w').countP isWriteAck = if isWrite call = true then 1 else 0

theorem accept_queues {report : Report} {now : ℕ} {result : Outcome ReplyError Unit}
    (h : accept report now w = (result, w')) : Queues w (.accept report now result) w' := by
  rcases accept_turn h with ⟨rfl, haccepted⟩ | ⟨hrefused, rfl⟩
  · obtain ⟨queued, hadds, _⟩ := accepted_adds haccepted
    have hadded : added w (.accept report now (.ok ())) w' = queued := drop_eq hadds.pending_eq
    obtain ⟨id, both, w₁, hadmitted, hhandled, hfinished⟩ := haccepted
    obtain ⟨outputs, _, hw', _⟩ := finished_eq hfinished
    constructor
    · rw [hadded, hadds.pending_eq]
    · rw [hw']
      exact (handled_start hhandled :)
    · rw [hadded, hadds.acks_eq]
      simp [isWrite]
  · have hadded : added w' (.accept report now result) w' = [] := drop_eq (List.append_nil _).symm
    constructor
    · rw [hadded, List.append_nil]
    · rfl
    · rw [hadded]
      cases result with
      | ok _ => exact absurd rfl hrefused
      | error e => rfl
      | panicked => rfl

theorem attachment_queues {extension : WiiExtension} {motionPlus : Bool} {now : ℕ}
    {result : Outcome Error Unit} (h : changeAttachment extension motionPlus now w = (result, w')) :
    Queues w (.changeAttachment extension motionPlus now result) w' := by
  have hnothing (hpending : w'.pending = w.pending) (hstart : w'.startStatus = w.startStatus) :
      Queues w (.changeAttachment extension motionPlus now result) w' := by
    have hadded : added w (.changeAttachment extension motionPlus now result) w' = [] :=
      drop_eq (hpending.trans (List.append_nil _).symm)
    constructor
    · rw [hadded, hpending, List.append_nil]
    · exact hstart
    · rw [hadded]
      rfl
  rcases attachment_turn h with ⟨_, hattached⟩ | ⟨_, rfl⟩
  · cases hattached with
    | away => exact hnothing rfl rfl
    | seen =>
      have hadds := adds_edges (replaces extension w) (exchanged extension motionPlus w)
      have hadded := drop_eq hadds.pending_eq
      constructor
      · exact hadds.pending_eq.trans (congrArg (w.pending ++ ·) hadded.symm)
      · rw [edges_eq]
        rfl
      · exact (congrArg (List.countP isWriteAck) hadded).trans hadds.acks_eq
  · exact hnothing rfl rfl

/-- Everything owed has been handed over or is still queued, in the order in which it was asked for. A
start's status is owed before anything else. -/
structure Ordered (w : Wii) (log : List Exchange) (w' : Wii) (first : List Report) : Prop where
  balance : first ++ w.pending ++ log.flatMap Exchange.queued =
    log.flatMap Exchange.spoken ++ w'.pending
  starting : w'.startStatus = true →
    w.startStatus = true ∧ first = [] ∧ log.flatMap Exchange.spoken = []
  opening : first = [] ∨ w.startStatus = true ∧ ∃ v, first = [status v]

theorem flatMap_snoc (f : Exchange → List Report) (log : List Exchange) (x : Exchange) :
    (log ++ [x]).flatMap f = log.flatMap f ++ f x := by
  simp [List.flatMap_append]

theorem Ordered.queue {u : Wii} {first : List Report} (h : Ordered w log u first)
    (hq : Queues u call w') (hsent : sent call = []) :
    Ordered w (log ++ [⟨call, added u call w'⟩]) w' first := by
  have hspoken : (log ++ [Exchange.mk call (added u call w')]).flatMap Exchange.spoken =
      log.flatMap Exchange.spoken := by
    rw [flatMap_snoc, show Exchange.spoken ⟨call, added u call w'⟩ = [] by simp [Exchange.spoken, hsent],
      List.append_nil]
  constructor
  · rw [hspoken, flatMap_snoc, hq.pending_eq, ← List.append_assoc, h.balance, List.append_assoc]
  · intro hstart
    rw [hspoken]
    exact h.starting (hq.start_eq ▸ hstart)
  · exact h.opening

theorem Ordered.input {u : Wii} {first : List Report} {state : WiiRemoteState} {now : ℕ}
    {result : Outcome Error (List Report)} (hsound : Sound u) (h : Ordered w log u first)
    (hs : inputReports state now u = (result, w')) :
    ∃ first', Ordered w (log ++ [⟨.input state now result, []⟩]) w' first' := by
  have hqueued : (log ++ [Exchange.mk (.input state now result) []]).flatMap Exchange.queued =
      log.flatMap Exchange.queued := by
    rw [flatMap_snoc]
    exact List.append_nil _
  rcases input_turn hsound.nonzero hs with ⟨reports, rfl, _, hsent⟩ | ⟨rfl, _, rfl⟩
  · obtain ⟨replies, rest, rfl, hreplies, hrest, hpending, hstate⟩ := sent_batch hsound hsent
    have hspoken : (log ++ [Exchange.mk (.input state now (.ok (replies ++ rest))) []]).flatMap Exchange.spoken =
        log.flatMap Exchange.spoken ++ replies := by
      rw [flatMap_snoc]
      exact congrArg _ (filter_batch hreplies hrest)
    rcases hstate with ⟨_, rfl, hstart⟩ | ⟨haway, rfl, hstart⟩
    · have hstarted : ¬w'.startStatus = true := by simp [hstart]
      cases hgreet : u.startStatus with
      | false =>
        have hgreeting : greeting u state = [] := by simp [greeting, hgreet]
        refine ⟨first, ?_, fun hs => absurd hs hstarted, h.opening⟩
        rw [hqueued, hspoken, hpending, hgreeting, h.balance, List.nil_append, List.append_nil]
      | true =>
        obtain ⟨hopen, rfl, hnone⟩ := h.starting hgreet
        have hgreeting : greeting u state = [status { u with state }] := by simp [greeting, hgreet]
        refine ⟨[status { u with state }], ?_, fun hs => absurd hs hstarted, .inr ⟨hopen, _, rfl⟩⟩
        have hbalance := h.balance
        rw [hnone, List.nil_append, List.nil_append] at hbalance
        rw [hqueued, hspoken, hnone, hpending, hgreeting, List.append_assoc, hbalance,
          List.nil_append, List.append_nil]
    · refine ⟨first, ?_, fun hs => ?_, h.opening⟩
      · rw [hqueued, hspoken, hpending, h.balance, hsound.hushed haway, List.append_nil, List.append_nil]
      · rw [hspoken, List.append_nil]
        exact h.starting (hstart ▸ hs)
  · have hspoken : (log ++ [Exchange.mk (.input state now (.error .invalidState)) []]).flatMap Exchange.spoken =
        log.flatMap Exchange.spoken := by
      rw [flatMap_snoc]
      exact List.append_nil _
    refine ⟨first, ?_, fun hs => ?_, h.opening⟩
    · rw [hqueued, hspoken, h.balance]
    · rw [hspoken]
      exact h.starting hs

theorem run_ordered (h : Sound w) (hrun : Run Exchange.Step w log w') :
    Sound w' ∧ ∃ first, Ordered w log w' first := by
  induction hrun with
  | nil => exact ⟨h, [], by simp, fun hs => ⟨hs, rfl, rfl⟩, .inl rfl⟩
  | @snoc log t x u _ hstep ih =>
    obtain ⟨hsound, first, hordered⟩ := ih
    obtain ⟨call, queued⟩ := x
    obtain ⟨hcall, hattended, hqueued⟩ := hstep
    obtain rfl : queued = added t call u := hqueued
    refine ⟨hsound.step hcall, ?_⟩
    cases call with
    | accept report now result => exact ⟨first, hordered.queue (accept_queues hcall) rfl⟩
    | input state now result => exact hordered.input hsound hcall
    | changeAttachment extension motionPlus now result =>
      exact ⟨first, hordered.queue (attachment_queues hcall) rfl⟩
    | lifecycle event now => exact hattended.elim

theorem step_acks {x : Exchange} (h : x.Step w w') :
    x.queued.countP isWriteAck = if isWrite x.call = true then 1 else 0 := by
  obtain ⟨call, queued⟩ := x
  obtain ⟨hcall, hattended, hqueued⟩ := h
  obtain rfl : queued = added w call w' := hqueued
  cases call with
  | accept report now result => exact (accept_queues hcall).acks_eq
  | input state now result => rfl
  | changeAttachment extension motionPlus now result => exact (attachment_queues hcall).acks_eq
  | lifecycle event now => exact hattended.elim

theorem run_acks (h : Run Exchange.Step w log w') :
    (log.flatMap Exchange.queued).countP isWriteAck = log.countP fun x => isWrite x.call := by
  induction h with
  | nil => rfl
  | snoc _ hstep ih =>
    rw [flatMap_snoc, List.countP_append, ih, step_acks hstep, List.countP_append, List.countP_singleton]

end Order

/-- What holds of every session of a personality from a state on. -/
structure Conversation (w : Wii) : Prop where
  /-- A change of the accessory is announced by the last replies that its call queues. -/
  edges : ∀ x w', Exchange.Step w x w' → Changes w x.call w' →
    ∃ earlier, x.queued = earlier ++ edgeReports (replaced w x.call w') w'
  /-- After it no data report is sent before the host has chosen a mode, whatever else happens. -/
  silence : ∀ x u log w', Exchange.Step w x u → Changes w x.call u → Run WiiRuns.Step u log w' →
    (∀ call ∈ log, choosesMode call = false) → ∀ call ∈ log, ∀ r ∈ sent call, isData r = false
  /-- Replies are handed over once and in the order in which they were queued. -/
  inOrder : ∀ log w', Run Exchange.Step w log w' → ∃ first,
    (first = [] ∨ w.startStatus = true ∧ ∃ v, first = [status v]) ∧
      first ++ w.pending ++ log.flatMap Exchange.queued =
        log.flatMap Exchange.spoken ++ w'.pending
  /-- A batch leaves no reply behind, and its replies precede everything else in it. -/
  repliesFirst : ∀ state now reports w', WiiRuns.Step w (.input state now (.ok reports)) w' →
    w'.pending = [] ∧ ∃ replies rest, reports = replies ++ rest ∧
      (∀ r ∈ replies, isReply r = true) ∧ ∀ r ∈ rest, isReply r = false
  /-- An accepted memory write queues one acknowledgement, and nothing else queues any. -/
  acknowledged : ∀ x w', Exchange.Step w x w' →
    x.queued.countP isWriteAck = if isWrite x.call = true then 1 else 0
  /-- Acknowledgements of writes are neither lost nor made up on the way to the host. -/
  acknowledgements : ∀ log w', Run Exchange.Step w log w' →
    (log.flatMap Exchange.spoken).countP isWriteAck + w'.pending.countP isWriteAck =
      w.pending.countP isWriteAck + log.countP fun x => isWrite x.call

theorem conversation {w : Wii} (h : Reachable w) : Conversation w := by
  have hsound := reachable_sound h
  constructor
  · intro x w' hstep hchange
    obtain ⟨_, earlier, hedges⟩ := call_edges hsound hstep.1 hstep.2.1 hchange
    exact ⟨earlier, hstep.2.2.trans hedges⟩
  · intro x u log w' hstep hchange hrun hchoice
    obtain ⟨hawaits, _⟩ := call_edges hsound hstep.1 hstep.2.1 hchange
    exact (run_silent (hsound.step hstep.1) hawaits hrun hchoice).2
  · intro log w' hrun
    obtain ⟨_, first, hordered⟩ := run_ordered hsound hrun
    exact ⟨first, hordered.opening, hordered.balance⟩
  · intro state now reports w' hstep
    rcases input_turn hsound.nonzero hstep with ⟨_, hreports, _, hsent⟩ | ⟨hreports, _⟩
    · cases hreports
      obtain ⟨replies, rest, hbatch, hreplies, hrest, hpending, _⟩ := sent_batch hsound hsent
      exact ⟨hpending, replies, rest, hbatch, hreplies, hrest⟩
    · cases hreports
  · intro x w' hstep
    exact step_acks hstep
  · intro log w' hrun
    obtain ⟨_, first, hordered⟩ := run_ordered hsound hrun
    have hbalance := congrArg (List.countP isWriteAck) hordered.balance
    have hfirst : first.countP isWriteAck = 0 := by
      rcases hordered.opening with rfl | ⟨_, v, rfl⟩
      · rfl
      · rfl
    rw [List.countP_append, List.countP_append, List.countP_append, run_acks hrun, hfirst,
      Nat.zero_add] at hbalance
    exact hbalance.symm

theorem conversation_new : Conversation (hidProtocol .original .default .default) :=
  conversation ⟨.original, .default, .default, [], rfl, .nil⟩

end WiiConversation
