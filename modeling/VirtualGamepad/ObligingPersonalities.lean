import VirtualGamepad.PersonalitySilence

/-! No family's personality brings its own session down: it replies to requests in their form, and its
batches fit the queue of a session with the default limits. -/
namespace ObligingPersonalities

open ControllerContract HidPersonality HidRuntime HidRuntimeLedger HostOutputs Runs
  SnapshotPersonalities SwitchPersonality SteamHid
open Fallible (Meets meets_state)

section Sessions

variable {P T S O : Type} [Protocol P S O]

/-- As long as it is fit, a personality reports little enough at a time, and input reports only. It answers
a request in its form, unless the request is too much for it. -/
structure Obliges (most : ℕ) (overtaxing : RequestKind → Prop) (fit : P → Prop) : Prop where
  input : ∀ (p : P) state now, fit p → Meets (Protocol.input state now p)
    (fun reports p' => (reports.length ≤ most ∧ ∀ r ∈ reports, r.kind = .input) ∧ fit p') (fun _ _ => True)
  request : ∀ (p : P) kind now, fit p → fit (Protocol.request p kind now).2
  reply : ∀ (p : P) kind now, fit p →
    validateReply kind (Protocol.request p kind now).1.1 = .ok () ∨ overtaxing kind
  output : ∀ (p : P) report now, fit p → fit (Protocol.output report now p).2
  lifecycle : ∀ (p : P) event now, fit p → fit (Protocol.lifecycle p event now).2
  delivered : ∀ (p : P) command outcome, fit p → fit (Protocol.delivered p command outcome)

/-- A call of the log in which the session could take what its personality gave. -/
structure Obliged (limits : Limits) (overtaxing : RequestKind → Prop) (e : Entry P S) : Prop where
  batch : ∀ state reports, e.call = .input state (.ok reports) → Acceptable limits reports
  reply : ∀ kind reply, e.call = .request kind reply →
    validateReply kind reply = .ok () ∨ overtaxing kind

variable {session most : ℕ} {limits : Limits} {s t : Ledger P} {e : Entry P S}
  {calls : List (Entry P S)} {fit : P → Prop} {overtaxing : RequestKind → Prop}

theorem call_fit (h : Obliges most overtaxing fit) {p p' : P} {call : PersonalityCall P S} (hp : fit p)
    (hstep : PersonalityStep p call p') (hcall : ¬IsReplace call) : fit p' := by
  cases call with
  | request kind now reply =>
    obtain ⟨_, rfl⟩ := hstep
    exact h.request p kind now hp
  | output report now result =>
    obtain ⟨_, rfl⟩ := hstep
    exact h.output p report now hp
  | lifecycle event now =>
    obtain rfl := hstep
    exact h.lifecycle p event now hp
  | input state now reports =>
    have hinput := h.input p state now hp
    rw [show Protocol.input state now p = (.ok reports, p') from hstep] at hinput
    exact hinput.2
  | delivered command outcome =>
    obtain rfl := hstep
    exact h.delivered p command outcome hp
  | replace protocol => exact absurd trivial hcall

theorem step_fit (h : Obliges most overtaxing fit) (hs : fit s.protocol)
    (hstep : Ledger.Step session limits s e t) (hcall : replaces e.call = false) : fit t.protocol := by
  cases hpersonality : personalityCall limits e with
  | none =>
    rw [step_silent hstep hpersonality]
    exact hs
  | some call =>
    exact call_fit h hs (step_personality hstep hpersonality) (not_isReplace hpersonality hcall)

theorem step_obliged (h : Obliges most overtaxing fit) (hmost : most ≤ limits.inputQueue)
    (hs : fit s.protocol) (hstep : Ledger.Step session limits s e t) :
    Obliged limits overtaxing e := by
  obtain ⟨now, logged⟩ := e
  constructor
  · intro state reports hcall
    obtain rfl : logged = .input state (.ok reports) := hcall
    obtain ⟨_, _, _, hresult, _⟩ := hstep
    have hbatch := h.input s.protocol state now hs
    rcases hrun : Protocol.input state now s.protocol with ⟨result, candidate⟩
    rw [hrun] at hresult hbatch
    subst hresult
    exact ⟨hbatch.1.1.trans hmost, hbatch.1.2⟩
  · intro kind reply hcall
    obtain rfl : logged = .request kind reply := hcall
    obtain ⟨_, r, _, rfl, _, hreply, _⟩ := hstep
    rw [hreply]
    exact h.reply s.protocol r.kind now hs

theorem run_obliged (h : Obliges most overtaxing fit) (hmost : most ≤ limits.inputQueue)
    (hs : fit s.protocol) (hrun : Run (Ledger.Step session limits) s calls t) (hcalls : Unreplaced calls) :
    fit t.protocol ∧ ∀ e ∈ calls, Obliged limits overtaxing e := by
  induction hrun with
  | nil => exact ⟨hs, List.forall_mem_nil _⟩
  | @snoc calls t e u _ hstep ih =>
    obtain ⟨ht, hobliged⟩ := ih fun d hd => hcalls d (List.mem_append_left _ hd)
    refine ⟨step_fit h ht hstep (hcalls e (by simp)), ?_⟩
    intro d hd
    rcases List.mem_append.mp hd with hd | hd
    · exact hobliged d hd
    · obtain rfl := List.mem_singleton.mp hd
      exact step_obliged h hmost ht hstep

/-- A session whose personality is never exchanged. -/
theorem reachable_obliged [Transport T] {first : P} {transport : T} {rt : Runtime P T S O}
    (hobliges : Obliges most overtaxing fit) (hmost : most ≤ limits.inputQueue) (hfirst : fit first)
    (h : Reachable first transport session limits rt) (hcalls : Unreplaced rt.calls) :
    ∀ e ∈ rt.calls, Obliged limits overtaxing e := by
  obtain ⟨_, _, hrun⟩ := (reachable_resting h).run
  exact (run_obliged hobliges hmost hfirst hrun hcalls).2

end Sessions

section Features

open RetainedOutputs (OutputState)

variable {S R : Type} [OutputState R] {features : Features} {id : UInt8} {report : Report}

/-- Each feature report of a table starts with its own number. -/
def Keyed (features : Features) : Prop :=
  ∀ entry ∈ features, entry.1.reportId ≠ 0 ∧ entry.2.head? = some entry.1.reportId

theorem lookup_mem {key : NativeHidReportKey} {bytes : List UInt8}
    (h : features.lookup key = some bytes) : (key, bytes) ∈ features := by
  induction features with
  | nil => cases h
  | cons entry features ih =>
    rw [List.lookup_cons] at h
    split at h
    · next heq =>
      cases h
      rw [eq_of_beq heq]
      exact List.mem_cons_self
    · exact List.mem_cons_of_mem _ (ih h)

/-- A table answers for a number with a report of that number. -/
theorem feature_id (hkeyed : Keyed features) (h : feature features true id = .ok report) :
    report.kind = .feature ∧ report.id = some id ∧ id ≠ 0 := by
  unfold feature at h
  cases hlookup : features.lookup ⟨id, 0⟩ with
  | none =>
    rw [hlookup] at h
    cases h
  | some bytes =>
    rw [hlookup] at h
    obtain ⟨hnumber, hhead⟩ := hkeyed _ (lookup_mem hlookup)
    dsimp only at h hnumber hhead
    cases bytes with
    | nil => cases hhead
    | cons first payload =>
      obtain rfl := Option.some.inj hhead
      unfold Report.fromWire Report.new at h
      rw [if_pos rfl] at h
      dsimp only at h
      by_cases hframed : Framed (some first) payload
      · rw [dif_pos hframed] at h
        cases h
        exact ⟨rfl, rfl, hnumber⟩
      · rw [dif_neg hframed] at h
        cases h

theorem dualsense_keyed (identity : Vector UInt8 6) : Keyed (dualsenseFeatureResponses identity) := by
  intro entry hentry
  simp only [dualsenseFeatureResponses, List.mem_cons, List.not_mem_nil, or_false] at hentry
  rcases hentry with rfl | rfl | rfl | rfl
  · exact ⟨by simp, rfl⟩
  · exact ⟨by simp, rfl⟩
  · exact ⟨by simp, rfl⟩
  · exact ⟨by simp, rfl⟩

theorem dualshock4_keyed (identity : Vector UInt8 6) : Keyed (dualshock4FeatureResponses identity) := by
  intro entry hentry
  simp only [dualshock4FeatureResponses, List.mem_cons, List.not_mem_nil, or_false] at hentry
  rcases hentry with rfl | rfl | rfl
  · exact ⟨by simp, rfl⟩
  · exact ⟨by simp, rfl⟩
  · exact ⟨by simp, rfl⟩

/-- What lets a snapshot answer in form. -/
structure Formed (p : SnapshotProtocol S R) : Prop where
  keyed : Keyed p.features
  numbered : p.features = [] ∨ p.numbered.2.2 = true
  encode : ∀ state now sequence, (p.encode state now sequence).kind = .input
  last : ∀ report, p.last = some report → report.kind = .input

theorem formed_feature {p : SnapshotProtocol S R} (h : Formed p) {id : Option UInt8}
    (hfeature : feature p.features p.numbered.2.2 (id.getD 0) = .ok report) :
    report.kind = .feature ∧ report.id = id := by
  rcases h.numbered with hnone | hnumbered
  · rw [hnone] at hfeature
    cases hfeature
  · rw [hnumbered] at hfeature
    obtain ⟨hkind, hid, hnonzero⟩ := feature_id h.keyed hfeature
    cases id with
    | none => exact absurd rfl hnonzero
    | some id => exact ⟨hkind, hid⟩

theorem snapshot_reply {p : SnapshotProtocol S R} (h : Formed p) (kind : RequestKind) :
    validateReply kind (p.request kind).1.1 = .ok () := by
  cases kind with
  | get kind id =>
    cases kind with
    | feature =>
      change validateReply _ (.get (feature p.features p.numbered.2.2 (id.getD 0))) = _
      cases hfeature : feature p.features p.numbered.2.2 (id.getD 0) with
      | ok report => exact if_pos (formed_feature h hfeature)
      | error e => rfl
    | input =>
      unfold SnapshotProtocol.request
      dsimp only
      cases hlast : p.last with
      | none => rfl
      | some report =>
        dsimp only
        by_cases hid : report.id = id
        · rw [if_pos hid]
          exact if_pos ⟨h.last report hlast, hid⟩
        · rw [if_neg hid]
          rfl
    | output => rfl
    | other code => rfl
  | set report =>
    unfold SnapshotProtocol.request
    dsimp only
    cases accepting p.applies p.retained report with
    | ok retained => rfl
    | error e => rfl

theorem snapshot_input {p : SnapshotProtocol S R} (h : Formed p) (state : S) (now : ℕ) :
    Meets (SnapshotProtocol.input state now p)
      (fun reports p' => (reports.length ≤ 1 ∧ ∀ r ∈ reports, r.kind = .input) ∧ Formed p')
      (fun _ _ => True) := by
  unfold SnapshotProtocol.input
  split
  · exact trivial
  · split
    · exact ⟨⟨Nat.zero_le _, List.forall_mem_nil _⟩, h⟩
    · refine ⟨⟨Nat.le_refl _, ?_⟩, h.keyed, h.numbered, h.encode, ?_⟩
      · intro r hr
        obtain rfl := List.mem_singleton.mp hr
        exact h.encode _ _ _
      · intro r hr
        cases hr
        exact h.encode _ _ _

theorem snapshot_obliges : Obliges 1 (fun _ => False) (Formed (S := S) (R := R)) := by
  constructor
  · intro p state now hp
    exact snapshot_input hp state now
  · intro p kind now hp
    change Formed (SnapshotProtocol.request p kind).2
    cases kind with
    | get kind id =>
      rw [snapshot_get]
      exact hp
    | set report =>
      unfold SnapshotProtocol.request
      dsimp only
      cases accepting p.applies p.retained report with
      | ok retained => exact ⟨hp.keyed, hp.numbered, hp.encode, hp.last⟩
      | error e => exact hp
  · intro p kind now hp
    exact .inl (snapshot_reply hp kind)
  · intro p report now hp
    change Formed (SnapshotProtocol.output report p).2
    unfold SnapshotProtocol.output
    split
    · cases accepting p.applies p.retained report with
      | ok retained => exact ⟨hp.keyed, hp.numbered, hp.encode, hp.last⟩
      | error e => exact hp
    · exact hp
  · intro p event now hp
    cases event with
    | start _ _ _ => exact ⟨hp.keyed, hp.numbered, hp.encode, hp.last⟩
    | stop => exact ⟨hp.keyed, hp.numbered, hp.encode, hp.last⟩
    | «open» => exact hp
    | close => exact hp
  · intro p command outcome hp
    exact hp

theorem dualshock4_formed (identity : Vector UInt8 6) : Formed (dualshock4Protocol identity) :=
  ⟨dualshock4_keyed identity, .inr rfl, fun _ _ _ => rfl, fun _ h => (by cases h)⟩

theorem xbox360_formed : Formed xbox360Protocol :=
  ⟨List.forall_mem_nil _, .inl rfl, fun _ _ _ => rfl, fun _ h => (by cases h)⟩

/-- What lets a DualSense answer in form. -/
structure DualSenseFormed (p : DualSenseUsbProtocol R) : Prop where
  keyed : Keyed p.features
  last : ∀ report, p.lastInput = some report → report.kind = .input ∧ report.id = some 1

theorem dualSense_reply {p : DualSenseUsbProtocol R} (h : DualSenseFormed p) (kind : RequestKind) :
    validateReply kind (p.request kind).1.1 = .ok () := by
  cases kind with
  | get kind id =>
    cases kind with
    | feature =>
      cases id with
      | none => rfl
      | some id =>
        change validateReply _ (.get (feature p.features true id)) = _
        cases hfeature : feature p.features true id with
        | ok report =>
          obtain ⟨hkind, hid, _⟩ := feature_id h.keyed hfeature
          exact if_pos ⟨hkind, hid⟩
        | error e => rfl
    | input =>
      unfold DualSenseUsbProtocol.request
      dsimp only
      cases hlast : p.lastInput with
      | none => rfl
      | some report =>
        dsimp only
        by_cases hid : id = some 1
        · rw [if_pos hid, hid]
          exact if_pos (h.last report hlast)
        · rw [if_neg hid]
          rfl
    | output => rfl
    | other code => rfl
  | set report =>
    unfold DualSenseUsbProtocol.request
    dsimp only
    cases accepting p.applies p.retained report with
    | ok retained => rfl
    | error e => rfl

theorem dualSense_obliges : Obliges 1 (fun _ => False) (DualSenseFormed (R := R)) := by
  constructor
  · intro p state now hp
    change Meets (DualSenseUsbProtocol.input state now p) _ _
    unfold DualSenseUsbProtocol.input
    split
    · exact trivial
    · split
      · exact ⟨⟨Nat.zero_le _, List.forall_mem_nil _⟩, hp⟩
      · refine ⟨⟨Nat.le_refl _, ?_⟩, hp.keyed, ?_⟩
        · intro r hr
          obtain rfl := List.mem_singleton.mp hr
          rfl
        · intro r hr
          cases hr
          exact ⟨rfl, rfl⟩
  · intro p kind now hp
    change DualSenseFormed (DualSenseUsbProtocol.request p kind).2
    cases kind with
    | get kind id =>
      rw [dualSense_get]
      exact hp
    | set report =>
      unfold DualSenseUsbProtocol.request
      dsimp only
      cases accepting p.applies p.retained report with
      | ok retained => exact ⟨hp.keyed, hp.last⟩
      | error e => exact hp
  · intro p kind now hp
    exact .inl (dualSense_reply hp kind)
  · intro p report now hp
    change DualSenseFormed (DualSenseUsbProtocol.output report p).2
    unfold DualSenseUsbProtocol.output
    split
    · cases accepting p.applies p.retained report with
      | ok retained => exact ⟨hp.keyed, hp.last⟩
      | error e => exact hp
    · exact hp
  · intro p event now hp
    cases event with
    | start _ _ _ => exact ⟨hp.keyed, hp.last⟩
    | stop => exact ⟨hp.keyed, hp.last⟩
    | «open» => exact hp
    | close => exact hp
  · intro p command outcome hp
    exact hp

theorem dualSense_formed (identity : Vector UInt8 6) : DualSenseFormed (.new identity) :=
  ⟨dualsense_keyed identity, fun _ h => (by cases h)⟩

end Features

section Switch

variable {p next : SwitchUsbProtocol} {report : Report} {now : ℕ}

/-- The replies that wait are input reports, and never too many. -/
structure Waiting (p : SwitchUsbProtocol) : Prop where
  length : p.pending.length ≤ SwitchUsbProtocol.pendingSlots
  kinds : ∀ r ∈ p.pending, r.kind = .input

theorem Waiting.add (h : Waiting p) (hroom : p.pending.length ≠ SwitchUsbProtocol.pendingSlots)
    {reply : Report} (hreply : reply.kind = .input) (hpending : next.pending = p.pending ++ [reply]) :
    Waiting next := by
  constructor
  · rw [hpending, List.length_append]
    exact Nat.lt_of_le_of_ne h.length hroom
  · intro r hr
    rw [hpending] at hr
    rcases List.mem_append.mp hr with hold | hnew
    · exact h.kinds r hold
    · obtain rfl := List.mem_singleton.mp hnew
      exact hreply

theorem Waiting.process (h : Waiting p) (hprocess : p.process report now = .ok next) : Waiting next := by
  unfold SwitchUsbProtocol.process at hprocess
  split at hprocess
  · cases hprocess
  · next first hinner =>
    have htakes := SwitchUsbProtocol.processInner_takes hinner
    have hfirst : Waiting first := by
      cases htakes.taken with
      | command _ _ => exact h.add htakes.room rfl rfl
      | subcommand _ _ => exact h.add htakes.room rfl rfl
      | rumble _ _ => exact ⟨h.length, h.kinds⟩
    split at hprocess
    · cases hprocess
    · cases hprocess
      exact ⟨hfirst.length, hfirst.kinds⟩

theorem switch_obliges : Obliges 32 (fun _ => False) Waiting := by
  constructor
  · intro p state now hp
    change Meets (SwitchUsbProtocol.input state now p) _ _
    unfold SwitchUsbProtocol.input
    split
    · exact trivial
    · split
      · exact ⟨⟨Nat.zero_le _, List.forall_mem_nil _⟩, hp⟩
      · refine ⟨⟨?_, ?_⟩, Nat.zero_le _, List.forall_mem_nil _⟩
        · rw [List.length_append]
          exact Nat.succ_le_succ hp.length
        · intro r hr
          rcases List.mem_append.mp hr with hold | hnew
          · exact hp.kinds r hold
          · obtain rfl := List.mem_singleton.mp hnew
            rfl
  · intro p kind now hp
    change Waiting (SwitchUsbProtocol.request p kind now).2
    cases kind with
    | get kind id => exact hp
    | set report =>
      unfold SwitchUsbProtocol.request
      dsimp only
      cases hprocess : p.process report now with
      | ok next => exact hp.process hprocess
      | error e => exact hp
  · intro p kind now hp
    refine .inl ?_
    change validateReply kind (SwitchUsbProtocol.request p kind now).1.1 = _
    cases kind with
    | get kind id => rfl
    | set report =>
      unfold SwitchUsbProtocol.request
      dsimp only
      cases p.process report now with
      | ok next => rfl
      | error e => rfl
  · intro p report now hp
    change Waiting (SwitchUsbProtocol.output report now p).2
    unfold SwitchUsbProtocol.output
    cases hprocess : p.process report now with
    | ok next => exact hp.process hprocess
    | error e =>
      cases e with
      | busy => exact hp
      | unsupported => exact hp
      | invalid => exact hp
  · intro p event now hp
    cases event with
    | start _ _ _ => exact ⟨hp.length, hp.kinds⟩
    | stop => exact ⟨Nat.zero_le _, List.forall_mem_nil _⟩
    | «open» => exact hp
    | close => exact hp
  · intro p command outcome hp
    exact hp

end Switch

section Steam

open Panicking (bind_run_ok get_bind_run modify_bind_run lift_ok_bind_run)
open SteamController SteamStreaming SteamTurns

variable {p p' : SteamProtocol} {report : Report} {haptic : Haptic} {now : ℕ}

theorem heard_sound (h : Heard p report now haptic p') (hp : AllSound p.stream) : AllSound p'.stream := by
  cases h with
  | @stream packet stream haccept =>
    have hsound := accept_sound now packet hp
    rw [haccept] at hsound
    exact hsound
  | slot _ _ =>
    unfold retainHaptic
    split
    · exact hp
    · exact hp

theorem attempt_poll (now : ℕ) (p : SteamProtocol) : ∃ result : Except ReplyError (List Report),
    (attempt (onStream (poll now)) p : Panicking.Outcome Error _ × _) =
      (.ok result, { p with stream := (poll now p.stream).2 }) := by
  unfold attempt onStream
  rcases poll now p.stream with ⟨e | reports, stream⟩
  · exact ⟨_, rfl⟩
  · exact ⟨_, rfl⟩

theorem input_sound (state : State) (now : ℕ) (hp : AllSound p.stream) :
    AllSound (SteamProtocol.input state now p).2.stream := by
  have hpoll : AllSound (poll now p.stream).2 := meets_state.mp (poll_sound now hp)
  unfold SteamProtocol.input
  rw [get_bind_run]
  cases p.validate state with
  | error e => exact hp
  | ok _ =>
    change AllSound (((Panicking.Action.lift (.ok ())) >>= fun _ =>
      (_ : Panicking.Action Error SteamProtocol (List Report))) p).2.stream
    rw [lift_ok_bind_run]
    by_cases hstopped : p.stopped = true
    · rw [if_pos hstopped]
      exact hp
    · rw [if_neg hstopped, modify_bind_run, modify_bind_run]
      obtain ⟨result, hresult⟩ := attempt_poll now
        { p with refresh := none, sequence := p.sequence + 1 }
      rw [bind_run_ok hresult]
      cases result with
      | ok reports => exact hpoll
      | error e => exact hpoll

theorem request_sound (p : SteamHidProtocol) (kind : RequestKind) (now : ℕ)
    (hp : AllSound p.protocol.stream) : AllSound (p.request kind now).2.protocol.stream := by
  obtain ⟨answer, p', hrun, hturn⟩ := request_turn kind now p.serial
  rw [request_protocol, hrun]
  cases hturn with
  | get => exact hp
  | heard _ _ hheard => exact heard_sound hheard hp
  | refused _ => exact hp
  | feature _ _ => exact hp

theorem request_valid (p : SteamHidProtocol) (kind : RequestKind) (now : ℕ) :
    validateReply kind (p.request kind now).1.1 = .ok () := by
  have hreplies := request_replies kind now p.serial
  obtain ⟨⟨reply, output⟩, hrun⟩ := hreplies.returns
  have hvalid := hreplies.valid reply output hrun
  unfold SteamHidProtocol.request
  rw [value_ok hrun]
  dsimp only
  split
  · exact hvalid
  · exact hvalid

theorem steam_obliges : Obliges 21 (fun _ => False)
    (fun p : SteamHidProtocol => AllSound p.protocol.stream) := by
  constructor
  · intro p state now hp
    change Meets (SteamHidProtocol.input state now p) _ _
    have hsound := input_sound state now hp
    rw [← input_protocol] at hsound
    have hspec := input_spec state now p.protocol
    rcases hrun : SteamHidProtocol.input state now p with ⟨e | reports, p'⟩
    · exact trivial
    · have hreturned : (SteamProtocol.input state now p.protocol).1 = .ok reports :=
        (Panicking.returned_eq_ok _).mp (congrArg Prod.fst hrun)
      rcases hinner : SteamProtocol.input state now p.protocol with ⟨result, q⟩
      rw [hinner] at hreturned hspec
      obtain rfl : result = .ok reports := hreturned
      have hpolled : Polled p.protocol reports q := hspec
      rw [hrun] at hsound
      exact ⟨⟨hpolled.length.trans (Nat.add_le_add_right hp.2 5), hpolled.kinds⟩, hsound⟩
  · intro p kind now hp
    exact request_sound p kind now hp
  · intro p kind now hp
    exact .inl (request_valid p kind now)
  · intro p report now hp
    change AllSound (SteamHidProtocol.output report now p).2.protocol.stream
    rw [output_protocol]
    rcases output_cases report now p.protocol with ⟨haptic, p', hrun, _, hheard⟩ | ⟨e, hrun⟩
    · rw [hrun]
      exact heard_sound hheard hp
    · rw [hrun]
      exact hp
  · intro p event now hp
    change AllSound (p.lifecycle event now).protocol.stream
    rw [lifecycle_protocol]
    cases event with
    | start _ _ _ => exact reset_sound hp
    | stop => exact reset_sound hp
    | «open» => exact hp
    | close => exact hp
  · intro p command outcome hp
    exact hp

end Steam

section Wii

open Panicking (Outcome)
open WiiInput WiiProtocol WiiRemote WiiReplies WiiSafety WiiSession

variable {w w' : Wii} {report : Report} {now : ℕ}

/-- The replies that wait are input reports. -/
def Typed (w : Wii) : Prop := ∀ r ∈ w.pending, r.kind = .input

theorem typed_push (reply : Wii → Report) (w : Wii) (hw : Typed w) (hreply : (reply w).kind = .input) :
    Typed (push reply w) := by
  intro r hr
  rcases List.mem_append.mp hr with hold | hnew
  · exact hw r hold
  · obtain rfl := List.mem_singleton.mp hnew
    exact hreply

theorem typed_edges (both : Bool) (w : Wii) (hw : Typed w) : Typed (edges both w) := by
  cases both with
  | true => exact typed_push status _ (typed_push unplugged w hw rfl) rfl
  | false => exact typed_push status w hw rfl

theorem typed_handled {p : List UInt8} {both : Bool} {id : UInt8} (hw : Typed w)
    (h : Handled p both w id w') : Typed w' := by
  cases h with
  | status rumble => exact typed_push status { w with outputs := { w.outputs with rumble } } hw rfl
  | @write code memory _ _ _ _ => exact typed_push (WiiProtocol.ack · 0x16 code) { w with memory } hw rfl
  | @switched code memory _ _ _ _ _ =>
    have hacked := typed_push (WiiProtocol.ack · 0x16 code) { w with memory } hw rfl
    exact typed_edges both { push (WiiProtocol.ack · 0x16 code) { w with memory } with
      reporting := .awaitingMode } hacked
  | busy => exact typed_push (WiiProtocol.ack · 0x17 4) w hw rfl
  | _ => exact hw

theorem typed_accept (hw : Typed w) (h : Accepted report now w w') : Typed w' := by
  obtain ⟨id, both, w₁, _, hhandled, hfinished⟩ := h
  have hfirst := typed_handled hw hhandled
  obtain ⟨w₂, hrevised, rfl⟩ := hfinished.settled
  obtain ⟨revision, rfl⟩ := revised_eq hrevised
  intro r hr
  split at hr
  · exact typed_push (WiiProtocol.ack · id 0) _ hfirst rfl r hr
  · exact hfirst r hr

/-- A memory write with more bytes than it has room for, which is tried before it is refused. -/
def LongWrite : RequestKind → Prop
  | .set report => report.id = some 0x16 ∧ 16 < (report.payload.getD 4 0).toNat
  | .get _ _ => False

theorem accept_answers (hreport : ¬LongWrite (.set report)) :
    validateReply (.set report) (answer (accept report now w).1) = .ok () := by
  cases hrun : (accept report now w).1 with
  | ok _ => rfl
  | error e => rfl
  | panicked =>
    have hcalm : ¬Overreaching w report := fun h => hreport ⟨h.write.2.1, h.long⟩
    have hspec : Panicking.Meets (acceptInner report now w) (fun _ w' => Accepted report now w w')
        (fun _ _ => True) False := acceptInner_spec hcalm
    unfold accept at hrun
    rcases hinner : acceptInner report now w with ⟨_ | _ | _, w'⟩
    · rw [hinner] at hrun
      cases hrun
    · rw [hinner] at hrun
      cases hrun
    · rw [hinner] at hspec
      exact absurd hspec id

theorem chunked_kinds {state : WiiRemoteState} {chunks : List Report} {read : Option WiiMemory.Read}
    (h : Chunked w state chunks read) : chunks.length ≤ 1 ∧ ∀ r ∈ chunks, r.kind = .input := by
  cases h with
  | idle _ => exact ⟨Nat.zero_le _, List.forall_mem_nil _⟩
  | chunk _ _ hkind _ _ =>
    refine ⟨Nat.le_refl _, ?_⟩
    intro r hr
    obtain rfl := List.mem_singleton.mp hr
    exact hkind

theorem generated_kinds {data : List Report} (h : Generated w data w') :
    data.length ≤ 1 ∧ ∀ r ∈ data, r.kind = .input := by
  cases h with
  | awaiting _ => exact ⟨Nat.zero_le _, List.forall_mem_nil _⟩
  | data _ hreport =>
    refine ⟨Nat.le_refl _, ?_⟩
    intro r hr
    obtain rfl := List.mem_singleton.mp hr
    exact hreport.kind_eq

theorem greeting_kinds (w : Wii) (state : WiiRemoteState) :
    (greeting w state).length ≤ 1 ∧ ∀ r ∈ greeting w state, r.kind = .input := by
  unfold greeting
  split
  · refine ⟨Nat.le_refl _, ?_⟩
    intro r hr
    obtain rfl := List.mem_singleton.mp hr
    rfl
  · exact ⟨Nat.zero_le _, List.forall_mem_nil _⟩

theorem sent_kinds {state : WiiRemoteState} {reports : List Report} (hsound : Sound w) (hw : Typed w)
    (h : Sent w state now reports w') :
    (reports.length ≤ 31 ∧ ∀ r ∈ reports, r.kind = .input) ∧ Typed w' := by
  cases h with
  | silent _ => exact ⟨⟨Nat.zero_le _, List.forall_mem_nil _⟩, hw⟩
  | batch _ hchunked hgenerated =>
    obtain ⟨hgreeting, hgreets⟩ := greeting_kinds w state
    obtain ⟨hchunk, hchunks⟩ := chunked_kinds hchunked
    obtain ⟨hdata, hdatas⟩ := generated_kinds hgenerated
    refine ⟨⟨?_, ?_⟩, ?_⟩
    · rw [List.length_append, List.length_append, List.length_append]
      have hpending : w.pending.length ≤ 28 := hsound.bounded
      omega
    · intro r hr
      simp only [List.mem_append] at hr
      rcases hr with ((hr | hr) | hr) | hr
      · exact hgreets r hr
      · exact hw r hr
      · exact hchunks r hr
      · exact hdatas r hr
    · intro r hr
      rw [show (schedule now _).pending = [] from (generated_keeps hgenerated).1] at hr
      cases hr

theorem wii_accept (h : Sound w ∧ Typed w) :
    Sound (accept report now w).2 ∧ Typed (accept report now w).2 := by
  rcases hrun : accept report now w with ⟨result, w'⟩
  rcases accept_turn hrun with ⟨_, haccepted⟩ | ⟨_, rfl⟩
  · exact ⟨h.1.accept haccepted, typed_accept h.2 haccepted⟩
  · exact h

theorem wii_obliges : Obliges 31 LongWrite (fun w : Wii => Sound w ∧ Typed w) := by
  constructor
  · intro w state now hw
    change Meets (settle (inputReports state now) w) _ _
    unfold settle
    rcases hrun : inputReports state now w with ⟨result, w'⟩
    rcases input_turn hw.1.nonzero hrun with ⟨reports, rfl, _, hsent⟩ | ⟨rfl, _, _⟩
    · obtain ⟨hreports, htyped⟩ := sent_kinds hw.1 hw.2 hsent
      exact ⟨hreports, hw.1.input hsent, htyped⟩
    · exact trivial
  · intro w kind now hw
    cases kind with
    | get kind id => exact hw
    | set report => exact wii_accept hw
  · intro w kind now hw
    cases kind with
    | get kind id => exact .inl rfl
    | set report =>
      by_cases hlong : LongWrite (.set report)
      · exact .inr hlong
      · exact .inl (accept_answers hlong)
  · intro w report now hw
    exact wii_accept hw
  · intro w event now hw
    obtain ⟨hsound, htyped⟩ := hw
    refine ⟨?_, ?_⟩
    · exact hsound.step (show WiiRuns.Step w (.lifecycle event now) (lifecycle event now w) from rfl)
    · cases event with
      | start _ _ _ => exact htyped
      | stop => exact List.forall_mem_nil _
      | «open» => exact htyped
      | close => exact htyped
  · intro w command outcome hw
    exact hw

end Wii

section Families

open RetainedOutputs (DualSenseOutputState DualShock4OutputState)

/-- The host asks a DualShock 4 for its address. -/
def asked : Runtime (SnapshotProtocol NativeState.DualShock4State DualShock4OutputState) Scripted
    NativeState.DualShock4State RawReverseEvent :=
  { ds4Opened with transport := ⟨[.request ⟨⟨7, 0⟩, .get .feature (some 0x12)⟩], []⟩ }

end Families

end ObligingPersonalities
