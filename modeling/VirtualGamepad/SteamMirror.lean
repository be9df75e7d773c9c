import VirtualGamepad.HostOutputs
import VirtualGamepad.SteamTurns

/-! The snapshot that the application of a Steam Controller reads. It shows the protocol's own state after
every call, and its revision moves with every change. -/
namespace SteamMirror

open HidPersonality HidRuntime HostOutputs Registers Runs SteamController SteamHid SteamTurns

section Snapshots

variable {p : SteamHidProtocol} {report : Report} {haptic : Haptic}

/-- The snapshot shows what the protocol holds. -/
structure Mirrors (p : SteamHidProtocol) : Prop where
  streaming : p.outputs.streaming = p.protocol.stream.outputs
  ledBrightness : p.outputs.ledBrightness = SteamHidProtocol.brightness p.protocol
  ledOverride : p.outputs.ledOverride = SteamHidProtocol.overriding p.protocol
  ledRgbw : p.outputs.ledRgbw = p.protocol.outputs.rgbw
  haptics : p.outputs.haptics = p.protocol.outputs.haptics

theorem syncOutputs_mirrors (h : p.outputs.haptics = p.protocol.outputs.haptics) :
    Mirrors p.syncOutputs := by
  unfold SteamHidProtocol.syncOutputs
  split
  · exact ⟨rfl, rfl, rfl, rfl, h⟩
  · next hsame =>
    simp only [not_or, not_not] at hsame
    exact ⟨hsame.1, hsame.2.1, hsame.2.2.1, hsame.2.2.2, h⟩

/-- The revision goes on by a few, or everything is as it was. -/
def Moves (most : ℕ) (a b : SteamController2026Outputs) : Prop :=
  b = a ∨ ∃ k, 1 ≤ k ∧ k ≤ most ∧ b.revision = (a.revision + k) % 2 ^ 64

theorem Moves.trans {m n : ℕ} {a b c : SteamController2026Outputs} (h : Moves m a b) (k : Moves n b c) :
    Moves (m + n) a c := by
  rcases h with rfl | ⟨i, hi, him, hb⟩
  · rcases k with rfl | ⟨j, hj, hjn, hc⟩
    · exact .inl rfl
    · exact .inr ⟨j, hj, by omega, hc⟩
  · rcases k with rfl | ⟨j, hj, hjn, hc⟩
    · exact .inr ⟨i, hi, by omega, hb⟩
    · refine .inr ⟨i + j, by omega, by omega, ?_⟩
      rw [hc, hb, Nat.mod_add_mod, Nat.add_assoc]

theorem syncOutputs_moves (p : SteamHidProtocol) : Moves 1 p.outputs p.syncOutputs.outputs := by
  unfold SteamHidProtocol.syncOutputs
  split
  · exact .inr ⟨1, Nat.le_refl _, Nat.le_refl _, rfl⟩
  · exact .inl rfl

theorem retain_moves (outputs : SteamController2026Outputs) (id : Option UInt8) (haptic : Haptic) :
    Moves 1 outputs (outputs.retain id haptic) := by
  unfold SteamController2026Outputs.retain
  split
  · exact .inr ⟨1, Nat.le_refl _, Nat.le_refl _, rfl⟩
  · split
    · exact .inl rfl
    · split
      · exact .inr ⟨1, Nat.le_refl _, Nat.le_refl _, rfl⟩
      · exact .inl rfl

end Snapshots

section Haptics

variable {p p' : SteamProtocol} {report : Report} {haptic : Haptic} {now : ℕ} {index : Fin 6}

/-- The haptic that an output report has for a slot. -/
def slotted (i : Fin 6) (report : Report) : Option Haptic :=
  if report.kind = .output ∧ hapticIndex report.id = some i then (Haptic.decode report).toOption else none

theorem retainHaptic_haptics (index : Fin 6) (haptic : Haptic) (p : SteamProtocol) :
    (retainHaptic index haptic p).outputs.haptics = Function.update p.outputs.haptics index (some haptic) := by
  unfold retainHaptic
  by_cases hsame : p.outputs.haptics index = some haptic
  · rw [if_neg (not_not.mpr hsame), ← hsame, Function.update_eq_self]
  · rw [if_pos hsame]

theorem retain_haptics {outputs : SteamController2026Outputs} {id : Option UInt8}
    (hindex : hapticIndex id = some index) (hplain : ∀ packet, haptic ≠ .stream packet) :
    (outputs.retain id haptic).haptics = Function.update outputs.haptics index (some haptic) := by
  unfold SteamController2026Outputs.retain
  split
  · next packet => exact absurd rfl (hplain packet)
  · rw [hindex]
    dsimp only
    by_cases hsame : outputs.haptics index = some haptic
    · rw [if_neg (not_not.mpr hsame), ← hsame, Function.update_eq_self]
    · rw [if_pos hsame]

theorem decode_output (h : Haptic.decode report = .ok haptic) : report.kind = .output := by
  unfold Haptic.decode at h
  by_contra hkind
  rw [if_pos hkind] at h
  cases h

theorem hapticIndex_stream {id : UInt8} (h : 0x86 ≤ id ∧ id ≤ 0x88) : hapticIndex (some id) = none := by
  have hid : id = 0x86 ∨ id = 0x87 ∨ id = 0x88 := by
    simp only [UInt8.le_iff_toNat_le] at h
    have hbounds : 134 ≤ id.toNat ∧ id.toNat ≤ 136 := h
    have hcases : id.toNat = 134 ∨ id.toNat = 135 ∨ id.toNat = 136 := by omega
    rcases hcases with h | h | h
    · exact .inl (UInt8.toNat_inj.mp h)
    · exact .inr (.inl (UInt8.toNat_inj.mp h))
    · exact .inr (.inr (UInt8.toNat_inj.mp h))
  rcases hid with rfl | rfl | rfl
  · rfl
  · rfl
  · rfl

/-- A report of the stream has no slot. -/
theorem decode_stream {packet : SteamStreaming.StreamPacket} (h : Haptic.decode report = .ok (.stream packet)) :
    hapticIndex report.id = none := by
  have hkind := decode_output h
  unfold Haptic.decode at h
  rw [if_neg (not_not.mpr hkind)] at h
  dsimp only at h
  split at h
  · cases h
  · cases h
  · cases h
  · cases h
  · cases h
  · cases h
  · next id hid _ _ _ _ _ _ =>
    split at h
    · next hstream =>
      rw [hid]
      exact hapticIndex_stream hstream
    · split at h
      · cases h
      · cases h
  · cases h

/-- What is retained for a slot after an accepted report. -/
theorem heard_register (hdecode : Haptic.decode report = .ok haptic) (h : Heard p report now haptic p')
    (i : Fin 6) : p'.outputs.haptics i = (slotted i report).or (p.outputs.haptics i) := by
  have hkind := decode_output hdecode
  unfold slotted
  cases h with
  | stream _ =>
    rw [decode_stream hdecode, if_neg fun h => (by cases h.2)]
    rfl
  | @slot _ index hindex _ =>
    rw [retainHaptic_haptics]
    by_cases hi : index = i
    · subst hi
      rw [if_pos ⟨hkind, hindex⟩, hdecode, Function.update_self]
      rfl
    · rw [if_neg, Function.update_of_ne (Ne.symm hi)]
      · rfl
      · rintro ⟨_, hslot⟩
        rw [hindex] at hslot
        exact hi (Option.some.inj hslot)

theorem heard_haptics {outputs : SteamController2026Outputs} (h : Heard p report now haptic p')
    (hsame : outputs.haptics = p.outputs.haptics) :
    (outputs.retain report.id haptic).haptics = p'.outputs.haptics := by
  cases h with
  | stream _ => exact hsame
  | slot hindex hplain => rw [retain_haptics hindex hplain, retainHaptic_haptics, hsame]

end Haptics

section Calls

variable {p : SteamHidProtocol}

/-- What a call makes of a personality before its snapshot is brought up to date. -/
structure Notes (p : SteamHidProtocol) (report : Option Report) (q : SteamHidProtocol) : Prop where
  moves : Moves 1 p.outputs q.outputs
  same : p.outputs.haptics = p.protocol.outputs.haptics → q.outputs.haptics = q.protocol.outputs.haptics
  register : ∀ i, q.protocol.outputs.haptics i =
    (report.bind (slotted i)).or (p.protocol.outputs.haptics i)

/-- Most calls leave the haptics alone. -/
theorem notes_quiet {protocol : SteamProtocol} (h : protocol.serial = p.protocol.serial)
    (hhaptics : protocol.outputs.haptics = p.protocol.outputs.haptics) {report : Option Report}
    (hreport : ∀ i, report.bind (slotted i) = none) : Notes p report (p.moved protocol h) := by
  constructor
  · exact .inl rfl
  · intro hsame
    exact hsame.trans hhaptics.symm
  · intro i
    rw [hreport i]
    exact congrFun hhaptics i

theorem notes_heard {report : Report} {now : ℕ} {haptic : Haptic} {protocol : SteamProtocol}
    (hdecode : Haptic.decode report = .ok haptic) (hheard : Heard p.protocol report now haptic protocol)
    (h : protocol.serial = p.protocol.serial) :
    Notes p (some report) ((p.moved protocol h).retain report haptic) := by
  constructor
  · exact retain_moves _ _ _
  · intro hsame
    exact heard_haptics hheard hsame
  · intro i
    exact heard_register hdecode hheard i

theorem slotted_other {report : Report} (h : report.kind ≠ .output) (i : Fin 6) : slotted i report = none :=
  if_neg fun hslot => h hslot.1

/-- A request that brings no haptic, and one that does. -/
theorem request_plain {kind : RequestKind} {now : ℕ} {reply : Reply} {next : SteamProtocol}
    (hrun : p.protocol.request kind now = (.ok (reply, none), next)) :
    ∃ h, p.request kind now = ((reply, none), (p.moved next h).syncOutputs) := by
  have hnext : (p.protocol.request kind now).2 = next := congrArg Prod.snd hrun
  subst hnext
  refine ⟨(request_replies kind now p.serial).serial, ?_⟩
  unfold SteamHidProtocol.request
  rw [value_ok (congrArg Prod.fst hrun)]

theorem request_haptic {report : Report} {now : ℕ} {reply : Reply} {haptic : Haptic} {next : SteamProtocol}
    (hrun : p.protocol.request (.set report) now = (.ok (reply, some haptic), next)) :
    ∃ h, p.request (.set report) now = ((reply, some (ControllerContract.observe report)),
      ((p.moved next h).retain report haptic).syncOutputs) := by
  have hnext : (p.protocol.request (.set report) now).2 = next := congrArg Prod.snd hrun
  subst hnext
  refine ⟨(request_replies (.set report) now p.serial).serial, ?_⟩
  unfold SteamHidProtocol.request
  rw [value_ok (congrArg Prod.fst hrun)]

theorem request_notes (p : SteamHidProtocol) (kind : RequestKind) (now : ℕ) :
    ∃ q, (p.request kind now).2 = q.syncOutputs ∧
      Notes p (heardReport (P := SteamHidProtocol) (S := State) (fun _ => true)
        (.request kind now (p.request kind now).1.1)) q := by
  obtain ⟨answer, next, hrun, hturn⟩ := request_turn kind now p.serial
  cases hturn with
  | get =>
    obtain ⟨h, hrequest⟩ := request_plain hrun
    rw [hrequest]
    exact ⟨_, rfl, notes_quiet h rfl fun _ => rfl⟩
  | heard hkind hdecode hheard =>
    obtain ⟨h, hrequest⟩ := request_haptic hrun
    rw [hrequest]
    exact ⟨_, rfl, notes_heard hdecode hheard h⟩
  | refused hkind =>
    obtain ⟨h, hrequest⟩ := request_plain hrun
    rw [hrequest]
    exact ⟨_, rfl, notes_quiet h rfl fun _ => rfl⟩
  | @feature report result query outputs hkind hhaptics =>
    obtain ⟨h, hrequest⟩ := request_plain hrun
    rw [hrequest]
    refine ⟨_, rfl, notes_quiet h hhaptics fun i => ?_⟩
    cases result with
    | ok _ => exact slotted_other hkind i
    | error e => rfl

theorem output_notes (report : Report) (now : ℕ) (p : SteamHidProtocol) :
    ∃ q, (SteamHidProtocol.output report now p).2 = q.syncOutputs ∧
      Notes p (heardReport (P := SteamHidProtocol) (S := State) (fun _ => true)
        (.output report now ((SteamHidProtocol.output report now p).1.map fun _ => ()))) q := by
  rcases output_cases report now p.protocol with ⟨haptic, next, hrun, hdecode, hheard⟩ | ⟨e, hrun⟩
  · have hnext : (SteamProtocol.output report now p.protocol).2 = next := congrArg Prod.snd hrun
    subst hnext
    have houtput : SteamHidProtocol.output report now p = (.ok (some (ControllerContract.observe report)),
        ((p.moved _ (SteamHidProtocol.output_serial report now p.protocol).2).retain report haptic).syncOutputs) := by
      unfold SteamHidProtocol.output
      dsimp only
      rw [(Panicking.returned_eq_ok _).mpr (congrArg Prod.fst hrun)]
    rw [houtput]
    exact ⟨_, rfl, notes_heard hdecode hheard _⟩
  · have hnext : (SteamProtocol.output report now p.protocol).2 = p.protocol := congrArg Prod.snd hrun
    have houtput : SteamHidProtocol.output report now p = (.error e,
        (p.moved _ (SteamHidProtocol.output_serial report now p.protocol).2).syncOutputs) := by
      unfold SteamHidProtocol.output
      dsimp only
      rw [(Panicking.returned_eq_error _).mpr (congrArg Prod.fst hrun)]
    rw [houtput]
    exact ⟨_, rfl, notes_quiet _ (congrArg (fun q => q.outputs.haptics) hnext) fun _ => rfl⟩

theorem input_notes {state : State} {now : ℕ} {reports : List Report} {p' : SteamHidProtocol}
    (h : SteamHidProtocol.input state now p = (.ok reports, p')) : ∃ q, p' = q.syncOutputs ∧ Notes p none q := by
  have hspec := input_spec state now p.protocol
  have hreturned : (SteamProtocol.input state now p.protocol).1 = .ok reports :=
    (Panicking.returned_eq_ok _).mp (congrArg Prod.fst h)
  obtain rfl : _ = p' := congrArg Prod.snd h
  refine ⟨_, rfl, notes_quiet _ ?_ fun _ => rfl⟩
  rcases hinner : SteamProtocol.input state now p.protocol with ⟨result, next⟩
  rw [hinner] at hspec hreturned
  obtain rfl : result = .ok reports := hreturned
  have hpolled : Polled p.protocol reports next := hspec
  exact congrArg Outputs.haptics hpolled.outputs

theorem lifecycle_notes (p : SteamHidProtocol) (event : Lifecycle) (now : ℕ) :
    ∃ q, p.lifecycle event now = q.syncOutputs ∧ Notes p none q := by
  refine ⟨_, rfl, notes_quiet _ ?_ fun _ => rfl⟩
  cases event with
  | start _ _ _ => rfl
  | stop => rfl
  | «open» => rfl
  | close => rfl

/-- What a call leaves of a snapshot that shows the protocol's state. -/
structure Shown (p : SteamHidProtocol) (report : Option Report) (p' : SteamHidProtocol) : Prop where
  mirrors : Mirrors p'
  moves : Moves 2 p.outputs p'.outputs
  register : ∀ i, p'.outputs.haptics i = (report.bind (slotted i)).or (p.outputs.haptics i)

theorem Notes.shown {q : SteamHidProtocol} {report : Option Report} (hp : Mirrors p)
    (h : Notes p report q) : Shown p report q.syncOutputs := by
  have hmirrors := syncOutputs_mirrors (h.same hp.haptics)
  refine ⟨hmirrors, h.moves.trans (syncOutputs_moves q), ?_⟩
  intro i
  rw [hmirrors.haptics, syncOutputs_protocol, hp.haptics]
  exact h.register i

theorem step_shown {call : PersonalityCall SteamHidProtocol State} {p' : SteamHidProtocol} (hp : Mirrors p)
    (h : PersonalityStep p call p') (hcall : ¬IsReplace call) :
    Shown p (heardReport (fun _ => true) call) p' := by
  cases call with
  | request kind now reply =>
    obtain ⟨hreply, rfl⟩ := h
    obtain ⟨q, hq, hnotes⟩ := request_notes p kind now
    subst hreply
    change Shown p _ (p.request kind now).2
    rw [hq]
    exact hnotes.shown hp
  | output report now result =>
    obtain ⟨hresult, rfl⟩ := h
    obtain ⟨q, hq, hnotes⟩ := output_notes report now p
    subst hresult
    change Shown p _ (SteamHidProtocol.output report now p).2
    rw [hq]
    exact hnotes.shown hp
  | lifecycle event now =>
    obtain rfl := h
    obtain ⟨q, hq, hnotes⟩ := lifecycle_notes p event now
    change Shown p none (p.lifecycle event now)
    rw [hq]
    exact hnotes.shown hp
  | input state now reports =>
    obtain ⟨q, rfl, hnotes⟩ := input_notes h
    exact hnotes.shown hp
  | delivered command outcome =>
    obtain rfl := h
    exact ⟨hp, .inl rfl, fun _ => rfl⟩
  | replace protocol => exact absurd trivial hcall

end Calls

section Sessions

variable {p : SteamHidProtocol} {calls : List (PersonalityCall SteamHidProtocol State)} {p' : SteamHidProtocol}

theorem run_shown (hp : Mirrors p) (h : Run PersonalityStep p calls p')
    (hcalls : ∀ call ∈ calls, ¬IsReplace call) : Mirrors p' ∧ ∀ i, p'.outputs.haptics i =
      (latest (slotted i) (calls.filterMap (heardReport fun _ => true))).or (p.outputs.haptics i) := by
  induction h with
  | nil => exact ⟨hp, fun _ => rfl⟩
  | @snoc calls q call q' _ hstep ih =>
    obtain ⟨hq, hhaptics⟩ := ih fun c hc => hcalls c (List.mem_append_left _ hc)
    have hshown := step_shown hq hstep (hcalls call (by simp))
    refine ⟨hshown.mirrors, ?_⟩
    intro i
    rw [hshown.register i, hhaptics i, List.filterMap_append]
    cases hheard : heardReport (fun _ => true) call with
    | none => simp [hheard]
    | some report =>
      rw [List.filterMap_cons, hheard]
      change _ = (latest (slotted i) (_ ++ [report])).or _
      rw [latest_concat, Option.or_assoc]
      rfl

/-- Calls that move the snapshot of one personality. -/
def Watched (p : SteamHidProtocol) (call : PersonalityCall SteamHidProtocol State) (p' : SteamHidProtocol) :
    Prop := Mirrors p ∧ PersonalityStep p call p' ∧ ¬IsReplace call

theorem watched_stamped :
    Stamped Watched SteamHidProtocol.outputs SteamController2026Outputs.revision (2 ^ 64) 2 :=
  fun _ _ _ h => (step_shown h.1 h.2.1 h.2.2).moves

theorem run_watched (hp : Mirrors p) (h : Run PersonalityStep p calls p')
    (hcalls : ∀ call ∈ calls, ¬IsReplace call) : Run Watched p calls p' := by
  induction h with
  | nil => exact .nil
  | @snoc calls q call q' hrun hstep ih =>
    have hbefore : ∀ c ∈ calls, ¬IsReplace c := fun c hc => hcalls c (List.mem_append_left _ hc)
    exact (ih hbefore).snoc ⟨(run_shown hp hrun hbefore).1, hstep, hcalls call (by simp)⟩

variable {T : Type} [Transport T] {first : SteamHidProtocol} {transport : T} {session : ℕ} {limits : Limits}
  {rt : Runtime SteamHidProtocol T State ControllerContract.RawReverseEvent}

omit [Transport T] in
theorem unreplaced_calls (hcalls : Unreplaced rt.calls) :
    ∀ call ∈ personalityCalls limits rt.calls, ¬IsReplace call := by
  intro call hcall
  obtain ⟨e, he, hof⟩ := List.mem_filterMap.mp hcall
  exact not_isReplace hof (hcalls e he)

/-- What the application can tell from its snapshot. -/
structure Follows (rt : Runtime SteamHidProtocol T State ControllerContract.RawReverseEvent) : Prop where
  mirrors : Mirrors rt.protocol
  /-- Each slot has the last haptic that the host has sent for it. -/
  haptics : ∀ i, rt.protocol.outputs.haptics i =
    latest (slotted i) (hostReports (fun _ => true) rt.calls)
  /-- The same revision not too long afterwards is the same snapshot. -/
  same : ∀ ops, Unreplaced (later ops rt).calls →
    2 * ((later ops rt).calls.length - rt.calls.length) < 2 ^ 64 →
    (later ops rt).protocol.outputs.revision = rt.protocol.outputs.revision →
    (later ops rt).protocol.outputs = rt.protocol.outputs

theorem reachable_later (hfirst : Mirrors first) (h : Reachable first transport session limits rt)
    (ops : List (HidRuntime.Op SteamHidProtocol State)) (hcalls : Unreplaced (later ops rt).calls) :
    ∃ calls, Run Watched rt.protocol calls (later ops rt).protocol ∧
      calls.length ≤ (later ops rt).calls.length - rt.calls.length := by
  obtain ⟨more, hmore⟩ := later_calls ops rt
  have hwhole := reachable_personality (later_reachable h ops)
  have hunreplaced : ∀ call ∈ personalityCalls limits (later ops rt).calls, ¬IsReplace call :=
    unreplaced_calls hcalls
  have happend : personalityCalls limits (later ops rt).calls =
      personalityCalls limits rt.calls ++ personalityCalls limits more := by
    rw [hmore]
    exact List.filterMap_append
  rw [happend] at hwhole hunreplaced
  obtain ⟨q, hbefore, hafter⟩ := run_append.mp hwhole
  obtain rfl := run_unique hbefore (reachable_personality h)
  have hmirrors := (run_shown hfirst hbefore fun c hc => hunreplaced c (List.mem_append_left _ hc)).1
  refine ⟨_, run_watched hmirrors hafter fun c hc => hunreplaced c (List.mem_append_right _ hc), ?_⟩
  rw [hmore, List.length_append, Nat.add_sub_cancel_left]
  exact List.length_filterMap_le _ _

theorem opened_mirrors {serial : List UInt8} (hserial : serial.length ≤ 21) (compat streaming : Bool) :
    Mirrors (SteamHidProtocol.withStreamingOptions serial hserial compat streaming) := by
  unfold SteamHidProtocol.withStreamingOptions
  apply syncOutputs_mirrors
  rfl

theorem opened_haptics {serial : List UInt8} (hserial : serial.length ≤ 21) (compat streaming : Bool)
    (i : Fin 6) :
    (SteamHidProtocol.withStreamingOptions serial hserial compat streaming).outputs.haptics i = none := by
  rw [(opened_mirrors hserial compat streaming).haptics]
  unfold SteamHidProtocol.withStreamingOptions
  rw [syncOutputs_protocol]
  rfl

/-- The snapshot of a Steam Controller follows its protocol through every session. -/
theorem snapshot_follows {serial : List UInt8} (hserial : serial.length ≤ 21) (compat streaming : Bool)
    (h : Reachable (SteamHidProtocol.withStreamingOptions serial hserial compat streaming) transport
      session limits rt) (hcalls : Unreplaced rt.calls) : Follows rt := by
  have hfirst := opened_mirrors hserial compat streaming
  obtain ⟨hmirrors, hhaptics⟩ := run_shown hfirst (reachable_personality h) (unreplaced_calls hcalls)
  refine ⟨hmirrors, ?_, ?_⟩
  · intro i
    rw [hhaptics i, heardReports_personalityCalls, opened_haptics, Option.or_none]
  · intro ops hlater hshort hrevision
    obtain ⟨calls, hrun, hlength⟩ := reachable_later hfirst h ops hlater
    exact watched_stamped.same hrun (by omega) hrevision

end Sessions

/-- The host of a Steam Controller plays a command on its left side. -/
def clicked : Runtime SteamHidProtocol Scripted State ControllerContract.RawReverseEvent where
  protocol := .withStreamingOptions [0x31] (by decide) false false
  transport := ⟨[.output ⟨.output, some 0x82, [1, 2, 3], by decide⟩], []⟩
  state := .default
  dirty := true
  pending := []
  observations := []
  droppedObservations := 0
  reply := none
  session := 7
  lastRequest := none
  now := 0
  closed := false
  closeError := none
  limits := .default
  calls := []

theorem snapshot_follows_clicked :
    let rt := later [.service 0] clicked
    rt.protocol.outputs.haptics 2 = some (.command 1 2 3) ∧ Follows rt := by
  have hnew : Runtime.new clicked.protocol clicked.transport 7 .default = .ok clicked := rfl
  refine ⟨by decide +kernel, ?_⟩
  exact snapshot_follows (by decide) false false (later_reachable (.new hnew) _) (by decide +kernel)

end SteamMirror
