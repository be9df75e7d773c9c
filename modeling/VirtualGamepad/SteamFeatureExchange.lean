import VirtualGamepad.Runs
import VirtualGamepad.SteamController

/-! The feature exchange over any run: a GET answers the last SET and nothing older, and a SET that
is refused leaves the settings alone. -/
namespace SteamController

open HidRuntime (Report ReportType RequestKind Reply ReplyError Lifecycle Error Framed)
open SteamStreaming (StreamPacket StreamState)
open Panicking Runs WireBytes
open Panicking.Action

section Commands

/-- The query that a body asks, in a profile that knows it. -/
def queryOf (compat : Bool) (b : List UInt8) : Option Query :=
  let name := b.getD 0 0
  let size := b.getD 1 0
  let third := b.getD 2 0
  if name = 0xae ∧ (size = 0x15 ∨ size = 0x16) ∧ third = 1 then some .serial
  else if name = 0x83 ∧ size = 0 then some .attributes
  else if name = 0xed ∧ compat then (NamedRead.parse b).map .named
  else if name = 0xe9 ∧ compat ∧ size = 0 then some .ledColor
  else if name = 0x89 ∧ compat ∧ size = 1 ∧ third = 37 then some .ledOverride
  else none

/-- Whether a body is taken for a command of the profile, well-formed or not. -/
def knownCommand (compat : Bool) (b : List UInt8) : Bool :=
  let name := b.getD 0 0
  let arguments := (b.drop 1).take 3
  name ∈ [0xae, 0x83, 0x81, 0x85, 0x8e, 0x87] ∨
    compat ∧ (name ∈ [0xc5, 0xe9] ∨ name = 0xdc ∧ arguments = [2, 1, 2] ∨
      name = 0xe2 ∧ arguments = [2, 1, 0x20] ∨ (queryOf compat b).isSome)

/-- What one SET asks for. -/
inductive Ask where
  | query (query : Query)
  | unknown (command : UInt8)
  | other
  deriving DecidableEq, Repr

def askOf (compat : Bool) (b : List UInt8) : Ask :=
  match queryOf compat b with
  | some query => .query query
  | none => if knownCommand compat b then .other else .unknown (b.getD 0 0)

def asks (compat : Bool) (report : Report) : Ask :=
  if report.kind ≠ .feature ∨ report.id ≠ some 1 ∨ report.payload.length ≠ 63 then .other
  else askOf compat report.payload

def Ask.slot (ask : Ask) : Option Query :=
  match ask with
  | .query q => some q
  | .unknown name => some (.unsupported name)
  | .other => none

/-- What a command answers, as far as the exchange is concerned. -/
def Ask.Answers (ask : Ask) (outputs : Outputs) (r : Outcome ReplyError Outputs) : Prop :=
  match ask with
  | .query _ => r = .ok outputs
  | .unknown _ => r = .error .unsupported
  | .other => r ≠ .panicked

variable {b : List UInt8} {p p' : SteamProtocol}

theorem lift_ne_panicked {ε α : Type} (r : Except ε α) : Outcome.lift r ≠ .panicked := by
  cases r with
  | ok a => exact nofun
  | error e => exact nofun

/-- A command of the profile that asks nothing. -/
theorem askOf_other {compat : Bool} (hquery : queryOf compat b = none)
    (hknown : knownCommand compat b = true) : askOf compat b = .other := by
  unfold askOf
  rw [hquery]
  dsimp only
  rw [if_pos hknown]

theorem askOf_query {compat : Bool} {q : Query} (hquery : queryOf compat b = some q) :
    askOf compat b = .query q := by
  unfold askOf
  rw [hquery]

theorem knownCommand_iff {compat : Bool} {n s t f : UInt8} {rest : List UInt8} :
    knownCommand compat (n :: s :: t :: f :: rest) = true ↔
      n ∈ [0xae, 0x83, 0x81, 0x85, 0x8e] ++ [0x87] ∨
        compat = true ∧ (n ∈ [0xc5, 0xe9] ∨ n = 0xdc ∧ [s, t, f] = [2, 1, 2] ∨
          n = 0xe2 ∧ [s, t, f] = [2, 1, 0x20] ∨
          (queryOf compat (n :: s :: t :: f :: rest)).isSome = true) := decide_eq_true_iff

theorem command_spec (hb : b.length = 63) (hq : p.query = none) :
    ∃ r, command b p = (r, { p with query := (askOf p.steamClientCompat b).slot }) ∧
      (askOf p.steamClientCompat b).Answers p.outputs r := by
  obtain ⟨n, s, t, f, rest, rfl⟩ : ∃ n s t f rest, b = n :: s :: t :: f :: rest := by
    match b, hb with
    | n :: s :: t :: f :: rest, _ => exact ⟨n, s, t, f, rest, rfl⟩
  have hother (hask : askOf p.steamClientCompat (n :: s :: t :: f :: rest) = .other)
      {r : Outcome ReplyError Outputs} (hr : r ≠ .panicked) : ∃ r', (r, p) =
        (r', { p with query := (askOf p.steamClientCompat (n :: s :: t :: f :: rest)).slot }) ∧
        (askOf p.steamClientCompat (n :: s :: t :: f :: rest)).Answers p.outputs r' := by
    rw [hask]
    refine ⟨r, ?_, hr⟩
    have hslot : Ask.other.slot = p.query := hq.symm
    rw [hslot]
  have hquery {q : Query}
      (hask : queryOf p.steamClientCompat (n :: s :: t :: f :: rest) = some q) :
      ∃ r', ((.ok p.outputs, { p with query := some q }) : Outcome ReplyError Outputs × _) =
        (r', { p with query := (askOf p.steamClientCompat (n :: s :: t :: f :: rest)).slot }) ∧
        (askOf p.steamClientCompat (n :: s :: t :: f :: rest)).Answers p.outputs r' := by
    rw [askOf_query hask]
    exact ⟨_, rfl, rfl⟩
  unfold command
  simp only [Panicking.get_bind_run, index, List.getElem?_cons_zero, List.getElem?_cons_succ,
    lift_ok_bind_run]
  by_cases hserial : n = 0xae ∧ (s = 0x15 ∨ s = 0x16) ∧ t = 1
  · rw [if_pos hserial]
    exact hquery (by simp [queryOf, hserial])
  rw [if_neg hserial]
  by_cases hattributes : n = 0x83 ∧ s = 0
  · rw [if_pos hattributes]
    exact hquery (by simp [queryOf, hattributes])
  rw [if_neg hattributes]
  by_cases hdc : n = 0xdc ∧ p.steamClientCompat = true ∧ [s, t, f] = [2, 1, 2]
  · rw [if_pos hdc]
    exact hother (askOf_other (by simp [queryOf, hdc]) (by simp [knownCommand, hdc])) nofun
  rw [if_neg hdc]
  by_cases he2 : n = 0xe2 ∧ p.steamClientCompat = true ∧ [s, t, f] = [2, 1, 0x20]
  · rw [if_pos he2]
    exact hother (askOf_other (by simp [queryOf, he2]) (by simp [knownCommand, he2])) nofun
  rw [if_neg he2]
  by_cases hnamed : n = 0xed ∧ p.steamClientCompat = true ∧
      (NamedRead.parse (n :: s :: t :: f :: rest)).isSome = true
  · rw [if_pos hnamed]
    obtain ⟨name, hname⟩ := Option.isSome_iff_exists.mp hnamed.2.2
    rw [hname]
    refine hquery ?_
    unfold queryOf
    rw [hname]
    simp [hnamed]
  rw [if_neg hnamed]
  by_cases hrgbw : n = 0xc5 ∧ p.steamClientCompat = true
  · rw [if_pos hrgbw]
    have hask : askOf p.steamClientCompat (n :: s :: t :: f :: rest) = .other :=
      askOf_other (by simp [queryOf, hrgbw]) (by simp [knownCommand, hrgbw])
    split
    · exact hother hask nofun
    · rw [range_eq_ok (by decide) (by omega)]
      exact hother hask nofun
  rw [if_neg hrgbw]
  by_cases hcolor : n = 0xe9 ∧ p.steamClientCompat = true
  · rw [if_pos hcolor]
    by_cases hsize : s = 0
    · rw [if_neg (not_not.mpr hsize)]
      exact hquery (by simp [queryOf, hcolor, hsize])
    · rw [if_pos hsize]
      exact hother (askOf_other (by simp [queryOf, hcolor, hsize])
        (by simp [knownCommand, hcolor])) nofun
  rw [if_neg hcolor]
  by_cases hoverride : n = 0x89 ∧ p.steamClientCompat = true ∧ [s, t] = [1, 37]
  · rw [if_pos hoverride]
    refine hquery ?_
    obtain ⟨rfl, hcompat, hargs⟩ := hoverride
    simp only [List.cons.injEq, and_true] at hargs
    simp [queryOf, hcompat, hargs]
  rw [if_neg hoverride]
  have hnone : queryOf p.steamClientCompat (n :: s :: t :: f :: rest) = none := by
    unfold queryOf
    simp only [List.getD_cons_zero, List.getD_cons_succ]
    rw [if_neg hserial, if_neg hattributes]
    split
    · next h =>
      rw [Option.map_eq_none_iff]
      exact Option.not_isSome_iff_eq_none.mp fun hsome => hnamed ⟨h.1, h.2, hsome⟩
    · rw [if_neg fun h => hcolor ⟨h.1, h.2.1⟩, if_neg]
      rintro ⟨hn, hcompat, hs, ht⟩
      exact hoverride ⟨hn, hcompat, by rw [hs, ht]⟩
  by_cases hmappings : n = 0x81 ∧ s = 0
  · rw [if_pos hmappings]
    exact hother (askOf_other hnone (by simp [knownCommand, hmappings])) nofun
  rw [if_neg hmappings]
  by_cases hrestore : n = 0x85 ∧ s = 0
  · rw [if_pos hrestore]
    exact hother (askOf_other hnone (by simp [knownCommand, hrestore])) nofun
  rw [if_neg hrestore]
  by_cases hdefaults : n = 0x8e ∧ s = 0
  · rw [if_pos hdefaults]
    exact hother (askOf_other hnone (by simp [knownCommand, hdefaults])) nofun
  rw [if_neg hdefaults]
  by_cases hsettings : n = 0x87
  · rw [if_pos hsettings]
    have hask := askOf_other hnone (by simp [knownCommand, hsettings])
    split
    · exact hother hask nofun
    · next hsize =>
      rw [not_or, not_or, Nat.not_lt] at hsize
      rw [range_eq_ok (Nat.le_add_right _ _) (by omega)]
      exact hother hask (lift_ne_panicked _)
  rw [if_neg hsettings]
  by_cases hmalformed : n ∈ [0xae, 0x83, 0x81, 0x85, 0x8e]
  · rw [if_pos hmalformed]
    exact hother (askOf_other hnone
      (knownCommand_iff.mpr (.inl (List.mem_append_left _ hmalformed)))) nofun
  rw [if_neg hmalformed]
  have hunknown : askOf p.steamClientCompat (n :: s :: t :: f :: rest) = .unknown n := by
    unfold askOf
    rw [hnone]
    refine if_neg ?_
    rw [knownCommand_iff, hnone]
    rintro (hplain | ⟨hcompat, hmem | h | h | h⟩)
    · rcases List.mem_append.mp hplain with h | h
      · exact hmalformed h
      · exact hsettings (List.mem_singleton.mp h)
    · rcases List.mem_cons.mp hmem with h | h
      · exact hrgbw ⟨h, hcompat⟩
      · exact hcolor ⟨List.mem_singleton.mp h, hcompat⟩
    · exact hdc ⟨h.1, hcompat, h.2⟩
    · exact he2 ⟨h.1, hcompat, h.2⟩
    · cases h
  rw [hunknown]
  exact ⟨_, rfl, rfl⟩

/-- What a SET answers and leaves in the outputs. -/
structure Sets (p : SteamProtocol) (report : Report) (r : Outcome ReplyError Unit)
    (outputs : Outputs) : Prop where
  returns : r ≠ .panicked
  refused : ∀ e, r = .error e → outputs = p.outputs
  query : ∀ q, asks p.steamClientCompat report = .query q → r = .ok ()
  unknown : ∀ name, asks p.steamClientCompat report = .unknown name → r = .error .unsupported

theorem feature_spec (report : Report) (p : SteamProtocol) :
    ∃ r outputs, feature report p =
      (r, { p with query := (asks p.steamClientCompat report).slot, outputs }) ∧
        Sets p report r outputs := by
  have hrefused {e : ReplyError} (hask : asks p.steamClientCompat report = .other) :
      ∃ r outputs, ((.error e, { p with query := none }) : Outcome ReplyError Unit × _) =
        (r, { p with query := (asks p.steamClientCompat report).slot, outputs }) ∧
          Sets p report r outputs := by
    rw [hask]
    refine ⟨_, p.outputs, rfl, nofun, fun _ _ => rfl, ?_, ?_⟩
    · rw [hask]
      exact nofun
    · rw [hask]
      exact nofun
  unfold feature
  rw [modify_bind_run]
  by_cases hid : report.kind ≠ .feature ∨ report.id ≠ some 1
  · rw [if_pos hid]
    exact hrefused (if_pos (by tauto))
  rw [if_neg hid]
  by_cases hlength : report.payload.length = 63
  · rw [if_neg (not_not.mpr hlength)]
    have hask : asks p.steamClientCompat report = askOf p.steamClientCompat report.payload :=
      if_neg (by tauto)
    obtain ⟨r, hrun, hanswer⟩ := command_spec (p := { p with query := none }) hlength rfl
    dsimp only at hrun hanswer
    rw [← hask] at hrun hanswer
    have hquery {q : Query} (hq : asks p.steamClientCompat report = .query q) :
        r = .ok p.outputs := by
      rw [hq] at hanswer
      exact hanswer
    have hunknown {name : UInt8} (hn : asks p.steamClientCompat report = .unknown name) :
        r = .error .unsupported := by
      rw [hn] at hanswer
      exact hanswer
    cases r with
    | panicked =>
      cases hcase : asks p.steamClientCompat report with
      | query q => cases hquery hcase
      | unknown name => cases hunknown hcase
      | other =>
        rw [hcase] at hanswer
        exact absurd rfl hanswer
    | error e =>
      rw [bind_run_error hrun]
      refine ⟨_, p.outputs, rfl, nofun, fun _ _ => rfl, ?_, ?_⟩
      · intro q hq
        cases hquery hq
      · intro name hname
        cases hunknown hname
        rfl
    | ok next =>
      rw [bind_run_ok hrun]
      have hsets (outputs : Outputs) : Sets p report (.ok ()) outputs := by
        refine ⟨nofun, nofun, fun _ _ => rfl, ?_⟩
        intro name hname
        cases hunknown hname
      by_cases hsame : next = p.outputs
      · refine ⟨.ok (), p.outputs, ?_, hsets _⟩
        unfold commit Action.modify
        dsimp only
        rw [if_neg (not_not.mpr hsame)]
      · refine ⟨.ok (), { next with revision := (p.outputs.revision + 1) % 2 ^ 64 }, ?_, hsets _⟩
        unfold commit Action.modify
        dsimp only
        rw [if_pos hsame]
  · rw [if_pos hlength]
    exact hrefused (if_pos (.inr (.inr hlength)))

end Commands

section Frames

/-- A wire form filled up with zeros. -/
def padded (length : ℕ) (bytes : List UInt8) : List UInt8 :=
  bytes ++ List.replicate (length - bytes.length) 0

/-- The answer to a query, with its report number. -/
def frame (p : SteamProtocol) : Query → List UInt8
  | .serial => padded 64 ([1, 0xae, UInt8.ofNat (p.serial.length + 1), 1] ++ p.serial)
  | .attributes =>
    if p.steamClientCompat then steamClientAttributes else padded 64 [1, 0x83, 2, 0, 0]
  | .named name => padded 63 [1, 0xed, if name = .transport then 1 else 0]
  | .ledColor => padded 63 [1, 0xe9, 4]
  | .ledOverride =>
    padded 63 [1, 0x89, 3, 37, if (p.outputs.compatSettings.get 37).getD 0 ≠ 0 then 1 else 0, 0]
  | .unsupported command => padded 64 [1, command, 0xff]

/-- A feature report in this wire form. -/
def Carries (wire : List UInt8) (r : Outcome ReplyError Report) : Prop :=
  ∃ report, r = .ok report ∧ report.kind = .feature ∧ report.wire = wire

variable {p : SteamProtocol}

theorem featureReport_carries {rest : List UInt8} (h : rest.length ≤ 63) :
    Carries (1 :: rest) (featureReport (1 :: rest)) := by
  have hframed : Framed (some 1) rest := ⟨by decide, by rw [Option.isSome_some, if_pos rfl]; omega⟩
  refine ⟨⟨.feature, some 1, rest, hframed⟩, ?_, rfl, rfl⟩
  unfold featureReport Report.fromWire Report.new
  rw [if_pos rfl]
  dsimp only
  rw [dif_pos hframed]

/-- The serial number fits its frame when it is as short as the configuration asks. -/
theorem getFeature_spec (hserial : p.serial.length ≤ 21) :
    match p.query with
    | some q => Carries (frame p q) (getFeature p)
    | none => getFeature p = .error .unsupported := by
  have hclient (hcompat : p.steamClientCompat = true ∧ p.query = some .attributes) :
      Carries steamClientAttributes (getFeature p) := by
    unfold getFeature
    rw [if_pos hcompat]
    exact featureReport_carries (by decide)
  cases hq : p.query with
  | none =>
    unfold getFeature
    rw [hq, if_neg (by simp)]
  | some q =>
    by_cases hcompat : p.steamClientCompat = true ∧ q = .attributes
    · obtain ⟨hcompat, rfl⟩ := hcompat
      unfold frame
      rw [if_pos hcompat]
      exact hclient ⟨hcompat, hq⟩
    · unfold getFeature
      rw [hq, if_neg (by simpa using hcompat)]
      cases q with
      | serial =>
        have hlength : ¬ 255 < p.serial.length + 1 := by omega
        dsimp only
        rw [if_neg hlength]
        have hhead : (copyFromSlice (1 :: List.replicate 63 0) 1 4
            [0xae, UInt8.ofNat (p.serial.length + 1), 1] : Outcome ReplyError (List UInt8)) =
            .ok ([1, 0xae, UInt8.ofNat (p.serial.length + 1), 1] ++ List.replicate 60 0) := rfl
        have hbody (head : List UInt8) (hhead : head.length = 4) :
            (copyFromSlice (head ++ List.replicate 60 0) 4 (4 + p.serial.length) p.serial :
              Outcome ReplyError (List UInt8)) = .ok (padded 64 (head ++ p.serial)) := by
          have hrest : 64 - (head.length + p.serial.length) = 60 - p.serial.length := by omega
          rw [copyFromSlice_eq_ok (by omega) (by simp; omega) (by omega)]
          unfold overlay padded
          rw [List.length_append, hrest, ← hhead, List.take_left, List.drop_length_add_append,
            List.drop_replicate, List.append_assoc]
        rw [hhead, ok_bind, hbody _ rfl, ok_bind]
        exact featureReport_carries (by simp; omega)
      | attributes =>
        unfold frame
        rw [if_neg (by simpa using hcompat)]
        exact featureReport_carries (by simp)
      | named name => exact featureReport_carries (by simp)
      | ledColor => exact featureReport_carries (by simp)
      | ledOverride => exact featureReport_carries (by simp)
      | unsupported command => exact featureReport_carries (by simp)

end Frames

section Exchange

/-- What a host does to the personality, with the answers left out. -/
inductive Op where
  | request (kind : RequestKind) (now : ℕ)
  | lifecycle (event : Lifecycle) (now : ℕ)

def Op.run (p : SteamProtocol) : Op → SteamProtocol
  | .request kind now => (p.request kind now).2
  | .lifecycle event now => p.lifecycle event now

def Step (p : SteamProtocol) (op : Op) (p' : SteamProtocol) : Prop := p' = op.run p

def laterSet (last : Option Report) (op : Op) : Option Report :=
  match op with
  | .request (.set report) _ => if report.kind = .output then last else some report
  | .lifecycle .stop _ => none
  | _ => last

/-- The last SET that was no output report, since the last stop. -/
def lastSet (log : List Op) : Option Report := log.foldl laterSet none

variable {p p' : SteamProtocol} {report : Report} {now : ℕ}

/-- Only streaming reports and the six retained ones are decoded. -/
theorem decode_index {haptic : Haptic} (h : Haptic.decode report = .ok haptic) :
    (∃ packet, haptic = .stream packet) ∨ ∃ i, hapticIndex report.id = some i := by
  unfold Haptic.decode at h
  split at h
  · cases h
  · dsimp only at h
    split at h
    · next hid _ => exact .inr ⟨0, by rw [hid]; rfl⟩
    · next hid _ => exact .inr ⟨1, by rw [hid]; rfl⟩
    · next hid _ => exact .inr ⟨2, by rw [hid]; rfl⟩
    · next hid _ => exact .inr ⟨3, by rw [hid]; rfl⟩
    · next hid _ => exact .inr ⟨4, by rw [hid]; rfl⟩
    · next hid _ => exact .inr ⟨5, by rw [hid]; rfl⟩
    · split at h
      · cases hp : StreamPacket.decode report with
        | ok packet =>
          rw [hp] at h
          exact .inl ⟨packet, (Except.ok.inj h).symm⟩
        | error e =>
          rw [hp] at h
          cases h
      · split at h
        · cases h
        · cases h
    · cases h

/-- What no request changes. -/
structure Settled (p p' : SteamProtocol) : Prop where
  serial : p'.serial = p.serial
  compat : p'.steamClientCompat = p.steamClientCompat
  query : p'.query = p.query

theorem takeHaptic_spec {haptic : Haptic} (hd : Haptic.decode report = .ok haptic) :
    Meets (takeHaptic report now haptic p) (fun _ => Settled p) (fun _ p' => p' = p) False := by
  have hkept (hplain : ∀ packet, haptic ≠ .stream packet) :
      Meets (slotHaptic (hapticIndex report.id) haptic p) (fun _ => Settled p)
        (fun _ p' => p' = p) False := by
    obtain ⟨i, hi⟩ := (decode_index hd).resolve_left fun ⟨packet, h⟩ => hplain packet h
    rw [hi]
    change Settled p (retainHaptic i haptic p)
    unfold retainHaptic
    split
    · exact ⟨rfl, rfl, rfl⟩
    · exact ⟨rfl, rfl, rfl⟩
  unfold takeHaptic
  cases haptic with
  | stream packet =>
    dsimp only
    unfold onStream
    rcases ha : SteamStreaming.accept packet now p.stream with ⟨e | _, stream⟩
    · obtain rfl := SteamStreaming.accept_error ha
      rfl
    · exact ⟨rfl, rfl, rfl⟩
  | rumble => exact hkept nofun
  | pulse => exact hkept nofun
  | command => exact hkept nofun
  | lfo => exact hkept nofun
  | sweep => exact hkept nofun
  | script => exact hkept nofun

theorem acceptOutput_spec (report : Report) (now : ℕ) (p : SteamProtocol) :
    Meets (acceptOutput report now p) (fun _ => Settled p) (fun _ p' => p' = p) False := by
  unfold acceptOutput
  rw [get_bind_run]
  split
  · rfl
  · split
    · rfl
    · cases hd : Haptic.decode report with
      | error e => rfl
      | ok haptic =>
        change Meets ((takeHaptic report now haptic >>= fun _ => pure haptic) p) _ _ _
        exact meets_bind (takeHaptic_spec hd) fun _ _ h => h

section Attempts

variable {ε ε' σ α : Type} {call : Action ε σ α} {s t : σ}

theorem attempt_ok {a : α} (h : call s = (.ok a, t)) :
    (attempt call s : Outcome ε' (Except ε α) × σ) = (.ok (.ok a), t) := by
  unfold attempt
  rw [h]

theorem attempt_error {e : ε} (h : call s = (.error e, t)) :
    (attempt call s : Outcome ε' (Except ε α) × σ) = (.ok (.error e), t) := by
  unfold attempt
  rw [h]

end Attempts

/-- What a SET request does; only one that is no output report touches the query. -/
structure SetRequest (p : SteamProtocol) (report : Report) (result : Except ReplyError Unit)
    (p' : SteamProtocol) : Prop where
  serial : p'.serial = p.serial
  compat : p'.steamClientCompat = p.steamClientCompat
  slot : p'.query = if report.kind = .output then p.query
    else (asks p.steamClientCompat report).slot
  refused : ∀ e, result = .error e → p'.outputs = p.outputs ∧ p'.stream = p.stream
  query : report.kind ≠ .output → ∀ q, asks p.steamClientCompat report = .query q →
    result = .ok ()
  unknown : report.kind ≠ .output → ∀ name, asks p.steamClientCompat report = .unknown name →
    result = .error .unsupported

theorem request_set (report : Report) (now : ℕ) (p : SteamProtocol) :
    ∃ result output p', p.request (.set report) now = (.ok (.set result, output), p') ∧
      SetRequest p report result p' := by
  unfold SteamProtocol.request
  dsimp only
  by_cases hkind : report.kind = .output
  · rw [if_pos hkind]
    have hspec := acceptOutput_spec report now p
    rcases ha : acceptOutput report now p with ⟨haptic | e | _, p'⟩
    · rw [ha] at hspec
      obtain ⟨hserial, hcompat, hquery⟩ := hspec
      rw [bind_run_ok (attempt_ok ha)]
      refine ⟨_, _, _, rfl, hserial, hcompat, ?_, nofun, ?_, ?_⟩
      · rw [if_pos hkind]
        exact hquery
      · exact fun hn => absurd hkind hn
      · exact fun hn => absurd hkind hn
    · rw [ha] at hspec
      obtain rfl : p' = p := hspec
      rw [bind_run_ok (attempt_error ha)]
      refine ⟨_, _, _, rfl, rfl, rfl, ?_, fun _ _ => ⟨rfl, rfl⟩, ?_, ?_⟩
      · rw [if_pos hkind]
      · exact fun hn => absurd hkind hn
      · exact fun hn => absurd hkind hn
    · rw [ha] at hspec
      exact absurd hspec id
  · rw [if_neg hkind]
    obtain ⟨r, outputs, hrun, hsets⟩ := feature_spec report p
    cases r with
    | panicked => exact absurd rfl hsets.returns
    | ok _ =>
      rw [bind_run_ok (attempt_ok hrun)]
      refine ⟨_, _, _, rfl, rfl, rfl, ?_, nofun, fun _ _ _ => rfl, ?_⟩
      · rw [if_neg hkind]
      · intro _ name hname
        cases hsets.unknown name hname
    | error e =>
      rw [bind_run_ok (attempt_error hrun)]
      refine ⟨_, _, _, rfl, rfl, rfl, ?_, fun _ _ => ⟨hsets.refused e rfl, rfl⟩, ?_, ?_⟩
      · rw [if_neg hkind]
      · intro _ q hq
        cases hsets.query q hq
      · intro _ name hname
        cases hsets.unknown name hname
        rfl

/-- What a GET of the feature report answers. -/
def Answers (p : SteamProtocol) (last : Option Report) (result : Except ReplyError Report) : Prop :=
  match last.map (asks p.steamClientCompat) with
  | some (.query q) => ∃ report, result = .ok report ∧ report.kind = .feature ∧
      report.wire = frame p q
  | some (.unknown name) => ∃ report, result = .ok report ∧ report.kind = .feature ∧
      report.wire = padded 64 [1, name, 0xff]
  | some .other => result = .error .unsupported
  | none => result = .error .unsupported

theorem request_get (now : ℕ) (hserial : p.serial.length ≤ 21) (last : Option Report)
    (hq : p.query = last.bind fun report => (asks p.steamClientCompat report).slot) :
    ∃ result, p.request (.get .feature (some 1)) now = (.ok (.get result, none), p) ∧
      Answers p last result := by
  have hget := getFeature_spec hserial
  have hrefused (hnone : p.query = none) :
      p.request (.get .feature (some 1)) now = (.ok (.get (.error .unsupported), none), p) := by
    rw [hnone] at hget
    unfold SteamProtocol.request
    dsimp only
    rw [get_bind_run, if_pos ⟨rfl, rfl⟩, hget]
    rfl
  have hanswered {q : Query} (hsome : p.query = some q) : ∃ report,
      p.request (.get .feature (some 1)) now = (.ok (.get (.ok report), none), p) ∧
        report.kind = .feature ∧ report.wire = frame p q := by
    rw [hsome] at hget
    obtain ⟨report, hreport, hkind, hwire⟩ := hget
    refine ⟨report, ?_, hkind, hwire⟩
    unfold SteamProtocol.request
    dsimp only
    rw [get_bind_run, if_pos ⟨rfl, rfl⟩, hreport]
    rfl
  unfold Answers
  cases last with
  | none => exact ⟨_, hrefused hq, rfl⟩
  | some report =>
    rw [Option.bind_some] at hq
    rw [Option.map_some]
    cases hask : asks p.steamClientCompat report with
    | query q =>
      rw [hask] at hq
      obtain ⟨reply, hrun, hreply⟩ := hanswered hq
      exact ⟨_, hrun, reply, rfl, hreply⟩
    | unknown name =>
      rw [hask] at hq
      obtain ⟨reply, hrun, hreply⟩ := hanswered hq
      exact ⟨_, hrun, reply, rfl, hreply⟩
    | other =>
      rw [hask] at hq
      exact ⟨_, hrefused hq, rfl⟩

/-- Any other GET is refused, and changes nothing. -/
theorem request_get_other {kind : ReportType} {id : Option UInt8}
    (h : ¬ (kind = .feature ∧ id = some 1)) :
    p.request (.get kind id) now = (.ok (.get (.error .unsupported), none), p) := by
  unfold SteamProtocol.request
  dsimp only
  rw [get_bind_run, if_neg h]
  rfl

/-- The query slot follows from what the host did. -/
structure Follows (serial : List UInt8) (compat : Bool) (log : List Op) (p : SteamProtocol) :
    Prop where
  serial_eq : p.serial = serial
  compat_eq : p.steamClientCompat = compat
  slot : p.query = (lastSet log).bind fun report => (asks compat report).slot

variable {serial : List UInt8} {compat streaming : Bool} {log : List Op}

theorem lastSet_snoc (log : List Op) (op : Op) :
    lastSet (log ++ [op]) = laterSet (lastSet log) op := List.foldl_concat _ _ _ _

theorem step_follows {op : Op} (hserial : serial.length ≤ 21) (h : Follows serial compat log p)
    (hs : Step p op p') : Follows serial compat (log ++ [op]) p' := by
  unfold Step at hs
  subst hs
  have hstay (hlast : lastSet (log ++ [op]) = lastSet log) : Follows serial compat (log ++ [op]) p :=
    ⟨h.serial_eq, h.compat_eq, by rw [hlast]; exact h.slot⟩
  cases op with
  | lifecycle event now =>
    have hsnoc := lastSet_snoc log (.lifecycle event now)
    cases event with
    | start => exact ⟨h.serial_eq, h.compat_eq, by rw [hsnoc]; exact h.slot⟩
    | stop => exact ⟨h.serial_eq, h.compat_eq, by rw [hsnoc]; rfl⟩
    | «open» => exact hstay hsnoc
    | close => exact hstay hsnoc
  | request kind now =>
    have hsnoc := lastSet_snoc log (.request kind now)
    cases kind with
    | get kind id =>
      have hsame : (p.request (.get kind id) now).2 = p := by
        by_cases hfeature : kind = .feature ∧ id = some 1
        · obtain ⟨rfl, rfl⟩ := hfeature
          obtain ⟨result, hrun, _⟩ := request_get now (h.serial_eq ▸ hserial) (lastSet log)
            (h.compat_eq ▸ h.slot)
          rw [hrun]
        · rw [request_get_other hfeature]
      change Follows serial compat _ (p.request (.get kind id) now).2
      rw [hsame]
      exact hstay hsnoc
    | set report =>
      obtain ⟨result, output, p', hrun, hset⟩ := request_set report now p
      change Follows serial compat _ (p.request (.set report) now).2
      rw [hrun]
      refine ⟨hset.serial.trans h.serial_eq, hset.compat.trans h.compat_eq, ?_⟩
      rw [hset.slot, hsnoc, h.compat_eq]
      unfold laterSet
      dsimp only
      split
      · exact h.slot
      · rfl

theorem run_follows (hserial : serial.length ≤ 21)
    (h : Run Step (.new serial compat streaming) log p) : Follows serial compat log p := by
  induction h with
  | nil => exact ⟨rfl, rfl, rfl⟩
  | snoc _ hs ih => exact step_follows hserial ih hs

/-- What the feature exchange promises. -/
structure ExchangeContract (log : List Op) (p : SteamProtocol) : Prop where
  refused : ∀ report now e output p',
    p.request (.set report) now = (.ok (.set (.error e), output), p') →
      p'.outputs = p.outputs ∧ p'.stream = p.stream
  /-- Queries are accepted, unknown commands are not. -/
  query : ∀ report now q, report.kind ≠ .output → asks p.steamClientCompat report = .query q →
    ∃ output p', p.request (.set report) now = (.ok (.set (.ok ()), output), p')
  unknown : ∀ report now name, report.kind ≠ .output →
    asks p.steamClientCompat report = .unknown name →
      ∃ output p', p.request (.set report) now = (.ok (.set (.error .unsupported), output), p')
  answered : ∀ now, ∃ result, p.request (.get .feature (some 1)) now =
    (.ok (.get result, none), p) ∧ Answers p (lastSet log) result
  safe : ∀ kind now, (p.request kind now).1 ≠ .panicked

/-- After any requests and lifecycle events, in both profiles and with every serial number that a
configuration may give. -/
theorem feature_exchange (hserial : 1 ≤ serial.length ∧ serial.length ≤ 21)
    (h : Run Step (.new serial compat streaming) log p) : ExchangeContract log p := by
  have hf := run_follows hserial.2 h
  have hget (now : ℕ) : ∃ result, p.request (.get .feature (some 1)) now =
      (.ok (.get result, none), p) ∧ Answers p (lastSet log) result :=
    request_get now (hf.serial_eq ▸ hserial.2) (lastSet log) (hf.compat_eq ▸ hf.slot)
  refine ⟨?_, ?_, ?_, hget, ?_⟩
  · intro report now e output p' hrun
    obtain ⟨result, output', p'', hrun', hset⟩ := request_set report now p
    rw [hrun'] at hrun
    obtain ⟨hreply, rfl⟩ := Prod.mk.inj hrun
    obtain ⟨hresult, _⟩ := Prod.mk.inj (Outcome.ok.inj hreply)
    exact hset.refused e (Reply.set.inj hresult)
  · intro report now q hkind hask
    obtain ⟨result, output, p', hrun, hset⟩ := request_set report now p
    obtain rfl := hset.query hkind q hask
    exact ⟨output, p', hrun⟩
  · intro report now name hkind hask
    obtain ⟨result, output, p', hrun, hset⟩ := request_set report now p
    obtain rfl := hset.unknown hkind name hask
    exact ⟨output, p', hrun⟩
  · intro kind now
    cases kind with
    | get kind id =>
      by_cases hfeature : kind = .feature ∧ id = some 1
      · obtain ⟨rfl, rfl⟩ := hfeature
        obtain ⟨result, hrun, _⟩ := hget now
        rw [hrun]
        exact nofun
      · rw [request_get_other hfeature]
        exact nofun
    | set report =>
      obtain ⟨result, output, p', hrun, _⟩ := request_set report now p
      rw [hrun]
      exact nofun

/-- A command that no profile knows. -/
def unknownSet : Report :=
  ⟨.feature, some 1, 0xfe :: List.replicate 62 0, by decide⟩

theorem feature_exchange_unknown : ∃ p,
    Run Step (.new (ascii "v1") true false) [.request (.set unknownSet) 0] p ∧
      p.query = some (.unsupported 0xfe) ∧
      ExchangeContract [.request (.set unknownSet) 0] p := by
  have hrun : Run Step (.new (ascii "v1") true false) [.request (.set unknownSet) 0]
      (Op.run (.new (ascii "v1") true false) (.request (.set unknownSet) 0)) :=
    run_singleton.mpr rfl
  exact ⟨_, hrun, by decide +kernel, feature_exchange (by decide) hrun⟩

end Exchange

end SteamController
