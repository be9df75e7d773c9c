import VirtualGamepad.UsbipWorker
import Mathlib.Data.List.Induction

/-! What one control request can do, and from it what holds of the control state after any requests. -/
namespace UsbipControlRequests

open Fallible HidRuntime UsbipControl UsbipFrame UsbipWorker

section Requests

variable (profile : Profile) (s : ControlState)

/-- What may be read, in full: request type, request, value, index and the document. -/
inductive Document : ℕ → ℕ → ℕ → ℕ → List UInt8 → Prop where
  | descriptor {value index : ℕ} {full : List UInt8} :
      descriptor profile value index = some full → Document 0x80 6 value index full
  | report : Document 0x81 6 0x2200 3 profile.spec.report
  | hid : profile.spec.report.length < 65536 →
      Document 0x81 6 0x2100 3 ([9, 0x21, 0x11, 1, 0, 1, 0x22] ++ le16 profile.spec.report.length)
  | configuration : Document 0x80 8 0 0 [s.configuration]
  | alternate {index : ℕ} : s.configured = true → index < 4 →
      Document 0x81 10 0 index [s.alternate.getD index 0]
  | deviceStatus : Document 0x80 0 0 0 [0, 0]
  | interfaceStatus {index : ℕ} : s.configured = true → index < 4 →
      Document 0x81 0 0 index [0, 0]
  | clock {request value : ℕ} {full : List UInt8} : s.configured = true →
      clock request value = some full → Document 0xa1 request value 0x1000 full

/-- What a request can do: nothing, an answer that changes nothing, a change without data, or a
report request for the personality. -/
inductive Handled (setup payload : List UInt8) : Completion × ControlState → Prop where
  | stall : Handled setup payload (.stall, s)
  | data {full : List UInt8} : Document profile s (setup.getD 0 0).toNat (setup.getD 1 0).toNat
      (setupWord setup 2) (setupWord setup 4) full →
      Handled setup payload (.data (full.take (setupWord setup 6)), s)
  | configure : setupWord setup 2 ≤ 1 →
      Handled setup payload (.data [], ⟨UInt8.ofNat (setupWord setup 2), [0, 0, 0, 0]⟩)
  | select : s.configured = true → setupWord setup 4 < 4 →
      (setupWord setup 2 = 0 ∨
        ((setupWord setup 4 = 1 ∨ setupWord setup 4 = 2) ∧ setupWord setup 2 = 1)) →
      Handled setup payload (.data [], { s with
        alternate := s.alternate.set (setupWord setup 4) (UInt8.ofNat (setupWord setup 2)) })
  | get {kind : ReportType} {id : Option UInt8} : s.configured = true → setupWord setup 4 = 3 →
      reportType (setupWord setup 2) = (kind, id) → id.isSome = profile.spec.numberedReports →
      Handled setup payload (.hid (.get kind id), s)
  | set {report : Report} : s.configured = true → setupWord setup 4 = 3 →
      reportType (setupWord setup 2) = (report.kind, report.id) →
      report.id.isSome = profile.spec.numberedReports → report.wire = payload →
      payload.length = setupWord setup 6 →
      Handled setup payload (.hid (.set report), s)

variable {profile s} {setup payload : List UInt8}

theorem handled_answer {full : Option (List UInt8)}
    (h : ∀ bytes, full = some bytes → Document profile s (setup.getD 0 0).toNat
      (setup.getD 1 0).toNat (setupWord setup 2) (setupWord setup 4) bytes) :
    Handled profile s setup payload (answer (setupWord setup 6) full, s) := by
  cases full with
  | none => exact .stall
  | some bytes => exact .data (h bytes rfl)

theorem fromWire_kind {kind : ReportType} {numbered : Bool} {bytes : List UInt8} {report : Report}
    (h : Report.fromWire kind numbered bytes = .ok report) : report.kind = kind := by
  unfold Report.fromWire Report.new at h
  cases numbered with
  | false =>
    simp only [Bool.false_eq_true, if_false] at h
    split at h
    · cases h
      rfl
    · cases h
  | true =>
    cases bytes with
    | nil => cases h
    | cons id payload =>
      simp only [if_true] at h
      split at h
      · cases h
        rfl
      · cases h

theorem handled_get (hconfigured : s.configured = true) (hindex : setupWord setup 4 = 3) :
    Handled profile s setup payload (getReport profile (setupWord setup 2), s) := by
  unfold getReport
  rcases hkind : reportType (setupWord setup 2) with ⟨kind, id⟩
  dsimp only
  by_cases hnumbered : profile.spec.numberedReports = id.isSome
  · rw [if_neg (not_not.mpr hnumbered)]
    exact .get hconfigured hindex hkind hnumbered.symm
  · rw [if_pos hnumbered]
    exact .stall

theorem handled_set (hconfigured : s.configured = true) (hindex : setupWord setup 4 = 3)
    (hlength : payload.length = setupWord setup 6) :
    Handled profile s setup payload (setReport profile (setupWord setup 2) payload, s) := by
  unfold setReport
  rcases hkind : reportType (setupWord setup 2) with ⟨kind, id⟩
  dsimp only
  by_cases hnumbered : profile.spec.numberedReports = id.isSome
  · rw [if_neg (not_not.mpr hnumbered)]
    cases hwire : Report.fromWire kind profile.spec.numberedReports payload with
    | error e => exact .stall
    | ok report =>
      dsimp only
      by_cases hid : report.id = id
      · rw [if_neg (not_not.mpr hid)]
        rw [← hid, ← fromWire_kind hwire] at hkind
        exact .set hconfigured hindex hkind (hid ▸ hnumbered.symm) (fromWire_wire hwire) hlength
      · rw [if_pos hid]
        exact .stall
  · rw [if_pos hnumbered]
    exact .stall

theorem handled (profile : Profile) (setup payload : List UInt8) (s : ControlState) :
    Handled profile s setup payload (handle profile setup payload s) := by
  unfold handle
  dsimp only
  by_cases hframing : ((setup.getD 0 0) &&& 0x80 ≠ 0 ∧ payload ≠ []) ∨
      (¬(setup.getD 0 0) &&& 0x80 ≠ 0 ∧ payload.length ≠ setupWord setup 6)
  · rw [if_pos hframing]
    exact .stall
  · rw [if_neg hframing]
    split
    · next htype hrequest =>
      refine handled_answer fun bytes hbytes => ?_
      rw [htype, hrequest]
      exact .descriptor hbytes
    · next htype hrequest =>
      by_cases hindex : setupWord setup 4 = 3
      · rw [if_neg (not_not.mpr hindex)]
        by_cases hreport : setupWord setup 2 = 0x2200
        · rw [if_pos hreport]
          refine handled_answer fun bytes hbytes => ?_
          rw [htype, hrequest, hreport, hindex, ← Option.some.inj hbytes]
          exact .report
        · rw [if_neg hreport]
          by_cases hhid : setupWord setup 2 = 0x2100 ∧ profile.spec.report.length < 65536
          · rw [if_pos hhid]
            refine handled_answer fun bytes hbytes => ?_
            rw [htype, hrequest, hhid.1, hindex, ← Option.some.inj hbytes]
            exact .hid hhid.2
          · rw [if_neg hhid]
            exact .stall
      · rw [if_pos hindex]
        exact .stall
    · next htype hrequest =>
      split
      · next hguard =>
        refine handled_answer fun bytes hbytes => ?_
        rw [htype, hrequest, hguard.1, hguard.2.1, ← Option.some.inj hbytes]
        exact .configuration
      · exact .stall
    · split
      · next hguard => exact .configure hguard.1
      · exact .stall
    · next htype hrequest =>
      split
      · next hguard =>
        refine handled_answer fun bytes hbytes => ?_
        rw [htype, hrequest, hguard.2.2.1, ← Option.some.inj hbytes]
        exact .alternate hguard.1 hguard.2.1
      · exact .stall
    · split
      · next hguard =>
        split
        · next hvalid => exact .select hguard.1 hguard.2.1 hvalid
        · exact .stall
      · exact .stall
    · next htype hrequest =>
      split
      · next hguard =>
        refine handled_answer fun bytes hbytes => ?_
        rw [htype, hrequest, hguard.1, hguard.2.1, ← Option.some.inj hbytes]
        exact .deviceStatus
      · exact .stall
    · next htype hrequest =>
      split
      · next hguard =>
        refine handled_answer fun bytes hbytes => ?_
        rw [htype, hrequest, hguard.2.1, ← Option.some.inj hbytes]
        exact .interfaceStatus hguard.1 hguard.2.2.1
      · exact .stall
    · next htype =>
      split
      · next hguard =>
        refine handled_answer fun bytes hbytes => ?_
        rw [htype, hguard.2.2]
        exact .clock hguard.2.1 hbytes
      · split
        · next hguard => exact handled_get hguard.2.1 hguard.2.2.1
        · exact .stall
    · next htype _ =>
      split
      · next hguard =>
        refine handled_set hguard.1 hguard.2.1 ?_
        have hout : ¬(setup.getD 0 0) &&& 0x80 ≠ 0 := by
          rw [UInt8.toNat_inj.mp (htype.trans (by decide : 33 = (33 : UInt8).toNat))]
          decide
        by_contra hlength
        exact hframing (.inr ⟨hout, hlength⟩)
      · exact .stall
    · exact .stall

end Requests

section Runs

variable {profile : Profile} {s : ControlState}

/-- The state after these requests and their payloads, from the one at attachment. -/
def after (profile : Profile) (requests : List (List UInt8 × List UInt8)) : ControlState :=
  requests.foldl (fun s request => (handle profile request.1 request.2 s).2) .default

/-- Alternate settings are selected only while configured, for the two streaming interfaces. -/
structure Consistent (s : ControlState) : Prop where
  slots : s.alternate.length = 4
  configuration : s.configuration = 0 ∨ s.configuration = 1
  configured : ∀ i, s.alternate.getD i 0 ≠ 0 → s.configured = true ∧ (i = 1 ∨ i = 2)
  values : ∀ i, s.alternate.getD i 0 = 0 ∨ s.alternate.getD i 0 = 1

theorem consistent_reset {configuration : UInt8} (h : configuration = 0 ∨ configuration = 1) :
    Consistent ⟨configuration, [0, 0, 0, 0]⟩ := by
  have hzero : ∀ i, [(0 : UInt8), 0, 0, 0].getD i 0 = 0 := by
    intro i
    rcases i with _ | _ | _ | _ | i <;> rfl
  exact ⟨rfl, h, fun i hi => absurd (hzero i) hi, fun i => .inl (hzero i)⟩

theorem getD_set (xs : List UInt8) (i j : ℕ) (value : UInt8) :
    (xs.set i value).getD j 0 = if i = j ∧ i < xs.length then value else xs.getD j 0 := by
  rw [List.getD_eq_getElem?_getD, List.getD_eq_getElem?_getD, List.getElem?_set]
  by_cases hij : i = j
  · subst hij
    by_cases hi : i < xs.length
    · simp [hi]
    · simp [hi]
  · simp [hij]

theorem consistent_step {setup payload : List UInt8} {result : Completion × ControlState}
    (h : Consistent s) (hstep : Handled profile s setup payload result) : Consistent result.2 := by
  cases hstep with
  | stall => exact h
  | data _ => exact h
  | get _ _ _ _ => exact h
  | set _ _ _ _ _ _ => exact h
  | configure hvalue =>
    refine consistent_reset ?_
    rcases Nat.le_one_iff_eq_zero_or_eq_one.mp hvalue with hzero | hone
    · rw [hzero]
      exact .inl rfl
    · rw [hone]
      exact .inr rfl
  | select hconfigured hindex hvalue =>
    constructor
    · exact List.length_set.trans h.slots
    · exact h.configuration
    · intro i hi
      dsimp only at hi
      rw [getD_set] at hi
      split at hi
      · next hhere =>
        rcases hvalue with hzero | ⟨hstream, _⟩
        · rw [hzero] at hi
          exact absurd rfl hi
        · exact ⟨hconfigured, hhere.1 ▸ hstream⟩
      · exact h.configured i hi
    · intro i
      dsimp only
      rw [getD_set]
      split
      · rcases hvalue with hzero | ⟨_, hone⟩
        · rw [hzero]
          exact .inl rfl
        · rw [hone]
          exact .inr rfl
      · exact h.values i

theorem after_consistent (profile : Profile) (requests : List (List UInt8 × List UInt8)) :
    Consistent (after profile requests) := by
  induction requests using List.reverseRecOn with
  | nil => exact consistent_reset (.inl rfl)
  | append_singleton requests request ih =>
    unfold after
    rw [List.foldl_append]
    exact consistent_step ih (handled profile request.1 request.2 _)

/-- One request in a state, whatever came before. -/
structure Sound (profile : Profile) (s : ControlState) (setup payload : List UInt8) : Prop where
  consistent : Consistent s
  stall : (handle profile setup payload s).1 = .stall → (handle profile setup payload s).2 = s
  /-- Requests that change the state are answered without data. -/
  data : ∀ bytes, (handle profile setup payload s).1 = .data bytes →
    bytes.length ≤ setupWord setup 6 ∧
      (bytes = [] ∨ (∃ full, Document profile s (setup.getD 0 0).toNat (setup.getD 1 0).toNat
        (setupWord setup 2) (setupWord setup 4) full ∧ bytes <+: full))
  get : ∀ kind id, (handle profile setup payload s).1 = .hid (.get kind id) →
    s.configured = true ∧ setupWord setup 4 = 3 ∧ reportType (setupWord setup 2) = (kind, id) ∧
      id.isSome = profile.spec.numberedReports
  set : ∀ report, (handle profile setup payload s).1 = .hid (.set report) →
    s.configured = true ∧ setupWord setup 4 = 3 ∧
      reportType (setupWord setup 2) = (report.kind, report.id) ∧
      report.id.isSome = profile.spec.numberedReports ∧ report.wire = payload ∧
      payload.length = setupWord setup 6

theorem sound_of_consistent {setup payload : List UInt8} (h : Consistent s) :
    Sound profile s setup payload := by
  have hcases := handled profile setup payload s
  constructor
  · exact h
  · intro hstall
    generalize handle profile setup payload s = result at hcases hstall ⊢
    cases hcases with
    | stall => rfl
    | _ => cases hstall
  · intro bytes hdata
    generalize handle profile setup payload s = result at hcases hdata
    cases hcases with
    | data hdocument =>
      cases hdata
      exact ⟨List.length_take_le .., .inr ⟨_, hdocument, List.take_prefix ..⟩⟩
    | configure _ =>
      cases hdata
      exact ⟨Nat.zero_le _, .inl rfl⟩
    | select _ _ _ =>
      cases hdata
      exact ⟨Nat.zero_le _, .inl rfl⟩
    | _ => cases hdata
  · intro kind id hget
    generalize handle profile setup payload s = result at hcases hget
    cases hcases with
    | get hconfigured hindex hkind hnumbered =>
      cases hget
      exact ⟨hconfigured, hindex, hkind, hnumbered⟩
    | _ => cases hget
  · intro report hset
    generalize handle profile setup payload s = result at hcases hset
    cases hcases with
    | set hconfigured hindex hkind hnumbered hwire hlength =>
      cases hset
      exact ⟨hconfigured, hindex, hkind, hnumbered, hwire, hlength⟩
    | _ => cases hset

end Runs

section Transfers

variable {H K : Type} [HidHandler H]

theorem controlResponse_control (completion : Completion) (now : ℕ) (w : Worker H K) :
    (controlResponse completion now w).2.control = w.control ∧
      ∃ response, (controlResponse completion now w).1 = .ok response ∧
        (∀ bytes, completion = .data bytes → response = some bytes) := by
  cases completion with
  | data bytes =>
    refine ⟨rfl, some bytes, rfl, fun _ h => ?_⟩
    cases h
    rfl
  | stall => exact ⟨rfl, none, rfl, nofun⟩
  | hid kind => exact ⟨rfl, _, rfl, nofun⟩

/-- A transfer that stalls, here or in the personality, has left the control state alone, and an
answer has room in its transfer. -/
theorem transfer_sound (slot : Slot) (request : Submit) (now : ℕ) (w : Worker H K) :
    Meets (controlTransfer slot request now w)
      (fun outcome t => (outcome.status ≠ 0 → t.control = w.control) ∧
        outcome.data.length ≤ request.header.transferBytes) (fun _ _ => True) := by
  unfold controlTransfer
  rw [meets_get_bind]
  have hcases := handled w.profile request.header.setup request.payload w.control
  rcases hhandle : handle w.profile request.header.setup request.payload w.control with
    ⟨completion, control⟩
  rw [hhandle] at hcases
  dsimp only
  rw [meets_modify_bind]
  generalize hrecorded : ({ w.record _ with control } : Worker H K) = recorded
  obtain ⟨hcontrol, response, hresponse, hanswered⟩ := controlResponse_control completion now recorded
  rw [meets_bind_ok (Prod.ext hresponse rfl)]
  cases response with
  | some bytes =>
    dsimp only
    split
    · refine ⟨fun hstatus => absurd rfl hstatus, ?_⟩
      refine (List.length_take_le _ _).trans ((Nat.min_le_left _ _).trans (Nat.min_le_right _ _))
    · exact ⟨fun hstatus => absurd rfl hstatus, Nat.zero_le _⟩
  | none =>
    refine ⟨fun _ => ?_, Nat.zero_le _⟩
    have hsame : control = w.control := by
      cases hcases with
      | data _ => nomatch hanswered _ rfl
      | configure _ => nomatch hanswered _ rfl
      | select _ _ _ => nomatch hanswered _ rfl
      | _ => rfl
    rw [hcontrol, ← hrecorded]
    exact hsame

/-- EP0 after any requests, and its transfers. -/
theorem control_sound :
    (∀ (profile : Profile) (requests : List (List UInt8 × List UInt8)) (setup payload : List UInt8),
      Sound profile (after profile requests) setup payload) ∧
    (∀ (H K : Type) [HidHandler H] (slot : Slot) (request : Submit) (now : ℕ)
      (w t : Worker H K) (outcome : Outcome),
      controlTransfer slot request now w = (.ok outcome, t) →
      (outcome.status ≠ 0 → t.control = w.control) ∧
        outcome.data.length ≤ request.header.transferBytes) := by
  refine ⟨?_, ?_⟩
  · intro profile requests setup payload
    exact sound_of_consistent (after_consistent profile requests)
  · intro H K _ slot request now w t outcome hrun
    have hsound := transfer_sound slot request now w
    rw [hrun] at hsound
    exact hsound

end Transfers

end UsbipControlRequests
