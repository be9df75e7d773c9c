import VirtualGamepad.WiiRuns

/-! No slice of the Wii Remote personality leaves its array, but for one write that is tried before its
size has been checked. -/
namespace WiiSafety

open HidRuntime (Report ReportType Framed Error ReplyError)
open ControllerContract MachineInt Panicking WireBytes WiiRemote WiiReports WiiMemory WiiProtocol
open Panicking.Action

section Data

variable {ε : Type} {mode : UInt8} {state : WiiRemoteState} {ir : Bool} {bytes : List UInt8} {n : ℕ}
  {E : ε → Prop}

/-- A result of the size of the array that it was made from. -/
def Sized (n : ℕ) (r : Outcome ε (List UInt8)) (E : ε → Prop) : Prop :=
  r.Yields (fun b => b.length = n) E False

theorem sized_ok (h : bytes.length = n) : Sized n (.ok bytes : Outcome ε (List UInt8)) E := h

theorem sized_copy {start stop : ℕ} {src : List UInt8} (h : bytes.length = n) (hle : start ≤ stop)
    (hstop : stop ≤ n) (hsrc : src.length = stop - start) :
    Sized n (copyFromSlice bytes start stop src : Outcome ε (List UInt8)) E := by
  rw [copyFromSlice_eq_ok hle (h ▸ hstop) hsrc]
  exact (length_overlay (by omega)).trans h

theorem sized_update {i : ℕ} {f : UInt8 → UInt8} (h : bytes.length = n) (hi : i < n) :
    Sized n (update bytes i f : Outcome ε (List UInt8)) E := by
  unfold update
  rw [List.getElem?_eq_getElem (h ▸ hi)]
  exact (List.length_set).trans h

theorem sized_fill {start stop : ℕ} {value : UInt8} (h : bytes.length = n) (hle : start ≤ stop)
    (hstop : stop ≤ n) : Sized n (fill bytes start stop value : Outcome ε (List UInt8)) E :=
  sized_copy h hle hstop List.length_replicate

theorem sized_bind {r : Outcome ε (List UInt8)} {f : List UInt8 → Outcome ε (List UInt8)}
    (h : Sized n r E) (k : ∀ b, b.length = n → Sized n (f b) E) : Sized n (r >>= f) E :=
  yields_bind h k

/-- Every window of a mode lies in its report. -/
structure Roomy (mode : UInt8) (n : ℕ) : Prop where
  core : mode ≠ 0x3d → 2 ≤ n
  acceleration : mode = 0x31 ∨ mode = 0x33 ∨ mode = 0x35 ∨ mode = 0x37 → 5 ≤ n
  interleaved : mode = 0x3e ∨ mode = 0x3f → 3 ≤ n
  extended : mode = 0x33 → 17 ≤ n
  basic : mode = 0x36 ∨ mode = 0x37 → (if mode = 0x36 then 2 else 5) + 10 ≤ n
  window : ∀ offset size, extensionWindow mode = some (offset, size) → offset + size ≤ n

theorem modes_roomy {entry : UInt8 × ℕ} (h : entry ∈ modes) : Roomy entry.1 entry.2 := by
  have hall : ∀ e ∈ modes, (e.1 ≠ 0x3d → 2 ≤ e.2) ∧
      (e.1 = 0x31 ∨ e.1 = 0x33 ∨ e.1 = 0x35 ∨ e.1 = 0x37 → 5 ≤ e.2) ∧
      (e.1 = 0x3e ∨ e.1 = 0x3f → 3 ≤ e.2) ∧ (e.1 = 0x33 → 17 ≤ e.2) ∧
      (e.1 = 0x36 ∨ e.1 = 0x37 → (if e.1 = 0x36 then 2 else 5) + 10 ≤ e.2) ∧
      (extensionWindow e.1).all fun w => w.1 + w.2 ≤ e.2 := by decide
  obtain ⟨hcore, hacceleration, hinterleaved, hextended, hbasic, hwindow⟩ := hall entry h
  refine ⟨hcore, hacceleration, hinterleaved, hextended, hbasic, ?_⟩
  intro offset size hw
  rw [hw] at hwindow
  exact of_decide_eq_true hwindow

theorem withCore_sized (hr : Roomy mode n) (h : bytes.length = n) :
    Sized n (withCore mode state bytes : Outcome ε (List UInt8)) E := by
  unfold withCore
  by_cases hmode : mode ≠ 0x3d
  · rw [if_pos hmode]
    exact sized_copy h (by omega) (hr.core hmode) rfl
  · rw [if_neg hmode]
    exact h

theorem withAcceleration_sized (hr : Roomy mode n) (h : bytes.length = n) :
    Sized n (withAcceleration mode state bytes : Outcome ε (List UInt8)) E := by
  unfold withAcceleration
  dsimp only
  by_cases hmode : mode = 0x31 ∨ mode = 0x33 ∨ mode = 0x35 ∨ mode = 0x37
  · have hroom := hr.acceleration hmode
    rw [if_pos hmode]
    refine sized_bind (sized_update h (by omega)) fun b hb => ?_
    refine sized_bind (sized_update hb (by omega)) fun b hb => ?_
    exact sized_copy hb (by omega) hroom rfl
  · rw [if_neg hmode]
    have hthree (f g k : UInt8 → UInt8) (hroom : 3 ≤ n) : Sized n (do
        let bytes ← update bytes 0 f
        let bytes ← update bytes 1 g
        update bytes 2 k : Outcome ε (List UInt8)) E := by
      refine sized_bind (sized_update h (by omega)) fun b hb => ?_
      refine sized_bind (sized_update hb (by omega)) fun b hb => ?_
      exact sized_update hb (by omega)
    by_cases hfirst : mode = 0x3e
    · rw [if_pos hfirst]
      exact hthree _ _ _ (hr.interleaved (.inl hfirst))
    · rw [if_neg hfirst]
      by_cases hsecond : mode = 0x3f
      · rw [if_pos hsecond]
        exact hthree _ _ _ (hr.interleaved (.inr hsecond))
      · rw [if_neg hsecond]
        exact h

/-- The modes without a typed point size. -/
def Blind (mode : UInt8) (state : WiiRemoteState) (ir : Bool) : Prop :=
  (mode = 0x33 ∨ mode = 0x3e ∨ mode = 0x3f) ∧ ir = true ∧ state.visible = true

theorem withIr_yields (hr : Roomy mode n) (h : bytes.length = n) :
    (withIr mode state ir bytes).Yields
      (fun b => b.length = n ∧ (mode = 0x33 → ¬Blind mode state ir))
      (fun e => e = .invalidState ∧ Blind mode state ir) False := by
  unfold withIr
  by_cases hextended : mode = 0x33
  · rw [if_pos hextended]
    refine yields_bind (sized_fill h (by omega) (hr.extended hextended)) fun b hb => ?_
    by_cases hvisible : ir ∧ state.visible
    · rw [if_pos hvisible]
      exact ⟨rfl, .inl hextended, hvisible⟩
    · rw [if_neg hvisible]
      exact ⟨hb, fun _ hblind => hvisible hblind.2⟩
  · rw [if_neg hextended]
    have hsized {r : Outcome Error (List UInt8)} (hr : Sized n r fun _ => False) :
        r.Yields (fun b => b.length = n ∧ (mode = 0x33 → ¬Blind mode state ir))
          (fun e => e = .invalidState ∧ Blind mode state ir) False :=
      hr.mono (fun b hb => ⟨hb, fun h33 => absurd h33 hextended⟩) (fun _ he => he.elim) fun hp => hp
    by_cases hbasic : mode = 0x36 ∨ mode = 0x37
    · rw [if_pos hbasic]
      refine hsized (sized_copy h (Nat.le_add_right _ _) (hr.basic hbasic) ?_)
      rw [Nat.add_sub_cancel_left]
      split
      · rfl
      · rfl
    · rw [if_neg hbasic]
      by_cases hinterleaved : mode = 0x3e ∨ mode = 0x3f
      · rw [if_pos hinterleaved]
        exact hsized (sized_fill h (h ▸ hr.interleaved hinterleaved) (Nat.le_of_eq h))
      · rw [if_neg hinterleaved]
        exact hsized h

theorem withWindow_sized (hr : Roomy mode n) (h : bytes.length = n) :
    Sized n (withWindow mode bytes : Outcome ε (List UInt8)) E := by
  unfold withWindow
  split
  · next hw => exact sized_fill h (Nat.le_add_right _ _) (hr.window _ _ hw)
  · exact h

theorem input_ok {id : UInt8} (hid : id ≠ 0) (h : bytes.length ≤ 21) :
    ∃ report, (WiiReports.input id bytes : Outcome ε Report) = .ok report ∧ report.kind = .input ∧
      report.id = some id ∧ report.payload = bytes := by
  have hframed : Framed (some id) bytes := by
    constructor
    · intro hzero
      exact hid (Option.some.inj hzero)
    · rw [Option.isSome_some, if_pos rfl]
      omega
  have hnew : Report.new .input (some id) bytes = .ok ⟨.input, some id, bytes, hframed⟩ :=
    dif_pos hframed
  refine ⟨⟨.input, some id, bytes, hframed⟩, ?_, rfl, rfl, rfl⟩
  unfold WiiReports.input
  rw [hnew]

/-- The states that a mode can report. -/
structure Encodable (mode : UInt8) (state : WiiRemoteState) (ir : Bool) : Prop where
  known : mode ∈ modes.map Prod.fst
  sighted : ¬Blind mode state ir

/-- A data report of its mode. -/
structure DataReport (mode : UInt8) (report : Report) : Prop where
  kind_eq : report.kind = .input
  id_eq : report.id = some mode
  size : (mode, report.payload.length) ∈ modes

theorem data_yields (mode : UInt8) (state : WiiRemoteState) (ir : Bool) :
    (data mode state ir).Yields (fun report => DataReport mode report ∧ Encodable mode state ir)
      (fun e => e = .invalidState ∧ ¬Encodable mode state ir) False := by
  unfold data
  cases hfind : modes.find? (·.1 = mode) with
  | none =>
    refine ⟨rfl, fun h => ?_⟩
    obtain ⟨entry, hentry, heq⟩ := List.mem_map.mp h.known
    exact List.find?_eq_none.mp hfind entry hentry (decide_eq_true heq)
  | some entry =>
    obtain ⟨mode', n⟩ := entry
    have hmem := List.mem_of_find?_eq_some hfind
    have hmode := List.find?_some hfind
    obtain rfl : mode' = mode := of_decide_eq_true hmode
    have hroomy := modes_roomy hmem
    have hsmall : ∀ e ∈ modes, e.1 ≠ 0 ∧ e.2 ≤ 21 := by decide
    obtain ⟨hid, hlength⟩ := hsmall _ hmem
    dsimp only
    by_cases hrefused : (mode' = 0x3e ∨ mode' = 0x3f) ∧ ir = true ∧ state.visible = true
    · rw [if_pos hrefused]
      exact ⟨rfl, fun h => h.sighted ⟨.inr hrefused.1, hrefused.2⟩⟩
    · rw [if_neg hrefused]
      refine yields_bind (withCore_sized hroomy List.length_replicate) fun b hb => ?_
      refine yields_bind (withAcceleration_sized hroomy hb) fun b hb => ?_
      refine yields_bind ((withIr_yields hroomy hb).mono (fun _ hq => hq) ?_ fun hp => hp) ?_
      · rintro e ⟨rfl, hblind⟩
        exact ⟨rfl, fun h => h.sighted hblind⟩
      · rintro b ⟨hb, hsighted⟩
        refine yields_bind (withWindow_sized hroomy hb) fun b hb => ?_
        obtain ⟨report, hreport, hkind, hreportId, hpayload⟩ := input_ok hid (hb.trans_le hlength)
        rw [hreport]
        refine ⟨⟨hkind, hreportId, ?_⟩, List.mem_map_of_mem hmem, ?_⟩
        · rw [hpayload, hb]
          exact hmem
        · rintro hblind
          rcases hblind.1 with h33 | hinterleaved
          · exact hsighted h33 hblind
          · exact hrefused ⟨hinterleaved, hblind.2⟩

theorem data_ok_iff {mode : UInt8} {state : WiiRemoteState} {ir : Bool} :
    (∃ report, data mode state ir = .ok report) ↔ Encodable mode state ir := by
  have hdata := data_yields mode state ir
  cases hrun : data mode state ir with
  | ok report =>
    rw [hrun] at hdata
    exact ⟨fun _ => hdata.2, fun _ => ⟨report, rfl⟩⟩
  | error e =>
    rw [hrun] at hdata
    refine ⟨?_, fun h => absurd h hdata.2⟩
    rintro ⟨_, h⟩
    cases h
  | panicked =>
    rw [hrun] at hdata
    exact hdata.elim

end Data

section Writes

variable {ε : Type} {p : List UInt8} {state : WiiRemoteState} {m : Memory}

theorem index_eq {i : ℕ} (h : i < p.length) :
    (index p i : Outcome ε UInt8) = .ok (p.getD i 0) := by
  rw [index_eq_ok h, List.getD_eq_getElem?_getD, List.getElem?_eq_getElem h, Option.getD_some]

/-- The fields of a write. -/
structure Store where
  space : UInt8
  slave : UInt8
  address : ℕ
  offset : UInt8
  data : List UInt8

def Store.of (p : List UInt8) : Store where
  space := (p.getD 0 0 >>> 2) &&& 3
  slave := p.getD 1 0 >>> 1
  address := (be16 (p.getD 2 0) (p.getD 3 0)).toNat
  offset := p.getD 3 0
  data := (p.drop 5).take (p.getD 4 0).toNat

def Store.run (w : Store) (state : WiiRemoteState) : Panicking.Action ε Memory UInt8 := fun m =>
  if w.space = 0 then Memory.writeEeprom w.address w.data m
  else if ¬(w.space = 1 ∨ w.space = 2) then (.ok 6, m)
  else if w.slave = 0x50 then (.ok 8, m)
  else if w.slave = 0x51 then Memory.writeSpeaker w.address w.data m
  else if w.slave = 0x58 then Memory.writeCamera w.offset w.data m
  else if m.motionPlusSelected state w.slave then Memory.writeMotionPlus w.slave w.offset w.data m
  else if w.slave ≠ 0x52 ∨ state.extension.kind = .none ∨ state.extension.kind = .classicPro then
    (.ok 7, m)
  else Memory.writeExtension w.offset w.data m

theorem write_eq (h : p.length = 21) (hsize : (p.getD 4 0).toNat ≤ 16) :
    (Memory.write state p m : Outcome ε UInt8 × Memory) = (Store.of p).run state m := by
  have hrange : (range p 5 (5 + (p.getD 4 0).toNat) : Outcome ε (List UInt8)) =
      .ok (Store.of p).data := by
    rw [range_eq_ok (by omega) (by omega), Nat.add_sub_cancel_left]
    rfl
  unfold Memory.write Store.run
  rw [index_eq (by omega), index_eq (by omega), index_eq (by omega), index_eq (by omega),
    index_eq (by omega), lift_ok_bind_run, lift_ok_bind_run, lift_ok_bind_run, lift_ok_bind_run,
    hrange, lift_ok_bind_run]
  simp only [ite_run, lift_ok_bind_run, get_bind_run]
  rfl

theorem write_panics (h : p.length = 21) (hsize : 16 < (p.getD 4 0).toNat) :
    (Memory.write state p m : Outcome ε UInt8 × Memory) = (.panicked, m) := by
  have hrange : (range p 5 (5 + (p.getD 4 0).toNat) : Outcome ε (List UInt8)) = .panicked :=
    range_panics (by omega)
  unfold Memory.write
  rw [index_eq (by omega), index_eq (by omega), index_eq (by omega), index_eq (by omega),
    lift_ok_bind_run, lift_ok_bind_run, lift_ok_bind_run, lift_ok_bind_run, hrange,
    lift_panicked_bind_run]

theorem Store.length_data (h : p.length = 21) (hsize : (p.getD 4 0).toNat ≤ 16) :
    (Store.of p).data.length = (p.getD 4 0).toNat := by
  change ((p.drop 5).take _).length = _
  rw [List.length_take, List.length_drop]
  omega

/-- The camera takes writes that lie in its registers alone. -/
theorem cameraAccepts_fits {offset : UInt8} {n : ℕ} (h : Memory.cameraAccepts offset n = true) :
    offset.toNat + n ≤ 52 := by
  unfold Memory.cameraAccepts at h
  simp only [Bool.or_eq_true, Bool.and_eq_true, decide_eq_true_eq] at h
  rcases h with (⟨⟨rfl, _⟩, hn⟩ | ⟨⟨rfl, _⟩, hn⟩) | ⟨rfl | rfl, rfl⟩
  · exact Nat.le_trans (Nat.add_le_add_left hn _) (by decide)
  · exact Nat.le_trans (Nat.add_le_add_left hn _) (by decide)
  · decide
  · decide

/-- What a write can do to the memory, with the code that it is acknowledged with. -/
inductive Stored (s : Store) (state : WiiRemoteState) (m : Memory) : UInt8 → Memory → Prop where
  | refused {code : UInt8} : (s.space = 0 → m.image.bytes.length < s.address + s.data.length) →
      code ≠ 0 → Stored s state m code m
  | same : s.space = 0 → s.address + s.data.length ≤ m.image.bytes.length →
      slice m.image.bytes s.address s.data.length = s.data → Stored s state m 0 m
  | image : s.space = 0 → (h : s.address + s.data.length ≤ m.image.bytes.length) →
      slice m.image.bytes s.address s.data.length ≠ s.data →
      Stored s state m 0 { m with image := m.image.write s.address s.data h, dirty := true }
  | speaker (speaker : Bytes 10) : s.space ≠ 0 → Stored s state m 0 { m with speaker }
  | camera (camera : Bytes 52) : s.space ≠ 0 → Stored s state m 0 { m with camera }
  | select (mode : UInt8) : s.space = 1 ∨ s.space = 2 → m.motionPlusSelected state s.slave = true →
      s.offset = 0xfe → s.data = [mode] → mode = 4 ∨ mode = 5 ∨ mode = 7 →
      Stored s state m 0 { m with mpMode := some mode, mpTurn := false }
  | deactivate : s.space = 1 ∨ s.space = 2 → m.motionPlusSelected state s.slave = true →
      (∃ mode, s.offset = 0xfe ∧ s.data = [mode] ∧ ¬(mode = 4 ∨ mode = 5 ∨ mode = 7)) ∨
        (s.offset = 0xf0 ∧ s.data = [0x55]) →
      Stored s state m 0 (Memory.deactivateMotionPlus s.slave m)
  | ready (mpInitialized : Bool × Bool) : s.space ≠ 0 → Stored s state m 0 { m with mpInitialized }
  | initialized (initialized : Bool × Bool) : s.space ≠ 0 → Stored s state m 0 { m with initialized }

variable {s : Store}

/-- A call on the memory that returns what a write can do. -/
def Stores (s : Store) (state : WiiRemoteState) (m : Memory) (r : Outcome ε UInt8 × Memory) : Prop :=
  ∃ code m', r = (.ok code, m') ∧ Stored s state m code m'

theorem writeEeprom_stores (h : s.space = 0) :
    Stores s state m (Memory.writeEeprom s.address s.data m : Outcome ε UInt8 × Memory) := by
  unfold Memory.writeEeprom
  split
  · next hfits =>
    split
    · next hother => exact ⟨_, _, rfl, .image h hfits hother⟩
    · next hsame => exact ⟨_, _, rfl, .same h hfits (not_not.mp hsame)⟩
  · next hfits =>
    exact ⟨_, _, rfl, .refused (fun _ => Nat.lt_of_not_le hfits) (by decide)⟩

theorem writeSpeaker_stores (h : s.space ≠ 0) :
    Stores s state m (Memory.writeSpeaker s.address s.data m : Outcome ε UInt8 × Memory) := by
  unfold Memory.writeSpeaker
  split
  · exact ⟨_, _, rfl, .speaker _ h⟩
  · exact ⟨_, _, rfl, .refused (fun h0 => absurd h0 h) (by decide)⟩

theorem writeCamera_stores (h : s.space ≠ 0) :
    Stores s state m (Memory.writeCamera s.offset s.data m : Outcome ε UInt8 × Memory) := by
  unfold Memory.writeCamera
  by_cases haccepts : Memory.cameraAccepts s.offset s.data.length = true
  · rw [if_pos haccepts, dif_pos (cameraAccepts_fits haccepts)]
    exact ⟨_, _, rfl, .camera _ h⟩
  · rw [if_neg haccepts]
    exact ⟨_, _, rfl, .refused (fun h0 => absurd h0 h) (by decide)⟩

theorem writeMotionPlus_stores (h : s.space = 1 ∨ s.space = 2)
    (hselected : m.motionPlusSelected state s.slave = true) : Stores s state m
      (Memory.writeMotionPlus s.slave s.offset s.data m : Outcome ε UInt8 × Memory) := by
  have hspace : s.space ≠ 0 := by
    rcases h with h | h
    · simp [h]
    · simp [h]
  unfold Memory.writeMotionPlus
  by_cases hselect : s.offset = 0xfe ∧ s.data.length = 1
  · obtain ⟨mode, hdata⟩ := List.length_eq_one_iff.mp hselect.2
    rw [if_pos hselect, hdata]
    simp only [List.cons.injEq, and_true]
    by_cases hknown : mode = 4 ∨ mode = 5 ∨ mode = 7
    · rw [if_pos hknown]
      exact ⟨_, _, rfl, .select mode h hselected hselect.1 hdata hknown⟩
    · rw [if_neg hknown]
      exact ⟨_, _, rfl, .deactivate h hselected (.inl ⟨mode, hselect.1, hdata, hknown⟩)⟩
  · rw [if_neg hselect]
    by_cases hreset : s.offset = 0xf0 ∧ s.data = [0x55]
    · rw [if_pos hreset]
      exact ⟨_, _, rfl, .deactivate h hselected (.inr hreset)⟩
    · rw [if_neg hreset]
      split
      · exact ⟨_, _, rfl, .ready _ hspace⟩
      · exact ⟨_, _, rfl, .refused (fun h0 => absurd h0 hspace) (by decide)⟩

theorem writeExtension_stores (h : s.space ≠ 0) :
    Stores s state m (Memory.writeExtension s.offset s.data m : Outcome ε UInt8 × Memory) := by
  unfold Memory.writeExtension
  split
  · exact ⟨_, _, rfl, .initialized _ h⟩
  · split
    · exact ⟨_, _, rfl, .initialized _ h⟩
    · exact ⟨_, _, rfl, .refused (fun h0 => absurd h0 h) (by decide)⟩

theorem Store.run_stores (s : Store) (state : WiiRemoteState) (m : Memory) :
    Stores s state m (s.run state m : Outcome ε UInt8 × Memory) := by
  unfold Store.run
  split
  · next hspace => exact writeEeprom_stores hspace
  · next hspace =>
    have hrefused {code : UInt8} (hcode : code ≠ 0) :
        Stores s state m ((.ok code, m) : Outcome ε UInt8 × Memory) :=
      ⟨_, _, rfl, .refused (fun h0 => absurd h0 hspace) hcode⟩
    split
    · exact hrefused (by decide)
    · next hknown =>
      split
      · exact hrefused (by decide)
      · split
        · exact writeSpeaker_stores hspace
        · split
          · exact writeCamera_stores hspace
          · split
            · next hselected => exact writeMotionPlus_stores (not_not.mp hknown) hselected
            · split
              · exact hrefused (by decide)
              · exact writeExtension_stores hspace

end Writes

section Host

variable {w : Wii} {report : Report} {now : ℕ} {id : UInt8} {p : List UInt8} {both : Bool}

/-- A host's write of more than sixteen bytes, where a MotionPlus could be activated. -/
structure Overreaching (w : Wii) (report : Report) : Prop where
  hears : w.active = true ∧ w.valid = true
  write : report.kind = .output ∧ report.id = some 0x16 ∧ report.payload.length = 21
  attached : w.memory.mpMode = none ∧ w.memory.options.motionplusActivationReattachStatus = true ∧
    w.memory.present w.state = true
  long : 16 < (report.payload.getD 4 0).toNat

theorem deactivates_yields (h : id = 0x16 → p.length = 21) :
    (deactivates w id p).Yields (fun _ => True) (fun _ => True) False := by
  unfold deactivates
  split
  · next hid =>
    have hlength := h hid.1
    rw [index_eq (by omega), index_eq (by omega), index_eq (by omega), index_eq (by omega),
      index_eq (by omega)]
    exact trivial
  · exact trivial

theorem reattaches_yields (h : id = 0x16 → p.length = 21)
    (hshort : id = 0x16 → w.memory.mpMode = none →
      w.memory.options.motionplusActivationReattachStatus = true →
      w.memory.present w.state = true → (p.getD 4 0).toNat ≤ 16) :
    (reattaches w id p).Yields (fun _ => True) (fun _ => True) False := by
  unfold reattaches
  split
  · next hid =>
    obtain ⟨hid, hnone, hoption, hpresent⟩ := hid
    have hsize := hshort hid (Option.isNone_iff_eq_none.mp hnone) hoption hpresent
    rw [write_eq (h hid) hsize]
    obtain ⟨code, m', hrun, _⟩ := (Store.of p).run_stores w.state w.memory (ε := ReplyError)
    rw [hrun]
    exact trivial
  · exact trivial

theorem payloadSize_eq {n : ℕ} (h : payloadSize id = some n) : 1 ≤ n ∧ (id = 0x12 → n = 2) ∧
    (id = 0x16 → n = 21) ∧ (id = 0x17 → n = 6) := by
  unfold payloadSize at h
  split at h
  · next hid =>
    cases h
    refine ⟨Nat.le_refl _, ?_, ?_, ?_⟩
    · rintro rfl
      revert hid
      decide
    · rintro rfl
      revert hid
      decide
    · rintro rfl
      revert hid
      decide
  · split at h
    · next hid =>
      cases h
      subst hid
      decide
    · split at h
      · next hid =>
        cases h
        refine ⟨by decide, ?_, fun _ => rfl, ?_⟩
        · rintro rfl
          revert hid
          decide
        · rintro rfl
          revert hid
          decide
      · split at h
        · next hid =>
          cases h
          subst hid
          decide
        · cases h

theorem setBit_calm (h : 1 ≤ p.length) (mask : UInt8) (set : Bool → Wii → Wii) (w : Wii) :
    setBit p mask set w = (.ok (), set (p.getD 0 0 &&& mask ≠ 0) w) := by
  unfold setBit
  rw [index_eq h, lift_ok_bind_run]
  rfl

/-- The read that a host asks for. -/
def requested (p : List UInt8) : Option Read :=
  if be16 (p.getD 4 0) (p.getD 5 0) = 0 then none
  else
    some {
      space := ((p.getD 0 0) >>> 2) &&& 3
      slave := (p.getD 1 0) >>> 1
      address := be16 (p.getD 2 0) (p.getD 3 0)
      remaining := be16 (p.getD 4 0) (p.getD 5 0) }

theorem readNew_eq {ε : Type} (h : p.length = 6) :
    (Read.new p : Outcome ε (Option Read)) = .ok (requested p) := by
  unfold Read.new requested
  rw [index_eq (by omega), index_eq (by omega), index_eq (by omega), index_eq (by omega),
    index_eq (by omega), index_eq (by omega)]
  simp only [ok_bind]
  split
  · rfl
  · rfl

theorem requested_nonzero {r : Read} (h : requested p = some r) : r.remaining ≠ 0 := by
  unfold requested at h
  split at h
  · cases h
  · next hnonzero =>
    cases h
    exact hnonzero

/-- The statuses of an accessory that has changed its mode. -/
def edges (both : Bool) (w : Wii) : Wii := push status (if both then push unplugged w else w)

/-- What one host report does, before the whole personality is checked. -/
inductive Handled (p : List UInt8) (both : Bool) (w : Wii) : UInt8 → Wii → Prop where
  | audio {id : UInt8} : id = 0x10 ∨ id = 0x18 → Handled p both w id w
  | leds (leds : Vector Bool 4) :
      Handled p both w 0x11 { w with outputs := { w.outputs with leds } }
  | mode {report : Report} : p.getD 1 0 ∈ modes.map Prod.fst →
      data (p.getD 1 0) w.state w.irEnabled.1 = .ok report →
      Handled p both w 0x12 { w with mode := p.getD 1 0, reporting := .running }
  | camera : Handled p both w 0x13
      { w with irEnabled := (decide (p.getD 0 0 &&& 4 ≠ 0), w.irEnabled.2) }
  | cameraLogic (on : Bool) : Handled p both w 0x1a { w with irEnabled := (w.irEnabled.1, on) }
  | speaker (id : UInt8) (speaker : SpeakerControl) : id = 0x14 ∨ id = 0x19 →
      Handled p both w id { w with speaker }
  | status (rumble : Bool) :
      Handled p both w 0x15 (push status { w with outputs := { w.outputs with rumble } })
  | write {code : UInt8} {memory : Memory} : (p.getD 4 0).toNat ≠ 0 → (p.getD 4 0).toNat ≤ 16 →
      Stored (Store.of p) w.state w.memory code memory → memory.mpMode = w.memory.mpMode →
      Handled p both w 0x16 (push (ack · 0x16 code) { w with memory })
  | switched {code : UInt8} {memory : Memory} : (p.getD 4 0).toNat ≠ 0 → (p.getD 4 0).toNat ≤ 16 →
      (Store.of p).run w.state w.memory = ((.ok code : Outcome ReplyError UInt8), memory) →
      Stored (Store.of p) w.state w.memory code memory → memory.mpMode ≠ w.memory.mpMode →
      Handled p both w 0x16
        (edges both { push (ack · 0x16 code) { w with memory } with reporting := .awaitingMode })
  | busy : w.read.isSome = true → Handled p both w 0x17 (push (ack · 0x17 4) w)
  | read : w.read = none → Handled p both w 0x17 { w with read := requested p }

theorem selectMode_spec (h : p.length = 2) : Meets (selectMode p w)
    (fun _ w' => Handled p both w 0x12 w') (fun _ _ => True) False := by
  unfold selectMode
  rw [index_eq (by omega), lift_ok_bind_run, ite_run]
  by_cases hmode : ¬modes.any (·.1 = p.getD 1 0) = true
  · rw [if_pos hmode]
    exact trivial
  · rw [if_neg hmode, get_bind_run]
    have hmem : p.getD 1 0 ∈ modes.map Prod.fst := by
      obtain ⟨entry, hentry, heq⟩ := List.any_eq_true.mp (not_not.mp hmode)
      exact List.mem_map.mpr ⟨entry, hentry, of_decide_eq_true heq⟩
    have hdata := data_yields (p.getD 1 0) w.state w.irEnabled.1
    cases hrun : data (p.getD 1 0) w.state w.irEnabled.1 with
    | ok report => exact .mode hmem hrun
    | error e => exact trivial
    | panicked =>
      rw [hrun] at hdata
      exact hdata

theorem writeMemory_spec (h : p.length = 21) : Meets (writeMemory p both w)
    (fun _ w' => Handled p both w 0x16 w') (fun _ _ => True) False := by
  unfold writeMemory
  rw [index_eq (by omega), lift_ok_bind_run, ite_run]
  by_cases hsize : p.getD 4 0 = 0 ∨ 16 < p.getD 4 0
  · rw [if_pos hsize]
    exact trivial
  · rw [if_neg hsize, get_bind_run]
    obtain ⟨hzero, hlong⟩ := not_or.mp hsize
    have hnonzero : (p.getD 4 0).toNat ≠ 0 := fun h => hzero (UInt8.toNat_inj.mp h)
    have hshort : (p.getD 4 0).toNat ≤ 16 := Nat.le_of_not_lt fun h => hlong (UInt8.lt_iff_toNat_lt.mpr h)
    obtain ⟨code, memory, hrun, hstored⟩ := (Store.of p).run_stores w.state w.memory (ε := ReplyError)
    have hmemory : onMemory (Memory.write w.state p) w =
        ((.ok code : Outcome ReplyError UInt8), { w with memory }) := by
      unfold onMemory Action.zoom
      rw [write_eq h hshort, hrun]
    rw [bind_run_ok hmemory, modify_bind_run, get_bind_run]
    by_cases hmode : memory.mpMode = w.memory.mpMode
    · have hsame : ¬w.memory.mpMode ≠ (push (ack · 0x16 code) { w with memory }).memory.mpMode :=
        not_not.mpr hmode.symm
      rw [if_neg hsame]
      exact .write hnonzero hshort hstored hmode
    · have hother : w.memory.mpMode ≠ (push (ack · 0x16 code) { w with memory }).memory.mpMode :=
        fun h => hmode h.symm
      rw [if_pos hother]
      have hswitched : Handled p both w 0x16
          (edges both { push (ack · 0x16 code) { w with memory } with reporting := .awaitingMode }) :=
        .switched hnonzero hshort hrun hstored hmode
      cases both with
      | true => exact hswitched
      | false => exact hswitched

theorem startRead_spec (h : p.length = 6) : Meets (startRead p w)
    (fun _ w' => Handled p both w 0x17 w') (fun _ _ => True) False := by
  unfold startRead
  rw [get_bind_run, ite_run]
  by_cases hbusy : w.read.isSome = true
  · rw [if_pos hbusy]
    exact .busy hbusy
  · rw [if_neg hbusy]
    have hnone : w.read = none := by simpa using hbusy
    rw [readNew_eq h]
    exact .read hnone

theorem dispatch_spec (h : payloadSize id = some p.length) : Meets (dispatch id p both w)
    (fun _ w' => Handled p both w id w') (fun _ _ => True) False := by
  obtain ⟨hone, hmode, hwrite, hread⟩ := payloadSize_eq h
  unfold dispatch
  by_cases hid : id = 0x11
  · rw [if_pos hid, index_eq hone, lift_ok_bind_run, hid]
    exact .leds _
  rw [if_neg hid]
  by_cases hid : id = 0x12
  · rw [if_pos hid, hid]
    exact selectMode_spec (hmode hid)
  rw [if_neg hid]
  by_cases hid : id = 0x13
  · rw [if_pos hid, setBit_calm hone, hid]
    exact .camera
  rw [if_neg hid]
  by_cases hid : id = 0x14
  · rw [if_pos hid, setBit_calm hone, hid]
    exact .speaker _ _ (.inl rfl)
  rw [if_neg hid]
  by_cases hid : id = 0x19
  · rw [if_pos hid, setBit_calm hone, hid]
    exact .speaker _ _ (.inr rfl)
  rw [if_neg hid]
  by_cases hid : id = 0x1a
  · rw [if_pos hid, setBit_calm hone, hid]
    exact .cameraLogic _
  rw [if_neg hid]
  by_cases hid : id = 0x15
  · rw [if_pos hid, bind_run_ok (setBit_calm hone _ _ _), hid]
    exact .status _
  rw [if_neg hid]
  by_cases hid : id = 0x16
  · rw [if_pos hid, hid]
    exact writeMemory_spec (hwrite hid)
  rw [if_neg hid]
  by_cases hid : id = 0x17
  · rw [if_pos hid, hid]
    exact startRead_spec (hread hid)
  rw [if_neg hid]
  refine .audio ?_
  by_contra hother
  obtain ⟨h10, h18⟩ := not_or.mp hother
  simp only [payloadSize, *, or_self, if_false, reduceCtorEq] at h

/-- The personality with the rumble of a report, and a revision that counts what changed. -/
structure Revised (before : WiiRemoteOutputs) (w w' : Wii) : Prop where
  changed : w.outputs.leds ≠ before.leds ∨ w.outputs.rumble ≠ before.rumble →
    before.revision < u64Max ∧
      w' = { w with outputs := { w.outputs with revision := before.revision + 1 } }
  same : w.outputs.leds = before.leds → w.outputs.rumble = before.rumble → w' = w

/-- What closes the handling of a report. -/
structure Finished (id : UInt8) (p : List UInt8) (before : WiiRemoteOutputs) (now : ℕ) (w w' : Wii) :
    Prop where
  encodable : ∃ report, data w.mode w.state w.irEnabled.1 = .ok report
  settled : ∃ w₁, Revised before
      { w with outputs := { w.outputs with rumble := p.getD 0 0 &&& 1 ≠ 0 } } w₁ ∧
    w' = { (if acknowledges id = true ∧ p.getD 0 0 &&& 2 ≠ 0 then push (ack · id 0) w₁ else w₁) with
      next := some now }

theorem finish_spec (h : 1 ≤ p.length) (before : WiiRemoteOutputs) (now : ℕ) (w : Wii) :
    Meets (finish id p before now w) (fun _ w' => Finished id p before now w w') (fun _ _ => True)
      False := by
  unfold finish
  rw [get_bind_run]
  have hdata := data_yields w.mode w.state w.irEnabled.1
  cases hrun : data w.mode w.state w.irEnabled.1 with
  | error e => exact trivial
  | panicked =>
    rw [hrun] at hdata
    exact hdata
  | ok report =>
    change Meets ((setBit p 1 _ >>= _) w) _ _ _
    rw [bind_run_ok (setBit_calm h _ _ _), get_bind_run, index_eq h]
    generalize hw : ({ w with outputs := { w.outputs with rumble := p.getD 0 0 &&& 1 ≠ 0 } } : Wii) = w₀
    have hrest : ∀ w₁, Revised before w₀ w₁ → Meets ((do
          let b ← lift (.ok (p.getD 0 0))
          if acknowledges id = true ∧ b &&& 2 ≠ 0 then modify (push (ack · id 0))
          modify fun w => { w with next := some now } : Panicking.Action ReplyError Wii Unit) w₁)
        (fun _ w' => Finished id p before now w w') (fun _ _ => True) False := by
      intro w₁ hrevised
      rw [lift_ok_bind_run]
      have hfinished : Finished id p before now w
          { (if acknowledges id = true ∧ p.getD 0 0 &&& 2 ≠ 0 then push (ack · id 0) w₁ else w₁) with
            next := some now } := ⟨⟨report, hrun⟩, w₁, hw ▸ hrevised, rfl⟩
      by_cases hack : acknowledges id = true ∧ p.getD 0 0 &&& 2 ≠ 0
      · rw [if_pos hack] at hfinished ⊢
        exact hfinished
      · rw [if_neg hack] at hfinished ⊢
        exact hfinished
    by_cases hchanged : w₀.outputs.leds ≠ before.leds ∨ w₀.outputs.rumble ≠ before.rumble
    · rw [if_pos hchanged]
      cases hadd : checkedAdd before.revision 1 with
      | none => exact trivial
      | some revision =>
        obtain ⟨rfl, hmax⟩ := checkedAdd_eq_some.mp hadd
        refine hrest _ ⟨fun _ => ⟨hmax, rfl⟩, ?_⟩
        intro hleds hrumble
        rcases hchanged with h | h
        · exact absurd hleds h
        · exact absurd hrumble h
    · rw [if_neg hchanged]
      refine hrest w₀ ⟨fun h => absurd h hchanged, fun _ _ => rfl⟩

/-- The replies that are kept room for. -/
def replies (id : UInt8) (both : Bool) : ℕ := if both then 3 else if id = 0x16 then 2 else 1

/-- What a report has to pass before it is handled. -/
structure Admitted (w : Wii) (report : Report) (id : UInt8) (both : Bool) : Prop where
  hears : w.active = true ∧ w.valid = true
  kind_eq : report.kind = .output
  id_eq : report.id = some id
  size_eq : payloadSize id = some report.payload.length
  both_eq : ∃ d r, deactivates w id report.payload = .ok d ∧
    reattaches w id report.payload = .ok r ∧ both = (d || r)
  room : w.pending.length + replies id both ≤ maxPending

/-- Everything that an accepted report does. -/
def Accepted (report : Report) (now : ℕ) (w w' : Wii) : Prop :=
  ∃ id both w₁, Admitted w report id both ∧ Handled report.payload both w id w₁ ∧
    Finished id report.payload w.outputs now w₁ w'

theorem acceptInner_spec (h : ¬Overreaching w report) : Meets (acceptInner report now w)
    (fun _ w' => Accepted report now w w') (fun _ _ => True) False := by
  unfold acceptInner
  rw [get_bind_run, ite_run]
  by_cases hdeaf : (!w.active || !w.valid) = true
  · rw [if_pos hdeaf]
    exact trivial
  rw [if_neg hdeaf, ite_run]
  have hhears : w.active = true ∧ w.valid = true := by simpa using hdeaf
  by_cases hkind : report.kind ≠ .output
  · rw [if_pos hkind]
    exact trivial
  rw [if_neg hkind]
  cases hid : report.id with
  | none => exact trivial
  | some id =>
    dsimp only
    cases hsize : payloadSize id with
    | none => exact trivial
    | some size =>
      dsimp only
      rw [ite_run]
      by_cases hlength : report.payload.length ≠ size
      · rw [if_pos hlength]
        exact trivial
      rw [if_neg hlength]
      have hpayload : report.payload.length = size := not_not.mp hlength
      obtain ⟨hone, _, hwrite, _⟩ := payloadSize_eq hsize
      have hlong : id = 0x16 → report.payload.length = 21 := fun h => hpayload.trans (hwrite h)
      have hdeactivates := deactivates_yields (w := w) hlong
      have hreattaches : (reattaches w id report.payload).Yields (fun _ => True) (fun _ => True)
          False := by
        refine reattaches_yields hlong fun h₁ hnone hoption hpresent => Nat.le_of_not_lt fun hover => ?_
        exact h ⟨hhears, ⟨not_not.mp hkind, hid.trans (congrArg some h₁), hlong h₁⟩,
          ⟨hnone, hoption, hpresent⟩, hover⟩
      cases hd : deactivates w id report.payload with
      | error e => exact trivial
      | panicked =>
        rw [hd] at hdeactivates
        exact hdeactivates.elim
      | ok d =>
        rw [lift_ok_bind_run]
        cases hr : reattaches w id report.payload with
        | error e => exact trivial
        | panicked =>
          rw [hr] at hreattaches
          exact hreattaches.elim
        | ok r =>
          rw [lift_ok_bind_run, ite_run]
          change Meets (if maxPending < w.pending.length + replies id (d || r) then _ else _) _ _ _
          by_cases hroom : maxPending < w.pending.length + replies id (d || r)
          · rw [if_pos hroom]
            exact trivial
          rw [if_neg hroom]
          have hadmitted : Admitted w report id (d || r) :=
            ⟨hhears, not_not.mp hkind, hid, hsize.trans (congrArg some hpayload.symm),
              ⟨d, r, hd, hr, rfl⟩, Nat.le_of_not_lt hroom⟩
          refine meets_bind ((dispatch_spec hadmitted.size_eq).mono (fun _ _ hq => hq)
            (fun _ _ he => he) fun hp => hp) ?_
          intro _ w₁ hhandled
          refine (finish_spec (hone.trans_eq hpayload.symm) w.outputs now w₁).mono ?_
            (fun _ _ he => he) fun hp => hp
          intro _ w₂ hfinished
          exact ⟨id, _, w₁, hadmitted, hhandled, hfinished⟩

theorem accept_error {e : ReplyError} (h : (accept report now w).1 = .error e) :
    (accept report now w).2 = w := by
  unfold accept at h ⊢
  rcases hrun : acceptInner report now w with ⟨_ | _ | _, w'⟩
  · rw [hrun] at h
    cases h
  · rfl
  · rfl

theorem accept_ok {w' : Wii} (h : accept report now w = (.ok (), w')) :
    acceptInner report now w = (.ok (), w') := by
  unfold accept at h
  rcases hrun : acceptInner report now w with ⟨_ | _ | _, w₁⟩
  · rw [hrun] at h
    exact h
  · rw [hrun] at h
    cases (Prod.mk.inj h).1
  · rw [hrun] at h
    cases (Prod.mk.inj h).1

/-- The write is tried on a copy of the memory before its size is checked. -/
theorem accept_overreaching (h : Overreaching w report) :
    (accept report now w).1 = .panicked := by
  obtain ⟨hhears, ⟨hkind, hid, hlength⟩, ⟨hnone, hoption, hpresent⟩, hlong⟩ := h
  have hsize : payloadSize 0x16 = some report.payload.length := by
    rw [hlength]
    decide
  have hdeaf : ¬(!w.active || !w.valid) = true := by
    rw [hhears.1, hhears.2]
    decide
  have hdeactivates : deactivates w 0x16 report.payload = .ok false := by
    unfold deactivates
    rw [hnone]
    rfl
  have hreattaches : reattaches w 0x16 report.payload = .panicked := by
    unfold reattaches
    rw [if_pos ⟨rfl, Option.isNone_iff_eq_none.mpr hnone, hoption, hpresent⟩,
      write_panics hlength hlong]
  have hinner : (acceptInner report now w).1 = .panicked := by
    unfold acceptInner
    rw [get_bind_run, ite_run, if_neg hdeaf, ite_run, if_neg (not_not.mpr hkind), hid]
    dsimp only
    rw [hsize]
    dsimp only
    rw [ite_run, if_neg (not_not.mpr rfl), hdeactivates, lift_ok_bind_run, hreattaches,
      lift_panicked_bind_run]
  unfold accept
  rcases hrun : acceptInner report now w with ⟨_ | _ | _, w'⟩
  · rw [hrun] at hinner
    cases hinner
  · rw [hrun] at hinner
    cases hinner
  · rfl

/-- A host report is taken or refused, and a refused one changes nothing. -/
structure Handles (w : Wii) (report : Report) (now : ℕ) : Prop where
  answered : (accept report now w).1 ≠ .panicked
  unchanged : ∀ e, (accept report now w).1 = .error e → (accept report now w).2 = w

theorem handles_iff (w : Wii) (report : Report) (now : ℕ) :
    Handles w report now ↔ ¬Overreaching w report := by
  constructor
  · intro h hover
    exact h.answered (accept_overreaching hover)
  · intro hover
    refine ⟨?_, fun e he => accept_error he⟩
    intro hpanicked
    have hspec : Meets (acceptInner report now w) (fun _ w' => Accepted report now w w')
        (fun _ _ => True) False := acceptInner_spec hover
    unfold accept at hpanicked
    rcases hrun : acceptInner report now w with ⟨_ | _ | _, w'⟩
    · rw [hrun] at hpanicked
      cases hpanicked
    · rw [hrun] at hpanicked
      cases hpanicked
    · rw [hrun] at hspec
      exact hspec

/-- Seventeen bytes for the EEPROM, announced to a Wii Remote with a Nunchuk. -/
def longWrite : Report := ⟨.output, some 0x16, [0, 0, 0, 0, 17] ++ List.replicate 16 0, by decide⟩

def plugged : Wii :=
  (changeAttachment (.nunchuk .default) false 0 (WiiRuns.hidProtocol .original .default .default)).2

theorem not_handles_longWrite : ¬∀ w, WiiRuns.Reachable w → ∀ report now, report.kind = .output →
    Handles w report now := by
  intro h
  have hreachable : WiiRuns.Reachable plugged := by
    refine ⟨.original, .default, .default, [.changeAttachment (.nunchuk .default) false 0 (.ok ())],
      rfl, ?_⟩
    exact Runs.run_singleton.mpr (Prod.ext (by decide +kernel) rfl)
  have hpresent : plugged.memory.present plugged.state = true := by decide +kernel
  have hhears : plugged.active = true ∧ plugged.valid = true := by decide +kernel
  have hattached : plugged.memory.mpMode = none ∧
      plugged.memory.options.motionplusActivationReattachStatus = true := by decide +kernel
  refine (handles_iff plugged longWrite 0).mp (h plugged hreachable longWrite 0 rfl) ?_
  exact ⟨hhears, ⟨rfl, rfl, rfl⟩, ⟨hattached.1, hattached.2, hpresent⟩, by decide⟩

end Host

end WiiSafety
