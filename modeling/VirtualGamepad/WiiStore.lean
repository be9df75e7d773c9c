import VirtualGamepad.ByteStore
import VirtualGamepad.WiiReplies

/-! The memory of a Wii Remote over a whole conversation. The EEPROM takes the accepted writes one after
the other, and a read is answered in chunks of sixteen bytes, whatever happens between them. -/
namespace WiiStore

open ByteStore
open HidRuntime (Report Error ReplyError)
open Panicking Runs WireBytes WiiRemote WiiReports WiiMemory WiiProtocol WiiSafety WiiInput WiiReplies
open WiiRuns

section Writes

variable {w w₁ w' : Wii} {p : List UInt8} {id : UInt8} {both : Bool} {report : Report} {now : ℕ}

def eeprom (m : Memory) : Image := ⟨m.image.bytes, m.dirty⟩

/-- The write that a host report carries to the EEPROM. -/
def carried (p : List UInt8) : Option Write :=
  if (Store.of p).space = 0 then some ⟨(Store.of p).address, (Store.of p).data⟩ else none

/-- The write to the EEPROM that a call accepts. -/
def written : Call → Option Write
  | .accept report _ (.ok ()) => if report.id = some 0x16 then carried report.payload else none
  | _ => none

theorem written_accept : written (.accept report now (.ok ())) =
    if report.id = some 0x16 then carried report.payload else none := rfl

theorem overlay_eq_self {xs ys : List UInt8} {offset : ℕ} (h : offset + ys.length ≤ xs.length) :
    overlay xs offset ys = xs ↔ slice xs offset ys.length = ys := by
  constructor
  · intro heq
    rw [← heq]
    exact slice_overlay_self ys (by omega)
  · intro heq
    unfold overlay
    rw [← heq, length_slice h, ← drop_slice, List.take_append_drop]

/-- What a stored write leaves of the EEPROM. -/
structure Keeps (s : Store) (m : Memory) (code : UInt8) (m' : Memory) : Prop where
  image : eeprom m' =
    if s.space = 0 then (eeprom m).put ⟨s.address, s.data⟩ else eeprom m
  calibration : m'.image.calibration = m.image.calibration
  options : m'.options = m.options
  code_eq : s.space = 0 → (code = 0 ↔ (eeprom m).Holds ⟨s.address, s.data⟩)

theorem Keeps.other {s : Store} {m m' : Memory} {code : UInt8} (h : s.space ≠ 0)
    (himage : m'.image = m.image) (hdirty : m'.dirty = m.dirty) (hoptions : m'.options = m.options) :
    Keeps s m code m' := by
  refine ⟨?_, congrArg _ himage, hoptions, fun hspace => absurd hspace h⟩
  rw [if_neg h]
  unfold eeprom
  rw [himage, hdirty]

theorem stored_keeps {s : Store} {state : WiiRemoteState} {m m' : Memory} {code : UInt8}
    (h : Stored s state m code m') : Keeps s m code m' := by
  cases h with
  | refused hrange hcode =>
    refine ⟨?_, rfl, rfl, fun hspace => ?_⟩
    · split
      · next hspace =>
        have hout : ¬(eeprom m).Holds ⟨s.address, s.data⟩ := Nat.not_le_of_lt (hrange hspace)
        exact (if_neg hout).symm
      · rfl
    · have hout : ¬(eeprom m).Holds ⟨s.address, s.data⟩ := Nat.not_le_of_lt (hrange hspace)
      exact iff_of_false hcode hout
  | same hspace hfits hsame =>
    have hholds : (eeprom m).Holds ⟨s.address, s.data⟩ := hfits
    refine ⟨?_, rfl, rfl, fun _ => iff_of_true rfl hholds⟩
    rw [if_pos hspace]
    unfold Image.put
    rw [if_pos hholds]
    have hself : overlay (eeprom m).bytes s.address s.data = (eeprom m).bytes :=
      (overlay_eq_self hfits).mpr hsame
    rw [hself]
    simp
  | image hspace hfits hother =>
    have hholds : (eeprom m).Holds ⟨s.address, s.data⟩ := hfits
    refine ⟨?_, rfl, rfl, fun _ => iff_of_true rfl hholds⟩
    rw [if_pos hspace]
    unfold Image.put
    rw [if_pos hholds]
    have hchange : overlay (eeprom m).bytes s.address s.data ≠ (eeprom m).bytes :=
      fun heq => hother ((overlay_eq_self hfits).mp heq)
    rw [decide_eq_true hchange, Bool.or_true]
    rfl
  | speaker _ hspace => exact .other hspace rfl rfl rfl
  | camera _ hspace => exact .other hspace rfl rfl rfl
  | select mode hspace =>
    refine .other ?_ rfl rfl rfl
    rcases hspace with hspace | hspace
    · simp [hspace]
    · simp [hspace]
  | deactivate hspace =>
    have hother : s.space ≠ 0 := by
      rcases hspace with hspace | hspace
      · simp [hspace]
      · simp [hspace]
    unfold Memory.deactivateMotionPlus
    dsimp only
    split
    · exact .other hother rfl rfl rfl
    · exact .other hother rfl rfl rfl
  | ready _ hspace => exact .other hspace rfl rfl rfl
  | initialized _ hspace => exact .other hspace rfl rfl rfl

theorem edges_memory (both : Bool) (w : Wii) : (edges both w).memory = w.memory := by
  cases both with
  | true => rfl
  | false => rfl

/-- A host report touches the memory by a write alone. -/
theorem handled_memory (h : Handled p both w id w₁) :
    (id ≠ 0x16 ∧ w₁.memory = w.memory) ∨
      (id = 0x16 ∧ ∃ code, Keeps (Store.of p) w.memory code w₁.memory) := by
  cases h with
  | write _ _ hstored => exact .inr ⟨rfl, _, stored_keeps hstored⟩
  | switched _ _ _ hstored =>
    rw [edges_memory]
    exact .inr ⟨rfl, _, stored_keeps hstored⟩
  | audio hid =>
    refine .inl ⟨?_, rfl⟩
    rcases hid with rfl | rfl
    · decide
    · decide
  | speaker _ _ hid =>
    refine .inl ⟨?_, rfl⟩
    rcases hid with rfl | rfl
    · decide
    · decide
  | _ => exact .inl ⟨by decide, rfl⟩

/-- The memory after a call is the one before with one more write. -/
structure Writes (w : Wii) (call : Call) (w' : Wii) : Prop where
  image : eeprom w'.memory = (written call).toList.foldl Image.put (eeprom w.memory)
  calibration : w'.memory.image.calibration = w.memory.image.calibration
  options : w'.memory.options = w.memory.options

theorem Writes.nothing {call : Call} (hnone : written call = none)
    (himage : eeprom w'.memory = eeprom w.memory)
    (hcalibration : w'.memory.image.calibration = w.memory.image.calibration)
    (hoptions : w'.memory.options = w.memory.options) : Writes w call w' := by
  refine ⟨?_, hcalibration, hoptions⟩
  rw [hnone]
  exact himage

theorem accepted_writes (h : Accepted report now w w') :
    Writes w (.accept report now (.ok ())) w' := by
  obtain ⟨id, both, w₁, hadmitted, hhandled, hfinished⟩ := h
  obtain ⟨outputs, queued, rfl, _⟩ := finished_eq hfinished
  rcases handled_memory hhandled with ⟨hid, hmemory⟩ | ⟨rfl, code, hkeeps⟩
  · have hnone : written (.accept report now (.ok ())) = none := by
      rw [written_accept, hadmitted.id_eq, if_neg fun h => hid (Option.some.inj h)]
    refine .nothing hnone ?_ ?_ ?_
    · exact congrArg eeprom hmemory
    · exact congrArg (fun m => m.image.calibration) hmemory
    · exact congrArg Memory.options hmemory
  · refine ⟨?_, hkeeps.calibration, hkeeps.options⟩
    change eeprom w₁.memory = _
    rw [hkeeps.image, written_accept, hadmitted.id_eq, if_pos rfl]
    unfold carried
    split
    · rfl
    · rfl

/-- An input call takes turns between the accessories and leaves the rest of the memory alone. -/
theorem sent_memory {state : WiiRemoteState} {reports : List Report} (h : Sent w state now reports w') :
    ∃ turn, w'.memory = { w.memory with mpTurn := turn } := by
  cases h with
  | silent => exact ⟨w.memory.mpTurn, rfl⟩
  | batch _ _ hgenerated =>
    cases hgenerated with
    | awaiting => exact ⟨w.memory.mpTurn, rfl⟩
    | data => exact ⟨_, rfl⟩

theorem attached_memory {extension : WiiExtension} {motionPlus : Bool}
    (h : Attached extension motionPlus now w w') : w'.memory = w.memory.resetExtension := by
  cases h with
  | away => rfl
  | seen => exact edges_memory _ _

theorem step_writes {call : Call} (h : Sound w) (hs : WiiRuns.Step w call w') : Writes w call w' := by
  cases call with
  | accept report now result =>
    rcases accept_turn hs with ⟨rfl, haccepted⟩ | ⟨hrefused, rfl⟩
    · exact accepted_writes haccepted
    · have hnone : written (.accept report now result) = none := by
        cases result with
        | ok _ => exact absurd rfl hrefused
        | error _ => rfl
        | panicked => rfl
      exact .nothing hnone rfl rfl rfl
  | input state now result =>
    rcases input_turn h.nonzero hs with ⟨_, _, _, hsent⟩ | ⟨_, _, rfl⟩
    · obtain ⟨turn, hmemory⟩ := sent_memory hsent
      refine .nothing rfl ?_ ?_ ?_
      · rw [hmemory]
        rfl
      · rw [hmemory]
      · rw [hmemory]
    · exact .nothing rfl rfl rfl rfl
  | changeAttachment extension motionPlus now result =>
    rcases attachment_turn hs with ⟨_, hattached⟩ | ⟨_, rfl⟩
    · have hmemory := attached_memory hattached
      refine .nothing rfl ?_ ?_ ?_
      · rw [hmemory]
        rfl
      · rw [hmemory]
        rfl
      · rw [hmemory]
        rfl
    · exact .nothing rfl rfl rfl rfl
  | lifecycle event now =>
    obtain rfl : w' = lifecycle event now w := hs
    cases event with
    | start => exact .nothing rfl rfl rfl rfl
    | stop => exact .nothing rfl rfl rfl rfl
    | «open» => exact .nothing rfl rfl rfl rfl
    | close => exact .nothing rfl rfl rfl rfl

theorem run_writes {log : List Call} (h : Sound w) (hrun : Run WiiRuns.Step w log w') :
    Sound w' ∧ eeprom w'.memory = (log.filterMap written).foldl Image.put (eeprom w.memory) ∧
      w'.memory.image.calibration = w.memory.image.calibration := by
  induction hrun with
  | nil => exact ⟨h, rfl, rfl⟩
  | @snoc log t call u _ hstep ih =>
    obtain ⟨hsound, himage, hcalibration⟩ := ih
    have hwrites := step_writes hsound hstep
    refine ⟨hsound.step hstep, ?_, hwrites.calibration.trans hcalibration⟩
    rw [hwrites.image, himage, List.filterMap_append, List.foldl_append]
    cases hcall : written call with
    | none => simp [hcall]
    | some s => simp [hcall]

/-- A write to the EEPROM is acknowledged, without an error exactly when it lies in the image. -/
theorem handled_acks (h : Handled p both w id w₁) (hid : id = 0x16) (hspace : (Store.of p).space = 0) :
    ∃ v code, w₁.pending = w.pending ++ [ack v 0x16 code] ∧
      (code = 0 ↔ (eeprom w.memory).Holds ⟨(Store.of p).address, (Store.of p).data⟩) := by
  cases h with
  | @write code memory _ _ hstored _ =>
    exact ⟨{ w with memory }, code, rfl, (stored_keeps hstored).code_eq hspace⟩
  | switched _ _ _ hstored hmode =>
    exfalso
    cases hstored with
    | select _ hknown =>
      rw [hspace] at hknown
      exact absurd hknown (by decide)
    | deactivate hknown =>
      rw [hspace] at hknown
      exact absurd hknown (by decide)
    | _ => exact hmode rfl
  | audio hother =>
    subst hid
    exact absurd hother (by decide)
  | speaker _ _ hother =>
    subst hid
    exact absurd hother (by decide)
  | _ => exact absurd hid (by decide)

theorem accepted_acks {s : Write} (h : Accepted report now w w')
    (hwritten : written (.accept report now (.ok ())) = some s) : ∃ v code,
      w'.pending = w.pending ++ [ack v 0x16 code] ∧ (code = 0 ↔ (eeprom w.memory).Holds s) := by
  obtain ⟨id, both, w₁, hadmitted, hhandled, hfinished⟩ := h
  obtain ⟨outputs, queued, rfl, _, _, hqueued⟩ := finished_eq hfinished
  rw [written_accept] at hwritten
  split at hwritten
  · next hid =>
    have hwrite : id = 0x16 := Option.some.inj (hadmitted.id_eq.symm.trans hid)
    have hnothing : queued = [] := by
      rw [hwrite] at hqueued
      exact List.eq_nil_of_length_eq_zero (Nat.le_zero.mp hqueued)
    subst hnothing
    unfold carried at hwritten
    split at hwritten
    · next hspace =>
      cases hwritten
      obtain ⟨v, code, hpending, hcode⟩ := handled_acks hhandled hwrite hspace
      exact ⟨v, code, (List.append_nil _).trans hpending, hcode⟩
    · cases hwritten
  · cases hwritten

/-- What holds of the memory from a state of a personality on. -/
structure StoresBytes (w : Wii) : Prop where
  /-- The image is the first one with the accepted writes that lie in it, in their order. -/
  image : ∀ log w', Run WiiRuns.Step w log w' →
    eeprom w'.memory = (log.filterMap written).foldl Image.put (eeprom w.memory)
  /-- Each byte is the one of the last such write that covers it, or the first image's. -/
  bytes : ∀ log w', Run WiiRuns.Step w log w' → ∀ i,
    w'.memory.image.bytes[i]? = (eeprom w.memory).lastAt (log.filterMap written) i
  /-- The image keeps its length, and the calibration blocks their bytes. -/
  kept : ∀ log w', Run WiiRuns.Step w log w' →
    w'.memory.image.bytes.length = w.memory.image.bytes.length ∧
      w'.memory.image.calibration = w.memory.image.calibration
  /-- The image becomes dirty with the first write that changes a byte. -/
  marked : ∀ log w', Run WiiRuns.Step w log w' → (w'.memory.dirty = true ↔ w.memory.dirty = true ∨
    ∃ earlier s later, log.filterMap written = earlier ++ s :: later ∧
      ((earlier.foldl Image.put (eeprom w.memory)).put s).bytes ≠
        (earlier.foldl Image.put (eeprom w.memory)).bytes)
  /-- A write is acknowledged without an error exactly when it lies in the image. -/
  acknowledged : ∀ report now s w', WiiRuns.Step w (.accept report now (.ok ())) w' →
    written (.accept report now (.ok ())) = some s → ∃ v code,
      w'.pending = w.pending ++ [ack v 0x16 code] ∧ (code = 0 ↔ (eeprom w.memory).Holds s)

theorem stores_bytes {w : Wii} (h : Reachable w) : StoresBytes w := by
  have hsound := reachable_sound h
  have hrun {log : List Call} {w' : Wii} (hr : Run WiiRuns.Step w log w') :=
    (run_writes hsound hr).2
  constructor
  · intro log w' hr
    exact (hrun hr).1
  · intro log w' hr i
    change (eeprom w'.memory).bytes[i]? = _
    rw [(hrun hr).1, Image.getElem?_puts]
  · intro log w' hr
    refine ⟨?_, (hrun hr).2⟩
    change (eeprom w'.memory).bytes.length = _
    rw [(hrun hr).1, Image.length_puts]
    rfl
  · intro log w' hr
    change (eeprom w'.memory).dirty = true ↔ _
    rw [(hrun hr).1, Image.dirty_puts]
    rfl
  · intro report now s w' hs hwritten
    rcases accept_turn hs with ⟨_, haccepted⟩ | ⟨hrefused, _⟩
    · exact accepted_acks haccepted hwritten
    · exact absurd rfl hrefused

theorem stores_bytes_new : StoresBytes (hidProtocol .original .default .default) :=
  stores_bytes ⟨.original, .default, .default, [], rfl, .nil⟩

end Writes

end WiiStore
