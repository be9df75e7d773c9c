import VirtualGamepad.WiiSafety

/-! What an input call of the Wii Remote personality sends: the queued replies, a chunk of the read in
progress, and a data report. -/
namespace WiiInput

open HidRuntime (Report Error)
open Panicking WireBytes WiiRemote WiiReports WiiMemory WiiProtocol WiiSafety
open Panicking.Action

section Reads

variable {m : Memory} {state : WiiRemoteState} {r : Read} {count offset base : ℕ}
  {block : Option (List UInt8)} {remaining : UInt16}

/-- The bytes that a chunk of a read carries. -/
def size (r : Read) : ℕ := min r.remaining.toNat 16

/-- As many bytes as were asked for, or an error code. -/
inductive Fetched (count : ℕ) : Outcome UInt8 (List UInt8) → Prop where
  | data {d : List UInt8} : d.length = count → Fetched count (.ok d)
  | refused {code : UInt8} : Fetched count (.error code)

theorem fetched_range {bytes : List UInt8} {start : ℕ} (h : start + count ≤ bytes.length) :
    Fetched count (range bytes start (start + count)) := by
  rw [range_eq_ok (Nat.le_add_right _ _) h, Nat.add_sub_cancel_left]
  refine .data ?_
  rw [List.length_take, List.length_drop]
  omega

theorem windowRead_fetched (h : count ≤ remaining.toNat) :
    Fetched count (Memory.windowRead block offset base remaining count) := by
  unfold Memory.windowRead
  cases block with
  | none => exact .refused
  | some bytes =>
    dsimp only
    by_cases hfits : offset - base + remaining.toNat ≤ bytes.length
    · rw [if_pos hfits]
      exact fetched_range (by omega)
    · rw [if_neg hfits]
      exact .refused

theorem readIdentity_fetched {id : List UInt8} (hid : id.length = 6) (hoffset : 0xfa ≤ offset)
    (h : offset + count ≤ 256) : Fetched count (Memory.readIdentity id offset count) := by
  have hfits : offset - 0xfa + count ≤ id.length := by
    rw [hid]
    omega
  unfold Memory.readIdentity
  exact fetched_range hfits

theorem readMotionPlus_fetched (h : count ≤ remaining.toNat) (hfits : offset + count ≤ 256) :
    Fetched count (m.readMotionPlus state offset remaining count) := by
  unfold Memory.readMotionPlus
  split
  · exact windowRead_fetched h
  · have hidentity : Fetched count
        (if 0xfa ≤ offset then Memory.readIdentity (m.motionplusIdentity state) offset count
        else if offset = 0xfe ∧ count = 1 then .ok [m.mpMode.getD 0]
        else .error 7) := by
      split
      · next hoffset => exact readIdentity_fetched rfl hoffset hfits
      · split
        · next hone => exact .data hone.2.symm
        · exact .refused
    cases m.child state with
    | none => exact hidentity
    | some child =>
      dsimp only
      split
      · exact windowRead_fetched h
      · split
        · exact windowRead_fetched h
        · exact hidentity

theorem readExtension_fetched (h : count ≤ remaining.toNat) (hfits : offset + count ≤ 256) :
    Fetched count (m.readExtension state offset remaining count) := by
  unfold Memory.readExtension
  split
  · exact windowRead_fetched h
  · split
    · split
      · next hoffset => exact readIdentity_fetched rfl hoffset hfits
      · exact .refused
    · split
      · next hoffset => exact readIdentity_fetched rfl hoffset hfits
      · exact .refused
    · exact .refused

theorem read_fetched (m : Memory) (state : WiiRemoteState) (r : Read) :
    Fetched (size r) (m.read state r (size r)) := by
  have hsize : size r ≤ r.remaining.toNat := Nat.min_le_left _ _
  unfold Memory.read
  split
  · dsimp only
    split
    · exact .refused
    · split
      · exact .refused
      · exact fetched_range (by omega)
  · split
    · exact .refused
    · split
      · exact .refused
      · dsimp only
        split
        · exact .refused
        · next hfits =>
          split
          · exact readMotionPlus_fetched hsize (Nat.le_of_not_lt hfits)
          · split
            · exact readExtension_fetched hsize (Nat.le_of_not_lt hfits)
            · exact .refused

/-- The payload of an answer to a read. -/
def chunkBytes (state : WiiRemoteState) (flag : UInt8) (r : Read) (data : List UInt8) : List UInt8 :=
  core state ++ flag :: be16Bytes r.address ++ data ++ List.replicate (16 - data.length) 0

/-- Data overwrites the zeros behind a head. -/
theorem overlay_zeros {head data : List UInt8} {k : ℕ} :
    overlay (head ++ List.replicate k 0) head.length data =
      head ++ data ++ List.replicate (k - data.length) 0 := by
  unfold overlay
  rw [List.take_left, List.drop_length_add_append, List.drop_replicate, List.append_assoc]

/-- What is left of a read after a chunk. -/
def advance (r : Read) : Read :=
  { r with
    remaining := r.remaining - UInt16.ofNat (size r)
    address := r.address + UInt16.ofNat (size r) }

/-- The next answer to a read: data, or an error that ends it. -/
inductive Chunk (m : Memory) (state : WiiRemoteState) (r : Read) : List UInt8 → Option Read → Prop where
  | data {d : List UInt8} : m.read state r (size r) = .ok d → d.length = size r →
      Chunk m state r (chunkBytes state (UInt8.ofNat (size r - 1) <<< 4) r d)
        (if (advance r).remaining = 0 then none else some (advance r))
  | error {code : UInt8} : m.read state r (size r) = .error code →
      Chunk m state r (chunkBytes state (0xf0 ||| code) r []) none

theorem readChunk_spec {ε : Type} (m : Memory) (state : WiiRemoteState) (h : r.remaining ≠ 0) : ∃ bytes rest done,
    (m.readChunk state r : Outcome ε (List UInt8 × Read × Bool)) = .ok (bytes, rest, done) ∧
      Chunk m state r bytes (if done then none else some rest) ∧ bytes.length = 21 := by
  have hpositive : 0 < r.remaining.toNat := Nat.pos_of_ne_zero fun h0 => h (UInt16.toNat_inj.mp h0)
  have hfetched := read_fetched m state r
  unfold Memory.readChunk
  dsimp only
  rw [show min r.remaining.toNat 16 = size r from rfl]
  cases hread : m.read state r (size r) with
  | panicked =>
    rw [hread] at hfetched
    cases hfetched
  | error code =>
    refine ⟨_, _, _, rfl, ?_, rfl⟩
    have hchunk := Chunk.error hread
    exact hchunk
  | ok d =>
    rw [hread] at hfetched
    obtain ⟨hlength⟩ := hfetched
    have hsize : size r ≠ 0 ∧ size r ≤ 16 := by
      unfold size
      omega
    have hcopy : (copyFromSlice (core state ++ UInt8.ofNat (size r - 1) <<< 4 :: be16Bytes r.address ++
        List.replicate 16 0) 5 (5 + size r) d : Outcome ε (List UInt8)) =
          .ok (chunkBytes state (UInt8.ofNat (size r - 1) <<< 4) r d) := by
      rw [copyFromSlice_eq_ok (Nat.le_add_right _ _) (Nat.add_le_add_left hsize.2 5) (by omega)]
      exact congrArg Outcome.ok overlay_zeros
    dsimp only
    rw [if_neg hsize.1, hcopy]
    refine ⟨_, _, _, rfl, ?_, ?_⟩
    · have hchunk := Chunk.data hread hlength
      simp only [decide_eq_true_eq]
      exact hchunk
    · change (core state ++ _ :: be16Bytes r.address ++ d ++ List.replicate (16 - d.length) 0).length = 21
      rw [List.length_append, List.length_append, List.length_replicate, hlength]
      change 5 + size r + (16 - size r) = 21
      omega

end Reads

section Calls

variable {w : Wii} {state : WiiRemoteState} {now : ℕ}

/-- The answer to a read in progress, and what is left of the read. -/
inductive Chunked (w : Wii) (state : WiiRemoteState) : List Report → Option Read → Prop where
  | idle : w.read = none → Chunked w state [] none
  | chunk {r : Read} {bytes : List UInt8} {rest : Option Read} {report : Report} :
      w.read = some r → Chunk w.memory state r bytes rest → report.kind = .input →
      report.id = some 0x21 → report.payload = bytes → Chunked w state [report] rest

theorem chunk_spec (state : WiiRemoteState) (h : ∀ r, w.read = some r → r.remaining ≠ 0) : ∃ chunks read,
    chunk state w = (.ok chunks, { w with read }) ∧ Chunked w state chunks read := by
  unfold chunk
  rw [get_bind_run]
  cases hread : w.read with
  | none =>
    refine ⟨[], none, ?_, .idle hread⟩
    have hsame : { w with read := none } = w := by rw [← hread]
    rw [hsame]
    rfl
  | some r =>
    obtain ⟨bytes, rest, done, hrun, hchunk, hlength⟩ :=
      readChunk_spec (ε := Error) w.memory state (h r hread)
    obtain ⟨report, hreport, hkind, hid, hpayload⟩ :=
      input_ok (ε := Error) (show (0x21 : UInt8) ≠ 0 by decide) hlength.le
    refine ⟨[report], _, ?_, .chunk hread hchunk hkind hid hpayload⟩
    dsimp only
    rw [hrun, lift_ok_bind_run, hreport, lift_ok_bind_run, modify_bind_run]
    rfl

/-- A visible point stops no report that leaves the camera out. -/
theorem encodable_dark {mode : UInt8} {ir ready : Bool} (h : Encodable mode state ir) :
    Encodable mode state (ir && ready) := by
  refine ⟨h.known, fun hblind => h.sighted ⟨hblind.1, ?_, hblind.2.2⟩⟩
  exact (Bool.and_eq_true_iff.mp hblind.2.1).1

theorem packet_memory (state : WiiRemoteState) (m : Memory) :
    ∃ turn, (packet state m).2 = { m with mpTurn := turn } := by
  unfold packet
  split
  · dsimp only
    split
    · exact ⟨!m.mpTurn, rfl⟩
    · exact ⟨!m.mpTurn, rfl⟩
  · split
    · exact ⟨m.mpTurn, rfl⟩
    · exact ⟨m.mpTurn, rfl⟩

theorem fillWindow_spec (state : WiiRemoteState) {report : Report} (h : DataReport w.mode report) : ∃ report' turn,
    fillWindow state report w = (.ok report', { w with memory := { w.memory with mpTurn := turn } }) ∧
      DataReport w.mode report' := by
  unfold fillWindow
  rw [get_bind_run]
  cases hwindow : extensionWindow w.mode with
  | none => exact ⟨report, w.memory.mpTurn, rfl, h⟩
  | some window =>
    obtain ⟨offset, size⟩ := window
    dsimp only
    rw [ite_run]
    by_cases hpresent : w.memory.mpMode.isSome = true ∨ w.memory.initialized = (true, true)
    · rw [if_pos hpresent]
      obtain ⟨turn, hturn⟩ := packet_memory state w.memory
      have hfits := (modes_roomy h.size).window offset size hwindow
      have hroom : 6 ≤ size := by
        unfold extensionWindow at hwindow
        grind
      have hsmall : ∀ e ∈ modes, e.1 ≠ 0 ∧ e.2 ≤ 21 := by decide
      obtain ⟨hid, hlength⟩ := hsmall _ h.size
      have hfill : (fill report.payload offset (offset + size) 0 : Outcome Error (List UInt8)) =
          .ok (overlay report.payload offset (List.replicate (offset + size - offset) 0)) :=
        copyFromSlice_eq_ok (Nat.le_add_right _ _) hfits List.length_replicate
      have hfilled : (overlay report.payload offset (List.replicate (offset + size - offset) 0)).length =
          report.payload.length := length_overlay (by rw [List.length_replicate]; omega)
      have hpacket : (packet state w.memory).1.toList.length = 6 := Vector.length_toList
      have hcopy := copyFromSlice_eq_ok (ε := Error) (Nat.le_add_right offset 6)
        (hfilled ▸ (by omega : offset + 6 ≤ report.payload.length))
        (hpacket.trans (Nat.add_sub_cancel_left offset 6).symm)
      have hcopied := (length_overlay (hfilled ▸ (by omega :
        offset + (packet state w.memory).1.toList.length ≤ report.payload.length))).trans hfilled
      obtain ⟨report', hreport, hkind, hreportId, hpayload⟩ :=
        input_ok (ε := Error) hid (hcopied.trans_le hlength)
      refine ⟨report', turn, ?_, hkind, hreportId, ?_⟩
      · rw [hturn]
        rw [modify_bind_run, hfill, lift_ok_bind_run, hcopy, lift_ok_bind_run, hreport]
        rfl
      · rw [hpayload, hcopied]
        exact h.size
    · rw [if_neg hpresent]
      exact ⟨report, w.memory.mpTurn, rfl, h⟩

theorem dataReport_spec (h : Encodable w.mode state w.irEnabled.1) : ∃ report turn,
    dataReport state w = (.ok report,
      { w with memory := { w.memory with mpTurn := turn }, mode := nextMode w.mode }) ∧
      DataReport w.mode report := by
  obtain ⟨base, hbase⟩ := data_ok_iff.mpr (encodable_dark h)
  have hdata := data_yields w.mode state (w.irEnabled.1 && w.memory.irReady)
  rw [hbase] at hdata
  obtain ⟨report, turn, hfill, hreport⟩ := fillWindow_spec state hdata.1
  refine ⟨report, turn, ?_, hreport⟩
  unfold dataReport
  rw [get_bind_run, hbase, lift_ok_bind_run, bind_run_ok hfill, modify_bind_run]
  rfl

/-- The states that an input call accepts. -/
structure Valid (w : Wii) (state : WiiRemoteState) : Prop where
  numbered : w.valid = true
  identity : state.revision.hasIdentityEvidence = true
  acceleration : state.accelerometer.any (1023 < ·) = false
  extension : Extensions.valid state.extension = true
  rotation : state.motionPlus.gyroscope.any (16383 < ·) = false
  encodable : Encodable w.mode state w.irEnabled.1

theorem validate_yields (w : Wii) (state : WiiRemoteState) : (validate w state).Yields
    (fun _ => Valid w state) (fun e => e = .invalidState ∧ ¬Valid w state) False := by
  unfold validate
  split
  · next hidentity =>
    refine ⟨rfl, fun h => ?_⟩
    rcases hidentity with hidentity | hidentity | hidentity
    · exact hidentity h.numbered
    · exact hidentity h.identity
    · rw [h.acceleration] at hidentity
      cases hidentity
  · next hidentity =>
    simp only [not_or, not_not] at hidentity
    split
    · next hextension => exact ⟨rfl, fun h => hextension h.extension⟩
    · next hextension =>
      split
      · next hrotation =>
        refine ⟨rfl, fun h => ?_⟩
        rw [h.rotation] at hrotation
        cases hrotation
      · next hrotation =>
        have hdata := data_yields w.mode state w.irEnabled.1
        cases hrun : data w.mode state w.irEnabled.1 with
        | panicked =>
          rw [hrun] at hdata
          exact hdata
        | error e =>
          rw [hrun] at hdata
          exact ⟨hdata.1, fun h => hdata.2 h.encodable⟩
        | ok report =>
          rw [hrun] at hdata
          exact ⟨hidentity.1, hidentity.2.1, Bool.eq_false_of_not_eq_true hidentity.2.2,
            not_not.mp hextension, Bool.eq_false_of_not_eq_true hrotation, hdata.2⟩

/-- The status that a start announces. -/
def greeting (w : Wii) (state : WiiRemoteState) : List Report :=
  if w.startStatus then [status { w with state }] else []

/-- The data report of an input call, unless the host has still to choose a mode. -/
inductive Generated (w : Wii) : List Report → Wii → Prop where
  | awaiting : w.reporting = .awaitingMode → Generated w [] w
  | data {report : Report} {turn : Bool} : w.reporting = .running → DataReport w.mode report →
      Generated w [report]
        { w with memory := { w.memory with mpTurn := turn }, mode := nextMode w.mode }

/-- Everything that an accepted input call does. -/
inductive Sent (w : Wii) (state : WiiRemoteState) (now : ℕ) : List Report → Wii → Prop where
  | silent : w.active = false → Sent w state now [] { w with state, next := none }
  | batch {chunks data : List Report} {read : Option Read} {w' : Wii} : w.active = true →
      Chunked { w with state, startStatus := false, pending := [] } state chunks read →
      Generated { w with state, startStatus := false, pending := [], read } data w' →
      Sent w state now (greeting w state ++ w.pending ++ chunks ++ data) (schedule now w')

theorem takeReplies_run : takeReplies { w with state } =
    (.ok (greeting w state ++ w.pending), { w with state, startStatus := false, pending := [] }) := by
  unfold takeReplies greeting
  cases hstart : w.startStatus with
  | true => rfl
  | false => rfl

theorem inputReports_spec (h : ∀ r, w.read = some r → r.remaining ≠ 0) :
    Meets (inputReports state now w) (fun reports w' => Valid w state ∧ Sent w state now reports w')
      (fun e w' => e = .invalidState ∧ ¬Valid w state ∧ w' = w) False := by
  unfold inputReports
  rw [get_bind_run]
  have hvalidate := validate_yields w state
  cases hrun : validate w state with
  | panicked =>
    rw [hrun] at hvalidate
    exact hvalidate
  | error e =>
    rw [hrun] at hvalidate
    exact ⟨hvalidate.1, hvalidate.2, rfl⟩
  | ok _ =>
    rw [hrun] at hvalidate
    have hvalid : Valid w state := hvalidate
    rw [lift_ok_bind_run, modify_bind_run, ite_run]
    by_cases hactive : (!w.active) = true
    · rw [if_pos hactive]
      exact ⟨hvalid, .silent (by simpa using hactive)⟩
    · rw [if_neg hactive, bind_run_ok takeReplies_run]
      obtain ⟨chunks, read, hchunk, hchunked⟩ :=
        chunk_spec (w := { w with state, startStatus := false, pending := [] }) state h
      rw [bind_run_ok hchunk]
      have hheard : w.active = true := by simpa using hactive
      by_cases hreporting : w.reporting = .awaitingMode
      · rw [if_pos hreporting, modify_bind_run]
        refine ⟨hvalid, ?_⟩
        rw [← List.append_nil (greeting w state ++ w.pending ++ chunks)]
        exact .batch hheard hchunked (.awaiting hreporting)
      · rw [if_neg hreporting]
        have hrunning : w.reporting = .running := by
          cases hr : w.reporting with
          | running => rfl
          | awaitingMode => exact absurd hr hreporting
        obtain ⟨report, turn, hdata, hreport⟩ := dataReport_spec
          (w := { w with state, startStatus := false, pending := [], read }) hvalid.encodable
        rw [bind_run_ok hdata, modify_bind_run]
        exact ⟨hvalid, .batch hheard hchunked (.data hrunning hreport)⟩

end Calls

end WiiInput
