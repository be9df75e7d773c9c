import VirtualGamepad.UsbipWorkerTrace

/-! The worker's receiver and the decoder agree. However the bytes are cut into reads, the
commands are those of the decoder on everything that has arrived. -/
namespace UsbipWorkerFraming

open Fallible Runs WireBytes UsbipFrame UsbipControl UsbipWorker UsbipWorkerLedger UsbipWorkerTrace

section Decoding

variable {device n fuel : ℕ} {bytes rest : List UInt8} {request : Request}

/-- The commands of a byte stream, up to the first bytes that are not a frame. -/
def decodeStream (device : ℕ) : ℕ → List UInt8 → List Request
  | 0, _ => []
  | fuel + 1, bytes =>
    match decode bytes device with
    | .ok (request, n) => request :: decodeStream device fuel (bytes.drop n)
    | .error _ => []

/-- No frame is empty, so there are no more frames than bytes. -/
def decodeAll (device : ℕ) (bytes : List UInt8) : List Request :=
  decodeStream device bytes.length bytes

/-- One frame, of exactly its own length. -/
def IsFrame (device : ℕ) (bytes : List UInt8) (request : Request) : Prop :=
  decode bytes device = .ok (request, bytes.length)

theorem IsFrame.length_pos (h : IsFrame device bytes request) : 0 < bytes.length := by
  obtain ⟨header, _, hn, _⟩ := decode_ok h
  have := header.headerBytes_le_wireBytes
  have h48 : headerBytes = 48 := rfl
  omega

/-- What follows a frame does not change it. -/
theorem IsFrame.append (h : IsFrame device bytes request) (more : List UInt8) :
    decode (bytes ++ more) device = .ok (request, bytes.length) := by
  obtain ⟨header, hh, hn, _⟩ := decode_ok h
  have hh' : Header.decode (bytes ++ more) device = .ok header :=
    (Header.decode_append more (Header.decode_ok hh).long).trans hh
  have hl : header.wireBytes ≤ (bytes ++ more).length := by
    rw [List.length_append]
    omega
  have ht := decode_take hh' (Nat.le_of_eq hn.symm) hl
  rw [List.take_left] at ht
  exact ht.symm.trans h

theorem decodeStream_rest (hu : Undecodable device rest) : decodeStream device fuel rest = [] := by
  cases fuel with
  | zero => rfl
  | succ fuel =>
    unfold decodeStream
    cases hd : decode rest device with
    | ok r => exact absurd hd (hu r)
    | error e => rfl

theorem decodeStream_frames {frames : List (List UInt8)} {requests : List Request}
    (h : List.Forall₂ (IsFrame device) frames requests) (hu : Undecodable device rest)
    (hf : frames.length ≤ fuel) : decodeStream device fuel (frames.flatten ++ rest) = requests := by
  induction h generalizing fuel with
  | nil => exact decodeStream_rest hu
  | @cons frame request frames requests hframe _ ih =>
    rw [List.length_cons] at hf
    cases fuel with
    | zero => omega
    | succ fuel =>
      unfold decodeStream
      rw [List.flatten_cons, List.append_assoc, hframe.append]
      dsimp only
      rw [List.drop_left, ih (by omega)]

theorem length_frames {frames : List (List UInt8)} {requests : List Request}
    (h : List.Forall₂ (IsFrame device) frames requests) : frames.length ≤ frames.flatten.length := by
  induction h with
  | nil => exact Nat.le_refl _
  | cons hframe _ ih =>
    have hpos := hframe.length_pos
    rw [List.flatten_cons, List.length_append, List.length_cons]
    omega

theorem decodeAll_frames {frames : List (List UInt8)} {requests : List Request}
    (h : List.Forall₂ (IsFrame device) frames requests) (hu : Undecodable device rest) :
    decodeAll device (frames.flatten ++ rest) = requests := by
  apply decodeStream_frames h hu
  have := length_frames h
  rw [List.length_append]
  omega

/-- What a decoded frame guarantees. -/
structure WholeFrame (device : ℕ) (bytes : List UInt8) (request : Request) (n : ℕ) : Prop where
  header : ∃ header, Header.decode bytes device = .ok header ∧ n = header.wireBytes
  bounded : n ≤ maxFrameBytes
  inside : n ≤ bytes.length
  followed : ∀ more, decode (bytes.take n ++ more) device = .ok (request, n)
  incomplete : ∀ m < n, decode (bytes.take m) device = .error .incomplete
  /-- Packets ascend and do not overlap in the transfer buffer. -/
  packets : ∀ submit, request = .submit submit →
    (∀ p ∈ submit.packets, p.offset + p.length ≤ submit.header.transferBytes) ∧
      submit.packets.Pairwise fun p q => p.offset + p.length ≤ q.offset

theorem decode_wholeFrame (h : decode bytes device = .ok (request, n)) :
    WholeFrame device bytes request n := by
  obtain ⟨header, hh, hn, hle, hrequest⟩ := decode_ok h
  have hlen : (bytes.take n).length = n := by
    rw [List.length_take]
    omega
  have hframe : IsFrame device (bytes.take n) request := by
    unfold IsFrame
    rw [decode_take hh (Nat.le_of_eq hn.symm) (by omega), h, hlen]
  constructor
  · exact ⟨header, hh, hn⟩
  · rw [hn]
    exact (Header.decode_ok hh).wireBytes_le
  · exact hle
  · intro more
    rw [hframe.append more, hlen]
  · intro m hm
    exact decode_prefix h hm
  · rintro submit rfl
    obtain ⟨hs, _, _, _, hcheck⟩ := hrequest
    obtain ⟨hin, hpair⟩ := checkPackets_ok hcheck
    rw [hs]
    exact ⟨fun p hp => (hin p hp).2, hpair⟩

end Decoding

section Receiving

/-- The bytes the socket gave. -/
def arrived (log : List Event) : List UInt8 :=
  log.flatMap fun e => match e with
    | .received bytes => bytes
    | _ => []

def commands (log : List Event) : List Request :=
  log.filterMap fun e => match e with
    | .command request => some request
    | _ => none

variable {device capacity : ℕ} {profile : Profile} {prior : List PcmQueue.Label}
variable {log log' : List Event} {L L' : Ledger} {e : Event} {microphone : PcmQueue.Queue}

@[simp] theorem arrived_append : arrived (log ++ log') = arrived log ++ arrived log' :=
  List.flatMap_append

@[simp] theorem commands_append : commands (log ++ log') = commands log ++ commands log' :=
  List.filterMap_append

/-- What has arrived is the frames of the commands, and the bytes of the next frame. -/
def Framed (device : ℕ) (log : List Event) (L : Ledger) : Prop :=
  ∃ frames, arrived log = frames.flatten ++ L.receive ∧
    List.Forall₂ (IsFrame device) frames (commands log)

theorem Framed.keep (h : Framed device log L) (ha : arrived [e] = []) (hc : commands [e] = [])
    (hr : L'.receive = L.receive) : Framed device (log ++ [e]) L' := by
  obtain ⟨frames, harrived, hframes⟩ := h
  refine ⟨frames, ?_, ?_⟩
  · rw [arrived_append, ha, List.append_nil, hr]
    exact harrived
  · rw [commands_append, hc, List.append_nil]
    exact hframes

theorem step_framed (h : Framed device log L) (st : Step device profile L e L') :
    Framed device (log ++ [e]) L' := by
  cases st with
  | received bytes _ =>
    obtain ⟨frames, harrived, hframes⟩ := h
    refine ⟨frames, ?_, ?_⟩
    · rw [arrived_append, harrived]
      simp [arrived]
    · rw [commands_append]
      simpa [commands] using hframes
  | command request _ hd =>
    obtain ⟨frames, harrived, hframes⟩ := h
    refine ⟨frames ++ [L.receive], ?_, ?_⟩
    · rw [arrived_append, harrived]
      simp [arrived]
    · rw [commands_append]
      exact List.rel_append hframes (.cons hd .nil)
  | _ => exact h.keep rfl rfl rfl

theorem run_framed (h : Run (Step device profile) (Ledger.new device microphone) log L) :
    Framed device log L := by
  induction h with
  | nil => exact ⟨[], rfl, .nil⟩
  | snoc _ st ih => exact step_framed ih st

variable {H K : Type} [HidHandler H] [Host K]
variable {format : PcmQueue.PcmFormat} {q₀ playback : PcmQueue.Queue} {host : K} {hid : H}
variable {nows : List ℕ} {w₀ w : Worker H K} {result : Except Failure Unit}

/-- The commands of a worker are those of all the bytes that arrived. -/
theorem runInner_commands (hq : PcmQueue.pcmQueue format capacity = .ok q₀)
    (hp : Run PcmQueue.Step q₀ prior microphone)
    (hn : UsbipWorker.new host device profile hid playback microphone = .ok w₀)
    (hr : runInner nows w₀ = (result, w)) : commands w.log = decodeAll device (arrived w.log) := by
  obtain ⟨_, ⟨L, hrun, _, _, hu⟩, _⟩ := runInner_traces hq hp hn hr
  obtain ⟨frames, harrived, hframes⟩ := run_framed hrun
  rw [harrived]
  exact (decodeAll_frames hframes hu).symm

/-- A frame is decoded alike whatever follows it, and a worker's commands are those of the
frames that arrived, whatever the cuts between its reads. -/
theorem frames_cut_anywhere (device : ℕ) :
    (∀ bytes request n, decode bytes device = .ok (request, n) →
      WholeFrame device bytes request n) ∧
    ∀ (H K : Type) [HidHandler H] [Host K] (host : K) (profile : Profile) (hid : H)
      (playback microphone q₀ : PcmQueue.Queue) (format : PcmQueue.PcmFormat) (capacity : ℕ)
      (prior : List PcmQueue.Label) (nows : List ℕ) (w₀ w : Worker H K)
      (result : Except Failure Unit),
      PcmQueue.pcmQueue format capacity = .ok q₀ → Run PcmQueue.Step q₀ prior microphone →
      UsbipWorker.new host device profile hid playback microphone = .ok w₀ →
      runInner nows w₀ = (result, w) →
      commands w.log = decodeAll device (arrived w.log) ∧
      ∀ frames requests, List.Forall₂ (IsFrame device) frames requests →
        arrived w.log = frames.flatten → commands w.log = requests := by
  constructor
  · intro bytes request n hd
    exact decode_wholeFrame hd
  · intro H K _ _ host profile hid playback microphone q₀ format capacity prior nows w₀ w result
      hq hp hn hr
    have hall := runInner_commands hq hp hn hr
    refine ⟨hall, ?_⟩
    intro frames requests hframes heq
    have hd := decodeAll_frames hframes undecodable_nil
    rw [List.append_nil, ← heq, ← hall] at hd
    exact hd

/-- Two frames in three pieces. -/
def threePieces : Script :=
  let frame := submitFrame 7 1 3 64 0 (List.replicate 8 0)
  ⟨[frame.take 5, (frame ++ unlinkFrame 8 7).drop 5 |>.take 50, (unlinkFrame 8 7).drop 7], []⟩

theorem frames_cut_anywhere_thrice : ∃ w : Worker Mute Script,
    (commands w.log).length = 2 ∧ commands w.log = decodeAll 5 (arrived w.log) := by
  obtain ⟨w₀, hn, hf⟩ := rehearse_ok threePieces
    (fun w => (commands (runInner [0] w).2.log).length) (b := 2) (by decide +kernel)
  rcases hr : runInner [0] w₀ with ⟨result, w⟩
  rw [hr] at hf
  have hall := (frames_cut_anywhere 5).2 Mute Script threePieces monoProfile {} _ _ _ _ 4 [] [0] w₀ w
    result (pcmQueue_mono .microphone) .nil hn hr
  exact ⟨w, hf, hall.1⟩

end Receiving

end UsbipWorkerFraming
