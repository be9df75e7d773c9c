import VirtualGamepad.PcmQueue
import VirtualGamepad.Conveyor
import VirtualGamepad.Runs
import Mathlib.Data.List.TakeWhile

/-! The PCM queue as a line of numbered frames: what was accepted is delivered in order with
its own position and samples, or flushed, or still queued. Accepted and delivered frames are
read off the log of operations alone. -/
namespace PcmQueueDelivery

open Fallible MachineInt Runs Conveyor PcmQueue

structure Frame where
  position : ℕ
  samples : List Int16
  deriving DecidableEq

/-- Consecutive frames from a position on. -/
def number : ℕ → List (List Int16) → List Frame
  | _, [] => []
  | position, samples :: rest => ⟨position, samples⟩ :: number (position + 1) rest

def frame (q : Queue) (i : ℕ) : Frame :=
  ⟨q.position i, Slab.slot q.channels q.samples i⟩

/-- The frames in the ring, oldest first. -/
def queued (q : Queue) : List Frame := RingBuffer.items (frame q) q.slots q.head q.tail

/-- The producer's stream position and the accepted frames, after one more operation. -/
def produced (c : ℕ) (s : ℕ × List Frame) : Label → ℕ × List Frame
  | .push samples (.ok frames) =>
    (s.1 + frames, s.2 ++ number s.1 (Slab.chunks c frames samples))
  | .discard frames (.ok ()) => (s.1 + frames, s.2)
  | _ => s

def clock (c : ℕ) (log : List Label) : ℕ := (log.foldl (produced c) (0, [])).1

def accepted (c : ℕ) (log : List Label) : List Frame := (log.foldl (produced c) (0, [])).2

/-- The frames of one read. -/
def segment (c : ℕ) : Label → List Frame
  | .read _ (.ok (result, dest)) => number result.firstFrame (Slab.chunks c result.frames dest)
  | _ => []

def delivered (c : ℕ) (log : List Label) : List Frame := log.flatMap (segment c)

/-- Where the last delivered segment ended. -/
def endOf (frames : List Frame) : ℕ := (frames.getLast?.map (·.position + 1)).getD 0

def Flushes (label : Label) : Prop := label = .flush (.ok ()) ∨ label = .consumerFlush (.ok ())

/-- A flush came after the frame was accepted. -/
def Covered (c : ℕ) (log : List Label) (f : Frame) : Prop :=
  ∃ before label after, log = before ++ label :: after ∧ Flushes label ∧ f ∈ accepted c before

theorem Covered.snoc {c : ℕ} {log : List Label} {f : Frame} (h : Covered c log f)
    (label : Label) : Covered c (log ++ [label]) f := by
  obtain ⟨before, flush, after, rfl, h⟩ := h
  exact ⟨before, flush, after ++ [label], by simp, h⟩

theorem accepted_snoc (c : ℕ) (log : List Label) (label : Label) :
    accepted c (log ++ [label]) = (produced c (clock c log, accepted c log) label).2 := by
  simp [accepted, clock, List.foldl_append]

theorem clock_snoc (c : ℕ) (log : List Label) (label : Label) :
    clock c (log ++ [label]) = (produced c (clock c log, accepted c log) label).1 := by
  simp [accepted, clock, List.foldl_append]

theorem delivered_snoc (c : ℕ) (log : List Label) (label : Label) :
    delivered c (log ++ [label]) = delivered c log ++ segment c label := by
  simp [delivered]

section Numbering

variable {position : ℕ} {rest : List (List Int16)}

@[simp] theorem length_number : (number position rest).length = rest.length := by
  induction rest generalizing position with
  | nil => rfl
  | cons samples rest ih => simp [number, ih]

theorem le_of_mem_number {f : Frame} (h : f ∈ number position rest) :
    position ≤ f.position ∧ f.position < position + rest.length := by
  induction rest generalizing position with
  | nil => simp [number] at h
  | cons samples rest ih =>
    rcases List.mem_cons.mp h with rfl | h
    · simp
    · have := ih h
      simp only [List.length_cons]
      omega

theorem number_ascending : (number position rest).Pairwise (·.position < ·.position) := by
  induction rest generalizing position with
  | nil => exact List.Pairwise.nil
  | cons samples rest ih =>
    refine List.Pairwise.cons ?_ ih
    intro f hf
    have := (le_of_mem_number hf).1
    change position < f.position
    omega

theorem endOf_append_number (frames : List Frame) (samples : List Int16) :
    endOf (frames ++ number position (samples :: rest)) = position + rest.length + 1 := by
  have hlast : ∀ (position : ℕ) (samples : List Int16),
      (number position (samples :: rest)).getLast?.map (·.position + 1) =
        some (position + rest.length + 1) := by
    induction rest with
    | nil => intro position samples; rfl
    | cons samples' rest ih =>
      intro position samples
      have h := ih (position + 1) samples'
      simp only [number, List.getLast?_cons_cons] at h ⊢
      rw [h, List.length_cons]
      congr 1
      omega
  unfold endOf
  rw [List.getLast?_append]
  have h := hlast position samples
  cases hl : (number position (samples :: rest)).getLast? with
  | none => rw [hl] at h; cases h
  | some f =>
    rw [hl] at h
    simpa using h

end Numbering

section Operations

variable {capacity : ℕ} {q q' : Queue}

/-- The ends stay in the ring and the two arrays keep their sizes. -/
structure WellFormed (capacity : ℕ) (q : Queue) : Prop where
  slots_eq : q.slots = capacity + 1
  channels_pos : 0 < q.channels
  head_lt : q.head < q.slots
  tail_lt : q.tail < q.slots
  samples_length : q.samples.length = q.slots * q.channels
  positions_length : q.positions.length = q.slots

theorem queuedFrames_eq (q : Queue) : q.queuedFrames = (queued q).length := by
  unfold queued
  rw [RingBuffer.length_items]
  rfl

theorem WellFormed.queued_lt (h : WellFormed capacity q) : (queued q).length < q.slots := by
  have hs : 0 < q.slots := by have := h.head_lt; omega
  unfold queued
  rw [RingBuffer.length_items]
  exact RingBuffer.count_lt hs _ _

theorem WellFormed.slot_le (h : WellFormed capacity q) {i : ℕ} (hi : i < q.slots) :
    i * q.channels + q.channels ≤ q.samples.length := by
  rw [h.samples_length]
  exact Slab.slot_end_le hi

theorem store_spec (h : WellFormed capacity q) {samples : List Int16} (position : ℕ)
    (hl : samples.length = q.channels) (hroom : (queued q).length + 1 < q.slots) :
    WellFormed capacity (q.store samples position) ∧
      queued (q.store samples position) = queued q ++ [⟨position, samples⟩] := by
  have hle := h.slot_le h.head_lt
  have hs : 0 < q.slots := by have := h.head_lt; omega
  constructor
  · refine ⟨h.slots_eq, h.channels_pos, RingBuffer.next_lt hs _, h.tail_lt, ?_, ?_⟩
    · exact (Slab.length_write hle hl).trans h.samples_length
    · simp only [Queue.store, List.length_set]
      exact h.positions_length
  · unfold queued at hroom ⊢
    rw [RingBuffer.length_items] at hroom
    refine RingBuffer.items_push h.head_lt h.tail_lt hroom ?_ ?_
    · have hp : q.head < q.positions.length := by rw [h.positions_length]; exact h.head_lt
      simp [frame, Queue.position, Queue.store, Slab.slot_write_self hle hl, List.getD, hp]
    · intro i hi hne
      have hne' : q.head ≠ i := fun he => hne he.symm
      simp [frame, Queue.position, Queue.store, Slab.slot_write_ne hle hl hne, List.getD,
        List.getElem?_set_ne hne']

/-- The store loop appends numbered frames and touches neither clock nor the consumer. -/
theorem storeAll_spec (frames : List (List Int16)) : ∀ {q : Queue} (position : ℕ),
    WellFormed capacity q → (∀ f ∈ frames, f.length = q.channels) →
    (queued q).length + frames.length < q.slots →
    WellFormed capacity (q.storeAll position frames) ∧
      queued (q.storeAll position frames) = queued q ++ number position frames ∧
      ((q.storeAll position frames).channels, (q.storeAll position frames).flushBefore,
        (q.storeAll position frames).nextFrame, (q.storeAll position frames).expectedFrame) =
        (q.channels, q.flushBefore, q.nextFrame, q.expectedFrame) := by
  induction frames with
  | nil =>
    intro q position h _ _
    exact ⟨h, by simp [Queue.storeAll, number], rfl⟩
  | cons f frames ih =>
    intro q position h hf hroom
    rw [List.length_cons] at hroom
    obtain ⟨hw, hq⟩ := store_spec h position (hf f (by simp)) (by omega)
    have hroom' : (queued (q.store f position)).length + frames.length < q.slots := by
      rw [hq, List.length_append, List.length_singleton]
      omega
    obtain ⟨hw', hq', hsame⟩ := ih (position + 1) hw
      (fun g hg => hf g (by simp [hg])) hroom'
    refine ⟨hw', ?_, hsame⟩
    change queued ((q.store f position).storeAll (position + 1) frames) = _
    rw [hq', hq, List.append_assoc]
    rfl

theorem WellFormed.advance (h : WellFormed capacity q) (hne : q.tail ≠ q.head) (expected : ℕ) :
    WellFormed capacity { q with
      expectedFrame := expected, tail := RingBuffer.next q.slots q.tail } ∧
      queued q = frame q q.tail :: queued { q with
        expectedFrame := expected, tail := RingBuffer.next q.slots q.tail } := by
  have hs : 0 < q.slots := by have := h.head_lt; omega
  refine ⟨⟨h.slots_eq, h.channels_pos, h.head_lt, RingBuffer.next_lt hs _, h.samples_length,
    h.positions_length⟩, ?_⟩
  exact RingBuffer.items_pop h.head_lt h.tail_lt hne

/-- The skip loop runs until the first frame that no flush of the producer covers. -/
theorem skipFlushed_spec (n : ℕ) : ∀ {q : Queue}, WellFormed capacity q →
    (queued q).length ≤ n → ∃ tail, Queue.skipFlushed n q = { q with tail } ∧
      WellFormed capacity { q with tail } ∧
      queued { q with tail } = (queued q).dropWhile (·.position < q.flushBefore) := by
  induction n with
  | zero =>
    intro q h hn
    have he : queued q = [] := List.length_eq_zero_iff.mp (by omega)
    refine ⟨q.tail, rfl, h, ?_⟩
    change queued q = _
    rw [he]
    rfl
  | succ n ih =>
    intro q h hn
    by_cases hc : q.tail ≠ q.head ∧ q.position q.tail < q.flushBefore
    · obtain ⟨hw, hq⟩ := h.advance hc.1 q.expectedFrame
      have hlen := congrArg List.length hq
      rw [List.length_cons] at hlen
      obtain ⟨tail, hs, hw', hq'⟩ := ih hw (by omega)
      refine ⟨tail, ?_, hw', ?_⟩
      · rw [Queue.skipFlushed, if_pos hc]
        exact hs
      · have hp : decide ((frame q q.tail).position < q.flushBefore) = true :=
          decide_eq_true hc.2
        rw [hq, List.dropWhile_cons, if_pos hp]
        exact hq'
    · refine ⟨q.tail, ?_, h, ?_⟩
      · rw [Queue.skipFlushed, if_neg hc]
      · by_cases he : q.tail = q.head
        · have hnil : queued q = [] := by
            unfold queued
            rw [he]
            exact RingBuffer.items_self h.head_lt
          change queued q = _
          rw [hnil]
          rfl
        · have hp : ¬ q.position q.tail < q.flushBefore := fun hp => hc ⟨he, hp⟩
          obtain ⟨_, hq⟩ := h.advance he q.expectedFrame
          change queued q = _
          have hf : ¬ decide ((frame q q.tail).position < q.flushBefore) = true := by
            rwa [decide_eq_true_eq]
          rw [hq, List.dropWhile_cons, if_neg hf]

theorem WellFormed.frame_length (h : WellFormed capacity q) {i : ℕ} (hi : i < q.slots) :
    (frame q i).samples.length = q.channels :=
  Slab.length_slot (h.slot_le hi)

/-- After its first frame a read goes on while the positions follow on from each other. -/
theorem copy_spec (n : ℕ) : ∀ {q : Queue} (result : PcmRead) (dest : List Int16),
    WellFormed capacity q → result.frames ≠ 0 →
    ∃ taken tail expected,
      Queue.copy n result dest q = ({ result with frames := result.frames + taken.length },
        dest ++ taken.flatten, { q with tail, expectedFrame := expected }) ∧
      WellFormed capacity { q with tail, expectedFrame := expected } ∧
      (∀ samples ∈ taken, samples.length = q.channels) ∧ taken.length ≤ n ∧
      expected = q.expectedFrame + taken.length ∧
      queued q = number q.expectedFrame taken ++
        queued { q with tail, expectedFrame := expected } := by
  induction n with
  | zero =>
    intro q result dest h _
    exact ⟨[], q.tail, q.expectedFrame, by simp [Queue.copy], h, by simp, by simp, rfl, rfl⟩
  | succ n ih =>
    intro q result dest h hr
    by_cases he : q.tail = q.head
    · refine ⟨[], q.tail, q.expectedFrame, ?_, h, by simp, by simp, rfl, rfl⟩
      rw [Queue.copy, if_pos he]
      simp
    · by_cases hp : q.position q.tail = q.expectedFrame
      · obtain ⟨hw, hq⟩ := h.advance he (q.position q.tail + 1)
        obtain ⟨taken, tail, expected, hcopy, hw', hl, hn, hexp, hq'⟩ :=
          ih { result with frames := result.frames + 1 }
            (dest ++ Slab.slot q.channels q.samples q.tail) hw (by simp)
        refine ⟨Slab.slot q.channels q.samples q.tail :: taken, tail, expected, ?_, hw', ?_, ?_,
          ?_, ?_⟩
        · rw [Queue.copy, if_neg he, if_neg hr, if_neg (by simpa using hp)]
          simp only [hcopy, List.length_cons, List.flatten_cons, List.append_assoc]
          congr 2
          omega
        · intro samples hs
          rcases List.mem_cons.mp hs with rfl | hs
          · exact h.frame_length h.tail_lt
          · exact hl samples hs
        · rw [List.length_cons]
          omega
        · rw [hexp, List.length_cons, ← hp]
          change q.position q.tail + 1 + taken.length = _
          omega
        · rw [hq, hq']
          simp [frame, number, hp]
      · refine ⟨[], q.tail, q.expectedFrame, ?_, h, by simp, by simp, rfl, rfl⟩
        rw [Queue.copy, if_neg he, if_neg hr, if_pos hp]
        simp

/-- What a read takes from the front of the ring. -/
structure Takes (q : Queue) (n : ℕ) (result : PcmRead) (taken : List (List Int16))
    (q' : Queue) : Prop where
  frames_eq : result.frames = taken.length
  sized : ∀ samples ∈ taken, samples.length = q.channels
  bounded : taken.length ≤ n
  queued_eq : queued q = number result.firstFrame taken ++ queued q'
  expected_eq : q'.expectedFrame = result.firstFrame + taken.length
  discontinuity : result.discontinuity = true ↔ result.firstFrame ≠ q.expectedFrame
  idle : taken = [] → result.firstFrame = q.expectedFrame

theorem copy_first_spec (n : ℕ) (h : WellFormed capacity q) :
    ∃ result taken tail expected,
      Queue.copy n ⟨0, q.expectedFrame, false⟩ [] q =
        (result, taken.flatten, { q with tail, expectedFrame := expected }) ∧
      WellFormed capacity { q with tail, expectedFrame := expected } ∧
      Takes q n result taken { q with tail, expectedFrame := expected } := by
  have idle : ∀ n, Takes q n ⟨0, q.expectedFrame, false⟩ [] q := by
    intro n
    exact ⟨rfl, by simp, by simp, rfl, rfl, by simp, fun _ => rfl⟩
  cases n with
  | zero => exact ⟨_, [], q.tail, q.expectedFrame, rfl, h, idle 0⟩
  | succ n =>
    by_cases he : q.tail = q.head
    · refine ⟨_, [], q.tail, q.expectedFrame, ?_, h, idle (n + 1)⟩
      rw [Queue.copy, if_pos he]
      rfl
    · obtain ⟨hw, hq⟩ := h.advance he (q.position q.tail + 1)
      obtain ⟨taken, tail, expected, hcopy, hw', hl, hn, hexp, hq'⟩ :=
        copy_spec n ⟨1, q.position q.tail, q.position q.tail ≠ q.expectedFrame⟩
          (Slab.slot q.channels q.samples q.tail) hw (by simp)
      refine ⟨⟨1 + taken.length, q.position q.tail, q.position q.tail ≠ q.expectedFrame⟩,
        Slab.slot q.channels q.samples q.tail :: taken, tail, expected, ?_, hw', ?_⟩
      · rw [Queue.copy, if_neg he, if_pos rfl]
        simp only [List.nil_append, hcopy]
        rfl
      · refine ⟨?_, ?_, ?_, ?_, ?_, ?_, by simp⟩
        · rw [List.length_cons, Nat.add_comm]
        · intro samples hs
          rcases List.mem_cons.mp hs with rfl | hs
          · exact h.frame_length h.tail_lt
          · exact hl samples hs
        · rw [List.length_cons]
          omega
        · rw [hq, hq']
          simp [frame, number]
        · change expected = _
          rw [hexp, List.length_cons]
          change q.position q.tail + 1 + taken.length = q.position q.tail + (taken.length + 1)
          omega
        · simp

theorem initial_spec {format : PcmFormat} (h : pcmQueue format capacity = .ok q) :
    WellFormed capacity q ∧ q.channels = format.channels.length ∧ queued q = [] ∧
      q.nextFrame = 0 ∧ q.expectedFrame = 0 ∧ q.flushBefore = 0 := by
  unfold pcmQueue at h
  split at h
  · cases h
    refine ⟨⟨rfl, format.channels_pos, Nat.succ_pos _, Nat.succ_pos _, by simp, by simp⟩, rfl, ?_,
      rfl, rfl, rfl⟩
    exact RingBuffer.items_self (Nat.succ_pos _)
  · cases h

/-- A push appends whole frames at the stream position and changes nothing else, or fails and
changes nothing at all. -/
theorem push_spec (h : WellFormed capacity q) {samples : List Int16}
    {result : Except AudioError ℕ} (hp : push samples q = (result, q')) :
    (∃ error, result = .error error ∧ q' = q) ∨
      ∃ frames, result = .ok frames ∧ WellFormed capacity q' ∧
        queued q' = queued q ++ number q.nextFrame (Slab.chunks q.channels frames samples) ∧
        (q'.channels, q'.flushBefore, q'.nextFrame, q'.expectedFrame) =
          (q.channels, q.flushBefore, q.nextFrame + frames, q.expectedFrame) := by
  unfold push at hp
  cases hv : q.validate samples.length with
  | error error =>
    rw [hv] at hp
    obtain ⟨rfl, rfl⟩ := Prod.mk.inj hp
    exact .inl ⟨error, rfl, rfl⟩
  | ok _ =>
    rw [hv] at hp
    dsimp only at hp
    rw [RingBuffer.room h.head_lt h.tail_lt] at hp
    have hcount : RingBuffer.count q.slots q.head q.tail = (queued q).length :=
      RingBuffer.length_items.symm
    rw [hcount] at hp
    generalize hf : min (q.slots - 1 - (queued q).length) (samples.length / q.channels) = frames
      at hp
    cases ha : checkedAdd q.nextFrame frames with
    | none =>
      rw [ha] at hp
      obtain ⟨rfl, rfl⟩ := Prod.mk.inj hp
      exact .inl ⟨.invalidRequirement, rfl, rfl⟩
    | some next =>
      rw [ha] at hp
      obtain ⟨rfl, rfl⟩ := Prod.mk.inj hp
      obtain ⟨rfl, _⟩ := checkedAdd_eq_some.mp ha
      have hlt := h.queued_lt
      have hroom : frames ≤ q.slots - 1 - (queued q).length := hf ▸ Nat.min_le_left _ _
      have hfit : frames * q.channels ≤ samples.length := by
        have hle : frames ≤ samples.length / q.channels := hf ▸ Nat.min_le_right _ _
        exact (Nat.mul_le_mul_right _ hle).trans (Nat.div_mul_le_self _ _)
      obtain ⟨hw, hq, hsame⟩ := storeAll_spec (Slab.chunks q.channels frames samples)
        q.nextFrame h (Slab.length_of_mem_chunks hfit) (by
          rw [Slab.length_chunks]; omega)
      simp only [Prod.mk.injEq] at hsame
      refine .inr ⟨frames, rfl, ?_, hq, ?_⟩
      · exact ⟨hw.slots_eq, hw.channels_pos, hw.head_lt, hw.tail_lt, hw.samples_length,
          hw.positions_length⟩
      · simp [hsame.1, hsame.2.1, hsame.2.2.2]

theorem discard_spec {frames : ℕ} {result : Except AudioError Unit}
    (hd : PcmQueue.discard frames q = (result, q')) :
    (∃ error, result = .error error ∧ q' = q) ∨
      (result = .ok () ∧ ∃ discarded, q' = { q with nextFrame := q.nextFrame + frames, discarded }) := by
  unfold PcmQueue.discard at hd
  cases hv : q.validate 0 with
  | error error =>
    rw [hv] at hd
    obtain ⟨rfl, rfl⟩ := Prod.mk.inj hd
    exact .inl ⟨error, rfl, rfl⟩
  | ok _ =>
    rw [hv] at hd
    dsimp only at hd
    cases ha : checkedAdd q.nextFrame frames with
    | none =>
      rw [ha] at hd
      obtain ⟨rfl, rfl⟩ := Prod.mk.inj hd
      exact .inl ⟨.invalidRequirement, rfl, rfl⟩
    | some next =>
      rw [ha] at hd
      obtain ⟨rfl, rfl⟩ := Prod.mk.inj hd
      obtain ⟨rfl, _⟩ := checkedAdd_eq_some.mp ha
      exact .inr ⟨rfl, _, rfl⟩

theorem flush_spec {result : Except AudioError Unit} (hf : flush q = (result, q')) :
    (∃ error, result = .error error ∧ q' = q) ∨
      (result = .ok () ∧ q' = { q with flushBefore := q.nextFrame }) := by
  unfold flush at hf
  cases hv : q.validate 0 with
  | error error =>
    rw [hv] at hf
    obtain ⟨rfl, rfl⟩ := Prod.mk.inj hf
    exact .inl ⟨error, rfl, rfl⟩
  | ok _ =>
    rw [hv] at hf
    obtain ⟨rfl, rfl⟩ := Prod.mk.inj hf
    exact .inr ⟨rfl, rfl⟩

theorem consumerFlush_spec {result : Except AudioError Unit}
    (hf : consumerFlush q = (result, q')) :
    (∃ error, result = .error error ∧ q' = q) ∨
      (result = .ok () ∧ q' = { q with tail := q.head }) := by
  unfold consumerFlush at hf
  cases hv : q.validate 0 with
  | error error =>
    rw [hv] at hf
    obtain ⟨rfl, rfl⟩ := Prod.mk.inj hf
    exact .inl ⟨error, rfl, rfl⟩
  | ok _ =>
    rw [hv] at hf
    obtain ⟨rfl, rfl⟩ := Prod.mk.inj hf
    exact .inr ⟨rfl, rfl⟩

/-- A read skips what a flush of the producer covers and takes one run of frames after it. -/
theorem read_spec (h : WellFormed capacity q) {dest : List Int16}
    {result : Except AudioError (PcmRead × List Int16)} (hr : PcmQueue.read dest q = (result, q')) :
    (∃ error, result = .error error ∧ q' = q) ∨
      ∃ r dest' taken tail skipped, result = .ok (r, dest') ∧
        dest'.length = max dest.length (taken.length * q.channels) ∧
        WellFormed capacity { q with tail := skipped } ∧
        queued { q with tail := skipped } = (queued q).dropWhile (·.position < q.flushBefore) ∧
        Takes { q with tail := skipped } (dest.length / q.channels) r taken q' ∧
        number r.firstFrame (Slab.chunks q.channels r.frames dest') =
          number r.firstFrame taken ∧
        WellFormed capacity q' ∧
        q' = { q with tail, expectedFrame := q'.expectedFrame } := by
  unfold PcmQueue.read at hr
  cases hv : q.validate dest.length with
  | error error =>
    rw [hv] at hr
    obtain ⟨rfl, rfl⟩ := Prod.mk.inj hr
    exact .inl ⟨error, rfl, rfl⟩
  | ok _ =>
    rw [hv] at hr
    dsimp only at hr
    obtain ⟨skipped, hs, hw, hq⟩ := skipFlushed_spec (queued q).length h le_rfl
    rw [queuedFrames_eq, hs] at hr
    obtain ⟨r, taken, tail, expected, hcopy, hw', ht⟩ :=
      copy_first_spec (dest.length / q.channels) hw
    dsimp only at hcopy hr
    rw [hcopy] at hr
    obtain ⟨rfl, rfl⟩ := Prod.mk.inj hr
    have hlen : taken.flatten.length = taken.length * q.channels := by
      rw [List.length_flatten, List.map_congr_left ht.sized]
      simp
    refine .inr ⟨r, _, taken, tail, skipped, rfl, ?_, hw, hq, ht, ?_, hw', rfl⟩
    · rw [List.length_append, List.length_drop, hlen]
      omega
    · rw [ht.frames_eq, Slab.chunks_flatten taken ht.sized]

end Operations

theorem storeAll_format (frames : List (List Int16)) (q : Queue) (position : ℕ) :
    (q.storeAll position frames).format = q.format := by
  induction frames generalizing q position with
  | nil => rfl
  | cons f frames ih => exact ih (q.store f position) (position + 1)

/-- The format of a queue never changes. -/
theorem step_format {capacity : ℕ} {q q' : Queue} {label : Label} (h : WellFormed capacity q)
    (st : Step q label q') : q'.format = q.format := by
  cases label with
  | push samples result =>
    change push samples q = (result, q') at st
    unfold push at st
    split at st
    · exact congrArg Queue.format (Prod.mk.inj st).2.symm
    · dsimp only at st
      split at st
      · exact congrArg Queue.format (Prod.mk.inj st).2.symm
      · obtain rfl := (Prod.mk.inj st).2
        exact storeAll_format _ _ _
  | discard frames result =>
    rcases discard_spec st with ⟨error, _, rfl⟩ | ⟨_, discarded, rfl⟩ <;> rfl
  | flush result =>
    rcases flush_spec st with ⟨error, _, rfl⟩ | ⟨_, rfl⟩ <;> rfl
  | read dest result =>
    rcases read_spec h st with ⟨error, _, rfl⟩ |
      ⟨r, dest', taken, tail, skipped, _, _, _, _, _, _, _, hsame⟩
    · rfl
    · rw [hsame]
  | consumerFlush result =>
    rcases consumerFlush_spec st with ⟨error, _, rfl⟩ | ⟨_, rfl⟩ <;> rfl
  | close =>
    obtain rfl : q' = close q := st
    rfl

/-- What the log of operations says about the frames of the queue it led to. -/
structure Accounted (capacity c : ℕ) (log : List Label) (q : Queue) : Prop where
  wf : WellFormed capacity q
  channels_eq : q.channels = c
  clock_eq : clock c log = q.nextFrame
  conveys : ∃ flushed, Conveys (accepted c log) (delivered c log) flushed (queued q) ∧
    ∀ f ∈ flushed, Covered c log f
  ascending : (accepted c log).Pairwise (·.position < ·.position)
  below : ∀ f ∈ accepted c log, f.position < q.nextFrame
  expected : q.expectedFrame = endOf (delivered c log)
  flush_le : q.flushBefore ≤ q.nextFrame
  covered : ∀ f ∈ accepted c log, f.position < q.flushBefore → Covered c log f

section Accounting

variable {capacity c : ℕ} {q q' : Queue} {log : List Label} {label : Label}

theorem Accounted.channels_pos (h : Accounted capacity c log q) : 0 < c :=
  h.channels_eq ▸ h.wf.channels_pos

/-- An operation that failed accepts, delivers and covers nothing. -/
theorem Accounted.idle (h : Accounted capacity c log q) (label : Label)
    (hp : produced c (clock c log, accepted c log) label = (clock c log, accepted c log))
    (hs : segment c label = []) : Accounted capacity c (log ++ [label]) q := by
  have ha : accepted c (log ++ [label]) = accepted c log := by rw [accepted_snoc, hp]
  have hc : clock c (log ++ [label]) = clock c log := by rw [clock_snoc, hp]
  have hd : delivered c (log ++ [label]) = delivered c log := by
    rw [delivered_snoc, hs, List.append_nil]
  obtain ⟨flushed, hf, hcov⟩ := h.conveys
  refine ⟨h.wf, h.channels_eq, hc.trans h.clock_eq, ⟨flushed, ?_, ?_⟩, ?_, ?_, ?_, h.flush_le, ?_⟩
  · rw [ha, hd]; exact hf
  · intro f hf; exact (hcov f hf).snoc label
  · rw [ha]; exact h.ascending
  · rw [ha]; exact h.below
  · rw [hd]; exact h.expected
  · rw [ha]
    intro f hf hlt
    exact (h.covered f hf hlt).snoc label

theorem Accounted.push (h : Accounted capacity c log q) {samples : List Int16}
    {result : Except AudioError ℕ} (hp : push samples q = (result, q')) :
    Accounted capacity c (log ++ [.push samples result]) q' := by
  rcases push_spec h.wf hp with ⟨error, rfl, rfl⟩ | ⟨frames, rfl, hw, hq, hsame⟩
  · exact h.idle _ rfl rfl
  · simp only [Prod.mk.injEq] at hsame
    obtain ⟨h₁, h₂, h₃, h₄⟩ := hsame
    rw [h.channels_eq, ← h.clock_eq] at hq
    have ha : accepted c (log ++ [.push samples (.ok frames)]) =
        accepted c log ++ number (clock c log) (Slab.chunks c frames samples) := by
      rw [accepted_snoc]; rfl
    have hd : delivered c (log ++ [.push samples (.ok frames)]) = delivered c log := by
      rw [delivered_snoc]; exact List.append_nil _
    have hnew : ∀ f ∈ number (clock c log) (Slab.chunks c frames samples),
        q.nextFrame ≤ f.position ∧ f.position < q.nextFrame + frames := by
      intro f hf
      have := le_of_mem_number hf
      rwa [Slab.length_chunks, h.clock_eq] at this
    obtain ⟨flushed, hf, hcov⟩ := h.conveys
    refine ⟨hw, h₁.trans h.channels_eq, ?_, ⟨flushed, ?_, ?_⟩, ?_, ?_, ?_, ?_, ?_⟩
    · rw [clock_snoc, h₃, ← h.clock_eq]; rfl
    · rw [ha, hd, hq]; exact hf.enter _
    · intro f hf; exact (hcov f hf).snoc _
    · rw [ha, List.pairwise_append]
      refine ⟨h.ascending, number_ascending, ?_⟩
      intro f hf g hg
      exact lt_of_lt_of_le (h.below f hf) (hnew g hg).1
    · rw [ha, h₃]
      intro f hf
      rcases List.mem_append.mp hf with hf | hf
      · have := h.below f hf; omega
      · exact (hnew f hf).2
    · rw [h₄, hd]; exact h.expected
    · have := h.flush_le; omega
    · rw [ha, h₂]
      intro f hf hlt
      rcases List.mem_append.mp hf with hf | hf
      · exact (h.covered f hf hlt).snoc _
      · have := (hnew f hf).1
        have := h.flush_le
        omega

theorem Accounted.discard (h : Accounted capacity c log q) {frames : ℕ}
    {result : Except AudioError Unit} (hd : PcmQueue.discard frames q = (result, q')) :
    Accounted capacity c (log ++ [.discard frames result]) q' := by
  rcases discard_spec hd with ⟨error, rfl, rfl⟩ | ⟨rfl, discarded, rfl⟩
  · exact h.idle _ rfl rfl
  · have ha : accepted c (log ++ [.discard frames (.ok ())]) = accepted c log := by
      rw [accepted_snoc]; rfl
    have hde : delivered c (log ++ [.discard frames (.ok ())]) = delivered c log := by
      rw [delivered_snoc]; exact List.append_nil _
    obtain ⟨flushed, hf, hcov⟩ := h.conveys
    refine ⟨?_, h.channels_eq, ?_, ⟨flushed, ?_, ?_⟩, ?_, ?_, ?_, ?_, ?_⟩
    · exact ⟨h.wf.slots_eq, h.wf.channels_pos, h.wf.head_lt, h.wf.tail_lt, h.wf.samples_length,
        h.wf.positions_length⟩
    · rw [clock_snoc, ← h.clock_eq]; rfl
    · rw [ha, hde]; exact hf
    · intro f hf; exact (hcov f hf).snoc _
    · rw [ha]; exact h.ascending
    · rw [ha]
      intro f hf
      have := h.below f hf
      change f.position < q.nextFrame + frames
      omega
    · rw [hde]; exact h.expected
    · have := h.flush_le
      change q.flushBefore ≤ q.nextFrame + frames
      omega
    · rw [ha]
      intro f hf hlt
      exact (h.covered f hf hlt).snoc _

theorem covered_now (hl : Flushes label) {f : Frame} (hf : f ∈ accepted c log) :
    Covered c (log ++ [label]) f :=
  ⟨log, label, [], rfl, hl, hf⟩

theorem Accounted.flush (h : Accounted capacity c log q) {result : Except AudioError Unit}
    (hd : flush q = (result, q')) : Accounted capacity c (log ++ [.flush result]) q' := by
  rcases flush_spec hd with ⟨error, rfl, rfl⟩ | ⟨rfl, rfl⟩
  · exact h.idle _ rfl rfl
  · have hi := h.idle (.flush (.ok ())) rfl rfl
    have ha : accepted c (log ++ [.flush (.ok ())]) = accepted c log := by
      rw [accepted_snoc]; rfl
    refine ⟨?_, hi.channels_eq, hi.clock_eq, hi.conveys, hi.ascending, hi.below, hi.expected,
      le_rfl, ?_⟩
    · exact ⟨h.wf.slots_eq, h.wf.channels_pos, h.wf.head_lt, h.wf.tail_lt, h.wf.samples_length,
        h.wf.positions_length⟩
    · intro f hf _
      rw [ha] at hf
      exact covered_now (.inl rfl) hf

theorem Accounted.consumerFlush (h : Accounted capacity c log q)
    {result : Except AudioError Unit} (hd : consumerFlush q = (result, q')) :
    Accounted capacity c (log ++ [.consumerFlush result]) q' := by
  rcases consumerFlush_spec hd with ⟨error, rfl, rfl⟩ | ⟨rfl, rfl⟩
  · exact h.idle _ rfl rfl
  · have hi := h.idle (.consumerFlush (.ok ())) rfl rfl
    have ha : accepted c (log ++ [.consumerFlush (.ok ())]) = accepted c log := by
      rw [accepted_snoc]; rfl
    have hnil : queued { q with tail := q.head } = [] := RingBuffer.items_self h.wf.head_lt
    obtain ⟨flushed, hf, hcov⟩ := hi.conveys
    refine ⟨?_, hi.channels_eq, hi.clock_eq, ⟨flushed ++ queued q, ?_, ?_⟩, hi.ascending, hi.below,
      hi.expected, hi.flush_le, hi.covered⟩
    · exact ⟨h.wf.slots_eq, h.wf.channels_pos, h.wf.head_lt, h.wf.head_lt, h.wf.samples_length,
        h.wf.positions_length⟩
    · rw [hnil]
      refine Conveys.drop ?_
      rwa [List.append_nil]
    · intro f hfm
      rcases List.mem_append.mp hfm with hfm | hfm
      · exact hcov f hfm
      · refine covered_now (.inr rfl) ?_
        rw [← ha]
        exact hf.queued_suffix.subset hfm

theorem endOf_append {frames : List Frame} {position : ℕ} {taken : List (List Int16)}
    (h : taken = [] → position = endOf frames) :
    endOf (frames ++ number position taken) = position + taken.length := by
  cases taken with
  | nil =>
    simp only [number, List.append_nil, List.length_nil, Nat.add_zero]
    exact (h rfl).symm
  | cons samples rest =>
    rw [endOf_append_number, List.length_cons, Nat.add_assoc]

theorem Accounted.read (h : Accounted capacity c log q) {dest : List Int16}
    {result : Except AudioError (PcmRead × List Int16)}
    (hd : PcmQueue.read dest q = (result, q')) :
    Accounted capacity c (log ++ [.read dest result]) q' := by
  rcases read_spec h.wf hd with ⟨error, rfl, rfl⟩ |
    ⟨r, dest', taken, tail, skipped, rfl, _, hw, hq, ht, hnum, hw', hsame⟩
  · exact h.idle _ rfl rfl
  · have hseg : segment c (.read dest (.ok (r, dest'))) = number r.firstFrame taken := by
      have hc : c = q.channels := h.channels_eq.symm
      rw [hc]
      exact hnum
    have ha : accepted c (log ++ [.read dest (.ok (r, dest'))]) = accepted c log := by
      rw [accepted_snoc]; rfl
    have hde : delivered c (log ++ [.read dest (.ok (r, dest'))]) =
        delivered c log ++ number r.firstFrame taken := by
      rw [delivered_snoc, hseg]
    -- what the skip loop drops is covered by the producer's last flush
    let dropped := (queued q).takeWhile (·.position < q.flushBefore)
    have hsplit : queued q = dropped ++ (number r.firstFrame taken ++ queued q') := by
      rw [← ht.queued_eq, hq]
      exact List.takeWhile_append_dropWhile.symm
    obtain ⟨flushed, hf, hcov⟩ := h.conveys
    have hnext : q'.nextFrame = q.nextFrame := by rw [hsame]
    have hflush : q'.flushBefore = q.flushBefore := by rw [hsame]
    have hchan : q'.channels = q.channels := by rw [hsame]
    refine ⟨hw', hchan.trans h.channels_eq, ?_, ⟨flushed ++ dropped, ?_, ?_⟩, ?_, ?_, ?_, ?_, ?_⟩
    · rw [clock_snoc, hnext, ← h.clock_eq]; rfl
    · rw [ha, hde]
      rw [hsplit] at hf
      exact hf.drop.deliver
    · intro f hfm
      rcases List.mem_append.mp hfm with hfm | hfm
      · exact (hcov f hfm).snoc _
      · have hlt : f.position < q.flushBefore := by
          have := List.mem_takeWhile_imp hfm
          rwa [decide_eq_true_eq] at this
        have hmem : f ∈ queued q := (List.takeWhile_sublist _).subset hfm
        exact (h.covered f (hf.queued_suffix.subset hmem) hlt).snoc _
    · rw [ha]; exact h.ascending
    · rw [ha, hnext]; exact h.below
    · rw [hde, endOf_append, ht.expected_eq]
      intro hnil
      exact (ht.idle hnil).trans h.expected
    · rw [hflush, hnext]; exact h.flush_le
    · rw [ha, hflush]
      intro f hf hlt
      exact (h.covered f hf hlt).snoc _

theorem Accounted.close (h : Accounted capacity c log q) :
    Accounted capacity c (log ++ [.close]) (close q) := by
  have hi := h.idle .close rfl rfl
  refine ⟨?_, hi.channels_eq, hi.clock_eq, hi.conveys, hi.ascending, hi.below, hi.expected,
    hi.flush_le, hi.covered⟩
  exact ⟨h.wf.slots_eq, h.wf.channels_pos, h.wf.head_lt, h.wf.tail_lt, h.wf.samples_length,
    h.wf.positions_length⟩

theorem step_accounted (h : Accounted capacity c log q) (st : Step q label q') :
    Accounted capacity c (log ++ [label]) q' := by
  cases label with
  | push samples result => exact h.push st
  | discard frames result => exact h.discard st
  | flush result => exact h.flush st
  | read dest result => exact h.read st
  | consumerFlush result => exact h.consumerFlush st
  | close =>
    obtain rfl : q' = PcmQueue.close q := st
    exact h.close

theorem run_accounted {format : PcmFormat} {q₀ : Queue} (h₀ : pcmQueue format capacity = .ok q₀)
    (h : Run Step q₀ log q) : Accounted capacity format.channels.length log q := by
  induction h with
  | nil =>
    obtain ⟨hw, hc, hq, hn, he, hf⟩ := initial_spec h₀
    refine ⟨hw, hc, hn.symm, ⟨[], ?_, by simp⟩, List.Pairwise.nil, by simp [accepted], he,
      by simp [hf], by simp [accepted]⟩
    rw [hq]
    exact conveys_nil
  | snoc _ st ih => exact step_accounted ih st

theorem run_format {format : PcmFormat} {q₀ : Queue} (h₀ : pcmQueue format capacity = .ok q₀)
    (h : Run Step q₀ log q) : q.format = format := by
  induction h with
  | nil =>
    unfold pcmQueue at h₀
    split at h₀
    · rw [← Except.ok.inj h₀]
    · cases h₀
  | snoc hr st ih => exact (step_format (run_accounted h₀ hr).wf st).trans ih

end Accounting

/-- The account of a queue of `capacity` frames of `c` channels after a log of operations. -/
structure FramesAccounted (capacity c : ℕ) (log : List Label) (q : Queue) : Prop where
  in_order : (delivered c log).Sublist (accepted c log)
  /-- No two accepted frames share a position, so none is delivered twice. -/
  distinct : (accepted c log).Pairwise (·.position < ·.position)
  balance : ∃ flushed, Conveys (accepted c log) (delivered c log) flushed (queued q) ∧
    (accepted c log).length = (delivered c log).length + flushed.length + q.queuedFrames ∧
    ∀ f ∈ flushed, Covered c log f
  missing : ∀ f ∈ accepted c log, f ∉ delivered c log → f ∉ queued q → Covered c log f
  bounded : q.queuedFrames ≤ capacity
  unread_kept : ∀ samples result q', push samples q = (result, q') → queued q <+: queued q'
  discontinuity : ∀ before dest r dest' after,
    log = before ++ .read dest (.ok (r, dest')) :: after →
      (r.discontinuity = true ↔ r.firstFrame ≠ endOf (delivered c before))
  /-- One read takes adjacent frames with adjacent positions. -/
  no_gap : ∀ before dest r dest' after, log = before ++ .read dest (.ok (r, dest')) :: after →
    number r.firstFrame (Slab.chunks c r.frames dest') <:+: accepted c before

theorem read_step {capacity c : ℕ} {before : List Label} {q q' : Queue} {dest dest' : List Int16}
    {r : PcmRead} (h : Accounted capacity c before q)
    (hd : PcmQueue.read dest q = (.ok (r, dest'), q')) :
    (r.discontinuity = true ↔ r.firstFrame ≠ endOf (delivered c before)) ∧
      number r.firstFrame (Slab.chunks c r.frames dest') <:+: accepted c before := by
  rcases read_spec h.wf hd with ⟨error, he, _⟩ |
    ⟨r', dest'', taken, tail, skipped, he, _, _, hq, ht, hnum, _, _⟩
  · cases he
  · obtain ⟨rfl, rfl⟩ := Prod.mk.inj (Except.ok.inj he)
    refine ⟨?_, ?_⟩
    · rw [← h.expected]
      exact ht.discontinuity
    · rw [← h.channels_eq]
      obtain ⟨flushed, hf, _⟩ := h.conveys
      have hpre : number r.firstFrame taken <+: (queued q).dropWhile (·.position < q.flushBefore) := by
        rw [← hq, ht.queued_eq]
        exact List.prefix_append _ _
      rw [hnum, h.channels_eq]
      exact (hpre.isInfix.trans (List.dropWhile_suffix _).isInfix).trans hf.queued_suffix.isInfix

/-- Every frame a queue accepted is delivered once and in order, flushed, or still queued. -/
theorem frames_accounted {format : PcmFormat} {capacity : ℕ} {log : List Label} {q₀ q : Queue}
    (h₀ : pcmQueue format capacity = .ok q₀) (h : Run Step q₀ log q) :
    FramesAccounted capacity format.channels.length log q := by
  have ha := run_accounted h₀ h
  obtain ⟨flushed, hf, hcov⟩ := ha.conveys
  constructor
  · exact hf.delivered_sublist
  · exact ha.ascending
  · refine ⟨flushed, hf, ?_, hcov⟩
    rw [queuedFrames_eq]
    exact hf.length_eq
  · intro f hmem hnd hnq
    rcases hf.mem hmem with hd | hfl | hq
    · exact absurd hd hnd
    · exact hcov f hfl
    · exact absurd hq hnq
  · have hlt := ha.wf.queued_lt
    have hs := ha.wf.slots_eq
    rw [queuedFrames_eq]
    omega
  · intro samples result q' hp
    rcases push_spec ha.wf hp with ⟨error, _, rfl⟩ | ⟨frames, _, _, hq, _⟩
    · exact List.prefix_rfl
    · rw [hq]
      exact List.prefix_append _ _
  · intro before dest r dest' after hlog
    rw [hlog] at h
    obtain ⟨p, hp, h⟩ := run_append.mp h
    obtain ⟨p', hp', _⟩ := run_cons.mp h
    exact (read_step (run_accounted h₀ hp) hp').1
  · intro before dest r dest' after hlog
    rw [hlog] at h
    obtain ⟨p, hp, h⟩ := run_append.mp h
    obtain ⟨p', hp', _⟩ := run_cons.mp h
    exact (read_step (run_accounted h₀ hp) hp').2

def microphone : PcmFormat := ⟨48000, [.microphone], by decide⟩

/-- A ring of two frames that wraps, is flushed, and is read across the gap. -/
def wrapped : List Label :=
  [.push [1, 2, 3] (.ok 2), .read [0] (.ok (⟨1, 0, false⟩, [1])), .push [3] (.ok 1),
    .flush (.ok ()), .discard 4 (.ok ()), .read [0, 0] (.ok (⟨0, 1, false⟩, [0, 0])),
    .push [8] (.ok 1), .read [0, 0] (.ok (⟨1, 7, true⟩, [8, 0]))]

theorem frames_accounted_wrapped : ∃ q, FramesAccounted 2 1 wrapped q := by
  obtain ⟨q₀, hq, q, hr⟩ : ∃ q₀, pcmQueue microphone 2 = .ok q₀ ∧ ∃ q, Run Step q₀ wrapped q := by
    exact ⟨_, rfl, _, run_cons.mpr ⟨_, rfl, run_cons.mpr ⟨_, rfl, run_cons.mpr ⟨_, rfl,
      run_cons.mpr ⟨_, rfl, run_cons.mpr ⟨_, rfl, run_cons.mpr ⟨_, rfl, run_cons.mpr ⟨_, rfl,
      run_cons.mpr ⟨_, rfl, .nil⟩⟩⟩⟩⟩⟩⟩⟩⟩
  exact ⟨q, frames_accounted hq hr⟩

end PcmQueueDelivery
