import VirtualGamepad.Fallible
import VirtualGamepad.MachineInt
import VirtualGamepad.RingBuffer

/-! The preallocated FIFO of encoded replies in front of the socket. A partial write resumes at
its exact byte offset. The bytes handed to the writer are kept in a ghost list. -/
namespace UsbipCompletionQueue

open Fallible MachineInt

inductive ErrorKind where
  | unexpectedEof
  | invalidData
  | timedOut
  | writeZero
  | brokenPipe
  | connectionReset
  | other
  deriving DecidableEq, Repr

structure IoError where
  kind : ErrorKind
  text : String
  deriving DecidableEq, Repr

/-- What one write did; a socket never takes more than it was given. -/
inductive Written where
  | taken (n : ℕ)
  | wouldBlock
  | interrupted
  | failed (error : IoError)
  deriving DecidableEq, Repr

structure Frame where
  bytes : List UInt8
  written : ℕ
  deadline : ℕ
  deriving DecidableEq, Repr

structure CompletionQueue where
  frames : List Frame
  maxBytes : ℕ
  head : ℕ
  count : ℕ
  deriving DecidableEq, Repr

namespace CompletionQueue

def new (capacity maxBytes : ℕ) : CompletionQueue :=
  ⟨List.replicate capacity ⟨[], 0, 0⟩, maxBytes, 0, 0⟩

def frame (q : CompletionQueue) (i : ℕ) : Frame := q.frames.getD i ⟨[], 0, 0⟩

def isEmpty (q : CompletionQueue) : Bool := q.count = 0

def deadline (q : CompletionQueue) : Option ℕ :=
  if q.isEmpty then none else some (q.frame q.head).deadline

/-- The bytes of the oldest frame that are still to be written. -/
def rest (q : CompletionQueue) : List UInt8 := (q.frame q.head).bytes.drop (q.frame q.head).written

/-- `n` bytes of the oldest frame were written; a finished frame leaves. -/
def advance (q : CompletionQueue) (n : ℕ) : CompletionQueue :=
  let frame := q.frame q.head
  let frames := q.frames.set q.head { frame with written := frame.written + n }
  if frame.written + n = frame.bytes.length then
    { q with frames, head := RingBuffer.next frames.length q.head, count := q.count - 1 }
  else { q with frames }

end CompletionQueue

def push (bytes : List UInt8) (now : ℕ) : Action IoError CompletionQueue Unit := fun q =>
  if q.count = q.frames.length then
    (.error ⟨.other, "USB completion quota exhausted"⟩, q)
  else
    let next := (q.head + q.count) % q.frames.length
    if bytes = [] ∨ q.maxBytes < bytes.length then
      (.error ⟨.invalidData, "invalid USB completion size"⟩, q)
    else
      match checkedAdd now 1000000 with
      | none => (.error ⟨.other, "USB completion clock exhausted"⟩, q)
      | some deadline =>
        (.ok (), { q with frames := q.frames.set next ⟨bytes, 0, deadline⟩, count := q.count + 1 })

/-- The queue, its writer and what the writer took so far. -/
structure Outlet (W : Type) where
  queue : CompletionQueue
  writer : W
  sent : List UInt8

section Flush

variable {W : Type} (write : W → List UInt8 → Written × W)

/-- One turn; whether the loop goes on. -/
def flushTurn (now : ℕ) : Action IoError (Outlet W) Bool := fun o =>
  let q := o.queue
  if q.isEmpty then (.ok false, o)
  else
    if (q.frame q.head).deadline ≤ now then
      (.error ⟨.timedOut, "USB completion delivery deadline"⟩, o)
    else
      match write o.writer q.rest with
      | (.wouldBlock, writer) | (.interrupted, writer) => (.ok false, { o with writer })
      | (.failed error, writer) => (.error error, { o with writer })
      | (.taken n, writer) =>
        let n := min n q.rest.length
        if n = 0 then (.error ⟨.writeZero, "write zero"⟩, { o with writer })
        else (.ok true, ⟨q.advance n, writer, o.sent ++ q.rest.take n⟩)

/-- A hostile writer cannot spin for ever on tiny writes. -/
def flushTurns (now : ℕ) : ℕ → Action IoError (Outlet W) Unit
  | 0 => pure ()
  | turns + 1 => do
    let more ← flushTurn write now
    if more then flushTurns now turns else pure ()

def flush (now : ℕ) : Action IoError (Outlet W) Unit := flushTurns write now 64

end Flush

namespace CompletionQueue

structure Valid (q : CompletionQueue) : Prop where
  head_lt : q.head < q.frames.length
  count_le : q.count ≤ q.frames.length

/-- The frames in the queue, oldest first. -/
def items (q : CompletionQueue) : List Frame :=
  RingBuffer.contents q.frame q.frames.length q.head q.count

/-- What is still to be written. -/
def unsent (q : CompletionQueue) : List UInt8 :=
  q.items.flatMap fun f => f.bytes.drop f.written

variable {q q' : CompletionQueue} {bytes : List UInt8} {now : ℕ}

theorem new_valid {capacity maxBytes : ℕ} (h : 0 < capacity) : (new capacity maxBytes).Valid :=
  ⟨by simpa [new] using h, Nat.zero_le _⟩

@[simp] theorem new_unsent (capacity maxBytes : ℕ) : (new capacity maxBytes).unsent = [] := rfl

theorem getD_set_self {frames : List Frame} {i : ℕ} {f : Frame} (h : i < frames.length) :
    (frames.set i f).getD i ⟨[], 0, 0⟩ = f := by
  rw [List.getD_eq_getElem?_getD, List.getElem?_set_self h]
  rfl

theorem getD_set_ne {frames : List Frame} {i j : ℕ} {f : Frame} (h : i ≠ j) :
    (frames.set i f).getD j ⟨[], 0, 0⟩ = frames.getD j ⟨[], 0, 0⟩ := by
  rw [List.getD_eq_getElem?_getD, List.getD_eq_getElem?_getD, List.getElem?_set_ne h]

/-- A new frame goes behind the others. -/
theorem items_insert (hv : q.Valid) (hlt : q.count < q.frames.length) (f : Frame) :
    ({ q with
        frames := q.frames.set ((q.head + q.count) % q.frames.length) f
        count := q.count + 1 } : CompletionQueue).items = q.items ++ [f] := by
  have hpos : 0 < q.frames.length := by omega
  have hnext : (q.head + q.count) % q.frames.length < q.frames.length := Nat.mod_lt _ hpos
  unfold items
  dsimp only
  rw [List.length_set, RingBuffer.contents_snoc hv.head_lt]
  congr 1
  · apply RingBuffer.contents_congr _ hv.head_lt
    intro i hi
    exact getD_set_ne (RingBuffer.slot_ne q.head hi hlt).symm
  · rw [frame, getD_set_self hnext]

/-- A refused push changes nothing, an accepted one queues its frame. -/
theorem push_cases {result : Except IoError Unit} (hv : q.Valid)
    (h : push bytes now q = (result, q')) :
    (∃ error, result = .error error ∧ q' = q) ∨
      (result = .ok () ∧ bytes ≠ [] ∧ q'.Valid ∧ q'.items = q.items ++ [⟨bytes, 0, now + 1000000⟩] ∧
        q'.frames.length = q.frames.length ∧ q'.maxBytes = q.maxBytes) := by
  unfold push at h
  split at h
  · obtain ⟨rfl, rfl⟩ := Prod.mk.inj h
    exact .inl ⟨_, rfl, rfl⟩
  · next hfull =>
    dsimp only at h
    split at h
    · obtain ⟨rfl, rfl⟩ := Prod.mk.inj h
      exact .inl ⟨_, rfl, rfl⟩
    · next hsize =>
      cases hd : checkedAdd now 1000000 with
      | none =>
        rw [hd] at h
        obtain ⟨rfl, rfl⟩ := Prod.mk.inj h
        exact .inl ⟨_, rfl, rfl⟩
      | some deadline =>
        rw [hd] at h
        obtain ⟨rfl, rfl⟩ := Prod.mk.inj h
        obtain ⟨rfl, _⟩ := checkedAdd_eq_some.mp hd
        have hle := hv.count_le
        have hlt : q.count < q.frames.length := Nat.lt_of_le_of_ne hle hfull
        refine .inr ⟨rfl, (not_or.mp hsize).1, ⟨?_, ?_⟩, items_insert hv hlt _, ?_, rfl⟩
        · rw [List.length_set]
          exact hv.head_lt
        · rw [List.length_set]
          exact hlt
        · exact List.length_set

theorem push_spec {result : Except IoError Unit} (hv : q.Valid)
    (h : push bytes now q = (result, q')) :
    (∃ error, result = .error error ∧ q' = q) ∨
      (result = .ok () ∧ q'.Valid ∧ q'.unsent = q.unsent ++ bytes) := by
  rcases push_cases hv h with hrefused | ⟨hok, _, hv', hitems, _, _⟩
  · exact .inl hrefused
  · refine .inr ⟨hok, hv', ?_⟩
    unfold unsent
    rw [hitems, List.flatMap_append, List.flatMap_singleton]
    rfl

/-- The frames behind the oldest. -/
def behind (q : CompletionQueue) : List Frame :=
  RingBuffer.contents q.frame q.frames.length (RingBuffer.next q.frames.length q.head) (q.count - 1)

theorem items_cons (hc : q.count ≠ 0) : q.items = q.frame q.head :: q.behind := by
  obtain ⟨n, hn⟩ := Nat.exists_eq_succ_of_ne_zero hc
  unfold items behind
  rw [hn]
  rfl

theorem unsent_cons (hc : q.count ≠ 0) :
    q.unsent = q.rest ++ q.behind.flatMap fun f => f.bytes.drop f.written := by
  unfold unsent
  rw [items_cons hc]
  rfl

/-- The frames behind the oldest do not see it being written. -/
theorem contents_behind (hv : q.Valid) (f : Frame) :
    RingBuffer.contents (fun i => (q.frames.set q.head f).getD i ⟨[], 0, 0⟩) q.frames.length
        (RingBuffer.next q.frames.length q.head) (q.count - 1) = q.behind := by
  have hlt := hv.head_lt
  have hle := hv.count_le
  have hpos : 0 < q.frames.length := by omega
  apply RingBuffer.contents_congr _ (RingBuffer.next_lt hpos _)
  intro i hi
  have hne := RingBuffer.slot_ne q.head (Nat.zero_lt_succ i) (show i + 1 < q.frames.length by omega)
  rw [Nat.add_zero, Nat.mod_eq_of_lt hlt, ← RingBuffer.next_add] at hne
  exact getD_set_ne hne

theorem advance_valid (hv : q.Valid) (n : ℕ) : (q.advance n).Valid := by
  have hlt := hv.head_lt
  have hle := hv.count_le
  have hslots : 0 < q.frames.length := by omega
  unfold advance
  dsimp only
  split
  · constructor
    · rw [List.length_set]
      exact RingBuffer.next_lt hslots _
    · rw [List.length_set]
      dsimp only
      omega
  · constructor
    · rw [List.length_set]
      exact hlt
    · rw [List.length_set]
      exact hle

/-- The oldest frame is written further, and leaves when it is finished. -/
theorem items_advance (hv : q.Valid) (hc : q.count ≠ 0) (n : ℕ) :
    (q.advance n).items =
      if (q.frame q.head).written + n = (q.frame q.head).bytes.length then q.behind
      else { q.frame q.head with written := (q.frame q.head).written + n } :: q.behind := by
  unfold advance
  dsimp only
  split
  · unfold items frame
    dsimp only
    rw [List.length_set]
    exact contents_behind hv _
  · rw [items_cons (by exact hc)]
    unfold behind frame
    dsimp only
    rw [List.length_set, getD_set_self hv.head_lt]
    exact congrArg _ (contents_behind hv _)

theorem advance_spec (hv : q.Valid) (hc : q.count ≠ 0) (n : ℕ) :
    (q.advance n).Valid ∧ q.rest.take n ++ (q.advance n).unsent = q.unsent := by
  refine ⟨advance_valid hv n, ?_⟩
  have hrest : q.rest.length = (q.frame q.head).bytes.length - (q.frame q.head).written := by
    rw [rest, List.length_drop]
  rw [unsent_cons hc]
  unfold unsent
  rw [items_advance hv hc]
  split
  · rw [List.take_of_length_le (by omega)]
  · rw [List.flatMap_cons, ← List.append_assoc, ← List.drop_drop]
    exact congrArg (· ++ _) (List.take_append_drop n q.rest)

section Conservation

variable {W : Type} {write : W → List UInt8 → Written × W} {o o' : Outlet W}

/-- What was written and what is still to be written always make the same stream. -/
def Conserves (o o' : Outlet W) : Prop :=
  o'.queue.Valid ∧ o'.sent ++ o'.queue.unsent = o.sent ++ o.queue.unsent

/-- A turn writes nothing, or the next bytes of the oldest frame. -/
theorem flushTurn_cases {result : Except IoError Bool} (h : flushTurn write now o = (result, o')) :
    (o'.queue = o.queue ∧ o'.sent = o.sent) ∨
      (o.queue.count ≠ 0 ∧ ∃ n ≤ o.queue.rest.length, o'.queue = o.queue.advance n ∧
        o'.sent = o.sent ++ o.queue.rest.take n) := by
  unfold flushTurn at h
  dsimp only at h
  split at h
  · obtain ⟨rfl, rfl⟩ := Prod.mk.inj h
    exact .inl ⟨rfl, rfl⟩
  · next hempty =>
    have hc : o.queue.count ≠ 0 := by simpa [isEmpty] using hempty
    split at h
    · obtain ⟨rfl, rfl⟩ := Prod.mk.inj h
      exact .inl ⟨rfl, rfl⟩
    · rcases hw : write o.writer o.queue.rest with ⟨outcome, writer⟩
      rw [hw] at h
      cases outcome with
      | wouldBlock =>
        obtain ⟨rfl, rfl⟩ := Prod.mk.inj h
        exact .inl ⟨rfl, rfl⟩
      | interrupted =>
        obtain ⟨rfl, rfl⟩ := Prod.mk.inj h
        exact .inl ⟨rfl, rfl⟩
      | failed error =>
        obtain ⟨rfl, rfl⟩ := Prod.mk.inj h
        exact .inl ⟨rfl, rfl⟩
      | taken n =>
        dsimp only at h
        split at h
        · obtain ⟨rfl, rfl⟩ := Prod.mk.inj h
          exact .inl ⟨rfl, rfl⟩
        · obtain ⟨rfl, rfl⟩ := Prod.mk.inj h
          exact .inr ⟨hc, _, Nat.min_le_right _ _, rfl, rfl⟩

theorem flushTurn_conserves {result : Except IoError Bool} (hv : o.queue.Valid)
    (h : flushTurn write now o = (result, o')) : Conserves o o' := by
  unfold Conserves
  rcases flushTurn_cases h with ⟨hqueue, hsent⟩ | ⟨hc, n, _, hqueue, hsent⟩
  · rw [hqueue, hsent]
    exact ⟨hv, rfl⟩
  · obtain ⟨hv', hs⟩ := advance_spec hv hc n
    rw [hqueue, hsent, List.append_assoc, hs]
    exact ⟨hv', rfl⟩

/-- What each turn of a flush keeps, the flush keeps. -/
theorem flushTurns_induction {P : Outlet W → Prop} {turns : ℕ} {result : Except IoError Unit}
    (hturn : ∀ o o' result, P o → flushTurn write now o = (result, o') → P o') (ho : P o)
    (h : flushTurns write now turns o = (result, o')) : P o' := by
  induction turns generalizing o with
  | zero =>
    obtain ⟨rfl, rfl⟩ := Prod.mk.inj h
    exact ho
  | succ turns ih =>
    rw [flushTurns] at h
    rcases ht : flushTurn write now o with ⟨result | more, o₁⟩
    · rw [bind_run_error ht] at h
      obtain ⟨rfl, rfl⟩ := Prod.mk.inj h
      exact hturn _ _ _ ho ht
    · rw [bind_run_ok ht] at h
      have ho₁ := hturn _ _ _ ho ht
      cases more with
      | false =>
        obtain ⟨rfl, rfl⟩ := Prod.mk.inj h
        exact ho₁
      | true => exact ih ho₁ h

theorem flushTurns_conserves {turns : ℕ} {result : Except IoError Unit} (hv : o.queue.Valid)
    (h : flushTurns write now turns o = (result, o')) : Conserves o o' := by
  refine flushTurns_induction (P := Conserves o) (fun o₁ o₂ _ h₁ ht => ?_) ⟨hv, rfl⟩ h
  obtain ⟨hv₂, hs₂⟩ := flushTurn_conserves h₁.1 ht
  exact ⟨hv₂, hs₂.trans h₁.2⟩

end Conservation

end CompletionQueue

end UsbipCompletionQueue
