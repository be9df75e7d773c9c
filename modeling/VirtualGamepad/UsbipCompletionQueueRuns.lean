import VirtualGamepad.UsbipCompletionQueue
import Mathlib.Data.List.Forall2
import Mathlib.Data.List.Induction

/-! The completion queue over whole runs of pushes and flushes, against every writer: its bytes are
those of the accepted frames in order, and a frame keeps the deadline it was pushed with. -/
namespace UsbipCompletionQueueRuns

open Fallible MachineInt UsbipCompletionQueue CompletionQueue

section Runs

inductive Call where
  | push (bytes : List UInt8) (now : ℕ)
  | flush (now : ℕ)

/-- The outlet with the frames it accepted and their times, in order. -/
structure Delivery (W : Type) where
  outlet : Outlet W
  accepted : List (List UInt8 × ℕ)

variable {W : Type}

def Delivery.new (capacity maxBytes : ℕ) (writer : W) : Delivery W :=
  ⟨⟨.new capacity maxBytes, writer, []⟩, []⟩

def Delivery.call (write : W → List UInt8 → Written × W) (d : Delivery W) : Call → Delivery W
  | .push bytes now =>
    match push bytes now d.outlet.queue with
    | (.ok (), queue) => ⟨{ d.outlet with queue }, d.accepted ++ [(bytes, now)]⟩
    | (.error _, queue) => { d with outlet := { d.outlet with queue } }
  | .flush now => { d with outlet := (flush write now d.outlet).2 }

def Delivery.run (write : W → List UInt8 → Written × W) (d : Delivery W) (calls : List Call) :
    Delivery W := calls.foldl (Delivery.call write) d

end Runs

section Carries

/-- The part of the oldest frame that was written. -/
def begun : List Frame → List UInt8
  | [] => []
  | f :: _ => f.bytes.take f.written

/-- A frame and when it was pushed. -/
def Pushed (f : Frame) (entry : List UInt8 × ℕ) : Prop :=
  f.bytes = entry.1 ∧ f.deadline = entry.2 + 1000000

/-- Frames behind the ones that were written in full: only the oldest has been begun. -/
structure Carries (items : List Frame) (sent : List UInt8)
    (done pending : List (List UInt8 × ℕ)) : Prop where
  pending : List.Forall₂ Pushed items pending
  sent : sent = (done.map Prod.fst).flatten ++ begun items
  unfinished : ∀ f ∈ items, f.written < f.bytes.length
  untouched : ∀ f ∈ items.tail, f.written = 0

variable {items rest : List Frame} {f : Frame} {sent bytes : List UInt8} {now n : ℕ}
variable {done pending : List (List UInt8 × ℕ)}

theorem begun_untouched (h : ∀ f ∈ items, f.written = 0) : begun items = [] := by
  cases items with
  | nil => rfl
  | cons f rest =>
    have hzero := h f (List.mem_cons_self ..)
    simp [begun, hzero]

theorem Carries.push (h : Carries items sent done pending) (hbytes : bytes ≠ []) :
    Carries (items ++ [⟨bytes, 0, now + 1000000⟩]) sent done (pending ++ [(bytes, now)]) := by
  have hpos : 0 < bytes.length := List.length_pos_iff.mpr hbytes
  constructor
  · exact List.rel_append h.pending (.cons ⟨rfl, rfl⟩ .nil)
  · rw [h.sent]
    cases items with
    | nil => rfl
    | cons f rest => rfl
  · intro f hf
    rcases List.mem_append.mp hf with hf | hf
    · exact h.unfinished f hf
    · rw [List.mem_singleton.mp hf]
      exact hpos
  · intro f hf
    cases items with
    | nil => nomatch hf
    | cons first rest =>
      rcases List.mem_append.mp hf with hf | hf
      · exact h.untouched f hf
      · rw [List.mem_singleton.mp hf]

/-- The oldest frame is written further. -/
theorem Carries.advance (h : Carries (f :: rest) sent done pending)
    (hn : n ≤ f.bytes.length - f.written) :
    ∃ done' pending', done' ++ pending' = done ++ pending ∧
      Carries (if f.written + n = f.bytes.length then rest
        else { f with written := f.written + n } :: rest)
        (sent ++ (f.bytes.drop f.written).take n) done' pending' := by
  have hlt := h.unfinished f (List.mem_cons_self ..)
  have hwritten : f.bytes.take f.written ++ (f.bytes.drop f.written).take n =
      f.bytes.take (f.written + n) := List.take_add.symm
  have hsent : sent ++ (f.bytes.drop f.written).take n =
      (done.map Prod.fst).flatten ++ f.bytes.take (f.written + n) := by
    rw [h.sent, ← hwritten, List.append_assoc]
    rfl
  have hpending := h.pending
  by_cases hend : f.written + n = f.bytes.length
  · rw [if_pos hend, hsent]
    cases hpending with
    | @cons _ entry _ later hentry hlater =>
      refine ⟨done ++ [entry], later, List.append_assoc .., hlater, ?_, ?_, ?_⟩
      · rw [hend, List.take_length, @begun_untouched rest h.untouched, hentry.1]
        simp
      · exact fun g hg => h.unfinished g (List.mem_cons_of_mem _ hg)
      · exact fun g hg => h.untouched g (List.mem_of_mem_tail hg)
  · rw [if_neg hend, hsent]
    refine ⟨done, pending, rfl, ?_, rfl, ?_, h.untouched⟩
    · cases hpending with
      | cons hentry hlater => exact .cons hentry hlater
    · intro g hg
      rcases List.mem_cons.mp hg with rfl | hg
      · dsimp only
        omega
      · exact h.unfinished g (List.mem_cons_of_mem _ hg)

end Carries

section Faithful

variable {W : Type} {write : W → List UInt8 → Written × W} {d : Delivery W}
variable {capacity maxBytes now : ℕ}

/-- A queue of this size that carries the frames not yet written in full. -/
structure Faithful (capacity maxBytes : ℕ) (accepted : List (List UInt8 × ℕ)) (o : Outlet W) :
    Prop where
  valid : o.queue.Valid
  slots : o.queue.frames.length = capacity
  bound : o.queue.maxBytes = maxBytes
  carries : ∃ done pending, done ++ pending = accepted ∧
    Carries o.queue.items o.sent done pending

theorem faithful_new (hcapacity : 0 < capacity) (maxBytes : ℕ) (writer : W) :
    Faithful capacity maxBytes [] (Delivery.new capacity maxBytes writer).outlet :=
  ⟨new_valid hcapacity, List.length_replicate, rfl, [], [], rfl, .nil, rfl, nofun, nofun⟩

theorem faithful_turn {accepted : List (List UInt8 × ℕ)} {o o' : Outlet W}
    {result : Except IoError Bool} (h : Faithful capacity maxBytes accepted o)
    (hturn : flushTurn write now o = (result, o')) : Faithful capacity maxBytes accepted o' := by
  rcases flushTurn_cases hturn with ⟨hqueue, hsent⟩ | ⟨hcount, n, hn, hqueue, hsent⟩
  · refine ⟨hqueue ▸ h.valid, hqueue ▸ h.slots, hqueue ▸ h.bound, ?_⟩
    rw [hqueue, hsent]
    exact h.carries
  · obtain ⟨done, pending, hsplit, hcarries⟩ := h.carries
    rw [items_cons hcount] at hcarries
    have hrest : n ≤ (o.queue.frame o.queue.head).bytes.length -
        (o.queue.frame o.queue.head).written := by
      rw [← List.length_drop]
      exact hn
    obtain ⟨done', pending', hsplit', hcarries'⟩ := hcarries.advance hrest
    have hsize : (o.queue.advance n).frames.length = o.queue.frames.length ∧
        (o.queue.advance n).maxBytes = o.queue.maxBytes := by
      unfold advance
      dsimp only
      split
      · exact ⟨List.length_set, rfl⟩
      · exact ⟨List.length_set, rfl⟩
    refine ⟨hqueue ▸ advance_valid h.valid n, ?_, ?_, done', pending', hsplit'.trans hsplit, ?_⟩
    · rw [hqueue, hsize.1]
      exact h.slots
    · rw [hqueue, hsize.2]
      exact h.bound
    · rw [hqueue, hsent, items_advance h.valid hcount]
      exact hcarries'

theorem faithful_call (call : Call) (h : Faithful capacity maxBytes d.accepted d.outlet) :
    Faithful capacity maxBytes (d.call write call).accepted (d.call write call).outlet := by
  cases call with
  | push bytes now =>
    unfold Delivery.call
    rcases hpush : push bytes now d.outlet.queue with ⟨result, queue⟩
    rcases push_cases h.valid hpush with ⟨error, rfl, rfl⟩ | ⟨rfl, hbytes, hv, hitems, hslots, hbound⟩
    · simp only [hpush]
      exact h
    · obtain ⟨done, pending, hsplit, hcarries⟩ := h.carries
      simp only [hpush]
      refine ⟨hv, hslots.trans h.slots, hbound.trans h.bound, done, pending ++ [(bytes, now)], ?_, ?_⟩
      · rw [← hsplit, List.append_assoc]
      · rw [hitems]
        exact hcarries.push hbytes
  | flush now =>
    exact flushTurns_induction (fun _ _ _ ho hturn => faithful_turn ho hturn) h rfl

theorem faithful_run (hcapacity : 0 < capacity) (writer : W) (calls : List Call) :
    Faithful capacity maxBytes
      (((Delivery.new capacity maxBytes writer).run write calls).accepted)
      ((Delivery.new capacity maxBytes writer).run write calls).outlet := by
  induction calls using List.reverseRecOn with
  | nil => exact faithful_new hcapacity maxBytes writer
  | append_singleton calls call ih =>
    unfold Delivery.run
    rw [List.foldl_append]
    exact faithful_call call ih

end Faithful

section Delivered

variable {W : Type} {write : W → List UInt8 → Written × W} {capacity maxBytes : ℕ}

/-- What a delivery looks like from outside. -/
structure Delivered (write : W → List UInt8 → Written × W) (capacity maxBytes : ℕ)
    (d : Delivery W) : Prop where
  written : d.outlet.sent <+: (d.accepted.map Prod.fst).flatten
  drained : d.outlet.queue.isEmpty = true → d.outlet.sent = (d.accepted.map Prod.fst).flatten
  quota : ∀ bytes now, d.outlet.queue.count = capacity ∨ maxBytes < bytes.length →
    ∃ error, push bytes now d.outlet.queue = (.error error, d.outlet.queue)
  /-- The deadline is that of the oldest frame not written in full, from when it was pushed. -/
  deadline : ∀ deadline, d.outlet.queue.deadline = some deadline →
    ∃ done bytes time pending, d.accepted = done ++ (bytes, time) :: pending ∧
      deadline = time + 1000000 ∧
      ∃ n < bytes.length, d.outlet.sent = (done.map Prod.fst).flatten ++ bytes.take n
  expired : ∀ deadline now, d.outlet.queue.deadline = some deadline → deadline ≤ now →
    flush write now d.outlet = (.error ⟨.timedOut, "USB completion delivery deadline"⟩, d.outlet)

theorem push_refused {q : CompletionQueue} {bytes : List UInt8} (now : ℕ)
    (h : q.count = q.frames.length ∨ q.maxBytes < bytes.length) :
    ∃ error, push bytes now q = (.error error, q) := by
  unfold push
  by_cases hfull : q.count = q.frames.length
  · rw [if_pos hfull]
    exact ⟨_, rfl⟩
  · rw [if_neg hfull]
    dsimp only
    rw [if_pos (.inr (h.resolve_left hfull))]
    exact ⟨_, rfl⟩

theorem deadline_some {q : CompletionQueue} {deadline : ℕ} (h : q.deadline = some deadline) :
    q.count ≠ 0 ∧ (q.frame q.head).deadline = deadline := by
  unfold CompletionQueue.deadline at h
  split at h
  · cases h
  · next hempty =>
    refine ⟨?_, Option.some.inj h⟩
    simpa [isEmpty] using hempty

theorem flush_expired {o : Outlet W} {deadline now : ℕ} (h : o.queue.deadline = some deadline)
    (hnow : deadline ≤ now) :
    flush write now o = (.error ⟨.timedOut, "USB completion delivery deadline"⟩, o) := by
  obtain ⟨hcount, hdeadline⟩ := deadline_some h
  have hturn : flushTurn write now o =
      (.error ⟨.timedOut, "USB completion delivery deadline"⟩, o) := by
    unfold flushTurn
    have hnonempty : ¬o.queue.isEmpty = true := by simpa [isEmpty] using hcount
    dsimp only
    rw [if_neg hnonempty, if_pos (hdeadline ▸ hnow)]
  unfold flush flushTurns
  exact bind_run_error hturn

theorem flatten_of_pushed {items : List Frame} {pending : List (List UInt8 × ℕ)}
    (h : List.Forall₂ Pushed items pending) (hunbegun : ∀ f ∈ items.tail, f.written = 0) :
    begun items ++ items.flatMap (fun f => f.bytes.drop f.written) =
      (pending.map Prod.fst).flatten := by
  induction h with
  | nil => rfl
  | @cons f entry rest later hentry hlater ih =>
    have hrest := ih fun g hg => hunbegun g (List.mem_of_mem_tail hg)
    rw [@begun_untouched rest hunbegun, List.nil_append] at hrest
    rw [List.flatMap_cons, hrest, ← List.append_assoc]
    change f.bytes.take f.written ++ f.bytes.drop f.written ++ _ = _
    rw [List.take_append_drop, hentry.1]
    rfl

/-- After any calls, against any writer. -/
theorem delivers (write : W → List UInt8 → Written × W) (hcapacity : 0 < capacity) (maxBytes : ℕ)
    (writer : W) (calls : List Call) :
    Delivered write capacity maxBytes
      ((Delivery.new capacity maxBytes writer).run write calls) := by
  have hfaithful : Faithful capacity maxBytes _ _ := @faithful_run W write capacity maxBytes
    hcapacity writer calls
  obtain ⟨hvalid, hslots, hbound, done, pending, hsplit, hcarries⟩ := hfaithful
  generalize (Delivery.new capacity maxBytes writer).run write calls = d at *
  have hstream : d.outlet.sent ++ d.outlet.queue.unsent = (d.accepted.map Prod.fst).flatten := by
    rw [← hsplit, List.map_append, List.flatten_append, hcarries.sent, List.append_assoc]
    exact congrArg _ (flatten_of_pushed hcarries.pending hcarries.untouched)
  constructor
  · exact ⟨_, hstream⟩
  · intro hempty
    have hnone : d.outlet.queue.items = [] := by
      have hcount : d.outlet.queue.count = 0 := by simpa [isEmpty] using hempty
      unfold items
      rw [hcount]
      rfl
    rw [← hstream]
    unfold unsent
    rw [hnone, List.flatMap_nil, List.append_nil]
  · intro bytes now hquota
    rw [← hslots, ← hbound] at hquota
    exact push_refused now hquota
  · intro deadline hdeadline
    obtain ⟨hcount, hhead⟩ := deadline_some hdeadline
    rw [items_cons hcount] at hcarries
    have hpending := hcarries.pending
    cases hpending with
    | @cons _ entry _ later hentry hlater =>
      refine ⟨done, entry.1, entry.2, later, hsplit.symm, ?_,
        (d.outlet.queue.frame d.outlet.queue.head).written, ?_, ?_⟩
      · rw [← hhead, hentry.2]
      · rw [← hentry.1]
        exact hcarries.unfinished _ (List.mem_cons_self ..)
      · rw [← hentry.1]
        exact hcarries.sent
  · intro deadline now hdeadline hnow
    exact flush_expired hdeadline hnow

theorem delivers_three_bytes : Delivered (fun _ _ => (.taken 2, ())) 2 8
    ((Delivery.new 2 8 ()).run (fun _ _ => (.taken 2, ())) [.push [1, 2, 3] 0, .flush 1]) :=
  delivers _ (by decide) 8 () _

end Delivered

end UsbipCompletionQueueRuns
