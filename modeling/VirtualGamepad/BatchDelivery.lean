import VirtualGamepad.Runs

/-! A first-in first-out sender. It takes a batch only when it holds nothing, offers its
head until the receiver accepts it, and may be cleared. The results say what the receiver
has accepted, batch by batch. -/
namespace BatchDelivery

open Runs

variable {α : Type*}

inductive Event (α : Type*) where
  | batch (items : List α)
  | attempt (item : α) (accepted : Bool)
  | clear

def Step (queue : List α) (e : Event α) (queue' : List α) : Prop :=
  match e with
  | .batch items => queue = [] ∧ queue' = items
  | .attempt a true => queue = a :: queue'
  | .attempt a false => (∃ rest, queue = a :: rest) ∧ queue' = queue
  | .clear => queue' = []

def Event.accepted : Event α → Option α
  | .attempt a true => some a
  | _ => none

def Event.items : Event α → Option (List α)
  | .batch items => some items
  | _ => none

def Event.isAttempt : Event α → Bool
  | .attempt _ _ => true
  | _ => false

def accepted (es : List (Event α)) : List α := es.filterMap Event.accepted
def batches (es : List (Event α)) : List (List α) := es.filterMap Event.items

@[simp] theorem accepted_append (es fs : List (Event α)) :
    accepted (es ++ fs) = accepted es ++ accepted fs := List.filterMap_append

@[simp] theorem batches_append (es fs : List (Event α)) :
    batches (es ++ fs) = batches es ++ batches fs := List.filterMap_append

/-- A batch together with every event after it and before the next batch. -/
structure Segment (α : Type*) where
  batch : List α
  events : List (Event α)

def Segment.log (s : Segment α) : List (Event α) := .batch s.batch :: s.events

/-- No clear: accepted and still queued items make up the batch. Cleared: an accepted prefix,
and no attempt after the clear, so that exactly a suffix is missing. -/
inductive Segment.Delivered (s : Segment α) (queued : List α) : Prop where
  | whole (batch : s.batch = accepted s.events ++ queued) (kept : .clear ∉ s.events)
  | cleared (before after missing) (events : s.events = before ++ .clear :: after)
      (batch : s.batch = accepted before ++ missing) (kept : .clear ∉ before)
      (silent : ∀ e ∈ after, e.isAttempt = false) (empty : queued = [])

/-- The log cut at its batches: every batch but the last is settled, the last holds `queued`. -/
structure History (es : List (Event α)) (queued : List α) where
  lead : List (Event α)
  segments : List (Segment α)
  log : es = lead ++ segments.flatMap Segment.log
  lead_silent : ∀ e ∈ lead, e.isAttempt = false ∧ e.items = none
  no_batch : ∀ s ∈ segments, batches s.events = []
  settled : ∀ s ∈ segments.dropLast, s.Delivered []
  current : ∀ s ∈ segments.getLast?, s.Delivered queued
  idle : segments = [] → queued = []

theorem accepted_of_silent {es : List (Event α)} (h : ∀ e ∈ es, e.isAttempt = false) :
    accepted es = [] := by
  apply List.filterMap_eq_nil_iff.mpr
  intro e he
  have := h e he
  cases e <;> simp_all [Event.accepted, Event.isAttempt]

theorem Segment.Delivered.attempt {s : Segment α} {queue : List α} {a : α} {ok : Bool}
    {queue' : List α} (h : s.Delivered queue) (st : Step queue (.attempt a ok) queue') :
    Segment.Delivered ⟨s.batch, s.events ++ [.attempt a ok]⟩ queue' := by
  cases h with
  | cleared before after missing events batch kept silent empty =>
    subst empty
    cases ok <;> simp [Step] at st
  | whole batch kept =>
    refine .whole ?_ (by simpa using kept)
    cases ok with
    | true =>
      have hq : queue = a :: queue' := st
      simp [batch, hq, accepted, Event.accepted]
    | false =>
      have hq : queue' = queue := st.2
      simp [batch, hq, accepted, Event.accepted]

theorem Segment.Delivered.clear {s : Segment α} {queue : List α} (h : s.Delivered queue) :
    Segment.Delivered ⟨s.batch, s.events ++ [.clear]⟩ [] := by
  cases h with
  | cleared before after missing events batch kept silent empty =>
    refine .cleared before (after ++ [.clear]) missing (by simp [events]) batch kept ?_ rfl
    intro e he
    rcases List.mem_append.mp he with he | he
    · exact silent e he
    · rw [List.mem_singleton.mp he]; rfl
  | whole batch kept =>
    exact .cleared s.events [] queue (by simp) batch kept (by simp) rfl

theorem History.extend {es : List (Event α)} {queue queue' : List α} {e : Event α}
    (h : History es queue) (he : e.items = none)
    (lead : h.segments = [] → e.isAttempt = false ∧ queue' = [])
    (next : ∀ s : Segment α, s.Delivered queue →
      Segment.Delivered ⟨s.batch, s.events ++ [e]⟩ queue') :
    Nonempty (History (es ++ [e]) queue') := by
  rcases List.eq_nil_or_concat h.segments with hs | ⟨init, last, hs⟩
  · refine ⟨⟨h.lead ++ [e], [], ?_, ?_, by simp, by simp, by simp, fun _ => (lead hs).2⟩⟩
    · have := h.log
      simpa [hs] using this
    · intro d hd
      rcases List.mem_append.mp hd with hd | hd
      · exact h.lead_silent d hd
      · rw [List.mem_singleton.mp hd]; exact ⟨(lead hs).1, he⟩
  · rw [List.concat_eq_append] at hs
    have hcur := h.current last (by simp [hs])
    have hnb := h.no_batch
    have hset := h.settled
    simp only [hs, List.dropLast_concat] at hset
    refine ⟨⟨h.lead, init ++ [⟨last.batch, last.events ++ [e]⟩], ?_, h.lead_silent, ?_, ?_, ?_,
      by simp⟩⟩
    · have := h.log
      simp [this, hs, Segment.log]
    · intro s hm
      rcases List.mem_append.mp hm with hm | hm
      · exact hnb s (by simp [hs, hm])
      · rw [List.mem_singleton.mp hm]
        rw [batches_append, hnb last (by simp [hs])]
        simp [batches, he]
    · simpa using hset
    · intro s hm
      simp only [List.getLast?_append, List.getLast?_singleton, Option.some_or,
        Option.mem_def, Option.some.injEq] at hm
      subst hm
      exact next last hcur

theorem History.batch {es : List (Event α)} {items : List α} (h : History es []) :
    Nonempty (History (es ++ [.batch items]) items) := by
  refine ⟨⟨h.lead, h.segments ++ [⟨items, []⟩], ?_, h.lead_silent, ?_, ?_, ?_, by simp⟩⟩
  · have := h.log
    simp [this, Segment.log]
  · intro s hm
    rcases List.mem_append.mp hm with hm | hm
    · exact h.no_batch s hm
    · rw [List.mem_singleton.mp hm]; rfl
  · intro s hm
    simp only [List.dropLast_concat] at hm
    rcases List.eq_nil_or_concat h.segments with hs | ⟨init, last, hs⟩
    · simp [hs] at hm
    · rw [List.concat_eq_append] at hs
      rw [hs] at hm
      rcases List.mem_append.mp hm with hm | hm
      · exact h.settled s (by simpa [hs] using hm)
      · exact List.mem_singleton.mp hm ▸ h.current last (by simp [hs])
  · intro s hm
    simp only [List.getLast?_append, List.getLast?_singleton, Option.some_or, Option.mem_def,
      Option.some.injEq] at hm
    subst hm
    exact .whole (by simp [accepted]) (by simp)

/-- Every run of the sender has a history: batches go out in order, each item once. -/
theorem run_history {es : List (Event α)} {queue : List α} (h : Run Step [] es queue) :
    Nonempty (History es queue) := by
  induction h with
  | nil => exact ⟨⟨[], [], rfl, by simp, by simp, by simp, by simp, fun _ => rfl⟩⟩
  | @snoc es queue e queue' _ st ih =>
    obtain ⟨hist⟩ := ih
    cases e with
    | batch items =>
      obtain ⟨rfl, rfl⟩ := st
      exact hist.batch
    | attempt a ok =>
      refine hist.extend rfl ?_ (fun s hs => hs.attempt st)
      intro hn
      have hq := hist.idle hn
      subst hq
      cases ok <;> simp [Step] at st
    | clear =>
      have hq : queue' = [] := st
      subst hq
      exact hist.extend rfl (fun _ => ⟨rfl, rfl⟩) (fun s hs => hs.clear)

theorem History.accepted_eq {es : List (Event α)} {queue : List α} (h : History es queue) :
    accepted es = h.segments.flatMap (fun s => accepted s.events) := by
  have hl := accepted_of_silent fun e he => (h.lead_silent e he).1
  have hseg : ∀ l : List (Segment α), accepted (l.flatMap Segment.log) =
      l.flatMap (fun s => accepted s.events) := by
    intro l
    induction l with
    | nil => rfl
    | cons s l ih =>
      rw [List.flatMap_cons, accepted_append, ih]
      rfl
  conv_lhs => rw [h.log]
  rw [accepted_append, hl, hseg, List.nil_append]

theorem History.batches_eq {es : List (Event α)} {queue : List α} (h : History es queue) :
    batches es = h.segments.map Segment.batch := by
  have hl : batches h.lead = [] :=
    List.filterMap_eq_nil_iff.mpr fun e he => (h.lead_silent e he).2
  have hseg : ∀ l : List (Segment α), (∀ s ∈ l, batches s.events = []) →
      batches (l.flatMap Segment.log) = l.map Segment.batch := by
    intro l hb
    induction l with
    | nil => rfl
    | cons s l ih =>
      have hs : batches s.log = [s.batch] := by
        change s.batch :: batches s.events = _
        rw [hb s (by simp)]
      rw [List.flatMap_cons, batches_append, hs, ih fun t ht => hb t (by simp [ht])]
      rfl
  conv_lhs => rw [h.log]
  rw [batches_append, hl, hseg _ h.no_batch, List.nil_append]

/-- After a refused attempt comes the same item again, or a clear; never another batch. -/
theorem retry_same {s t : List α} {before after : List (Event α)} {a : α} {e : Event α}
    (h : Run Step s (before ++ .attempt a false :: e :: after) t) :
    e = .clear ∨ ∃ ok, e = .attempt a ok := by
  obtain ⟨u, _, h⟩ := run_append.mp h
  obtain ⟨v, ⟨⟨rest, hu⟩, hv⟩, h⟩ := run_cons.mp h
  obtain ⟨w, hw, _⟩ := run_cons.mp h
  rw [hv, hu] at hw
  cases e with
  | clear => exact .inl rfl
  | batch items => exact absurd hw.1 (by simp)
  | attempt b ok =>
    cases ok with
    | true =>
      have : b = a := by simpa [Step, eq_comm] using (List.cons.inj hw).1
      exact .inr ⟨true, by rw [this]⟩
    | false =>
      obtain ⟨r, hr⟩ := hw.1
      exact .inr ⟨false, by rw [(List.cons.inj hr).1]⟩

/-- A batch is taken only when nothing of an earlier one is left. -/
theorem batch_when_empty {s t : List α} {before after : List (Event α)} {items : List α}
    (h : Run Step s (before ++ .batch items :: after) t) : Run Step s before [] := by
  obtain ⟨u, hu, h⟩ := run_append.mp h
  obtain ⟨v, ⟨rfl, _⟩, _⟩ := run_cons.mp h
  exact hu

end BatchDelivery
