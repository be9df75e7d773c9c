import VirtualGamepad.PcmQueueDelivery

/-! What a PCM queue counts as lost: every position below its clock was accepted or counted. -/
namespace PcmQueueLosses

open Fallible MachineInt PcmQueue PcmQueueDelivery

variable {capacity c : ℕ} {q q' : Queue} {log : List Label} {label : Label}

section Results

theorem validate_closed (h : q.closed = true) (len : ℕ) : q.validate len = .error .closed := by
  unfold Queue.validate
  rw [if_pos h]

theorem validate_open (h : q.closed = false) {len : ℕ} (ha : len % q.channels = 0) :
    q.validate len = .ok () := by
  unfold Queue.validate
  rw [h, if_neg Bool.false_ne_true, if_neg (not_not.mpr ha)]

theorem storeAll_kept (frames : List (List Int16)) (q : Queue) (position : ℕ) :
    (q.storeAll position frames).closed = q.closed ∧
      (q.storeAll position frames).discarded = q.discarded := by
  induction frames generalizing q position with
  | nil => exact ⟨rfl, rfl⟩
  | cons f frames ih => exact ih (q.store f position) (position + 1)

/-- A push of whole frames that the clock has room for fails only in a closed queue. -/
theorem push_result {samples : List Int16} (ha : samples.length % q.channels = 0)
    (hroom : q.nextFrame + samples.length / q.channels ≤ u64Max) :
    (q.closed = true ∧ push samples q = (.error .closed, q)) ∨
      q.closed = false ∧ ∃ frames q', push samples q = (.ok frames, q') ∧
        frames ≤ samples.length / q.channels ∧ q'.closed = false := by
  unfold push
  cases hc : q.closed with
  | true =>
    rw [validate_closed hc]
    exact .inl ⟨rfl, rfl⟩
  | false =>
    rw [validate_open hc ha]
    dsimp only
    generalize hf : min ((q.tail + q.slots - q.head - 1) % q.slots) (samples.length / q.channels) =
      frames
    have hle : frames ≤ samples.length / q.channels := hf ▸ Nat.min_le_right _ _
    have hadd : checkedAdd q.nextFrame frames = some (q.nextFrame + frames) :=
      checkedAdd_eq_some.mpr ⟨rfl, by omega⟩
    obtain ⟨hclosed, _⟩ := storeAll_kept (Slab.chunks q.channels frames samples) q q.nextFrame
    rw [hadd]
    exact .inr ⟨rfl, frames, _, rfl, hle, hclosed.trans hc⟩

theorem discard_result {frames : ℕ} (hroom : q.nextFrame + frames ≤ u64Max) :
    (q.closed = true ∧ PcmQueue.discard frames q = (.error .closed, q)) ∨
      (q.closed = false ∧ PcmQueue.discard frames q = (.ok (), { q with
        nextFrame := q.nextFrame + frames, discarded := (q.discarded + frames) % 2 ^ 64 })) := by
  unfold PcmQueue.discard
  cases hc : q.closed with
  | true =>
    rw [validate_closed hc]
    exact .inl ⟨rfl, rfl⟩
  | false =>
    have hadd : checkedAdd q.nextFrame frames = some (q.nextFrame + frames) :=
      checkedAdd_eq_some.mpr ⟨rfl, hroom⟩
    rw [validate_open hc (Nat.zero_mod _), hadd]
    exact .inr ⟨rfl, rfl⟩

end Results

/-- The clock fits its type, and the counter has not wrapped. -/
structure Counted (c : ℕ) (log : List Label) (q : Queue) : Prop where
  balance : q.discarded + (accepted c log).length = q.nextFrame
  bounded : q.nextFrame ≤ u64Max

section Balance

theorem Counted.idle (h : Counted c log q) (label : Label)
    (hp : (produced c (clock c log, accepted c log) label).2 = accepted c log) :
    Counted c (log ++ [label]) q := by
  refine ⟨?_, h.bounded⟩
  rw [accepted_snoc, hp]
  exact h.balance

theorem Counted.congr (h : Counted c log q) (hd : q'.discarded = q.discarded)
    (hn : q'.nextFrame = q.nextFrame) : Counted c log q' := by
  refine ⟨?_, ?_⟩
  · rw [hd, hn]
    exact h.balance
  · rw [hn]
    exact h.bounded

theorem Counted.push (h : Counted c log q) {samples : List Int16} {result : Except AudioError ℕ}
    (hp : push samples q = (result, q')) :
    Counted c (log ++ [.push samples result]) q' := by
  cases hv : q.validate samples.length with
  | error error =>
    unfold PcmQueue.push at hp
    rw [hv] at hp
    obtain ⟨rfl, rfl⟩ := Prod.mk.inj hp
    exact h.idle _ rfl
  | ok _ =>
    unfold PcmQueue.push at hp
    rw [hv] at hp
    dsimp only at hp
    generalize min ((q.tail + q.slots - q.head - 1) % q.slots) (samples.length / q.channels) =
      frames at hp
    obtain ⟨_, hdiscarded⟩ := storeAll_kept (Slab.chunks q.channels frames samples) q q.nextFrame
    cases hadd : checkedAdd q.nextFrame frames with
    | none =>
      rw [hadd] at hp
      obtain ⟨rfl, rfl⟩ := Prod.mk.inj hp
      exact h.idle _ rfl
    | some next =>
      rw [hadd] at hp
      obtain ⟨rfl, rfl⟩ := Prod.mk.inj hp
      obtain ⟨rfl, hmax⟩ := checkedAdd_eq_some.mp hadd
      refine ⟨?_, hmax⟩
      have haccepted : accepted c (log ++ [.push samples (.ok frames)]) =
          accepted c log ++ number (clock c log) (Slab.chunks c frames samples) := by
        rw [accepted_snoc]
        rfl
      have hbalance := h.balance
      rw [haccepted, List.length_append, length_number, Slab.length_chunks]
      change (q.storeAll q.nextFrame (Slab.chunks q.channels frames samples)).discarded + _ =
        q.nextFrame + frames
      rw [hdiscarded]
      omega

theorem Counted.discard (h : Counted c log q) {frames : ℕ} {result : Except AudioError Unit}
    (hd : PcmQueue.discard frames q = (result, q')) : Counted c (log ++ [.discard frames result]) q' := by
  have hbalance := h.balance
  have hbounded := h.bounded
  unfold PcmQueue.discard at hd
  cases hv : q.validate 0 with
  | error error =>
    rw [hv] at hd
    obtain ⟨rfl, rfl⟩ := Prod.mk.inj hd
    exact h.idle _ rfl
  | ok _ =>
    rw [hv] at hd
    dsimp only at hd
    cases hadd : checkedAdd q.nextFrame frames with
    | none =>
      rw [hadd] at hd
      obtain ⟨rfl, rfl⟩ := Prod.mk.inj hd
      exact h.idle _ rfl
    | some next =>
      rw [hadd] at hd
      obtain ⟨rfl, rfl⟩ := Prod.mk.inj hd
      obtain ⟨rfl, hmax⟩ := checkedAdd_eq_some.mp hadd
      refine ⟨?_, hmax⟩
      have haccepted : accepted c (log ++ [.discard frames (.ok ())]) = accepted c log := by
        rw [accepted_snoc]
        rfl
      rw [haccepted]
      change (q.discarded + frames) % 2 ^ 64 + _ = q.nextFrame + frames
      have hsmall : q.discarded + frames < 2 ^ 64 := by
        unfold u64Max at hmax
        omega
      rw [Nat.mod_eq_of_lt hsmall]
      omega

theorem step_counted (ha : Accounted capacity c log q) (h : Counted c log q)
    (st : Step q label q') : Counted c (log ++ [label]) q' := by
  cases label with
  | push samples result => exact h.push st
  | discard frames result => exact h.discard st
  | flush result =>
    rcases flush_spec st with ⟨error, rfl, rfl⟩ | ⟨rfl, rfl⟩
    · exact h.idle _ rfl
    · exact (h.idle (.flush (.ok ())) rfl).congr rfl rfl
  | read dest result =>
    have hi : Counted c (log ++ [.read dest result]) q := by
      apply h.idle
      cases result <;> rfl
    rcases read_spec ha.wf st with ⟨error, rfl, rfl⟩ | ⟨r, dest', taken, tail, skipped, _, _, _, _, _, _, _, hsame⟩
    · exact hi
    · rw [hsame]
      exact hi.congr rfl rfl
  | consumerFlush result =>
    rcases consumerFlush_spec st with ⟨error, rfl, rfl⟩ | ⟨rfl, rfl⟩
    · exact h.idle _ rfl
    · exact (h.idle (.consumerFlush (.ok ())) rfl).congr rfl rfl
  | close =>
    obtain rfl : q' = close q := st
    exact (h.idle .close rfl).congr rfl rfl

end Balance

/-- The whole frames of a push that the ring had no room for. -/
def refusal (c : ℕ) : Label → ℕ
  | .push samples (.ok frames) => samples.length / c - frames
  | _ => 0

def refused (c : ℕ) (log : List Label) : ℕ := (log.map (refusal c)).sum

theorem refused_snoc (c : ℕ) (log : List Label) (label : Label) :
    refused c (log ++ [label]) = refused c log + refusal c label := by
  unfold refused
  rw [List.map_append, List.sum_append, List.map_singleton, List.sum_singleton]

end PcmQueueLosses
