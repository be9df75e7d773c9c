import Mathlib.Algebra.BigOperators.Group.List.Basic
import VirtualGamepad.PipewireCapture

/-! Every frame an endpoint receives is at its media position in the queue, or in a counted loss. -/
namespace PipewireCapture

open Dialogue MachineInt PcmIpc PcmQueue PcmQueueDelivery PcmQueueLosses

section Books

/-- What the operations on a queue say of its producer. -/
structure Books where
  clock : ℕ
  accepted : List Frame
  lost : List (ℕ × ℕ)

def lostBy (clock : ℕ) : Label → List (ℕ × ℕ)
  | .discard frames (.ok ()) => if frames = 0 then [] else [(clock, frames)]
  | _ => []

def Books.after (c : ℕ) (b : Books) (label : Label) : Books :=
  ⟨(produced c (b.clock, b.accepted) label).1, (produced c (b.clock, b.accepted) label).2,
    b.lost ++ lostBy b.clock label⟩

def books (c : ℕ) (log : List Label) : Books := log.foldl (Books.after c) ⟨0, [], []⟩

/-- The ranges of media time without samples, in order. -/
def lost (c : ℕ) (log : List Label) : List (ℕ × ℕ) := (books c log).lost

/-- A range that holds a position. -/
def Holds (p : ℕ) (x : ℕ × ℕ) : Prop := x.1 ≤ p ∧ p < x.1 + x.2

structure Books.Sound (b : Books) : Prop where
  total : b.accepted.length + (b.lost.map Prod.snd).sum = b.clock
  ascending : b.lost.Pairwise fun x y => x.1 + x.2 ≤ y.1
  inside : ∀ x ∈ b.lost, 0 < x.2 ∧ x.1 + x.2 ≤ b.clock
  below : ∀ f ∈ b.accepted, f.position < b.clock
  exact : ∀ p < b.clock, (∃ f ∈ b.accepted, f.position = p) ↔ ¬∃ x ∈ b.lost, Holds p x

variable {c : ℕ} {b : Books} {log : List Label} {label : Label}

theorem books_snoc : books c (log ++ [label]) = (books c log).after c label := by
  simp [books, List.foldl_append]

theorem books_eq (log : List Label) :
    (books c log).clock = clock c log ∧ (books c log).accepted = accepted c log := by
  induction log using List.reverseRecOn with
  | nil => exact ⟨rfl, rfl⟩
  | append_singleton log label ih =>
    rw [books_snoc, clock_snoc, accepted_snoc, ← ih.1, ← ih.2]
    exact ⟨rfl, rfl⟩

theorem position_mem_number {position p : ℕ} {rest : List (List Int16)} :
    (∃ f ∈ number position rest, f.position = p) ↔ position ≤ p ∧ p < position + rest.length := by
  induction rest generalizing position with
  | nil => simp [number]
  | cons samples rest ih =>
    simp only [number, List.mem_cons, exists_eq_or_imp, ih, List.length_cons]
    omega

theorem sound_nil : (⟨0, [], []⟩ : Books).Sound := by
  constructor
  · rfl
  · exact List.Pairwise.nil
  · exact nofun
  · exact nofun
  · intro p hp
    exact absurd hp (Nat.not_lt_zero p)

theorem Books.Sound.push (h : b.Sound) (frames : List (List Int16)) :
    (⟨b.clock + frames.length, b.accepted ++ number b.clock frames, b.lost⟩ : Books).Sound := by
  constructor
  · have htotal := h.total
    rw [List.length_append, length_number]
    dsimp only
    omega
  · exact h.ascending
  · intro x hx
    have hinside := h.inside x hx
    exact ⟨hinside.1, Nat.le_add_right_of_le hinside.2⟩
  · intro f hf
    rcases List.mem_append.mp hf with hf | hf
    · exact Nat.lt_add_right _ (h.below f hf)
    · exact (position_mem_number.mp ⟨f, hf, rfl⟩).2
  · intro p hp
    have hsplit : (∃ f ∈ b.accepted ++ number b.clock frames, f.position = p) ↔
        (∃ f ∈ b.accepted, f.position = p) ∨ (b.clock ≤ p ∧ p < b.clock + frames.length) := by
      simp only [List.mem_append, or_and_right, exists_or, position_mem_number]
    rw [hsplit]
    by_cases hold : p < b.clock
    · rw [h.exact p hold]
      exact or_iff_left fun hnew => Nat.not_le_of_lt hold hnew.1
    · refine iff_of_true (.inr ⟨Nat.le_of_not_lt hold, hp⟩) ?_
      rintro ⟨x, hx, hholds⟩
      exact hold (Nat.lt_of_lt_of_le hholds.2 (h.inside x hx).2)

theorem Books.Sound.discard (h : b.Sound) {frames : ℕ} (hframes : 0 < frames) :
    (⟨b.clock + frames, b.accepted, b.lost ++ [(b.clock, frames)]⟩ : Books).Sound := by
  constructor
  · have htotal := h.total
    simp only [List.map_append, List.sum_append, List.map_singleton, List.sum_singleton]
    omega
  · refine List.pairwise_append.mpr ⟨h.ascending, List.pairwise_singleton _ _, ?_⟩
    intro x hx y hy
    rw [List.mem_singleton.mp hy]
    exact (h.inside x hx).2
  · intro x hx
    rcases List.mem_append.mp hx with hx | hx
    · have hinside := h.inside x hx
      exact ⟨hinside.1, Nat.le_add_right_of_le hinside.2⟩
    · rw [List.mem_singleton.mp hx]
      exact ⟨hframes, le_rfl⟩
  · intro f hf
    exact Nat.lt_add_right _ (h.below f hf)
  · intro p hp
    have hsplit : (∃ x ∈ b.lost ++ [(b.clock, frames)], Holds p x) ↔
        (∃ x ∈ b.lost, Holds p x) ∨ (b.clock ≤ p ∧ p < b.clock + frames) := by
      simp [or_and_right, exists_or, Holds]
    rw [hsplit]
    by_cases hold : p < b.clock
    · rw [h.exact p hold]
      refine not_congr (or_iff_left fun hnew => ?_).symm
      exact Nat.not_le_of_lt hold hnew.1
    · refine iff_of_false ?_ (not_not.mpr (.inr ⟨Nat.le_of_not_lt hold, hp⟩))
      rintro ⟨f, hf, rfl⟩
      exact hold (h.below f hf)

/-- A loss without frames is none. -/
theorem Books.Sound.lose (h : b.Sound) (frames : ℕ) :
    (b.after c (.discard frames (.ok ()))).Sound := by
  by_cases hframes : frames = 0
  · subst hframes
    unfold Books.after
    simpa [produced, lostBy] using h
  · unfold Books.after
    simpa [produced, lostBy, hframes] using h.discard (Nat.pos_of_ne_zero hframes)

end Books

section Recording

variable {l : InputLoss} {losses : List InputLossEvent} {reason : InputLossReason}
  {firstFrame frames : ℕ} {ticks : Option ℕ}

def total (reason : InputLossReason) (losses : List InputLossEvent) : ℕ :=
  ((losses.filter (·.reason = reason)).map (·.frames)).sum

/-- What the slots of a ledger keep of the losses so far. -/
structure Logged (l : InputLoss) (losses : List InputLossEvent) : Prop where
  slots : l.events.length = lossEvents
  published : l.published = min losses.length lossEvents
  recorded : (l.events.take l.published).mapM LossSlot.event = some (losses.take lossEvents)
  omitted : l.omitted = losses.length - lossEvents

structure Recorded (l : InputLoss) (losses : List InputLossEvent) : Prop where
  logged : Logged l losses
  empty : l.empty = total .empty losses
  corrupted : l.corrupted = total .corrupted losses
  overflow : l.overflow = total .queueOverflow losses

theorem recorded_default : Recorded .default [] :=
  ⟨⟨List.length_replicate, rfl, rfl, rfl⟩, rfl, rfl, rfl⟩

/-- The losses after one more, unless it has no frames. -/
def append (losses : List InputLossEvent) (event : InputLossEvent) : List InputLossEvent :=
  if event.frames = 0 then losses else losses ++ [event]

theorem total_snoc (event : InputLossEvent) : total reason (losses ++ [event]) =
    total reason losses + if event.reason = reason then event.frames else 0 := by
  unfold total
  rw [List.filter_append, List.map_append, List.sum_append]
  by_cases h : event.reason = reason
  · simp [h]
  · simp [h]

theorem ofCode_code (reason : InputLossReason) : InputLossReason.ofCode reason.code = some reason := by
  cases reason <;> rfl

/-- A slot gives back what was stored in it. -/
theorem event_stored : LossSlot.event
    ⟨reason.code, firstFrame, frames, ticks.getD 0, ticks.isSome⟩ =
      some ⟨reason, firstFrame, frames, ticks⟩ := by
  unfold LossSlot.event
  rw [ofCode_code]
  cases ticks <;> rfl

/-- The three counters never hold more than the media time that has passed. -/
theorem total_le (reason : InputLossReason) (losses : List InputLossEvent) :
    total reason losses ≤ (losses.map (·.frames)).sum := by
  induction losses with
  | nil => exact le_rfl
  | cons event losses ih =>
    unfold total at ih ⊢
    by_cases h : event.reason = reason
    · simp only [List.filter_cons, h, decide_true, if_true, List.map_cons, List.sum_cons]
      omega
    · simp only [List.filter_cons, h, decide_false, Bool.false_eq_true, if_false, List.map_cons,
        List.sum_cons]
      omega

theorem total_split (losses : List InputLossEvent) :
    total .empty losses + total .corrupted losses + total .queueOverflow losses =
      (losses.map (·.frames)).sum := by
  induction losses using List.reverseRecOn with
  | nil => rfl
  | append_singleton losses event ih =>
    rw [total_snoc, total_snoc, total_snoc, List.map_append, List.sum_append, ← ih]
    cases hreason : event.reason <;> simp <;> omega

theorem mapM_snoc {xs : List LossSlot} {events : List InputLossEvent} {x : LossSlot}
    {event : InputLossEvent} (hxs : xs.mapM LossSlot.event = some events)
    (hx : x.event = some event) : (xs ++ [x]).mapM LossSlot.event = some (events ++ [event]) := by
  rw [List.mapM_append, hxs]
  simp [hx]

theorem take_set_succ {xs : List LossSlot} {n : ℕ} {x : LossSlot} (h : n < xs.length) :
    (xs.set n x).take (n + 1) = xs.take n ++ [x] := by
  rw [List.take_add_one, List.take_set_of_le le_rfl, List.getElem?_set_self h]
  rfl

/-- The slots fill in order; what comes after the last one is counted. -/
theorem Logged.record (h : Logged l losses) (hroom : frames ≠ 0 → losses.length < u64Max) :
    Logged (l.record reason firstFrame frames ticks)
      (append losses ⟨reason, firstFrame, frames, ticks⟩) := by
  obtain ⟨hslots, hpublished, hrecorded, homitted⟩ := h
  unfold InputLoss.record append
  by_cases hframes : frames = 0
  · rw [if_pos hframes, if_pos hframes]
    exact ⟨hslots, hpublished, hrecorded, homitted⟩
  · rw [if_neg hframes, if_neg hframes]
    have hlength : (losses ++ [(⟨reason, firstFrame, frames, ticks⟩ : InputLossEvent)]).length =
        losses.length + 1 := by simp
    by_cases hfree : l.published < l.events.length
    · have hshort : losses.length < lossEvents := by omega
      rw [if_pos hfree]
      constructor
      · simpa using hslots
      · change l.published + 1 = _
        omega
      · have hold : (l.events.take l.published).mapM LossSlot.event = some losses := by
          rw [hrecorded, List.take_of_length_le (Nat.le_of_lt hshort)]
        change ((l.events.set l.published _).take (l.published + 1)).mapM LossSlot.event = _
        rw [take_set_succ hfree, mapM_snoc hold event_stored]
        rw [List.take_of_length_le (hlength.trans_le hshort)]
      · change l.omitted = _
        omega
    · have hlong : lossEvents ≤ losses.length := by omega
      rw [if_neg hfree]
      constructor
      · exact hslots
      · change l.published = _
        omega
      · change (l.events.take l.published).mapM LossSlot.event = _
        rw [hrecorded, List.take_append_of_le_length hlong]
      · change (l.omitted + 1) % 2 ^ 64 = _
        rw [Nat.mod_eq_of_lt]
        · omega
        · have hlt := hroom hframes
          unfold u64Max at hlt
          omega

theorem record_counters : let next := l.record reason firstFrame frames ticks
    next.empty = l.empty ∧ next.corrupted = l.corrupted ∧ next.overflow = l.overflow ∧
      next.received = l.received := by
  unfold InputLoss.record
  by_cases hframes : frames = 0
  · rw [if_pos hframes]
    exact ⟨rfl, rfl, rfl, rfl⟩
  · rw [if_neg hframes]
    by_cases hfree : l.published < l.events.length
    · rw [if_pos hfree]
      exact ⟨rfl, rfl, rfl, rfl⟩
    · rw [if_neg hfree]
      exact ⟨rfl, rfl, rfl, rfl⟩

theorem total_append (event : InputLossEvent) : total reason (append losses event) =
    total reason losses + if event.reason = reason then event.frames else 0 := by
  unfold append
  by_cases h : event.frames = 0
  · simp [h]
  · rw [if_neg h, total_snoc]

/-- One more loss, while the media time fits its type. -/
theorem Recorded.lose (h : Recorded l losses) (hlength : frames ≠ 0 → losses.length < u64Max)
    (hroom : (losses.map (·.frames)).sum + frames ≤ u64Max) :
    Recorded (l.lose reason firstFrame frames ticks)
        (append losses ⟨reason, firstFrame, frames, ticks⟩) ∧
      (l.lose reason firstFrame frames ticks).received = l.received := by
  obtain ⟨hlogged, hempty, hcorrupted, hoverflow⟩ := h
  have hfits (reason : InputLossReason) : (total reason losses + frames) % 2 ^ 64 =
      total reason losses + frames := by
    have := total_le reason losses
    unfold u64Max at hroom
    exact Nat.mod_eq_of_lt (by omega)
  have hcounted {counted : InputLoss} (hcounted : Logged counted losses)
      (hreceived : counted.received = l.received)
      (hempty : counted.empty = total .empty losses + if reason = .empty then frames else 0)
      (hcorrupted : counted.corrupted =
        total .corrupted losses + if reason = .corrupted then frames else 0)
      (hoverflow : counted.overflow =
        total .queueOverflow losses + if reason = .queueOverflow then frames else 0) :
      Recorded (counted.record reason firstFrame frames ticks)
          (append losses ⟨reason, firstFrame, frames, ticks⟩) ∧
        (counted.record reason firstFrame frames ticks).received = l.received := by
    obtain ⟨he, hc, ho, hr⟩ := @record_counters counted reason firstFrame frames ticks
    refine ⟨⟨hcounted.record hlength, ?_, ?_, ?_⟩, hr.trans hreceived⟩
    · rw [he, hempty, total_append]
    · rw [hc, hcorrupted, total_append]
    · rw [ho, hoverflow, total_append]
  cases reason with
  | empty =>
    exact hcounted { hlogged with } rfl
      (by dsimp only; rw [hempty, hfits, if_pos rfl]) (by simp [hcorrupted]) (by simp [hoverflow])
  | corrupted =>
    exact hcounted { hlogged with } rfl
      (by simp [hempty]) (by dsimp only; rw [hcorrupted, hfits, if_pos rfl]) (by simp [hoverflow])
  | queueOverflow =>
    exact hcounted { hlogged with } rfl
      (by simp [hempty]) (by simp [hcorrupted]) (by dsimp only; rw [hoverflow, hfits, if_pos rfl])

end Recording

section Payloads

variable {c : ℕ}

theorem chunks_append {a b : ℕ} {xs ys : List Int16} (h : xs.length = a * c) :
    Slab.chunks c (a + b) (xs ++ ys) = Slab.chunks c a xs ++ Slab.chunks c b ys := by
  induction a generalizing xs with
  | zero =>
    obtain rfl : xs = [] := List.length_eq_zero_iff.mp (by simpa using h)
    simp [Slab.chunks]
  | succ a ih =>
    rw [Nat.succ_mul] at h
    have hdrop : (xs.drop c).length = a * c := by
      rw [List.length_drop]
      omega
    rw [Nat.succ_add]
    simp only [Slab.chunks]
    rw [List.take_append_of_le_length (by omega), List.drop_append_of_le_length (by omega), ih hdrop]
    rfl

theorem length_samplesOf (bytes : List UInt8) : (samplesOf bytes).length = bytes.length / 2 := by
  fun_induction samplesOf bytes with
  | case1 lo hi rest ih =>
    simp only [List.length_cons, ih]
    omega
  | case2 bytes hshort =>
    match bytes with
    | [] => rfl
    | [_] => simp
    | lo :: hi :: rest => exact absurd rfl (hshort lo hi rest)

theorem samplesOf_append {xs ys : List UInt8} (h : xs.length % 2 = 0) :
    samplesOf (xs ++ ys) = samplesOf xs ++ samplesOf ys := by
  fun_induction samplesOf xs with
  | case1 lo hi rest ih =>
    have hrest : rest.length % 2 = 0 := by
      simp only [List.length_cons] at h
      omega
    simp only [List.cons_append, samplesOf, ih hrest]
  | case2 xs hshort =>
    match xs with
    | [] => rfl
    | [_] => simp at h
    | lo :: hi :: rest => exact absurd rfl (hshort lo hi rest)

theorem length_framesOf (bytes : List UInt8) :
    (framesOf c bytes).length = bytes.length / (c * 2) := Slab.length_chunks

/-- What one push of a whole payload would accept. -/
theorem framesOf_eq (bytes : List UInt8) :
    framesOf c bytes = Slab.chunks c ((samplesOf bytes).length / c) (samplesOf bytes) := by
  unfold framesOf
  rw [length_samplesOf, Nat.div_div_eq_div_mul, Nat.mul_comm 2 c]

theorem framesOf_append {xs ys : List UInt8} (hc : 0 < c) (h : xs.length % (c * 2) = 0) :
    framesOf c (xs ++ ys) = framesOf c xs ++ framesOf c ys := by
  obtain ⟨k, hk⟩ := Nat.dvd_of_mod_eq_zero h
  have heven : xs.length % 2 = 0 := by
    rw [hk, Nat.mul_right_comm, Nat.mul_mod_left]
  have hlength : xs.length / (c * 2) = k := by
    rw [hk, Nat.mul_div_cancel_left k (by omega)]
  unfold framesOf
  rw [List.length_append, samplesOf_append heven, hlength, hk,
    Nat.mul_add_div (by omega : 0 < c * 2)]
  apply chunks_append
  rw [length_samplesOf, hk, Nat.mul_right_comm, Nat.mul_div_cancel _ (by omega), Nat.mul_comm]

/-- The packets of a payload hold its frames, in order. -/
theorem framesOf_packets {size : ℕ} (hc : 0 < c) (hsize : size % (c * 2) = 0) (n : ℕ)
    {bytes : List UInt8} (hbytes : bytes.length % (c * 2) = 0) (hn : bytes.length ≤ n * size) :
    (Slab.chunks size n bytes).flatMap (framesOf c) = framesOf c bytes := by
  induction n generalizing bytes with
  | zero =>
    obtain rfl : bytes = [] := List.length_eq_zero_iff.mp (by omega)
    simp [Slab.chunks, framesOf]
  | succ n ih =>
    have htake : (bytes.take size).length % (c * 2) = 0 := by
      rw [List.length_take]
      rcases Nat.le_total size bytes.length with hle | hle
      · rwa [Nat.min_eq_left hle]
      · rwa [Nat.min_eq_right hle]
    have hdrop : (bytes.drop size).length % (c * 2) = 0 := by
      rw [List.length_drop]
      rcases Nat.le_total size bytes.length with hle | hle
      · exact Nat.sub_mod_eq_zero_of_mod_eq (hbytes.trans hsize.symm)
      · rw [Nat.sub_eq_zero_of_le hle, Nat.zero_mod]
    rw [Nat.succ_mul] at hn
    simp only [Slab.chunks, List.flatMap_cons]
    rw [ih hdrop (by rw [List.length_drop]; omega), ← framesOf_append hc htake,
      List.take_append_drop]

end Payloads

section Calls

variable {c : ℕ} {l : InputLoss} {b : Books} {stream : List (List Int16)}

def labelOf : (call : Call) → Answer c call → Label
  | .push samples, answer => .push samples (answer.map Subtype.val)
  | .discard frames, answer => .discard frames answer

def monitor (c : ℕ) : Monitor Call (Answer c) Books :=
  ⟨fun _ _ => True, fun b call answer => b.after c (labelOf call answer)⟩

/-- The frames received so far are at their places in the queue, or in a loss of the ledger. -/
structure Fits (l : InputLoss) (stream : List (List Int16)) (b : Books) : Prop where
  sound : b.Sound
  length : stream.length = b.clock
  placed : ∀ f ∈ b.accepted, stream[f.position]? = some f.samples
  losses : ∃ losses, Recorded l losses ∧ losses.map (fun e => (e.firstFrame, e.frames)) = b.lost

theorem mem_number_get {f : Frame} {position : ℕ} {rest : List (List Int16)}
    (h : f ∈ number position rest) : rest[f.position - position]? = some f.samples := by
  induction rest generalizing position with
  | nil => cases h
  | cons samples rest ih =>
    rcases List.mem_cons.mp h with rfl | h
    · simp
    · have hle := (le_of_mem_number h).1
      obtain ⟨k, hk⟩ := Nat.exists_eq_add_of_le hle
      have hrest := ih h
      rw [hk, Nat.add_sub_cancel_left] at hrest
      rw [hk, Nat.add_assoc, Nat.add_sub_cancel_left, Nat.add_comm 1 k, List.getElem?_cons_succ]
      exact hrest

theorem Fits.push (h : Fits l stream b) {samples : List Int16} (n : ℕ) :
    Fits l (stream ++ Slab.chunks c n samples) (b.after c (.push samples (.ok n))) := by
  have hafter : b.after c (.push samples (.ok n)) =
      ⟨b.clock + (Slab.chunks c n samples).length,
        b.accepted ++ number b.clock (Slab.chunks c n samples), b.lost⟩ := by
    simp [Books.after, produced, lostBy]
  rw [hafter]
  constructor
  · exact h.sound.push _
  · rw [List.length_append, h.length]
  · intro f hf
    rcases List.mem_append.mp hf with hf | hf
    · rw [List.getElem?_append_left (h.length ▸ h.sound.below f hf)]
      exact h.placed f hf
    · rw [List.getElem?_append_right (h.length ▸ (le_of_mem_number hf).1), h.length]
      exact mem_number_get hf
  · exact h.losses

/-- The frames that the queue is told about and not given. -/
theorem Fits.lose (h : Fits l stream b) {xs : List (List Int16)} {reason : InputLossReason}
    {ticks : Option ℕ} (hroom : b.clock + xs.length ≤ u64Max) :
    Fits (l.lose reason b.clock xs.length ticks) (stream ++ xs)
        (b.after c (.discard xs.length (.ok ()))) ∧
      (l.lose reason b.clock xs.length ticks).received = l.received := by
  obtain ⟨losses, hrecorded, hlost⟩ := h.losses
  have hsum : (losses.map (·.frames)).sum = (b.lost.map Prod.snd).sum := by
    rw [← hlost, List.map_map]
    rfl
  have hle : (losses.map (·.frames)).sum ≤ b.clock := by
    have := h.sound.total
    omega
  have hcount : losses.length ≤ (losses.map (·.frames)).sum := by
    have hpos : ∀ e ∈ losses, 1 ≤ e.frames := by
      intro e he
      refine (h.sound.inside (e.firstFrame, e.frames) ?_).1
      rw [← hlost]
      exact List.mem_map.mpr ⟨e, he, rfl⟩
    have := List.length_le_sum_of_one_le (losses.map (·.frames)) (by simpa using hpos)
    rwa [List.length_map] at this
  obtain ⟨hrecorded', hreceived⟩ := @Recorded.lose l losses reason b.clock xs.length ticks hrecorded
    (fun hframes => by omega) (by omega)
  refine ⟨?_, hreceived⟩
  constructor
  · exact h.sound.lose xs.length
  · rw [List.length_append, h.length]
    rfl
  · intro f hf
    rw [List.getElem?_append_left (h.length ▸ h.sound.below f hf)]
    exact h.placed f hf
  · refine ⟨_, hrecorded', ?_⟩
    change _ = b.lost ++ lostBy b.clock (.discard xs.length (.ok ()))
    rw [← hlost]
    unfold append lostBy
    by_cases hframes : xs.length = 0
    · simp [hframes]
    · simp [hframes]

/-- An ingest that fails says nothing of the ledger. -/
abbrev Leads (c : ℕ) (body : Ingest c Unit) (Q : InputLoss → Books → Prop) (l : InputLoss)
    (b : Books) : Prop := Keeps (monitor c) body (fun _ => Q) (fun _ _ _ => True) l b

variable {Q : InputLoss → Books → Prop}

theorem push_leads {samples : List Int16} {f : { n : ℕ // n ≤ samples.length / c } → Ingest c Unit}
    (h : ∀ n, Leads c (f n) Q l (b.after c (.push samples (.ok n.val)))) :
    Leads c (Tx.push c samples >>= f) Q l b := by
  refine ⟨trivial, fun answer => ?_⟩
  cases answer with
  | error error => trivial
  | ok n => exact h n

theorem discard_leads {frames : ℕ} {f : Unit → Ingest c Unit}
    (h : Leads c (f ()) Q l (b.after c (.discard frames (.ok ())))) :
    Leads c (Tx.discard c frames >>= f) Q l b := by
  refine ⟨trivial, fun answer => ?_⟩
  cases answer with
  | error error => trivial
  | ok _ => exact h

/-- One packet: what the queue takes of it, then the rest as a loss. -/
theorem packet_fits (h : Fits l stream b) {samples : List Int16} {ticks : Option ℕ} {n : ℕ}
    (hn : n ≤ samples.length / c) (hroom : b.clock + samples.length / c ≤ u64Max) :
    let discarded := samples.length / c - n
    let after := (b.after c (.push samples (.ok n))).after c (.discard discarded (.ok ()))
    Fits (l.lose .queueOverflow (b.clock + n) discarded ticks)
        (stream ++ Slab.chunks c (samples.length / c) samples) after ∧
      (l.lose .queueOverflow (b.clock + n) discarded ticks).received = l.received ∧
      after.clock = b.clock + samples.length / c := by
  intro discarded after
  have hsplit : n + discarded = samples.length / c := by omega
  have hfits : n * c ≤ samples.length :=
    (Nat.mul_le_mul_right c hn).trans (Nat.div_mul_le_self _ _)
  have htake : (samples.take (n * c)).length = n * c := by
    rw [List.length_take, Nat.min_eq_left hfits]
  have hchunks : Slab.chunks c (samples.length / c) samples =
      Slab.chunks c n samples ++ Slab.chunks c discarded (samples.drop (n * c)) := by
    have hrest (k : ℕ) : Slab.chunks c (n + k) (samples.take (n * c) ++ samples.drop (n * c)) =
        Slab.chunks c n (samples.take (n * c)) ++ Slab.chunks c k (samples.drop (n * c)) :=
      chunks_append htake
    have hzero := hrest 0
    have hall := hrest discarded
    rw [List.take_append_drop] at hzero hall
    rw [← hsplit, hall, ← Nat.add_zero n, hzero]
    simp [Slab.chunks]
  have hclock : (b.after c (.push samples (.ok n))).clock = b.clock + n := rfl
  obtain ⟨hlost, hreceived⟩ := @Fits.lose c l _ _ (h.push n)
    (Slab.chunks c discarded (samples.drop (n * c))) .queueOverflow ticks
    (by rw [Slab.length_chunks, hclock]; omega)
  rw [Slab.length_chunks, hclock] at hlost hreceived
  refine ⟨?_, hreceived, ?_⟩
  · rw [hchunks, ← List.append_assoc]
    exact hlost
  · change b.clock + n + discarded = _
    omega

theorem ingestPackets_leads (ticks : Option ℕ) (packets : List (List UInt8)) (h : Fits l stream b)
    (hroom : b.clock + (packets.flatMap (framesOf c)).length ≤ u64Max) :
    Leads c (ingestPackets c ticks packets b.clock)
      (fun l' b' => Fits l' (stream ++ packets.flatMap (framesOf c)) b' ∧
        l'.received = l.received ∧ b'.clock = b.clock + (packets.flatMap (framesOf c)).length) l b := by
  induction packets generalizing l b stream with
  | nil =>
    refine ⟨?_, rfl, rfl⟩
    simpa using h
  | cons packet packets ih =>
    rw [List.flatMap_cons, List.length_append] at hroom ⊢
    have hcount : (framesOf c packet).length = (samplesOf packet).length / c := by
      rw [framesOf_eq, Slab.length_chunks]
    refine push_leads fun n => discard_leads ?_
    obtain ⟨hfits, hreceived, hclock⟩ := @packet_fits _ _ _ _ h _ ticks _ n.2 (by omega)
    rw [← framesOf_eq] at hfits
    have hrest := ih hfits (by rw [hclock]; omega)
    rw [hclock] at hrest
    refine Keeps.mono hrest ?_ fun _ _ _ h => h
    rintro _ l' b' ⟨hl, hr, hb⟩
    refine ⟨?_, hr.trans hreceived, ?_⟩
    · rw [← List.append_assoc]
      exact hl
    · omega

theorem flagged_leads {bytes : List UInt8} {reason : InputLossReason} {ticks : Option ℕ}
    (h : Fits l stream b) (hroom : b.clock + (framesOf c bytes).length ≤ u64Max)
    (hreceived : l.received = b.clock + (framesOf c bytes).length) :
    Leads c (Tx.discard c (framesOf c bytes).length >>= fun _ =>
        PipewireCapture.lose c reason b.clock (framesOf c bytes).length ticks)
      (fun l' b' => Fits l' (stream ++ framesOf c bytes) b' ∧ l'.received = b'.clock) l b := by
  obtain ⟨hfits, hsame⟩ := @Fits.lose c l b stream h (framesOf c bytes) reason ticks hroom
  exact discard_leads ⟨hfits, hsame.trans hreceived⟩

/-- A call of `ingest` that succeeds has put every frame of the payload in its place. -/
theorem ingest_leads {scratch : ℕ} {corrupted flags : Int32} {bytes : List UInt8} {ticks : Option ℕ}
    (hc : 0 < c) (hscratch : c ≤ scratch) (h : Fits l stream b) (hreceived : l.received = b.clock) :
    Leads c (ingest c scratch corrupted bytes flags ticks)
      (fun l' b' => Fits l' (stream ++ framesOf c bytes) b' ∧ l'.received = b'.clock) l b := by
  unfold ingest
  by_cases hwhole : bytes.length % (c * 2) ≠ 0
  · rw [if_pos hwhole]
    trivial
  · rw [if_neg hwhole]
    refine keeps_get_bind ?_
    dsimp only
    rw [hreceived]
    cases hadd : checkedAdd b.clock (bytes.length / (c * 2)) with
    | none => trivial
    | some received =>
      obtain ⟨rfl, hroom⟩ := checkedAdd_eq_some.mp hadd
      rw [← length_framesOf] at hroom ⊢
      have hstored : Fits { l with received := b.clock + (framesOf c bytes).length } stream b := by
        obtain ⟨losses, hrecorded, hlost⟩ := h.losses
        exact { h with losses := ⟨losses, { hrecorded with logged := { hrecorded.logged with } }, hlost⟩ }
      dsimp only
      refine keeps_bind (Q := fun _ l' b' => l' = _ ∧ b' = b) (keeps_set ⟨rfl, rfl⟩) ?_
      rintro _ _ _ ⟨rfl, rfl⟩
      by_cases hcorrupted : flags &&& corrupted ≠ 0
      · rw [if_pos hcorrupted]
        exact flagged_leads hstored hroom rfl
      · rw [if_neg hcorrupted]
        by_cases hempty : flags &&& chunkFlagEmpty ≠ 0
        · rw [if_pos hempty]
          exact flagged_leads hstored hroom rfl
        · rw [if_neg hempty]
          have hblock : 1 ≤ scratch / c := Nat.div_pos hscratch hc
          have hsize : (scratch / c * c * 2) % (c * 2) = 0 := by
            rw [Nat.mul_assoc, Nat.mul_mod_left]
          have hpos : 0 < scratch / c * c * 2 :=
            Nat.mul_pos (Nat.mul_pos hblock hc) Nat.two_pos
          have hcover : bytes.length ≤
              (bytes.length + scratch / c * c * 2 - 1) / (scratch / c * c * 2) *
                (scratch / c * c * 2) := by
            have hdiv := Nat.div_add_mod (bytes.length + scratch / c * c * 2 - 1) (scratch / c * c * 2)
            have hlt := Nat.mod_lt (bytes.length + scratch / c * c * 2 - 1) hpos
            rw [Nat.mul_comm] at hdiv
            omega
          have hflat := framesOf_packets hc hsize _ (not_not.mp hwhole) hcover
          have hpackets := ingestPackets_leads ticks (packetsOf (scratch / c * c * 2) bytes) hstored
            (by unfold packetsOf; rw [hflat]; exact hroom)
          refine Keeps.mono hpackets ?_ fun _ _ _ h => h
          unfold packetsOf
          rw [hflat]
          rintro _ l' b' ⟨hfits, hsame, hclock⟩
          exact ⟨hfits, hsame.trans hclock.symm⟩

end Calls

section Runs

variable {e : Endpoint} {s t : System e}

/-- Between calls that all succeeded the ledger fits the queue; inside a call it is about to. -/
structure Invariant (e : Endpoint) (s : System e) : Prop where
  queue : Accounted e.capacity e.channels s.log s.queue
  counted : Counted e.channels s.log s.queue
  idle : (∀ r ∈ s.results, r = .ok ()) → s.flight = none →
    Fits s.loss s.stream (books e.channels s.log) ∧ s.loss.received = (books e.channels s.log).clock
  busy : (∀ r ∈ s.results, r = .ok ()) → ∀ bytes program, s.flight = some (bytes, program) →
    Obeys (monitor e.channels)
      (Dialogue.Either (fun (_ : Unit) l' b' => Fits l' (s.stream ++ framesOf e.channels bytes) b' ∧
        l'.received = b'.clock) (fun (_ : AudioError) _ _ => True))
      program (books e.channels s.log)

theorem books_consume {c : ℕ} {log : List Label} {label : Label} (h : Consumes label) :
    books c (log ++ [label]) = books c log := by
  rw [books_snoc]
  cases label with
  | push => cases h
  | discard => cases h
  | flush => cases h
  | read => simp [Books.after, produced, lostBy]
  | consumerFlush => simp [Books.after, produced, lostBy]
  | close => simp [Books.after, produced, lostBy]

theorem invariant_initial {queue : Queue} (h : pcmQueue e.format e.capacity = .ok queue) :
    Invariant e ⟨queue, .default, none, [], [], []⟩ := by
  have haccounted : Accounted e.capacity e.channels [] queue := run_accounted h .nil
  constructor
  · exact haccounted
  · unfold pcmQueue at h
    split at h
    · cases h
      exact ⟨rfl, Nat.zero_le _⟩
    · cases h
  · intro _ _
    exact ⟨⟨sound_nil, rfl, nofun, [], recorded_default, rfl⟩, rfl⟩
  · intro _ bytes program hflight
    cases hflight

theorem invariant_step (hscratch : e.channels ≤ e.scratch) (h : Invariant e s) (hs : Step e s t) :
    Invariant e t := by
  cases hs with
  | ingest bytes flags ticks hidle =>
    refine ⟨h.queue, h.counted, (fun _ hflight => by cases hflight), ?_⟩
    rintro hok _ _ ⟨⟩
    obtain ⟨hfits, hreceived⟩ := h.idle hok hidle
    exact ingest_leads e.format.channels_pos hscratch hfits hreceived
  | @push bytes samples next answer queue hflight hpush =>
    have hstep : PcmQueue.Step s.queue (.push samples (answer.map Subtype.val)) queue := hpush
    refine ⟨step_accounted h.queue hstep, step_counted h.queue h.counted hstep,
      (fun _ hflight => by cases hflight), ?_⟩
    rintro hok _ _ ⟨⟩
    rw [books_snoc]
    exact (h.busy hok _ _ hflight).2 answer
  | @discard bytes frames next answer queue hflight hdiscard =>
    have hstep : PcmQueue.Step s.queue (.discard frames answer) queue := hdiscard
    refine ⟨step_accounted h.queue hstep, step_counted h.queue h.counted hstep,
      (fun _ hflight => by cases hflight), ?_⟩
    rintro hok _ _ ⟨⟩
    rw [books_snoc]
    exact (h.busy hok _ _ hflight).2 answer
  | @done bytes result loss hflight =>
    refine ⟨h.queue, h.counted, ?_, fun _ _ _ hflight => by cases hflight⟩
    intro hok _
    have hresult : result = .ok () := hok result (by simp)
    subst hresult
    exact h.busy (fun r hr => hok r (List.mem_append_left _ hr)) _ _ hflight
  | consume hconsumes hstep =>
    refine ⟨step_accounted h.queue hstep, step_counted h.queue h.counted hstep, ?_, ?_⟩
    · rw [books_consume hconsumes]
      exact h.idle
    · rw [books_consume hconsumes]
      exact h.busy

theorem reachable_invariant (hscratch : e.channels ≤ e.scratch) (h : Reachable e s) :
    Invariant e s := by
  induction h with
  | initial h => exact invariant_initial h
  | step _ hs ih => exact invariant_step hscratch ih hs

/-- What the counters, the queue and the ledger of an endpoint say of what it received. -/
structure Captured (e : Endpoint) (s : System e) : Prop where
  received : s.loss.received = (accepted e.channels s.log).length + s.loss.empty +
    s.loss.corrupted + s.loss.overflow
  position : s.queue.nextFrame = s.loss.received
  length : s.stream.length = s.loss.received
  placed : ∀ f ∈ accepted e.channels s.log, s.stream[f.position]? = some f.samples
  discarded : s.queue.discarded = s.loss.empty + s.loss.corrupted + s.loss.overflow
  /-- The ledger has the first losses, and the number of the others. -/
  traced : ∃ losses : List InputLossEvent,
    losses.map (fun x => (x.firstFrame, x.frames)) = lost e.channels s.log ∧
    s.loss.empty = total .empty losses ∧ s.loss.corrupted = total .corrupted losses ∧
    s.loss.overflow = total .queueOverflow losses ∧
    ∀ endpoint, ∃ omitted, s.loss.trace endpoint =
        some ⟨endpoint, s.loss.received, losses.take lossEvents, omitted⟩ ∧
      (losses.take lossEvents).length + omitted = losses.length
  ascending : (lost e.channels s.log).Pairwise fun x y => x.1 + x.2 ≤ y.1
  inside : ∀ x ∈ lost e.channels s.log, 0 < x.2 ∧ x.1 + x.2 ≤ s.loss.received
  exact : ∀ p < s.loss.received, (∃ f ∈ accepted e.channels s.log, f.position = p) ↔
    ¬∃ x ∈ lost e.channels s.log, Holds p x

/-- A payload with part of a frame reaches neither the queue nor the ledger. -/
theorem ingest_partial {c scratch : ℕ} {corrupted flags : Int32} {bytes : List UInt8}
    {ticks : Option ℕ} (h : bytes.length % (c * 2) ≠ 0) (l : InputLoss) :
    ingest c scratch corrupted bytes flags ticks l = .ret (.error .invalidRequirement, l) := by
  unfold ingest
  rw [if_pos h]
  rfl

/-- The queue always has an answer to a push. -/
theorem push_answered (h : Accounted e.capacity e.channels s.log s.queue) (samples : List Int16) :
    ∃ (answer : Answer e.channels (.push samples)) (queue : Queue),
      PcmQueue.push samples s.queue = (answer.map Subtype.val, queue) := by
  rcases hpush : PcmQueue.push samples s.queue with ⟨error | n, queue⟩
  · exact ⟨.error error, queue, rfl⟩
  · refine ⟨.ok ⟨n, ?_⟩, queue, rfl⟩
    unfold PcmQueue.push at hpush
    cases hvalid : s.queue.validate samples.length with
    | error error =>
      rw [hvalid] at hpush
      cases hpush
    | ok _ =>
      rw [hvalid] at hpush
      dsimp only at hpush
      cases hadd : checkedAdd s.queue.nextFrame (min ((s.queue.tail + s.queue.slots - s.queue.head - 1)
          % s.queue.slots) (samples.length / s.queue.channels)) with
      | none =>
        rw [hadd] at hpush
        cases hpush
      | some next =>
        rw [hadd] at hpush
        obtain ⟨hn, _⟩ := Prod.mk.inj hpush
        rw [← Except.ok.inj hn, ← h.channels_eq]
        exact Nat.min_le_right _ _

/-- Calls of `ingest` that succeed, with whatever the consumer does before, between and inside
them. A payload with part of a frame is refused before anything else. -/
theorem capture_accounted (hscratch : e.channels ≤ e.scratch) (h : Reachable e s)
    (hok : ∀ r ∈ s.results, r = .ok ()) (hidle : s.flight = none) : Captured e s ∧
      ∀ bytes flags ticks, bytes.length % (e.channels * 2) ≠ 0 →
        ingest e.channels e.scratch e.corrupted bytes flags ticks s.loss =
          .ret (.error .invalidRequirement, s.loss) := by
  refine ⟨?_, fun bytes flags ticks hpartial => ingest_partial hpartial s.loss⟩
  have hinvariant := reachable_invariant hscratch h
  obtain ⟨hfits, hreceived⟩ := hinvariant.idle hok hidle
  obtain ⟨hclock, haccepted⟩ := books_eq (c := e.channels) s.log
  obtain ⟨losses, hrecorded, hlost⟩ := hfits.losses
  have hsum : (losses.map (·.frames)).sum = ((books e.channels s.log).lost.map Prod.snd).sum := by
    rw [← hlost, List.map_map]
    rfl
  have hsplit := total_split losses
  have htotal := hfits.sound.total
  rw [← hsum, haccepted] at htotal
  have hempty := hrecorded.empty
  have hcorrupted := hrecorded.corrupted
  have hoverflow := hrecorded.overflow
  have hposition : s.queue.nextFrame = s.loss.received := by
    rw [hreceived, hclock, hinvariant.queue.clock_eq]
  have hbalance := hinvariant.counted.balance
  constructor
  · omega
  · exact hposition
  · rw [hfits.length, hreceived]
  · rw [← haccepted]
    exact hfits.placed
  · omega
  · refine ⟨losses, hlost, hempty, hcorrupted, hoverflow, fun endpoint => ⟨s.loss.omitted, ?_, ?_⟩⟩
    · unfold InputLoss.trace
      rw [hrecorded.logged.recorded]
      rfl
    · rw [List.length_take, hrecorded.logged.omitted]
      omega
  · exact hfits.sound.ascending
  · rw [hreceived]
    exact hfits.sound.inside
  · rw [hreceived, ← haccepted]
    exact hfits.sound.exact

/-- A capture of single samples through a conversion buffer of two, into a queue of two frames. -/
def narrow : Endpoint := ⟨PcmQueueDelivery.microphone, 2, 2, 1⟩

/-- Three frames come as two packets, and the last frame finds no room. -/
theorem capture_accounted_narrow : ∃ s : System narrow, Reachable narrow s ∧ Captured narrow s ∧
    s.results = [.ok ()] ∧ s.loss.overflow = 1 := by
  obtain ⟨queue, hqueue⟩ : ∃ queue, pcmQueue narrow.format narrow.capacity = .ok queue := ⟨_, rfl⟩
  have h₀ := Reachable.initial hqueue
  cases hqueue
  have h₁ := h₀.step (.ingest [1, 0, 2, 0, 3, 0] 0 none rfl)
  have h₂ := h₁.step (@Step.push narrow _ _ _ _ (.ok ⟨2, by decide⟩) _ rfl rfl)
  have h₃ := h₂.step (@Step.discard narrow _ _ _ _ (.ok ()) _ rfl rfl)
  have h₄ := h₃.step (@Step.push narrow _ _ _ _ (.ok ⟨0, by decide⟩) _ rfl rfl)
  have h₅ := h₄.step (@Step.discard narrow _ _ _ _ (.ok ()) _ rfl rfl)
  have h₆ := h₅.step (.done rfl)
  exact ⟨_, h₆, (capture_accounted (by decide) h₆ (by simp) rfl).1, rfl, rfl⟩

end Runs

end PipewireCapture
