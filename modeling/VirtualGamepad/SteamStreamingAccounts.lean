import VirtualGamepad.Runs
import VirtualGamepad.SteamStreaming

/-! What holds of the haptic FIFOs after any calls: no byte is lost unaccounted for, and the time
at which a channel is looked at does not change what it plays. -/
namespace SteamStreaming

open Fallible MachineInt HidRuntime Runs

section Lanes

/-- One channel, as far as playing it is concerned. -/
structure Lane where
  buffered : ℕ
  channel : Channel
  deriving DecidableEq, Repr

def Lane.playFrom (l : Lane) (last now : ℕ) : Option ℕ :=
  if l.channel.playing then some last else l.channel.startAt.filter (· ≤ now)

/-- What is left of a channel when `units` millionths of a byte are due. -/
def Lane.drain (l : Lane) (units : ℕ) : Lane :=
  let rest := l.buffered - min (units / 1000000) l.buffered
  if rest = 0 then ⟨0, .default⟩
  else ⟨rest, { l.channel.start with
    fraction := units % 1000000, high := mark rest l.channel.high }⟩

def Lane.play (l : Lane) (last now : ℕ) : Lane :=
  if l.buffered = 0 then l
  else
    match l.playFrom last now with
    | none => l
    | some start => l.drain ((now - start) * bytesPerSecond + l.channel.fraction)

/-- A channel that is nearly full has said so. -/
def Lane.Marked (l : Lane) : Prop := highWater ≤ l.buffered → l.channel.high = some true

variable {l : Lane} {last t₁ t₂ now units more size size' : ℕ} {high : Option Bool}

/-- Marks on the way down do not matter. -/
theorem mark_mark (hle : size' ≤ size) (h : highWater ≤ size → high = some true) :
    mark size' (mark size high) = mark size' high := by
  unfold mark
  by_cases htop : highWater ≤ size
  · rw [if_pos htop, h htop]
  · rw [if_neg htop]
    by_cases hlow : size ≤ lowWater
    · have hlow' : size' ≤ lowWater := by omega
      have hbelow : ¬ highWater ≤ size' := by
        unfold lowWater at hlow'
        unfold highWater
        omega
      rw [if_pos hlow, if_neg hbelow, if_pos hlow', if_neg hbelow, if_pos hlow']
    · rw [if_neg hlow]

theorem mark_high (h : highWater ≤ size) : mark size high = some true := by
  unfold mark
  rw [if_pos h]

theorem Channel.start_playing (channel : Channel) : channel.start.playing = true := by
  unfold Channel.start
  by_cases h : channel.playing
  · rw [if_pos h]
    exact h
  · rw [if_neg h]

theorem Channel.start_high (channel : Channel) : channel.start.high = channel.high := by
  unfold Channel.start
  split
  · rfl
  · rfl

/-- A drained channel is empty and at rest, or it goes on playing. -/
theorem Lane.drain_cases (l : Lane) (units : ℕ) :
    (l.buffered ≤ units / 1000000 ∧ l.drain units = ⟨0, .default⟩) ∨
      (units / 1000000 < l.buffered ∧
        l.drain units = ⟨l.buffered - units / 1000000, { l.channel.start with
          fraction := units % 1000000
          high := mark (l.buffered - units / 1000000) l.channel.high }⟩) := by
  unfold Lane.drain
  dsimp only
  by_cases h : l.buffered ≤ units / 1000000
  · left
    rw [Nat.min_eq_right h, Nat.sub_self, if_pos rfl]
    exact ⟨h, rfl⟩
  · right
    rw [Nat.min_eq_left (by omega), if_neg (by omega)]
    exact ⟨by omega, rfl⟩

theorem start_start (channel : Channel) (fraction : ℕ) (high : Option Bool) :
    ({ channel.start with fraction, high } : Channel).start =
      { channel.start with fraction, high } := by
  have h := channel.start_playing
  unfold Channel.start at *
  rw [if_pos h]

/-- Draining twice is draining once for the sum. -/
theorem Lane.drain_drain (hm : l.Marked) (hlt : units / 1000000 < l.buffered) :
    (l.drain units).drain (more + (l.drain units).channel.fraction) = l.drain (units + more) := by
  rcases l.drain_cases units with ⟨hle, _⟩ | ⟨_, hfirst⟩
  · omega
  · rw [hfirst]
    dsimp only
    have hdiv : (units + more) / 1000000 =
        units / 1000000 + (more + units % 1000000) / 1000000 := by omega
    have hmod : (units + more) % 1000000 = (more + units % 1000000) % 1000000 := by omega
    rcases l.drain_cases (units + more) with ⟨hle, honce⟩ | ⟨hmore, honce⟩
    · rw [honce]
      unfold Lane.drain
      dsimp only
      rw [Nat.min_eq_right (by omega), Nat.sub_self, if_pos rfl]
    · rw [honce]
      unfold Lane.drain
      dsimp only
      rw [Nat.min_eq_left (by omega), if_neg (by omega), start_start, hmod, hdiv, ← Nat.sub_sub,
        mark_mark (Nat.sub_le _ _) fun h => hm (h.trans (Nat.sub_le _ _))]

theorem Lane.drain_all (h : l.buffered ≤ units / 1000000) : l.drain units = ⟨0, .default⟩ := by
  rcases l.drain_cases units with ⟨_, hall⟩ | ⟨hlt, _⟩
  · exact hall
  · omega

theorem Lane.playFrom_le {start : ℕ} (hlast : last ≤ now) (h : l.playFrom last now = some start) :
    start ≤ now := by
  unfold Lane.playFrom at h
  by_cases hp : l.channel.playing
  · rw [if_pos hp] at h
    obtain rfl := Option.some.inj h
    exact hlast
  · rw [if_neg hp, Option.filter_eq_some_iff, decide_eq_true_eq] at h
    exact h.2

theorem Lane.playFrom_later {start : ℕ} (h : l.playFrom last t₁ = some start) (h₁₂ : t₁ ≤ t₂) :
    l.playFrom last t₂ = some start := by
  unfold Lane.playFrom at *
  by_cases hp : l.channel.playing
  · rw [if_pos hp] at *
    exact h
  · rw [if_neg hp, Option.filter_eq_some_iff, decide_eq_true_eq] at *
    exact ⟨h.1, h.2.trans h₁₂⟩

/-- A channel that does not play yet does not ask when it was last looked at. -/
theorem Lane.playFrom_idle (h : l.playFrom last t₁ = none) :
    l.playFrom t₁ t₂ = l.playFrom last t₂ := by
  unfold Lane.playFrom at *
  by_cases hp : l.channel.playing
  · rw [if_pos hp] at h
    cases h
  · rw [if_neg hp, if_neg hp]

theorem Lane.play_empty (h : l.buffered = 0) : l.play last now = l := by
  unfold Lane.play
  rw [if_pos h]

theorem Lane.play_idle (h : l.playFrom last now = none) : l.play last now = l := by
  unfold Lane.play
  split
  · rfl
  · rw [h]

theorem Lane.play_from {start : ℕ} (hfull : l.buffered ≠ 0)
    (h : l.playFrom last now = some start) :
    l.play last now = l.drain ((now - start) * bytesPerSecond + l.channel.fraction) := by
  unfold Lane.play
  rw [if_neg hfull, h]

/-- Playing up to a time and then on is playing right to the end. -/
theorem Lane.play_play (hm : l.Marked) (h₁ : last ≤ t₁) (h₂ : t₁ ≤ t₂) :
    (l.play last t₁).play t₁ t₂ = l.play last t₂ := by
  by_cases hempty : l.buffered = 0
  · rw [Lane.play_empty hempty, Lane.play_empty hempty, Lane.play_empty hempty]
  · cases hfrom : l.playFrom last t₁ with
    | none =>
      rw [Lane.play_idle hfrom]
      unfold Lane.play
      rw [Lane.playFrom_idle hfrom]
    | some start =>
      have hstart := Lane.playFrom_le h₁ hfrom
      have hsum : (t₂ - start) * bytesPerSecond + l.channel.fraction =
          (t₁ - start) * bytesPerSecond + l.channel.fraction + (t₂ - t₁) * bytesPerSecond := by
        unfold bytesPerSecond
        omega
      rw [Lane.play_from hempty hfrom, Lane.play_from hempty (Lane.playFrom_later hfrom h₂), hsum]
      generalize (t₁ - start) * bytesPerSecond + l.channel.fraction = units
      rcases l.drain_cases units with ⟨hle, hall⟩ | ⟨hlt, hsome⟩
      · rw [hall, Lane.drain_all (by omega), Lane.play_empty rfl]
      · have hplays : (l.drain units).playFrom t₁ t₂ = some t₁ := by
          rw [hsome]
          unfold Lane.playFrom
          rw [if_pos l.channel.start_playing]
        have hleft : (l.drain units).buffered ≠ 0 := by
          rw [hsome]
          dsimp only
          omega
        rw [Lane.play_from hleft hplays, Lane.drain_drain hm hlt]

/-- A channel that has been looked at plays, or it starts later. -/
theorem Lane.play_due (l : Lane) (last now : ℕ) :
    (l.play last now).buffered = 0 ∨ (l.play last now).channel.playing = true ∨
      ∀ start, (l.play last now).channel.startAt = some start → now < start := by
  by_cases hempty : l.buffered = 0
  · left
    rw [Lane.play_empty hempty]
    exact hempty
  · cases hfrom : l.playFrom last now with
    | some start =>
      rw [Lane.play_from hempty hfrom]
      rcases l.drain_cases ((now - start) * bytesPerSecond + l.channel.fraction) with
        ⟨_, hall⟩ | ⟨_, hsome⟩
      · left
        rw [hall]
      · right
        left
        rw [hsome]
        exact l.channel.start_playing
    | none =>
      right
      right
      rw [Lane.play_idle hfrom]
      intro start hstart
      by_contra hle
      unfold Lane.playFrom at hfrom
      by_cases hp : l.channel.playing
      · rw [if_pos hp] at hfrom
        cases hfrom
      · rw [if_neg hp, hstart, Option.filter_some, if_pos (by simpa using hle)] at hfrom
        cases hfrom

end Lanes

section Calls

variable {s t : StreamState} {i j : Fin 4} {now : ℕ}

def StreamState.lane (s : StreamState) (i : Fin 4) : Lane :=
  ⟨s.outputs.bufferedBytes i, s.channels i⟩

/-- Only the queue of statuses is different, and it is not longer than it may be. -/
def Queues (s t : StreamState) : Prop :=
  ∃ queue, t = { s with feedback := queue } ∧
    (s.feedback.length ≤ maxFeedback → queue.length ≤ maxFeedback)

theorem Queues.refl (s : StreamState) : Queues s s := ⟨s.feedback, rfl, id⟩

theorem feedback_queues (i : Fin 4) (status : UInt8) :
    Meets (feedback i status s) (fun _ => Queues s) (fun _ => Queues s) := by
  unfold feedback
  by_cases hfull : maxFeedback ≤ s.feedback.length
  · rw [if_pos hfull]
    exact Queues.refl s
  · rw [if_neg hfull]
    refine ⟨_, rfl, fun _ => ?_⟩
    rw [List.length_append, List.length_singleton]
    omega

/-- A lane of a state is replaced, and the bytes it lost are counted as consumed. -/
def StreamState.withLane (s : StreamState) (i : Fin 4) (l : Lane) : StreamState :=
  { (s.setBuffered i l.buffered).setChannel i l.channel with
    consumed := Function.update s.consumed i
      (s.consumed i + (s.outputs.bufferedBytes i - l.buffered)) }

theorem StreamState.withLane_lane (s : StreamState) (i : Fin 4) : s.withLane i (s.lane i) = s := by
  unfold StreamState.withLane StreamState.lane StreamState.setBuffered StreamState.setChannel
  dsimp only
  rw [Nat.sub_self, Nat.add_zero]
  simp only [Function.update_eq_self]

theorem StreamState.withLane_setChannel (s : StreamState) (i : Fin 4) (l : Lane) (c : Channel) :
    (s.withLane i l).setChannel i c = s.withLane i ⟨l.buffered, c⟩ := by
  unfold StreamState.withLane StreamState.setChannel
  simp only [Function.update_idem]

theorem StreamState.withLane_buffered (s : StreamState) (i : Fin 4) (l : Lane) :
    (s.withLane i l).outputs.bufferedBytes i = l.buffered := Function.update_self ..

theorem StreamState.withLane_channel (s : StreamState) (i : Fin 4) (l : Lane) :
    (s.withLane i l).channels i = l.channel := Function.update_self ..

theorem watermark_spec (i : Fin 4) :
    Meets (watermark i s)
      (fun _ => Queues (s.setChannel i { s.channels i with
        high := mark (s.outputs.bufferedBytes i) (s.channels i).high }))
      (fun _ => Queues (s.setChannel i { s.channels i with
        high := mark (s.outputs.bufferedBytes i) (s.channels i).high })) := by
  unfold watermark
  rw [meets_get_bind]
  dsimp only
  by_cases hsame : mark (s.outputs.bufferedBytes i) (s.channels i).high = (s.channels i).high
  · rw [if_neg (not_not.mpr hsame), hsame]
    have hkeep : s.setChannel i { s.channels i with high := (s.channels i).high } = s := by
      unfold StreamState.setChannel
      simp only [Function.update_eq_self]
    rw [hkeep]
    exact Queues.refl s
  · rw [if_pos hsame, meets_modify_bind]
    cases hm : mark (s.outputs.bufferedBytes i) (s.channels i).high with
    | none => exact Queues.refl _
    | some high => exact feedback_queues i _

/-- What looking at one channel does to it. -/
def StreamState.played (s : StreamState) (now : ℕ) (i : Fin 4) : Lane :=
  if s.outputs.configured i then (s.lane i).play s.now now else s.lane i

theorem drain_lane (s : StreamState) (i : Fin 4) (units : ℕ) :
    drain s i units = s.withLane i
      ⟨s.outputs.bufferedBytes i - min (units / 1000000) (s.outputs.bufferedBytes i),
        { (s.channels i).start with fraction := units % 1000000 }⟩ := by
  unfold drain StreamState.withLane
  dsimp only
  have hsub : s.outputs.bufferedBytes i - (s.outputs.bufferedBytes i -
      min (units / 1000000) (s.outputs.bufferedBytes i)) =
      min (units / 1000000) (s.outputs.bufferedBytes i) := by omega
  rw [hsub]

theorem advanceOne_spec (now : ℕ) (i : Fin 4) :
    Meets (advanceOne now i s)
      (fun _ => Queues (s.withLane i (s.played now i)))
      (fun _ => Queues (s.withLane i (s.played now i))) := by
  unfold advanceOne
  rw [meets_get_bind]
  have hstay (hplayed : s.played now i = s.lane i) :
      Queues (s.withLane i (s.played now i)) s := by
    rw [hplayed, s.withLane_lane]
    exact Queues.refl s
  by_cases hskip : ¬ s.outputs.configured i ∨ s.outputs.bufferedBytes i = 0
  · rw [if_pos hskip]
    refine hstay ?_
    unfold StreamState.played
    rcases hskip with hc | hempty
    · rw [if_neg hc]
    · split
      · exact Lane.play_empty hempty
      · rfl
  · rw [if_neg hskip]
    rw [not_or, not_not] at hskip
    obtain ⟨hc, hfull⟩ := hskip
    have hplay : s.played now i = (s.lane i).play s.now now := by
      unfold StreamState.played
      rw [if_pos hc]
    have hfrom : playFrom s now i = (s.lane i).playFrom s.now now := rfl
    cases hs : playFrom s now i with
    | none =>
      refine hstay ?_
      rw [hplay]
      exact Lane.play_idle (hfrom.symm.trans hs)
    | some start =>
      rw [hplay, Lane.play_from hfull (hfrom.symm.trans hs)]
      dsimp only
      rw [meets_modify_bind, meets_get_bind, drain_lane]
      have hchannel : (s.lane i).channel = s.channels i := rfl
      rw [hchannel]
      rcases (s.lane i).drain_cases ((now - start) * bytesPerSecond + (s.channels i).fraction) with
        ⟨hle, hall⟩ | ⟨hlt, hsome⟩
      · change s.outputs.bufferedBytes i ≤ _ at hle
        rw [hall, Nat.min_eq_right hle, Nat.sub_self, if_pos (by simp [StreamState.withLane_buffered]),
          meets_modify_bind, StreamState.withLane_setChannel]
        exact feedback_queues i _
      · change _ < s.outputs.bufferedBytes i at hlt
        have hleft : s.outputs.bufferedBytes i -
          ((now - start) * bytesPerSecond + (s.channels i).fraction) / 1000000 ≠ 0 := by omega
        rw [hsome, Nat.min_eq_left hlt.le, if_neg (by simpa [StreamState.withLane_buffered])]
        have hmark := watermark_spec (s := s.withLane i ⟨s.outputs.bufferedBytes i -
          ((now - start) * bytesPerSecond + (s.channels i).fraction) / 1000000,
          { (s.channels i).start with
            fraction := ((now - start) * bytesPerSecond + (s.channels i).fraction) % 1000000 }⟩) i
        rw [StreamState.withLane_setChannel, StreamState.withLane_buffered,
          StreamState.withLane_channel] at hmark
        dsimp only at hmark
        rw [Channel.start_high] at hmark
        dsimp only
        rw [Channel.start_high]
        exact hmark

/-- The listed channels have been looked at, and nothing else has changed. -/
structure Advanced (now : ℕ) (indices : List (Fin 4)) (s t : StreamState) : Prop where
  now_eq : t.now = s.now
  configured_eq : t.outputs.configured = s.outputs.configured
  done : ∀ i ∈ indices, t.lane i = s.played now i
  rest : ∀ i ∉ indices, t.lane i = s.lane i

theorem Queues.withLane {l : Lane} (h : Queues (s.withLane i l) t) :
    t.now = s.now ∧ t.outputs.configured = s.outputs.configured ∧ t.lane i = l ∧
      ∀ j ≠ i, t.lane j = s.lane j := by
  obtain ⟨queue, rfl, _⟩ := h
  refine ⟨rfl, rfl, ?_, ?_⟩
  · unfold StreamState.lane
    dsimp only
    rw [s.withLane_buffered, s.withLane_channel]
  · intro j hj
    have hb : (s.withLane i l).outputs.bufferedBytes j = s.outputs.bufferedBytes j :=
      Function.update_of_ne hj ..
    have hc : (s.withLane i l).channels j = s.channels j := Function.update_of_ne hj ..
    unfold StreamState.lane
    dsimp only
    rw [hb, hc]

theorem advanceEach_spec (now : ℕ) (indices : List (Fin 4)) (hnodup : indices.Nodup) :
    Meets (advanceEach now indices s) (fun _ => Advanced now indices s) (fun _ _ => True) := by
  induction indices generalizing s with
  | nil => exact ⟨rfl, rfl, nofun, fun _ _ => rfl⟩
  | cons i indices ih =>
    obtain ⟨hi, hnodup⟩ := List.nodup_cons.mp hnodup
    unfold advanceEach
    refine meets_bind ((advanceOne_spec now i).mono (fun _ _ h => h) fun _ _ _ => trivial) ?_
    intro _ s₁ h₁
    obtain ⟨hnow, hconf, hlane, hothers⟩ := h₁.withLane
    refine (ih hnodup).mono ?_ fun _ _ h => h
    rintro _ t h
    refine ⟨h.now_eq.trans hnow, h.configured_eq.trans hconf, ?_, ?_⟩
    · intro j hj
      rcases List.mem_cons.mp hj with rfl | hj
      · rw [h.rest j hi, hlane]
      · have hne : j ≠ i := fun he => hi (he ▸ hj)
        rw [h.done j hj]
        unfold StreamState.played
        rw [hconf, hnow, hothers j hne]
    · intro j hj
      rw [List.mem_cons, not_or] at hj
      rw [h.rest j hj.2, hothers j hj.1]

theorem advance_spec (now : ℕ) :
    Meets (advance now s)
      (fun _ t => t.now = now ∧ t.outputs.configured = s.outputs.configured ∧
        ∀ i, t.lane i = s.played now i)
      (fun _ _ => True) := by
  unfold advance
  refine meets_bind (advanceEach_spec now _ (List.nodup_finRange 4)) ?_
  intro _ t h
  exact ⟨rfl, h.configured_eq, fun i => h.done i (List.mem_finRange i)⟩

end Calls

section Invariant

/-- What holds of each channel. -/
structure Sound (s : StreamState) (i : Fin 4) : Prop where
  fits : s.outputs.bufferedBytes i ≤ capacity
  marked : (s.lane i).Marked
  idle : s.outputs.configured i = false →
    s.outputs.bufferedBytes i = 0 ∧ s.channels i = .default
  balance : s.outputs.receivedBytes i < u64Max →
    s.outputs.receivedBytes i = s.consumed i + s.outputs.overrunBytes i +
      s.outputs.bufferedBytes i + s.dropped i

/-- The channels are sound, and the statuses are not too many. -/
def AllSound (s : StreamState) : Prop :=
  (∀ i, Sound s i) ∧ s.feedback.length ≤ maxFeedback

variable {s t : StreamState} {now : ℕ}

theorem Queues.allSound (h : Queues s t) (hs : AllSound s) : AllSound t := by
  obtain ⟨queue, rfl, hq⟩ := h
  exact ⟨fun i => ⟨(hs.1 i).fits, (hs.1 i).marked, (hs.1 i).idle, (hs.1 i).balance⟩, hq hs.2⟩

theorem Lane.drain_le (l : Lane) (units : ℕ) : (l.drain units).buffered ≤ l.buffered := by
  rcases l.drain_cases units with ⟨_, h⟩ | ⟨_, h⟩
  · rw [h]
    exact Nat.zero_le _
  · rw [h]
    exact Nat.sub_le _ _

theorem Lane.drain_marked (l : Lane) (units : ℕ) : (l.drain units).Marked := by
  rcases l.drain_cases units with ⟨_, h⟩ | ⟨_, h⟩
  · rw [h]
    exact nofun
  · rw [h]
    exact mark_high

theorem Lane.play_cases (l : Lane) (last now : ℕ) :
    l.play last now = l ∨ ∃ units, l.play last now = l.drain units := by
  by_cases hempty : l.buffered = 0
  · exact .inl (Lane.play_empty hempty)
  · cases hfrom : l.playFrom last now with
    | none => exact .inl (Lane.play_idle hfrom)
    | some start => exact .inr ⟨_, Lane.play_from hempty hfrom⟩

/-- Nothing else of a channel has changed. -/
structure Same (s t : StreamState) (j : Fin 4) : Prop where
  configured : t.outputs.configured j = s.outputs.configured j
  buffered : t.outputs.bufferedBytes j = s.outputs.bufferedBytes j
  received : t.outputs.receivedBytes j = s.outputs.receivedBytes j
  overrun : t.outputs.overrunBytes j = s.outputs.overrunBytes j
  channel : t.channels j = s.channels j
  consumed : t.consumed j = s.consumed j
  dropped : t.dropped j = s.dropped j

theorem Same.sound {j : Fin 4} (h : Same s t j) (hs : Sound s j) : Sound t j := by
  have hlane : t.lane j = s.lane j := by
    unfold StreamState.lane
    rw [h.buffered, h.channel]
  constructor
  · rw [h.buffered]
    exact hs.fits
  · rw [hlane]
    exact hs.marked
  · rw [h.configured, h.buffered, h.channel]
    exact hs.idle
  · rw [h.received, h.consumed, h.overrun, h.buffered, h.dropped]
    exact hs.balance

theorem new_sound (enabled : Bool) : AllSound (.new enabled) :=
  ⟨fun _ => ⟨Nat.zero_le _, nofun, fun _ => ⟨rfl, rfl⟩, fun _ => rfl⟩, Nat.zero_le _⟩

theorem reset_sound (hs : AllSound s) : AllSound (s.reset now) := by
  refine ⟨fun i => ⟨Nat.zero_le _, nofun, fun _ => ⟨rfl, rfl⟩, ?_⟩, Nat.zero_le _⟩
  intro hlt
  have hb := (hs.1 i).balance hlt
  unfold StreamState.reset
  dsimp only
  omega

theorem withLane_sound {i : Fin 4} {l : Lane} (hs : AllSound s)
    (hc : s.outputs.configured i = true) (hle : l.buffered ≤ s.outputs.bufferedBytes i)
    (hm : l.Marked) : AllSound (s.withLane i l) := by
  refine ⟨fun j => ?_, hs.2⟩
  by_cases hj : j = i
  · subst hj
    have hbuffered := s.withLane_buffered j l
    constructor
    · rw [hbuffered]
      exact hle.trans (hs.1 j).fits
    · unfold StreamState.lane
      rw [hbuffered, s.withLane_channel]
      exact hm
    · intro hidle
      have hoff : s.outputs.configured j = false := hidle
      rw [hc] at hoff
      cases hoff
    · intro hlt
      have hb := (hs.1 j).balance hlt
      have hconsumed : (s.withLane j l).consumed j =
          s.consumed j + (s.outputs.bufferedBytes j - l.buffered) := Function.update_self ..
      have hreceived : (s.withLane j l).outputs.receivedBytes j = s.outputs.receivedBytes j := rfl
      have hoverrun : (s.withLane j l).outputs.overrunBytes j = s.outputs.overrunBytes j := rfl
      have hdropped : (s.withLane j l).dropped j = s.dropped j := rfl
      omega
  · have hsame : Same s (s.withLane i l) j :=
      ⟨rfl, Function.update_of_ne hj .., rfl, rfl, Function.update_of_ne hj ..,
        Function.update_of_ne hj .., rfl⟩
    exact hsame.sound (hs.1 j)

theorem played_sound (i : Fin 4) (hs : AllSound s) : AllSound (s.withLane i (s.played now i)) := by
  unfold StreamState.played
  by_cases hc : s.outputs.configured i
  · rw [if_pos hc]
    rcases (s.lane i).play_cases s.now now with h | ⟨units, h⟩
    · rw [h, s.withLane_lane]
      exact hs
    · rw [h]
      exact withLane_sound hs hc ((s.lane i).drain_le units) ((s.lane i).drain_marked units)
  · rw [if_neg hc, s.withLane_lane]
    exact hs

theorem advanceEach_sound (indices : List (Fin 4)) (hs : AllSound s) :
    Meets (advanceEach now indices s) (fun _ => AllSound) (fun _ => AllSound) := by
  induction indices generalizing s with
  | nil => exact hs
  | cons i indices ih =>
    unfold advanceEach
    refine meets_bind ((advanceOne_spec now i).mono (fun _ _ h => h)
      fun _ _ h => h.allSound (played_sound i hs)) ?_
    intro _ t h
    exact ih (h.allSound (played_sound i hs))

theorem advance_sound (hs : AllSound s) :
    Meets (advance now s) (fun _ => AllSound) (fun _ => AllSound) := by
  unfold advance
  refine meets_bind (advanceEach_sound _ hs) ?_
  intro _ t h
  exact ⟨fun i => ⟨(h.1 i).fits, (h.1 i).marked, (h.1 i).idle, (h.1 i).balance⟩, h.2⟩

theorem clear_sound {i : Fin 4} (configured : Bool) (hs : AllSound s) :
    AllSound (s.clear i configured) := by
  refine ⟨fun j => ?_, hs.2⟩
  by_cases hj : j = i
  · subst hj
    have hbuffered : (s.clear j configured).outputs.bufferedBytes j = 0 := Function.update_self ..
    have hchannel : (s.clear j configured).channels j = .default := Function.update_self ..
    constructor
    · rw [hbuffered]
      exact Nat.zero_le _
    · unfold StreamState.lane
      rw [hbuffered]
      exact nofun
    · exact fun _ => ⟨hbuffered, hchannel⟩
    · intro hlt
      have hb := (hs.1 j).balance hlt
      have hdropped : (s.clear j configured).dropped j =
          s.dropped j + s.outputs.bufferedBytes j := Function.update_self ..
      have hreceived : (s.clear j configured).outputs.receivedBytes j =
          s.outputs.receivedBytes j := rfl
      have hoverrun : (s.clear j configured).outputs.overrunBytes j =
          s.outputs.overrunBytes j := rfl
      have hconsumed : (s.clear j configured).consumed j = s.consumed j := rfl
      omega
  · have hsame : Same s (s.clear i configured) j :=
      ⟨Function.update_of_ne hj .., Function.update_of_ne hj .., rfl, rfl,
        Function.update_of_ne hj .., rfl, Function.update_of_ne hj ..⟩
    exact hsame.sound (hs.1 j)

theorem configureOne_sound (operation target : UInt8) (i : Fin 4) (hs : AllSound s) :
    Meets (configureOne operation target i s) (fun _ => AllSound) (fun _ _ => True) := by
  have hqueue {u : StreamState} (status : UInt8) (hu : AllSound u) :
      Meets (feedback i status u) (fun _ => AllSound) (fun _ _ => True) :=
    (feedback_queues i status).mono (fun _ _ h => h.allSound hu) fun _ _ _ => trivial
  unfold configureOne
  rw [meets_get_bind]
  split
  · exact meets_modify_bind.mpr (hqueue _ (clear_sound false hs))
  · split
    · exact hqueue _ hs
    · split
      · trivial
      · exact meets_modify_bind.mpr (hqueue _ (clear_sound true hs))

/-- What pushing so many bytes does to a configured channel. -/
def StreamState.pushed (s : StreamState) (i : Fin 4) (length : ℕ) : StreamState :=
  let space := capacity - s.outputs.bufferedBytes i
  let size := s.outputs.bufferedBytes i + min length space
  { s with
    outputs := { s.outputs with
      bufferedBytes := Function.update s.outputs.bufferedBytes i size
      receivedBytes := Function.update s.outputs.receivedBytes i
        (saturatingAdd (s.outputs.receivedBytes i) length)
      overrunBytes := Function.update s.outputs.overrunBytes i
        (if space < length then saturatingAdd (s.outputs.overrunBytes i) (length - space)
        else s.outputs.overrunBytes i) }
    channels := Function.update s.channels i { s.channels i with
      startAt := if s.outputs.bufferedBytes i = 0 then some (saturatingAdd s.now startDelayUs)
        else (s.channels i).startAt
      high := mark size (s.channels i).high } }

theorem schedule_eq (s : StreamState) (i : Fin 4) :
    schedule s i = s.setChannel i { s.channels i with
      startAt := if s.outputs.bufferedBytes i = 0 then some (saturatingAdd s.now startDelayUs)
        else (s.channels i).startAt } := by
  unfold schedule
  split
  · rfl
  · unfold StreamState.setChannel
    simp only [Function.update_eq_self]

theorem spill_spec (i : Fin 4) (length space : ℕ) :
    Meets (spill i length space s)
      (fun _ => Queues { s with outputs := { s.outputs with
        overrunBytes := Function.update s.outputs.overrunBytes i
          (if space < length then saturatingAdd (s.outputs.overrunBytes i) (length - space)
          else s.outputs.overrunBytes i) } })
      (fun _ _ => True) := by
  unfold spill
  by_cases h : space < length
  · rw [if_pos h, if_pos h, meets_modify_bind]
    exact (feedback_queues i _).mono (fun _ _ h => h) fun _ _ _ => trivial
  · rw [if_neg h, if_neg h, Function.update_eq_self]
    exact Queues.refl s

theorem push_spec (i : Fin 4) (data : List UInt8) :
    Meets (push i data s)
      (fun _ t => s.outputs.configured i = true ∧ Queues (s.pushed i data.length) t)
      (fun _ _ => True) := by
  unfold push
  rw [meets_get_bind]
  by_cases hc : s.outputs.configured i
  · rw [if_neg (not_not.mpr hc)]
    split
    · trivial
    · dsimp only
      rw [meets_modify_bind]
      refine meets_bind (spill_spec i _ _) ?_
      rintro _ _ ⟨queue, rfl, hq⟩
      rw [meets_modify_bind, meets_modify_bind, schedule_eq]
      refine (watermark_spec i).mono ?_ fun _ _ _ => trivial
      rintro _ _ ⟨queue', rfl, hq'⟩
      refine ⟨hc, queue', ?_, fun h => hq' (hq h)⟩
      unfold StreamState.setChannel StreamState.setBuffered StreamState.pushed receive
      simp only [Function.update_idem, Function.update_self]
  · rw [if_pos hc]
    trivial

theorem pushed_sound {i : Fin 4} (length : ℕ) (hs : AllSound s)
    (hc : s.outputs.configured i = true) : AllSound (s.pushed i length) := by
  have hfits := (hs.1 i).fits
  refine ⟨fun j => ?_, hs.2⟩
  by_cases hj : j = i
  · subst hj
    have hbuffered : (s.pushed j length).outputs.bufferedBytes j =
        s.outputs.bufferedBytes j + min length (capacity - s.outputs.bufferedBytes j) :=
      Function.update_self ..
    constructor
    · rw [hbuffered]
      omega
    · intro hhigh
      unfold StreamState.lane at hhigh ⊢
      dsimp only at hhigh ⊢
      rw [hbuffered] at hhigh
      unfold StreamState.pushed
      dsimp only
      rw [Function.update_self]
      exact mark_high hhigh
    · intro hidle
      have hoff : s.outputs.configured j = false := hidle
      rw [hc] at hoff
      cases hoff
    · intro hlt
      have hreceived : (s.pushed j length).outputs.receivedBytes j =
          saturatingAdd (s.outputs.receivedBytes j) length := Function.update_self ..
      have hoverrun : (s.pushed j length).outputs.overrunBytes j =
          if capacity - s.outputs.bufferedBytes j < length then
            saturatingAdd (s.outputs.overrunBytes j)
              (length - (capacity - s.outputs.bufferedBytes j))
          else s.outputs.overrunBytes j := Function.update_self ..
      have hconsumed : (s.pushed j length).consumed j = s.consumed j := rfl
      have hdropped : (s.pushed j length).dropped j = s.dropped j := rfl
      have hb := (hs.1 j).balance
      rw [hreceived] at hlt ⊢
      rw [hoverrun, hconsumed, hdropped, hbuffered]
      unfold saturatingAdd at *
      have hadd : s.outputs.receivedBytes j + length < u64Max := by omega
      have hbalance := hb (by omega)
      split
      · omega
      · omega
  · have hsame : Same s (s.pushed i length) j :=
      ⟨rfl, Function.update_of_ne hj .., Function.update_of_ne hj .., Function.update_of_ne hj ..,
        Function.update_of_ne hj .., rfl, rfl⟩
    exact hsame.sound (hs.1 j)

theorem push_sound (i : Fin 4) (data : List UInt8) (hs : AllSound s) :
    Meets (push i data s) (fun _ => AllSound) (fun _ _ => True) :=
  (push_spec i data).mono (fun _ _ h => h.2.allSound (pushed_sound _ hs h.1)) fun _ _ h => h

theorem applyPacket_sound (packet : StreamPacket) (hs : AllSound s) :
    Meets (applyPacket packet s) (fun _ => AllSound) (fun _ _ => True) := by
  unfold applyPacket
  cases packet with
  | configure operation target mode =>
    dsimp only
    split
    all_goals exact meets_bind (configureOne_sound _ _ _ hs) fun _ _ h => configureOne_sound _ _ _ h
  | mono target data => exact push_sound _ data hs
  | stereo left right => exact meets_bind (push_sound _ left hs) fun _ _ h => push_sound _ right h

theorem accept_sound (now : ℕ) (packet : StreamPacket) (hs : AllSound s) :
    Meets (accept packet now s) (fun _ => AllSound) (fun _ => AllSound) := by
  have hcall : Meets ((advance now >>= fun _ => applyPacket packet) s) (fun _ => AllSound)
      (fun _ _ => True) :=
    meets_bind ((advance_sound hs).mono (fun _ _ h => h) fun _ _ _ => trivial)
      fun _ _ h => applyPacket_sound packet h
  unfold accept
  split
  · exact hs
  · rcases hr : (advance now >>= fun _ => applyPacket packet) s with ⟨e | _, next⟩
    · exact hs
    · rw [hr] at hcall
      have h : AllSound next := hcall
      exact ⟨fun i => ⟨(h.1 i).fits, (h.1 i).marked, (h.1 i).idle, (h.1 i).balance⟩, h.2⟩

theorem poll_sound (now : ℕ) (hs : AllSound s) :
    Meets (poll now s) (fun _ => AllSound) (fun _ => AllSound) := by
  have hdrained {u : StreamState} (hu : AllSound u) : AllSound { u with feedback := [] } :=
    ⟨fun i => ⟨(hu.1 i).fits, (hu.1 i).marked, (hu.1 i).idle, (hu.1 i).balance⟩, Nat.zero_le _⟩
  unfold poll
  have hfirst : Meets (takeFeedback s) (fun _ => AllSound) (fun _ => AllSound) := hdrained hs
  refine meets_bind hfirst ?_
  intro pending t ht
  refine meets_bind (advance_sound ht) ?_
  intro _ u hu
  exact hdrained hu

end Invariant

section Runs

inductive Op where
  | accept (packet : StreamPacket) (now : ℕ)
  | poll (now : ℕ)
  | reset (now : ℕ)
  | advance (now : ℕ)

/-- What is left after a call, whatever it answered. -/
def Op.run (s : StreamState) : Op → StreamState
  | .accept packet now => (SteamStreaming.accept packet now s).2
  | .poll now => (SteamStreaming.poll now s).2
  | .reset now => s.reset now
  | .advance now => (SteamStreaming.advance now s).2

def Step (s : StreamState) (op : Op) (t : StreamState) : Prop := t = op.run s

variable {s t : StreamState} {now : ℕ} {enabled : Bool} {ops : List Op}

theorem step_sound {op : Op} (hs : AllSound s) (h : Step s op t) : AllSound t := by
  unfold Step at h
  subst h
  cases op with
  | accept packet now => exact meets_state.mp (accept_sound now packet hs)
  | poll now => exact meets_state.mp (poll_sound now hs)
  | reset now => exact reset_sound hs
  | advance now => exact meets_state.mp (advance_sound hs)

theorem run_sound (h : Run Step (.new enabled) ops s) : AllSound s :=
  h.invariant (fun _ _ _ hs st => step_sound hs st) (new_sound enabled)

/-- Looking at the channels in between changes nothing about them. -/
theorem advance_split {s₁ s₂ s' : StreamState} {t₁ t₂ : ℕ} (hs : AllSound s) (h₁ : s.now ≤ t₁)
    (h₂ : t₁ ≤ t₂) (ha : advance t₁ s = (.ok (), s₁)) (hb : advance t₂ s₁ = (.ok (), s₂))
    (hc : advance t₂ s = (.ok (), s')) (i : Fin 4) : s₂.lane i = s'.lane i := by
  have ha' := advance_spec (s := s) t₁
  have hb' := advance_spec (s := s₁) t₂
  have hc' := advance_spec (s := s) t₂
  rw [ha] at ha'
  rw [hb] at hb'
  rw [hc] at hc'
  obtain ⟨hnow, hconf, hlane⟩ := ha'
  rw [hb'.2.2 i, hc'.2.2 i]
  unfold StreamState.played
  rw [hconf, hlane i, hnow]
  unfold StreamState.played
  split
  · exact Lane.play_play (hs.1 i).marked h₁ h₂
  · rfl

theorem channelDeadline_later {i : Fin 4} {d : ℕ} (hnow : now < u64Max)
    (ht : t.now = now) (hconf : t.outputs.configured = s.outputs.configured)
    (hlane : t.lane i = s.played now i) (hi : Sound t i) (h : channelDeadline t i = some d) :
    now < d := by
  unfold channelDeadline at h
  by_cases hempty : t.outputs.bufferedBytes i = 0
  · rw [if_pos hempty] at h
    cases h
  · rw [if_neg hempty] at h
    have hon : s.outputs.configured i = true := by
      rw [← hconf]
      by_contra hoff
      exact hempty (hi.idle (Bool.eq_false_iff.mpr hoff)).1
    have hplay : t.lane i = (s.lane i).play s.now now := by
      rw [hlane]
      unfold StreamState.played
      rw [if_pos hon]
    have hdue := (s.lane i).play_due s.now now
    rw [← hplay] at hdue
    by_cases hp : (t.channels i).playing
    · rw [if_pos hp, ht] at h
      obtain rfl := Option.some.inj h
      unfold saturatingAdd feedbackPollUs
      omega
    · rw [if_neg hp] at h
      rcases hdue with hzero | hplaying | hlater
      · exact absurd hzero hempty
      · exact absurd hplaying hp
      · exact hlater d h

/-- Nothing is due when everything has just been looked at. -/
theorem poll_deadline {reports : List Report} {d : ℕ} (hs : AllSound s) (hnow : now < u64Max)
    (h : poll now s = (.ok reports, t)) (hd : t.deadline = some d) : now < d := by
  have hsound := poll_sound now hs
  rw [h] at hsound
  have hspec : Meets (poll now s)
      (fun _ t => t.feedback = [] ∧ t.now = now ∧
        t.outputs.configured = s.outputs.configured ∧ ∀ i, t.lane i = s.played now i)
      (fun _ _ => True) := by
    unfold poll
    have hfirst : Meets (takeFeedback s) (fun _ t => t = { s with feedback := [] })
        (fun _ _ => True) := rfl
    refine meets_bind hfirst ?_
    rintro _ t rfl
    refine meets_bind (advance_spec now) ?_
    rintro _ u ⟨hu, hconf, hlane⟩
    exact ⟨rfl, hu, hconf, hlane⟩
  rw [h] at hspec
  obtain ⟨hempty, ht, hconf, hlane⟩ := hspec
  unfold StreamState.deadline at hd
  rw [if_neg (not_not.mpr hempty)] at hd
  obtain ⟨i, _, hi⟩ := List.mem_filterMap.mp (List.min?_mem hd)
  exact channelDeadline_later hnow ht hconf (hlane i) (hsound.1 i) hi

/-- What the haptic FIFOs promise. -/
structure FifoContract (s : StreamState) : Prop where
  fits : ∀ i, s.outputs.bufferedBytes i ≤ capacity
  conserved : ∀ i, s.outputs.receivedBytes i < u64Max →
    s.outputs.receivedBytes i = s.consumed i + s.outputs.overrunBytes i +
      s.outputs.bufferedBytes i + s.dropped i
  idle : ∀ i, s.outputs.configured i = false →
    s.outputs.bufferedBytes i = 0 ∧ (s.channels i).playing = false
  split : ∀ t₁ t₂ s₁ s₂ s', s.now ≤ t₁ → t₁ ≤ t₂ → advance t₁ s = (.ok (), s₁) →
    advance t₂ s₁ = (.ok (), s₂) → advance t₂ s = (.ok (), s') → ∀ i, s₂.lane i = s'.lane i
  deadline : ∀ now reports t, now < u64Max → poll now s = (.ok reports, t) →
    ∀ d, t.deadline = some d → now < d
  queue : s.feedback.length ≤ maxFeedback
  rejected : ∀ packet now e t, accept packet now s = (.error e, t) → t = s

/-- After any calls at any times, the FIFOs keep their contract. -/
theorem haptic_fifo_contract (h : Run Step (.new enabled) ops s) : FifoContract s := by
  have hs := run_sound h
  refine ⟨fun i => (hs.1 i).fits, fun i => (hs.1 i).balance, ?_, ?_, ?_, hs.2, ?_⟩
  · intro i hoff
    obtain ⟨hempty, hrest⟩ := (hs.1 i).idle hoff
    rw [hrest]
    exact ⟨hempty, rfl⟩
  · intro t₁ t₂ s₁ s₂ s' h₁ h₂ ha hb hc i
    exact advance_split hs h₁ h₂ ha hb hc i
  · intro now reports t hnow hp d hd
    exact poll_deadline hs hnow hp hd
  · intro packet now e t ha
    exact accept_error ha

/-- Sixty-two bytes are pushed, and sixteen of them are played. -/
def rehearsed : List Op :=
  [.accept (.configure 2 2 0) 0, .poll 0, .accept (.mono 0 (List.replicate 62 0x55)) 0,
    .advance 9000]

theorem haptic_fifo_contract_rehearsed : ∃ s, Run Step (.new true) rehearsed s ∧
    s.outputs.bufferedBytes 0 = 46 ∧ FifoContract s := by
  have hrun : Run Step (.new true) rehearsed (rehearsed.foldl Op.run (.new true)) :=
    .snoc (.snoc (.snoc (.snoc .nil rfl) rfl) rfl) rfl
  exact ⟨_, hrun, by decide +kernel, haptic_fifo_contract hrun⟩

end Runs

end SteamStreaming
