import VirtualGamepad.MachineInt
import Mathlib.Algebra.Order.Floor.Semifield
import Mathlib.Algebra.Order.Floor.Semiring
import Mathlib.Data.Rat.Floor
import Mathlib.Tactic.Ring
import Mathlib.Tactic.Positivity

/-! The graph clock of a capture or playback stream: every buffer is recorded with the tick of its
graph cycle, and cycles between two recorded ticks that carried no buffer are counted as missed
frames. -/
namespace GraphTiming

open MachineInt

/-! Rounding positions of a steady pace. -/
section Rounding

/-- A rounding that never lags the whole part of what is added to a position. -/
def KeepsPace (round : ℚ → ℕ) : Prop :=
  ∀ x y : ℚ, 0 ≤ x → 0 ≤ y → round x + ⌊y⌋₊ ≤ round (x + y)

theorem keepsPace_floor : KeepsPace fun x => ⌊x⌋₊ := by
  intro x y hx hy
  apply Nat.le_floor
  push_cast
  exact add_le_add (Nat.floor_le hx) (Nat.floor_le hy)

theorem keepsPace_ceil : KeepsPace fun x => ⌈x⌉₊ := by
  intro x y hx hy
  have hwhole : x + ⌊y⌋₊ ≤ x + y := by
    simpa using Nat.floor_le hy
  simpa [Nat.ceil_add_natCast hx] using Nat.ceil_mono hwhole

end Rounding

def saturatingAdd (a b : UInt64) : UInt64 :=
  UInt64.ofNat (MachineInt.saturatingAdd a.toNat b.toNat)

def saturatingSub (a b : UInt64) : UInt64 := UInt64.ofNat (a.toNat - b.toNat)

/-- `u64::try_from(n).unwrap_or(u64::MAX)`. -/
def clamped (n : ℕ) : UInt64 := UInt64.ofNat (min n u64Max)

theorem toNat_le (a : UInt64) : a.toNat ≤ u64Max := Nat.le_sub_one_of_lt a.toNat_lt

theorem toNat_ofNat_le {n : ℕ} (h : n ≤ u64Max) : (UInt64.ofNat n).toNat = n :=
  UInt64.toNat_ofNat_of_lt' (Nat.lt_of_le_of_lt h (by decide))

@[simp] theorem toNat_saturatingAdd (a b : UInt64) :
    (saturatingAdd a b).toNat = min (a.toNat + b.toNat) u64Max :=
  toNat_ofNat_le (Nat.min_le_right _ _)

@[simp] theorem toNat_saturatingSub (a b : UInt64) :
    (saturatingSub a b).toNat = a.toNat - b.toNat :=
  toNat_ofNat_le (Nat.le_trans (Nat.sub_le _ _) (toNat_le a))

@[simp] theorem toNat_clamped (n : ℕ) : (clamped n).toNat = min n u64Max :=
  toNat_ofNat_le (Nat.min_le_right _ _)

theorem saturatingAdd_assoc (a b c : UInt64) :
    saturatingAdd (saturatingAdd a b) c = saturatingAdd a (saturatingAdd b c) := by
  apply UInt64.toNat_inj.mp
  simp only [toNat_saturatingAdd]
  omega

@[simp] theorem saturatingAdd_zero (a : UInt64) : saturatingAdd a 0 = a := by
  apply UInt64.toNat_inj.mp
  simpa using toNat_le a

@[simp] theorem zero_saturatingAdd (a : UInt64) : saturatingAdd 0 a = a := by
  apply UInt64.toNat_inj.mp
  simpa using toNat_le a

theorem le_saturatingAdd (a b : UInt64) : a ≤ saturatingAdd a b := by
  rw [UInt64.le_iff_toNat_le, toNat_saturatingAdd]
  exact Nat.le_min.mpr ⟨Nat.le_add_right _ _, toNat_le a⟩

/-- Numerator and denominator of the seconds of one tick. -/
abbrev Rate := UInt32 × UInt32

structure Shared where
  seq : UInt64
  ticks : UInt64
  rate : UInt64
  now : Int64
  delay : Int64
  discontinuities : UInt64
  missed : UInt64

def Shared.default : Shared := ⟨0, 0, 0, 0, 0, 0, 0⟩

structure Tracker where
  previous : Option (UInt64 × Rate × UInt64)
  discontinuities : UInt64
  missed : UInt64

def Tracker.default : Tracker := ⟨none, 0, 0⟩

def Tracker.restart (t : Tracker) : Tracker := { t with previous := none }

/-- The frames of the ticks from `last` to `ticks`, computed in 128 bits. -/
def elapsed (last ticks : UInt64) (rate : Rate) (sampleRate : UInt32) : ℕ :=
  (ticks - last).toNat * rate.1.toNat * sampleRate.toNat / rate.2.toNat

/-- Leaves the counters and the new `previous` of one record with a nonzero rate. -/
def Tracker.observe (t : Tracker) (ticks : UInt64) (rate : Rate) (frames : UInt64)
    (sampleRate : UInt32) : Tracker :=
  match t.previous with
  | none => { t with previous := some (ticks, rate, frames) }
  | some (last, old, lastFrames) =>
    if rate ≠ old ∨ ticks < last then
      { t with
        discontinuities := saturatingAdd t.discontinuities 1
        previous := some (ticks, rate, frames) }
    else if ticks = last then
      -- a stream may produce multiple buffers during one graph cycle
      { t with previous := some (ticks, rate, saturatingAdd lastFrames frames) }
    else
      let gap := saturatingSub (clamped (elapsed last ticks rate sampleRate)) lastFrames
      if gap ≠ 0 then
        { discontinuities := saturatingAdd t.discontinuities 1
          missed := saturatingAdd t.missed gap
          previous := some (ticks, rate, frames) }
      else { t with previous := some (ticks, rate, frames) }

def Shared.publish (s : Shared) (t : Tracker) (ticks : UInt64) (rate : Rate) (now delay : Int64) :
    Shared where
  seq := s.seq + 2
  ticks := ticks
  rate := rate.1.toUInt64 <<< 32 ||| rate.2.toUInt64
  now := now
  delay := delay
  discontinuities := t.discontinuities
  missed := t.missed

structure Clock where
  tracker : Tracker
  shared : Shared

def Clock.start : Clock := ⟨.default, .default⟩

structure Buffer where
  frames : UInt64
  now : Int64
  delay : Int64

def Clock.record (c : Clock) (ticks : UInt64) (rate : Rate) (buffer : Buffer)
    (sampleRate : UInt32) : Clock :=
  if rate.1 = 0 ∨ rate.2 = 0 then c
  else
    let tracker := c.tracker.observe ticks rate buffer.frames sampleRate
    ⟨tracker, c.shared.publish tracker ticks rate buffer.now buffer.delay⟩

def Clock.restart (c : Clock) : Clock := { c with tracker := c.tracker.restart }

@[simp] theorem restart_missed (c : Clock) : c.restart.tracker.missed = c.tracker.missed := rfl

inductive Call where
  | restart
  | record (ticks : UInt64) (rate : Rate) (buffer : Buffer) (sampleRate : UInt32)

def Clock.step (c : Clock) : Call → Clock
  | .restart => c.restart
  | .record ticks rate buffer sampleRate => c.record ticks rate buffer sampleRate

def Clock.run (c : Clock) (calls : List Call) : Clock := calls.foldl Clock.step c

theorem elapsed_product_lt (last ticks : UInt64) (rate : Rate) (sampleRate : UInt32) :
    (ticks - last).toNat * rate.1.toNat * sampleRate.toNat < 2 ^ 128 := by
  have hticks := (ticks - last).toNat_lt
  have hnum := rate.1.toNat_lt
  have hsample := sampleRate.toNat_lt
  calc (ticks - last).toNat * rate.1.toNat * sampleRate.toNat
      ≤ (ticks - last).toNat * (2 ^ 32 * 2 ^ 32) := by
        rw [Nat.mul_assoc]
        exact Nat.mul_le_mul_left _ (Nat.mul_le_mul hnum.le hsample.le)
    _ < 2 ^ 64 * (2 ^ 32 * 2 ^ 32) := Nat.mul_lt_mul_of_pos_right hticks (by positivity)
    _ = 2 ^ 128 := by norm_num

section Counters
variable {c : Clock} {ticks : UInt64} {rate : Rate} {buffer : Buffer} {sampleRate : UInt32}

theorem record_zero_rate (h : rate.1 = 0 ∨ rate.2 = 0) :
    c.record ticks rate buffer sampleRate = c := by
  simp [Clock.record, h]

theorem record_tracker (h : ¬(rate.1 = 0 ∨ rate.2 = 0)) :
    (c.record ticks rate buffer sampleRate).tracker =
      c.tracker.observe ticks rate buffer.frames sampleRate := by
  simp [Clock.record, h]

theorem observe_monotone (t : Tracker) (ticks : UInt64) (rate : Rate) (frames : UInt64)
    (sampleRate : UInt32) :
    t.missed ≤ (t.observe ticks rate frames sampleRate).missed ∧
      t.discontinuities ≤ (t.observe ticks rate frames sampleRate).discontinuities := by
  have hadd := le_saturatingAdd
  have hrefl := UInt64.le_refl
  unfold Tracker.observe
  split
  · exact ⟨hrefl _, hrefl _⟩
  · split
    · exact ⟨hrefl _, hadd _ _⟩
    · split
      · exact ⟨hrefl _, hrefl _⟩
      · dsimp only
        split
        · exact ⟨hadd _ _, hadd _ _⟩
        · exact ⟨hrefl _, hrefl _⟩

theorem step_monotone (c : Clock) (call : Call) :
    c.tracker.missed ≤ (c.step call).tracker.missed ∧
      c.tracker.discontinuities ≤ (c.step call).tracker.discontinuities := by
  cases call with
  | restart => exact ⟨UInt64.le_refl _, UInt64.le_refl _⟩
  | record ticks rate buffer sampleRate =>
    by_cases h : rate.1 = 0 ∨ rate.2 = 0
    · simp only [Clock.step, record_zero_rate h]
      exact ⟨UInt64.le_refl _, UInt64.le_refl _⟩
    · simp only [Clock.step, record_tracker h]
      exact observe_monotone _ _ _ _ _

theorem run_monotone (c : Clock) (calls : List Call) :
    c.tracker.missed ≤ (c.run calls).tracker.missed ∧
      c.tracker.discontinuities ≤ (c.run calls).tracker.discontinuities := by
  induction calls generalizing c with
  | nil => exact ⟨UInt64.le_refl _, UInt64.le_refl _⟩
  | cons call calls ih =>
    have hstep := step_monotone c call
    have hrest := ih (c.step call)
    exact ⟨UInt64.le_trans hstep.1 hrest.1, UInt64.le_trans hstep.2 hrest.2⟩

/-- Readers see the tracker's own counters. -/
def Published (c : Clock) : Prop :=
  c.shared.missed = c.tracker.missed ∧ c.shared.discontinuities = c.tracker.discontinuities

theorem step_published (h : Published c) (call : Call) : Published (c.step call) := by
  cases call with
  | restart => exact h
  | record ticks rate buffer sampleRate =>
    by_cases hrate : rate.1 = 0 ∨ rate.2 = 0
    · simpa only [Clock.step, record_zero_rate hrate] using h
    · simp only [Clock.step, Clock.record, hrate, if_false]
      exact ⟨rfl, rfl⟩

theorem run_published (h : Published c) (calls : List Call) : Published (c.run calls) := by
  induction calls generalizing c with
  | nil => exact h
  | cons call calls ih => exact ih (step_published h call)

theorem observe_reset {t : Tracker} {frames : UInt64}
    (h : ∀ last old lastFrames, t.previous = some (last, old, lastFrames) →
      rate ≠ old ∨ ticks < last) :
    (t.observe ticks rate frames sampleRate).missed = t.missed := by
  unfold Tracker.observe
  split
  · rfl
  · next last old lastFrames hprevious =>
    rw [if_pos (h last old lastFrames hprevious)]

theorem record_reset
    (h : ∀ last old lastFrames, c.tracker.previous = some (last, old, lastFrames) →
      rate ≠ old ∨ ticks < last) :
    (c.record ticks rate buffer sampleRate).tracker.missed = c.tracker.missed := by
  by_cases hrate : rate.1 = 0 ∨ rate.2 = 0
  · rw [record_zero_rate hrate]
  · rw [record_tracker hrate]
    exact observe_reset h

theorem observe_same {t : Tracker} {quantum : UInt64}
    (h : t.previous = some (ticks, rate, quantum)) (frames : UInt64) :
    t.observe ticks rate frames sampleRate =
      { t with previous := some (ticks, rate, saturatingAdd quantum frames) } := by
  simp [Tracker.observe, h]

/-- Within one tick the frames of two buffers add up. -/
theorem observe_again (t : Tracker) (ticks : UInt64) (rate : Rate) (first second : UInt64)
    (sampleRate : UInt32) :
    (t.observe ticks rate first sampleRate).observe ticks rate second sampleRate =
      t.observe ticks rate (saturatingAdd first second) sampleRate := by
  cases hprevious : t.previous with
  | none => simp [Tracker.observe, hprevious]
  | some previous =>
    obtain ⟨last, old, quantum⟩ := previous
    by_cases hreset : rate ≠ old ∨ ticks < last
    · simp [Tracker.observe, hprevious, hreset]
    · by_cases hsame : ticks = last
      · obtain rfl : rate = old := by
          by_contra hne
          exact hreset (.inl hne)
        obtain rfl := hsame
        rw [observe_same hprevious, observe_same rfl, observe_same hprevious, saturatingAdd_assoc]
      · by_cases hgap : saturatingSub (clamped (elapsed last ticks rate sampleRate)) quantum = 0
        · simp [Tracker.observe, hprevious, hreset, hsame, hgap]
        · simp [Tracker.observe, hprevious, hreset, hsame, hgap]

end Counters

/-- The buffers that a stream hands over at one graph tick. -/
structure Cycle where
  ticks : UInt64
  buffers : List Buffer

def Cycle.frames (c : Cycle) : ℕ := (c.buffers.map fun b => b.frames.toNat).sum

/-- The frames of several buffers as one saturating `u64`. -/
def quantum (buffers : List Buffer) : UInt64 :=
  buffers.foldl (fun total b => saturatingAdd total b.frames) 0

def Cycle.calls (c : Cycle) (rate : Rate) (sampleRate : UInt32) : List Call :=
  c.buffers.map fun b => .record c.ticks rate b sampleRate

def frames (cycles : List Cycle) : ℕ := (cycles.map Cycle.frames).sum

structure Stream where
  rate : Rate
  sampleRate : UInt32
  cycles : List Cycle

/-- The calls of the cycles that are recorded. -/
def Stream.calls (s : Stream) (recorded : Cycle → Bool) : List Call :=
  (s.cycles.filter recorded).flatMap fun c => c.calls s.rate s.sampleRate

/-- Frames for each graph tick. -/
def Stream.pace (s : Stream) : ℚ := s.rate.1.toNat * s.sampleRate.toNat / s.rate.2.toNat

/-- The frames before a cycle are the rounded position of its tick. -/
structure Stream.Paced (s : Stream) (round : ℚ → ℕ) : Prop where
  ascending : s.cycles.Pairwise fun c d => c.ticks < d.ticks
  total : ∀ first rest before c after, s.cycles = first :: rest → s.cycles = before ++ c :: after →
    frames before = round (s.pace * (c.ticks.toNat - first.ticks.toNat : ℚ))

section Cycles
variable {rate : Rate} {sampleRate : UInt32} {cycles : List Cycle} {clock : Clock}

theorem quantum_foldl (start : UInt64) (buffers : List Buffer) :
    buffers.foldl (fun total b => saturatingAdd total b.frames) start =
      saturatingAdd start (quantum buffers) := by
  unfold quantum
  induction buffers generalizing start with
  | nil => simp
  | cons b buffers ih =>
    rw [List.foldl_cons, List.foldl_cons, ih, ih (saturatingAdd 0 b.frames), saturatingAdd_assoc,
      saturatingAdd_assoc, zero_saturatingAdd]

theorem quantum_cons (b : Buffer) (buffers : List Buffer) :
    quantum (b :: buffers) = saturatingAdd b.frames (quantum buffers) := by
  rw [← quantum_foldl, quantum, List.foldl_cons, zero_saturatingAdd]

theorem toNat_quantum (buffers : List Buffer) :
    (quantum buffers).toNat = min (buffers.map fun b => b.frames.toNat).sum u64Max := by
  induction buffers with
  | nil => simp [quantum]
  | cons b buffers ih =>
    rw [quantum_cons, toNat_saturatingAdd, ih, List.map_cons, List.sum_cons]
    omega

/-- Several records at one tick leave the tracker of one record with their sum. -/
theorem run_split (clock : Clock) (ticks : UInt64) (rate : Rate) (sampleRate : UInt32)
    (first : Buffer) (rest : List Buffer) (now delay : Int64) :
    (clock.run (Cycle.calls ⟨ticks, first :: rest⟩ rate sampleRate)).tracker =
      (clock.record ticks rate ⟨quantum (first :: rest), now, delay⟩ sampleRate).tracker := by
  by_cases hrate : rate.1 = 0 ∨ rate.2 = 0
  · rw [record_zero_rate hrate]
    generalize first :: rest = buffers
    induction buffers with
    | nil => rfl
    | cons b buffers ih =>
      rw [Cycle.calls, List.map_cons, Clock.run, List.foldl_cons, Clock.step, record_zero_rate hrate]
      exact ih
  · rw [record_tracker hrate]
    induction rest generalizing clock first with
    | nil =>
      have hone : quantum [first] = first.frames := by simp [quantum]
      rw [hone]
      exact record_tracker hrate
    | cons second rest ih =>
      have hrest := ih (clock.record ticks rate first sampleRate) second
      rw [record_tracker hrate, observe_again, ← quantum_cons] at hrest
      exact hrest

/-- Whatever cycle of `rest` comes next, its ticks elapsed since `last` are worth at most the
frames carried meanwhile. -/
def Spans (rate : Rate) (sampleRate : UInt32) (last : UInt64) (carried : ℕ) (rest : List Cycle) :
    Prop :=
  ∀ mid d after, rest = mid ++ d :: after →
    last < d.ticks ∧ elapsed last d.ticks rate sampleRate ≤ carried + frames mid

theorem Spans.skip {last : UInt64} {carried : ℕ} {c : Cycle} {rest : List Cycle}
    (h : Spans rate sampleRate last carried (c :: rest)) :
    Spans rate sampleRate last (carried + c.frames) rest := by
  intro mid d after hrest
  have hspan := h (c :: mid) d after (by rw [hrest, List.cons_append])
  refine ⟨hspan.1, hspan.2.trans_eq ?_⟩
  simp [frames, Nat.add_assoc]

/-- The last recorded cycle, after which `pending` frames went unrecorded. -/
def Behind (rate : Rate) (sampleRate : UInt32) (pending : ℕ) (rest : List Cycle) (t : Tracker) :
    Prop :=
  t.previous = none ∨ ∃ last buffers, t.previous = some (last, rate, quantum buffers) ∧
    Spans rate sampleRate last ((buffers.map fun b => b.frames.toNat).sum + pending) rest

theorem Behind.skip {pending : ℕ} {c : Cycle} {rest : List Cycle} {t : Tracker}
    (h : Behind rate sampleRate pending (c :: rest) t) :
    Behind rate sampleRate (pending + c.frames) rest t := by
  rcases h with h | ⟨last, buffers, hprevious, hspans⟩
  · exact .inl h
  · refine .inr ⟨last, buffers, hprevious, ?_⟩
    rw [← Nat.add_assoc]
    exact hspans.skip

theorem observe_later {t : Tracker} {last ticks lastFrames : UInt64}
    (h : t.previous = some (last, rate, lastFrames)) (hlast : last < ticks) (frames : UInt64) :
    (t.observe ticks rate frames sampleRate).previous = some (ticks, rate, frames) ∧
    (t.observe ticks rate frames sampleRate).missed.toNat ≤
      t.missed.toNat +
        (min (elapsed last ticks rate sampleRate) u64Max - lastFrames.toNat) := by
  have hreset : ¬ticks < last := UInt64.lt_asymm hlast
  have hsame : ticks ≠ last := (UInt64.ne_of_lt hlast).symm
  by_cases hgap : saturatingSub (clamped (elapsed last ticks rate sampleRate)) lastFrames = 0
  · simp [Tracker.observe, h, hreset, hsame, hgap]
  · simp [Tracker.observe, h, hreset, hsame, hgap]

/-- A recorded cycle counts at most the frames that went unrecorded before it. -/
theorem Behind.observe {pending : ℕ} {c : Cycle} {rest : List Cycle} {t : Tracker}
    (h : Behind rate sampleRate pending (c :: rest) t)
    (hspans : Spans rate sampleRate c.ticks c.frames rest) :
    (t.observe c.ticks rate (quantum c.buffers) sampleRate).missed.toNat ≤
      t.missed.toNat + pending ∧
    Behind rate sampleRate 0 rest (t.observe c.ticks rate (quantum c.buffers) sampleRate) := by
  rcases h with h | ⟨last, buffers, hprevious, hbefore⟩
  · simp only [Tracker.observe, h]
    exact ⟨Nat.le_add_right _ _, .inr ⟨c.ticks, c.buffers, rfl, hspans⟩⟩
  · obtain ⟨hlast, helapsed⟩ := hbefore [] c rest rfl
    obtain ⟨hnext, hmissed⟩ := observe_later hprevious hlast (quantum c.buffers)
    refine ⟨hmissed.trans ?_, .inr ⟨c.ticks, c.buffers, hnext, hspans⟩⟩
    rw [toNat_quantum]
    simp only [frames, List.map_nil, List.sum_nil] at helapsed
    omega

theorem run_append (clock : Clock) (calls more : List Call) :
    clock.run (calls ++ more) = (clock.run calls).run more := List.foldl_append

/-- Each recorded cycle pays for the unrecorded ones before it. -/
theorem run_cycles {s : Stream} (recorded : Cycle → Bool)
    (hrate : ¬(s.rate.1 = 0 ∨ s.rate.2 = 0))
    (hspans : ∀ before c after, s.cycles = before ++ c :: after →
      Spans s.rate s.sampleRate c.ticks c.frames after)
    (pending : ℕ) (hbehind : Behind s.rate s.sampleRate pending s.cycles clock.tracker) :
    (clock.run (s.calls recorded)).tracker.missed.toNat ≤
      clock.tracker.missed.toNat + pending +
        frames (s.cycles.filter fun c => !recorded c) := by
  obtain ⟨rate, sampleRate, cycles⟩ := s
  change ¬(rate.1 = 0 ∨ rate.2 = 0) at hrate
  induction cycles generalizing clock pending with
  | nil =>
    simp [Stream.calls, Clock.run, frames]
  | cons c rest ih =>
    have hrest : ∀ before d after, rest = before ++ d :: after →
        Spans rate sampleRate d.ticks d.frames after := by
      intro before d after h
      exact hspans (c :: before) d after (by simp [h])
    by_cases hrecorded : recorded c = true
    · cases hbuffers : c.buffers with
      | nil =>
        have hnone : c.frames = 0 := by simp [Cycle.frames, hbuffers]
        have hskip := hbehind.skip
        rw [hnone, Nat.add_zero] at hskip
        have hmain := ih pending hrest hskip
        simpa [Stream.calls, hrecorded, Cycle.calls, hbuffers] using hmain
      | cons first more =>
        have hstep := hbehind.observe (hspans [] c rest rfl)
        have htracker := run_split clock c.ticks rate sampleRate first more 0 0
        rw [record_tracker hrate, ← hbuffers] at htracker
        change (clock.run (c.calls rate sampleRate)).tracker = _ at htracker
        rw [← htracker] at hstep
        have hmain := ih 0 hrest hstep.2
        have hcalls : Stream.calls ⟨rate, sampleRate, c :: rest⟩ recorded =
            c.calls rate sampleRate ++ Stream.calls ⟨rate, sampleRate, rest⟩ recorded := by
          simp [Stream.calls, hrecorded]
        have hlost : (c :: rest).filter (fun c => !recorded c) =
            rest.filter fun c => !recorded c := by
          simp [hrecorded]
        rw [hcalls, run_append]
        simp only [hlost]
        have hmissed := hstep.1
        simp only at hmain
        omega
    · have hmain := ih (pending + c.frames) hrest hbehind.skip
      have hcalls : Stream.calls ⟨rate, sampleRate, c :: rest⟩ recorded =
          Stream.calls ⟨rate, sampleRate, rest⟩ recorded := by
        simp [Stream.calls, hrecorded]
      have hlost : frames ((c :: rest).filter fun c => !recorded c) =
          c.frames + frames (rest.filter fun c => !recorded c) := by
        simp [hrecorded, frames]
      rw [hcalls]
      simp only [hlost]
      simp only at hmain
      omega

theorem run_zero_rate {s : Stream} (hrate : s.rate.1 = 0 ∨ s.rate.2 = 0) (clock : Clock)
    (recorded : Cycle → Bool) : clock.run (s.calls recorded) = clock := by
  have hcalls : ∀ call ∈ s.calls recorded, clock.step call = clock := by
    intro call hcall
    simp only [Stream.calls, Cycle.calls, List.mem_flatMap, List.mem_map] at hcall
    obtain ⟨c, -, b, -, rfl⟩ := hcall
    exact record_zero_rate hrate
  generalize s.calls recorded = calls at hcalls
  induction calls with
  | nil => rfl
  | cons call calls ih =>
    rw [Clock.run, List.foldl_cons, hcalls call List.mem_cons_self]
    exact ih fun other hother => hcalls other (List.mem_cons_of_mem _ hother)

theorem elapsed_eq (s : Stream) {last ticks : UInt64} (h : last ≤ ticks) :
    elapsed last ticks s.rate s.sampleRate =
      ⌊s.pace * (ticks.toNat - last.toNat : ℚ)⌋₊ := by
  have hle := UInt64.le_iff_toNat_le.mp h
  rw [elapsed, UInt64.toNat_sub_of_le _ _ h, ← Nat.floor_div_eq_div (K := ℚ), Stream.pace]
  push_cast [hle]
  congr 1
  ring

/-- The frames carried from one cycle to a later one cover the ticks between them. -/
theorem Stream.Paced.spans {s : Stream} {round : ℚ → ℕ} (h : s.Paced round)
    (hround : KeepsPace round) (before : List Cycle) (c : Cycle) (after : List Cycle)
    (hcycles : s.cycles = before ++ c :: after) :
    Spans s.rate s.sampleRate c.ticks c.frames after := by
  rintro mid d later rfl
  have hascending := h.ascending
  rw [hcycles, List.pairwise_append] at hascending
  obtain ⟨-, hafter, hbefore⟩ := hascending
  have hticks : c.ticks < d.ticks :=
    List.rel_of_pairwise_cons hafter (List.mem_append_right mid List.mem_cons_self)
  obtain ⟨first, rest, hfirst, hle⟩ : ∃ first rest, s.cycles = first :: rest ∧
      first.ticks ≤ c.ticks := by
    cases before with
    | nil => exact ⟨c, _, hcycles, UInt64.le_refl _⟩
    | cons first before =>
      refine ⟨first, _, hcycles, UInt64.le_of_lt ?_⟩
      exact hbefore first List.mem_cons_self c List.mem_cons_self
  have hc := h.total first rest before c _ hfirst hcycles
  have hd := h.total first rest (before ++ c :: mid) d later hfirst (by simp [hcycles])
  have hpace : 0 ≤ s.pace := by
    unfold Stream.pace
    positivity
  have hle' : (first.ticks.toNat : ℚ) ≤ c.ticks.toNat := by
    exact_mod_cast UInt64.le_iff_toNat_le.mp hle
  have hlt' : (c.ticks.toNat : ℚ) ≤ d.ticks.toNat := by
    exact_mod_cast UInt64.le_iff_toNat_le.mp (UInt64.le_of_lt hticks)
  have hsum := hround (s.pace * (c.ticks.toNat - first.ticks.toNat : ℚ))
    (s.pace * (d.ticks.toNat - c.ticks.toNat : ℚ))
    (mul_nonneg hpace (sub_nonneg.mpr hle')) (mul_nonneg hpace (sub_nonneg.mpr hlt'))
  rw [← mul_add, sub_add_sub_cancel', ← hc, ← hd, ← elapsed_eq s (UInt64.le_of_lt hticks)] at hsum
  refine ⟨hticks, ?_⟩
  simp only [frames, List.map_append, List.map_cons, List.sum_append, List.sum_cons] at hsum ⊢
  omega

/-- Unrecorded cycles are missed for at most the frames that they carried. -/
theorem Stream.Paced.missed_le {s : Stream} {round : ℚ → ℕ} (h : s.Paced round)
    (hround : KeepsPace round) (clock : Clock) (recorded : Cycle → Bool) :
    (clock.restart.run (s.calls recorded)).tracker.missed.toNat ≤
      clock.tracker.missed.toNat + frames (s.cycles.filter fun c => !recorded c) := by
  by_cases hrate : s.rate.1 = 0 ∨ s.rate.2 = 0
  · rw [run_zero_rate hrate]
    exact Nat.le_add_right _ _
  · have hbehind : Behind s.rate s.sampleRate 0 s.cycles clock.restart.tracker := .inl rfl
    simpa using run_cycles recorded hrate (h.spans hround) 0 hbehind

theorem Stream.Paced.missed_eq {s : Stream} {round : ℚ → ℕ} (h : s.Paced round)
    (hround : KeepsPace round) (clock : Clock) {calls : List Call}
    (hcalls : calls <+: s.calls fun _ => true) :
    (clock.restart.run calls).tracker.missed = clock.tracker.missed := by
  obtain ⟨more, hmore⟩ := hcalls
  have hall := h.missed_le hround clock fun _ => true
  have hlater := (run_monotone (clock.restart.run calls) more).1
  have hearlier := (run_monotone clock.restart calls).1
  rw [← run_append, hmore] at hlater
  rw [UInt64.le_iff_toNat_le] at hlater hearlier
  apply UInt64.toNat_inj.mp
  simp only [Bool.not_true, List.filter_false, frames, List.map_nil, List.sum_nil] at hall
  exact Nat.le_antisymm (hlater.trans hall) hearlier

end Cycles

end GraphTiming
