import VirtualGamepad.MachineInt
import VirtualGamepad.PcmQueue

/-! The frames that a native microphone may be given ahead of what its host has consumed. -/
namespace MicrophoneCredit

open MachineInt
open PcmQueue (AudioError)

structure NativeMicCredit where
  host : ℕ
  consumed : ℕ
  submitted : ℕ
  started : Bool
  deriving DecidableEq, Repr

namespace NativeMicCredit

def default : NativeMicCredit := ⟨0, 0, 0, false⟩

def fill : ℕ := 672

/-- The host clock only starts the input; consumption alone gives credit. -/
def updateProgress (host consumed : UInt64) (c : NativeMicCredit) : NativeMicCredit :=
  { host := host.toNat
    consumed := max c.consumed consumed.toNat
    submitted := max c.submitted (max c.consumed consumed.toNat)
    started := c.started || decide (0 < host) }

def available (c : NativeMicCredit) : ℕ :=
  if c.started then min (saturatingAdd c.consumed fill - c.submitted) 128 else 0

def accepted (frames : ℕ) (c : NativeMicCredit) : NativeMicCredit :=
  { c with submitted := (c.submitted + frames) % 2 ^ 64 }

end NativeMicCredit

open NativeMicCredit

section Refill

variable {σ : Type}

/-- As many transfers as the budget allows, while there is credit and frames are accepted. -/
def refill (transfer : ℕ → σ → Except AudioError ℕ × σ) :
    ℕ → NativeMicCredit → σ → Except AudioError Unit × NativeMicCredit × σ
  | 0, c, s => (.ok (), c, s)
  | budget + 1, c, s =>
    if c.available = 0 then (.ok (), c, s)
    else
      match transfer c.available s with
      | (.error e, s) => (.error e, c, s)
      | (.ok frames, s) =>
        if c.available < frames then (.error .invalidRequirement, c, s)
        else if frames = 0 then (.ok (), c, s)
        else refill transfer budget (c.accepted frames) s

def refillNativeMicrophone (transfer : ℕ → σ → Except AudioError ℕ × σ) (c : NativeMicCredit)
    (s : σ) : Except AudioError Unit × NativeMicCredit × σ :=
  refill transfer ((fill + 127) / 128) c s

end Refill

section Bridge

variable {F E : Type}

/-- The graph that frames come from and the queue they go to. A read gives at most one block, and a
write accepts frames from the front of what it is offered. -/
structure Streams (F E : Type) where
  readPlayback : E → Except AudioError { block : List F // block.length ≤ 128 } × E
  writeMicrophone (offered : List F) :
    E → Except AudioError { accepted : ℕ // accepted ≤ offered.length } × E

/-- The frames between the two numbers are still to be written. All that was read and written is
remembered. -/
structure Bridge (F E : Type) where
  streams : E
  microphone : List F
  pending : ℕ × ℕ
  read : List F
  written : List F

def Bridge.new (streams : E) : Bridge F E := ⟨streams, [], (0, 0), [], []⟩

def Bridge.frames (b : Bridge F E) : List F :=
  (b.microphone.drop b.pending.1).take (b.pending.2 - b.pending.1)

/-- A block is read once the one before it is used up. -/
def nextBlock (io : Streams F E) (b : Bridge F E) : Except AudioError Unit × Bridge F E :=
  if b.pending.1 = b.pending.2 then
    match io.readPlayback b.streams with
    | (.error e, streams) => (.error e, { b with streams })
    | (.ok block, streams) =>
      (.ok (), { b with streams, microphone := block.1, pending := (0, block.1.length),
                        read := b.read ++ block.1 })
  else (.ok (), b)

def transferBlock (io : Streams F E) (available : ℕ) (b : Bridge F E) :
    Except AudioError ℕ × Bridge F E :=
  match nextBlock io b with
  | (.error e, b) => (.error e, b)
  | (.ok (), b) =>
    if b.pending.1 = b.pending.2 then (.ok 0, b)
    else
      let stop := min (b.pending.1 + available) b.pending.2
      let offered := (b.microphone.drop b.pending.1).take (stop - b.pending.1)
      match io.writeMicrophone offered b.streams with
      | (.error e, streams) => (.error e, { b with streams })
      | (.ok accepted, streams) =>
        (.ok accepted.1, { b with streams, pending := (b.pending.1 + accepted.1, b.pending.2),
                                  written := b.written ++ offered.take accepted.1 })

/-- One turn of the pump loop. -/
def cycle (io : Streams F E) (host consumed : UInt64) (c : NativeMicCredit) (b : Bridge F E) :
    Except AudioError Unit × NativeMicCredit × Bridge F E :=
  refillNativeMicrophone (transferBlock io) (c.updateProgress host consumed) b

end Bridge

section Credit

variable {c : NativeMicCredit}

structure Sound (c : NativeMicCredit) : Prop where
  consumed : c.consumed ≤ c.submitted
  window : c.submitted ≤ c.consumed + fill
  fits : c.submitted ≤ u64Max
  host : c.started = false → c.host = 0

theorem default_sound : Sound .default where
  consumed := Nat.le_refl 0
  window := Nat.zero_le _
  fits := Nat.zero_le _
  host := fun _ => rfl

theorem updateProgress_sound (h : Sound c) (host consumed : UInt64) :
    Sound (c.updateProgress host consumed) := by
  have hlt := consumed.toNat_lt
  obtain ⟨hconsumed, hwindow, hfits, hhost⟩ := h
  constructor
  · simp [updateProgress]
  · simp only [updateProgress]
    omega
  · unfold u64Max at hfits ⊢
    simp only [updateProgress]
    omega
  · intro hstarted
    simp only [updateProgress, Bool.or_eq_false_iff, decide_eq_false_iff_not] at hstarted ⊢
    have hzero := hstarted.2
    rw [UInt64.lt_iff_toNat_lt] at hzero
    simpa using hzero

theorem available_le (c : NativeMicCredit) : c.available ≤ 128 := by
  unfold available
  split <;> omega

theorem started_of_available (h : c.available ≠ 0) : c.started = true := by
  by_contra hn
  simp [available, hn] at h

/-- Credit never reaches beyond the window, nor beyond the last number of a counter. -/
theorem submitted_add_le (h : Sound c) {frames : ℕ} (hle : frames ≤ c.available) :
    c.submitted + frames ≤ c.consumed + fill ∧ c.submitted + frames ≤ u64Max := by
  have hfits := h.fits
  have hwindow := h.window
  unfold available saturatingAdd at hle
  split at hle <;> omega

theorem accepted_eq (h : Sound c) {frames : ℕ} (hle : frames ≤ c.available) :
    c.accepted frames = { c with submitted := c.submitted + frames } := by
  have hfits := (submitted_add_le h hle).2
  unfold u64Max at hfits
  unfold accepted
  rw [Nat.mod_eq_of_lt (by omega)]

theorem accepted_sound (h : Sound c) {frames : ℕ} (hle : frames ≤ c.available) :
    Sound (c.accepted frames) := by
  have hnext := submitted_add_le h hle
  rw [accepted_eq h hle]
  exact ⟨h.consumed.trans (Nat.le_add_right ..), hnext.1, hnext.2, h.host⟩

end Credit

section Calls

/-- How many frames a transfer was offered, and what it answered. -/
structure Call where
  offered : ℕ
  result : Except AudioError ℕ

def Call.taken (call : Call) : ℕ :=
  match call.result with
  | .ok frames => if frames ≤ call.offered then frames else 0
  | .error _ => 0

def taken (calls : List Call) : ℕ := (calls.map Call.taken).sum

variable {σ : Type} {transfer : ℕ → σ → Except AudioError ℕ × σ} {c c' : NativeMicCredit}
  {calls : List Call} {s : σ}

/-- The same transfer, with a record of its calls. -/
def recorded (transfer : ℕ → σ → Except AudioError ℕ × σ) (offered : ℕ) (s : σ × List Call) :
    Except AudioError ℕ × σ × List Call :=
  ((transfer offered s.1).1, (transfer offered s.1).2,
    s.2 ++ [⟨offered, (transfer offered s.1).1⟩])

/-- Recording changes neither the outcome nor the credit. -/
theorem refill_recorded (budget : ℕ) (c : NativeMicCredit) (s : σ) (calls : List Call) :
    (refill (recorded transfer) budget c (s, calls)).1 = (refill transfer budget c s).1 ∧
      (refill (recorded transfer) budget c (s, calls)).2.1 = (refill transfer budget c s).2.1 ∧
      (refill (recorded transfer) budget c (s, calls)).2.2.1 = (refill transfer budget c s).2.2 := by
  induction budget generalizing c s calls with
  | zero => exact ⟨rfl, rfl, rfl⟩
  | succ budget ih =>
    unfold refill
    by_cases h₀ : c.available = 0
    · simp [h₀]
    · rw [if_neg h₀, if_neg h₀]
      unfold recorded
      rcases ht : transfer c.available s with ⟨e | frames, s'⟩
      · simp
      · dsimp only
        by_cases hover : c.available < frames
        · simp [hover]
        · by_cases hzero : frames = 0
          · simp [hzero]
          · rw [if_neg hover, if_neg hzero, if_neg hover, if_neg hzero]
            exact ih _ _ _

/-- What a refill with these calls does to the credit. -/
structure Spent (budget : ℕ) (c : NativeMicCredit) (calls : List Call) (c' : NativeMicCredit) :
    Prop where
  bounded : calls.length ≤ budget
  offers : ∀ before call after, calls = before ++ call :: after → 0 < call.offered ∧
    call.offered ≤ 128 ∧ c.submitted + taken before + call.offered ≤ c.consumed + fill
  started : calls ≠ [] → c.started = true
  grows : c' = { c with submitted := c.submitted + taken calls }
  sound : Sound c'

theorem Spent.refl (budget : ℕ) (h : Sound c) : Spent budget c [] c :=
  ⟨Nat.zero_le _, fun _ _ _ h => absurd h (by simp), fun h => absurd rfl h, rfl, h⟩

theorem spent_cons (h : Sound c) {budget frames : ℕ} {call : Call}
    (hpos : c.available ≠ 0) (hoffered : call.offered = c.available) (htaken : call.taken = frames)
    (hle : frames ≤ c.available) (hrest : Spent budget (c.accepted frames) calls c') :
    Spent (budget + 1) c (call :: calls) c' := by
  have haccepted := accepted_eq h hle
  rw [haccepted] at hrest
  refine ⟨Nat.succ_le_succ hrest.bounded, ?_, fun _ => started_of_available hpos, ?_, hrest.sound⟩
  · intro before call' after heq
    cases before with
    | nil =>
      obtain ⟨rfl, -⟩ := List.cons.inj heq
      have hwindow := (submitted_add_le h (Nat.le_refl _)).1
      rw [hoffered]
      exact ⟨Nat.pos_of_ne_zero hpos, available_le c, hwindow⟩
    | cons first before =>
      obtain ⟨rfl, htail⟩ := List.cons.inj heq
      obtain ⟨hoff, hmax, hwindow⟩ := hrest.offers before call' after htail
      refine ⟨hoff, hmax, ?_⟩
      simp only [taken, List.map_cons, List.sum_cons, htaken] at hwindow ⊢
      omega
  · rw [hrest.grows]
    simp only [taken, List.map_cons, List.sum_cons, htaken, Nat.add_assoc]

theorem refill_spent (budget : ℕ) (h : Sound c) (s : σ) (calls : List Call) :
    ∃ new, (refill (recorded transfer) budget c (s, calls)).2.2.2 = calls ++ new ∧
      Spent budget c new (refill transfer budget c s).2.1 := by
  induction budget generalizing c s calls with
  | zero => exact ⟨[], (List.append_nil _).symm, .refl 0 h⟩
  | succ budget ih =>
    unfold refill
    by_cases h₀ : c.available = 0
    · rw [if_pos h₀, if_pos h₀]
      exact ⟨[], (List.append_nil _).symm, .refl _ h⟩
    · rw [if_neg h₀, if_neg h₀]
      unfold recorded
      have hstop (call : Call) (hoffered : call.offered = c.available) (htaken : call.taken = 0) :
          Spent (budget + 1) c [call] c := by
        have hzero : c.accepted 0 = c := by rw [accepted_eq h (Nat.zero_le _), Nat.add_zero]
        exact spent_cons h h₀ hoffered htaken (Nat.zero_le _) (by rw [hzero]; exact .refl _ h)
      rcases ht : transfer c.available s with ⟨e | frames, s'⟩
      · exact ⟨_, rfl, hstop _ rfl rfl⟩
      · dsimp only
        by_cases hover : c.available < frames
        · rw [if_pos hover, if_pos hover]
          exact ⟨_, rfl, hstop _ rfl (if_neg (Nat.not_le_of_lt hover))⟩
        · rw [if_neg hover, if_neg hover]
          have hle := Nat.le_of_not_lt hover
          have htaken : Call.taken ⟨c.available, .ok frames⟩ = frames := if_pos hle
          by_cases hzero : frames = 0
          · rw [if_pos hzero, if_pos hzero]
            exact ⟨_, rfl, hstop _ rfl (htaken.trans hzero)⟩
          · rw [if_neg hzero, if_neg hzero]
            obtain ⟨new, hnew, hspent⟩ := ih (accepted_sound h hle) s' (calls ++ [⟨_, .ok frames⟩])
            rw [List.append_assoc] at hnew
            exact ⟨_, hnew, spent_cons h h₀ rfl htaken hle hspent⟩

end Calls

section Runs

/-- The credits that updates and refills lead to, and whether a host clock was seen running. -/
inductive Reached : Bool → NativeMicCredit → Prop where
  | start : Reached false .default
  | update {ticked : Bool} {c : NativeMicCredit} (host consumed : UInt64) (h : Reached ticked c) :
    Reached (ticked || decide (0 < host)) (c.updateProgress host consumed)
  | refill {ticked : Bool} {c : NativeMicCredit} {σ : Type}
    (transfer : ℕ → σ → Except AudioError ℕ × σ) (s : σ) (h : Reached ticked c) :
    Reached ticked (refillNativeMicrophone transfer c s).2.1

variable {ticked : Bool} {c : NativeMicCredit}

theorem refillNativeMicrophone_spent {σ : Type} (transfer : ℕ → σ → Except AudioError ℕ × σ)
    (h : Sound c) (s : σ) :
    Spent 6 c (refillNativeMicrophone (recorded transfer) c (s, [])).2.2.2
      (refillNativeMicrophone transfer c s).2.1 := by
  obtain ⟨calls, hcalls, hspent⟩ := @refill_spent σ transfer c 6 h s []
  change (refillNativeMicrophone (recorded transfer) c (s, [])).2.2.2 = calls at hcalls
  rw [hcalls]
  exact hspent

theorem Reached.sound (h : Reached ticked c) : Sound c ∧ c.started = ticked := by
  induction h with
  | start => exact ⟨default_sound, rfl⟩
  | update host consumed _ ih =>
    refine ⟨updateProgress_sound ih.1 host consumed, ?_⟩
    simp only [updateProgress, ih.2]
  | refill transfer s _ ih =>
    have hspent := refillNativeMicrophone_spent transfer ih.1 s
    refine ⟨hspent.sound, ?_⟩
    rw [hspent.grows]
    exact ih.2

/-- Without new consumption an update moves neither end of the window, and without a newer host
clock it gives no credit at all. -/
theorem updateProgress_regressing (h : Sound c) {host consumed : UInt64}
    (hle : consumed.toNat ≤ c.consumed) :
    (c.updateProgress host consumed).consumed = c.consumed ∧
      (c.updateProgress host consumed).submitted = c.submitted ∧
      (c.started = true ∨ host.toNat ≤ c.host →
        (c.updateProgress host consumed).available = c.available) := by
  have hconsumed := h.consumed
  have hmax : max c.consumed consumed.toNat = c.consumed := Nat.max_eq_left hle
  have hsubmitted : max c.submitted c.consumed = c.submitted := Nat.max_eq_left hconsumed
  refine ⟨hmax, by simp only [updateProgress, hmax, hsubmitted], ?_⟩
  intro hstart
  have hstarted : (c.started || decide (0 < host)) = c.started := by
    cases hs : c.started with
    | true => rfl
    | false =>
      have hzero := h.host hs
      have hhost : host.toNat ≤ 0 := by
        rcases hstart with hstart | hstart
        · rw [hs] at hstart
          cases hstart
        · rwa [hzero] at hstart
      simp only [Bool.false_or, decide_eq_false_iff_not, UInt64.lt_iff_toNat_lt]
      exact Nat.not_lt_of_le hhost
  simp only [available, updateProgress, hmax, hsubmitted, hstarted]

variable {F E : Type}

/-- What the pump loop leads to, whatever the graph and the queue do between its turns. -/
inductive Pumped (io : Streams F E) : NativeMicCredit → Bridge F E → Prop where
  | start (streams : E) : Pumped io .default (.new streams)
  | around {c : NativeMicCredit} {b : Bridge F E} (streams : E) (h : Pumped io c b) :
    Pumped io c { b with streams }
  | cycle {c : NativeMicCredit} {b : Bridge F E} (host consumed : UInt64) (h : Pumped io c b) :
    Pumped io (cycle io host consumed c b).2.1 (cycle io host consumed c b).2.2

/-- Every frame read is written or pending. -/
structure Conserved (b : Bridge F E) : Prop where
  ordered : b.pending.1 ≤ b.pending.2
  inside : b.pending.2 ≤ b.microphone.length
  exact : b.read = b.written ++ b.frames

variable {io : Streams F E} {b : Bridge F E}

theorem new_conserved (streams : E) : Conserved (Bridge.new streams : Bridge F E) :=
  ⟨Nat.le_refl 0, Nat.le_refl 0, rfl⟩

theorem nextBlock_conserved (h : Conserved b) : Conserved (nextBlock io b).2 := by
  unfold nextBlock
  by_cases hempty : b.pending.1 = b.pending.2
  · rw [if_pos hempty]
    rcases io.readPlayback b.streams with ⟨e | block, streams⟩
    · exact ⟨h.ordered, h.inside, h.exact⟩
    · have hexact := h.exact
      simp only [Bridge.frames, hempty, Nat.sub_self, List.take_zero, List.append_nil] at hexact
      refine ⟨Nat.zero_le _, Nat.le_refl _, ?_⟩
      simp [Bridge.frames, hexact]
  · rw [if_neg hempty]
    exact h

/-- A prefix of what is pending moves on to what is written. -/
theorem write_conserved (h : Conserved b) (streams : E) {stop accepted : ℕ}
    (hstop : stop ≤ b.pending.2)
    (hle : accepted ≤ ((b.microphone.drop b.pending.1).take (stop - b.pending.1)).length) :
    Conserved { b with
      streams, pending := (b.pending.1 + accepted, b.pending.2)
      written := b.written ++
        ((b.microphone.drop b.pending.1).take (stop - b.pending.1)).take accepted } := by
  rw [List.length_take, List.length_drop] at hle
  have hordered := h.ordered
  refine ⟨by dsimp only; omega, h.inside, ?_⟩
  have hoffered : ((b.microphone.drop b.pending.1).take (stop - b.pending.1)).take accepted =
      b.frames.take accepted := by
    rw [Bridge.frames, List.take_take, List.take_take, Nat.min_eq_left (by omega),
      Nat.min_eq_left (by omega)]
  have hrest : b.frames.drop accepted =
      (b.microphone.drop (b.pending.1 + accepted)).take (b.pending.2 - (b.pending.1 + accepted)) := by
    rw [Bridge.frames, List.drop_take, List.drop_drop, Nat.sub_sub]
  change b.read = b.written ++ _ ++ (b.microphone.drop (b.pending.1 + accepted)).take
    (b.pending.2 - (b.pending.1 + accepted))
  rw [hoffered, ← hrest, List.append_assoc, List.take_append_drop]
  exact h.exact

theorem transferBlock_conserved (available : ℕ) (h : Conserved b) :
    Conserved (transferBlock io available b).2 := by
  have hnext := @nextBlock_conserved _ _ io b h
  unfold transferBlock
  rcases hblock : nextBlock io b with ⟨e | _, b'⟩
  · rw [hblock] at hnext
    exact hnext
  · rw [hblock] at hnext
    dsimp only at hnext ⊢
    by_cases hempty : b'.pending.1 = b'.pending.2
    · rw [if_pos hempty]
      exact hnext
    · rw [if_neg hempty]
      rcases io.writeMicrophone ((b'.microphone.drop b'.pending.1).take
        (min (b'.pending.1 + available) b'.pending.2 - b'.pending.1)) b'.streams with
        ⟨e | ⟨accepted, hle⟩, streams⟩
      · exact ⟨hnext.ordered, hnext.inside, hnext.exact⟩
      · exact write_conserved hnext streams (Nat.min_le_right ..) hle

theorem refill_conserved (budget : ℕ) (c : NativeMicCredit) (h : Conserved b) :
    Conserved (refill (transferBlock io) budget c b).2.2 := by
  induction budget generalizing c b with
  | zero => exact h
  | succ budget ih =>
    have hnext := @transferBlock_conserved _ _ io b c.available h
    unfold refill
    by_cases h₀ : c.available = 0
    · rw [if_pos h₀]
      exact h
    · rw [if_neg h₀]
      rcases hcall : transferBlock io c.available b with ⟨e | frames, b'⟩
      · rw [hcall] at hnext
        exact hnext
      · rw [hcall] at hnext
        dsimp only at hnext ⊢
        by_cases hover : c.available < frames
        · rw [if_pos hover]
          exact hnext
        · rw [if_neg hover]
          by_cases hzero : frames = 0
          · rw [if_pos hzero]
            exact hnext
          · rw [if_neg hzero]
            exact ih _ hnext

theorem Pumped.conserved (h : Pumped io c b) : Conserved b := by
  induction h with
  | start streams => exact new_conserved streams
  | around streams _ ih => exact ⟨ih.ordered, ih.inside, ih.exact⟩
  | cycle host consumed _ ih => exact refill_conserved 6 _ ih

/-- The pump loop is one of the runs of updates and refills. -/
theorem Pumped.reached (h : Pumped io c b) : ∃ ticked, Reached ticked c := by
  induction h with
  | start => exact ⟨_, .start⟩
  | around _ _ ih => exact ih
  | cycle host consumed _ ih =>
    obtain ⟨ticked, hreached⟩ := ih
    exact ⟨_, (hreached.update host consumed).refill _ _⟩

theorem native_credit :
    (∀ (ticked : Bool) (c : NativeMicCredit), Reached ticked c →
      c.consumed ≤ c.submitted ∧ c.submitted ≤ c.consumed + 672 ∧ c.submitted < 2 ^ 64 ∧
      (∀ (σ : Type) (transfer : ℕ → σ → Except AudioError ℕ × σ) (s : σ),
        let calls := (refillNativeMicrophone (recorded transfer) c (s, [])).2.2.2
        let after := (refillNativeMicrophone transfer c s).2.1
        (ticked = false → calls = []) ∧ calls.length ≤ 6 ∧
        (∀ before call rest, calls = before ++ call :: rest → call.offered ≤ 128 ∧
          call.offered ≤ c.consumed + 672 - (c.submitted + taken before)) ∧
        after = { c with submitted := c.submitted + taken calls }) ∧
      (∀ host consumed : UInt64, consumed.toNat ≤ c.consumed →
        (c.updateProgress host consumed).consumed = c.consumed ∧
        (c.updateProgress host consumed).submitted = c.submitted ∧
        (ticked = true ∨ host.toNat ≤ c.host →
          (c.updateProgress host consumed).available = c.available))) ∧
    (∀ (F E : Type) (io : Streams F E) (c : NativeMicCredit) (b : Bridge F E), Pumped io c b →
      b.read = b.written ++ b.frames ∧ ∃ ticked, Reached ticked c) := by
  constructor
  · intro ticked c hreached
    obtain ⟨hsound, hstarted⟩ := hreached.sound
    have hfits := hsound.fits
    refine ⟨hsound.consumed, hsound.window, by unfold u64Max at hfits; omega, ?_, ?_⟩
    · intro σ transfer s
      have hspent := refillNativeMicrophone_spent transfer hsound s
      refine ⟨?_, hspent.bounded, ?_, hspent.grows⟩
      · intro hticked
        by_contra hcalls
        have htrue := hspent.started hcalls
        rw [hstarted, hticked] at htrue
        cases htrue
      · intro before call rest hsplit
        obtain ⟨_, hmax, hwindow⟩ := hspent.offers before call rest hsplit
        unfold fill at hwindow
        exact ⟨hmax, by omega⟩
    · intro host consumed hle
      rw [← hstarted]
      exact updateProgress_regressing hsound hle
  · intro F E io c b hpumped
    exact ⟨hpumped.conserved.exact, hpumped.reached⟩

end Runs

end MicrophoneCredit
