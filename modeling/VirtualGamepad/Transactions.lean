import VirtualGamepad.NativeStateCodec
import VirtualGamepad.MachineInt

/-! The accepted snapshot of a USB worker and its last transaction. A message is applied when
it is the next one of its session, and acknowledged again when it repeats the last one. -/
namespace Transactions

open NativeState MachineInt

structure Message where
  generation : ℕ
  sequence : ℕ
  bytes : List UInt8
  deriving DecidableEq, Repr

end Transactions

structure Transactions where
  generation : ℕ
  family : UInt8
  sequence : ℕ
  bytes : List UInt8
  state : NativeState
  deriving DecidableEq, Repr

namespace Transactions

open NativeState MachineInt

section Operations

def new (generation : ℕ) (state : NativeState) : Except StateError Transactions :=
  if generation = 0 then .error .malformed
  else
    let bytes := encode state
    .ok { generation, family := bytes.get ⟨1, one_lt_encode state⟩, sequence := 0, bytes, state }

/-- True only for a newly applied transaction. -/
def apply (t : Transactions) (m : Message) : Except StateError Bool × Transactions :=
  if m.generation ≠ t.generation ∨ m.sequence = 0 ∨ m.sequence < t.sequence then (.error .stale, t)
  else if m.sequence = t.sequence then
    if m.bytes = t.bytes then (.ok false, t) else (.error .conflictingRetry, t)
  else if checkedAdd t.sequence 1 ≠ some m.sequence then (.error .stale, t)
  else
    match decode m.bytes t.family with
    | .error e => (.error e, t)
    | .ok state => (.ok true, { t with bytes := m.bytes, state, sequence := m.sequence })

def run (t : Transactions) (history : List Message) : Transactions :=
  history.foldl (fun t m => (t.apply m).2) t

/-- The messages of a history that were newly applied. -/
def applied : Transactions → List Message → List Message
  | _, [] => []
  | t, m :: history =>
    match t.apply m with
    | (.ok true, t) => m :: applied t history
    | (_, t) => applied t history

end Operations

section Steps

variable {t t' : Transactions} {m : Message}

/-- What a delivery can do. -/
inductive Outcome (t : Transactions) (m : Message) : Except StateError Bool × Transactions → Prop
  | stale (h : m.generation ≠ t.generation ∨ m.sequence = 0 ∨ m.sequence < t.sequence ∨
      t.sequence + 1 < m.sequence ∨ u64Max < m.sequence) : Outcome t m (.error .stale, t)
  | retry (hg : m.generation = t.generation) (hpos : m.sequence ≠ 0)
      (hs : m.sequence = t.sequence) (hb : m.bytes = t.bytes) : Outcome t m (.ok false, t)
  | conflict (hg : m.generation = t.generation) (hpos : m.sequence ≠ 0)
      (hs : m.sequence = t.sequence) (hb : m.bytes ≠ t.bytes) :
      Outcome t m (.error .conflictingRetry, t)
  | malformed {e : StateError} (hg : m.generation = t.generation)
      (hs : m.sequence = t.sequence + 1) (hmax : m.sequence ≤ u64Max)
      (hb : decode m.bytes t.family = .error e) : Outcome t m (.error e, t)
  | applied {state : NativeState} (hg : m.generation = t.generation)
      (hs : m.sequence = t.sequence + 1) (hmax : m.sequence ≤ u64Max)
      (hb : decode m.bytes t.family = .ok state) :
      Outcome t m (.ok true, { t with bytes := m.bytes, state, sequence := m.sequence })

theorem apply_outcome (t : Transactions) (m : Message) : Outcome t m (t.apply m) := by
  unfold apply
  by_cases hold : m.generation ≠ t.generation ∨ m.sequence = 0 ∨ m.sequence < t.sequence
  · rw [if_pos hold]
    apply Outcome.stale
    tauto
  · rw [if_neg hold]
    obtain ⟨hg, hpos, hge⟩ : m.generation = t.generation ∧ m.sequence ≠ 0 ∧
        t.sequence ≤ m.sequence := by
      rw [not_or, not_or] at hold
      exact ⟨not_not.mp hold.1, hold.2.1, Nat.le_of_not_lt hold.2.2⟩
    by_cases hs : m.sequence = t.sequence
    · rw [if_pos hs]
      by_cases hb : m.bytes = t.bytes
      · rw [if_pos hb]
        exact .retry hg hpos hs hb
      · rw [if_neg hb]
        exact .conflict hg hpos hs hb
    · rw [if_neg hs]
      by_cases hnext : checkedAdd t.sequence 1 = some m.sequence
      · rw [if_neg (not_not.mpr hnext)]
        obtain ⟨hsucc, hmax⟩ := checkedAdd_eq_some.mp hnext
        rw [← hsucc] at hmax
        cases hb : decode m.bytes t.family with
        | error e => exact .malformed hg hsucc hmax hb
        | ok state => exact .applied hg hsucc hmax hb
      · rw [if_pos hnext]
        apply Outcome.stale
        rw [checkedAdd_eq_some] at hnext
        omega

end Steps

section Histories

variable {t₀ t : Transactions} {ms history : List Message}

/-- The log reached by applying these messages, each the next one and each in full. -/
inductive Logged (t₀ : Transactions) : List Message → Transactions → Prop
  | start : Logged t₀ [] t₀
  | next {ms : List Message} {t : Transactions} {m : Message} {state : NativeState}
      (h : Logged t₀ ms t) (hg : m.generation = t.generation) (hs : m.sequence = t.sequence + 1)
      (hb : decode m.bytes t.family = .ok state) :
      Logged t₀ (ms ++ [m]) { t with bytes := m.bytes, state, sequence := m.sequence }

theorem run_logged (h : Logged t₀ ms t) (history : List Message) :
    Logged t₀ (ms ++ applied t history) (run t history) := by
  induction history generalizing ms t with
  | nil =>
    rw [applied, List.append_nil]
    exact h
  | cons m history ih =>
    have hrun : run t (m :: history) = run (t.apply m).2 history := rfl
    rw [applied, hrun]
    generalize hr : t.apply m = r
    have ho : Outcome t m r := hr ▸ apply_outcome t m
    cases ho with
    | stale _ => exact ih h
    | retry _ _ _ _ => exact ih h
    | conflict _ _ _ _ => exact ih h
    | malformed _ _ _ _ => exact ih h
    | applied hg hs _ hb =>
      have hnext := ih (h.next hg hs hb)
      rw [List.append_assoc] at hnext
      exact hnext

theorem Logged.session_eq (h : Logged t₀ ms t) :
    t.generation = t₀.generation ∧ t.family = t₀.family := by
  induction h with
  | start => exact ⟨rfl, rfl⟩
  | next _ _ _ _ ih => exact ih

theorem Logged.sequence_eq (h : Logged t₀ ms t) : t.sequence = t₀.sequence + ms.length := by
  induction h with
  | start => rfl
  | next _ _ hs _ ih =>
    rw [List.length_append, List.length_singleton, ← Nat.add_assoc, ← ih]
    exact hs

theorem Logged.untouched (h : Logged t₀ ms t) (hnone : ms = []) : t = t₀ := by
  cases h with
  | start => rfl
  | next _ _ _ _ => exact absurd hnone (List.append_ne_nil_of_right_ne_nil _ (by simp))

/-- Gapless and in order, so each sequence at most once. -/
theorem Logged.gapless (h : Logged t₀ ms t) :
    ms.map Message.sequence = List.range' (t₀.sequence + 1) ms.length := by
  induction h with
  | start => rfl
  | next h _ hs _ ih =>
    rw [List.map_append, ih, List.length_append, List.length_singleton, List.range'_concat,
      List.map_singleton, hs, h.sequence_eq]
    congr 2
    omega

theorem Logged.last (h : Logged t₀ ms t) {m : Message} (hm : ms.getLast? = some m) :
    m.generation = t.generation ∧ m.sequence = t.sequence ∧ m.sequence ≠ 0 ∧ m.bytes = t.bytes ∧
      decode m.bytes t.family = .ok t.state := by
  cases h with
  | start => cases hm
  | next h hg hs hb =>
    rw [List.getLast?_concat] at hm
    obtain rfl := Option.some.inj hm
    exact ⟨hg, rfl, hs ▸ Nat.succ_ne_zero _, rfl, hb⟩

end Histories

section Deliveries

variable {generation : ℕ} {state : NativeState} {t₀ t t' : Transactions} {m : Message}

theorem apply_stale (h : m.generation ≠ t.generation ∨ m.sequence = 0 ∨
    m.sequence < t.sequence ∨ t.sequence + 1 < m.sequence) : t.apply m = (.error .stale, t) := by
  generalize hr : t.apply m = r
  have ho : Outcome t m r := hr ▸ apply_outcome t m
  cases ho with
  | stale _ => rfl
  | retry hg hpos hs _ => omega
  | conflict hg hpos hs _ => omega
  | malformed hg hs _ _ => omega
  | applied hg hs _ _ => omega

theorem apply_last (hg : m.generation = t.generation) (hpos : m.sequence ≠ 0)
    (hs : m.sequence = t.sequence) :
    t.apply m = (if m.bytes = t.bytes then .ok false else .error .conflictingRetry, t) := by
  have hfresh : ¬ (m.generation ≠ t.generation ∨ m.sequence = 0 ∨ m.sequence < t.sequence) := by
    omega
  unfold apply
  rw [if_neg hfresh, if_pos hs]
  by_cases hb : m.bytes = t.bytes
  · rw [if_pos hb, if_pos hb]
  · rw [if_neg hb, if_neg hb]

theorem apply_next (hg : m.generation = t.generation) (hs : m.sequence = t.sequence + 1)
    (hmax : m.sequence ≤ u64Max) {state : NativeState} (hb : decode m.bytes t.family = .ok state) :
    t.apply m = (.ok true, { t with bytes := m.bytes, state, sequence := m.sequence }) := by
  generalize hr : t.apply m = r
  have ho : Outcome t m r := hr ▸ apply_outcome t m
  cases ho with
  | stale h => omega
  | retry _ _ hs' _ => omega
  | conflict _ _ hs' _ => omega
  | malformed _ _ _ hb' =>
    rw [hb] at hb'
    cases hb'
  | applied _ _ _ hb' =>
    rw [hb] at hb'
    obtain rfl := Except.ok.inj hb'
    rfl

theorem apply_error {e : StateError} (h : t.apply m = (.error e, t')) : t' = t := by
  generalize hr : t.apply m = r at h
  have ho : Outcome t m r := hr ▸ apply_outcome t m
  subst h
  cases ho <;> rfl

/-- A body that is not the last one is refused when it cannot be decoded. -/
theorem apply_malformed (hlast : m.bytes = t.bytes → m.sequence = t.sequence → m.sequence = 0)
    {e : StateError} (hb : decode m.bytes t.family = .error e) :
    ∃ e, t.apply m = (.error e, t) := by
  generalize hr : t.apply m = r
  have ho : Outcome t m r := hr ▸ apply_outcome t m
  cases ho with
  | stale _ => exact ⟨_, rfl⟩
  | retry _ hpos hs hb' => exact absurd (hlast hb' hs) hpos
  | conflict _ _ _ _ => exact ⟨_, rfl⟩
  | malformed _ _ _ _ => exact ⟨_, rfl⟩
  | applied _ _ _ hb' =>
    rw [hb] at hb'
    cases hb'

end Deliveries

section Log

variable {t₀ : Transactions} {history : List Message} {generation : ℕ} {initial : NativeState}

/-- What a log of transactions does with a history of deliveries, and with the next one. -/
structure AppliesOnce (t₀ : Transactions) (history : List Message) : Prop where
  gapless : (applied t₀ history).map Message.sequence = List.range' 1 (run t₀ history).sequence
  untouched : applied t₀ history = [] → run t₀ history = t₀
  state_eq : ∀ m, (applied t₀ history).getLast? = some m →
    decode m.bytes t₀.family = .ok (run t₀ history).state
  /-- The last transaction is acknowledged again, and its sequence is taken. -/
  retry : ∀ m, (applied t₀ history).getLast? = some m →
    (run t₀ history).apply m = (.ok false, run t₀ history)
  conflict : ∀ m last, (applied t₀ history).getLast? = some last →
    m.generation = t₀.generation → m.sequence = last.sequence → m.bytes ≠ last.bytes →
    (run t₀ history).apply m = (.error .conflictingRetry, run t₀ history)
  stale : ∀ m : Message, m.generation ≠ t₀.generation ∨ m.sequence = 0 ∨
    m.sequence < (run t₀ history).sequence ∨ (run t₀ history).sequence + 1 < m.sequence →
    (run t₀ history).apply m = (.error .stale, run t₀ history)
  next : ∀ m state, m.generation = t₀.generation → m.sequence = (run t₀ history).sequence + 1 →
    m.sequence ≤ u64Max → decode m.bytes t₀.family = .ok state →
    (run t₀ history).apply m =
      (.ok true, { run t₀ history with bytes := m.bytes, state, sequence := m.sequence })
  malformed : ∀ m e, decode m.bytes t₀.family = .error e →
    ∃ e, (run t₀ history).apply m = (.error e, run t₀ history)
  /-- So a body that was cut off or added to is refused. -/
  cut : ∀ m body state, decode body t₀.family = .ok state → m.bytes ≠ body →
    m.bytes <+: body ∨ body <+: m.bytes →
    ∃ e, (run t₀ history).apply m = (.error e, run t₀ history)
  rejected : ∀ m e t, (run t₀ history).apply m = (.error e, t) → t = run t₀ history

theorem Logged.malformed {ms : List Message} {t : Transactions} (h : Logged t₀ ms t)
    (hstart : t₀.sequence = 0) (m : Message) {e : StateError}
    (hb : decode m.bytes t₀.family = .error e) : ∃ e, t.apply m = (.error e, t) := by
  obtain ⟨_, hfamily⟩ := h.session_eq
  rw [← hfamily] at hb
  refine apply_malformed ?_ hb
  intro hbytes hs
  cases hm : ms.getLast? with
  | none =>
    rw [List.getLast?_eq_none_iff] at hm
    rw [hs, h.sequence_eq, hm, hstart]
    rfl
  | some last =>
    obtain ⟨_, _, _, hsame, hok⟩ := h.last hm
    rw [hbytes, ← hsame, hok] at hb
    cases hb

/-- Each transaction is applied once and in order, whatever is delivered. -/
theorem transactions_apply_once (h : new generation initial = .ok t₀) (history : List Message) :
    AppliesOnce t₀ history := by
  have hstart : t₀.sequence = 0 := by
    unfold new at h
    split at h
    · cases h
    · cases h
      rfl
  have hlog : Logged t₀ (applied t₀ history) (run t₀ history) := run_logged .start history
  obtain ⟨hgen, hfamily⟩ := hlog.session_eq
  have hseq := hlog.sequence_eq
  rw [hstart, Nat.zero_add] at hseq
  constructor
  · have hgapless := hlog.gapless
    rw [hstart] at hgapless
    rw [hgapless, ← hseq]
  · intro hnone
    exact hlog.untouched hnone
  · intro m hm
    rw [← hfamily]
    exact (hlog.last hm).2.2.2.2
  · intro m hm
    obtain ⟨hg, hs, hpos, hb, _⟩ := hlog.last hm
    rw [apply_last hg hpos hs, if_pos hb]
  · intro m last hm hg hs hb
    obtain ⟨_, hs', hpos, hb', _⟩ := hlog.last hm
    rw [apply_last (hg.trans hgen.symm) (hs ▸ hpos) (hs.trans hs'), if_neg (hb' ▸ hb)]
  · intro m hm
    rw [← hgen] at hm
    exact apply_stale hm
  · intro m state hg hs hmax hb
    rw [← hfamily] at hb
    exact apply_next (hg.trans hgen.symm) hs hmax hb
  · intro m e hb
    exact hlog.malformed hstart m hb
  · intro m body state hbody hne hcut
    cases hb : decode m.bytes t₀.family with
    | error e => exact hlog.malformed hstart m hb
    | ok other =>
      rcases hcut with hcut | hcut
      · exact absurd (decode_unique hb hbody hcut) hne
      · exact absurd (decode_unique hbody hb hcut).symm hne
  · intro m e t hm
    exact apply_error hm

/-- A repeated, a conflicting, an early and a truncated message around two good ones. -/
theorem transactions_apply_once_noisy :
    let neutral : NativeState := .xbox360 .default
    let body := encode neutral
    let pressed := body.set 2 1
    let history : List Message :=
      [⟨7, 1, body⟩, ⟨7, 1, body⟩, ⟨7, 1, pressed⟩, ⟨7, 3, body⟩, ⟨7, 2, body.dropLast⟩,
        ⟨8, 2, pressed⟩, ⟨7, 2, pressed⟩, ⟨7, 1, body⟩]
    ∃ t₀, new 7 neutral = .ok t₀ ∧ AppliesOnce t₀ history ∧
      applied t₀ history = [⟨7, 1, body⟩, ⟨7, 2, pressed⟩] := by
  intro neutral body pressed history
  have h : new 7 neutral = .ok ⟨7, 3, 0, body, neutral⟩ := rfl
  exact ⟨_, h, transactions_apply_once h history, by decide +kernel⟩

end Log

end Transactions
