import VirtualGamepad.UsbipFrame
import VirtualGamepad.SlotTable
import VirtualGamepad.Runs

/-! Requests of one connection that wait for their completion. The kernel may reuse a sequence
number; a ticket also carries a generation that is never reused. Times are monotonic
microseconds. -/
namespace UsbipPending

open Fallible MachineInt UsbipFrame

def maxPending : ℕ := 128

structure Ticket where
  connection : ℕ
  generation : ℕ
  sequence : ℕ
  deriving DecidableEq, Repr

inductive PendingError where
  | full
  | duplicate
  | stale
  | deadline
  | clock
  | notSubmit
  deriving DecidableEq, Repr

structure Entry where
  header : Header
  ticket : Ticket
  deadline : ℕ
  deriving DecidableEq, Repr

structure Pending where
  connection : ℕ
  generation : ℕ
  now : ℕ
  entries : List (Option Entry)
  deriving DecidableEq, Repr

def Pending.new (connection : ℕ) : Pending := ⟨connection, 0, 0, List.replicate maxPending none⟩

def Pending.live (p : Pending) : List Entry := SlotTable.live p.entries

def insert (header : Header) (now timeoutUs : ℕ) : Action PendingError Pending Ticket := fun p =>
  if now < p.now then (.error .clock, p)
  else
    let p := { p with now := now }
    if header.unlink.isSome then (.error .notSubmit, p)
    else if p.live.any (·.ticket.sequence = header.sequence) then (.error .duplicate, p)
    else if p.entries.all (·.isSome) then (.error .full, p)
    else if timeoutUs = 0 ∨ 1000000 < timeoutUs then (.error .deadline, p)
    else
      match checkedAdd now timeoutUs with
      | none => (.error .clock, p)
      | some deadline =>
        match checkedAdd p.generation 1 with
        | none => (.error .clock, p)
        | some generation =>
          let p := { p with generation := generation }
          let ticket : Ticket := ⟨p.connection, generation, header.sequence⟩
          match SlotTable.insert ⟨header, ticket, deadline⟩ p.entries with
          | none => (.error .full, p)
          | some entries => (.ok ticket, { p with entries := entries })

/-- An expired entry stays, for `expire` to report. -/
def complete (ticket : Ticket) (now : ℕ) : Action PendingError Pending Header := fun p =>
  if now < p.now then (.error .clock, p)
  else
    let p := { p with now := now }
    match SlotTable.take (·.ticket.sequence = ticket.sequence) p.entries with
    | none => (.error .stale, p)
    | some (entry, entries) =>
      if entry.ticket ≠ ticket then (.error .stale, p)
      else if entry.deadline ≤ now then (.error .deadline, p)
      else (.ok entry.header, { p with entries := entries })

/-- Whether the sequence was outstanding. -/
def unlink (sequence : ℕ) (p : Pending) : Bool × Pending :=
  match SlotTable.take (·.ticket.sequence = sequence) p.entries with
  | none => (false, p)
  | some (_, entries) => (true, { p with entries := entries })

/-- At most one timeout at a time. -/
def expire (now : ℕ) : Action PendingError Pending (Option Header) := fun p =>
  if now < p.now then (.error .clock, p)
  else
    let p := { p with now := now }
    match SlotTable.take (fun e => decide (e.deadline ≤ now)) p.entries with
    | none => (.ok none, p)
    | some (entry, entries) => (.ok (some entry.header), { p with entries := entries })

def cancelAll (p : Pending) : Pending := { p with entries := p.entries.map fun _ => none }

def nextDeadline (p : Pending) : Option ℕ := (p.live.map Entry.deadline).min?

/-- One operation with what it was given and what it answered. -/
inductive Label where
  | insert (header : Header) (now timeoutUs : ℕ) (result : Except PendingError Ticket)
  | complete (ticket : Ticket) (now : ℕ) (result : Except PendingError Header)
  | unlink (sequence : ℕ) (found : Bool)
  | expire (now : ℕ) (result : Except PendingError (Option Header))
  | cancelAll

def Step (p : Pending) (label : Label) (p' : Pending) : Prop :=
  match label with
  | .insert header now timeoutUs result => insert header now timeoutUs p = (result, p')
  | .complete ticket now result => complete ticket now p = (result, p')
  | .unlink sequence found => unlink sequence p = (found, p')
  | .expire now result => expire now p = (result, p')
  | .cancelAll => p' = cancelAll p

/-- A failed operation changes neither entries nor generations; it moves the clock only, and
not even that when the time given was reversed. -/
structure Refused (p : Pending) (now : ℕ) (p' : Pending) : Prop where
  same : p'.connection = p.connection ∧ p'.generation = p.generation ∧ p'.entries = p.entries
  clock : if now < p.now then p'.now = p.now else p'.now = now

theorem Refused.reversed {p : Pending} {now : ℕ} (h : now < p.now) : Refused p now p :=
  ⟨⟨rfl, rfl, rfl⟩, by rw [if_pos h]⟩

theorem Refused.clocked {p : Pending} {now : ℕ} (h : ¬ now < p.now) :
    Refused p now { p with now } :=
  ⟨⟨rfl, rfl, rfl⟩, by rw [if_neg h]⟩

section Operations

variable {p p' : Pending} {now timeoutUs sequence : ℕ} {header : Header} {ticket : Ticket}

/-- The only way an insertion finds no slot is the check it has already passed. -/
theorem free_slot {e : Entry} (h : ¬ p.entries.all (·.isSome) = true) :
    ∃ entries, SlotTable.insert e p.entries = some entries := by
  cases hi : SlotTable.insert e p.entries with
  | some entries => exact ⟨entries, rfl⟩
  | none =>
    refine absurd ?_ h
    rw [List.all_eq_true]
    exact SlotTable.insert_none hi

theorem insert_spec {result : Except PendingError Ticket}
    (h : insert header now timeoutUs p = (result, p')) :
    (∃ error, result = .error error ∧ Refused p now p') ∨
      ∃ entry, result = .ok entry.ticket ∧ p.now ≤ now ∧ header.unlink = none ∧
        entry = ⟨header, ⟨p.connection, p.generation + 1, header.sequence⟩, now + timeoutUs⟩ ∧
        0 < timeoutUs ∧ timeoutUs ≤ 1000000 ∧
        (∀ e ∈ p.live, e.ticket.sequence ≠ header.sequence) ∧
        p'.live.Perm (entry :: p.live) ∧ p'.entries.length = p.entries.length ∧
        p'.connection = p.connection ∧ p'.generation = p.generation + 1 ∧ p'.now = now := by
  unfold insert at h
  split at h
  · next hn =>
    obtain ⟨rfl, rfl⟩ := Prod.mk.inj h
    exact .inl ⟨_, rfl, .reversed hn⟩
  · next hn =>
    dsimp only at h
    split at h
    · obtain ⟨rfl, rfl⟩ := Prod.mk.inj h
      exact .inl ⟨_, rfl, .clocked hn⟩
    · next hu =>
      split at h
      · obtain ⟨rfl, rfl⟩ := Prod.mk.inj h
        exact .inl ⟨_, rfl, .clocked hn⟩
      · next hdup =>
        split at h
        · obtain ⟨rfl, rfl⟩ := Prod.mk.inj h
          exact .inl ⟨_, rfl, .clocked hn⟩
        · next hfull =>
          split at h
          · obtain ⟨rfl, rfl⟩ := Prod.mk.inj h
            exact .inl ⟨_, rfl, .clocked hn⟩
          · next htime =>
            cases hd : checkedAdd now timeoutUs with
            | none =>
              rw [hd] at h
              obtain ⟨rfl, rfl⟩ := Prod.mk.inj h
              exact .inl ⟨_, rfl, .clocked hn⟩
            | some deadline =>
              cases hg : checkedAdd p.generation 1 with
              | none =>
                rw [hd] at h
                dsimp only at h
                rw [hg] at h
                obtain ⟨rfl, rfl⟩ := Prod.mk.inj h
                exact .inl ⟨_, rfl, .clocked hn⟩
              | some generation =>
                obtain ⟨rfl, _⟩ := checkedAdd_eq_some.mp hd
                obtain ⟨rfl, _⟩ := checkedAdd_eq_some.mp hg
                rw [hd] at h
                dsimp only at h
                rw [hg] at h
                dsimp only at h
                obtain ⟨entries, hi⟩ := free_slot (e := ⟨header,
                  ⟨p.connection, p.generation + 1, header.sequence⟩, now + timeoutUs⟩) hfull
                rw [hi] at h
                obtain ⟨rfl, rfl⟩ := Prod.mk.inj h
                obtain ⟨hlen, hperm⟩ := SlotTable.insert_some hi
                refine .inr ⟨_, rfl, by omega, ?_, rfl, by omega, by omega, ?_, hperm, hlen, rfl,
                  rfl, rfl⟩
                · simpa using hu
                · intro e he heq
                  refine hdup (List.any_eq_true.mpr ⟨e, he, ?_⟩)
                  simpa using heq

theorem complete_spec {result : Except PendingError Header}
    (h : complete ticket now p = (result, p')) :
    (∃ error, result = .error error ∧ Refused p now p') ∨
      ∃ entry, result = .ok entry.header ∧ p.now ≤ now ∧ entry.ticket = ticket ∧
        now < entry.deadline ∧ p.live.Perm (entry :: p'.live) ∧
        p'.entries.length = p.entries.length ∧ p'.connection = p.connection ∧
        p'.generation = p.generation ∧ p'.now = now := by
  unfold complete at h
  split at h
  · next hn =>
    obtain ⟨rfl, rfl⟩ := Prod.mk.inj h
    exact .inl ⟨_, rfl, .reversed hn⟩
  · next hn =>
    dsimp only at h
    split at h
    · obtain ⟨rfl, rfl⟩ := Prod.mk.inj h
      exact .inl ⟨_, rfl, .clocked hn⟩
    · next entry entries ht =>
      split at h
      · obtain ⟨rfl, rfl⟩ := Prod.mk.inj h
        exact .inl ⟨_, rfl, .clocked hn⟩
      · next heq =>
        split at h
        · obtain ⟨rfl, rfl⟩ := Prod.mk.inj h
          exact .inl ⟨_, rfl, .clocked hn⟩
        · next hd =>
          obtain ⟨rfl, rfl⟩ := Prod.mk.inj h
          obtain ⟨_, hlen, hperm⟩ := SlotTable.take_some ht
          refine .inr ⟨entry, rfl, by omega, ?_, by omega, hperm, hlen, rfl, rfl, rfl⟩
          by_contra hne
          exact heq hne

theorem unlink_spec {found : Bool} (h : unlink sequence p = (found, p')) :
    (found = false ∧ p' = p ∧ ∀ e ∈ p.live, e.ticket.sequence ≠ sequence) ∨
      (found = true ∧ ∃ entry, entry.ticket.sequence = sequence ∧
        p.live.Perm (entry :: p'.live) ∧ p'.entries.length = p.entries.length ∧
        p'.connection = p.connection ∧ p'.generation = p.generation ∧ p'.now = p.now) := by
  unfold unlink at h
  split at h
  · next ht =>
    obtain ⟨rfl, rfl⟩ := Prod.mk.inj h
    refine .inl ⟨rfl, rfl, ?_⟩
    intro e he
    simpa using SlotTable.take_none ht e he
  · next entry entries ht =>
    obtain ⟨rfl, rfl⟩ := Prod.mk.inj h
    obtain ⟨hseq, hlen, hperm⟩ := SlotTable.take_some ht
    exact .inr ⟨rfl, entry, by simpa using hseq, hperm, hlen, rfl, rfl, rfl⟩

theorem expire_spec {result : Except PendingError (Option Header)}
    (h : expire now p = (result, p')) :
    (∃ error, result = .error error ∧ Refused p now p') ∨
      (result = .ok none ∧ p.now ≤ now ∧ p' = { p with now } ∧ ∀ e ∈ p.live, now < e.deadline) ∨
      ∃ entry, result = .ok (some entry.header) ∧ p.now ≤ now ∧ entry.deadline ≤ now ∧
        p.live.Perm (entry :: p'.live) ∧ p'.entries.length = p.entries.length ∧
        p'.connection = p.connection ∧ p'.generation = p.generation ∧ p'.now = now := by
  unfold expire at h
  split at h
  · next hn =>
    obtain ⟨rfl, rfl⟩ := Prod.mk.inj h
    exact .inl ⟨_, rfl, .reversed hn⟩
  · next hn =>
    dsimp only at h
    split at h
    · next ht =>
      obtain ⟨rfl, rfl⟩ := Prod.mk.inj h
      refine .inr (.inl ⟨rfl, by omega, rfl, ?_⟩)
      intro e he
      simpa using SlotTable.take_none ht e he
    · next entry entries ht =>
      obtain ⟨rfl, rfl⟩ := Prod.mk.inj h
      obtain ⟨hd, hlen, hperm⟩ := SlotTable.take_some ht
      exact .inr (.inr ⟨entry, rfl, by omega, by simpa using hd, hperm, hlen, rfl, rfl, rfl⟩)

theorem cancelAll_live (p : Pending) : (cancelAll p).live = [] := by
  unfold cancelAll Pending.live
  induction p.entries with
  | nil => rfl
  | cons e entries ih => exact ih

end Operations

end UsbipPending
