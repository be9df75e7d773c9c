import VirtualGamepad.UsbipPending
import Mathlib.Data.List.Nodup

/-! A ticket enters the pending table once and leaves it once, and no later request answers to
it, also when the kernel reuses its sequence number. -/
namespace UsbipPendingTickets

open Fallible Runs UsbipFrame UsbipPending

def tickets (p : Pending) : List Ticket := p.live.map Entry.ticket

/-- The tickets handed out so far, in order. -/
def issued (log : List Label) : List Ticket :=
  log.filterMap fun label => match label with
    | .insert _ _ _ (.ok ticket) => some ticket
    | _ => none

@[simp] theorem issued_append (log log' : List Label) :
    issued (log ++ log') = issued log ++ issued log' := List.filterMap_append

/-- The four ways out of the table, with what each says about the entry that took it. -/
inductive Leaves (e : Entry) : Label → Prop where
  | completion (now : ℕ) : now < e.deadline → Leaves e (.complete e.ticket now (.ok e.header))
  | unlink : Leaves e (.unlink e.ticket.sequence true)
  | expiry (now : ℕ) : e.deadline ≤ now → Leaves e (.expire now (.ok (some e.header)))
  | cancellation : Leaves e .cancelAll

/-- What a run keeps true of the table and of the tickets it handed out. -/
structure Sound (issued : List Ticket) (p : Pending) : Prop where
  slots : p.entries.length = maxPending
  sequences : (p.live.map (·.ticket.sequence)).Nodup
  sequence_eq : ∀ e ∈ p.live, e.ticket.sequence = e.header.sequence
  live_issued : ∀ e ∈ p.live, e.ticket ∈ issued
  generations : ∀ t ∈ issued, t.generation ≤ p.generation
  ascending : issued.Pairwise (·.generation < ·.generation)

section Steps

variable {p p' : Pending} {label : Label} {ts : List Ticket} {now : ℕ}

theorem Refused.live_eq (h : Refused p now p') : p'.live = p.live := by
  unfold Pending.live
  rw [h.same.2.2]

/-- Taking one entry out keeps the table sound. -/
theorem Sound.shrink (h : Sound ts p) {e : Entry} (hp : p.live.Perm (e :: p'.live))
    (hl : p'.entries.length = p.entries.length) (hg : p'.generation = p.generation) :
    Sound ts p' := by
  have hsub : ∀ x ∈ p'.live, x ∈ p.live := by
    intro x hx
    exact hp.mem_iff.mpr (List.mem_cons_of_mem e hx)
  have hnd : ((e :: p'.live).map (·.ticket.sequence)).Nodup :=
    (hp.map _).nodup_iff.mp h.sequences
  constructor
  · exact hl.trans h.slots
  · exact (List.nodup_cons.mp hnd).2
  · intro x hx
    exact h.sequence_eq x (hsub x hx)
  · intro x hx
    exact h.live_issued x (hsub x hx)
  · rw [hg]
    exact h.generations
  · exact h.ascending

/-- Tables with the same entries and generation are equally sound. -/
theorem Sound.same (h : Sound ts p) (he : p'.entries = p.entries)
    (hg : p'.generation = p.generation) : Sound ts p' := by
  have hlive : p'.live = p.live := by
    unfold Pending.live
    rw [he]
  refine ⟨?_, ?_, ?_, ?_, ?_, h.ascending⟩
  · rw [he]; exact h.slots
  · rw [hlive]; exact h.sequences
  · rw [hlive]; exact h.sequence_eq
  · rw [hlive]; exact h.live_issued
  · rw [hg]; exact h.generations

theorem Sound.refused (h : Sound ts p) (hr : Refused p now p') : Sound ts p' :=
  h.same hr.same.2.2 hr.same.2.1

theorem Sound.insert (h : Sound ts p) {e : Entry} (hnew : ∀ x ∈ p.live,
      x.ticket.sequence ≠ e.header.sequence) (hs : e.ticket.sequence = e.header.sequence)
    (hg : e.ticket.generation = p.generation + 1) (hp : p'.live.Perm (e :: p.live))
    (hl : p'.entries.length = p.entries.length) (hg' : p'.generation = p.generation + 1) :
    Sound (ts ++ [e.ticket]) p' := by
  have hmem : ∀ x ∈ p'.live, x = e ∨ x ∈ p.live := by
    intro x hx
    exact List.mem_cons.mp (hp.mem_iff.mp hx)
  constructor
  · exact hl.trans h.slots
  · refine (hp.map _).nodup_iff.mpr ?_
    rw [List.map_cons, List.nodup_cons]
    refine ⟨?_, h.sequences⟩
    intro hin
    obtain ⟨x, hx, heq⟩ := List.mem_map.mp hin
    exact hnew x hx (heq.trans hs)
  · intro x hx
    rcases hmem x hx with rfl | hx
    · exact hs
    · exact h.sequence_eq x hx
  · intro x hx
    rcases hmem x hx with rfl | hx
    · simp
    · exact List.mem_append_left _ (h.live_issued x hx)
  · intro t ht
    rcases List.mem_append.mp ht with ht | ht
    · have := h.generations t ht
      omega
    · rw [List.mem_singleton.mp ht]
      omega
  · rw [List.pairwise_append]
    refine ⟨h.ascending, by simp, ?_⟩
    intro t ht t' ht'
    rw [List.mem_singleton.mp ht', hg]
    have := h.generations t ht
    omega

theorem step_sound (h : Sound ts p) (st : Step p label p') : Sound (ts ++ issued [label]) p' := by
  have idle : issued [label] = [] → Sound ts p' → Sound (ts ++ issued [label]) p' := by
    intro hi hs
    rwa [hi, List.append_nil]
  cases label with
  | insert header now timeoutUs result =>
    rcases insert_spec st with ⟨error, rfl, hr⟩ |
      ⟨entry, rfl, _, _, he, _, _, hnew, hperm, hlen, _, hgen, _⟩
    · exact idle rfl (h.refused hr)
    · subst he
      exact h.insert hnew rfl rfl hperm hlen hgen
  | complete ticket now result =>
    rcases complete_spec st with ⟨error, rfl, hr⟩ | ⟨entry, rfl, _, _, _, hperm, hlen, _, hgen, _⟩
    · exact idle rfl (h.refused hr)
    · exact idle rfl (h.shrink hperm hlen hgen)
  | unlink sequence found =>
    rcases unlink_spec st with ⟨rfl, rfl, _⟩ | ⟨rfl, entry, _, hperm, hlen, _, hgen, _⟩
    · exact idle rfl h
    · exact idle rfl (h.shrink hperm hlen hgen)
  | expire now result =>
    rcases expire_spec st with ⟨error, rfl, hr⟩ | ⟨rfl, _, rfl, _⟩ |
      ⟨entry, rfl, _, _, hperm, hlen, _, hgen, _⟩
    · exact idle rfl (h.refused hr)
    · exact idle rfl (h.same rfl rfl)
    · exact idle rfl (h.shrink hperm hlen hgen)
  | cancelAll =>
    obtain rfl : p' = cancelAll p := st
    refine idle rfl ?_
    have hnil := cancelAll_live p
    refine ⟨?_, by simp [hnil], by simp [hnil], by simp [hnil], h.generations, h.ascending⟩
    rw [cancelAll, List.length_map]
    exact h.slots

/-- An entry stays unless the step is one of its ways out. -/
theorem step_leaves (h : Sound ts p) (st : Step p label p') {e : Entry} (he : e ∈ p.live) :
    e ∈ p'.live ∨ Leaves e label := by
  have stays : p'.live = p.live → e ∈ p'.live := fun hl => hl ▸ he
  have one : ∀ entry : Entry, p.live.Perm (entry :: p'.live) → e = entry ∨ e ∈ p'.live := by
    intro entry hperm
    exact List.mem_cons.mp (hperm.mem_iff.mp he)
  cases label with
  | insert header now timeoutUs result =>
    rcases insert_spec st with ⟨error, rfl, hr⟩ | ⟨entry, _, _, _, _, _, _, _, hperm, _⟩
    · exact .inl (stays (Refused.live_eq hr))
    · exact .inl (hperm.mem_iff.mpr (List.mem_cons_of_mem entry he))
  | complete ticket now result =>
    rcases complete_spec st with ⟨error, rfl, hr⟩ | ⟨entry, rfl, _, rfl, hlt, hperm, _⟩
    · exact .inl (stays (Refused.live_eq hr))
    · rcases one entry hperm with rfl | hin
      · exact .inr (.completion now hlt)
      · exact .inl hin
  | unlink sequence found =>
    rcases unlink_spec st with ⟨rfl, rfl, _⟩ | ⟨rfl, entry, rfl, hperm, _⟩
    · exact .inl he
    · rcases one entry hperm with rfl | hin
      · exact .inr .unlink
      · exact .inl hin
  | expire now result =>
    rcases expire_spec st with ⟨error, rfl, hr⟩ | ⟨rfl, _, rfl, _⟩ | ⟨entry, rfl, _, hd, hperm, _⟩
    · exact .inl (stays (Refused.live_eq hr))
    · exact .inl he
    · rcases one entry hperm with rfl | hin
      · exact .inr (.expiry now hd)
      · exact .inl hin
  | cancelAll => exact .inr .cancellation

/-- Only an insertion adds an entry, and it hands out that entry's ticket. -/
theorem step_enters (st : Step p label p') {e : Entry} (he : e ∈ p'.live) :
    e ∈ p.live ∨ ∃ now timeoutUs, label = .insert e.header now timeoutUs (.ok e.ticket) ∧
      e.ticket.generation = p.generation + 1 := by
  have shrunk : ∀ entry : Entry, p.live.Perm (entry :: p'.live) → e ∈ p.live := by
    intro entry hperm
    exact hperm.mem_iff.mpr (List.mem_cons_of_mem entry he)
  cases label with
  | insert header now timeoutUs result =>
    rcases insert_spec st with ⟨error, rfl, hr⟩ | ⟨entry, rfl, _, _, hentry, _, _, _, hperm, _⟩
    · left
      rwa [Refused.live_eq hr] at he
    · rcases List.mem_cons.mp (hperm.mem_iff.mp he) with rfl | hin
      · rw [hentry]
        exact .inr ⟨now, timeoutUs, rfl, rfl⟩
      · exact .inl hin
  | complete ticket now result =>
    left
    rcases complete_spec st with ⟨error, rfl, hr⟩ | ⟨entry, rfl, _, _, _, hperm, _⟩
    · rwa [Refused.live_eq hr] at he
    · exact shrunk entry hperm
  | unlink sequence found =>
    left
    rcases unlink_spec st with ⟨rfl, rfl, _⟩ | ⟨rfl, entry, _, hperm, _⟩
    · exact he
    · exact shrunk entry hperm
  | expire now result =>
    left
    rcases expire_spec st with ⟨error, rfl, hr⟩ | ⟨rfl, _, rfl, _⟩ | ⟨entry, rfl, _, _, hperm, _⟩
    · rwa [Refused.live_eq hr] at he
    · exact he
    · exact shrunk entry hperm
  | cancelAll =>
    obtain rfl : p' = cancelAll p := st
    rw [cancelAll_live] at he
    cases he

variable {log log' : List Label} {connection : ℕ}

theorem run_sound (h : Run Step (Pending.new connection) log p) : Sound (issued log) p := by
  induction h with
  | nil =>
    have hnil : (Pending.new connection).live = [] := SlotTable.live_replicate_none _
    refine ⟨List.length_replicate, ?_, ?_, ?_, ?_, List.Pairwise.nil⟩
    all_goals simp [hnil, issued]
  | snoc _ st ih =>
    rw [issued_append]
    exact step_sound ih st

/-- A ticket that has left the table never comes back. -/
theorem run_gone (hs : Sound ts p) (h : Run Step p log' p') {t : Ticket} (ht : t ∈ ts)
    (hgone : t ∉ tickets p) : Sound (ts ++ issued log') p' ∧ t ∉ tickets p' := by
  induction h with
  | nil => exact ⟨by simpa [issued] using hs, hgone⟩
  | snoc _ st ih =>
    obtain ⟨hsound, hout⟩ := ih
    refine ⟨?_, ?_⟩
    · rw [issued_append, ← List.append_assoc]
      exact step_sound hsound st
    · intro hin
      obtain ⟨e, he, rfl⟩ := List.mem_map.mp hin
      rcases step_enters st he with he | ⟨_, _, _, hg⟩
      · exact hout (List.mem_map.mpr ⟨e, he, rfl⟩)
      · have := hsound.generations e.ticket (List.mem_append_left _ ht)
        omega

end Steps

/-- The life of tickets in a table that a log of operations led to. -/
structure TicketsOnce (log : List Label) (p : Pending) : Prop where
  distinct_sequences : (p.live.map (·.ticket.sequence)).Nodup
  distinct_tickets : (tickets p).Nodup
  bounded : p.live.length ≤ maxPending
  issued_once : (issued log).Pairwise (·.generation < ·.generation)
  live_issued : ∀ t ∈ tickets p, t ∈ issued log
  leaves : ∀ label p', Step p label p' → ∀ e ∈ p.live, e ∈ p'.live ∨ Leaves e label
  enters : ∀ label p', Step p label p' → ∀ e ∈ p'.live,
    e ∈ p.live ∨ ∃ now timeoutUs, label = .insert e.header now timeoutUs (.ok e.ticket)
  gone : ∀ log' p', Run Step p log' p' → ∀ t ∈ issued log, t ∉ tickets p → t ∉ tickets p'
  /-- A ticket completes its own request only, and every other one stays. -/
  completes : ∀ ticket now header p', complete ticket now p = (.ok header, p') →
    (∃ e ∈ p.live, e.ticket = ticket ∧ e.header = header) ∧
      ∀ e ∈ p.live, e.ticket ≠ ticket → e ∈ p'.live
  expired : ∀ e ∈ p.live, ∀ now, e.deadline ≤ now →
    ∃ error p', complete e.ticket now p = (.error error, p') ∧ e ∈ p'.live
  refused_insert : ∀ header now timeoutUs error p',
    insert header now timeoutUs p = (.error error, p') → Refused p now p'
  refused_complete : ∀ ticket now error p',
    complete ticket now p = (.error error, p') → Refused p now p'
  refused_expire : ∀ now error p', expire now p = (.error error, p') → Refused p now p'
  refused_unlink : ∀ sequence p', unlink sequence p = (false, p') → p' = p

/-- Tickets are handed out once, leave once, and belong to one request for ever. -/
theorem tickets_once {connection : ℕ} {log : List Label} {p : Pending}
    (h : Run Step (Pending.new connection) log p) : TicketsOnce log p := by
  have hs := run_sound h
  have unique : ∀ e ∈ p.live, ∀ e' ∈ p.live, e.ticket = e'.ticket → e = e' := by
    intro e he e' he' heq
    exact List.inj_on_of_nodup_map hs.sequences he he' (congrArg Ticket.sequence heq)
  constructor
  · exact hs.sequences
  · unfold tickets
    refine List.Nodup.of_map Ticket.sequence ?_
    rw [List.map_map]
    exact hs.sequences
  · have hle := SlotTable.live_length_le p.entries
    rw [hs.slots] at hle
    exact hle
  · exact hs.ascending
  · intro t ht
    obtain ⟨e, he, rfl⟩ := List.mem_map.mp ht
    exact hs.live_issued e he
  · intro label p' st e he
    exact step_leaves hs st he
  · intro label p' st e he
    rcases step_enters st he with he | ⟨now, timeoutUs, hl, _⟩
    · exact .inl he
    · exact .inr ⟨now, timeoutUs, hl⟩
  · intro log' p' hr t ht hgone
    exact (run_gone hs hr ht hgone).2
  · intro ticket now header p' hc
    rcases complete_spec hc with ⟨error, he, _⟩ | ⟨entry, hok, _, rfl, _, hperm, _⟩
    · cases he
    · obtain rfl := Except.ok.inj hok
      refine ⟨⟨entry, hperm.mem_iff.mpr (List.mem_cons_self), rfl, rfl⟩, ?_⟩
      intro e he hne
      rcases List.mem_cons.mp (hperm.mem_iff.mp he) with rfl | hin
      · exact absurd rfl hne
      · exact hin
  · intro e he now hd
    rcases hc : complete e.ticket now p with ⟨result, p'⟩
    rcases complete_spec hc with ⟨error, rfl, hr⟩ | ⟨entry, _, _, htick, hlt, hperm, _⟩
    · refine ⟨error, p', rfl, ?_⟩
      rw [Refused.live_eq hr]
      exact he
    · have hentry : entry ∈ p.live := hperm.mem_iff.mpr (List.mem_cons_self)
      obtain rfl := unique entry hentry e he htick
      omega
  · intro header now timeoutUs error p' hi
    rcases insert_spec hi with ⟨_, _, hr⟩ | ⟨entry, he, _⟩
    · exact hr
    · cases he
  · intro ticket now error p' hc
    rcases complete_spec hc with ⟨_, _, hr⟩ | ⟨entry, he, _⟩
    · exact hr
    · cases he
  · intro now error p' hx
    rcases expire_spec hx with ⟨_, _, hr⟩ | ⟨he, _⟩ | ⟨entry, he, _⟩
    · exact hr
    · cases he
    · cases he
  · intro sequence p' hu
    rcases unlink_spec hu with ⟨_, hp, _⟩ | ⟨he, _⟩
    · exact hp
    · cases he

def request (sequence : ℕ) : Header :=
  ⟨sequence, 65537, 3, .in, 0, 64, 0, 0, List.replicate 8 0, 0, none⟩

/-- A sequence is unlinked and reused; the old ticket is refused and the new one completes. -/
def reused : List Label :=
  [.insert (request 9) 0 100 (.ok ⟨5, 1, 9⟩), .unlink 9 true,
    .insert (request 9) 10 100 (.ok ⟨5, 2, 9⟩), .complete ⟨5, 1, 9⟩ 20 (.error .stale),
    .complete ⟨5, 2, 9⟩ 30 (.ok (request 9))]

theorem tickets_once_reused : ∃ p, TicketsOnce reused p := by
  obtain ⟨p, hr⟩ : ∃ p, Run Step (Pending.new 5) reused p := by
    exact ⟨_, run_cons.mpr ⟨_, rfl, run_cons.mpr ⟨_, rfl, run_cons.mpr ⟨_, rfl,
      run_cons.mpr ⟨_, rfl, run_cons.mpr ⟨_, rfl, .nil⟩⟩⟩⟩⟩⟩
  exact ⟨p, tickets_once hr⟩

/-- A refused duplicate moves the clock, so that a completion at an earlier time, which would
have succeeded before, is refused too. -/
theorem refused_insert_moves_clock : ∃ p p' : Pending,
    Run Step (Pending.new 5) [.insert (request 9) 0 100 (.ok ⟨5, 1, 9⟩)] p ∧
    insert (request 9) 50 100 p = (.error .duplicate, p') ∧ p' ≠ p ∧
    (complete ⟨5, 1, 9⟩ 10 p).1 = .ok (request 9) ∧
    (complete ⟨5, 1, 9⟩ 10 p').1 = .error .clock := by
  refine ⟨_, _, run_singleton.mpr rfl, rfl, ?_, rfl, rfl⟩
  intro h
  exact absurd (congrArg Pending.now h) (by decide)

end UsbipPendingTickets
