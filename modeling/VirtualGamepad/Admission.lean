import VirtualGamepad.Tables

/-! Process-wide limits on what peers may hold. A permit is a reservation of its peer. -/
namespace Admission

open Tables

/-- A user identity, as the kernel reports it. -/
abbrev Peer := UInt32

inductive BrokerError where
  | capacity
  | unauthorized (peer : Peer)
  | unsupportedController (target controller : String)
  | wrongOwner (session : ℕ)
  | unknownSession (session : ℕ)
  | invalidReportLength (target : String) (actual expected : ℕ)
  | malformedRequest
  | host (reason : String)
  deriving DecidableEq, Repr

def BrokerError.text : BrokerError → String
  | .capacity => "broker resource limit reached"
  | .unauthorized peer => s!"peer {peer} is not authorized"
  | .unsupportedController target controller =>
    s!"{target} does not support controller ControllerId(\"{controller}\")"
  | .wrongOwner session =>
    s!"session RealizationSessionId({session}) is owned by another peer"
  | .unknownSession session => s!"unknown broker session RealizationSessionId({session})"
  | .invalidReportLength target actual expected =>
    s!"invalid {target} input report length {actual}; expected {expected}"
  | .malformedRequest => "malformed broker request"
  | .host reason => s!"privileged host session failed: {reason}"

structure Limits where
  total : ℕ
  peers : Table Peer ℕ
  globalLimit : ℕ
  perPeer : ℕ

def Limits.new (globalLimit perPeer : ℕ) : Limits := ⟨0, ∅, globalLimit, perPeer⟩

def Limits.count (l : Limits) (peer : Peer) : ℕ := (l.peers.lookup peer).getD 0

def Limits.reserve (l : Limits) (peer : Peer) : Except BrokerError Limits :=
  if l.globalLimit ≤ l.total ∨ l.perPeer ≤ l.count peer then .error .capacity
  else .ok { l with total := l.total + 1, peers := l.peers.insert peer (l.count peer + 1) }

/-- Dropping a permit. A count that reaches zero leaves the table. -/
def Limits.release (l : Limits) (peer : Peer) : Limits :=
  match l.peers.lookup peer with
  | none => { l with total := l.total - 1 }
  | some count =>
    { l with
      total := l.total - 1
      peers := if count - 1 = 0 then l.peers.erase peer else l.peers.insert peer (count - 1) }

/-- The shared state counts exactly the permits that are alive, within both limits. -/
structure Counts (l : Limits) (live : List Peer) : Prop where
  total_eq : l.total = live.length
  count_eq : ∀ peer, l.count peer = live.count peer
  sum_eq : (values l.peers).sum = l.total
  total_le : l.total ≤ l.globalLimit
  count_le : ∀ peer, l.count peer ≤ l.perPeer

variable {l l' : Limits} {live live' : List Peer} {peer : Peer} {error : BrokerError}

theorem counts_new (globalLimit perPeer : ℕ) : Counts (.new globalLimit perPeer) [] :=
  ⟨rfl, fun _ => rfl, rfl, Nat.zero_le _, fun _ => Nat.zero_le _⟩

theorem Counts.perm (h : Counts l live) (hp : live.Perm live') : Counts l live' :=
  ⟨h.total_eq.trans hp.length_eq, fun peer => (h.count_eq peer).trans (hp.count_eq peer), h.sum_eq,
    h.total_le, h.count_le⟩

theorem count_insert (l : Limits) (peer other : Peer) (n : ℕ) :
    ((l.peers.insert peer n).lookup other).getD 0 = if other = peer then n else l.count other := by
  by_cases hsame : other = peer
  · rw [if_pos hsame, hsame, AList.lookup_insert]
    rfl
  · rw [if_neg hsame, AList.lookup_insert_ne hsame]
    rfl

theorem reserve_error (h : l.reserve peer = .error error) :
    error = .capacity ∧ (l.globalLimit ≤ l.total ∨ l.perPeer ≤ l.count peer) := by
  unfold Limits.reserve at h
  by_cases hfull : l.globalLimit ≤ l.total ∨ l.perPeer ≤ l.count peer
  · rw [if_pos hfull] at h
    exact ⟨(Except.error.inj h).symm, hfull⟩
  · rw [if_neg hfull] at h
    cases h

theorem reserve_ok (h : l.reserve peer = .ok l') :
    (l.total < l.globalLimit ∧ l.count peer < l.perPeer) ∧
      l' = { l with total := l.total + 1, peers := l.peers.insert peer (l.count peer + 1) } := by
  unfold Limits.reserve at h
  by_cases hfull : l.globalLimit ≤ l.total ∨ l.perPeer ≤ l.count peer
  · rw [if_pos hfull] at h
    cases h
  · rw [if_neg hfull] at h
    exact ⟨by omega, (Except.ok.inj h).symm⟩

theorem reserve_limits (h : l.reserve peer = .ok l') :
    l'.globalLimit = l.globalLimit ∧ l'.perPeer = l.perPeer := by
  obtain ⟨_, rfl⟩ := reserve_ok h
  exact ⟨rfl, rfl⟩

theorem reserve_counts (h : Counts l live) (hr : l.reserve peer = .ok l') :
    Counts l' (peer :: live) := by
  obtain ⟨⟨htotal, hpeer⟩, rfl⟩ := reserve_ok hr
  have hcount := fun other => count_insert l peer other (l.count peer + 1)
  refine ⟨?_, fun other => ?_, ?_, htotal, fun other => ?_⟩
  · rw [List.length_cons, ← h.total_eq]
  · refine (hcount other).trans ?_
    by_cases hsame : other = peer
    · rw [if_pos hsame, hsame, List.count_cons_self, ← h.count_eq]
    · rw [if_neg hsame, List.count_cons_of_ne (Ne.symm hsame), h.count_eq]
  · rw [values_insert_eq, List.sum_cons]
    have hsum := sum_values l.peers peer
    have hall := h.sum_eq
    change l.count peer + 1 + (values (l.peers.erase peer)).sum = l.total + 1
    have hsame : (l.peers.lookup peer).getD 0 = l.count peer := rfl
    omega
  · refine (hcount other).trans_le ?_
    by_cases hsame : other = peer
    · rw [if_pos hsame]
      exact hpeer
    · rw [if_neg hsame]
      exact h.count_le other

theorem release_limits (l : Limits) (peer : Peer) :
    (l.release peer).globalLimit = l.globalLimit ∧ (l.release peer).perPeer = l.perPeer := by
  unfold Limits.release
  cases l.peers.lookup peer with
  | none => exact ⟨rfl, rfl⟩
  | some count => exact ⟨rfl, rfl⟩

theorem release_counts (h : Counts l (peer :: live)) :
    Counts (l.release peer) live := by
  have hpeer := h.count_eq peer
  rw [List.count_cons_self] at hpeer
  obtain ⟨count, hlookup⟩ : ∃ count, l.peers.lookup peer = some count := by
    cases hlookup : l.peers.lookup peer with
    | none =>
      unfold Limits.count at hpeer
      rw [hlookup] at hpeer
      exact absurd hpeer (by rw [Option.getD_none]; omega)
    | some count => exact ⟨count, rfl⟩
  have hcount : l.count peer = count := by
    unfold Limits.count
    rw [hlookup]
    rfl
  have hpeers : ∀ other, (l.release peer).count other =
      if other = peer then count - 1 else l.count other := by
    intro other
    unfold Limits.release Limits.count
    rw [hlookup]
    dsimp only
    by_cases hlast : count - 1 = 0
    · rw [if_pos hlast]
      by_cases hsame : other = peer
      · rw [if_pos hsame, hsame, AList.lookup_erase, hlast]
        rfl
      · rw [if_neg hsame, AList.lookup_erase_ne hsame]
    · rw [if_neg hlast]
      exact count_insert l peer other (count - 1)
  have hsum : (values (l.release peer).peers).sum = l.total - 1 := by
    have hall := sum_values l.peers peer
    rw [hlookup, Option.getD_some, h.sum_eq] at hall
    unfold Limits.release
    rw [hlookup]
    dsimp only
    by_cases hlast : count - 1 = 0
    · rw [if_pos hlast]
      omega
    · rw [if_neg hlast, values_insert_eq, List.sum_cons]
      omega
  have htotal : (l.release peer).total = l.total - 1 := by
    unfold Limits.release
    rw [hlookup]
  have hlimits := release_limits l peer
  refine ⟨?_, fun other => ?_, hsum.trans htotal.symm, ?_, fun other => ?_⟩
  · rw [htotal, h.total_eq]
    rfl
  · rw [hpeers other]
    by_cases hsame : other = peer
    · rw [if_pos hsame, hsame]
      omega
    · rw [if_neg hsame, h.count_eq, List.count_cons_of_ne (Ne.symm hsame)]
  · rw [htotal, hlimits.1]
    exact (Nat.sub_le _ _).trans h.total_le
  · rw [hpeers other, hlimits.2]
    by_cases hsame : other = peer
    · rw [if_pos hsame]
      have hle := h.count_le peer
      omega
    · rw [if_neg hsame]
      exact h.count_le other

theorem releases_limits (permits : List Peer) (l : Limits) :
    (permits.foldl Limits.release l).globalLimit = l.globalLimit ∧
      (permits.foldl Limits.release l).perPeer = l.perPeer := by
  induction permits generalizing l with
  | nil => exact ⟨rfl, rfl⟩
  | cons peer permits ih =>
    have hrest := ih (l.release peer)
    have hfirst := release_limits l peer
    exact ⟨hrest.1.trans hfirst.1, hrest.2.trans hfirst.2⟩

theorem releases_counts (permits : List Peer) (h : Counts l (permits ++ live)) :
    Counts (permits.foldl Limits.release l) live := by
  induction permits generalizing l with
  | nil => exact h
  | cons peer permits ih => exact ih (release_counts h)

end Admission
