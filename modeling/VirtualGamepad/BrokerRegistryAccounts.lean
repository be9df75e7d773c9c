import VirtualGamepad.BrokerRegistry

/-! What one call of a registry does: the three tables agree, a host is closed when its session
ends, and the shared limits follow the permits. -/
namespace BrokerRegistryAccounts

open Admission BrokerRegistry Fallible MachineInt Tables

section Hosts

def opens : Event → Option ℕ
  | .factory _ _ _ opened => opened
  | _ => none

def closes : Event → Option ℕ
  | .close token => some token
  | _ => none

def touches : Event → Option ℕ
  | .call token => some token
  | .close token => some token
  | _ => none

/-- The hosts the factories have returned. -/
def opened (log : List Event) : List ℕ := log.filterMap opens

/-- The hosts that were closed, once for each close. -/
def closed (log : List Event) : List ℕ := log.filterMap closes

variable {log : List Event} {live live' : List ℕ} {token : ℕ}

/-- Hosts are called and closed only between their creation and their close. -/
def Disciplined (log : List Event) : Prop :=
  ∀ before event after, log = before ++ event :: after →
    ∀ token, touches event = some token → token ∈ opened before ∧ token ∉ closed before

theorem disciplined_snoc {event : Event} (h : Disciplined log)
    (hevent : ∀ token, touches event = some token → token ∈ opened log ∧ token ∉ closed log) :
    Disciplined (log ++ [event]) := by
  intro before e after heq token htouch
  rcases List.eq_nil_or_concat after with rfl | ⟨after, last, rfl⟩
  · obtain ⟨rfl, rfl⟩ := List.append_inj' heq rfl |>.imp id List.head_eq_of_cons_eq
    exact hevent token htouch
  · rw [List.concat_eq_append, ← List.cons_append, ← List.append_assoc] at heq
    obtain ⟨rfl, _⟩ := List.append_inj' heq rfl
    exact h before e after rfl token htouch

/-- Every host ever returned was closed once or is alive. -/
structure HostsOk (log : List Event) (live : List ℕ) : Prop where
  disciplined : Disciplined log
  settled : (opened log).Perm (closed log ++ live)
  once : (opened log).Nodup
  fresh : ∀ token ∈ opened log, token < log.length

theorem HostsOk.perm (h : HostsOk log live) (hp : live.Perm live') : HostsOk log live' :=
  ⟨h.disciplined, h.settled.trans (hp.append_left _), h.once, h.fresh⟩

theorem hostsOk_nil : HostsOk [] [] :=
  ⟨fun before event after heq => absurd heq (by simp), .refl _, List.nodup_nil,
    fun _ ht => absurd ht List.not_mem_nil⟩

theorem HostsOk.not_closed (h : HostsOk log live) (ht : token ∈ live) :
    token ∈ opened log ∧ token ∉ closed log := by
  have hnodup := h.settled.nodup_iff.mp h.once
  refine ⟨h.settled.mem_iff.mpr (List.mem_append_right _ ht), fun hc => ?_⟩
  exact List.disjoint_of_nodup_append hnodup hc ht

theorem opened_snoc (log : List Event) (event : Event) :
    opened (log ++ [event]) = opened log ++ (opens event).toList := by
  unfold opened
  rw [List.filterMap_append]
  cases hr : opens event <;> simp [hr]

theorem closed_snoc (log : List Event) (event : Event) :
    closed (log ++ [event]) = closed log ++ (closes event).toList := by
  unfold closed
  rw [List.filterMap_append]
  cases hr : closes event <;> simp [hr]

/-- An event that neither returns nor closes a host. -/
theorem HostsOk.quiet {event : Event} (h : HostsOk log live) (hopens : opens event = none)
    (hcloses : closes event = none)
    (htouches : ∀ token, touches event = some token → token ∈ live) :
    HostsOk (log ++ [event]) live := by
  refine ⟨disciplined_snoc h.disciplined fun token ht => h.not_closed (htouches token ht), ?_, ?_, ?_⟩
  · rw [opened_snoc, closed_snoc, hopens, hcloses]
    simpa using h.settled
  · rw [opened_snoc, hopens]
    simpa using h.once
  · intro token ht
    rw [opened_snoc, hopens] at ht
    have hlt := h.fresh token (by simpa using ht)
    rw [List.length_append]
    omega

theorem HostsOk.close (h : HostsOk log (token :: live)) : HostsOk (log ++ [.close token]) live := by
  refine ⟨disciplined_snoc h.disciplined fun other ht => ?_, ?_, ?_, ?_⟩
  · obtain rfl := Option.some.inj ht
    exact h.not_closed (List.mem_cons_self ..)
  · rw [opened_snoc, closed_snoc]
    change (opened log ++ []).Perm (closed log ++ [token] ++ live)
    rw [List.append_nil, List.append_assoc]
    exact h.settled
  · rw [opened_snoc]
    exact (List.append_nil (opened log)).symm ▸ h.once
  · intro other ht
    rw [opened_snoc] at ht
    have hlt := h.fresh other (by simpa [opens] using ht)
    rw [List.length_append]
    omega

theorem HostsOk.closeMany (tokens : List ℕ) (h : HostsOk log (tokens ++ live)) :
    HostsOk (log ++ tokens.map .close) live := by
  induction tokens generalizing log with
  | nil => exact (List.append_nil log).symm ▸ h
  | cons token tokens ih =>
    have hrest := ih h.close
    rwa [List.append_assoc] at hrest

theorem HostsOk.create {registry session : ℕ} {peer : Peer} (h : HostsOk log live) :
    HostsOk (log ++ [.factory registry session peer (some log.length)])
      (log.length :: live) := by
  refine ⟨disciplined_snoc h.disciplined (fun other ht => nomatch ht), ?_, ?_, ?_⟩
  · rw [opened_snoc, closed_snoc]
    change (opened log ++ [log.length]).Perm (closed log ++ [] ++ log.length :: live)
    rw [List.append_nil]
    exact (List.perm_append_singleton _ _).trans ((h.settled.cons _).trans List.perm_middle.symm)
  · rw [opened_snoc]
    refine List.nodup_append.mpr ⟨h.once, List.nodup_singleton _, ?_⟩
    rintro token ht _ hlast rfl
    exact absurd (h.fresh token ht) (by rw [List.mem_singleton.mp hlast]; omega)
  · intro token ht
    rw [opened_snoc] at ht
    rw [List.length_append, List.length_singleton]
    rcases List.mem_append.mp ht with hold | hnew
    · have hlt := h.fresh token hold
      omega
    · rw [List.mem_singleton.mp hnew]
      omega

end Hosts

section Registries

variable {H : Type} {b c : Broker H} {r : Registry H} {log : List Event}

/-- The three tables of a registry have the same keys, and a permit belongs to the owner. -/
structure Regular (r : Registry H) : Prop where
  same_hosts : ∀ k, k ∈ r.sessions ↔ k ∈ r.policy.sessions
  owners : ∀ k, r.permits.lookup k = (r.policy.sessions.lookup k).map Session.peer
  below : ∀ k ∈ r.policy.sessions, k < r.next

def tokens (r : Registry H) : List ℕ := (values r.sessions).map Host.token

/-- The identifiers a registry has given to a factory, in order. -/
def attempts (name : ℕ) (log : List Event) : List ℕ :=
  log.filterMap fun
    | .factory registry session _ _ => if registry = name then some session else none
    | _ => none

theorem Regular.same_permits (h : Regular r) (k : ℕ) :
    k ∈ r.permits ↔ k ∈ r.policy.sessions := by
  rw [← AList.lookup_isSome, h.owners k, Option.isSome_map, AList.lookup_isSome]

/-- Who owns a session is who the factory was asked for, and its host is what the factory
returned. -/
def Openers (r : Registry H) (log : List Event) : Prop :=
  ∀ k owned host, r.policy.sessions.lookup k = some owned → r.sessions.lookup k = some host →
    .factory r.name k owned.peer (some host.token) ∈ log

theorem Openers.append (h : Openers r log) (events : List Event) : Openers r (log ++ events) :=
  fun k owned host hs hh => List.mem_append_left _ (h k owned host hs hh)

/-- One call of a registry keeps the accounts of whatever else there is. -/
structure Moved (b c : Broker H) : Prop where
  name_eq : c.registry.name = b.registry.name
  regular : Regular c.registry
  next_le : b.registry.next ≤ c.registry.next
  counts : ∀ others, Counts b.admission (values b.registry.permits ++ others) →
    Counts c.admission (values c.registry.permits ++ others)
  limits : c.admission.globalLimit = b.admission.globalLimit ∧
    c.admission.perPeer = b.admission.perPeer
  hosts : ∀ others, HostsOk b.log (tokens b.registry ++ others) →
    HostsOk c.log (tokens c.registry ++ others)
  openers : Openers b.registry b.log → Openers c.registry c.log
  logged : ∃ events, c.log = b.log ++ events ∧
    (∀ name, name ≠ b.registry.name → attempts name events = []) ∧
    (attempts b.registry.name events).Pairwise (· < ·) ∧
    ∀ session ∈ attempts b.registry.name events,
      b.registry.next ≤ session ∧ session < c.registry.next

theorem Moved.refl (h : Regular b.registry) : Moved b b :=
  ⟨rfl, h, le_rfl, fun _ hc => hc, ⟨rfl, rfl⟩, fun _ hh => hh, id, [],
    (List.append_nil _).symm,
    fun _ _ => rfl, .nil, fun _ hm => absurd hm List.not_mem_nil⟩

theorem attempts_append (name : ℕ) (log events : List Event) :
    attempts name (log ++ events) = attempts name log ++ attempts name events :=
  List.filterMap_append

theorem Moved.trans {d : Broker H} (h : Moved b c) (k : Moved c d) : Moved b d := by
  obtain ⟨events, hlog, hothers, hpairwise, hbetween⟩ := h.logged
  obtain ⟨events', hlog', hothers', hpairwise', hbetween'⟩ := k.logged
  rw [h.name_eq] at hothers' hpairwise' hbetween'
  refine ⟨k.name_eq.trans h.name_eq, k.regular, h.next_le.trans k.next_le,
    fun others hc => k.counts others (h.counts others hc),
    ⟨k.limits.1.trans h.limits.1, k.limits.2.trans h.limits.2⟩,
    fun others hh => k.hosts others (h.hosts others hh), fun ho => k.openers (h.openers ho),
    events ++ events', ?_, ?_, ?_, ?_⟩
  · rw [hlog', hlog, List.append_assoc]
  · intro name hname
    rw [attempts_append, hothers name hname, hothers' name hname, List.append_nil]
  · rw [attempts_append]
    refine List.pairwise_append.mpr ⟨hpairwise, hpairwise', fun session hs session' hs' => ?_⟩
    exact (hbetween session hs).2.trans_le (hbetween' session' hs').1
  · intro session hs
    rw [attempts_append] at hs
    rcases List.mem_append.mp hs with hs | hs
    · exact ⟨(hbetween session hs).1, (hbetween session hs).2.trans_le k.next_le⟩
    · exact ⟨h.next_le.trans (hbetween' session hs).1, (hbetween' session hs).2⟩

/-- A call that leaves no trace but a larger next identifier. -/
theorem moved_next (h : Regular b.registry) {next : ℕ} (hnext : b.registry.next ≤ next) :
    Moved b { b with registry := { b.registry with next } } :=
  ⟨rfl, ⟨h.same_hosts, h.owners, fun k hk => (h.below k hk).trans_le hnext⟩, hnext,
    fun _ hc => hc, ⟨rfl, rfl⟩, fun _ hh => hh, id, [],
    (List.append_nil _).symm,
    fun _ _ => rfl, .nil, fun _ hm => absurd hm List.not_mem_nil⟩

/-- What is left of a broker once a session has ended. -/
def retired (b : Broker H) (session : ℕ) (host : Host H) (peer : Peer) : Broker H where
  registry := { b.registry with
    policy := { b.registry.policy with sessions := b.registry.policy.sessions.erase session }
    sessions := b.registry.sessions.erase session
    permits := b.registry.permits.erase session }
  admission := b.admission.release peer
  log := b.log ++ [.close host.token]

variable {session : ℕ} {host : Host H} {peer : Peer}

theorem retired_moved (h : Regular b.registry)
    (hhost : b.registry.sessions.lookup session = some host)
    (hpermit : b.registry.permits.lookup session = some peer) :
    Moved b (retired b session host peer) := by
  have hpermits := values_erase hpermit
  have hsessions := (values_erase hhost).map Host.token
  refine ⟨rfl, ⟨?_, ?_, ?_⟩, le_rfl,
    fun others hc => release_counts (hc.perm (hpermits.append_right others)),
    release_limits b.admission peer, ?_, ?_,
    [.close host.token], rfl, fun _ _ => rfl, .nil, fun _ hm => absurd hm List.not_mem_nil⟩
  · intro k
    change k ∈ b.registry.sessions.erase session ↔ k ∈ b.registry.policy.sessions.erase session
    rw [AList.mem_erase, AList.mem_erase, h.same_hosts k]
  · intro k
    change (b.registry.permits.erase session).lookup k =
      ((b.registry.policy.sessions.erase session).lookup k).map Session.peer
    by_cases hk : k = session
    · rw [hk, AList.lookup_erase, AList.lookup_erase]
      rfl
    · rw [AList.lookup_erase_ne hk, AList.lookup_erase_ne hk, h.owners k]
  · intro k hk
    exact h.below k (AList.mem_erase.mp hk).2
  · intro others hh
    exact (hh.perm (hsessions.append_right others)).close
  · intro ho k owned other hs hh
    by_cases hk : k = session
    · have hnone : (retired b session host peer).registry.policy.sessions.lookup k = none :=
        hk ▸ AList.lookup_erase _ _
      rw [hnone] at hs
      cases hs
    · exact ho.append _ k owned other ((AList.lookup_erase_ne hk).symm.trans hs)
        ((AList.lookup_erase_ne hk).symm.trans hh)

theorem owned_eq_ok {policy : BrokerPolicy} {owned : Session}
    (h : policy.owned peer session = .ok owned) :
    policy.sessions.lookup session = some owned ∧ owned.peer = peer := by
  unfold BrokerPolicy.owned at h
  cases hs : policy.sessions.lookup session with
  | none =>
    rw [hs] at h
    cases h
  | some found =>
    rw [hs] at h
    dsimp only at h
    by_cases hpeer : found.peer ≠ peer
    · rw [if_pos hpeer] at h
      cases h
    · rw [if_neg hpeer] at h
      cases h
      exact ⟨rfl, not_not.mp hpeer⟩

theorem policy_close_error {policy : BrokerPolicy} {error : BrokerError}
    (h : policy.owned peer session = .error error) :
    policy.close peer session = (.error error, policy) := by
  unfold BrokerPolicy.close
  rw [h]

theorem policy_close_ok {policy : BrokerPolicy} {owned : Session}
    (h : policy.owned peer session = .ok owned) :
    policy.close peer session =
      (.ok (), { policy with sessions := policy.sessions.erase session }) := by
  unfold BrokerPolicy.close
  rw [h]

/-- The owner of a session has its host and its permit. -/
theorem Regular.held (h : Regular r) {owned : Session}
    (howned : r.policy.owned peer session = .ok owned) :
    (∃ host, r.sessions.lookup session = some host) ∧
      r.permits.lookup session = some peer := by
  obtain ⟨hsession, hpeer⟩ := owned_eq_ok howned
  constructor
  · exact lookup_some_of_mem ((h.same_hosts session).mpr (mem_of_lookup hsession))
  · rw [h.owners session, hsession, ← hpeer]
    rfl

/-- A broker after a call on the host of a session. -/
def used (b : Broker H) (session : ℕ) (host : Host H) (state : H) : Broker H where
  registry := { b.registry with
    sessions := b.registry.sessions.insert session { host with state } }
  admission := b.admission
  log := b.log ++ [.call host.token]

theorem used_moved (h : Regular b.registry)
    (hhost : b.registry.sessions.lookup session = some host) (state : H) :
    Moved b (used b session host state) := by
  have hsessions := (values_erase hhost).map Host.token
  have hmem : session ∈ b.registry.sessions := mem_of_lookup hhost
  refine ⟨rfl, ⟨fun k => ?_, h.owners, h.below⟩, le_rfl, fun _ hc => hc, ⟨rfl, rfl⟩,
    fun others hh => ?_, fun ho k owned other hs hh => ?_, [.call host.token], rfl,
    fun _ _ => rfl, .nil, fun _ hm => absurd hm List.not_mem_nil⟩
  · change k ∈ b.registry.sessions.insert session _ ↔ k ∈ b.registry.policy.sessions
    rw [AList.mem_insert, ← h.same_hosts k]
    constructor
    · rintro (rfl | hk)
      · exact hmem
      · exact hk
    · exact .inr
  · have hlive : host.token ∈ tokens b.registry ++ others :=
      List.mem_append_left _ (List.mem_map_of_mem (mem_values hhost))
    have hquiet := @HostsOk.quiet _ _ (.call host.token) hh rfl rfl fun token ht =>
      Option.some.inj ht ▸ hlive
    exact hquiet.perm (hsessions.append_right others)
  · by_cases hk : k = session
    · have hother : other = { host with state } :=
        Option.some.inj (hh.symm.trans (hk ▸ AList.lookup_insert _))
      rw [hother]
      exact ho.append _ k owned host hs (hk ▸ hhost)
    · exact ho.append _ k owned other hs ((AList.lookup_insert_ne hk).symm.trans hh)

variable {target controller : String} {opening : Except BrokerError H}

theorem open_ok {policy policy' : BrokerPolicy}
    (h : policy.open peer session target controller = .ok policy') :
    (peer ∈ policy.allowedPeers ∧ target = linuxDummyHcdUsbHid) ∧ session ∉ policy.sessions ∧
      policy' = { policy with
        sessions := policy.sessions.insert session ⟨peer, target, controller⟩ } := by
  unfold BrokerPolicy.open at h
  by_cases hpeer : peer ∉ policy.allowedPeers
  · rw [if_pos hpeer] at h
    cases h
  rw [if_neg hpeer] at h
  by_cases htarget : target ≠ linuxDummyHcdUsbHid
  · rw [if_pos htarget] at h
    cases h
  rw [if_neg htarget] at h
  by_cases hsession : session ∈ policy.sessions
  · rw [if_pos hsession] at h
    cases h
  rw [if_neg hsession] at h
  exact ⟨⟨not_not.mp hpeer, not_not.mp htarget⟩, hsession, (Except.ok.inj h).symm⟩

/-- A failed open leaves the policy as it was. -/
theorem close_open {policy policy' : BrokerPolicy}
    (h : policy.open peer session target controller = .ok policy') :
    (policy'.close peer session).2 = policy := by
  obtain ⟨_, hfresh, rfl⟩ := open_ok h
  have howned : BrokerPolicy.owned { policy with
      sessions := policy.sessions.insert session ⟨peer, target, controller⟩ } peer session =
      .ok ⟨peer, target, controller⟩ := by
    unfold BrokerPolicy.owned
    dsimp only
    rw [AList.lookup_insert]
    exact if_neg (not_not.mpr rfl)
  have herase : (policy.sessions.insert session ⟨peer, target, controller⟩).erase session =
      policy.sessions := by
    rw [Tables.erase_insert, erase_of_not_mem hfresh]
  unfold BrokerPolicy.close
  rw [howned]
  dsimp only
  rw [herase]

/-- A broker whose factory was asked for a session and answered with an error. -/
def disappointed (b : Broker H) (peer : Peer) (admission : Limits) : Broker H where
  registry := { b.registry with next := b.registry.next + 1 }
  admission := admission
  log := b.log ++ [.factory b.registry.name b.registry.next peer none]

theorem disappointed_moved (h : Regular b.registry) {admission : Limits}
    (hreserve : b.admission.reserve peer = .ok admission) :
    Moved b (disappointed b peer (admission.release peer)) := by
  have hnext := moved_next h (Nat.le_succ b.registry.next)
  have hlimits := release_limits admission peer
  have hreserved := reserve_limits hreserve
  refine ⟨rfl, hnext.regular, hnext.next_le, fun others hc => ?_,
    ⟨hlimits.1.trans hreserved.1, hlimits.2.trans hreserved.2⟩,
    fun others hh => hh.quiet rfl rfl (fun _ ht => nomatch ht), fun ho => ho.append _,
    [.factory b.registry.name b.registry.next peer none], rfl, fun name hname => ?_, ?_, ?_⟩
  · exact release_counts (reserve_counts hc hreserve)
  · exact List.filterMap_cons_none (if_neg (Ne.symm hname))
  · have hone : attempts b.registry.name [.factory b.registry.name b.registry.next peer none] =
        [b.registry.next] := List.filterMap_cons_some (if_pos rfl)
    rw [hone]
    exact List.pairwise_singleton _ _
  · have hone : attempts b.registry.name [.factory b.registry.name b.registry.next peer none] =
        [b.registry.next] := List.filterMap_cons_some (if_pos rfl)
    rw [hone]
    intro session hs
    rw [List.mem_singleton.mp hs]
    exact ⟨le_rfl, Nat.lt_succ_self _⟩

/-- A broker with the session it has just opened. -/
def joined (b : Broker H) (opened : Session) (admission : Limits) (state : H) : Broker H where
  registry := { b.registry with
    policy := { b.registry.policy with
      sessions := b.registry.policy.sessions.insert b.registry.next opened }
    sessions := b.registry.sessions.insert b.registry.next ⟨b.log.length, state⟩
    next := b.registry.next + 1
    permits := b.registry.permits.insert b.registry.next opened.peer }
  admission := admission
  log := b.log ++ [.factory b.registry.name b.registry.next opened.peer (some b.log.length)]

theorem joined_moved (h : Regular b.registry) {owned : Session} {admission : Limits}
    (hreserve : b.admission.reserve owned.peer = .ok admission) (state : H) :
    Moved b (joined b owned admission state) := by
  have hfresh : b.registry.next ∉ b.registry.policy.sessions := fun hm =>
    absurd (h.below _ hm) (lt_irrefl _)
  have hhosts : b.registry.next ∉ b.registry.sessions := fun hm => hfresh ((h.same_hosts _).mp hm)
  have hpermits : b.registry.next ∉ b.registry.permits := fun hm =>
    hfresh ((h.same_permits _).mp hm)
  have hone : attempts b.registry.name
      [.factory b.registry.name b.registry.next owned.peer (some b.log.length)] = [b.registry.next] :=
    List.filterMap_cons_some (if_pos rfl)
  refine ⟨rfl, ⟨fun k => ?_, fun k => ?_, fun k hk => ?_⟩, Nat.le_succ _, fun others hc => ?_,
    reserve_limits hreserve, fun others hh => ?_, fun ho k found host hs hh => ?_, _, rfl,
    fun name hname => ?_, ?_, ?_⟩
  · change k ∈ b.registry.sessions.insert b.registry.next _ ↔
      k ∈ b.registry.policy.sessions.insert b.registry.next owned
    rw [AList.mem_insert, AList.mem_insert, h.same_hosts k]
  · change (b.registry.permits.insert b.registry.next owned.peer).lookup k =
      ((b.registry.policy.sessions.insert b.registry.next owned).lookup k).map Session.peer
    by_cases hk : k = b.registry.next
    · rw [hk, AList.lookup_insert, AList.lookup_insert]
      rfl
    · rw [AList.lookup_insert_ne hk, AList.lookup_insert_ne hk, h.owners k]
  · change k < b.registry.next + 1
    rcases AList.mem_insert _ |>.mp hk with rfl | hold
    · exact Nat.lt_succ_self _
    · exact (h.below k hold).trans (Nat.lt_succ_self _)
  · change Counts admission (values (b.registry.permits.insert _ owned.peer) ++ others)
    rw [values_insert hpermits]
    exact reserve_counts hc hreserve
  · change HostsOk _ ((values (b.registry.sessions.insert _ _)).map Host.token ++ others)
    rw [values_insert hhosts]
    exact hh.create
  · by_cases hk : k = b.registry.next
    · have hfound : found = owned :=
        Option.some.inj (hs.symm.trans (hk ▸ AList.lookup_insert _))
      have hhost : host = ⟨b.log.length, state⟩ :=
        Option.some.inj (hh.symm.trans (hk ▸ AList.lookup_insert _))
      rw [hfound, hhost, hk]
      exact List.mem_append_right _ (List.mem_cons_self ..)
    · exact ho.append _ k found host ((AList.lookup_insert_ne hk).symm.trans hs)
        ((AList.lookup_insert_ne hk).symm.trans hh)
  · exact List.filterMap_cons_none (if_neg (Ne.symm hname))
  · rw [hone]
    exact List.pairwise_singleton _ _
  · rw [hone]
    intro session hs
    rw [List.mem_singleton.mp hs]
    exact ⟨le_rfl, Nat.lt_succ_self _⟩

/-- What an open makes of the broker, path by path. -/
theorem openSession_cases (b : Broker H) :
    (∃ error next, b.registry.next ≤ next ∧
      openSession peer target controller opening b =
        (.error error, { b with registry := { b.registry with next } })) ∨
    (peer ∈ b.registry.policy.allowedPeers ∧ target = linuxDummyHcdUsbHid) ∧
      ∃ admission, b.admission.reserve peer = .ok admission ∧
        ((∃ error, opening = .error error ∧ openSession peer target controller opening b =
          (.error error, disappointed b peer (admission.release peer))) ∨
        ∃ state, opening = .ok state ∧ openSession peer target controller opening b =
          (.ok b.registry.next, joined b ⟨peer, target, controller⟩ admission state)) := by
  unfold openSession
  dsimp only
  cases hnext : checkedAdd b.registry.next 1 with
  | none => exact .inl ⟨_, b.registry.next, le_rfl, rfl⟩
  | some next =>
    obtain ⟨rfl, _⟩ := checkedAdd_eq_some.mp hnext
    dsimp only
    cases hopen : b.registry.policy.open peer b.registry.next target controller with
    | error error => exact .inl ⟨error, _, Nat.le_succ _, rfl⟩
    | ok policy =>
      have hclose := close_open hopen
      obtain ⟨hmay, _, rfl⟩ := open_ok hopen
      dsimp only
      cases hreserve : b.admission.reserve peer with
      | error error =>
        dsimp only
        rw [hclose]
        exact .inl ⟨error, _, Nat.le_succ _, rfl⟩
      | ok admission =>
        refine .inr ⟨hmay, admission, rfl, ?_⟩
        cases opening with
        | error error =>
          dsimp only
          rw [hclose]
          exact .inl ⟨error, rfl, rfl⟩
        | ok state => exact .inr ⟨state, rfl, rfl⟩

theorem openSession_moved (h : Regular b.registry) :
    Moved b (openSession peer target controller opening b).2 := by
  rcases @openSession_cases H peer target controller opening b with
    ⟨_, next, hle, heq⟩ | ⟨_, admission, hreserve, ⟨_, _, heq⟩ | ⟨state, _, heq⟩⟩
  · exact heq ▸ moved_next h hle
  · exact heq ▸ disappointed_moved h hreserve
  · exact heq ▸ joined_moved h hreserve state

variable [HostSession H]

/-- The end of a session, as a close or a host error brings it about. -/
theorem ended_eq {owned : Session} (howned : b.registry.policy.owned peer session = .ok owned)
    (hhost : b.registry.sessions.lookup session = some host)
    (hpermit : b.registry.permits.lookup session = some peer) :
    (Broker.closeHost { b with registry := { b.registry with
        policy := (b.registry.policy.close peer session).2 } } session).2.dropPermit session =
      retired b session host peer := by
  rw [policy_close_ok howned]
  unfold Broker.closeHost
  dsimp only
  rw [hhost]
  unfold Broker.dropPermit
  dsimp only
  rw [hpermit]
  rfl

theorem terminalOnHostError_error {α : Type} (initiating : BrokerError) (b : Broker H) :
    (terminalOnHostError peer session (.error initiating : Except BrokerError α) b).2 =
      (Broker.closeHost { b with registry := { b.registry with
        policy := (b.registry.policy.close peer session).2 } } session).2.dropPermit session := by
  unfold terminalOnHostError
  dsimp only
  split
  · rfl
  · rfl

theorem onHost_moved {α : Type} (h : Regular b.registry) {owned : Session}
    (howned : b.registry.policy.owned peer session = .ok owned)
    (call : Action BrokerError H α) : Moved b (onHost peer session call b).2 := by
  obtain ⟨⟨host, hhost⟩, hpermit⟩ := h.held howned
  unfold onHost
  rw [hhost]
  dsimp only
  rcases call host.state with ⟨result, state⟩
  have hused := used_moved h hhost state
  cases result with
  | ok value => exact hused
  | error initiating =>
    have hlookup : (used b session host state).registry.sessions.lookup session =
        some { host with state } := AList.lookup_insert _
    have howned' : (used b session host state).registry.policy.owned peer session = .ok owned :=
      howned
    have hretired := retired_moved hused.regular hlookup hpermit
    change Moved b (terminalOnHostError peer session _ (used b session host state)).2
    rw [terminalOnHostError_error, ended_eq howned' hlookup hpermit]
    exact hused.trans hretired

theorem sendInput_moved (h : Regular b.registry) (bytes : List UInt8) :
    Moved b (sendInput peer session bytes b).2 := by
  unfold sendInput
  cases hpolicy : b.registry.policy.sendInput peer session bytes with
  | error error => exact .refl h
  | ok _ =>
    cases howned : b.registry.policy.owned peer session with
    | error error =>
      unfold BrokerPolicy.sendInput at hpolicy
      rw [howned] at hpolicy
      cases hpolicy
    | ok owned => exact onHost_moved h howned _

theorem pollReverse_moved (h : Regular b.registry) : Moved b (pollReverse peer session b).2 := by
  unfold pollReverse BrokerPolicy.diagnostics
  cases howned : b.registry.policy.owned peer session with
  | error error => exact .refl h
  | ok owned => exact onHost_moved h howned _

theorem diagnostics_moved (h : Regular b.registry) : Moved b (diagnostics peer session b).2 := by
  unfold diagnostics BrokerPolicy.diagnostics
  cases howned : b.registry.policy.owned peer session with
  | error error => exact .refl h
  | ok owned =>
    obtain ⟨⟨host, hhost⟩, _⟩ := h.held howned
    dsimp only [Except.map]
    rw [hhost]
    refine ⟨rfl, h, le_rfl, fun _ hc => hc, ⟨rfl, rfl⟩, fun others hh => ?_, fun ho => ho.append _,
      [.call host.token], rfl, fun _ _ => rfl, .nil, fun _ hm => absurd hm List.not_mem_nil⟩
    exact hh.quiet rfl rfl fun token ht => Option.some.inj ht ▸
      List.mem_append_left _ (List.mem_map_of_mem (mem_values hhost))

theorem close_moved (h : Regular b.registry) : Moved b (close peer session b).2 := by
  unfold BrokerRegistry.close
  cases howned : b.registry.policy.owned peer session with
  | error error =>
    rw [policy_close_error howned]
    exact .refl h
  | ok owned =>
    obtain ⟨⟨host, hhost⟩, hpermit⟩ := h.held howned
    have hended := ended_eq howned hhost hpermit
    have hretired := retired_moved h hhost hpermit
    rw [policy_close_ok howned] at hended
    rw [policy_close_ok howned]
    rw [← hended] at hretired
    exact hretired

theorem attempts_closes (name : ℕ) (tokens : List ℕ) :
    attempts name (tokens.map .close) = [] := by
  induction tokens with
  | nil => rfl
  | cons token tokens ih => exact (List.filterMap_cons_none rfl).trans ih

omit [HostSession H] in
theorem closeAll_log (b : Broker H) :
    (closeAll b).log = b.log ++ (tokens b.registry).map .close := by
  unfold closeAll tokens
  rw [List.map_map]
  rfl

omit [HostSession H] in
theorem closeAll_moved (b : Broker H) : Moved b (closeAll b) := by
  refine ⟨rfl, ⟨fun _ => Iff.rfl, fun _ => rfl, fun _ hk => absurd hk (AList.notMem_empty _)⟩, le_rfl,
    fun others hc => ?_, releases_limits _ _, fun others hh => ?_,
    fun _ k owned host hs _ => absurd hs nofun, (tokens b.registry).map .close, closeAll_log b,
    fun name _ => attempts_closes name _, ?_, ?_⟩
  · exact releases_counts _ hc
  · rw [closeAll_log]
    exact hh.closeMany
  · rw [attempts_closes]
    exact .nil
  · rw [attempts_closes]
    exact fun _ hm => absurd hm List.not_mem_nil

theorem run_moved (h : Regular b.registry) (call : Call H) : Moved b (call.run b) := by
  cases call with
  | «open» peer target controller opening => exact openSession_moved h
  | sendInput peer session bytes => exact sendInput_moved h bytes
  | pollReverse peer session => exact pollReverse_moved h
  | diagnostics peer session => exact diagnostics_moved h
  | close peer session => exact close_moved h
  | closeAll => exact closeAll_moved b

end Registries

end BrokerRegistryAccounts
