import VirtualGamepad.BrokerRegistryAccounts

/-! Ownership and accounting over a whole process: any number of registries that come and go and
share one admission, which other connections hold permits of as well. -/
namespace BrokerRegistryRuns

open Admission BrokerRegistry BrokerRegistryAccounts Fallible Tables

variable {H : Type} {s t : System H} {globalLimit perPeer : ℕ}

/-- What holds of a process in every state. -/
structure Sound (globalLimit perPeer : ℕ) (s : System H) : Prop where
  regular : ∀ r ∈ s.registries, Regular r
  openers : ∀ r ∈ s.registries, Openers r s.log
  named : (s.registries.map Registry.name).Nodup
  born : ∀ r ∈ s.registries, r.name < s.log.length
  counts : Counts s.admission
    (s.registries.flatMap (fun r => values r.permits) ++ s.outside)
  limits : s.admission.globalLimit = globalLimit ∧ s.admission.perPeer = perPeer
  hosts : HostsOk s.log (s.registries.flatMap tokens)
  rising : ∀ name, (attempts name s.log).Pairwise (· < ·)
  below : ∀ r ∈ s.registries, ∀ session ∈ attempts r.name s.log, session < r.next
  unborn : ∀ name, s.log.length ≤ name → attempts name s.log = []

theorem Sound.perm {registries : List (Registry H)} (h : Sound globalLimit perPeer s)
    (hp : s.registries.Perm registries) : Sound globalLimit perPeer { s with registries } :=
  ⟨fun r hr => h.regular r (hp.mem_iff.mpr hr), fun r hr => h.openers r (hp.mem_iff.mpr hr),
    (hp.map Registry.name).nodup_iff.mp h.named, fun r hr => h.born r (hp.mem_iff.mpr hr),
    h.counts.perm ((hp.flatMap_right _).append_right _), h.limits,
    h.hosts.perm (hp.flatMap_right _), h.rising, fun r hr => h.below r (hp.mem_iff.mpr hr),
    h.unborn⟩

theorem sound_new : Sound globalLimit perPeer (System.new H globalLimit perPeer) :=
  ⟨fun _ hr => absurd hr List.not_mem_nil, fun _ hr => absurd hr List.not_mem_nil, List.nodup_nil,
    fun _ hr => absurd hr List.not_mem_nil, counts_new globalLimit perPeer, ⟨rfl, rfl⟩,
    hostsOk_nil, fun _ => .nil, fun _ hr => absurd hr List.not_mem_nil, fun _ _ => rfl⟩

variable {r : Registry H} {rest : List (Registry H)} {b : Broker H}

/-- One call on one registry. -/
theorem Sound.moved (h : Sound globalLimit perPeer { s with registries := r :: rest })
    (hm : Moved ⟨r, s.admission, s.log⟩ b) :
    Sound globalLimit perPeer { s with
      registries := b.registry :: rest, admission := b.admission, log := b.log } := by
  obtain ⟨events, hlog, hothers, hpairwise, hbetween⟩ := hm.logged
  have hname : b.registry.name = r.name := hm.name_eq
  have hborn : r.name < s.log.length := h.born r (List.mem_cons_self ..)
  have hdistinct : ∀ q ∈ rest, q.name ≠ r.name := fun q hq heq =>
    (List.nodup_cons.mp h.named).1 (heq ▸ List.mem_map_of_mem hq)
  have hlength : s.log.length ≤ b.log.length := by
    rw [hlog, List.length_append]
    exact Nat.le_add_right _ _
  have hquiet : ∀ name, name ≠ r.name → attempts name b.log = attempts name s.log := by
    intro name hne
    rw [hlog, attempts_append, hothers name hne, List.append_nil]
  have hcalled : attempts r.name b.log = attempts r.name s.log ++ attempts r.name events := by
    rw [hlog, attempts_append]
  have hbelow := h.below r (List.mem_cons_self ..)
  refine ⟨?_, ?_, ?_, ?_, ?_, ?_, ?_, ?_, ?_, ?_⟩
  · exact List.forall_mem_cons.mpr ⟨hm.regular, fun q hq => h.regular q (List.mem_cons_of_mem _ hq)⟩
  · refine List.forall_mem_cons.mpr ⟨hm.openers (h.openers r (List.mem_cons_self ..)),
      fun q hq => ?_⟩
    change Openers q b.log
    rw [hlog]
    exact (h.openers q (List.mem_cons_of_mem _ hq)).append events
  · change (b.registry.name :: rest.map Registry.name).Nodup
    rw [hname]
    exact h.named
  · refine List.forall_mem_cons.mpr ⟨?_, fun q hq => ?_⟩
    · exact hname ▸ hborn.trans_le hlength
    · exact (h.born q (List.mem_cons_of_mem _ hq)).trans_le hlength
  · have hcounts := h.counts
    rw [List.flatMap_cons, List.append_assoc] at hcounts
    change Counts b.admission (List.flatMap _ (b.registry :: rest) ++ s.outside)
    rw [List.flatMap_cons, List.append_assoc]
    exact hm.counts _ hcounts
  · exact ⟨hm.limits.1.trans h.limits.1, hm.limits.2.trans h.limits.2⟩
  · exact hm.hosts _ h.hosts
  · intro name
    by_cases heq : name = r.name
    · change (attempts name b.log).Pairwise (· < ·)
      rw [heq, hcalled]
      refine List.pairwise_append.mpr ⟨h.rising r.name, hpairwise, fun session hs other ho => ?_⟩
      exact (hbelow session hs).trans_le (hbetween other ho).1
    · change (attempts name b.log).Pairwise (· < ·)
      rw [hquiet name heq]
      exact h.rising name
  · refine List.forall_mem_cons.mpr ⟨fun session hs => ?_, fun q hq session hs => ?_⟩
    · rw [hname] at hs
      rcases List.mem_append.mp (hcalled ▸ hs) with hold | hnew
      · exact (hbelow session hold).trans_le hm.next_le
      · exact (hbetween session hnew).2
    · change session ∈ attempts q.name b.log at hs
      rw [hquiet q.name (hdistinct q hq)] at hs
      exact h.below q (List.mem_cons_of_mem _ hq) session hs
  · intro name hle
    change attempts name b.log = []
    rw [hquiet name (fun heq => absurd (hborn.trans_le hlength) (by rw [← heq]; exact hle.not_gt))]
    exact h.unborn name (hlength.trans hle)

/-- A registry with nothing left leaves nothing behind. -/
theorem Sound.removed (h : Sound globalLimit perPeer s) (heq : s.registries = r :: rest)
    (hhosts : tokens r = []) (hpermits : values r.permits = []) :
    Sound globalLimit perPeer { s with registries := rest } := by
  have hmem : ∀ q ∈ rest, q ∈ s.registries := fun q hq => heq ▸ List.mem_cons_of_mem _ hq
  have hcounts := h.counts
  have hlive := h.hosts
  have hnamed := h.named
  rw [heq, List.flatMap_cons, hpermits] at hcounts
  rw [heq, List.flatMap_cons, hhosts] at hlive
  rw [heq] at hnamed
  exact ⟨fun q hq => h.regular q (hmem q hq), fun q hq => h.openers q (hmem q hq),
    (List.nodup_cons.mp hnamed).2, fun q hq => h.born q (hmem q hq), hcounts, h.limits, hlive,
    h.rising, fun q hq => h.below q (hmem q hq), h.unborn⟩

/-- A connection arrives. Its registry is named after its place in the log. -/
theorem Sound.connected (h : Sound globalLimit perPeer s) (allowedPeers : List Peer) :
    Sound globalLimit perPeer { s with
      registries := .new H s.log.length allowedPeers :: s.registries
      log := s.log ++ [.connected] } := by
  have hattempts : ∀ name, attempts name (s.log ++ [.connected]) = attempts name s.log :=
    fun name => (attempts_append ..).trans (List.append_nil _)
  have hlength : (s.log ++ [Event.connected]).length = s.log.length + 1 := List.length_append
  refine ⟨?_, ?_, ?_, ?_, h.counts, h.limits, ?_, ?_, ?_, ?_⟩
  · refine List.forall_mem_cons.mpr ⟨?_, h.regular⟩
    exact ⟨fun _ => Iff.rfl, fun _ => rfl, fun _ hk => absurd hk (AList.notMem_empty _)⟩
  · refine List.forall_mem_cons.mpr ⟨fun k owned host hs _ => ?_, fun q hq => ?_⟩
    · exact absurd (mem_of_lookup hs) (AList.notMem_empty _)
    · exact (h.openers q hq).append _
  · refine List.nodup_cons.mpr ⟨fun hm => ?_, h.named⟩
    obtain ⟨q, hq, heq⟩ := List.mem_map.mp hm
    exact absurd (h.born q hq) (by rw [heq]; exact lt_irrefl _)
  · refine List.forall_mem_cons.mpr ⟨?_, fun q hq => ?_⟩
    · exact hlength ▸ Nat.lt_succ_self _
    · exact hlength ▸ (h.born q hq).trans (Nat.lt_succ_self _)
  · exact h.hosts.quiet rfl rfl (fun _ ht => nomatch ht)
  · intro name
    rw [hattempts]
    exact h.rising name
  · refine List.forall_mem_cons.mpr ⟨fun session hs => ?_, fun q hq session hs => ?_⟩
    · have hnone := h.unborn s.log.length le_rfl
      have hold : session ∈ attempts s.log.length s.log := hattempts _ ▸ hs
      rw [hnone] at hold
      exact absurd hold List.not_mem_nil
    · exact h.below q hq session (hattempts _ ▸ hs)
  · intro name hle
    rw [hattempts]
    exact h.unborn name ((Nat.le_succ _).trans (hlength.symm.trans_le hle))

variable [HostSession H]

theorem sound_step (h : Sound globalLimit perPeer s) (hstep : Step s t) :
    Sound globalLimit perPeer t := by
  cases hstep with
  | connect allowedPeers =>
    exact (h.connected allowedPeers).perm (List.perm_append_singleton _ _).symm
  | @call before after registry call heq =>
    have hhead := h.perm (heq ▸ List.perm_middle)
    have hregular := hhead.regular registry (List.mem_cons_self ..)
    exact (hhead.moved (run_moved hregular call)).perm List.perm_middle.symm
  | @drop before after registry heq =>
    have hhead := h.perm (heq ▸ List.perm_middle)
    exact (hhead.moved (closeAll_moved _)).removed rfl rfl rfl
  | @reserve peer admission hreserve =>
    have hlimits := reserve_limits hreserve
    refine ⟨h.regular, h.openers, h.named, h.born, ?_,
      ⟨hlimits.1.trans h.limits.1, hlimits.2.trans h.limits.2⟩, h.hosts, h.rising, h.below, h.unborn⟩
    exact (reserve_counts h.counts hreserve).perm List.perm_middle.symm
  | @release before after peer heq =>
    have hlimits := release_limits s.admission peer
    have hcounts := h.counts
    rw [heq, ← List.append_assoc] at hcounts
    refine ⟨h.regular, h.openers, h.named, h.born, ?_,
      ⟨hlimits.1.trans h.limits.1, hlimits.2.trans h.limits.2⟩, h.hosts, h.rising, h.below, h.unborn⟩
    change Counts _ (_ ++ (before ++ after))
    rw [← List.append_assoc]
    exact release_counts (hcounts.perm List.perm_middle)

theorem reachable_sound (h : Reachable globalLimit perPeer s) : Sound globalLimit perPeer s := by
  induction h with
  | new => exact sound_new
  | step _ hstep ih => exact sound_step ih hstep


section Calls

/-- Every call of this peer on this session is refused, and nothing else happens. -/
def Refused (peer : Peer) (session : ℕ) (b : Broker H) : Prop :=
  (∀ bytes, sendInput peer session bytes b = (.error (.wrongOwner session), b)) ∧
  pollReverse peer session b = (.error (.wrongOwner session), b) ∧
  diagnostics peer session b = (.error (.wrongOwner session), b) ∧
  close peer session b = (.error (.wrongOwner session), b)

variable {peer : Peer} {session : ℕ} {owned : Session} {target controller : String}
variable {opening : Except BrokerError H} {error : BrokerError} {live : List Peer}

theorem refused_of_owner (hlive : b.registry.policy.sessions.lookup session = some owned)
    (hpeer : owned.peer ≠ peer) : Refused peer session b := by
  have howned : b.registry.policy.owned peer session = .error (.wrongOwner session) := by
    unfold BrokerPolicy.owned
    rw [hlive]
    exact if_pos hpeer
  have hdiagnostics : b.registry.policy.diagnostics peer session =
      .error (.wrongOwner session) := by
    unfold BrokerPolicy.diagnostics
    rw [howned]
    rfl
  refine ⟨fun bytes => ?_, ?_, ?_, ?_⟩
  · have hinput : b.registry.policy.sendInput peer session bytes =
        .error (.wrongOwner session) := by
      unfold BrokerPolicy.sendInput
      rw [howned]
      rfl
    unfold sendInput
    rw [hinput]
  · unfold pollReverse
    rw [hdiagnostics]
  · unfold diagnostics
    rw [hdiagnostics]
  · unfold BrokerRegistry.close
    rw [policy_close_error howned]

omit [HostSession H] in
/-- An open that is not entitled to a session asks no factory. -/
theorem open_denied (hdenied : peer ∉ b.registry.policy.allowedPeers ∨
      target ≠ linuxDummyHcdUsbHid ∨ b.admission.globalLimit ≤ b.admission.total ∨
      b.admission.perPeer ≤ b.admission.count peer) :
    ∃ error next, openSession peer target controller opening b =
      (.error error, { b with registry := { b.registry with next } }) := by
  rcases @openSession_cases H peer target controller opening b with
    ⟨error, next, _, heq⟩ | ⟨⟨hpeer, htarget⟩, admission, hreserve, _⟩
  · exact ⟨error, next, heq⟩
  · obtain ⟨⟨htotal, hcount⟩, _⟩ := reserve_ok hreserve
    rcases hdenied with hno | hno | hno | hno
    · exact absurd hpeer hno
    · exact absurd htarget hno
    · exact absurd htotal hno.not_gt
    · exact absurd hcount hno.not_gt

omit [HostSession H] in
/-- A failed open gives back what it reserved. -/
theorem open_failed (hcounts : Counts b.admission live)
    (hfailed : (openSession peer target controller opening b).1 = .error error) :
    let c := (openSession peer target controller opening b).2
    c.admission.total = b.admission.total ∧
      (∀ other, c.admission.count other = b.admission.count other) ∧
      c.registry.policy = b.registry.policy ∧ c.registry.sessions = b.registry.sessions ∧
      c.registry.permits = b.registry.permits := by
  rcases @openSession_cases H peer target controller opening b with
    ⟨_, next, _, heq⟩ | ⟨_, admission, hreserve, ⟨_, _, heq⟩ | ⟨state, _, heq⟩⟩
  · rw [heq]
    exact ⟨rfl, fun _ => rfl, rfl, rfl, rfl⟩
  · have hafter := release_counts (reserve_counts hcounts hreserve)
    rw [heq]
    refine ⟨?_, fun other => ?_, rfl, rfl, rfl⟩
    · exact hafter.total_eq.trans hcounts.total_eq.symm
    · exact (hafter.count_eq other).trans (hcounts.count_eq other).symm
  · rw [heq] at hfailed
    cases hfailed

omit [HostSession H] in
theorem open_accepted {identifier : ℕ}
    (h : (openSession peer target controller opening b).1 = .ok identifier) :
    identifier = b.registry.next := by
  rcases @openSession_cases H peer target controller opening b with
    ⟨_, _, _, heq⟩ | ⟨_, _, _, ⟨_, _, heq⟩ | ⟨_, _, heq⟩⟩
  · rw [heq] at h
    cases h
  · rw [heq] at h
    cases h
  · rw [heq] at h
    exact (Except.ok.inj h).symm

end Calls

section Accounts

/-- Ownership and accounting of a process. `Disciplined` says that no host is used after its
close. -/
structure Accounts (globalLimit perPeer : ℕ) (s : System H) : Prop where
  same_keys : ∀ r ∈ s.registries, ∀ k,
    (k ∈ r.sessions ↔ k ∈ r.policy.sessions) ∧ (k ∈ r.permits ↔ k ∈ r.policy.sessions)
  never_reused : ∀ name, (attempts name s.log).Nodup
  new_identifier : ∀ r ∈ s.registries, ∀ peer target controller opening session,
    (openSession peer target controller opening ⟨r, s.admission, s.log⟩).1 = .ok session →
    session ∉ attempts r.name s.log
  hosts_differ : (opened s.log).Nodup
  closed_once : (opened s.log).Perm (closed s.log ++ s.registries.flatMap tokens)
  disciplined : Disciplined s.log
  owner_only : ∀ r ∈ s.registries, ∀ session host, r.sessions.lookup session = some host →
    ∃ opener, .factory r.name session opener (some host.token) ∈ s.log ∧
      ∀ peer, peer ≠ opener → Refused peer session ⟨r, s.admission, s.log⟩
  denied_open : ∀ r ∈ s.registries, ∀ peer target controller opening,
    peer ∉ r.policy.allowedPeers ∨ target ≠ linuxDummyHcdUsbHid ∨
      globalLimit ≤ s.admission.total ∨ perPeer ≤ s.admission.count peer →
    ∃ error next, openSession peer target controller opening ⟨r, s.admission, s.log⟩ =
      (.error error, ⟨{ r with next }, s.admission, s.log⟩)
  failed_open : ∀ r ∈ s.registries, ∀ peer target controller opening error,
    (openSession peer target controller opening ⟨r, s.admission, s.log⟩).1 = .error error →
    let c := (openSession peer target controller opening ⟨r, s.admission, s.log⟩).2
    c.admission.total = s.admission.total ∧
      (∀ other, c.admission.count other = s.admission.count other) ∧
      c.registry.policy = r.policy ∧ c.registry.sessions = r.sessions ∧
      c.registry.permits = r.permits
  total_of_peers : s.admission.total = (values s.admission.peers).sum
  total_of_permits : s.admission.total =
    (s.registries.flatMap (fun r => values r.permits) ++ s.outside).length
  peer_of_permits : ∀ peer, s.admission.count peer =
    (s.registries.flatMap (fun r => values r.permits) ++ s.outside).count peer
  below_limits : s.admission.total ≤ globalLimit ∧
    ∀ peer, s.admission.count peer ≤ perPeer

/-- Over every run of every peer on every registry, the tables, the hosts and the limits agree. -/
theorem ownership_and_accounting (h : Reachable globalLimit perPeer s) :
    Accounts globalLimit perPeer s := by
  have hsound := reachable_sound h
  refine ⟨fun r hr k => ?_, fun name => ?_, fun r hr peer target controller opening session hok => ?_,
    hsound.hosts.once, hsound.hosts.settled, hsound.hosts.disciplined,
    fun r hr session host hhost => ?_, fun r hr peer target controller opening hdenied => ?_,
    fun r hr peer target controller opening error hfailed => ?_, hsound.counts.sum_eq.symm,
    hsound.counts.total_eq, hsound.counts.count_eq, ?_⟩
  · exact ⟨(hsound.regular r hr).same_hosts k, (hsound.regular r hr).same_permits k⟩
  · exact (hsound.rising name).imp fun hlt => hlt.ne
  · intro hm
    have hlt := hsound.below r hr session hm
    rw [open_accepted hok] at hlt
    exact absurd hlt (lt_irrefl _)
  · have hregular := hsound.regular r hr
    obtain ⟨owned, howned⟩ :=
      lookup_some_of_mem ((hregular.same_hosts session).mp (mem_of_lookup hhost))
    refine ⟨owned.peer, hsound.openers r hr session owned host howned hhost, fun peer hne => ?_⟩
    exact refused_of_owner (b := ⟨r, s.admission, s.log⟩) howned hne.symm
  · rw [← hsound.limits.1, ← hsound.limits.2] at hdenied
    exact open_denied (b := ⟨r, s.admission, s.log⟩) hdenied
  · exact open_failed (b := ⟨r, s.admission, s.log⟩) hsound.counts hfailed
  · rw [← hsound.limits.1, ← hsound.limits.2]
    exact ⟨hsound.counts.total_le, hsound.counts.count_le⟩

end Accounts

/-- A host that answers every call. -/
instance : HostSession Unit where
  sendInput _ _ := (.ok (), ())
  pollReverse _ := (.ok none, ())
  diagnostics _ := []
  close _ := (.ok (), ())

theorem ownership_and_accounting_one_open :
    ∃ s : System Unit, s.registries.flatMap tokens = [1] ∧ Accounts 16 4 s := by
  have hconnected : Step (System.new Unit 16 4) _ := .connect _ [10]
  have hopened : Step ⟨[.new Unit 0 [10]], .new 16 4, [], [.connected]⟩ _ :=
    @Step.call Unit _ _ [] [] (.new Unit 0 [10])
      (.open 10 linuxDummyHcdUsbHid "virtualgamepad.dualsense" (.ok ())) rfl
  refine ⟨_, ?_, ownership_and_accounting (.step (.step .new hconnected) hopened)⟩
  decide +kernel

/-- The policy looks at the target only: a controller without a report length is the factory's to
refuse. -/
theorem unsupported_controller_reaches_factory :
    compiledReportLength linuxDummyHcdUsbHid "virtualgamepad.wii-remote" = none ∧
      (openSession 10 linuxDummyHcdUsbHid "virtualgamepad.wii-remote" (.error .malformedRequest)
        (⟨.new Unit 0 [10], .new 16 4, [.connected]⟩ : Broker Unit)).2.log =
        [.connected, .factory 0 1 10 none] := by
  decide +kernel

end BrokerRegistryRuns
