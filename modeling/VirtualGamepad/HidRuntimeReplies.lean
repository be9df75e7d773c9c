import VirtualGamepad.HidRuntimeDelivery

/-! Required replies of a HID session: one slot, answered in ordinal order, before its
deadline, and with nothing read from the host in between. -/
namespace HidRuntimeReplies

open Fallible MachineInt Runs HidRuntime HidRuntimeLedger HidRuntimeDelivery

variable {P T S O : Type} [Protocol P S O]

def Entry.reads (e : Entry P S) (r : Request) : Prop := e.call = .event (.ok (some (.request r)))

/-- The requests whose reply the transport took, in the order it took them. -/
def answered (calls : List (Entry P S)) : List RequestId :=
  calls.filterMap fun e => match e.call with
    | .submit (.reply token _) .submitted => some token
    | _ => none

@[simp] theorem answered_append (calls calls' : List (Entry P S)) :
    answered (calls ++ calls') = answered calls ++ answered calls' := List.filterMap_append

/-- `r` was read and, as the next call, its handler gave a valid `reply`, due at `deadline`. -/
def Requested (limits : Limits) (calls : List (Entry P S)) (r : Request) (reply : Reply)
    (deadline : ℕ) : Prop :=
  ∃ before x y after, calls = before ++ x :: y :: after ∧ Entry.reads x r ∧
    y.call = .request r.kind reply ∧ validateReply r.kind reply = .ok () ∧
    deadline = saturatingAdd y.now limits.replyTimeoutUs

theorem Requested.append {limits : Limits} {calls : List (Entry P S)} {r : Request}
    {reply : Reply} {deadline : ℕ} (h : Requested limits calls r reply deadline)
    (calls' : List (Entry P S)) : Requested limits (calls ++ calls') r reply deadline := by
  obtain ⟨before, x, y, after, rfl, h⟩ := h
  exact ⟨before, x, y, after ++ calls', by simp, h⟩

/-- What the log says about the request in hand and the one being answered. -/
structure Answering (session : ℕ) (limits : Limits) (calls : List (Entry P S)) (s : Ledger P) :
    Prop where
  in_hand : ∀ event, s.inHand = some event →
    s.reply = none ∧ ∃ before e, calls = before ++ [e] ∧ e.call = .event (.ok (some event))
  fresh : ∀ r, s.inHand = some (.request r) → ¬ Stale session s.lastRequest r.token
  pending : ∀ p, s.reply = some p → ∃ r reply, p.command = .reply r.token reply ∧
    Requested limits calls r reply p.deadline ∧ s.lastRequest = some r.token.ordinal ∧
    ∀ token ∈ answered calls, token.ordinal < r.token.ordinal
  ordered : (answered calls).Pairwise (·.ordinal < ·.ordinal)
  below : ∀ token ∈ answered calls, ∃ n, s.lastRequest = some n ∧ token.ordinal ≤ n
  read : s.phase = .live → ∀ e ∈ calls, ∀ r, Entry.reads e r →
    s.inHand = some (.request r) ∨ ∃ n, s.lastRequest = some n ∧ r.token.ordinal ≤ n

section Ledger

variable {session : ℕ} {limits : Limits} {s t : Ledger P} {e : Entry P S}
  {calls : List (Entry P S)}

/-- Calls that neither read, answer nor close leave every fact about requests in place. -/
theorem Answering.frame (h : Answering session limits calls s)
    (hsub : answered [e] = []) (hev : ∀ r, ¬ Entry.reads e r)
    (hi : t.inHand = none) (hr : ∀ p, t.reply = some p → s.reply = some p) (hl : t.lastRequest = s.lastRequest)
    (hread : t.phase = .live → s.phase = .live ∧ ∀ r, s.inHand ≠ some (.request r)) :
    Answering session limits (calls ++ [e]) t := by
  refine ⟨?_, ?_, ?_, ?_, ?_, ?_⟩
  · intro event he; rw [hi] at he; cases he
  · intro r he; rw [hi] at he; cases he
  · intro p hp
    obtain ⟨r, reply, hc, hq, hlast, hlt⟩ := h.pending p (hr p hp)
    exact ⟨r, reply, hc, hq.append _, hl.trans hlast, by simpa [hsub] using hlt⟩
  · simpa [hsub] using h.ordered
  · rw [hl]; simpa [hsub] using h.below
  · intro hp d hd r hr'
    obtain ⟨hlive, hno⟩ := hread hp
    rcases List.mem_append.mp hd with hd | hd
    · rcases h.read hlive d hd r hr' with hin | hn
      · exact absurd hin (hno r)
      · exact .inr (hl ▸ hn)
    · rw [List.mem_singleton.mp hd] at hr'
      exact absurd hr' (hev r)

theorem Answering.start (first : P) :
    Answering session limits ([] : List (Entry P S)) (Ledger.start first) where
  in_hand := by simp [Ledger.start]
  fresh := by simp [Ledger.start]
  pending := by simp [Ledger.start]
  ordered := by simp [answered]
  below := by simp [answered]
  read := by simp

theorem not_stale {last : Option ℕ} {token : RequestId} {n : ℕ}
    (h : ¬ Stale session last token) (hl : last = some n) : n < token.ordinal := by
  subst hl
  simpa [Stale] using (not_or.mp h).2

/-- Reading an event: the ledger keeps its requests and takes at most one new one in hand. -/
theorem Answering.event (h : Answering session limits calls s) {now : ℕ}
    {result : Except Error (Option HostEvent)} (hlive : s.phase = .live) (hr : s.reply = none)
    (hi : s.inHand = none) :
    Answering session limits (calls ++ [⟨now, .event result⟩]) (s.onEvent session result) := by
  have idle : ∀ u : Ledger P, u.inHand = none → u.reply = none →
      u.lastRequest = s.lastRequest →
      (u.phase = .live → ∀ r, result ≠ .ok (some (.request r))) →
      Answering session limits (calls ++ [⟨now, .event result⟩]) u := by
    intro u hui hur hul hup
    refine ⟨by simp [hui], by simp [hui], by simp [hur], by simpa [answered] using h.ordered,
      by rw [hul]; simpa [answered] using h.below, ?_⟩
    intro hp d hd r hr'
    rcases List.mem_append.mp hd with hd | hd
    · rcases h.read hlive d hd r hr' with hin | hn
      · rw [hi] at hin; cases hin
      · exact .inr (hul ▸ hn)
    · rw [List.mem_singleton.mp hd] at hr'
      exact absurd (Call.event.inj hr') (hup hp r)
  rcases result with e | _ | event
  · simp only [Ledger.onEvent, Ledger.failed]
    split
    · exact idle s hi hr rfl (by simp)
    · exact idle _ hi hr rfl (by simp)
  · exact idle s hi hr rfl (by simp)
  · have taken : ∀ event, (∀ r, event = .request r → ¬ Stale session s.lastRequest r.token) →
        Answering session limits (calls ++ [⟨now, .event (.ok (some event))⟩])
          { s with inHand := some event } := by
      intro event hst
      refine ⟨?_, ?_, by simp [hr], by simpa [answered] using h.ordered,
        by simpa [answered] using h.below, ?_⟩
      · rintro event' he
        obtain rfl := Option.some.inj he
        exact ⟨hr, calls, _, rfl, rfl⟩
      · intro r he
        exact hst r (Option.some.inj he)
      · intro _ d hd r hr'
        rcases List.mem_append.mp hd with hd | hd
        · rcases h.read hlive d hd r hr' with hin | hn
          · rw [hi] at hin; cases hin
          · exact .inr hn
        · rw [List.mem_singleton.mp hd] at hr'
          have := Option.some.inj (Except.ok.inj (Call.event.inj hr'))
          exact .inl (congrArg some this)
    cases event with
    | output report => exact taken _ (by simp)
    | lifecycle event => exact taken _ (by simp)
    | request r =>
      simp only [Ledger.onEvent]
      split
      · exact idle _ hi hr rfl (by simp)
      · next hst =>
        refine taken _ ?_
        intro r' he
        rw [← HostEvent.request.inj he]
        exact hst

/-- A handled request becomes the pending one, newer than everything answered before. -/
theorem Answering.request (h : Answering session limits calls s) {now : ℕ} {r : Request}
    {reply : Reply} (hlive : s.phase = .live) (hi : s.inHand = some (.request r)) :
    Answering session limits (calls ++ [⟨now, .request r.kind reply⟩])
      (s.onRequest limits now r reply) := by
  obtain ⟨hr, before, x, hc, hx⟩ := h.in_hand _ hi
  have hfresh := h.fresh r hi
  have newer : ∀ token ∈ answered calls, token.ordinal < r.token.ordinal := by
    intro token ht
    obtain ⟨n, hn, hle⟩ := h.below token ht
    exact lt_of_le_of_lt hle (not_stale hfresh hn)
  have common : ∀ u : Ledger P, u.inHand = none → u.lastRequest = some r.token.ordinal →
      (∀ p, u.reply = some p → p = ⟨.reply r.token reply, saturatingAdd now limits.replyTimeoutUs⟩ ∧
        validateReply r.kind reply = .ok ()) →
      Answering session limits (calls ++ [⟨now, .request r.kind reply⟩]) u := by
    intro u hui hul hup
    refine ⟨by simp [hui], by simp [hui], ?_, by simpa [answered] using h.ordered, ?_, ?_⟩
    · intro p hp
      obtain ⟨rfl, hv⟩ := hup p hp
      refine ⟨r, reply, rfl, ⟨before, x, ⟨now, .request r.kind reply⟩, [], ?_, hx, rfl, hv, rfl⟩,
        hul, ?_⟩
      · simp [hc]
      · simpa [answered] using newer
    · intro token ht
      exact ⟨_, hul, le_of_lt (newer token (by simpa [answered] using ht))⟩
    · intro _ d hd r' hr'
      refine .inr ⟨_, hul, ?_⟩
      rcases List.mem_append.mp hd with hd | hd
      · rcases h.read hlive d hd r' hr' with hin | ⟨n, hn, hle⟩
        · rw [hi] at hin
          have := HostEvent.request.inj (Option.some.inj hin)
          rw [this]
        · exact le_of_lt (lt_of_le_of_lt hle (not_stale hfresh hn))
      · rw [List.mem_singleton.mp hd] at hr'; cases hr'
  unfold Ledger.onRequest
  split
  · next hv => exact common _ rfl rfl (by rintro p hp; exact ⟨(Option.some.inj hp).symm, hv⟩)
  · exact common _ rfl rfl (by simp [hr])

theorem Answering.reply (h : Answering session limits calls s) {now : ℕ} {token : RequestId}
    {reply : Reply} {outcome : Delivery} {p : PendingReply} (hlive : s.phase = .live)
    (hi : s.inHand = none) (hp : s.reply = some p) (hc : p.command = .reply token reply) :
    Answering session limits (calls ++ [⟨now, .submit (.reply token reply) outcome⟩])
      { s.onDelivery (.reply token reply) outcome with
        reply := if outcome = .submitted then none else s.reply } := by
  have framed : outcome ≠ .submitted → answered
      ([⟨now, .submit (.reply token reply) outcome⟩] : List (Entry P S)) = [] := by
    cases outcome <;> simp [answered]
  cases outcome with
  | definitelyUnsent =>
    exact h.frame (framed (by decide)) (by simp [Entry.reads]) hi (fun _ h => h) rfl
      (fun _ => ⟨hlive, by simp [hi]⟩)
  | uncertain =>
    exact h.frame (framed (by decide)) (by simp [Entry.reads]) hi (fun _ h => h) rfl
      (fun _ => ⟨hlive, by simp [hi]⟩)
  | submitted =>
    obtain ⟨r, reply', hc', _, hlast, hlt⟩ := h.pending p hp
    have htok : token = r.token := by
      have := hc.symm.trans hc'
      simp only [Command.reply.injEq] at this
      exact this.1
    have hans : answered (calls ++ [⟨now, .submit (.reply token reply) .submitted⟩]) =
        answered calls ++ [token] := by simp [answered]
    refine ⟨by simp [Ledger.onDelivery, hi], by simp [Ledger.onDelivery, hi], by simp, ?_, ?_, ?_⟩
    · rw [hans, List.pairwise_append]
      refine ⟨h.ordered, by simp, ?_⟩
      intro a ha b hb
      rw [List.mem_singleton.mp hb, htok]
      exact hlt a ha
    · rw [hans]
      intro a ha
      refine ⟨_, hlast, ?_⟩
      rcases List.mem_append.mp ha with ha | ha
      · exact le_of_lt (hlt a ha)
      · rw [List.mem_singleton.mp ha, htok]
    · intro _ d hd r' hr'
      rcases List.mem_append.mp hd with hd | hd
      · rcases h.read hlive d hd r' hr' with hin | hn
        · rw [hi] at hin; cases hin
        · exact .inr hn
      · rw [List.mem_singleton.mp hd] at hr'; cases hr'

theorem step_answering (h : Answering session limits calls s)
    (st : Ledger.Step session limits s e t) : Answering session limits (calls ++ [e]) t := by
  obtain ⟨now, call⟩ := e
  cases call with
  | event result =>
    obtain ⟨hlive, hr, hi, rfl⟩ := st
    exact h.event hlive hr hi
  | submit command outcome =>
    cases command with
    | input r =>
      obtain ⟨hlive, hi, rest, _, rfl⟩ := st
      refine h.frame rfl (by simp [Entry.reads]) ?_ ?_ ?_ (fun _ => ⟨hlive, by simp [hi]⟩) <;>
        cases outcome <;> first | exact hi | rfl | exact fun _ h => h
    | reply token reply =>
      obtain ⟨hlive, hi, p, hp, hc, _, rfl⟩ := st
      exact h.reply hlive hi hp hc
  | close result =>
    obtain ⟨_, rfl⟩ := st
    exact h.frame rfl (by simp [Entry.reads]) rfl (by simp) rfl (by simp)
  | request kind reply =>
    obtain ⟨hlive, r, hi, rfl, _, _, rfl⟩ := st
    exact h.request hlive hi
  | output report result =>
    obtain ⟨hlive, hi, _, rfl⟩ := st
    have hno : ∀ r, s.inHand ≠ some (.request r) := by simp [hi]
    cases result with
    | ok _ => exact h.frame rfl (by simp [Entry.reads]) rfl (fun _ h => h) rfl (fun _ => ⟨hlive, hno⟩)
    | error error =>
      dsimp only [Ledger.failed]
      split <;>
        exact h.frame rfl (by simp [Entry.reads]) rfl (fun _ h => h) rfl (fun _ => ⟨hlive, hno⟩)
  | lifecycle event =>
    obtain ⟨hlive, hi, rfl⟩ := st
    exact h.frame rfl (by simp [Entry.reads]) rfl (fun _ h => h) rfl
      (fun _ => ⟨hlive, by simp [hi]⟩)
  | input state result =>
    obtain ⟨hlive, hi, _, _, rfl⟩ := st
    have hno : ∀ r, s.inHand ≠ some (.request r) := by simp [hi]
    cases result with
    | error error =>
      simp only [Ledger.onInput, Ledger.failed]
      split <;> exact h.frame rfl (by simp [Entry.reads]) hi (fun _ h => h) rfl
        (fun _ => ⟨hlive, hno⟩)
    | ok reports =>
      simp only [Ledger.onInput]
      split
      · exact h.frame rfl (by simp [Entry.reads]) hi (fun _ h => h) rfl (fun _ => ⟨hlive, hno⟩)
      · split <;> exact h.frame rfl (by simp [Entry.reads]) hi (fun _ h => h) rfl
          (fun _ => ⟨hlive, hno⟩)
  | replace protocol =>
    obtain ⟨hlive, hi, rfl⟩ := st
    exact h.frame rfl (by simp [Entry.reads]) hi (fun _ h => h) rfl (fun _ => ⟨hlive, by simp [hi]⟩)

theorem run_answering {first : P}
    (h : Run (Ledger.Step session limits) (Ledger.start first) calls t) :
    Answering session limits calls t := by
  induction h with
  | nil => exact .start first
  | snoc _ st ih => exact step_answering ih st

/-- `r` was read and its reply has not been taken: it is in hand, it is the pending one, or
the session is over. -/
def Outstanding (r : Request) (s : Ledger P) : Prop :=
  (s.inHand = some (.request r) ∧ s.reply = none) ∨
    (s.inHand = none ∧ ∃ p reply, s.reply = some p ∧ p.command = .reply r.token reply) ∨
    s.phase ≠ .live

theorem Outstanding.congr {r : Request} (h : Outstanding r s) (hi : s.inHand = none)
    (hlive : s.phase = .live) (hi' : t.inHand = none) (hr : t.reply = s.reply) :
    Outstanding r t := by
  rcases h with ⟨hin, _⟩ | ⟨_, hp⟩ | hd
  · rw [hi] at hin; cases hin
  · exact .inr (.inl ⟨hi', hr ▸ hp⟩)
  · exact absurd hlive hd

/-- Only the submission of its reply ends an outstanding request of a live session. -/
theorem step_outstanding {r : Request} (h : Outstanding r s)
    (st : Ledger.Step session limits s e t)
    (hno : ∀ reply, e.call ≠ .submit (.reply r.token reply) .submitted) : Outstanding r t := by
  obtain ⟨now, call⟩ := e
  cases call with
  | event result =>
    obtain ⟨hlive, hr, hi, _⟩ := st
    rcases h with ⟨hin, _⟩ | ⟨_, p, _, hp, _⟩ | hd
    · rw [hi] at hin; cases hin
    · rw [hr] at hp; cases hp
    · exact absurd hlive hd
  | submit command outcome =>
    cases command with
    | input report =>
      obtain ⟨hlive, hi, rest, _, rfl⟩ := st
      cases outcome <;> exact h.congr hi hlive hi rfl
    | reply token reply =>
      obtain ⟨hlive, hi, p, hp, hc, _, rfl⟩ := st
      cases outcome with
      | definitelyUnsent => exact h.congr hi hlive hi rfl
      | uncertain => exact .inr (.inr (by simp [Ledger.onDelivery]))
      | submitted =>
        rcases h with ⟨hin, _⟩ | ⟨_, q, reply', hq, hc'⟩ | hd
        · rw [hi] at hin; cases hin
        · obtain rfl := Option.some.inj (hp.symm.trans hq)
          have htok := hc.symm.trans hc'
          simp only [Command.reply.injEq] at htok
          obtain ⟨rfl, rfl⟩ := htok
          exact absurd rfl (hno reply)
        · exact absurd hlive hd
  | close result =>
    obtain ⟨_, rfl⟩ := st
    exact .inr (.inr (by simp))
  | request kind reply =>
    obtain ⟨hlive, r', hi, rfl, hr, _, rfl⟩ := st
    rcases h with ⟨hin, _⟩ | ⟨hn, _⟩ | hd
    · obtain rfl := HostEvent.request.inj (Option.some.inj (hi.symm.trans hin))
      unfold Ledger.onRequest
      split
      · exact .inr (.inl ⟨rfl, _, reply, rfl, rfl⟩)
      · exact .inr (.inr (by simp))
    · rw [hi] at hn; cases hn
    · exact absurd hlive hd
  | output report result =>
    obtain ⟨hlive, hi, _⟩ := st
    rcases h with ⟨hin, _⟩ | ⟨hn, _⟩ | hd
    · rw [hi] at hin; cases hin
    · rw [hi] at hn; cases hn
    · exact absurd hlive hd
  | lifecycle event =>
    obtain ⟨hlive, hi, _⟩ := st
    rcases h with ⟨hin, _⟩ | ⟨hn, _⟩ | hd
    · rw [hi] at hin; cases hin
    · rw [hi] at hn; cases hn
    · exact absurd hlive hd
  | input state result =>
    obtain ⟨hlive, hi, _, _, rfl⟩ := st
    cases result with
    | error error =>
      simp only [Ledger.onInput, Ledger.failed]
      split <;> exact h.congr hi hlive hi rfl
    | ok reports =>
      simp only [Ledger.onInput]
      split
      · exact h.congr hi hlive hi rfl
      · split <;> exact h.congr hi hlive hi rfl
  | replace protocol =>
    obtain ⟨hlive, hi, rfl⟩ := st
    exact h.congr hi hlive hi rfl

theorem run_outstanding {r : Request} (h : Run (Ledger.Step session limits) s calls t)
    (hs : Outstanding r s)
    (hno : ∀ e ∈ calls, ∀ reply, e.call ≠ .submit (.reply r.token reply) .submitted) :
    Outstanding r t := by
  induction h with
  | nil => exact hs
  | @snoc calls t e u _ st ih =>
    have ht := ih fun d hd => hno d (by simp [hd])
    exact step_outstanding ht st (hno e (by simp))

theorem read_outstanding {r : Request} (st : Ledger.Step session limits s e t)
    (he : Entry.reads e r) : Outstanding r t := by
  unfold Entry.reads at he
  unfold Ledger.Step at st
  rw [he] at st
  obtain ⟨_, hr, _, rfl⟩ := st
  simp only [Ledger.onEvent]
  split
  · exact .inr (.inr (by simp))
  · exact .inl ⟨rfl, hr⟩

/-- Between reading a request and the next read, its reply is taken. -/
theorem run_exclusive {before between after : List (Entry P S)} {e e' : Entry P S} {r : Request}
    {result : Except Error (Option HostEvent)}
    (h : Run (Ledger.Step session limits) s (before ++ e :: (between ++ e' :: after)) t)
    (he : Entry.reads e r) (he' : e'.call = .event result) :
    ∃ d ∈ between, ∃ reply, d.call = .submit (.reply r.token reply) .submitted := by
  obtain ⟨u, _, h⟩ := run_append.mp h
  obtain ⟨v, hv, h⟩ := run_cons.mp h
  obtain ⟨w, hw, h⟩ := run_append.mp h
  obtain ⟨x, hx, _⟩ := run_cons.mp h
  unfold Ledger.Step at hx
  rw [he'] at hx
  obtain ⟨hlive, hr, hi, _⟩ := hx
  by_contra hcon
  push Not at hcon
  rcases run_outstanding hw (read_outstanding hv he) hcon with ⟨hin, _⟩ | ⟨_, p, _, hp, _⟩ | hd
  · rw [hi] at hin; cases hin
  · rw [hr] at hp; cases hp
  · exact absurd hlive hd

/-- A submitted reply belongs to a request read before, and is in time. -/
theorem run_answers {first : P} {before after : List (Entry P S)} {token : RequestId}
    {reply : Reply} {outcome : Delivery}
    (h : Run (Ledger.Step session limits) (Ledger.start first) (before ++ e :: after) t)
    (he : e.call = .submit (.reply token reply) outcome) :
    ∃ r deadline, r.token = token ∧ Requested limits before r reply deadline ∧
      e.now < deadline := by
  obtain ⟨u, hu, h⟩ := run_append.mp h
  obtain ⟨v, hv, _⟩ := run_cons.mp h
  unfold Ledger.Step at hv
  rw [he] at hv
  obtain ⟨_, _, p, hp, hc, hlt, _⟩ := hv
  obtain ⟨r, reply', hc', hreq, _⟩ := (run_answering hu).pending p hp
  have htok := hc.symm.trans hc'
  simp only [Command.reply.injEq] at htok
  obtain ⟨rfl, rfl⟩ := htok
  exact ⟨r, p.deadline, rfl, hreq, hlt⟩

/-- A refused request leaves the personality alone and dooms the session. -/
theorem run_refused {first : P} {before after : List (Entry P S)} {r : Request}
    (h : Run (Ledger.Step session limits) (Ledger.start first) (before ++ e :: after) t)
    (he : Entry.reads e r)
    (hst : r.token.session ≠ session ∨
      ∃ d ∈ before, ∃ r', Entry.reads d r' ∧ r.token.ordinal ≤ r'.token.ordinal) :
    (after = [] ∧ t.phase = .doomed ∨
        ∃ d result, after = [d] ∧ d.call = .close result ∧ t.phase = .closed) ∧
      t.protocol = before.foldl (advance limits) first := by
  have hp : t.protocol = (before ++ e :: after).foldl (advance limits) first := run_advance h
  obtain ⟨u, hu, h⟩ := run_append.mp h
  obtain ⟨v, hv, h⟩ := run_cons.mp h
  unfold Entry.reads at he
  unfold Ledger.Step at hv
  rw [he] at hv
  obtain ⟨hlive, _, hi, rfl⟩ := hv
  have hstale : Stale session u.lastRequest r.token := by
    rcases hst with hs | ⟨d, hd, r', hr', hle⟩
    · exact .inl hs
    · rcases (run_answering hu).read hlive d hd r' hr' with hin | ⟨n, hn, hle'⟩
      · rw [hi] at hin; cases hin
      · right
        rw [hn]
        simpa using hle.trans hle'
  simp only [Ledger.onEvent, if_pos hstale] at h
  rw [List.foldl_append, List.foldl_cons] at hp
  rcases run_doomed h rfl with ⟨rfl, rfl⟩ | ⟨hc, d, result, rfl, hd⟩
  · exact ⟨.inl ⟨rfl, rfl⟩, by simpa [advance, he] using hp⟩
  · exact ⟨.inr ⟨d, result, rfl, hd, hc⟩, by simpa [advance, he, hd] using hp⟩

end Ledger

/-- What a reply to a request must look like: a report of the kind and number that was asked
for, or an error of the same direction. -/
inductive Matches : RequestKind → Reply → Prop where
  | get {kind id} (report : Report) : report.kind = kind → report.id = id →
      Matches (.get kind id) (.get (.ok report))
  | get_error {kind id} (error : ReplyError) : Matches (.get kind id) (.get (.error error))
  | set {report} (result : Except ReplyError Unit) : Matches (.set report) (.set result)

theorem validateReply_ok {kind : RequestKind} {reply : Reply} :
    validateReply kind reply = .ok () ↔ Matches kind reply := by
  constructor
  · intro h
    rcases kind with ⟨kind, id⟩ | report <;> rcases reply with (error | report') | result
    · exact .get_error error
    · simp only [validateReply] at h
      split at h
      · next hk => exact .get report' hk.1 hk.2
      · cases h
    · cases h
    · cases h
    · cases h
    · exact .set result
  · intro h
    cases h with
    | get report hk hi => simp [validateReply, hk, hi]
    | get_error error => rfl
    | set result => rfl

/-- The reply discipline of a session that started with the personality `first`. -/
structure RepliesAnswerRequests [Transport T] (session : ℕ) (limits : Limits) (first : P)
    (rt : Runtime P T S O) : Prop where
  /-- Strictly increasing, so no request is answered twice. -/
  ordered : (answered rt.calls).Pairwise (·.ordinal < ·.ordinal)
  answers : ∀ before e after token reply outcome, rt.calls = before ++ e :: after →
    e.call = .submit (.reply token reply) outcome →
      ∃ r older x y rest, r.token = token ∧ before = older ++ x :: y :: rest ∧
        Entry.reads x r ∧ y.call = .request r.kind reply ∧ Matches r.kind reply ∧
        e.now < y.now + limits.replyTimeoutUs
  /-- The host is read again only after the reply was taken. -/
  exclusive : ∀ before e between e' after r result,
    rt.calls = before ++ e :: (between ++ e' :: after) → Entry.reads e r →
    e'.call = .event result →
      ∃ d ∈ between, ∃ reply, d.call = .submit (.reply r.token reply) .submitted
  /-- A reply still pending at its deadline is dropped and the transport closed instead. -/
  expired : ∀ p now, rt.reply = some p → rt.closed = false → rt.now ≤ now → p.deadline ≤ now →
    ∃ rt' result, service now rt = (.error .deadline, rt') ∧ rt'.closed ∧
      rt'.calls = rt.calls ++ [⟨now, .close result⟩]
  pending : ∀ p, rt.reply = some p → ∃ r reply, p.command = .reply r.token reply ∧
    Requested limits rt.calls r reply p.deadline
  /-- A foreign, stale or duplicate request is the last thing before the close, and the
  personality is what it was before the request was read. -/
  refused : ∀ before e after r, rt.calls = before ++ e :: after → Entry.reads e r →
    (r.token.session ≠ session ∨
      ∃ d ∈ before, ∃ r', Entry.reads d r' ∧ r.token.ordinal ≤ r'.token.ordinal) →
      rt.closed ∧ (∃ d result, after = [d] ∧ d.call = .close result) ∧
        rt.protocol = before.foldl (advance limits) first

section Sessions

variable [Transport T] {first : P} {transport : T} {session : ℕ} {limits : Limits}

theorem service_expired {rt : Runtime P T S O} {p : PendingReply} {now : ℕ}
    (hp : rt.reply = some p) (ho : rt.closed = false) (hn : rt.now ≤ now)
    (hd : p.deadline ≤ now) :
    ∃ rt' result, service now rt = (.error .deadline, rt') ∧ rt'.closed ∧
      rt'.calls = rt.calls ++ [⟨now, .close result⟩] := by
  have hf : ∀ budget, flushReply now budget { rt with now } = (.error .deadline, { rt with now }) := by
    intro budget
    unfold flushReply
    rw [get_bind_run]
    simp only [hp, if_pos hd]
    rfl
  have hi : serviceInner now { rt with now } = (.error .deadline, { rt with now }) := by
    unfold serviceInner
    rw [get_bind_run, bind_run_error (hf _)]
  rcases hq : Transport.close rt.transport with ⟨result, transport'⟩
  refine ⟨(close { rt with now }).2, result, ?_, ?_, ?_⟩
  · have hlt : ¬ now < rt.now := by omega
    have hc : ¬ rt.closed = true := by simp [ho]
    unfold service
    rw [if_neg hc, if_neg hlt, hi]
    rfl
  · simp [close, ho]
  · simp [close, ho, hq, Runtime.record]

/-- Each accepted request has at most one submitted reply, in ordinal order, in time, and with
nothing read in between; every other request ends the session. -/
theorem replies_answer_requests {rt : Runtime P T S O}
    (h : Reachable first transport session limits rt) :
    RepliesAnswerRequests session limits first rt := by
  obtain ⟨queue, _, hr⟩ := (reachable_resting h).run
  have ha := run_answering hr
  constructor
  · exact ha.ordered
  · intro before e after token reply outcome hc he
    obtain ⟨r, deadline, htok, ⟨older, x, y, rest, hb, hx, hy, hv, rfl⟩, hlt⟩ :=
      run_answers (hc ▸ hr) he
    have hle := saturatingAdd_le y.now limits.replyTimeoutUs
    exact ⟨r, older, x, y, rest, htok, hb, hx, hy, validateReply_ok.mp hv, by omega⟩
  · intro before e between e' after r result hc he he'
    exact run_exclusive (hc ▸ hr) he he'
  · intro p now hp ho hn hd
    exact service_expired hp ho hn hd
  · intro p hp
    obtain ⟨r, reply, hc, hq, _⟩ := ha.pending p hp
    exact ⟨r, reply, hc, hq⟩
  · intro before e after r hc he hst
    obtain ⟨hafter, hprot⟩ := run_refused (hc ▸ hr) he hst
    rcases hafter with ⟨_, hd⟩ | ⟨d, result, ha, hd, hp⟩
    · simp only [restingPhase] at hd
      split at hd <;> cases hd
    · refine ⟨?_, ⟨d, result, ha, hd⟩, hprot⟩
      simp only [restingPhase] at hp
      split at hp
      · next hc => exact hc
      · cases hp

/-- A feature request is answered after one blocked submission. -/
theorem replies_answer_requests_blocked :
    RepliesAnswerRequests 7 ⟨32, 16, 100000⟩ (⟨1, 0⟩ : Counting)
      (perform (.service 1) (perform (.service 0) (Counting.runtime ⟨1, 0⟩
        ⟨[.request ⟨⟨7, 3⟩, .get .feature (some 5)⟩], [.definitelyUnsent]⟩
        ⟨32, 16, 100000⟩))) :=
  replies_answer_requests (((Counting.reachable ⟨1, 0⟩ _ (by decide)).step (.service 0)).step
    (.service 1))

end Sessions

end HidRuntimeReplies
