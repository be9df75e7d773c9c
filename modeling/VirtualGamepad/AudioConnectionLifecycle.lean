import VirtualGamepad.AudioConnection

/-! What an audio connection may do when: one session, behind a permit, closed before the permit
goes, whatever the client sends and whatever fails. -/
namespace AudioConnectionLifecycle

open Admission AudioConnection BrokerWire Dialogue WireBytes

section Accounts

/-- What is known of a connection from its calls so far. `ended` is set by the first error and by
the answer to a close. -/
structure Account where
  request : UInt8 × List UInt8
  asked : ℕ
  permit : Bool
  opened : Option Opened
  attached : Bool
  closed : Bool
  ended : Bool

def failed {ε α : Type} : Except ε α → Bool
  | .ok _ => false
  | .error _ => true

/-- The only frames that are not errors: a creation at first, then a close of that session. -/
def expected (opened : Option Opened) (request : UInt8 × List UInt8) : Bool :=
  match opened with
  | none =>
    request.1 = 1 && request.2.length = 7 && !failed (Profile.fromTag (request.2.headD 0))
  | some opened => request = (2, opened.reply)

def Account.new (first : UInt8 × List UInt8) : Account :=
  ⟨first, 0, false, none, false, false, !expected none first⟩

def Account.settled (s : Account) : Prop := s.permit = false ∧ s.attached = false

def Account.allows (s : Account) : Call → Prop
  | .tryClone => True
  | .setWriteTimeout => True
  | .reserve => s.ended = false ∧ s.asked = 0 ∧ s.permit = false
  | .openFactory profile identity => s.ended = false ∧ s.asked = 0 ∧ s.permit = true ∧
    ∃ tag, s.request = (1, tag :: identity) ∧ Profile.fromTag tag = .ok profile
  | .write message =>
    (message.tag = 0x81 ∧ s.ended = true ∧ s.settled) ∨
    (message.version = 2 ∧ message.tag = 0x80 ∧ s.ended = false ∧
      ∃ opened, s.opened = some opened ∧
        (s.request.1 = 1 ∧ metadata opened = .ok message.body ∧ s.permit = true ∧
            s.attached = true ∨
          s.request = (2, opened.reply) ∧ message.body = opened.reply ∧ s.closed = true ∧
            s.settled))
  | .sendChannels channels => s.ended = false ∧ s.permit = true ∧ s.attached = true ∧
    ∃ opened, s.opened = some opened ∧ channels = opened.channels
  | .checkAlive => s.ended = false ∧ s.attached = true
  | .waitReadable => s.ended = false
  | .readFrame => s.ended = false
  | .closeAttachment => s.opened.isSome = true ∧ s.permit = true
  | .dropPermit => s.permit = true ∧ s.attached = false

def Account.after (s : Account) : (call : Call) → Answer call → Account
  | .tryClone, answer => { s with ended := s.ended || failed answer }
  | .setWriteTimeout, answer => { s with ended := s.ended || failed answer }
  | .reserve, answer => { s with permit := !failed answer, ended := s.ended || failed answer }
  | .openFactory _ _, .ok opened => { s with
      asked := s.asked + 1
      opened := some opened
      attached := true
      ended := s.ended || failed (metadata opened) }
  | .openFactory _ _, .error _ => { s with asked := s.asked + 1, ended := true }
  | .write _, answer => { s with ended := s.ended || failed answer || s.closed }
  | .sendChannels _, answer => { s with ended := s.ended || failed answer }
  | .checkAlive, answer => { s with ended := s.ended || failed answer }
  | .waitReadable, answer => { s with ended := s.ended || failed answer }
  | .readFrame, .ok message => { s with
      request := (message.tag, message.body)
      ended := s.ended || message.version ≠ 2 || !expected s.opened (message.tag, message.body) }
  | .readFrame, .error _ => { s with ended := true }
  | .closeAttachment, answer => { s with
      attached := false
      closed := s.closed || !failed answer
      ended := s.ended || failed answer && !s.closed }
  | .dropPermit, _ => { s with permit := false }

def monitor : Monitor Call Answer Account := ⟨Account.allows, Account.after⟩

end Accounts

section Steps

variable {active : Option Opened} {opened : Opened} {s : Account}

/-- Nothing was reserved yet. -/
structure Idle (s : Account) : Prop where
  asked : s.asked = 0
  permit : s.permit = false
  opened : s.opened = none
  attached : s.attached = false
  closed : s.closed = false

/-- The connection has its session. -/
structure Owning (opened : Opened) (s : Account) : Prop where
  permit : s.permit = true
  opened : s.opened = some opened
  attached : s.attached = true
  closed : s.closed = false

def Serving (active : Option Opened) (s : Account) : Prop :=
  match active with
  | none => Idle s
  | some opened => Owning opened s

/-- What the locals of `serve` still own when it stops. -/
def Stopped : Stop → Option Opened → Account → Prop
  | .cut, _, _ => True
  | .failed _, none, s => s.ended = true ∧ s.settled
  | .failed _, some _, s => s.ended = true ∧ s.permit = true ∧ s.opened.isSome = true

theorem keeps_attempt_bind {α β : Type} {r : Except IoError α} {f : α → Serve β}
    {R : β → Option Opened → Account → Prop} {E : Stop → Option Opened → Account → Prop}
    (hok : ∀ a, r = .ok a → Keeps monitor (f a) R E active s)
    (herror : ∀ e, r = .error e → E (.failed e) active s) :
    Keeps monitor (attempt r >>= f) R E active s := by
  cases r with
  | ok a => exact hok a rfl
  | error e => exact herror e rfl

/-- Dropping what is left after an error. -/
theorem dropActive_stopped {error : IoError} {Q : Unit → Option Opened → Account → Prop}
    (h : Stopped (.failed error) active s)
    (hq : ∀ t, t.ended = true → t.settled → Q () none t) :
    Keeps monitor dropActive Q (fun _ _ _ => False) active s := by
  cases active with
  | none => exact hq s h.1 h.2
  | some opened =>
    refine ⟨⟨h.2.2, h.2.1⟩, fun answer => ⟨⟨h.2.1, rfl⟩, fun _ => ?_⟩⟩
    refine hq _ ?_ ⟨rfl, rfl⟩
    change (s.ended || _) = true
    rw [h.1]
    rfl

/-- Only the permit is left. -/
def Emptied : Stop → Option Opened → Account → Prop := fun _ active t =>
  active = none ∧ t.ended = true ∧ t.permit = true ∧ t.attached = false

/-- The reply and the channels of a session that was just opened. -/
theorem handOver_keeps (hrequest : s.request.1 = 1) (hended : s.ended = failed (metadata opened))
    (hpermit : s.permit = true) (hopened : s.opened = some opened) (hattached : s.attached = true)
    (hclosed : s.closed = false) :
    Keeps monitor (dropping dropOpened (handOver opened))
      (fun _ active t => ∃ opened, active = some opened ∧ Owning opened t ∧ t.ended = false)
      Emptied none s := by
  have hsome : s.opened.isSome = true := by
    rw [hopened]
    rfl
  refine keeps_dropping (E := fun _ active t => active = none ∧ t.ended = true ∧
    t.permit = true ∧ t.opened.isSome = true) ?_ fun e active t he => ?_
  · refine keeps_attempt_bind (fun response hresponse => ?_) fun e he => ?_
    · have hgood : s.ended = false := by
        rw [hended, hresponse]
        rfl
      refine keeps_ask_bind (.inr ⟨rfl, rfl, hgood, opened, hopened, .inl ⟨hrequest, hresponse,
        hpermit, hattached⟩⟩) fun answer => ?_
      cases answer with
      | error e =>
        refine keeps_attempt_bind (fun _ hok => nomatch hok) fun _ _ => ⟨rfl, ?_, hpermit, hsome⟩
        change (s.ended || true || s.closed) = true
        rw [Bool.or_true]
        rfl
      | ok _ =>
        have hwritten : (s.ended || false || s.closed) = false := by
          rw [hgood, hclosed]
          rfl
        refine keeps_attempt_bind (fun _ _ => ?_) (fun _ herror => nomatch herror)
        refine keeps_ask_bind ⟨hwritten, hpermit, hattached, opened, hopened, rfl⟩ fun answer => ?_
        cases answer with
        | error e =>
          exact keeps_attempt_bind (fun _ hok => nomatch hok)
            fun _ _ => ⟨rfl, Bool.or_true _, hpermit, hsome⟩
        | ok _ =>
          refine keeps_attempt_bind (fun _ _ => ?_) (fun _ herror => nomatch herror)
          refine keeps_set ⟨opened, rfl, ⟨hpermit, hopened, hattached, hclosed⟩, ?_⟩
          change (s.ended || false || s.closed || false) = false
          rw [hwritten]
          rfl
    · refine ⟨rfl, ?_, hpermit, hsome⟩
      rw [hended, he]
      rfl
  · obtain ⟨rfl, hbad, hpermit', hsome'⟩ := he
    refine ⟨⟨hsome', hpermit'⟩, fun answer => ⟨rfl, ?_, hpermit', rfl⟩⟩
    change (t.ended || _) = true
    rw [hbad]
    rfl

/-- A creation is answered with a session, or leaves nothing behind. -/
theorem create_keeps {tag : UInt8} {identity : List UInt8} (h : Idle s)
    (hrequest : s.request = (1, tag :: identity)) (hlength : identity.length = 6)
    (hended : s.ended = !expected none s.request) :
    Keeps monitor (create tag identity)
      (fun _ active t => ∃ opened, active = some opened ∧ Owning opened t ∧ t.ended = false)
      Stopped none s := by
  have hexpected : s.ended = failed (Profile.fromTag tag) := by
    rw [hended, hrequest]
    unfold expected
    rw [List.length_cons, hlength]
    simp
  refine keeps_attempt_bind (fun profile hprofile => ?_) fun e he => ?_
  · have hgood : s.ended = false := by
      rw [hexpected, hprofile]
      rfl
    refine keeps_ask_bind ⟨hgood, h.asked, h.permit⟩ fun answer => ?_
    cases answer with
    | error e =>
      exact keeps_attempt_bind (fun _ hok => nomatch hok)
        fun _ _ => ⟨Bool.or_true _, rfl, h.attached⟩
    | ok _ =>
      refine keeps_attempt_bind (fun _ _ => ?_) (fun _ herror => nomatch herror)
      have hreserved : (s.ended || failed (Except.ok () : Except BrokerError Unit)) = false := by
        rw [hgood]
        rfl
      refine keeps_dropping (E := Emptied) ?_ fun e t y he => ?_
      · refine keeps_ask_bind ⟨hreserved, h.asked, rfl, tag, hrequest, hprofile⟩ fun answer => ?_
        cases answer with
        | error e =>
          exact keeps_attempt_bind (fun _ hok => nomatch hok)
            fun _ _ => ⟨rfl, rfl, rfl, h.attached⟩
        | ok opened =>
          refine keeps_attempt_bind (fun _ hopened => ?_) (fun _ herror => nomatch herror)
          cases hopened
          refine handOver_keeps (congrArg Prod.fst hrequest) ?_ rfl rfl rfl h.closed
          change (s.ended || false || failed (metadata _)) = _
          rw [hgood]
          rfl
      · obtain ⟨rfl, hbad, hpermit, hattached⟩ := he
        refine ⟨⟨hpermit, hattached⟩, fun _ => ?_⟩
        cases e with
        | cut => trivial
        | failed e => exact ⟨hbad, rfl, hattached⟩
  · refine ⟨?_, h.permit, h.attached⟩
    rw [hexpected, he]
    rfl

/-- A connection about to handle a frame. -/
structure Requested (frame : UInt8 × List UInt8) (active : Option Opened) (s : Account) :
    Prop where
  serving : Serving active s
  request : s.request = frame
  ended : s.ended = !expected active frame

theorem Owning.stopped {t : Account} (h : Owning opened s) (error : IoError)
    (hended : t.ended = true) (hpermit : t.permit = s.permit) (hopened : t.opened = s.opened) :
    Stopped (.failed error) (some opened) t := by
  refine ⟨hended, hpermit.trans h.permit, ?_⟩
  rw [hopened, h.opened]
  rfl

theorem stopped_of_serving {error : IoError} (h : Serving active s) (hended : s.ended = true) :
    Stopped (.failed error) active s := by
  cases active with
  | none => exact ⟨hended, h.permit, h.attached⟩
  | some opened => exact h.stopped error hended rfl rfl

/-- The explicit close: the attachment first, then the session, then the reply. -/
theorem close_keeps {body : List UInt8} (h : Requested (2, body) active s) :
    Keeps monitor (AudioConnection.close body) (fun _ active t => active = none ∧ t.settled)
      Stopped active s := by
  refine keeps_get_bind ?_
  cases active with
  | none => exact keeps_fail (stopped_of_serving h.serving h.ended)
  | some opened =>
    have howning : Owning opened s := h.serving
    have hsome : s.opened.isSome = true := by
      rw [howning.opened]
      rfl
    dsimp only
    by_cases hbody : body ≠ opened.reply
    · rw [if_pos hbody]
      refine keeps_fail (stopped_of_serving h.serving (h.ended.trans ?_))
      simp [expected, hbody]
    · have hreply : body = opened.reply := not_not.mp hbody
      have hgood : s.ended = false := h.ended.trans (by simp [expected, hreply])
      rw [if_neg hbody]
      refine keeps_ask_bind ⟨hsome, howning.permit⟩ fun answer => ?_
      cases answer with
      | error e =>
        refine keeps_attempt_bind (fun _ hok => nomatch hok) fun _ _ => ⟨?_, howning.permit, hsome⟩
        change (s.ended || true && !s.closed) = true
        rw [howning.closed]
        exact Bool.or_true _
      | ok _ =>
        refine keeps_attempt_bind (fun _ _ => ?_) (fun _ herror => nomatch herror)
        -- the attachment is closed a second time when the session is dropped
        refine ⟨⟨hsome, howning.permit⟩, fun again => ⟨⟨howning.permit, rfl⟩, fun _ => ?_⟩⟩
        have hstill : (s.ended || (false && !s.closed) || (failed again && !(s.closed || true))) =
            false := by
          rw [hgood, Bool.or_true]
          exact Bool.and_false _
        have hclosed : (s.closed || true || !failed again) = true := by
          rw [Bool.or_true]
          rfl
        refine ⟨.inr ⟨rfl, rfl, hstill, opened, howning.opened, .inr ⟨?_, hreply, hclosed, rfl,
          rfl⟩⟩, fun written => ?_⟩
        · exact hreply ▸ h.request
        · cases written with
          | error e =>
            refine ⟨?_, rfl, rfl⟩
            change (_ || true || _) = true
            rw [Bool.or_true]
            rfl
          | ok _ => exact ⟨rfl, rfl, rfl⟩

/-- A handled frame ends the connection, or leaves it with its session. -/
def Handled (finished : Bool) (active : Option Opened) (s : Account) : Prop :=
  if finished then active = none ∧ s.settled
  else ∃ opened, active = some opened ∧ Owning opened s ∧ s.ended = false

theorem handle_keeps {tag : UInt8} {body : List UInt8} (h : Requested (tag, body) active s) :
    Keeps monitor (handle tag body) Handled Stopped active s := by
  refine keeps_get_bind ?_
  by_cases hcreate : tag = 1 ∧ body.length = 7 ∧ active.isNone
  · rw [if_pos hcreate]
    obtain ⟨rfl, hlength, hnone⟩ := hcreate
    obtain rfl := Option.isNone_iff_eq_none.mp hnone
    cases body with
    | nil => cases hlength
    | cons profile identity =>
      refine keeps_bind (create_keeps h.serving h.request (Nat.succ.inj hlength) ?_)
        fun _ active t ht => keeps_pure ht
      rw [h.request]
      exact h.ended
  rw [if_neg hcreate]
  by_cases hclose : tag = 2 ∧ body.length = 8
  · rw [if_pos hclose]
    obtain ⟨rfl, _⟩ := hclose
    exact keeps_bind (close_keeps h) fun _ active t ht => keeps_pure ht
  · rw [if_neg hclose]
    refine keeps_fail (stopped_of_serving h.serving (h.ended.trans ?_))
    cases active with
    | none =>
      have hnone : tag = 1 → ¬body.length = 7 := fun ht hl => hcreate ⟨ht, hl, rfl⟩
      unfold expected
      by_cases htag : tag = 1
      · simp [hnone htag]
      · simp [htag]
    | some opened =>
      have hlength : opened.reply.length = 8 := length_bytesLe 8 _
      unfold expected
      simp only [Prod.mk.injEq]
      by_contra hsame
      simp only [Bool.not_eq_true, Bool.not_eq_false', decide_eq_true_eq] at hsame
      exact hclose ⟨hsame.1, hsame.2 ▸ hlength⟩

/-- Waiting for the next frame, the connection looks after its attachment. -/
theorem watch_keeps (fuel : ℕ) (h : Owning opened s) (hgood : s.ended = false) :
    Keeps monitor (watch fuel)
      (fun _ active t => active = some opened ∧ Owning opened t ∧ t.ended = false) Stopped
      (some opened) s := by
  induction fuel generalizing s with
  | zero => exact keeps_fail trivial
  | succ fuel ih =>
    refine keeps_bind (Q := fun _ active t => active = some opened ∧ Owning opened t ∧
      t.ended = false) (keeps_ask_bind ⟨hgood, h.attached⟩ fun answer => ?_) ?_
    · cases answer with
      | error e => exact h.stopped e (Bool.or_true _) rfl rfl
      | ok _ => exact ⟨rfl, ⟨h.permit, h.opened, h.attached, h.closed⟩, by
          change (s.ended || false) = false
          rw [hgood]
          rfl⟩
    · rintro _ _ t ⟨rfl, howning, hfine⟩
      refine keeps_ask_bind hfine fun answer => ?_
      cases answer with
      | error e =>
        exact keeps_attempt_bind (fun _ hok => nomatch hok)
          fun _ _ => howning.stopped e (Bool.or_true _) rfl rfl
      | ok ready =>
        refine keeps_attempt_bind (fun read hread => ?_) (fun _ herror => nomatch herror)
        cases hread
        have hwaited : (t.ended || false) = false := by
          rw [hfine]
          rfl
        have howning' : Owning opened (monitor.after t .waitReadable (.ok ready)) :=
          ⟨howning.permit, howning.opened, howning.attached, howning.closed⟩
        cases ready with
        | true => exact keeps_pure ⟨rfl, howning', hwaited⟩
        | false => exact ih howning' hwaited

theorem serveFrom_keeps (fuel : ℕ) {frame : UInt8 × List UInt8} (h : Requested frame active s) :
    Keeps monitor (serveFrom fuel frame) (fun _ active t => active = none ∧ t.settled) Stopped
      active s := by
  induction fuel generalizing frame active s with
  | zero => exact keeps_fail trivial
  | succ fuel ih =>
    refine keeps_bind (handle_keeps h) fun finished active t ht => ?_
    cases finished with
    | true => exact keeps_pure ht
    | false =>
      obtain ⟨opened, rfl, howning, hgood⟩ := ht
      refine keeps_bind (watch_keeps fuel howning hgood) ?_
      rintro _ _ u ⟨rfl, howning, hgood⟩
      refine keeps_ask_bind hgood fun answer => ?_
      cases answer with
      | error e =>
        exact keeps_attempt_bind (fun _ hok => nomatch hok)
          fun _ _ => howning.stopped e rfl rfl rfl
      | ok message =>
        refine keeps_attempt_bind (fun read hread => ?_) (fun _ herror => nomatch herror)
        cases hread
        by_cases hversion : message.version ≠ 2
        · rw [if_pos hversion]
          refine keeps_fail (howning.stopped _ ?_ rfl rfl)
          change (u.ended || decide (message.version ≠ 2) || _) = true
          rw [decide_eq_true hversion, Bool.or_true]
          rfl
        · rw [if_neg hversion]
          refine ih ⟨⟨howning.permit, howning.opened, howning.attached, howning.closed⟩, rfl, ?_⟩
          change (u.ended || decide (message.version ≠ 2) || !expected u.opened _) = _
          rw [hgood, decide_eq_false hversion, howning.opened]
          rfl

end Steps

section Exits

variable {s : Account} {first : UInt8 × List UInt8}

/-- A connection that has returned has nothing left, and an error made it over. -/
def Finished : Option (Except IoError Unit) → Account → Prop
  | none, _ => True
  | some (.ok ()), s => s.settled
  | some (.error _), s => s.ended = true ∧ s.settled

theorem finished_settled {result : Except IoError Unit} (h : Finished (some result) s) :
    s.settled := by
  cases result with
  | ok _ => exact h
  | error e => exact h.2

theorem serve_obeys (fuel : ℕ) (h : Requested first none s) :
    Obeys monitor Finished (serve fuel first) s := by
  have hbody : Keeps monitor
      ((do attempt (← call .setWriteTimeout); serveFrom fuel first : Serve Unit))
      (fun _ active t => active = none ∧ t.settled) Stopped none s := by
    refine keeps_ask_bind trivial fun answer => ?_
    cases answer with
    | error e =>
      exact keeps_attempt_bind (fun _ hok => nomatch hok)
        fun _ _ => ⟨Bool.or_true _, h.serving.permit, h.serving.attached⟩
    | ok _ =>
      refine keeps_attempt_bind (fun _ _ => ?_) (fun _ herror => nomatch herror)
      refine serveFrom_keeps fuel ⟨⟨h.serving.asked, h.serving.permit, h.serving.opened,
        h.serving.attached, h.serving.closed⟩, h.request, ?_⟩
      exact (Bool.or_false _).trans h.ended
  refine obeys_bind hbody ?_
  rintro ⟨stop | _, active⟩ t ht
  · cases stop with
    | cut => trivial
    | failed error =>
      refine obeys_bind (dropActive_stopped (Q := fun _ _ u => u.ended = true ∧ u.settled) ht
        fun u hended hsettled => ⟨hended, hsettled⟩) ?_
      rintro ⟨_ | _, _⟩ u hu
      · exact hu.elim
      · exact hu
  · obtain ⟨rfl, hsettled⟩ := ht
    exact hsettled

/-- Every call of a connection is in order, and at its end everything is dropped. -/
theorem serveReported_obeys (fuel : ℕ) (first : UInt8 × List UInt8) :
    Obeys monitor Finished (serveReported fuel first) (.new first) := by
  refine ⟨trivial, fun answer => ?_⟩
  cases answer with
  | error e => exact ⟨Bool.or_true _, rfl, rfl⟩
  | ok _ =>
    have hready : Requested first none (monitor.after (.new first) .tryClone (.ok ())) :=
      ⟨⟨rfl, rfl, rfl, rfl, rfl⟩, rfl, Bool.or_false _⟩
    refine obeys_bind (serve_obeys fuel hready) ?_
    rintro (_ | (error | _)) t ht
    · trivial
    · refine ⟨.inl ⟨rfl, ht.1, ht.2⟩, fun _ => ⟨?_, ht.2⟩⟩
      change (t.ended || _ || _) = true
      rw [ht.1]
      rfl
    · exact ht

end Exits

end AudioConnectionLifecycle
