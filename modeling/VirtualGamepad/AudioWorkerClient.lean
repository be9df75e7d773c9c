import VirtualGamepad.AudioWorker

/-! One call of the client against any peer: what it writes, which replies it takes, and that every
other reply ends the session. -/
namespace AudioWorkerClient

open AudioWorker ControllerContract Dialogue MachineInt NativeState WireBytes

section Contract

def tagOf : Operation → UInt8
  | .update _ => 1
  | .output => 2
  | .diagnostics => 3
  | .close => 4
  | .microphoneConsumedFrames => 5
  | .maximumPcmPumpLatenessUs => 6
  | .microphoneHostFrames => 7

def suffixOf (c : Control) : Operation → List UInt8
  | .update state => bytesLe 8 (c.sequence + 1) ++ encode state
  | _ => []

/-- The request of an operation. -/
def frameOf (c : Control) (op : Operation) : Frame :=
  (tagOf op, bytesLe 8 c.generation ++ suffixOf c op)

/-- When an operation writes its request at all. -/
def Writes (c : Control) (op : Operation) : Prop :=
  c.closed = false ∧
    ∀ state, op = .update state → familyOf state = c.family ∧ c.sequence + 1 ≤ u64Max

/-- The result of an operation that writes nothing. -/
def refusal (c : Control) : Operation → Except ClientError Returned
  | .update state =>
    if familyOf state ≠ c.family then
      .error (.io "state belongs to another controller family")
    else if u64Max < c.sequence + 1 then
      .error (.io "worker transaction sequence exhausted")
    else .error (.io "broken pipe")
  | .diagnostics => .ok (.counters c.retained)
  | .close => .ok .done
  | _ => .error (.io "broken pipe")

/-- No event, or one with its report id. -/
def reports : List UInt8 → Bool
  | [0] => true
  | 1 :: _ :: bytes => bytes.length ≤ 240
  | _ => false

/-- Which responses an operation takes, behind the generation. -/
def accepts (c : Control) : Operation → List UInt8 → Bool
  | .update _, response => response.length = 9 && response.take 8 = bytesLe 8 (c.sequence + 1) &&
      response.getD 8 0 ≤ 1
  | .output, response => reports response
  | .diagnostics, response => response.length = 72
  | .microphoneConsumedFrames, response => response.length = 8
  | .microphoneHostFrames, response => response.length = 16 &&
      ofBytesLe (response.drop 8) ≤ ofBytesLe (response.take 8)
  | .maximumPcmPumpLatenessUs, response => response.length = 8
  | .close, response => response = []

/-- What becomes of a response that is taken. -/
def outcome (c : Control) : Operation → List UInt8 → Except ClientError Returned × Control
  | .update _, response =>
    if response.getD 8 0 = 0 then (.error (.io "worker rejected native state"), c)
    else (.ok .done, { c with sequence := c.sequence + 1 })
  | .output, 1 :: report :: bytes =>
    (.ok (.event (some (.hidOutput (if report ≠ 0 then some report else none) bytes))), c)
  | .output, _ => (.ok (.event none), c)
  | .diagnostics, response =>
    (.ok (.counters (values 9 response)), { c with retained := values 9 response })
  | .microphoneConsumedFrames, response => (.ok (.counters [ofBytesLe response]), c)
  | .microphoneHostFrames, response =>
    (.ok (.counters [ofBytesLe (response.take 8), ofBytesLe (response.drop 8)]), c)
  | .maximumPcmPumpLatenessUs, response => (.ok (.counters [ofBytesLe response]), c)
  | .close, _ => (.ok .done, { c with closed := true })

/-- A reply to this very request. -/
def Replies (c : Control) (op : Operation) (frame : Frame) : Prop :=
  frame.1 = tagOf op ∧ frame.2.take 8 = bytesLe 8 c.generation ∧
    accepts c op (frame.2.drop 8) = true

instance (c : Control) (op : Operation) (frame : Frame) : Decidable (Replies c op frame) :=
  inferInstanceAs (Decidable (_ ∧ _))

/-- How far a call has come. -/
inductive View where
  | ready
  | awaiting
  | answered (response : List UInt8)
  | broken

variable (c : Control) (op : Operation)

def View.allows : View → ClientCall → Prop
  | .ready, .write frame => Writes c op ∧ frame = frameOf c op
  | .awaiting, .read => True
  | .answered _, .shutdown => op = .close
  | .broken, .readPending => True
  | .broken, .shutdown => True
  | _, _ => False

def View.after : View → (call : ClientCall) → ClientAnswer call → View
  | .ready, .write _, .ok () => .awaiting
  | .ready, .write _, .error _ => .broken
  | .awaiting, .read, .ok frame =>
    if Replies c op frame then .answered (frame.2.drop 8) else .broken
  | .awaiting, .read, .error _ => .broken
  | view, _, _ => view

def monitor : Monitor ClientCall ClientAnswer View := ⟨View.allows c op, View.after c op⟩

/-- How a call may end. -/
def Ends (result : Except ClientError Returned × Control) : View → Prop
  | .ready => ¬Writes c op ∧ result = (refusal c op, c)
  | .awaiting => False
  | .answered response => result = outcome c op response
  | .broken => Writes c op ∧ (∃ error, result.1 = .error error) ∧
    result.2 = { c with closed := true }

end Contract

section Calls

variable {c : Control} {op : Operation} {view : View}

/-- Where a session stands after a response with the right header. -/
def settled (c : Control) (op : Operation) (response : List UInt8) : View :=
  if accepts c op response = true then .answered response else .broken

theorem terminal_keeps {s : Control} {E : ClientError → Control → View → Prop}
    {Q : Unit → Control → View → Prop} (hview : view.allows c op .shutdown)
    (hsame : view.after c op .shutdown () = view) (hq : Q () { s with closed := true } view) :
    Keeps (monitor c op) terminal Q E s view := by
  refine ⟨hview, fun _ => ?_⟩
  change Q () _ (view.after c op .shutdown ())
  rw [hsame]
  exact hq

theorem workerFailure_none {generation : ℕ} {frame : Frame} (h : frame.1 ≠ 0x81) :
    workerFailure generation frame = none := if_neg fun hf => h hf.1

theorem tagOf_ne (op : Operation) : tagOf op ≠ 0x81 := by
  cases op with
  | update _ => exact (by decide : (1 : UInt8) ≠ 0x81)
  | output => decide
  | diagnostics => decide
  | microphoneConsumedFrames => decide
  | microphoneHostFrames => decide
  | maximumPcmPumpLatenessUs => decide
  | close => decide

/-- What a conversation leaves behind when it fails. -/
def Failed (c : Control) : ClientError → Control → View → Prop :=
  fun _ t view => t = c ∧ view = .broken

theorem not_replies {frame : Frame} (h : frame.1 ≠ tagOf op ∨ frame.2.length < 8 ∨
    frame.2.take 8 ≠ bytesLe 8 c.generation) : ¬Replies c op frame := by
  rintro ⟨htag, hgeneration, _⟩
  rcases h with h | h | h
  · exact h htag
  · have hlength := congrArg List.length hgeneration
    rw [List.length_take, length_bytesLe] at hlength
    omega
  · exact h hgeneration

/-- The state of a session after a frame. -/
theorem after_frame (frame : Frame) : View.after c op .awaiting .read (.ok frame) =
    if Replies c op frame then .answered (frame.2.drop 8) else .broken := rfl

theorem after_foreign {frame : Frame} (h : frame.1 ≠ tagOf op ∨ frame.2.length < 8 ∨
    frame.2.take 8 ≠ bytesLe 8 c.generation) :
    View.after c op .awaiting .read (.ok frame) = .broken := by
  rw [after_frame, if_neg (not_replies h)]

theorem after_own {frame : Frame} (htag : frame.1 = tagOf op)
    (hgeneration : frame.2.take 8 = bytesLe 8 c.generation) :
    View.after c op .awaiting .read (.ok frame) = settled c op (frame.2.drop 8) := by
  rw [after_frame]
  unfold settled
  by_cases hresponse : accepts c op (frame.2.drop 8) = true
  · rw [if_pos hresponse, if_pos ⟨htag, hgeneration, hresponse⟩]
  · rw [if_neg hresponse, if_neg fun h => hresponse h.2.2]

/-- Worker failures and frames with another header break the session, every other frame is judged
by its response. -/
theorem converse_keeps (hwrites : Writes c op) :
    Keeps (monitor c op) (converse (tagOf op) (suffixOf c op))
      (fun response t y => t = c ∧ y = settled c op response) (Failed c) c .ready := by
  refine keeps_get_bind (keeps_ask_bind ⟨hwrites, rfl⟩ fun written => ?_)
  cases written with
  | error writeError =>
    refine keeps_ask_bind trivial fun pending => ?_
    cases Option.bind pending (workerFailure c.generation) with
    | some failure => exact keeps_fail ⟨rfl, rfl⟩
    | none => exact keeps_fail ⟨rfl, rfl⟩
  | ok _ =>
    refine keeps_ask_bind trivial fun answer => ?_
    cases answer with
    | error readError => exact ⟨rfl, rfl⟩
    | ok frame =>
      refine keeps_lift_bind (fun _ hframe => ?_) fun _ herror => nomatch herror
      cases hframe
      by_cases htag : frame.1 = tagOf op
      · rw [workerFailure_none (htag ▸ tagOf_ne op)]
        dsimp only
        by_cases hforeign : frame.1 ≠ tagOf op ∨ frame.2.length < 8 ∨
            frame.2.take 8 ≠ bytesLe 8 c.generation
        · rw [if_pos hforeign]
          exact keeps_fail ⟨rfl, after_foreign hforeign⟩
        · rw [if_neg hforeign]
          rw [not_or, not_or, not_not, not_not] at hforeign
          exact keeps_pure ⟨rfl, after_own htag hforeign.2.2⟩
      · cases workerFailure c.generation frame with
        | some failure => exact keeps_fail ⟨rfl, after_foreign (.inl htag)⟩
        | none =>
          dsimp only
          rw [if_pos (.inl htag)]
          exact keeps_fail ⟨rfl, after_foreign (.inl htag)⟩

/-- What a request leaves behind when it fails. -/
def Terminated (c : Control) : ClientError → Control → View → Prop :=
  fun _ t view => t = { c with closed := true } ∧ view = .broken

theorem exchange_keeps (hwrites : Writes c op) :
    Keeps (monitor c op) (exchange (tagOf op) (suffixOf c op))
      (fun response t y => t = c ∧ y = settled c op response) (Terminated c) c .ready := by
  refine keeps_get_bind ?_
  rw [hwrites.1, if_neg Bool.false_ne_true]
  refine keeps_dropping (converse_keeps hwrites) ?_
  rintro e t y ⟨rfl, rfl⟩
  exact terminal_keeps trivial rfl ⟨rfl, rfl⟩

theorem exchange_closed {tag : UInt8} {suffix : List UInt8} (h : c.closed = true) :
    exchange tag suffix c = .ret (.error (.io "broken pipe"), c) := by
  change (if c.closed = true then clientFail "broken pipe"
    else dropping terminal (converse tag suffix)) c = _
  rw [if_pos h]
  rfl

theorem invalid_keeps {α : Type} {error : IoError} {Q : α → Control → View → Prop}
    {E : ClientError → Control → View → Prop}
    (h : E (.io error) { c with closed := true } .broken) :
    Keeps (monitor c op) (invalid error : Client α) Q E c .broken :=
  keeps_bind (Q := fun _ t y => E (.io error) t y) (terminal_keeps trivial rfl h)
    fun _ _ _ h => keeps_fail h

/-- An operation in an open session: its request and reply, then what it makes of the response. -/
theorem request_keeps {α : Type} {f : List UInt8 → Client α} {Q : α → Control → View → Prop}
    {E : ClientError → Control → View → Prop} (hwrites : Writes c op)
    (hgood : ∀ response, accepts c op response = true →
      Keeps (monitor c op) (f response) Q E c (.answered response))
    (hbad : ∀ response, ¬accepts c op response = true →
      Keeps (monitor c op) (f response) Q E c .broken)
    (hfailed : ∀ e, E e { c with closed := true } .broken) :
    Keeps (monitor c op) (exchange (tagOf op) (suffixOf c op) >>= f) Q E c .ready := by
  refine keeps_bind (E := E) ((exchange_keeps hwrites).mono (fun _ _ _ h => h) ?_) ?_
  · rintro e t y ⟨rfl, rfl⟩
    exact hfailed e
  · rintro response t y ⟨rfl, rfl⟩
    unfold settled
    by_cases hresponse : accepts t op response = true
    · rw [if_pos hresponse]
      exact hgood response hresponse
    · rw [if_neg hresponse]
      exact hbad response hresponse

end Calls

section Operations

variable {c : Control} {op : Operation}

theorem get_bind {α : Type} (f : Control → Client α) : (get >>= f) c = f c c := rfl

theorem decode_foreign {state : NativeState} (h : familyOf state ≠ c.family) :
    ∃ error, decode (encode state) c.family = .error error := by
  cases hdecode : decode (encode state) c.family with
  | error error => exact ⟨error, rfl⟩
  | ok decoded =>
    obtain ⟨hfamily, hbytes⟩ := decode_ok.mp hdecode
    rw [familyOf_eq, ← hbytes, ← familyOf_eq] at hfamily
    exact absurd hfamily h

/-- A state of another family is refused before anything else is looked at. -/
theorem update_foreign {state : NativeState} (h : familyOf state ≠ c.family) :
    AudioWorker.update state c =
      .ret (.error (.io "state belongs to another controller family"), c) := by
  obtain ⟨error, herror⟩ := decode_foreign h
  rw [AudioWorker.update, get_bind, herror]
  rfl

theorem update_exhausted {state : NativeState} (h : familyOf state = c.family)
    (hmax : u64Max < c.sequence + 1) :
    AudioWorker.update state c =
      .ret (.error (.io "worker transaction sequence exhausted"), c) := by
  have hnone : checkedAdd c.sequence 1 = none := if_neg (Nat.not_le_of_lt hmax)
  rw [AudioWorker.update, get_bind, decode_ok.mpr ⟨h, rfl⟩, hnone]
  rfl

theorem update_own {state : NativeState} (h : familyOf state = c.family)
    (hmax : c.sequence + 1 ≤ u64Max) :
    AudioWorker.update state c =
      (exchange 1 (bytesLe 8 (c.sequence + 1) ++ encode state) >>= acknowledged (c.sequence + 1))
        c := by
  have hsome : checkedAdd c.sequence 1 = some (c.sequence + 1) := if_pos hmax
  rw [AudioWorker.update, get_bind, decode_ok.mpr ⟨h, rfl⟩, hsome]

theorem writes_of_open (hother : tagOf op ≠ 1) (h : c.closed = false) : Writes c op := by
  refine ⟨h, fun state hop => ?_⟩
  rw [hop] at hother
  exact absurd rfl hother

theorem closed_of_silent (hother : tagOf op ≠ 1) (h : ¬Writes c op) : c.closed = true := by
  by_contra hopen
  exact h (writes_of_open hother (Bool.eq_false_iff.mpr hopen))

theorem silent (h : ¬Writes c op) : op.run c = .ret (refusal c op, c) := by
  cases op with
  | update state =>
    change (AudioWorker.update state c).bind _ = .ret (if familyOf state ≠ c.family then _
      else if u64Max < c.sequence + 1 then _ else _, c)
    by_cases hfamily : familyOf state = c.family
    · rw [if_neg (not_not.mpr hfamily)]
      by_cases hmax : u64Max < c.sequence + 1
      · rw [if_pos hmax, update_exhausted hfamily hmax]
        rfl
      · rw [if_neg hmax, update_own hfamily (Nat.le_of_not_lt hmax)]
        have hclosed : c.closed = true := by
          by_contra hopen
          refine h ⟨Bool.eq_false_iff.mpr hopen, fun state' hop => ?_⟩
          cases hop
          exact ⟨hfamily, Nat.le_of_not_lt hmax⟩
        change ((exchange _ _ c).bind _).bind _ = _
        rw [exchange_closed hclosed]
        rfl
    · rw [if_pos hfamily, update_foreign hfamily]
      rfl
  | output =>
    change ((exchange _ _ c).bind _).bind _ = _
    rw [exchange_closed (closed_of_silent (by decide) h)]
    rfl
  | diagnostics =>
    change Prog.bind ((if c.closed then pure c.retained else _ : Client (List ℕ)) c) _ = _
    rw [if_pos (closed_of_silent (by decide) h)]
    rfl
  | microphoneConsumedFrames =>
    change ((exchange _ _ c).bind _).bind _ = _
    rw [exchange_closed (closed_of_silent (by decide) h)]
    rfl
  | microphoneHostFrames =>
    change ((exchange _ _ c).bind _).bind _ = _
    rw [exchange_closed (closed_of_silent (by decide) h)]
    rfl
  | maximumPcmPumpLatenessUs =>
    change ((exchange _ _ c).bind _).bind _ = _
    rw [exchange_closed (closed_of_silent (by decide) h)]
    rfl
  | close =>
    change Prog.bind ((if c.closed then pure () else _ : Client Unit) c) _ = _
    rw [if_pos (closed_of_silent (by decide) h)]
    rfl

/-- Results of an operation as a call may end. -/
theorem either_ends (op : Operation) :
    Either (fun r t => Ends c op (.ok r, t)) (fun e t => Ends c op (.error e, t)) = Ends c op := by
  funext ⟨r, t⟩ view
  cases r <;> rfl

theorem ends_terminated (hwrites : Writes c op) (error : ClientError) :
    Ends c op (.error error, { c with closed := true }) .broken := ⟨hwrites, ⟨error, rfl⟩, rfl⟩

/-- An operation that wraps the result of its request. -/
theorem wrapped {α : Type} {f : List UInt8 → Client α} (wrap : α → Returned)
    (hwrites : Writes c op)
    (hgood : ∀ response, accepts c op response = true →
      Keeps (monitor c op) (f response) (fun a t => Ends c op (.ok (wrap a), t))
        (fun e t => Ends c op (.error e, t)) c (.answered response))
    (hbad : ∀ response, ¬accepts c op response = true →
      ∃ error, f response = invalid error) :
    Keeps (monitor c op)
      (exchange (tagOf op) (suffixOf c op) >>= f >>= fun a => pure (wrap a))
      (fun r t => Ends c op (.ok r, t)) (fun e t => Ends c op (.error e, t)) c .ready := by
  refine keeps_bind (request_keeps hwrites hgood (fun response hresponse => ?_) fun e => ?_)
    fun a t y h => keeps_pure h
  · obtain ⟨error, herror⟩ := hbad response hresponse
    rw [herror]
    exact invalid_keeps (ends_terminated hwrites _)
  · exact ends_terminated hwrites e

theorem accepts_update {state : NativeState} {response : List UInt8} :
    accepts c (.update state) response = true ↔ response.length = 9 ∧
      response.take 8 = bytesLe 8 (c.sequence + 1) ∧ response.getD 8 0 ≤ 1 := by
  unfold accepts
  rw [Bool.and_eq_true, Bool.and_eq_true, decide_eq_true_iff, decide_eq_true_iff,
    decide_eq_true_iff, and_assoc]

theorem acknowledged_invalid {response : List UInt8} (h : response.length ≠ 9 ∨
    response.take 8 ≠ bytesLe 8 (c.sequence + 1) ∨ 1 < response.getD 8 0) :
    acknowledged (c.sequence + 1) response = invalid "invalid native-state acknowledgement" :=
  if_pos h

theorem update_keeps {state : NativeState} (hwrites : Writes c (.update state)) :
    Keeps (monitor c (.update state)) (Operation.run (.update state))
      (fun r t => Ends c (.update state) (.ok r, t))
      (fun e t => Ends c (.update state) (.error e, t)) c .ready := by
  obtain ⟨hfamily, hmax⟩ := hwrites.2 state rfl
  unfold Keeps
  change Obeys _ _ ((AudioWorker.update state c).bind _) _
  rw [update_own hfamily hmax]
  refine wrapped (fun _ => .done) hwrites (fun response hresponse => ?_)
    fun response hresponse => ?_
  · obtain ⟨hlength, htake, hbit⟩ := accepts_update.mp hresponse
    unfold acknowledged
    rw [if_neg (not_or.mpr ⟨not_not.mpr hlength, not_or.mpr ⟨not_not.mpr htake,
      UInt8.not_lt.mpr hbit⟩⟩)]
    by_cases hrejected : response.getD 8 0 = 0
    · rw [if_pos hrejected]
      exact keeps_fail (if_pos hrejected).symm
    · rw [if_neg hrejected]
      exact (if_neg hrejected).symm
  · refine ⟨_, acknowledged_invalid ?_⟩
    by_contra hfine
    rw [not_or, not_or, not_not, not_not, UInt8.not_lt] at hfine
    exact hresponse (accepts_update.mpr hfine)

/-- The kinds of responses to a request for an event. -/
theorem reported_cases (response : List UInt8) :
    response = [0] ∨
    (∃ report bytes, response = 1 :: report :: bytes ∧ bytes.length ≤ 240 ∧ reported response =
      pure (some (.hidOutput (if report ≠ 0 then some report else none) bytes))) ∨
    (accepts c .output response = false ∧ reported response = invalid "invalid worker output") := by
  fun_cases reported response with
  | case1 => exact .inl rfl
  | case2 report bytes hlength => exact .inr (.inl ⟨report, bytes, rfl, hlength, rfl⟩)
  | case3 report bytes hlength => exact .inr (.inr ⟨decide_eq_false hlength, rfl⟩)
  | case4 _ hnone hsome =>
    refine .inr (.inr ⟨?_, rfl⟩)
    change reports response = false
    fun_cases reports response with
    | case1 => exact absurd rfl hnone
    | case2 report bytes => exact absurd rfl (hsome report bytes)
    | case3 => rfl

theorem output_keeps (hwrites : Writes c .output) :
    Keeps (monitor c .output) (Operation.run .output)
      (fun r t => Ends c .output (.ok r, t)) (fun e t => Ends c .output (.error e, t)) c .ready := by
  refine wrapped .event hwrites (fun response hresponse => ?_)
    fun response hresponse => ?_
  · obtain rfl | ⟨report, bytes, rfl, _, hreported⟩ | ⟨hbad, _⟩ := @reported_cases c response
    · exact keeps_pure rfl
    · rw [hreported]
      exact keeps_pure rfl
    · rw [hbad] at hresponse
      exact absurd hresponse Bool.false_ne_true
  · obtain rfl | ⟨report, bytes, rfl, hlength, _⟩ | ⟨_, hinvalid⟩ := @reported_cases c response
    · exact absurd rfl hresponse
    · exact absurd (decide_eq_true hlength) hresponse
    · exact ⟨_, hinvalid⟩

theorem diagnostics_keeps (hwrites : Writes c .diagnostics) :
    Keeps (monitor c .diagnostics) (Operation.run .diagnostics)
      (fun r t => Ends c .diagnostics (.ok r, t))
      (fun e t => Ends c .diagnostics (.error e, t)) c .ready := by
  unfold Keeps
  change Obeys _ _ (Prog.bind ((if c.closed then _ else _ : Client (List ℕ)) c) _) _
  rw [hwrites.1, if_neg Bool.false_ne_true]
  refine wrapped .counters hwrites (fun response hresponse => ?_)
    fun response hresponse => ?_
  · rw [if_neg (not_not.mpr (of_decide_eq_true hresponse))]
    exact keeps_get_bind rfl
  · refine ⟨"invalid worker diagnostics", if_pos fun hlength => hresponse ?_⟩
    exact decide_eq_true hlength

theorem microphoneConsumedFrames_keeps (hwrites : Writes c .microphoneConsumedFrames) :
    Keeps (monitor c .microphoneConsumedFrames) (Operation.run .microphoneConsumedFrames)
      (fun r t => Ends c .microphoneConsumedFrames (.ok r, t))
      (fun e t => Ends c .microphoneConsumedFrames (.error e, t)) c .ready := by
  refine wrapped (fun frames => .counters [frames]) hwrites (fun response hresponse => ?_)
    fun response hresponse => ?_
  · rw [if_neg (not_not.mpr (of_decide_eq_true hresponse))]
    exact keeps_pure rfl
  · refine ⟨"invalid microphone credit", if_pos fun hlength => hresponse ?_⟩
    exact decide_eq_true hlength

theorem maximumPcmPumpLatenessUs_keeps (hwrites : Writes c .maximumPcmPumpLatenessUs) :
    Keeps (monitor c .maximumPcmPumpLatenessUs) (Operation.run .maximumPcmPumpLatenessUs)
      (fun r t => Ends c .maximumPcmPumpLatenessUs (.ok r, t))
      (fun e t => Ends c .maximumPcmPumpLatenessUs (.error e, t)) c .ready := by
  refine wrapped (fun lateness => .counters [lateness]) hwrites
    (fun response hresponse => ?_) fun response hresponse => ?_
  · rw [if_neg (not_not.mpr (of_decide_eq_true hresponse))]
    exact keeps_pure rfl
  · refine ⟨"invalid PCM pump timing reply", if_pos fun hlength => hresponse ?_⟩
    exact decide_eq_true hlength

theorem accepts_frames {response : List UInt8} :
    accepts c .microphoneHostFrames response = true ↔ response.length = 16 ∧
      ofBytesLe (response.drop 8) ≤ ofBytesLe (response.take 8) := by
  unfold accepts
  rw [Bool.and_eq_true, decide_eq_true_iff, decide_eq_true_iff]

theorem microphoneHostFrames_keeps (hwrites : Writes c .microphoneHostFrames) :
    Keeps (monitor c .microphoneHostFrames) (Operation.run .microphoneHostFrames)
      (fun r t => Ends c .microphoneHostFrames (.ok r, t))
      (fun e t => Ends c .microphoneHostFrames (.error e, t)) c .ready := by
  refine wrapped (fun frames : ℕ × ℕ => .counters [frames.1, frames.2]) hwrites
    (fun response hresponse => ?_) fun response hresponse => ?_
  · obtain ⟨hlength, hsilence⟩ := accepts_frames.mp hresponse
    rw [if_neg (not_not.mpr hlength), if_neg (Nat.not_lt_of_le hsilence)]
    exact keeps_pure rfl
  · by_cases hlength : response.length = 16
    · rw [if_neg (not_not.mpr hlength)]
      refine ⟨"microphone silence exceeds host frames", if_pos ?_⟩
      by_contra hsilence
      exact hresponse (accepts_frames.mpr ⟨hlength, Nat.le_of_not_lt hsilence⟩)
    · exact ⟨"invalid microphone host-frame reply", if_pos hlength⟩

theorem close_keeps (hwrites : Writes c .close) :
    Keeps (monitor c .close) (Operation.run .close)
      (fun r t => Ends c .close (.ok r, t)) (fun e t => Ends c .close (.error e, t)) c .ready := by
  unfold Keeps
  change Obeys _ _ (Prog.bind ((if c.closed then _ else _ : Client Unit) c) _) _
  rw [hwrites.1, if_neg Bool.false_ne_true]
  have hrequest : Keeps (monitor c .close) (do
      let response ← exchange 4 []
      if response ≠ [] then clientFail "invalid worker close acknowledgement")
      (fun _ t y => t = c ∧ y = .answered [])
      (fun _ t y => { t with closed := true } = { c with closed := true } ∧ y = .broken)
      c .ready := by
    refine request_keeps hwrites (fun response hresponse => ?_) (fun response hresponse => ?_)
      fun e => ⟨rfl, rfl⟩
    · obtain rfl : response = [] := of_decide_eq_true hresponse
      exact keeps_pure ⟨rfl, rfl⟩
    · rw [if_pos fun hempty => hresponse (decide_eq_true hempty)]
      exact keeps_fail ⟨rfl, rfl⟩
  refine keeps_bind (Q := fun _ t y => Ends c .close (.ok .done, t) y) ?_ fun _ _ _ h => h
  refine keeps_bind (keeps_dropping hrequest ?_) ?_
  · rintro e t y ⟨hclosed, rfl⟩
    refine terminal_keeps trivial rfl ?_
    rw [hclosed]
    exact ends_terminated hwrites e
  · rintro _ t y ⟨rfl, rfl⟩
    exact terminal_keeps rfl rfl rfl

/-- Every call obeys the contract, whatever its peer answers. -/
theorem obeys (c : Control) (op : Operation) :
    Obeys (monitor c op) (Ends c op) (op.run c) .ready := by
  by_cases hwrites : Writes c op
  · rw [← either_ends]
    cases op with
    | update state => exact update_keeps hwrites
    | output => exact output_keeps hwrites
    | diagnostics => exact diagnostics_keeps hwrites
    | microphoneConsumedFrames => exact microphoneConsumedFrames_keeps hwrites
    | microphoneHostFrames => exact microphoneHostFrames_keeps hwrites
    | maximumPcmPumpLatenessUs => exact maximumPcmPumpLatenessUs_keeps hwrites
    | close => exact close_keeps hwrites
  · rw [silent hwrites]
    exact ⟨hwrites, rfl⟩

end Operations

section Sessions

variable {c d e : Control} {op : Operation} {view : View} {log : Log ClientCall ClientAnswer}
variable {result : Except ClientError Returned}

/-- One call of a session: the control it started with, what it asked and what it returned. -/
structure Entry where
  control : Control
  operation : Operation
  log : Log ClientCall ClientAnswer
  result : Except ClientError Returned

/-- Calls one after the other, against a peer that answers as it likes. -/
inductive Session (c : Control) : List Entry → Control → Prop where
  | new : Session c [] c
  | call {entries : List Entry} {d e : Control} {op : Operation}
      {log : Log ClientCall ClientAnswer} {result : Except ClientError Returned} :
      Session c entries d → Run (op.run d) log (.ret (result, e)) →
      Session c (entries ++ [⟨d, op, log, result⟩]) e

/-- The peer's answer to the request was something else than a reply to it. -/
def Entry.Refused (entry : Entry) : Prop :=
  ∃ answer : Except IoError Frame, ⟨.read, answer⟩ ∈ entry.log ∧
    ∀ frame, answer = .ok frame → ¬Replies entry.control entry.operation frame

theorem not_replies_failure {frame : Frame} (h : frame.1 = 0x81) : ¬Replies c op frame :=
  not_replies (.inl (h ▸ (tagOf_ne op).symm))

theorem ends_of_run (h : Run (op.run c) log (.ret (result, d))) :
    Ends c op (result, d) ((monitor c op).state .ready log) := (obeys c op).run h

theorem broken_state (log : Log ClientCall ClientAnswer) :
    (monitor c op).state .broken log = .broken := by
  induction log with
  | nil => rfl
  | cons head rest ih => exact ih

theorem awaiting_of_read (h : (monitor c op).allows view .read) : view = .awaiting := by
  cases view with
  | awaiting => rfl
  | ready => exact h.elim
  | answered response => exact h.elim
  | broken => exact h.elim

/-- An answer that is no reply ends the call with an error and closes the session. -/
theorem refused_closes {answer : Except IoError Frame}
    (h : Run (op.run c) log (.ret (result, d))) (hread : ⟨.read, answer⟩ ∈ log)
    (hbad : ∀ frame, answer = .ok frame → ¬Replies c op frame) :
    (∃ error, result = .error error) ∧ d = { c with closed := true } := by
  have hends := ends_of_run h
  obtain ⟨before, after, rfl⟩ := List.append_of_mem hread
  have hawaiting := awaiting_of_read ((obeys c op).allowed h)
  unfold Monitor.state at hends hawaiting
  rw [List.foldl_append, hawaiting, List.foldl_cons] at hends
  have hbroken : View.after c op .awaiting .read answer = .broken := by
    cases answer with
    | error readError => rfl
    | ok frame => rw [after_frame, if_neg (hbad frame rfl)]
  change Ends c op (result, d)
    ((monitor c op).state (View.after c op .awaiting .read answer) after) at hends
  rw [hbroken, broken_state] at hends
  exact hends.2

/-- Nothing is asked in a closed session, and it stays closed. -/
theorem closed_silent (hclosed : c.closed = true) (h : Run (op.run c) log (.ret (result, d))) :
    log = [] ∧ d = c := by
  rw [silent fun hwrites => Bool.false_ne_true (hwrites.1.symm.trans hclosed)] at h
  cases h
  exact ⟨rfl, rfl⟩

/-- The session is closed at once and for good, and no later call writes anything. -/
theorem Session.refused {before after : List Entry} {entry : Entry}
    (h : Session c (before ++ entry :: after) d) (hrefused : entry.Refused) :
    (∃ error, entry.result = .error error) ∧ d = { entry.control with closed := true } ∧
      ∀ later ∈ after, later.log = [] := by
  generalize hentries : before ++ entry :: after = entries at h
  induction h generalizing after with
  | new => exact absurd hentries (List.append_ne_nil_of_right_ne_nil _ (List.cons_ne_nil _ _))
  | call _ hrun ih =>
    rcases List.eq_nil_or_concat after with rfl | ⟨init, last, rfl⟩
    · obtain ⟨_, hlast⟩ := List.append_inj' hentries rfl
      cases hlast
      obtain ⟨answer, hread, hbad⟩ := hrefused
      obtain ⟨herror, hclosed⟩ := refused_closes hrun hread hbad
      exact ⟨herror, hclosed, fun _ hlater => nomatch hlater⟩
    · rw [List.concat_eq_append, ← List.cons_append, ← List.append_assoc] at hentries
      obtain ⟨hinit, hlast⟩ := List.append_inj' hentries rfl
      obtain ⟨herror, rfl, hsilent⟩ := ih hinit
      cases hlast
      obtain ⟨rfl, rfl⟩ := closed_silent rfl hrun
      refine ⟨herror, rfl, fun later hlater => ?_⟩
      rw [List.concat_eq_append] at hlater
      rcases List.mem_append.mp hlater with hlater | hlater
      · exact hsilent later hlater
      · rw [List.mem_singleton.mp hlater]

end Sessions

end AudioWorkerClient
