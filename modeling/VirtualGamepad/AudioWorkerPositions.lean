import VirtualGamepad.AudioWorkerSystem

/-! Where the one request of a call is, what its reply will be, and where each call of client or
loop moves it. The transaction log is ahead of the client only while a reply is on its way. -/
namespace AudioWorkerPositions

open AudioWorker AudioWorkerClient AudioWorkerLoop AudioWorkerSystem ControllerContract Dialogue
open HidRuntime MachineInt WireBytes
open NativeState hiding bit

section Replies

variable {c : Control} {op : Operation}

/-- The state an operation asks the worker to apply. -/
def sentBy : Operation → List NativeState
  | .update state => [state]
  | _ => []

/-- A reply after which the call succeeds, with the event it returns. -/
def Answers (c : Control) (op : Operation) (reply : Frame) (event : Option RawReverseEvent) :
    Prop :=
  Writes c op ∧ Replies c op reply ∧ ∃ r, (outcome c op (reply.2.drop 8)).1 = .ok r ∧
    eventOf (op, .ok r) = event

/-- An output report a control reply can carry: report 0 is written for a report without id. -/
def Fine : RawReverseEvent → Prop
  | .hidOutput id bytes => id ≠ some 0 ∧ bytes.length ≤ 240
  | _ => False

theorem take_header (n : ℕ) (rest : List UInt8) : (bytesLe 8 n ++ rest).take 8 = bytesLe 8 n :=
  List.take_left' (length_bytesLe ..)

theorem drop_header (n : ℕ) (rest : List UInt8) : (bytesLe 8 n ++ rest).drop 8 = rest :=
  List.drop_left' (length_bytesLe ..)

theorem ofBytesLe_bytesLe_eight {n : ℕ} (h : n ≤ u64Max) : ofBytesLe (bytesLe 8 n) = n :=
  ofBytesLe_bytesLe (Nat.lt_of_le_of_lt h (by decide))

/-- A reply with the header of its request is judged by its response. -/
theorem answers_of_response {response : List UInt8} {event : Option RawReverseEvent}
    {r : Returned} (hwrites : Writes c op) (haccepts : accepts c op response = true)
    (hresult : (outcome c op response).1 = .ok r) (hevent : eventOf (op, .ok r) = event) :
    Answers c op (tagOf op, bytesLe 8 c.generation ++ response) event := by
  refine ⟨hwrites, ⟨rfl, take_header .., ?_⟩, r, ?_, hevent⟩
  · change accepts c op ((bytesLe 8 c.generation ++ response).drop 8) = true
    rw [drop_header]
    exact haccepts
  · change (outcome c op ((bytesLe 8 c.generation ++ response).drop 8)).1 = _
    rw [drop_header]
    exact hresult

theorem take_request (state : NativeState) :
    (frameOf c (.update state)).2.take 16 =
      bytesLe 8 c.generation ++ bytesLe 8 (c.sequence + 1) := by
  change (bytesLe 8 c.generation ++ (bytesLe 8 (c.sequence + 1) ++ encode state)).take 16 = _
  rw [← List.append_assoc]
  refine List.take_left' ?_
  rw [List.length_append, length_bytesLe, length_bytesLe]

theorem outcome_update {state : NativeState} {response : List UInt8}
    (h : ¬response.getD 8 0 = 0) : outcome c (.update state) response =
      (.ok .done, { c with sequence := c.sequence + 1 }) := if_neg h

theorem answers_update {state : NativeState} (hwrites : Writes c (.update state)) :
    Answers c (.update state) (1, (frameOf c (.update state)).2.take 16 ++ [bit true]) none := by
  rw [take_request, List.append_assoc]
  have hbit : (bytesLe 8 (c.sequence + 1) ++ [bit true]).getD 8 0 = 1 := by
    rw [List.getD_eq_getElem?_getD, List.getElem?_append_right (length_bytesLe ..).le,
      length_bytesLe]
    rfl
  refine answers_of_response (r := .done) hwrites (accepts_update.mpr ⟨?_, take_header .., ?_⟩) ?_
    rfl
  · rw [List.length_append, length_bytesLe]
    rfl
  · rw [hbit]
    decide
  · have hnonzero : ¬(bytesLe 8 (c.sequence + 1) ++ [bit true]).getD 8 0 = 0 := by
      rw [hbit]
      decide
    rw [outcome_update hnonzero]

theorem answers_event {id : Option UInt8} {bytes : List UInt8} (hwrites : Writes c .output)
    (hfine : Fine (.hidOutput id bytes)) :
    Answers c .output (2, bytesLe 8 c.generation ++ 1 :: id.getD 0 :: bytes)
      (some (.hidOutput id bytes)) := by
  have hid : (if id.getD 0 ≠ 0 then some (id.getD 0) else none) = id := by
    cases id with
    | none => rfl
    | some report => exact if_pos fun hzero => hfine.1 (congrArg some hzero)
  refine answers_of_response hwrites (decide_eq_true hfine.2) rfl ?_
  change some (RawReverseEvent.hidOutput (if id.getD 0 ≠ 0 then _ else _) bytes) = _
  rw [hid]

theorem answers_empty (hwrites : Writes c .output) :
    Answers c .output (2, bytesLe 8 c.generation ++ [0]) none :=
  answers_of_response hwrites rfl rfl rfl

theorem answers_close (hwrites : Writes c .close) :
    Answers c .close (4, bytesLe 8 c.generation) none := by
  have hanswers : Answers c .close (4, bytesLe 8 c.generation ++ []) none :=
    answers_of_response hwrites rfl rfl rfl
  rw [List.append_nil] at hanswers
  exact hanswers

theorem length_counters (fields : List ℕ) : (counters fields).length = 8 * fields.length := by
  induction fields with
  | nil => rfl
  | cons field rest ih =>
    change (bytesLe 8 field ++ counters rest).length = _
    rw [List.length_append, length_bytesLe, ih, List.length_cons]
    omega

theorem answers_stats (stats : Stats) (hwrites : Writes c op)
    (htag : tagOf op = 3 ∨ tagOf op = 5 ∨ tagOf op = 6 ∨ tagOf op = 7) :
    Answers c op (statsReply c.generation (tagOf op) stats) none := by
  have hlength := length_counters (statsFields (tagOf op) stats)
  cases op with
  | diagnostics =>
    have haccepts : accepts c .diagnostics (counters (statsFields 3 stats)) = true :=
      decide_eq_true hlength
    exact answers_of_response hwrites haccepts rfl rfl
  | microphoneConsumedFrames =>
    have haccepts : accepts c .microphoneConsumedFrames (counters (statsFields 5 stats)) = true :=
      decide_eq_true hlength
    exact answers_of_response hwrites haccepts rfl rfl
  | maximumPcmPumpLatenessUs =>
    have haccepts : accepts c .maximumPcmPumpLatenessUs (counters (statsFields 6 stats)) = true :=
      decide_eq_true hlength
    exact answers_of_response hwrites haccepts rfl rfl
  | microphoneHostFrames =>
    have hfields : counters (statsFields 7 stats) = bytesLe 8 stats.microphoneHostFrames ++
        (bytesLe 8 stats.microphoneSilenceFrames ++ []) := rfl
    have haccepts : accepts c .microphoneHostFrames (counters (statsFields 7 stats)) = true := by
      refine accepts_frames.mpr ⟨hlength, ?_⟩
      rw [hfields, take_header, drop_header, List.append_nil,
        ofBytesLe_bytesLe_eight stats.host_le_max,
        ofBytesLe_bytesLe_eight (stats.silence_le_host.trans stats.host_le_max)]
      exact stats.silence_le_host
    exact answers_of_response hwrites haccepts rfl rfl
  | update state =>
    change (1 : UInt8) = 3 ∨ (1 : UInt8) = 5 ∨ (1 : UInt8) = 6 ∨ (1 : UInt8) = 7 at htag
    exact absurd htag (by decide)
  | output => exact absurd htag (by decide)
  | close => exact absurd htag (by decide)

/-- What an answered call does to the client. -/
structure Succeeds (c : Control) (op : Operation) (event : Option RawReverseEvent)
    (result : Except ClientError Returned × Control) : Prop where
  returned : ∃ r, result.1 = .ok r
  event : eventOf (op, result.1) = event
  generation : result.2.generation = c.generation
  family : result.2.family = c.family
  sequence : result.2.sequence = c.sequence + (sentBy op).length
  closed : result.2.closed = true ↔ op = .close
  done : ∀ state, op = .update state → result.1 = .ok .done

theorem outcome_output (response : List UInt8) : (outcome c .output response).2 = c := by
  rcases response with _ | ⟨first, _ | ⟨second, rest⟩⟩
  · rfl
  · simp [outcome]
  · by_cases hfirst : first = 1
    · rw [hfirst]
      rfl
    · simp [outcome, hfirst]

theorem Answers.succeeds {reply : Frame} {event : Option RawReverseEvent}
    (h : Answers c op reply event) : Succeeds c op event (outcome c op (reply.2.drop 8)) := by
  obtain ⟨hwrites, _, r, hresult, hevent⟩ := h
  have hopen : op ≠ .close → (c.closed = true ↔ op = .close) := fun hclose =>
    ⟨fun hclosed => absurd (hwrites.1.symm.trans hclosed) Bool.false_ne_true,
      fun hop => absurd hop hclose⟩
  have hreturned : eventOf (op, (outcome c op (reply.2.drop 8)).1) = event := hresult ▸ hevent
  generalize reply.2.drop 8 = response at hresult hreturned ⊢
  cases op with
  | update state =>
    by_cases hzero : response.getD 8 0 = 0
    · have hrejected : outcome c (.update state) response =
        (.error (.io "worker rejected native state"), c) := if_pos hzero
      rw [hrejected] at hresult
      cases hresult
    · rw [outcome_update hzero] at hreturned ⊢
      exact ⟨⟨_, rfl⟩, hreturned, rfl, rfl, rfl, hopen nofun, fun _ _ => rfl⟩
  | output =>
    have hsame := @outcome_output c response
    exact ⟨⟨r, hresult⟩, hreturned, congrArg Control.generation hsame,
      congrArg Control.family hsame, congrArg Control.sequence hsame, hsame.symm ▸ hopen nofun,
      nofun⟩
  | close => exact ⟨⟨r, hresult⟩, hreturned, rfl, rfl, rfl, ⟨fun _ => rfl, fun _ => rfl⟩, nofun⟩
  | _ => exact ⟨⟨r, hresult⟩, hreturned, rfl, rfl, rfl, hopen nofun, nofun⟩

end Replies

section Positions

/-- Between calls, or in a call that has not asked yet or that failed. -/
inductive Idle : Option (Operation × View) → Prop where
  | none : Idle none
  | ready (op : Operation) : Idle (some (op, .ready))
  | broken (op : Operation) : Idle (some (op, .broken))

/-- The loop is on its way out and answers nothing any more. -/
def Leaving : Stage → Prop
  | .failing | .reporting | .parting | .gone => True
  | _ => False

/-- After its reply the loop listens again, or it is leaving and only failures follow. -/
def Onward (op : Operation) (stage : Stage) (failures : List Frame) : Prop :=
  (stage = .listening ∧ failures = [] ∧ op ≠ .close) ∨
    (Leaving stage ∧ ∀ frame ∈ failures, frame.1 = 0x81)

/-- Where the request of a call and its reply are. The last two indices are the state the log has
applied and the event it has given away, for a reply the client has not seen yet. -/
inductive Position (c : Control) (usbEnded : Bool) : Option (Operation × View) → Stage →
    List Frame → List Frame → List Transactions.Message → List (ℕ × Bool) → List NativeState →
    Option RawReverseEvent → Prop where
  | idle {client : Option (Operation × View)} : Idle client →
      Position c usbEnded client .listening [] [] [] [] [] none
  | requested {op : Operation} : Writes c op →
      Position c usbEnded (some (op, .awaiting)) .listening [frameOf c op] [] [] [] [] none
  | heard {op : Operation} : Writes c op →
      Position c usbEnded (some (op, .awaiting)) (.heard (frameOf c op)) [] [] [] [] [] none
  | handed {state : NativeState} : Writes c (.update state) →
      Position c usbEnded (some (.update state, .awaiting)) (.handed (frameOf c (.update state)))
        [] [] [⟨c.generation, c.sequence + 1, encode state⟩] [] [] none
  | acknowledged {state : NativeState} : Writes c (.update state) →
      Position c usbEnded (some (.update state, .awaiting)) (.handed (frameOf c (.update state)))
        [] [] [] [(c.sequence + 1, true)] [state] none
  | replying {op : Operation} {reply : Frame} {event : Option RawReverseEvent} : op ≠ .close →
      Answers c op reply event →
      Position c usbEnded (some (op, .awaiting)) (.replying reply) [] [] [] [] (sentBy op) event
  | closing : Writes c .close →
      Position c usbEnded (some (.close, .awaiting)) .closing [] [] [] [] [] none
  | replied {op : Operation} {stage : Stage} {reply : Frame} {failures : List Frame}
      {event : Option RawReverseEvent} : Answers c op reply event → Onward op stage failures →
      Position c usbEnded (some (op, .awaiting)) stage [] (reply :: failures) [] [] (sentBy op)
        event
  | answered {op : Operation} {stage : Stage} {reply : Frame} {failures : List Frame}
      {event : Option RawReverseEvent} : Answers c op reply event → Onward op stage failures →
      Position c usbEnded (some (op, .answered (reply.2.drop 8))) stage [] failures [] []
        (sentBy op) event
  | left {client : Option (Operation × View)} {stage : Stage} {toWorker failures : List Frame}
      {updates : List Transactions.Message} :
      (Idle client ∨ ∃ op, Writes c op ∧ client = some (op, .awaiting)) → Leaving stage →
      (∀ frame ∈ failures, frame.1 = 0x81) → (updates = [] ∨ usbEnded = true) →
      Position c usbEnded client stage toWorker failures updates [] [] none

/-- The call of the client has ended its session. -/
def Over : Option (Operation × View) → Prop
  | some (_, .broken) => True
  | some (op, .answered _) => op = .close
  | _ => False

end Positions

section ClientMoves

variable {c : Control} {usbEnded : Bool} {op : Operation} {stage : Stage} {frame : Frame}
variable {toWorker toClient rest : List Frame} {updates : List Transactions.Message}
variable {acks : List (ℕ × Bool)} {ahead : List NativeState} {event : Option RawReverseEvent}
variable {client : Option (Operation × View)}

theorem Position.sent
    (h : Position c usbEnded (some (op, .ready)) stage toWorker toClient updates acks ahead event)
    (hwrites : Writes c op) :
    Position c usbEnded (some (op, .awaiting)) stage (toWorker ++ [frameOf c op]) toClient updates
      acks ahead event := by
  cases h with
  | idle _ => exact .requested hwrites
  | left _ hleaving hfailures hupdates =>
    exact .left (.inr ⟨op, hwrites, rfl⟩) hleaving hfailures hupdates

theorem Position.idling {c' : Control} {client' : Option (Operation × View)}
    (h : Position c usbEnded client stage toWorker toClient updates acks ahead event)
    (hidle : Idle client) (hidle' : Idle client') :
    Position c' usbEnded client' stage toWorker toClient updates acks ahead event := by
  cases h with
  | idle _ => exact .idle hidle'
  | left _ hleaving hfailures hupdates => exact .left (.inl hidle') hleaving hfailures hupdates
  | _ => cases hidle

theorem Answers.after {reply : Frame} (h : Answers c op reply event) :
    View.after c op .awaiting .read (.ok reply) = .answered (reply.2.drop 8) := if_pos h.2.1

/-- The first frame for a waiting client is the reply to its request, or a failure. -/
theorem Position.received (h : Position c usbEnded (some (op, .awaiting)) stage toWorker
      (frame :: rest) updates acks ahead event) :
    Position c usbEnded (some (op, View.after c op .awaiting .read (.ok frame))) stage toWorker
        rest updates acks ahead event ∧
      (View.after c op .awaiting .read (.ok frame) = .broken → Leaving stage) := by
  generalize hqueue : frame :: rest = queue at h
  cases h with
  | replied hanswers honward =>
    obtain ⟨rfl, rfl⟩ := List.cons.inj hqueue
    rw [hanswers.after]
    exact ⟨.answered hanswers honward, fun hbroken => nomatch hbroken⟩
  | left _ hleaving hfailures hupdates =>
    subst hqueue
    have hfailure : ¬Replies c op frame :=
      not_replies_failure (hfailures frame (List.mem_cons_self ..))
    have hbroken : View.after c op .awaiting .read (.ok frame) = .broken := if_neg hfailure
    rw [hbroken]
    exact ⟨.left (.inl (.broken op)) hleaving
      (fun later hlater => hfailures later (List.mem_cons_of_mem _ hlater)) hupdates,
      fun _ => hleaving⟩
  | idle hidle => cases hidle
  | _ => cases hqueue

/-- A client that waits for a reply in vain. -/
theorem Position.unreceived
    (h : Position c usbEnded (some (op, .awaiting)) .gone toWorker [] updates acks ahead event) :
    Position c usbEnded (some (op, .broken)) .gone toWorker [] updates acks ahead event := by
  cases h with
  | left _ hleaving hfailures hupdates =>
    exact .left (.inl (.broken op)) hleaving hfailures hupdates

theorem Position.pending (h : Position c usbEnded (some (op, .broken)) stage toWorker
      (frame :: rest) updates acks ahead event) :
    Position c usbEnded (some (op, .broken)) stage toWorker rest updates acks ahead event := by
  cases h with
  | left hclient hleaving hfailures hupdates =>
    exact .left hclient hleaving
      (fun later hlater => hfailures later (List.mem_cons_of_mem _ hlater)) hupdates

/-- Where a call is at its end, the next one begins. -/
theorem Position.returned {c' : Control} {response : List UInt8}
    (h : Position c usbEnded (some (op, .answered response)) stage toWorker toClient updates acks
      ahead event) : Position c' usbEnded none stage toWorker toClient updates acks [] none := by
  cases h with
  | answered _ honward =>
    rcases honward with ⟨rfl, rfl, _⟩ | ⟨hleaving, hfailures⟩
    · exact .idle .none
    · exact .left (.inl .none) hleaving hfailures (.inl rfl)
  | idle hidle => cases hidle
  | left hclient _ _ _ =>
    rcases hclient with hidle | ⟨_, _, hclient⟩
    · cases hidle
    · cases hclient

end ClientMoves

section LoopMoves

variable {c : Control} {usbEnded : Bool} {stage : Stage} {frame : Frame}
variable {toWorker toClient later : List Frame} {updates : List Transactions.Message}
variable {acks : List (ℕ × Bool)} {ahead : List NativeState} {event : Option RawReverseEvent}
variable {client : Option (Operation × View)}

theorem proper_frameOf {op : Operation} (hwrites : Writes c op) :
    Proper c.generation (frameOf c op) := by
  have hlength : (frameOf c op).2.length = 8 + (suffixOf c op).length := by
    change (bytesLe 8 c.generation ++ suffixOf c op).length = _
    rw [List.length_append, length_bytesLe]
  refine ⟨hlength ▸ Nat.le_add_right .., take_header .., ?_⟩
  rw [hlength]
  cases op with
  | update state =>
    have hlow := NativeState.one_lt_encode state
    have hhigh := NativeState.encode_le state
    change _ ∧ 17 ≤ 8 + (bytesLe 8 _ ++ encode state).length ∧
      8 + (bytesLe 8 _ ++ encode state).length ≤ 144 ∨ _
    rw [List.length_append, length_bytesLe]
    exact .inl ⟨rfl, by omega, by omega⟩
  | output => exact .inr ⟨(by decide : (2 : UInt8) ≤ 2 ∧ (2 : UInt8) ≤ 7), rfl⟩
  | diagnostics => exact .inr ⟨(by decide : (2 : UInt8) ≤ 3 ∧ (3 : UInt8) ≤ 7), rfl⟩
  | microphoneConsumedFrames => exact .inr ⟨(by decide : (2 : UInt8) ≤ 5 ∧ (5 : UInt8) ≤ 7), rfl⟩
  | microphoneHostFrames => exact .inr ⟨(by decide : (2 : UInt8) ≤ 7 ∧ (7 : UInt8) ≤ 7), rfl⟩
  | maximumPcmPumpLatenessUs => exact .inr ⟨(by decide : (2 : UInt8) ≤ 6 ∧ (6 : UInt8) ≤ 7), rfl⟩
  | close => exact .inr ⟨(by decide : (2 : UInt8) ≤ 4 ∧ (4 : UInt8) ≤ 7), rfl⟩

theorem messageOf_frameOf {state : NativeState} (hwrites : Writes c (.update state)) :
    messageOf c.generation (frameOf c (.update state)) =
      ⟨c.generation, c.sequence + 1, encode state⟩ := by
  have hdrop : (frameOf c (.update state)).2.drop 8 =
      bytesLe 8 (c.sequence + 1) ++ encode state := drop_header ..
  unfold messageOf sequenceOf
  rw [hdrop, take_header, ofBytesLe_bytesLe_eight (hwrites.2 state rfl).2,
    show (16 : ℕ) = 8 + 8 from rfl, ← List.drop_drop, hdrop, drop_header]

theorem sequenceOf_frameOf {state : NativeState} (hwrites : Writes c (.update state)) :
    sequenceOf (frameOf c (.update state)) = c.sequence + 1 :=
  congrArg Transactions.Message.sequence (messageOf_frameOf hwrites)

/-- A listening loop hears the request of the call. -/
theorem Position.hears (h : Position c usbEnded client .listening (frame :: later) toClient updates
      acks ahead event) :
    Stage.after c.generation .listening .read (.ok frame) = .heard frame ∧
      Position c usbEnded client (.heard frame) later toClient updates acks ahead event := by
  generalize hqueue : frame :: later = queue at h
  cases h with
  | requested hwrites =>
    obtain ⟨rfl, rfl⟩ := List.cons.inj hqueue
    exact ⟨if_pos (proper_frameOf hwrites), .heard hwrites⟩
  | left _ hleaving _ _ => exact hleaving.elim
  | _ => cases hqueue

theorem Position.leaves (h : Position c usbEnded client .listening toWorker toClient updates acks
      ahead event) :
    Position c usbEnded client .failing toWorker toClient updates acks ahead event := by
  cases h with
  | idle hidle => exact .left (.inl hidle) trivial (fun _ hframe => nomatch hframe) (.inl rfl)
  | requested hwrites =>
    exact .left (.inr ⟨_, hwrites, rfl⟩) trivial (fun _ hframe => nomatch hframe) (.inl rfl)
  | replied hanswers honward =>
    refine .replied hanswers (.inr ⟨trivial, fun frame hframe => ?_⟩)
    obtain ⟨_, rfl, _⟩ | ⟨_, hfailures⟩ := honward
    · nomatch hframe
    · exact hfailures frame hframe
  | answered hanswers honward =>
    refine .answered hanswers (.inr ⟨trivial, fun frame hframe => ?_⟩)
    obtain ⟨_, rfl, _⟩ | ⟨_, hfailures⟩ := honward
    · nomatch hframe
    · exact hfailures frame hframe
  | left _ hleaving _ _ => exact hleaving.elim

/-- A reply that is written reaches the queue of the client. -/
theorem Position.replies {reply : Frame} (h : Position c usbEnded client (.replying reply) toWorker
      toClient updates acks ahead event) :
    Position c usbEnded client .listening toWorker (toClient ++ [reply]) updates acks ahead
      event := by
  cases h with
  | replying hclose hanswers => exact .replied hanswers (.inl ⟨rfl, rfl, hclose⟩)
  | replied _ honward => exact honward.elim (fun h => nomatch h.1) fun h => h.1.elim
  | answered _ honward => exact honward.elim (fun h => nomatch h.1) fun h => h.1.elim
  | left _ hleaving _ _ => exact hleaving.elim

theorem Position.closes (h : Position c usbEnded client .closing toWorker toClient updates acks
      ahead event) :
    Position c usbEnded client .parting toWorker (toClient ++ [(4, bytesLe 8 c.generation)])
      updates acks ahead event := by
  cases h with
  | closing hwrites =>
    exact .replied (answers_close hwrites) (.inr ⟨trivial, fun _ hframe => nomatch hframe⟩)
  | replied _ honward => exact honward.elim (fun h => nomatch h.1) fun h => h.1.elim
  | answered _ honward => exact honward.elim (fun h => nomatch h.1) fun h => h.1.elim
  | left _ hleaving _ _ => exact hleaving.elim

/-- On its way out the loop goes on, and writes nothing but failures. -/
theorem Position.departs {stage' : Stage} {failures : List Frame}
    (h : Position c usbEnded client stage toWorker toClient updates acks ahead event)
    (hleaving : Leaving stage) (hleaving' : Leaving stage')
    (hfailures : ∀ frame ∈ failures, frame.1 = 0x81) :
    Position c usbEnded client stage' toWorker (toClient ++ failures) updates acks ahead event := by
  have happend : ∀ {earlier : List Frame}, (∀ frame ∈ earlier, frame.1 = 0x81) →
      ∀ frame ∈ earlier ++ failures, frame.1 = 0x81 := fun hearlier frame hframe =>
    (List.mem_append.mp hframe).elim (hearlier frame) (hfailures frame)
  cases h with
  | replied hanswers honward =>
    refine .replied hanswers (.inr ⟨hleaving', happend ?_⟩)
    exact honward.elim (fun h => h.2.1 ▸ fun _ hframe => nomatch hframe) fun h => h.2
  | answered hanswers honward =>
    refine .answered hanswers (.inr ⟨hleaving', happend ?_⟩)
    exact honward.elim (fun h => h.2.1 ▸ fun _ hframe => nomatch hframe) fun h => h.2
  | left hclient _ hearlier hupdates =>
    exact .left hclient hleaving' (happend hearlier) hupdates
  | _ => exact hleaving.elim

/-- A request that was heard is the one of the call. -/
theorem Position.heard_cases (h : Position c usbEnded client (.heard frame) toWorker toClient
      updates acks ahead event) :
    ∃ op, Writes c op ∧ frame = frameOf c op ∧ client = some (op, .awaiting) ∧ toWorker = [] ∧
      toClient = [] ∧ updates = [] ∧ acks = [] ∧ ahead = [] ∧ event = none := by
  cases h with
  | heard hwrites => exact ⟨_, hwrites, rfl, rfl, rfl, rfl, rfl, rfl, rfl, rfl⟩
  | replied _ honward => exact honward.elim (fun h => nomatch h.1) fun h => h.1.elim
  | answered _ honward => exact honward.elim (fun h => nomatch h.1) fun h => h.1.elim
  | left _ hleaving _ _ => exact hleaving.elim

theorem update_of_tag {op : Operation} (h : tagOf op = 1) : ∃ state, op = .update state := by
  cases op with
  | update state => exact ⟨state, rfl⟩
  | _ => exact absurd h (by decide)

theorem output_of_tag {op : Operation} (h : tagOf op = 2) : op = .output := by
  cases op with
  | update state => exact absurd (show (1 : UInt8) = 2 from h) (by decide)
  | output => rfl
  | _ => exact absurd h (by decide)

theorem close_of_tag {op : Operation} (h : tagOf op = 4) : op = .close := by
  cases op with
  | update state => exact absurd (show (1 : UInt8) = 4 from h) (by decide)
  | close => rfl
  | _ => exact absurd h (by decide)

theorem Position.hands {message : Transactions.Message}
    (h : Position c usbEnded client (.heard frame) toWorker toClient updates acks ahead event)
    (htag : frame.1 = 1) (hmessage : message = messageOf c.generation frame) :
    Position c usbEnded client (.handed frame) toWorker toClient (updates ++ [message]) acks ahead
      event := by
  obtain ⟨op, hwrites, rfl, rfl, rfl, rfl, rfl, rfl, rfl, rfl⟩ := h.heard_cases
  obtain ⟨state, rfl⟩ := update_of_tag htag
  rw [hmessage, messageOf_frameOf hwrites]
  exact .handed hwrites

/-- A loop that fails over a request before anything came of it. -/
theorem Position.drops (h : Position c usbEnded client (.heard frame) toWorker toClient updates
      acks ahead event) (hleaving : Leaving stage) :
    Position c usbEnded client stage toWorker toClient updates acks ahead event := by
  obtain ⟨op, hwrites, rfl, rfl, rfl, rfl, rfl, rfl, rfl, rfl⟩ := h.heard_cases
  exact .left (.inr ⟨op, hwrites, rfl⟩) hleaving (fun _ hframe => nomatch hframe) (.inl rfl)

theorem Position.abandons (h : Position c true client (.handed frame) toWorker toClient updates []
      ahead event) : Position c true client .failing toWorker toClient updates [] ahead event := by
  cases h with
  | handed hwrites =>
    exact .left (.inr ⟨_, hwrites, rfl⟩) trivial (fun _ hframe => nomatch hframe) (.inr rfl)
  | replied _ honward => exact honward.elim (fun h => nomatch h.1) fun h => h.1.elim
  | answered _ honward => exact honward.elim (fun h => nomatch h.1) fun h => h.1.elim
  | left _ hleaving _ _ => exact hleaving.elim

/-- The first acknowledgement is the one of the update that was handed over. -/
theorem Position.acknowledges {ack : ℕ × Bool}
    (h : Position c usbEnded client (.handed frame) toWorker toClient updates (ack :: acks) ahead
      event) :
    ∃ reply, Stage.after c.generation (.handed frame) .receiveAcknowledgement (.ok ack) =
        .replying reply ∧
      Position c usbEnded client (.replying reply) toWorker toClient updates acks ahead event := by
  generalize hacks : ack :: acks = queue at h
  cases h with
  | acknowledged hwrites =>
    obtain ⟨rfl, rfl⟩ := List.cons.inj hacks
    exact ⟨_, handed_ack (sequenceOf_frameOf hwrites).symm, .replying nofun (answers_update hwrites)⟩
  | replied _ honward => exact honward.elim (fun h => nomatch h.1) fun h => h.1.elim
  | answered _ honward => exact honward.elim (fun h => nomatch h.1) fun h => h.1.elim
  | left _ hleaving _ _ => exact hleaving.elim
  | handed _ => cases hacks

theorem Position.gives {given : RawReverseEvent}
    (h : Position c usbEnded client (.heard frame) toWorker toClient updates acks ahead event)
    (htag : frame.1 = 2) (hfine : Fine given) :
    event = none ∧ ∃ reply, Stage.after c.generation (.heard frame) .tryReceiveEvent (.ok given) =
        .replying reply ∧
      Position c usbEnded client (.replying reply) toWorker toClient updates acks ahead
        (some given) := by
  obtain ⟨op, hwrites, rfl, rfl, rfl, rfl, rfl, rfl, rfl, rfl⟩ := h.heard_cases
  obtain rfl := output_of_tag htag
  cases given with
  | hidOutput id bytes =>
    exact ⟨rfl, _, received_event hfine.2, .replying nofun (answers_event hwrites hfine)⟩
  | _ => exact hfine.elim

theorem Position.empties
    (h : Position c usbEnded client (.heard frame) toWorker toClient updates acks ahead event)
    (htag : frame.1 = 2) :
    Position c usbEnded client (.replying (2, bytesLe 8 c.generation ++ [0])) toWorker toClient
      updates acks ahead event := by
  obtain ⟨op, hwrites, rfl, rfl, rfl, rfl, rfl, rfl, rfl, rfl⟩ := h.heard_cases
  obtain rfl := output_of_tag htag
  exact .replying nofun (answers_empty hwrites)

theorem Position.counts {stats : Stats}
    (h : Position c usbEnded client (.heard frame) toWorker toClient updates acks ahead event)
    (htag : frame.1 = 3 ∨ frame.1 = 5 ∨ frame.1 = 6 ∨ frame.1 = 7) :
    Position c usbEnded client (.replying (statsReply c.generation frame.1 stats)) toWorker toClient
      updates acks ahead event := by
  obtain ⟨op, hwrites, rfl, rfl, rfl, rfl, rfl, rfl, rfl, rfl⟩ := h.heard_cases
  have hanswers := answers_stats stats hwrites htag
  have hsent : sentBy op = [] := by
    cases op with
    | update state =>
      change (1 : UInt8) = 3 ∨ (1 : UInt8) = 5 ∨ (1 : UInt8) = 6 ∨ (1 : UInt8) = 7 at htag
      exact absurd htag (by decide)
    | _ => rfl
  have hclose : op ≠ .close := by
    rintro rfl
    change (4 : UInt8) = 3 ∨ (4 : UInt8) = 5 ∨ (4 : UInt8) = 6 ∨ (4 : UInt8) = 7 at htag
    exact absurd htag (by decide)
  have hreplying : Position c usbEnded (some (op, .awaiting))
      (.replying (statsReply c.generation (frameOf c op).1 stats)) [] [] [] [] (sentBy op) none :=
    .replying hclose hanswers
  rw [hsent] at hreplying
  exact hreplying

theorem Position.stops {cleanup : Except IoError Unit}
    (h : Position c usbEnded client (.heard frame) toWorker toClient updates acks ahead event)
    (htag : frame.1 = 4) :
    Position c usbEnded client (Stage.after c.generation (.heard frame) .stopThreads cleanup)
      toWorker toClient updates acks ahead event := by
  cases cleanup with
  | error error => exact h.drops trivial
  | ok _ =>
    obtain ⟨op, hwrites, rfl, rfl, rfl, rfl, rfl, rfl, rfl, rfl⟩ := h.heard_cases
    obtain rfl := close_of_tag htag
    exact .closing hwrites

theorem Position.ended
    (h : Position c usbEnded client stage toWorker toClient updates acks ahead event) :
    Position c true client stage toWorker toClient updates acks ahead event := by
  cases h with
  | idle hidle => exact .idle hidle
  | requested hwrites => exact .requested hwrites
  | heard hwrites => exact .heard hwrites
  | handed hwrites => exact .handed hwrites
  | acknowledged hwrites => exact .acknowledged hwrites
  | replying hclose hanswers => exact .replying hclose hanswers
  | closing hwrites => exact .closing hwrites
  | replied hanswers honward => exact .replied hanswers honward
  | answered hanswers honward => exact .answered hanswers honward
  | left hclient hleaving hfailures _ => exact .left hclient hleaving hfailures (.inr rfl)

/-- A step that writes nothing. -/
theorem Position.departs_silent {stage' : Stage}
    (h : Position c usbEnded client stage toWorker toClient updates acks ahead event)
    (hleaving : Leaving stage) (hleaving' : Leaving stage') :
    Position c usbEnded client stage' toWorker toClient updates acks ahead event := by
  have hdeparts := h.departs hleaving hleaving' (fun _ hframe => nomatch hframe : ∀ _ ∈ [], _)
  rw [List.append_nil] at hdeparts
  exact hdeparts

end LoopMoves

end AudioWorkerPositions
