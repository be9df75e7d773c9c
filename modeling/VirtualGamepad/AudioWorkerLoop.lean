import VirtualGamepad.AudioWorker

/-! The control loop of a worker, request by request, whatever its client, its channels and its
threads answer. -/
namespace AudioWorkerLoop

open AudioWorker ControllerContract Dialogue WireBytes

section Contract

/-- A request the loop handles. -/
def Proper (generation : ℕ) (frame : Frame) : Prop :=
  8 ≤ frame.2.length ∧ frame.2.take 8 = bytesLe 8 generation ∧
    (frame.1 = 1 ∧ 17 ≤ frame.2.length ∧ frame.2.length ≤ 144 ∨
      (2 ≤ frame.1 ∧ frame.1 ≤ 7) ∧ frame.2.length = 8)

instance (generation : ℕ) (frame : Frame) : Decidable (Proper generation frame) :=
  inferInstanceAs (Decidable (_ ∧ _))

def sequenceOf (frame : Frame) : ℕ := ofBytesLe ((frame.2.drop 8).take 8)

def messageOf (generation : ℕ) (frame : Frame) : Transactions.Message :=
  ⟨generation, sequenceOf frame, frame.2.drop 16⟩

def eventReply (generation : ℕ) : Except TryReceiveError RawReverseEvent → Option Frame
  | .ok (.hidOutput id bytes) =>
    if bytes.length ≤ 240 then some (2, bytesLe 8 generation ++ 1 :: id.getD 0 :: bytes) else none
  | .error .empty => some (2, bytesLe 8 generation ++ [0])
  | _ => none

/-- The counters a request reads. -/
def statsFields (tag : UInt8) (stats : Stats) : List ℕ :=
  if tag = 3 then [stats.lost, stats.completedTransfers, stats.microphoneSilenceFrames,
    stats.stalledTransfers, stats.playbackFrames, stats.captureFrames,
    stats.abandonedCaptureFrames, stats.maximumAudioLatenessUs, stats.microphoneQueueDroppedFrames]
  else if tag = 5 then [stats.microphoneConsumedFrames]
  else if tag = 6 then [stats.pcmLateness]
  else [stats.microphoneHostFrames, stats.microphoneSilenceFrames]

def statsReply (generation : ℕ) (tag : UInt8) (stats : Stats) : Frame :=
  (tag, bytesLe 8 generation ++ counters (statsFields tag stats))

/-- How far the loop has come with a request, and with its end. -/
inductive Stage where
  | listening
  | heard (frame : Frame)
  | handed (frame : Frame)
  | replying (reply : Frame)
  | closing
  | failing
  | reporting
  | parting
  | gone

variable (generation : ℕ)

/-- The first call for a request. -/
def Asks (frame : Frame) : LoopCall → Prop
  | .trySend message => frame.1 = 1 ∧ message = messageOf generation frame
  | .tryReceiveEvent => frame.1 = 2
  | .stopThreads => frame.1 = 4
  | .loadStats => frame.1 = 3 ∨ frame.1 = 5 ∨ frame.1 = 6 ∨ frame.1 = 7
  | _ => False

def Stage.allows : Stage → LoopCall → Prop
  | .listening, .read => True
  | .heard frame, call => Asks generation frame call
  | .handed _, .receiveAcknowledgement => True
  | .replying reply, .write frame => frame = reply
  | .closing, .write frame => frame = (4, bytesLe 8 generation)
  | .failing, .stopThreads => True
  | .reporting, .write frame => frame.1 = 0x81 ∧ frame.2.take 8 = bytesLe 8 generation
  | .parting, .shutdown => True
  | _, _ => False

def Stage.after : Stage → (call : LoopCall) → LoopAnswer call → Stage
  | _, .read, .ok frame => if Proper generation frame then .heard frame else .failing
  | .heard frame, .trySend _, .ok () => .handed frame
  | .handed frame, .receiveAcknowledgement, .ok (ack, accepted) =>
    if ack = sequenceOf frame then .replying (1, frame.2.take 16 ++ [bit accepted]) else .failing
  | _, .tryReceiveEvent, answer => ((eventReply generation answer).map .replying).getD .failing
  | .heard frame, .loadStats, stats => .replying (statsReply generation frame.1 stats)
  | .heard _, .stopThreads, .ok () => .closing
  | _, .stopThreads, _ => .reporting
  | .replying _, .write _, .ok () => .listening
  | .replying _, .write _, .error _ => .failing
  | _, .write _, _ => .parting
  | _, .shutdown, _ => .gone
  | _, _, _ => .failing

def monitor : Monitor LoopCall LoopAnswer Stage :=
  ⟨Stage.allows generation, Stage.after generation⟩

/-- A run that was not cut short has parted from its client. -/
def Ended (result : Option (Except IoError Unit)) (stage : Stage) : Prop :=
  result.isSome = true → stage = .gone

end Contract

section Requests

variable {generation : ℕ} {stage : Stage} {frame : Frame}

/-- A request that was handled, or the request for the end. -/
def Handled (finished : Bool) (_ : Unit) (stage : Stage) : Prop :=
  if finished then ∃ frame, stage = .heard frame ∧ frame.1 = 4 else stage = .listening

def Stopped (stop : Stop) (_ : Unit) (stage : Stage) : Prop :=
  match stop with
  | .cut => True
  | .failed _ => stage = .failing

theorem attempt_bind {α β : Type} {m : Monitor LoopCall LoopAnswer Stage}
    {result : Except IoError α} {f : α → Loop β} {Q : β → Unit → Stage → Prop}
    (hok : ∀ a, result = .ok a → Keeps m (f a) Q Stopped () stage)
    (herror : ∀ e, result = .error e → stage = .failing) :
    Keeps m (attempt result >>= f) Q Stopped () stage := by
  cases result with
  | ok a => exact hok a rfl
  | error e => exact herror e rfl

/-- A reply, after which the loop listens again. -/
theorem reply_keeps {reply : Frame} :
    Keeps (monitor generation) (do
      attempt (← loopCall (.write reply))
      return false) Handled Stopped () (.replying reply) := by
  refine keeps_ask_bind rfl fun written => ?_
  cases written with
  | error e => exact attempt_bind (fun _ hok => nomatch hok) fun _ _ => rfl
  | ok _ => exact attempt_bind (fun _ _ => keeps_pure rfl) fun _ herror => nomatch herror

theorem handed_ack {ack : ℕ} {accepted : Bool} (h : ack = sequenceOf frame) :
    Stage.after generation (.handed frame) .receiveAcknowledgement (.ok (ack, accepted)) =
      .replying (1, frame.2.take 16 ++ [bit accepted]) := if_pos h

theorem handle_update {body : List UInt8} (hlow : 17 ≤ body.length) (hhigh : body.length ≤ 144) :
    Keeps (monitor generation) (handle generation 1 body) Handled Stopped () (.heard (1, body)) := by
  unfold handle
  rw [if_pos ⟨rfl, hlow, hhigh⟩]
  refine keeps_ask_bind ⟨rfl, rfl⟩ fun sent => ?_
  cases sent with
  | error e => exact attempt_bind (fun _ hok => nomatch hok) fun _ _ => rfl
  | ok _ =>
    refine attempt_bind (fun _ _ => ?_) fun _ herror => nomatch herror
    refine keeps_ask_bind trivial fun received => ?_
    cases received with
    | error e => exact attempt_bind (fun _ hok => nomatch hok) fun _ _ => rfl
    | ok received =>
      obtain ⟨ack, accepted⟩ := received
      refine attempt_bind (fun _ hreceived => ?_) fun _ herror => nomatch herror
      cases hreceived
      dsimp only
      by_cases hack : ack = ofBytesLe ((body.drop 8).take 8)
      · rw [if_neg (not_not.mpr hack)]
        have hreply : Keeps (monitor generation) _ Handled Stopped ()
            (.replying (1, body.take 16 ++ [bit accepted])) := reply_keeps
        rw [← @handed_ack generation (1, body) ack accepted hack] at hreply
        exact hreply
      · rw [if_pos hack]
        exact keeps_fail (if_neg hack)

theorem received_event {id : Option UInt8} {bytes : List UInt8} (h : bytes.length ≤ 240) :
    Stage.after generation stage .tryReceiveEvent (.ok (.hidOutput id bytes)) =
      .replying (2, bytesLe 8 generation ++ 1 :: id.getD 0 :: bytes) := by
  have hreply : eventReply generation (.ok (.hidOutput id bytes)) = some _ := if_pos h
  change ((eventReply generation (.ok (.hidOutput id bytes))).map Stage.replying).getD _ = _
  rw [hreply]
  rfl

theorem received_long {id : Option UInt8} {bytes : List UInt8} (h : ¬bytes.length ≤ 240) :
    Stage.after generation stage .tryReceiveEvent (.ok (.hidOutput id bytes)) = .failing := by
  have hnone : eventReply generation (.ok (.hidOutput id bytes)) = none := if_neg h
  change ((eventReply generation (.ok (.hidOutput id bytes))).map Stage.replying).getD _ = _
  rw [hnone]
  rfl

theorem handle_output {body : List UInt8} (hlength : body.length = 8) :
    Keeps (monitor generation) (handle generation 2 body) Handled Stopped () (.heard (2, body)) := by
  unfold handle
  rw [if_neg fun h => absurd h.1 (by decide), if_pos ⟨rfl, hlength⟩]
  refine keeps_ask_bind rfl fun received => ?_
  cases received with
  | error e =>
    cases e with
    | empty => exact reply_keeps
    | disconnected => exact keeps_fail rfl
  | ok event =>
    cases event with
    | hidOutput id bytes =>
      dsimp only
      by_cases hbytes : bytes.length ≤ 240
      · rw [if_pos hbytes]
        have hreply : Keeps (monitor generation) _ Handled Stopped ()
            (.replying (2, bytesLe 8 generation ++ 1 :: id.getD 0 :: bytes)) := reply_keeps
        rw [← @received_event generation (.heard (2, body)) id bytes hbytes] at hreply
        exact hreply
      · rw [if_neg hbytes]
        exact keeps_fail (@received_long generation (.heard (2, body)) id bytes hbytes)
    | _ => exact keeps_fail rfl

theorem stats_keeps {tag : UInt8} {body : List UInt8} {f : Stats → List ℕ}
    (htag : tag = 3 ∨ tag = 5 ∨ tag = 6 ∨ tag = 7)
    (hreply : ∀ stats, statsReply generation tag stats =
      (tag, bytesLe 8 generation ++ counters (f stats))) :
    Keeps (monitor generation) (do
      let stats ← loopCall .loadStats
      attempt (← loopCall (.write (tag, bytesLe 8 generation ++ counters (f stats))))
      return false) Handled Stopped () (.heard (tag, body)) := by
  refine keeps_ask_bind htag fun stats => ?_
  rw [← hreply stats]
  exact reply_keeps

theorem tag_cases {tag : UInt8} (hlow : 2 ≤ tag) (hhigh : tag ≤ 7) :
    tag = 2 ∨ tag = 4 ∨ tag = 3 ∨ tag = 5 ∨ tag = 6 ∨ tag = 7 := by
  rw [UInt8.le_iff_toNat_le] at hlow hhigh
  simp only [← UInt8.toNat_inj]
  have hlow : 2 ≤ tag.toNat := hlow
  have hhigh : tag.toNat ≤ 7 := hhigh
  change tag.toNat = 2 ∨ tag.toNat = 4 ∨ tag.toNat = 3 ∨ tag.toNat = 5 ∨ tag.toNat = 6 ∨
    tag.toNat = 7
  omega

theorem untagged {tag other : UInt8} {p : Prop} (h : tag ≠ other) : ¬(tag = other ∧ p) :=
  fun hp => h hp.1

theorem handle_keeps {tag : UInt8} {body : List UInt8} (h : Proper generation (tag, body)) :
    Keeps (monitor generation) (handle generation tag body) Handled Stopped ()
      (.heard (tag, body)) := by
  obtain ⟨_, _, ⟨rfl, hlow, hhigh⟩ | ⟨⟨hlow, hhigh⟩, hlength⟩⟩ := h
  · exact handle_update hlow hhigh
  · obtain rfl | rfl | htag := tag_cases hlow hhigh
    · exact handle_output hlength
    · have hhandle : handle generation 4 body = pure true := by
        unfold handle
        simp [hlength]
      rw [hhandle]
      exact keeps_pure ⟨_, rfl, rfl⟩
    · unfold handle
      obtain rfl | rfl | rfl | rfl := htag
      · rw [if_neg (untagged (by decide : (3 : UInt8) ≠ 1)),
          if_neg (untagged (by decide : (3 : UInt8) ≠ 2)), if_pos ⟨rfl, hlength⟩]
        exact stats_keeps (.inl rfl) fun _ => rfl
      · rw [if_neg (untagged (by decide : (5 : UInt8) ≠ 1)),
          if_neg (untagged (by decide : (5 : UInt8) ≠ 2)),
          if_neg (untagged (by decide : (5 : UInt8) ≠ 3)), if_pos ⟨rfl, hlength⟩]
        exact stats_keeps (.inr (.inl rfl)) fun _ => rfl
      · rw [if_neg (untagged (by decide : (6 : UInt8) ≠ 1)),
          if_neg (untagged (by decide : (6 : UInt8) ≠ 2)),
          if_neg (untagged (by decide : (6 : UInt8) ≠ 3)),
          if_neg (untagged (by decide : (6 : UInt8) ≠ 5)), if_pos ⟨rfl, hlength⟩]
        exact stats_keeps (.inr (.inr (.inl rfl))) fun _ => rfl
      · rw [if_neg (untagged (by decide : (7 : UInt8) ≠ 1)),
          if_neg (untagged (by decide : (7 : UInt8) ≠ 2)),
          if_neg (untagged (by decide : (7 : UInt8) ≠ 3)),
          if_neg (untagged (by decide : (7 : UInt8) ≠ 5)),
          if_neg (untagged (by decide : (7 : UInt8) ≠ 6)), if_pos ⟨rfl, hlength⟩]
        exact stats_keeps (.inr (.inr (.inr rfl))) fun _ => rfl

/-- A frame of this session that is no request the loop handles. -/
theorem handle_improper {tag : UInt8} {body : List UInt8} (hlength : 8 ≤ body.length)
    (hgeneration : body.take 8 = bytesLe 8 generation) (h : ¬Proper generation (tag, body)) :
    handle generation tag body = loopFail "unknown worker control operation" := by
  unfold handle
  have hupdate : ¬(tag = 1 ∧ 17 ≤ body.length ∧ body.length ≤ 144) :=
    fun hupdate => h ⟨hlength, hgeneration, .inl hupdate⟩
  have hshort : ∀ other : UInt8, 2 ≤ other ∧ other ≤ 7 → ¬(tag = other ∧ body.length = 8) := by
    rintro _ hrange ⟨rfl, height⟩
    exact h ⟨hlength, hgeneration, .inr ⟨hrange, height⟩⟩
  rw [if_neg hupdate, if_neg (hshort 2 (by decide)), if_neg (hshort 3 (by decide)),
    if_neg (hshort 5 (by decide)), if_neg (hshort 6 (by decide)), if_neg (hshort 7 (by decide)),
    if_neg (hshort 4 (by decide))]

end Requests

section Lifetime

variable {generation : ℕ}

/-- The request for the end, which was not answered yet. -/
def Asked (_ : Unit) (_ : Unit) (stage : Stage) : Prop := ∃ frame, stage = .heard frame ∧ frame.1 = 4

theorem listen_keeps (fuel : ℕ) :
    Keeps (monitor generation) (listen generation fuel) Asked Stopped () .listening := by
  induction fuel with
  | zero => exact keeps_fail trivial
  | succ fuel ih =>
    refine keeps_ask_bind trivial fun received => ?_
    cases received with
    | error e => exact attempt_bind (fun _ hok => nomatch hok) fun _ _ => rfl
    | ok frame =>
      obtain ⟨tag, body⟩ := frame
      refine attempt_bind (fun _ hframe => ?_) fun _ herror => nomatch herror
      cases hframe
      dsimp only
      by_cases hforeign : body.length < 8 ∨ body.take 8 ≠ bytesLe 8 generation
      · rw [if_pos hforeign]
        refine keeps_fail (if_neg fun hproper => ?_)
        obtain ⟨hlength, hgeneration, _⟩ := hproper
        exact hforeign.elim (Nat.not_lt_of_le hlength) fun hne => hne hgeneration
      · rw [if_neg hforeign]
        rw [not_or, not_not, Nat.not_lt] at hforeign
        by_cases hproper : Proper generation (tag, body)
        · have hhandle := handle_keeps hproper
          have hstage : Stage.after generation .listening .read (.ok (tag, body)) =
              .heard (tag, body) := if_pos hproper
          rw [← hstage] at hhandle
          refine keeps_bind hhandle fun finished _ y hy => ?_
          cases finished with
          | true => exact keeps_pure hy
          | false =>
            obtain rfl : y = .listening := hy
            exact ih
        · rw [handle_improper hforeign.1 hforeign.2 hproper]
          exact keeps_fail (if_neg hproper)

/-- Threads are stopped, the client is told, and the connection is shut down. -/
theorem finish_failed (error : IoError) :
    Obeys (monitor generation) Ended (finish generation (.error error)) .failing := by
  refine ⟨trivial, fun cleanup => ?_⟩
  cases cleanup with
  | error worker => exact ⟨⟨rfl, List.take_left' (length_bytesLe ..)⟩, fun _ => ⟨trivial, fun _ _ => rfl⟩⟩
  | ok _ => exact ⟨⟨rfl, List.take_left' (length_bytesLe ..)⟩, fun _ => ⟨trivial, fun _ _ => rfl⟩⟩

theorem finish_asked {frame : Frame} (h : frame.1 = 4) :
    Obeys (monitor generation) Ended (finish generation (.ok ())) (.heard frame) := by
  refine ⟨h, fun cleanup => ?_⟩
  cases cleanup with
  | error worker => exact ⟨⟨rfl, List.take_left' (length_bytesLe ..)⟩, fun _ => ⟨trivial, fun _ _ => rfl⟩⟩
  | ok _ => exact ⟨rfl, fun _ => ⟨trivial, fun _ _ => rfl⟩⟩

theorem serve_obeys (generation fuel : ℕ) :
    Obeys (monitor generation) Ended (serve generation fuel) .listening := by
  refine obeys_bind (listen_keeps fuel) ?_
  rintro ⟨stop | _, _⟩ stage hstage
  · cases stop with
    | cut => exact fun hsome => absurd hsome Bool.false_ne_true
    | failed error =>
      obtain rfl : stage = .failing := hstage
      exact finish_failed error
  · obtain ⟨frame, rfl, htag⟩ := hstage
    exact finish_asked htag

end Lifetime

end AudioWorkerLoop
