import VirtualGamepad.AudioHostAccounts

/-! All attachments of a broker over its whole life: connections interleave, the process may crash
at any call and start again, and administrators may look after the journal. Whatever the kernel may
still have attached is in the journal. -/
namespace AudioOwnership

open AudioConnection (Opened Profile)
open AudioHost AudioHostAccounts Dialogue PlainText WireBytes

section Tasks

/-- What a connection does: in the end it owns an attachment or nothing. -/
abbrev Task := Prog Call Answer (Option Owned × Locals)

def opened : Except Stop (Opened × Owned) × Locals → Task
  | (.ok result, locals) => .ret (some result.2, locals)
  | (.error _, locals) => .ret (none, locals)

def opening (fuel : ℕ) (config : HostConfig) (profile : Profile) (identity : List UInt8) : Task :=
  (Host.open fuel config profile identity ⟨false, false⟩).bind opened

def checking (owned : Owned) (locals : Locals) : Task :=
  (checkAlive locals).bind fun r => .ret (some owned, r.2)

def closing (fuel : ℕ) (owned : Owned) (locals : Locals) : Task :=
  (owned.close fuel locals).bind fun r => .ret (some owned, r.2)

def leaving (fuel : ℕ) (owned : Owned) (locals : Locals) : Task :=
  (owned.drop fuel locals).bind fun r => .ret (none, r.2)

/-- A connection that owns an attachment. -/
structure Rests (owned : Owned) (m : Locals) (x : Account) : Prop where
  fits : Fits m x
  held : x.held = true
  port : x.port = some owned.session.lease.port
  locked : x.locked = false
  recorded : Recorded owned.record x

def Ends : Option Owned × Locals → Account → Prop
  | (some owned, m), x => Rests owned m x
  | (none, _), x => x.locked = false

variable {owned : Owned} {m : Locals} {x y : Account} {fuel : ℕ}

theorem Rests.eased (h : Rests owned m x) {n : Locals} (he : Eased x n y) : Rests owned n y :=
  ⟨he.fits, he.held.trans h.held, he.port.trans h.port, he.locked.trans h.locked,
    h.recorded.eased he⟩

theorem opening_obeys (config : HostConfig) (profile : Profile) (identity : List UInt8) :
    Obeys monitor Ends (opening fuel config profile identity) Account.new := by
  refine obeys_bind (open_keeps config profile identity) ?_
  rintro ⟨stop | result, n⟩ y hy
  · exact hy.locked
  · exact ⟨hy.fits, hy.held, hy.port, hy.locked, hy.recorded⟩

theorem checking_obeys (h : Rests owned m x) : Obeys monitor Ends (checking owned m) x := by
  refine obeys_bind (checkAlive_keeps h.fits) ?_
  rintro ⟨stop | _, n⟩ y hy
  · exact h.eased hy
  · exact h.eased hy

theorem closing_obeys (h : Rests owned m x) : Obeys monitor Ends (closing fuel owned m) x := by
  refine obeys_bind (close_keeps owned h.fits h.recorded) ?_
  rintro ⟨stop | _, n⟩ y hy
  · exact h.eased hy
  · exact h.eased hy.1

theorem leaving_obeys (h : Rests owned m x) : Obeys monitor Ends (leaving fuel owned m) x := by
  have hdrop : Keeps monitor (owned.drop fuel) (fun _ _ y => y.locked = false)
      (fun _ _ y => y.locked = false) m x := by
    refine keeps_bind ((dropOwned_keeps owned h.fits h.recorded).mono (fun _ _ _ he => he)
      fun _ _ _ he => he.locked.trans h.locked) fun _ n y hy => ?_
    refine keeps_bind ((dropSession_keeps hy.fits).mono (fun _ _ _ he => hy.trans he)
      fun _ _ _ he => (hy.trans he).locked.trans h.locked) fun _ n z hz => ?_
    have hrest := h.eased hz
    exact keeps_ask_bind ⟨hrest.held, hrest.port⟩ fun _ => keeps_pure hrest.locked
  refine obeys_bind hdrop ?_
  rintro ⟨stop | _, n⟩ y hy
  · exact hy
  · exact hy

end Tasks

section Accounts

variable {x : Account} {call : Call}

/-- What holds of a connection whatever it was answered. -/
structure Sound (x : Account) : Prop where
  asked : x.request ≠ none → x.evidence = .durable ∧ x.request = x.wanted
  removed : x.removed = true → x.down = true ∧ x.reaped = true
  named : x.evidence ≠ .absent → x.name ≠ none
  room : x.room = true → x.locked = true
  blank : x.evidence = .absent → x.node = none ∧ x.removed = false ∧ x.seen = false

theorem sound_new : Sound .new :=
  ⟨fun h => absurd rfl h, fun h => absurd h Bool.false_ne_true, fun h => absurd rfl h,
    fun h => absurd h Bool.false_ne_true, fun _ => ⟨rfl, rfl, rfl⟩⟩

theorem sync_durable {evidence : Evidence} (h : evidence = .durable) :
    evidence.sync = .durable := by
  rw [h]
  rfl

theorem settle_durable {evidence : Evidence} (h : evidence = .durable) :
    evidence.settle = .durable := by
  rw [h]
  rfl

theorem sync_absent {evidence : Evidence} : evidence.sync = .absent ↔ evidence = .absent := by
  cases evidence <;> decide

theorem settle_absent {evidence : Evidence} : evidence.settle = .absent ↔ evidence = .absent := by
  cases evidence <;> decide

/-- A request that was made names what the connection still holds. -/
theorem asked_some (h : Sound x) (hrequest : x.request ≠ none) :
    x.port ≠ none ∧ x.kernel ≠ none ∧ x.evidence ≠ .absent := by
  obtain ⟨hevidence, hwanted⟩ := h.asked hrequest
  have hsome : x.wanted ≠ none := hwanted ▸ hrequest
  refine ⟨?_, ?_, by rw [hevidence]; exact Evidence.noConfusion⟩
  · intro hport
    apply hsome
    unfold Account.wanted
    cases x.identity with
    | none => rfl
    | some i => rw [hport]; rfl
  · intro hkernel
    apply hsome
    unfold Account.wanted
    cases x.identity with
    | none => rfl
    | some i =>
      cases x.port with
      | none => rfl
      | some port => rw [hkernel]; rfl

theorem sound_after (h : Sound x) (hallowed : x.allows call) (answer : Answer call) :
    Sound (x.after call answer) := by
  have hasked := asked_some h
  cases call with
  | readStatus => cases answer <;> exact ⟨h.asked, h.removed, h.named, h.room, h.blank⟩
  | writeAttach request =>
    exact ⟨fun _ => ⟨hallowed.1, hallowed.2.2.2.2.2.1.symm⟩, h.removed, h.named, h.room, h.blank⟩
  | reserve inventory =>
    cases answer with
    | error e => exact h
    | ok lease =>
      exact ⟨fun hrequest => absurd hallowed (hasked hrequest).1, h.removed, h.named, h.room,
        h.blank⟩
  | dropLease lease => exact ⟨h.asked, h.removed, h.named, h.room, h.blank⟩
  | random =>
    cases answer with
    | error e => exact h
    | ok i =>
      exact ⟨fun hrequest => absurd hallowed (hasked hrequest).2.2, h.removed,
        fun hevidence => absurd hallowed hevidence, h.room, h.blank⟩
  | socketPairs =>
    rcases answer with e | ⟨kernel, channels⟩
    · exact h
    · exact ⟨fun hrequest => absurd hallowed (hasked hrequest).2.1, h.removed, h.named, h.room,
        h.blank⟩
  | shutdown =>
    have hdown : Sound { x with down := true } :=
      ⟨h.asked, fun hremoved => ⟨rfl, (h.removed hremoved).2⟩, h.named, h.room, h.blank⟩
    rcases answer with e | _
    · cases e <;> first | exact hdown | exact h
    · exact hdown
  | tryWait =>
    rcases answer with e | _ | status
    · exact h
    · exact h
    · exact ⟨h.asked, fun hremoved => ⟨(h.removed hremoved).1, rfl⟩, h.named, h.room, h.blank⟩
  | lock =>
    rcases answer with e | _
    · exact h
    · exact ⟨h.asked, h.removed, h.named, fun hroom => absurd hroom Bool.false_ne_true, h.blank⟩
  | unlock =>
    exact ⟨h.asked, h.removed, h.named, fun hroom => absurd hroom Bool.false_ne_true, h.blank⟩
  | readDir =>
    cases answer with
    | error e => exact h
    | ok entries =>
      exact ⟨h.asked, h.removed, h.named, fun hroom => (Bool.and_eq_true_iff.mp hroom).1, h.blank⟩
  | createNew name =>
    obtain ⟨_, _, habsent, hname⟩ := hallowed
    cases answer with
    | error e => exact h
    | ok node =>
      refine ⟨fun hrequest => absurd habsent (hasked hrequest).2.2, h.removed, fun _ hnone => ?_,
        fun hroom => absurd hroom Bool.false_ne_true, fun habsent => Evidence.noConfusion habsent⟩
      exact absurd (hname.symm.trans hnone) (Option.some_ne_none _)
  | recordMetadata =>
    cases answer with
    | error e => exact h
    | ok node => exact ⟨h.asked, h.removed, h.named, h.room, fun habsent => absurd habsent hallowed⟩
  | writeRecord line =>
    have hnone {evidence : Evidence} (hmade : evidence ≠ .absent) : Sound { x with evidence } := by
      refine ⟨fun hrequest => ?_, h.removed, fun _ => h.named ?_, h.room,
        fun habsent => absurd habsent hmade⟩
      · exact absurd (hallowed.1.symm.trans (h.asked hrequest).1) Evidence.noConfusion
      · rw [hallowed.1]
        exact Evidence.noConfusion
    cases answer <;> exact hnone Evidence.noConfusion
  | syncRecord =>
    cases answer with
    | error e => exact h
    | ok _ =>
      exact ⟨fun hrequest => ⟨sync_durable (h.asked hrequest).1, (h.asked hrequest).2⟩, h.removed,
        fun hevidence => h.named (mt sync_absent.mpr hevidence), h.room,
        fun habsent => h.blank (sync_absent.mp habsent)⟩
  | syncDirectory =>
    cases answer with
    | error e => exact h
    | ok _ =>
      exact ⟨fun hrequest => ⟨settle_durable (h.asked hrequest).1, (h.asked hrequest).2⟩, h.removed,
        fun hevidence => h.named (mt settle_absent.mpr hevidence), h.room,
        fun habsent => h.blank (settle_absent.mp habsent)⟩
  | openRecord name =>
    rcases answer with e | ⟨regular, node⟩
    · refine ⟨h.asked, h.removed, h.named, h.room, fun habsent => ?_⟩
      exact ⟨(h.blank habsent).1, (h.blank habsent).2.1, rfl⟩
    · refine ⟨h.asked, h.removed, h.named, h.room, fun habsent => ?_⟩
      refine ⟨(h.blank habsent).1, (h.blank habsent).2.1, ?_⟩
      change (regular && decide (x.node = some node)) = false
      rw [(h.blank habsent).1, Bool.and_eq_false_iff]
      exact .inr rfl
  | removeFile name =>
    cases answer with
    | error e => exact h
    | ok _ =>
      refine ⟨h.asked, fun _ => ⟨hallowed.2.1, hallowed.2.2.1⟩, h.named, h.room, fun habsent => ?_⟩
      exact absurd ((h.blank habsent).2.2.symm.trans hallowed.1) Bool.false_ne_true
  | _ => exact h

end Accounts

section Systems

/-- A file of the journal directory. `owner` is a ghost: the connection that made it. -/
structure Entry where
  name : Text
  owner : Option ℕ
  node : Node
  content : Text

/-- What all connections share: who holds the lock of the journal, and its directory. -/
structure World where
  holder : Option ℕ
  directory : List Entry

inductive Thread where
  | resting (owned : Owned) (locals : Locals)
  | busy (task : Task)

/-- A connection that is over has no thread; its account stays. -/
structure Connection where
  thread : Option Thread
  account : Account

abbrev Boot := Prog Call Answer (Except Stop Unit × Locals)

/-- `clear` says that the journal was seen empty, `first` which connection was the first. -/
inductive Phase where
  | down
  | starting (boot : Boot) (clear : Bool)
  | up (first : ℕ)

structure System where
  phase : Phase
  world : World
  next : ℕ
  connections : ℕ → Option Connection

def System.new (directory : List Entry) : System := ⟨.down, ⟨none, directory⟩, 0, fun _ => none⟩

def Call.shared : Call → Bool
  | .lock => true
  | .unlock => true
  | .readDir => true
  | .createNew _ => true
  | .recordMetadata => true
  | .writeRecord _ => true
  | .openRecord _ => true
  | .removeFile _ => true
  | _ => false

/-- A listing shows what is there, or an error in its place. -/
def Listed (directory : List Entry) (entries : List (Except IoError (Option Text))) : Prop :=
  ∀ e ∈ directory, .ok (some e.name) ∈ entries ∨ ∃ error, .error error ∈ entries

def World.write (id : ℕ) (text : Text) (w : World) : World :=
  { w with directory := w.directory.map fun e =>
    if e.owner = some id then { e with content := e.content ++ text } else e }

/-- What the operating system answers to connection `id`. New files get nodes that are not known. -/
inductive Served (id : ℕ) (known : Node → Prop) (w : World) :
    (call : Call) → Answer call → World → Prop where
  | locked : w.holder = none → Served id known w .lock (.ok ()) { w with holder := some id }
  | poisoned (error : IoError) : Served id known w .lock (.error error) w
  | unlocked : Served id known w .unlock () { w with holder := none }
  | listed {entries : List (Except IoError (Option Text))} : Listed w.directory entries →
      Served id known w .readDir (.ok entries) w
  | unlisted (error : IoError) : Served id known w .readDir (.error error) w
  | created {name : Text} {node : Node} : (∀ e ∈ w.directory, e.name ≠ name) → ¬known node →
      Served id known w (.createNew name) (.ok node)
        { w with directory := ⟨name, some id, node, []⟩ :: w.directory }
  | uncreated (name : Text) (error : IoError) : Served id known w (.createNew name) (.error error) w
  | metadata {e : Entry} : e ∈ w.directory → e.owner = some id →
      Served id known w .recordMetadata (.ok e.node) w
  | unknown (error : IoError) : Served id known w .recordMetadata (.error error) w
  | wrote (line : Text) : Served id known w (.writeRecord line) (.ok ()) (w.write id line)
  | tore {line part : Text} (error : IoError) : part <+: line →
      Served id known w (.writeRecord line) (.error error) (w.write id part)
  | looked {e : Entry} (regular : Bool) : e ∈ w.directory →
      Served id known w (.openRecord e.name) (.ok (regular, e.node)) w
  | unseen (name : Text) (error : IoError) : Served id known w (.openRecord name) (.error error) w
  | removed (name : Text) : Served id known w (.removeFile name) (.ok ())
      { w with directory := w.directory.filter fun e => e.name ≠ name }
  | kept (name : Text) (error : IoError) : Served id known w (.removeFile name) (.error error) w
  | other {call : Call} (answer : Answer call) : Call.shared call = false →
      Served id known w call answer w

/-- A node that a file has, or that a connection remembers. -/
def System.Known (s : System) (node : Node) : Prop :=
  (∃ e ∈ s.world.directory, e.node = node) ∨
    ∃ id c, s.connections id = some c ∧ c.account.node = some node

def System.set (s : System) (id : ℕ) (c : Connection) : System :=
  { s with connections := Function.update s.connections id (some c) }

/-- Nothing of a process survives a crash but what it asked for. -/
def Connection.crashed (c : Connection) : Connection := { c with thread := none }

def emptyIn (entries : List (Except IoError (Option Text))) : Bool :=
  match admitEntries entries [] with
  | .ok names => names.isEmpty
  | .error _ => false

def bootAfter (clear : Bool) : (call : Call) → Answer call → Bool
  | .readDir, .ok entries => emptyIn entries
  | _, _ => clear

inductive Step : System → System → Prop where
  | boot (s : System) (name : Text) : s.phase = .down →
      Step s { s with phase := .starting (Host.new name ⟨false, false⟩) false }
  | bootCall (s : System) {call : Call} {next : Answer call → Boot} {clear : Bool}
      {answer : Answer call} : s.phase = .starting (.ask call next) clear →
      Served 0 s.Known s.world call answer s.world →
      Step s { s with phase := .starting (next answer) (bootAfter clear call answer) }
  | started (s : System) {locals : Locals} {clear : Bool} :
      s.phase = .starting (.ret (.ok (), locals)) clear →
      Step s { s with phase := .up s.next, world := { s.world with holder := none } }
  | refused (s : System) {stop : Stop} {locals : Locals} {clear : Bool} :
      s.phase = .starting (.ret (.error stop, locals)) clear → Step s { s with phase := .down }
  | accept (s : System) {first : ℕ} (fuel : ℕ) (config : HostConfig) (profile : Profile)
      (identity : List UInt8) : s.phase = .up first →
      Step s { s.set s.next ⟨some (.busy (opening fuel config profile identity)), .new⟩ with
        next := s.next + 1 }
  | call (s : System) {id : ℕ} {x : Account} {call : Call} {next : Answer call → Task}
      {answer : Answer call} {w : World} :
      s.connections id = some ⟨some (.busy (.ask call next)), x⟩ →
      Served id s.Known s.world call answer w →
      Step s { s.set id ⟨some (.busy (next answer)), x.after call answer⟩ with world := w }
  | rest (s : System) {id : ℕ} {x : Account} {owned : Owned} {locals : Locals} :
      s.connections id = some ⟨some (.busy (.ret (some owned, locals))), x⟩ →
      Step s (s.set id ⟨some (.resting owned locals), x⟩)
  | ended (s : System) {id : ℕ} {x : Account} {locals : Locals} :
      s.connections id = some ⟨some (.busy (.ret (none, locals))), x⟩ →
      Step s (s.set id ⟨none, x⟩)
  | check (s : System) {id : ℕ} {x : Account} {owned : Owned} {locals : Locals} :
      s.connections id = some ⟨some (.resting owned locals), x⟩ →
      Step s (s.set id ⟨some (.busy (checking owned locals)), x⟩)
  | close (s : System) {id : ℕ} {x : Account} {owned : Owned} {locals : Locals} (fuel : ℕ) :
      s.connections id = some ⟨some (.resting owned locals), x⟩ →
      Step s (s.set id ⟨some (.busy (closing fuel owned locals)), x⟩)
  | leave (s : System) {id : ℕ} {x : Account} {owned : Owned} {locals : Locals} (fuel : ℕ) :
      s.connections id = some ⟨some (.resting owned locals), x⟩ →
      Step s (s.set id ⟨some (.busy (leaving fuel owned locals)), x⟩)
  | crash (s : System) : Step s { s with
      phase := .down
      world := { s.world with holder := none }
      connections := fun id => (s.connections id).map Connection.crashed }
  /-- The kernel lets go of what a connection left attached, and its worker ends. -/
  | settle (s : System) {id : ℕ} {x : Account} : s.connections id = some ⟨none, x⟩ →
      Step s (s.set id ⟨none, { x with down := true, reaped := true }⟩)
  /-- An administrator puts a file into the journal. -/
  | add (s : System) {e : Entry} : (∀ f ∈ s.world.directory, f.name ≠ e.name) → ¬s.Known e.node →
      e.owner = none →
      Step s { s with world := { s.world with directory := e :: s.world.directory } }
  /-- An administrator discards records of attachments that are gone, while no broker runs. -/
  | discard (s : System) (name : Text) : s.phase = .down →
      (∀ e ∈ s.world.directory, e.name = name → ∀ id c, e.owner = some id →
        s.connections id = some c → ¬c.account.Live) →
      Step s { s with world := { s.world with
        directory := s.world.directory.filter fun e => e.name ≠ name } }

/-- At first nothing was asked for, and the journal holds what administrators put there. -/
inductive Reachable : System → Prop where
  | new (directory : List Entry) : (directory.map Entry.name).Nodup →
      (directory.map Entry.node).Nodup → (∀ e ∈ directory, e.owner = none) →
      Reachable (.new directory)
  | step {s t : System} : Reachable s → Step s t → Reachable t

end Systems

section Boot

/-- A host that starts reads, and remembers whether it saw an empty journal. -/
def bootMonitor : Monitor Call Answer Bool :=
  ⟨fun _ call => Call.shared call = false ∨ call = .readDir, bootAfter⟩

def BootEnds : Except Stop Unit × Locals → Bool → Prop
  | (.ok _, _), clear => clear = true
  | (.error _, _), _ => True

variable {clear : Bool} {l : Locals}

theorem trustedEach_keeps (paths : List Text) :
    Keeps bootMonitor (trustedEach paths) (fun _ _ _ => True) (fun _ _ _ => True) l clear := by
  induction paths generalizing l clear with
  | nil => exact keeps_pure trivial
  | cons path paths ih =>
    refine keeps_bind (Q := fun _ _ _ => True) ?_ fun _ _ _ _ => ih
    refine keeps_ask_bind (.inl rfl) fun answer => ?_
    rcases answer with e | ⟨owner, mode, isDir⟩
    · exact keeps_attempt_error trivial
    refine keeps_attempt_ok ?_
    by_cases hloose : owner ≠ 0 ∨ mode &&& 0o022 ≠ 0 ∨ (true && !isDir) = true
    · dsimp only
      rw [if_pos hloose]
      exact keeps_fail trivial
    · dsimp only
      rw [if_neg hloose]
      exact keeps_pure trivial

theorem pending_boot : Keeps bootMonitor pending (fun names _ clear => clear = names.isEmpty)
    (fun _ _ _ => True) l clear := by
  refine keeps_ask_bind (.inr rfl) fun answer => ?_
  rcases answer with e | entries
  · exact keeps_attempt_error trivial
  refine keeps_attempt_ok ?_
  cases hentries : admitEntries entries [] with
  | error e => exact keeps_fail trivial
  | ok names =>
    refine keeps_pure ?_
    change emptyIn entries = names.isEmpty
    unfold emptyIn
    rw [hentries]

theorem boot_obeys (name : Text) :
    Obeys bootMonitor BootEnds (Host.new name ⟨false, false⟩) false := by
  have hboot : Keeps bootMonitor (Host.new name) (fun _ _ clear => clear = true)
      (fun _ _ _ => True) ⟨false, false⟩ false := by
    refine keeps_bind (Q := fun _ _ _ => True) ?_ fun _ l clear _ => ?_
    · unfold journalOpen
      by_cases hvalid : validInstance name = false
      · rw [if_pos hvalid]
        exact keeps_fail trivial
      · rw [if_neg hvalid]
        exact trustedEach_keeps _
    · refine keeps_bind pending_boot fun names l clear hclear => ?_
      cases names with
      | nil => exact keeps_pure hclear
      | cons first rest => exact keeps_fail trivial
  refine Obeys.mono hboot ?_
  rintro ⟨_ | _, m⟩ y hy
  · exact trivial
  · exact hy

end Boot

section Invariant

variable {s t : System} {id : ℕ} {c d : Connection} {x y : Account} {e : Entry} {w : World}

/-- A file that a connection made, and that it did not remove. -/
structure Matches (x : Account) (e : Entry) : Prop where
  name : x.name = some e.name
  kept : x.removed = false
  made : x.evidence ≠ .absent
  node : ∀ node, x.node = some node → node = e.node
  blank : x.evidence = .created → e.content = []
  line : x.evidence = .written ∨ x.evidence = .synced ∨ x.evidence = .durable →
    x.line = some e.content

/-- The journal has to hold the record of this connection. -/
def Connection.Recorded (c : Connection) : Prop :=
  (c.thread ≠ none ∨ c.account.Live) ∧ c.account.evidence ≠ .absent ∧ c.account.removed = false

/-- The files that connections made. -/
def World.own (w : World) : List Entry := w.directory.filter fun e => e.owner.isSome

/-- What a thread promises for the rest of its run. -/
def Promises (x : Account) : Option Thread → Prop
  | none => True
  | some (.resting owned locals) => Rests owned locals x
  | some (.busy task) => Obeys monitor Ends task x

/-- One connection in its world. -/
structure Stands (id : ℕ) (c : Connection) (w : World) : Prop where
  promises : Promises c.account c.thread
  sound : Sound c.account
  recorded : c.Recorded → ∃ e ∈ w.directory, e.owner = some id
  matched : ∀ e ∈ w.directory, e.owner = some id → Matches c.account e
  remembered : ∀ e ∈ w.directory, c.account.node = some e.node → e.owner = some id
  seen : c.thread ≠ none → c.account.seen = true → ∃ e ∈ w.directory, e.owner = some id
  locked : c.thread ≠ none → c.account.locked = true → w.holder = some id
  room : c.thread ≠ none → c.account.room = true → w.own.length < maxRecords

structure Orderly (s : System) : Prop where
  stands : ∀ id c, s.connections id = some c → Stands id c s.world
  owned : ∀ e ∈ s.world.directory, ∀ id, e.owner = some id → s.connections id ≠ none
  names : (s.world.directory.map Entry.name).Nodup
  nodes : (s.world.directory.map Entry.node).Nodup
  bounded : s.world.own.length ≤ maxRecords
  numbered : ∀ id c, s.connections id = some c → id < s.next
  idle : (∀ first, s.phase ≠ .up first) → ∀ id c, s.connections id = some c → c.thread = none
  fresh : ∀ first, s.phase = .up first → first ≤ s.next ∧ ∀ id c, s.connections id = some c →
    c.thread ≠ none ∨ c.account.Live → first ≤ id
  starting : ∀ boot clear, s.phase = .starting boot clear →
    Obeys bootMonitor BootEnds boot clear ∧
      (clear = true → ∀ id c, s.connections id = some c → ¬c.account.Live)

/-- A file matches all accounts that say the same of it. -/
theorem Matches.same (h : Matches x e) (hidentity : y.identity = x.identity)
    (hport : y.port = x.port) (hremoved : y.removed = x.removed)
    (hevidence : y.evidence = x.evidence) (hnode : y.node = x.node) : Matches y e := by
  have hname : y.name = x.name := by
    unfold Account.name
    rw [hidentity]
  have hline : y.line = x.line := by
    unfold Account.line
    rw [hidentity, hport]
  refine ⟨hname.trans h.name, hremoved.trans h.kept, ?_, fun node hn => ?_, fun hblank => ?_,
    fun hwritten => hline.trans (h.line ?_)⟩
  · rw [hevidence]
    exact h.made
  · exact h.node node (hnode.symm.trans hn)
  · exact h.blank (hevidence.symm.trans hblank)
  · rwa [hevidence] at hwritten

theorem live_recorded (h : Sound x) (hlive : x.Live) :
    x.evidence ≠ .absent ∧ x.removed = false ∧ x.evidence = .durable := by
  have hevidence := (h.asked hlive.1).1
  refine ⟨by rw [hevidence]; exact Evidence.noConfusion, ?_, hevidence⟩
  cases hremoved : x.removed with
  | false => rfl
  | true => exact absurd (h.removed hremoved) hlive.2

/-- What a connection has attached is in the journal. -/
theorem Stands.live (h : Stands id c w) (hlive : c.account.Live) : ∃ e ∈ w.directory,
    e.owner = some id ∧ c.account.name = some e.name ∧ c.account.line = some e.content := by
  obtain ⟨hevidence, hremoved, hdurable⟩ := live_recorded h.sound hlive
  obtain ⟨e, he, howner⟩ := h.recorded ⟨.inr hlive, hevidence, hremoved⟩
  have hmatch := h.matched e he howner
  exact ⟨e, he, howner, hmatch.name, hmatch.line (.inr (.inr hdurable))⟩

/-- A listing without an error names every file. -/
theorem mem_of_listed {entries : List (Except IoError (Option Text))} {names records : List Text}
    (h : admitEntries entries records = .ok names) :
    (∀ name ∈ records, name ∈ names) ∧ (∀ name, .ok (some name) ∈ entries → name ∈ names) ∧
      ∀ error, .error error ∉ entries := by
  induction entries generalizing records with
  | nil =>
    obtain rfl := Except.ok.inj h
    exact ⟨fun _ hmem => hmem, fun _ hmem => absurd hmem List.not_mem_nil,
      fun _ => List.not_mem_nil⟩
  | cons entry entries ih =>
    unfold admitEntries at h
    by_cases hfull : records.length = maxRecords
    · rw [if_pos hfull] at h
      cases h
    rw [if_neg hfull] at h
    rcases entry with error | _ | name
    · cases h
    · cases h
    · change (if byteLength name ≠ 16 ∨ name.all isAsciiHexdigit = false then _ else _) = _ at h
      by_cases hbad : byteLength name ≠ 16 ∨ name.all isAsciiHexdigit = false
      · rw [if_pos hbad] at h
        cases h
      rw [if_neg hbad] at h
      obtain ⟨hrecords, hentries, herrors⟩ := ih h
      refine ⟨fun n hn => hrecords n (List.mem_append_left _ hn), fun n hn => ?_, fun e he => ?_⟩
      · rcases List.mem_cons.mp hn with heq | hn
        · cases heq
          exact hrecords name (List.mem_append_right _ (List.mem_singleton_self name))
        · exact hentries n hn
      · rcases List.mem_cons.mp he with heq | he
        · cases heq
        · exact herrors e he

theorem listed_names {directory : List Entry} {entries : List (Except IoError (Option Text))}
    {names : List Text} (h : Listed directory entries)
    (hnames : admitEntries entries [] = .ok names)
    (hnodup : (directory.map Entry.name).Nodup) : directory.length ≤ names.length := by
  obtain ⟨_, hmem, herrors⟩ := mem_of_listed hnames
  have hsubset : directory.map Entry.name ⊆ names := by
    intro name hname
    obtain ⟨e, he, rfl⟩ := List.mem_map.mp hname
    rcases h e he with hok | ⟨error, herror⟩
    · exact hmem _ hok
    · exact absurd herror (herrors error)
  have hlength := (List.subperm_of_subset hnodup hsubset).length_le
  rwa [List.length_map] at hlength

end Invariant

section Changes

variable {s : System} {id : ℕ} {c d : Connection} {x : Account} {e : Entry} {w : World}

/-- What a call of connection `id` may do to what the others see. -/
structure Evolves (id : ℕ) (s : System) (w : World) : Prop where
  kept : ∀ e ∈ s.world.directory, ∀ j, j ≠ id → e.owner = some j →
    ∃ f ∈ w.directory, f.owner = some j
  same : ∀ e ∈ w.directory, ∀ j, j ≠ id → e.owner = some j → e ∈ s.world.directory
  known : ∀ e ∈ w.directory, ¬s.Known e.node ∨
    ∃ f ∈ s.world.directory, f.node = e.node ∧ f.owner = e.owner
  names : (w.directory.map Entry.name).Nodup
  nodes : (w.directory.map Entry.node).Nodup
  holder : ∀ j, j ≠ id → s.world.holder = some j → w.holder = some j
  room : w.own.length ≤ s.world.own.length ∨
    s.world.holder = some id ∧ w.own.length ≤ maxRecords

theorem Orderly.evolves (h : Orderly s) (id : ℕ) : Evolves id s s.world where
  kept e he _ _ howner := ⟨e, he, howner⟩
  same _ he _ _ _ := he
  known e he := .inr ⟨e, he, rfl, rfl⟩
  names := h.names
  nodes := h.nodes
  holder _ _ hj := hj
  room := .inl le_rfl

theorem Evolves.bounded (h : Evolves id s w) (hs : Orderly s) : w.own.length ≤ maxRecords := by
  rcases h.room with hle | ⟨_, hle⟩
  · exact hle.trans hs.bounded
  · exact hle

/-- The other connections stand as before. -/
theorem Evolves.others (h : Evolves id s w) (hs : Orderly s) {j : ℕ} (hj : j ≠ id)
    (hd : s.connections j = some d) : Stands j d w := by
  have hold := hs.stands j d hd
  refine ⟨hold.promises, hold.sound, fun hrecorded => ?_, fun e he howner => ?_,
    fun e he hnode => ?_, fun hthread hseen => ?_, fun hthread hlocked => ?_,
    fun hthread hroom => ?_⟩
  · obtain ⟨e, he, howner⟩ := hold.recorded hrecorded
    exact h.kept e he j hj howner
  · exact hold.matched e (h.same e he j hj howner) howner
  · rcases h.known e he with hnew | ⟨f, hf, hsame, howner⟩
    · exact absurd (.inr ⟨j, d, hd, hnode⟩) hnew
    · rw [← howner]
      exact hold.remembered f hf (hnode.trans (congrArg some hsame.symm))
  · obtain ⟨e, he, howner⟩ := hold.seen hthread hseen
    exact h.kept e he j hj howner
  · exact h.holder j hj (hold.locked hthread hlocked)
  · have hholder := hold.locked hthread (hold.sound.room hroom)
    rcases h.room with hle | ⟨hid, _⟩
    · exact hle.trans_lt (hold.room hthread hroom)
    · exact absurd (Option.some.inj (hholder.symm.trans hid)) hj

/-- One connection moves, in a world that the others can bear. -/
theorem Orderly.moved (h : Orderly s) (hc : s.connections id = some c) (hw : Evolves id s w)
    (hd : Stands id d w) (hthread : d.thread ≠ none → c.thread ≠ none)
    (hlive : d.account.Live → c.thread ≠ none ∨ c.account.Live) :
    Orderly { s.set id d with world := w } := by
  have hset {j : ℕ} {b : Connection} (hj : Function.update s.connections id (some d) j = some b) :
      j = id ∧ b = d ∨ j ≠ id ∧ s.connections j = some b := by
    by_cases hid : j = id
    · subst hid
      rw [Function.update_self] at hj
      exact .inl ⟨rfl, (Option.some.inj hj).symm⟩
    · rw [Function.update_of_ne hid] at hj
      exact .inr ⟨hid, hj⟩
  constructor
  · intro j b hj
    rcases hset hj with ⟨rfl, rfl⟩ | ⟨hid, hj⟩
    · exact hd
    · exact hw.others h hid hj
  · intro e he j howner
    by_cases hid : j = id
    · subst hid
      change Function.update s.connections j (some d) j ≠ none
      rw [Function.update_self]
      exact Option.some_ne_none d
    · change Function.update s.connections id (some d) j ≠ none
      rw [Function.update_of_ne hid]
      exact h.owned e (hw.same e he j hid howner) j howner
  · exact hw.names
  · exact hw.nodes
  · exact hw.bounded h
  · intro j b hj
    rcases hset hj with ⟨rfl, rfl⟩ | ⟨hid, hj⟩
    · exact h.numbered j c hc
    · exact h.numbered j b hj
  · intro hphase j b hj
    rcases hset hj with ⟨rfl, rfl⟩ | ⟨hid, hj⟩
    · exact not_not.mp fun hb => hthread hb (h.idle hphase j c hc)
    · exact h.idle hphase j b hj
  · intro first hphase
    refine ⟨(h.fresh first hphase).1, fun j b hj hb => ?_⟩
    rcases hset hj with ⟨rfl, rfl⟩ | ⟨hid, hj⟩
    · refine (h.fresh first hphase).2 j c hc ?_
      rcases hb with hb | hb
      · exact .inl (hthread hb)
      · exact hlive hb
    · exact (h.fresh first hphase).2 j b hj hb
  · intro boot clear hphase
    refine ⟨(h.starting boot clear hphase).1, fun hclear j b hj => ?_⟩
    rcases hset hj with ⟨rfl, rfl⟩ | ⟨hid, hj⟩
    · intro hb
      rcases hlive hb with hc' | hc'
      · refine hc' (h.idle (fun first hup => ?_) j c hc)
        exact Phase.noConfusion (hphase.symm.trans hup)
      · exact (h.starting boot clear hphase).2 hclear j c hc hc'
    · exact (h.starting boot clear hphase).2 hclear j b hj

theorem Stands.rethread (h : Stands id c w) {thread : Option Thread}
    (hpromises : Promises c.account thread) (halive : thread ≠ none → c.thread ≠ none) :
    Stands id ⟨thread, c.account⟩ w where
  promises := hpromises
  sound := h.sound
  recorded hrecorded := h.recorded ⟨hrecorded.1.imp halive fun hlive => hlive, hrecorded.2⟩
  matched := h.matched
  remembered := h.remembered
  seen hthread := h.seen (halive hthread)
  locked hthread := h.locked (halive hthread)
  room hthread := h.room (halive hthread)

end Changes

section Calls

variable {s : System} {id : ℕ} {x y : Account} {e : Entry} {w : World} {call : Call}

/-- What calls that nobody shares leave to a connection. -/
structure Unshared (x y : Account) : Prop where
  node : y.node = x.node
  seen : y.seen = x.seen
  removed : y.removed = x.removed
  locked : y.locked = x.locked
  room : y.room = x.room
  made : y.evidence ≠ .absent → x.evidence ≠ .absent
  matched : ∀ e, Matches x e → Matches y e

theorem Unshared.refl : Unshared x x :=
  ⟨rfl, rfl, rfl, rfl, rfl, fun h => h, fun _ h => h⟩

theorem unshared_same (hidentity : y.identity = x.identity) (hport : y.port = x.port)
    (hevidence : y.evidence = x.evidence) (hnode : y.node = x.node) (hseen : y.seen = x.seen)
    (hremoved : y.removed = x.removed) (hlocked : y.locked = x.locked) (hroom : y.room = x.room) :
    Unshared x y where
  node := hnode
  seen := hseen
  removed := hremoved
  locked := hlocked
  room := hroom
  made hmade := by rwa [← hevidence]
  matched _ h := h.same hidentity hport hremoved hevidence hnode

/-- The record goes from written to synced to durable. -/
theorem unshared_evidence (step : Evidence → Evidence)
    (habsent : ∀ v, step v = .absent ↔ v = .absent)
    (hcreated : ∀ v, step v = .created → v = .created)
    (hwritten : ∀ v, step v = .written ∨ step v = .synced ∨ step v = .durable →
      v = .written ∨ v = .synced ∨ v = .durable) :
    Unshared x { x with evidence := step x.evidence } where
  node := rfl
  seen := rfl
  removed := rfl
  locked := rfl
  room := rfl
  made hmade := mt (habsent _).mpr hmade
  matched _ h := ⟨h.name, h.kept, mt (habsent _).mp h.made, h.node,
    fun hblank => h.blank (hcreated _ hblank), fun hline => h.line (hwritten _ hline)⟩

theorem unshared_after (hallowed : x.allows call) (hcall : Call.shared call = false)
    (answer : Answer call) : Unshared x (x.after call answer) := by
  cases call with
  | readStatus =>
    cases answer with
    | error e => exact .refl
    | ok status => exact unshared_same rfl rfl rfl rfl rfl rfl rfl rfl
  | writeAttach request => exact unshared_same rfl rfl rfl rfl rfl rfl rfl rfl
  | reserve inventory =>
    cases answer with
    | error e => exact .refl
    | ok lease =>
      refine ⟨rfl, rfl, rfl, rfl, rfl, fun h => h, fun _ h =>
        ⟨h.name, h.kept, h.made, h.node, h.blank, fun hline => ?_⟩⟩
      have hnone : x.line = none := by
        unfold Account.line
        cases x.identity with
        | none => rfl
        | some i =>
          have hport : x.port = none := hallowed
          rw [hport]
          rfl
      exact absurd (hnone.symm.trans (h.line hline)) (Option.some_ne_none _).symm
  | dropLease lease => exact unshared_same rfl rfl rfl rfl rfl rfl rfl rfl
  | random =>
    cases answer with
    | error e => exact .refl
    | ok i => exact ⟨rfl, rfl, rfl, rfl, rfl, fun h => h, fun _ h => absurd hallowed h.made⟩
  | socketPairs =>
    rcases answer with e | ⟨kernel, channels⟩
    · exact .refl
    · exact unshared_same rfl rfl rfl rfl rfl rfl rfl rfl
  | shutdown =>
    have hdown : Unshared x { x with down := true } :=
      unshared_same rfl rfl rfl rfl rfl rfl rfl rfl
    rcases answer with e | _
    · cases e <;> first | exact hdown | exact .refl
    · exact hdown
  | tryWait =>
    rcases answer with e | _ | status
    · exact .refl
    · exact .refl
    · exact unshared_same rfl rfl rfl rfl rfl rfl rfl rfl
  | syncRecord =>
    cases answer with
    | error e => exact .refl
    | ok _ =>
      exact unshared_evidence Evidence.sync (fun _ => sync_absent)
        (fun v => by cases v <;> decide) (fun v => by cases v <;> decide)
  | syncDirectory =>
    cases answer with
    | error e => exact .refl
    | ok _ =>
      exact unshared_evidence Evidence.settle (fun _ => settle_absent)
        (fun v => by cases v <;> decide) (fun v => by cases v <;> decide)
  | lock => cases hcall
  | unlock => cases hcall
  | readDir => cases hcall
  | createNew name => cases hcall
  | recordMetadata => cases hcall
  | writeRecord line => cases hcall
  | openRecord name => cases hcall
  | removeFile name => cases hcall
  | _ => exact .refl

/-- A busy connection after a call that changed nothing shared. -/
theorem Stands.unshared {thread thread' : Option Thread} (h : Stands id ⟨thread, x⟩ w)
    (halive : thread ≠ none) (hpromises : Promises y thread') (hsound : Sound y)
    (hy : Unshared x y) : Stands id ⟨thread', y⟩ w where
  promises := hpromises
  sound := hsound
  recorded hrecorded := h.recorded
    ⟨.inl halive, hy.made hrecorded.2.1, hy.removed.symm.trans hrecorded.2.2⟩
  matched e he howner := hy.matched e (h.matched e he howner)
  remembered e he hnode := h.remembered e he (hy.node.symm.trans hnode)
  seen _ hseen := h.seen halive (hy.seen.symm.trans hseen)
  locked _ hlocked := h.locked halive (hy.locked.symm.trans hlocked)
  room _ hroom := h.room halive (hy.room.symm.trans hroom)

theorem own_length_le (w : World) : w.own.length ≤ w.directory.length := List.length_filter_le _ _

theorem own_write (id : ℕ) (text : Text) (w : World) :
    (w.write id text).own.length = w.own.length := by
  unfold World.own World.write
  rw [List.filter_map, List.length_map]
  congr 2
  funext e
  change (if e.owner = some id then { e with content := e.content ++ text } else e).owner.isSome = _
  by_cases howner : e.owner = some id
  · rw [if_pos howner]
  · rw [if_neg howner]

theorem mem_write {text : Text} (he : e ∈ (w.write id text).directory) : ∃ f ∈ w.directory,
    f.name = e.name ∧ f.owner = e.owner ∧ f.node = e.node ∧
      (e.owner = some id → e.content = f.content ++ text) ∧ (e.owner ≠ some id → e = f) := by
  obtain ⟨f, hf, rfl⟩ := List.mem_map.mp he
  refine ⟨f, hf, ?_⟩
  by_cases howner : f.owner = some id
  · rw [if_pos howner]
    exact ⟨rfl, rfl, rfl, fun _ => rfl, fun hne => absurd howner hne⟩
  · rw [if_neg howner]
    exact ⟨rfl, rfl, rfl, fun heq => absurd heq howner, fun _ => rfl⟩

theorem write_mem (id : ℕ) (text : Text) (he : e ∈ w.directory) :
    ∃ f ∈ (w.write id text).directory, f.owner = e.owner := by
  refine ⟨_, List.mem_map_of_mem he, ?_⟩
  by_cases howner : e.owner = some id
  · rw [if_pos howner]
  · rw [if_neg howner]

theorem map_write {α : Type} (f : Entry → α) (hf : ∀ e content, f { e with content } = f e)
    (text : Text) : (w.write id text).directory.map f = w.directory.map f := by
  unfold World.write
  rw [List.map_map]
  apply List.map_congr_left
  intro e _
  change f (if e.owner = some id then { e with content := e.content ++ text } else e) = f e
  by_cases howner : e.owner = some id
  · rw [if_pos howner]
    exact hf e _
  · rw [if_neg howner]

end Calls

section Worlds

variable {s : System} {id : ℕ} {x : Account} {e : Entry} {w : World}
  {thread thread' : Option Thread}

theorem evolves_holder (h : Orderly s) {holder : Option ℕ}
    (hholder : ∀ j, j ≠ id → s.world.holder = some j → holder = some j) :
    Evolves id s { s.world with holder } :=
  ⟨fun e he _ _ howner => ⟨e, he, howner⟩, fun _ he _ _ _ => he, fun e he => .inr ⟨e, he, rfl, rfl⟩,
    h.names, h.nodes, hholder, .inl le_rfl⟩

theorem evolves_write (h : Orderly s) (text : Text) : Evolves id s (s.world.write id text) where
  kept e he j _ howner := by
    obtain ⟨f, hf, hsame⟩ := write_mem id text he
    exact ⟨f, hf, hsame.trans howner⟩
  same e he j hj howner := by
    obtain ⟨f, hf, _, _, _, _, hother⟩ := mem_write he
    rw [hother fun heq => hj (Option.some.inj (howner.symm.trans heq))]
    exact hf
  known e he := by
    obtain ⟨f, hf, _, howner, hnode, _⟩ := mem_write he
    exact .inr ⟨f, hf, hnode, howner⟩
  names := by
    rw [map_write Entry.name fun _ _ => rfl]
    exact h.names
  nodes := by
    rw [map_write Entry.node fun _ _ => rfl]
    exact h.nodes
  holder _ _ hj := hj
  room := .inl (own_write id text s.world).le

theorem evolves_create (h : Orderly s) {name : Text} {node : Node}
    (hname : ∀ e ∈ s.world.directory, e.name ≠ name) (hnode : ¬s.Known node)
    (hholder : s.world.holder = some id) (hroom : s.world.own.length < maxRecords) :
    Evolves id s { s.world with directory := ⟨name, some id, node, []⟩ :: s.world.directory } where
  kept e he j _ howner := ⟨e, List.mem_cons_of_mem _ he, howner⟩
  same e he j hj howner := by
    rcases List.mem_cons.mp he with rfl | he
    · exact absurd (Option.some.inj howner).symm hj
    · exact he
  known e he := by
    rcases List.mem_cons.mp he with rfl | he
    · exact .inl hnode
    · exact .inr ⟨e, he, rfl, rfl⟩
  names := by
    refine List.nodup_cons.mpr ⟨fun hmem => ?_, h.names⟩
    obtain ⟨e, he, heq⟩ := List.mem_map.mp hmem
    exact hname e he heq
  nodes := by
    refine List.nodup_cons.mpr ⟨fun hmem => ?_, h.nodes⟩
    obtain ⟨e, he, heq⟩ := List.mem_map.mp hmem
    exact hnode (.inl ⟨e, he, heq⟩)
  holder _ _ hj := hj
  room := .inr ⟨hholder, hroom⟩

theorem filter_own_le (w : World) (p : Entry → Bool) :
    (World.own { w with directory := w.directory.filter p }).length ≤ w.own.length :=
  (((List.filter_sublist (p := p) (l := w.directory)).filter _).length_le)

/-- A name that is removed takes only the file of `id` along. -/
theorem evolves_remove (h : Orderly s) {name : Text}
    (hname : ∀ e ∈ s.world.directory, e.name = name → e.owner = some id) :
    Evolves id s { s.world with directory := s.world.directory.filter fun e => e.name ≠ name } where
  kept e he j hj howner := by
    refine ⟨e, List.mem_filter.mpr ⟨he, decide_eq_true fun heq => hj ?_⟩, howner⟩
    exact Option.some.inj (howner.symm.trans (hname e he heq))
  same e he _ _ _ := (List.mem_filter.mp he).1
  known e he := .inr ⟨e, (List.mem_filter.mp he).1, rfl, rfl⟩
  names := h.names.sublist (List.filter_sublist.map _)
  nodes := h.nodes.sublist (List.filter_sublist.map _)
  holder _ _ hj := hj
  room := .inl (filter_own_le _ _)

theorem eq_of_name (h : Orderly s) {f : Entry} (he : e ∈ s.world.directory)
    (hf : f ∈ s.world.directory) (hname : e.name = f.name) : e = f :=
  List.inj_on_of_nodup_map h.names he hf hname

theorem eq_of_node (h : Orderly s) {f : Entry} (he : e ∈ s.world.directory)
    (hf : f ∈ s.world.directory) (hnode : e.node = f.node) : e = f :=
  List.inj_on_of_nodup_map h.nodes he hf hnode

end Worlds

section Shared

variable {s : System} {id : ℕ} {x y : Account} {e : Entry} {thread thread' : Option Thread}

/-- A busy connection after a call that left its file alone. -/
theorem Stands.learned (h : Stands id ⟨thread, x⟩ s.world) (halive : thread ≠ none)
    (holder : Option ℕ) (hpromises : Promises y thread') (hsound : Sound y)
    (hfile : (∀ e, Matches x e → Matches y e) ∧ y.evidence = x.evidence ∧ y.removed = x.removed ∧
      y.node = x.node)
    (hseen : y.seen = true → x.seen = true ∨ ∃ e ∈ s.world.directory, e.owner = some id)
    (hlocked : y.locked = true → holder = some id)
    (hroom : y.room = true → s.world.own.length < maxRecords) :
    Stands id ⟨thread', y⟩ { s.world with holder } := by
  obtain ⟨hmatches, hevidence, hremoved, hnode⟩ := hfile
  exact
    { promises := hpromises
      sound := hsound
      recorded := fun hrecorded => h.recorded ⟨.inl halive, hevidence ▸ hrecorded.2.1,
        hremoved.symm.trans hrecorded.2.2⟩
      matched := fun e he howner => hmatches e (h.matched e he howner)
      remembered := fun e he hremember => h.remembered e he (hnode.symm.trans hremember)
      seen := fun _ hlook => (hseen hlook).elim (h.seen halive) fun hown => hown
      locked := fun _ => hlocked
      room := fun _ => hroom }

theorem stands_lock (h : Stands id ⟨thread, x⟩ s.world) (halive : thread ≠ none)
    (hpromises : Promises { x with locked := true, room := false } thread')
    (hsound : Sound { x with locked := true, room := false }) :
    Stands id ⟨thread', { x with locked := true, room := false }⟩
      { s.world with holder := some id } :=
  h.learned halive (some id) hpromises hsound
    ⟨fun _ hmatch => hmatch.same rfl rfl rfl rfl rfl, rfl, rfl, rfl⟩ .inl (fun _ => rfl)
    fun hroom => absurd hroom Bool.false_ne_true

theorem stands_unlock (h : Stands id ⟨thread, x⟩ s.world) (halive : thread ≠ none)
    (hpromises : Promises { x with locked := false, room := false } thread')
    (hsound : Sound { x with locked := false, room := false }) :
    Stands id ⟨thread', { x with locked := false, room := false }⟩
      { s.world with holder := none } :=
  h.learned halive none hpromises hsound
    ⟨fun _ hmatch => hmatch.same rfl rfl rfl rfl rfl, rfl, rfl, rfl⟩ .inl
    (fun hlocked => absurd hlocked Bool.false_ne_true) fun hroom => absurd hroom Bool.false_ne_true

theorem stands_readDir (h : Stands id ⟨thread, x⟩ s.world) (hs : Orderly s) (halive : thread ≠ none)
    {entries : List (Except IoError (Option Text))} (hlisted : Listed s.world.directory entries)
    (hpromises : Promises { x with room := x.locked && roomIn entries } thread')
    (hsound : Sound { x with room := x.locked && roomIn entries }) :
    Stands id ⟨thread', { x with room := x.locked && roomIn entries }⟩ s.world := by
  refine h.learned halive s.world.holder hpromises hsound
    ⟨fun _ hmatch => hmatch.same rfl rfl rfl rfl rfl, rfl, rfl, rfl⟩ .inl (h.locked halive)
    fun hroom => ?_
  have hin : roomIn entries = true := (Bool.and_eq_true_iff.mp hroom).2
  unfold roomIn at hin
  cases hnames : admitEntries entries [] with
  | error e =>
    rw [hnames] at hin
    exact absurd hin Bool.false_ne_true
  | ok names =>
    rw [hnames] at hin
    calc s.world.own.length
        ≤ s.world.directory.length := own_length_le _
      _ ≤ names.length := listed_names hlisted hnames hs.names
      _ < maxRecords := of_decide_eq_true hin

/-- A look shows the connection's own file only where that is still there. -/
theorem stands_look (h : Stands id ⟨thread, x⟩ s.world) (halive : thread ≠ none) {seen : Bool}
    (hseen : seen = true → ∃ e ∈ s.world.directory, e.owner = some id)
    (hpromises : Promises { x with seen } thread') (hsound : Sound { x with seen }) :
    Stands id ⟨thread', { x with seen }⟩ s.world :=
  h.learned halive s.world.holder hpromises hsound
    ⟨fun _ hmatch => hmatch.same rfl rfl rfl rfl rfl, rfl, rfl, rfl⟩
    (fun hlook => .inr (hseen hlook)) (h.locked halive) (h.room halive)

/-- Its new file is the only one of its own, and nobody knows its node. -/
theorem stands_create (h : Stands id ⟨thread, x⟩ s.world) {name : Text}
    {node : Node} (hname : x.name = some name) (habsent : x.evidence = .absent)
    (halive : thread ≠ none)
    (hpromises : Promises { x with evidence := .created, room := false } thread')
    (hsound : Sound { x with evidence := .created, room := false }) :
    Stands id ⟨thread', { x with evidence := .created, room := false }⟩
      { s.world with directory := ⟨name, some id, node, []⟩ :: s.world.directory } := by
  have hnone {e : Entry} (he : e ∈ s.world.directory) : e.owner ≠ some id :=
    fun howner => (h.matched e he howner).made habsent
  obtain ⟨hnode, hremoved, _⟩ := h.sound.blank habsent
  refine ⟨hpromises, hsound, fun _ => ⟨_, List.mem_cons_self, rfl⟩, fun e he howner => ?_,
    fun e he hremember => ?_, fun _ _ => ⟨_, List.mem_cons_self, rfl⟩, fun _ => h.locked halive,
    fun _ hroom => absurd hroom Bool.false_ne_true⟩
  · rcases List.mem_cons.mp he with rfl | he
    · refine ⟨hname, hremoved, Evidence.noConfusion, fun n hn => ?_, fun _ => rfl, fun hline => ?_⟩
      · exact absurd (hnode.symm.trans hn) (Option.some_ne_none _).symm
      · rcases hline with hline | hline | hline <;> exact Evidence.noConfusion hline
    · exact absurd howner (hnone he)
  · rcases List.mem_cons.mp he with rfl | he
    · rfl
    · exact h.remembered e he hremember

theorem stands_metadata (h : Stands id ⟨thread, x⟩ s.world) (hs : Orderly s)
    (halive : thread ≠ none) (he : e ∈ s.world.directory) (howner : e.owner = some id)
    (hpromises : Promises { x with node := some e.node } thread')
    (hsound : Sound { x with node := some e.node }) :
    Stands id ⟨thread', { x with node := some e.node }⟩ s.world where
  promises := hpromises
  sound := hsound
  recorded hrecorded := h.recorded ⟨.inl halive, hrecorded.2⟩
  matched f hf hsame := by
    have hmatch := h.matched f hf hsame
    have hname := hmatch.name.symm.trans (h.matched e he howner).name
    obtain rfl := eq_of_name hs hf he (Option.some.inj hname)
    exact ⟨hmatch.name, hmatch.kept, hmatch.made, fun n hn => (Option.some.inj hn).symm,
      hmatch.blank, hmatch.line⟩
  remembered f hf hnode := by
    obtain rfl := eq_of_node hs he hf (Option.some.inj hnode)
    exact howner
  seen _ := h.seen halive
  locked _ := h.locked halive
  room _ := h.room halive

/-- The line goes to the file of the connection, which was empty. -/
theorem stands_write (h : Stands id ⟨thread, x⟩ s.world) (halive : thread ≠ none)
    (hcreated : x.evidence = .created) {evidence : Evidence} {text : Text}
    (hmade : evidence ≠ .absent ∧ evidence ≠ .created)
    (hline : evidence = .written ∨ evidence = .synced ∨ evidence = .durable → x.line = some text)
    (hpromises : Promises { x with evidence } thread') (hsound : Sound { x with evidence }) :
    Stands id ⟨thread', { x with evidence }⟩ (s.world.write id text) where
  promises := hpromises
  sound := hsound
  recorded hrecorded := by
    have hmade' : x.evidence ≠ .absent := by
      rw [hcreated]
      exact Evidence.noConfusion
    obtain ⟨e, he, howner⟩ := h.recorded ⟨.inl halive, hmade', hrecorded.2.2⟩
    obtain ⟨f, hf, hsame⟩ := write_mem id text he
    exact ⟨f, hf, hsame.trans howner⟩
  matched e he howner := by
    obtain ⟨f, hf, hname, hsame, hnode, hcontent, _⟩ := mem_write he
    have hmatch := h.matched f hf (hsame.trans howner)
    refine ⟨hname ▸ hmatch.name, hmatch.kept, hmade.1, fun n hn => hnode ▸ hmatch.node n hn,
      fun hblank => absurd hblank hmade.2, fun hwritten => ?_⟩
    rw [hcontent howner, hmatch.blank hcreated]
    exact hline hwritten
  remembered e he hremember := by
    obtain ⟨f, hf, _, hsame, hnode, _⟩ := mem_write he
    exact hsame ▸ h.remembered f hf (hnode ▸ hremember)
  seen _ hseen := by
    obtain ⟨e, he, howner⟩ := h.seen halive hseen
    obtain ⟨f, hf, hsame⟩ := write_mem id text he
    exact ⟨f, hf, hsame.trans howner⟩
  locked _ := h.locked halive
  room _ hroom := by
    rw [own_write]
    exact h.room halive hroom

theorem stands_remove (h : Stands id ⟨thread, x⟩ s.world) (halive : thread ≠ none) {name : Text}
    (hname : x.name = some name)
    (hpromises : Promises { x with removed := true, seen := false } thread')
    (hsound : Sound { x with removed := true, seen := false }) :
    Stands id ⟨thread', { x with removed := true, seen := false }⟩
      { s.world with directory := s.world.directory.filter fun e => e.name ≠ name } where
  promises := hpromises
  sound := hsound
  recorded hrecorded := absurd hrecorded.2.2 (Bool.noConfusion : (true : Bool) ≠ false)
  matched e he howner := by
    obtain ⟨he, hother⟩ := List.mem_filter.mp he
    have hsame := (h.matched e he howner).name.symm.trans hname
    exact absurd (Option.some.inj hsame) (of_decide_eq_true hother)
  remembered e he := h.remembered e (List.mem_filter.mp he).1
  seen _ hseen := absurd hseen Bool.false_ne_true
  locked _ := h.locked halive
  room _ hroom := (filter_own_le _ _).trans_lt (h.room halive hroom)

end Shared

section Runs

variable {s t : System} {id : ℕ} {c d : Connection} {x : Account} {call : Call} {e : Entry}
  {w : World}

/-- One call of one connection. -/
theorem Orderly.called (h : Orderly s) {next : Answer call → Task} {answer : Answer call}
    (hc : s.connections id = some ⟨some (.busy (.ask call next)), x⟩)
    (hserved : Served id s.Known s.world call answer w) :
    Orderly { s.set id ⟨some (.busy (next answer)), x.after call answer⟩ with world := w } := by
  have hstands := h.stands id _ hc
  obtain ⟨hallowed, hnext⟩ : x.allows call ∧ ∀ answer, Obeys monitor Ends (next answer)
    (x.after call answer) := hstands.promises
  have hpromises := hnext answer
  have hsound := sound_after hstands.sound hallowed answer
  have halive : some (Thread.busy (.ask call next)) ≠ none := Option.some_ne_none _
  have hmoved (hw : Evolves id s w)
      (hd : Stands id ⟨some (.busy (next answer)), x.after call answer⟩ w) :
      Orderly { s.set id ⟨some (.busy (next answer)), x.after call answer⟩ with world := w } :=
    h.moved hc hw hd (fun _ => halive) fun _ => .inl halive
  have hsame := h.evolves id
  cases hserved with
  | locked hfree =>
    refine hmoved (evolves_holder h fun j hj hholder => ?_)
      (stands_lock hstands halive hpromises hsound)
    exact absurd (hfree.symm.trans hholder) (Option.some_ne_none j).symm
  | poisoned error => exact hmoved hsame (hstands.unshared halive hpromises hsound .refl)
  | unlocked =>
    refine hmoved (evolves_holder h fun j hj hholder => ?_)
      (stands_unlock hstands halive hpromises hsound)
    have hid := hstands.locked halive hallowed
    exact absurd (Option.some.inj (hholder.symm.trans hid)) hj
  | listed hlisted =>
    exact hmoved hsame (stands_readDir hstands h halive hlisted hpromises hsound)
  | unlisted error => exact hmoved hsame (hstands.unshared halive hpromises hsound .refl)
  | created hname hnode =>
    obtain ⟨hlocked, hroom, habsent, hown⟩ := hallowed
    refine hmoved (evolves_create h hname hnode (hstands.locked halive hlocked)
      (hstands.room halive hroom)) ?_
    exact stands_create hstands hown habsent halive hpromises hsound
  | uncreated name error => exact hmoved hsame (hstands.unshared halive hpromises hsound .refl)
  | metadata he howner =>
    exact hmoved hsame (stands_metadata hstands h halive he howner hpromises hsound)
  | unknown error => exact hmoved hsame (hstands.unshared halive hpromises hsound .refl)
  | wrote line =>
    refine hmoved (evolves_write h line) (stands_write hstands halive hallowed.1
      ⟨Evidence.noConfusion, Evidence.noConfusion⟩ (fun _ => hallowed.2) hpromises hsound)
  | tore error hpart =>
    refine hmoved (evolves_write h _) (stands_write hstands halive hallowed.1
      ⟨Evidence.noConfusion, Evidence.noConfusion⟩ (fun hwritten => ?_) hpromises hsound)
    rcases hwritten with hwritten | hwritten | hwritten <;> exact Evidence.noConfusion hwritten
  | @looked e regular he =>
    refine hmoved hsame (stands_look hstands halive (fun hseen => ?_) hpromises hsound)
    exact ⟨e, he, hstands.remembered e he (of_decide_eq_true (Bool.and_eq_true_iff.mp hseen).2)⟩
  | unseen name error =>
    exact hmoved hsame (stands_look hstands halive (fun hseen => absurd hseen Bool.false_ne_true)
      hpromises hsound)
  | removed name =>
    obtain ⟨hseen, _, _, hname⟩ := hallowed
    obtain ⟨e, he, howner⟩ := hstands.seen halive hseen
    have hmatch := hstands.matched e he howner
    refine hmoved (evolves_remove h fun f hf hf' => ?_)
      (stands_remove hstands halive hname hpromises hsound)
    have hsame := eq_of_name h hf he (hf'.trans (Option.some.inj (hname.symm.trans hmatch.name)))
    rw [hsame]
    exact howner
  | kept name error => exact hmoved hsame (hstands.unshared halive hpromises hsound .refl)
  | other answer hcall =>
    exact hmoved hsame
      (hstands.unshared halive hpromises hsound (unshared_after hallowed hcall answer))

/-- A change of one thread alone. -/
theorem Orderly.rethread (h : Orderly s) {thread thread' : Option Thread}
    (hc : s.connections id = some ⟨thread, x⟩) (hpromises : Promises x thread')
    (halive : thread' ≠ none → thread ≠ none) : Orderly (s.set id ⟨thread', x⟩) :=
  h.moved hc (h.evolves id) ((h.stands id _ hc).rethread hpromises halive) halive .inr

/-- A listing that starts a host leaves nothing attached. -/
theorem Orderly.empty (h : Orderly s) {entries : List (Except IoError (Option Text))}
    (hlisted : Listed s.world.directory entries) (hempty : emptyIn entries = true) (id : ℕ)
    (c : Connection) (hc : s.connections id = some c) : ¬c.account.Live := by
  intro hlive
  obtain ⟨e, he, _⟩ := (h.stands id c hc).live hlive
  unfold emptyIn at hempty
  cases hnames : admitEntries entries [] with
  | error e =>
    rw [hnames] at hempty
    exact Bool.false_ne_true hempty
  | ok names =>
    rw [hnames] at hempty
    have hlength := listed_names hlisted hnames h.names
    rw [List.isEmpty_iff.mp hempty] at hlength
    exact absurd (List.length_pos_of_mem he) (not_lt.mpr hlength)

theorem Stands.world (h : Stands id c s.world) {w : World} (hthread : c.thread = none)
    (hrecorded : ∀ e ∈ s.world.directory, e.owner = some id → c.account.Live →
      ∃ f ∈ w.directory, f.owner = some id)
    (hsame : ∀ e ∈ w.directory, e.owner = some id → e ∈ s.world.directory)
    (hremembered : ∀ e ∈ w.directory, c.account.node = some e.node → e.owner = some id) :
    Stands id c w where
  promises := h.promises
  sound := h.sound
  recorded hkept := by
    obtain ⟨e, he, howner⟩ := h.recorded hkept
    exact hrecorded e he howner (hkept.1.resolve_left fun hne => hne hthread)
  matched e he howner := h.matched e (hsame e he howner) howner
  remembered := hremembered
  seen halive := absurd hthread halive
  locked halive := absurd hthread halive
  room halive := absurd hthread halive

theorem crashed_stands (h : Stands id c s.world) :
    Stands id c.crashed { s.world with holder := none } where
  promises := trivial
  sound := h.sound
  recorded hkept := h.recorded ⟨.inr (hkept.1.resolve_left fun hne => hne rfl), hkept.2⟩
  matched := h.matched
  remembered := h.remembered
  seen halive := absurd rfl halive
  locked halive := absurd rfl halive
  room halive := absurd rfl halive

theorem Orderly.crash (h : Orderly s) : Orderly { s with
    phase := .down
    world := { s.world with holder := none }
    connections := fun id => (s.connections id).map Connection.crashed } := by
  have hold {id : ℕ} {c : Connection} (hc : (s.connections id).map Connection.crashed = some c) :
      ∃ b, s.connections id = some b ∧ c = b.crashed := by
    obtain ⟨b, hb, rfl⟩ := Option.map_eq_some_iff.mp hc
    exact ⟨b, hb, rfl⟩
  refine ⟨fun id c hc => ?_, fun e he id howner hnone => ?_, h.names, h.nodes, h.bounded,
    fun id c hc => ?_, fun _ id c hc => ?_, fun first hphase => Phase.noConfusion hphase,
    fun boot clear hphase => Phase.noConfusion hphase⟩
  · obtain ⟨b, hb, rfl⟩ := hold hc
    exact crashed_stands (h.stands id b hb)
  · exact h.owned e he id howner (Option.map_eq_none_iff.mp hnone)
  · obtain ⟨b, hb, rfl⟩ := hold hc
    exact h.numbered id b hb
  · obtain ⟨b, hb, rfl⟩ := hold hc
    rfl

/-- What an administrator does leaves connections as they are. -/
theorem Orderly.administered (h : Orderly s) {w : World}
    (hstands : ∀ id c, s.connections id = some c → Stands id c w)
    (howned : ∀ e ∈ w.directory, ∀ id, e.owner = some id → e ∈ s.world.directory)
    (hnames : (w.directory.map Entry.name).Nodup) (hnodes : (w.directory.map Entry.node).Nodup)
    (hown : w.own.length ≤ s.world.own.length) : Orderly { s with world := w } where
  stands := hstands
  owned e he id howner := h.owned e (howned e he id howner) id howner
  names := hnames
  nodes := hnodes
  bounded := hown.trans h.bounded
  numbered := h.numbered
  idle := h.idle
  fresh := h.fresh
  starting := h.starting

theorem bootAfter_other {clear : Bool} (hcall : call ≠ .readDir) (answer : Answer call) :
    bootAfter clear call answer = clear := by
  cases call with
  | readDir => exact absurd rfl hcall
  | _ => rfl

/-- Only an empty journal clears a host that starts. -/
theorem Orderly.cleared (h : Orderly s) {answer : Answer call} {clear : Bool}
    (hserved : Served id s.Known s.world call answer w)
    (hclear : clear = true → ∀ id c, s.connections id = some c → ¬c.account.Live)
    (hafter : bootAfter clear call answer = true) :
    ∀ id c, s.connections id = some c → ¬c.account.Live := by
  by_cases hcall : call = .readDir
  · subst hcall
    cases hserved with
    | listed hlisted => exact h.empty hlisted hafter
    | unlisted error => exact hclear hafter
    | other answer hshared => cases hshared
  · rw [bootAfter_other hcall] at hafter
    exact hclear hafter

theorem crashed_idle (hthread : c.thread = none) : c.crashed = c := by
  obtain ⟨thread, x⟩ := c
  change thread = none at hthread
  rw [hthread]
  rfl

/-- No connection is left over when a host is up. -/
theorem Orderly.started (h : Orderly s) (hphase : ∀ first, s.phase ≠ .up first)
    (hclear : ∀ id c, s.connections id = some c → ¬c.account.Live) : Orderly { s with
      phase := .up s.next
      world := { s.world with holder := none } } where
  stands id c hc := by
    rw [← crashed_idle (h.idle hphase id c hc)]
    exact crashed_stands (h.stands id c hc)
  owned := h.owned
  names := h.names
  nodes := h.nodes
  bounded := h.bounded
  numbered := h.numbered
  idle hdown := absurd rfl (hdown s.next)
  fresh first hup := by
    obtain rfl := Phase.up.inj hup
    refine ⟨le_rfl, fun id c hc hpresent => ?_⟩
    rcases hpresent with hthread | hlive
    · exact absurd (h.idle hphase id c hc) hthread
    · exact absurd hlive (hclear id c hc)
  starting boot clear hstart := Phase.noConfusion hstart

theorem Orderly.unused (h : Orderly s) : s.connections s.next = none := by
  cases hc : s.connections s.next with
  | none => rfl
  | some c => exact absurd (h.numbered s.next c hc) (lt_irrefl _)

theorem Orderly.accepted (h : Orderly s) {first : ℕ} (hphase : s.phase = .up first) {task : Task}
    (htask : Obeys monitor Ends task .new) :
    Orderly { s.set s.next ⟨some (.busy task), .new⟩ with next := s.next + 1 } := by
  have hnext (e : Entry) (he : e ∈ s.world.directory) : e.owner ≠ some s.next :=
    fun howner => h.owned e he s.next howner h.unused
  have hset {j : ℕ} {b : Connection}
      (hj : Function.update s.connections s.next (some ⟨some (.busy task), .new⟩) j = some b) :
      j = s.next ∧ b = ⟨some (.busy task), .new⟩ ∨ s.connections j = some b := by
    by_cases hid : j = s.next
    · subst hid
      rw [Function.update_self] at hj
      exact .inl ⟨rfl, (Option.some.inj hj).symm⟩
    · rw [Function.update_of_ne hid] at hj
      exact .inr hj
  constructor
  · intro j b hj
    rcases hset hj with ⟨rfl, rfl⟩ | hj
    · exact ⟨htask, sound_new, fun hrecorded => absurd rfl hrecorded.2.1,
        fun e he howner => absurd howner (hnext e he),
        fun e he hnode => absurd hnode.symm (Option.some_ne_none _),
        fun _ hseen => absurd hseen Bool.false_ne_true,
        fun _ hlocked => absurd hlocked Bool.false_ne_true,
        fun _ hroom => absurd hroom Bool.false_ne_true⟩
    · exact h.stands j b hj
  · intro e he j howner
    change Function.update s.connections s.next _ j ≠ none
    rw [Function.update_of_ne fun hid => hnext e he (howner.trans (congrArg some hid))]
    exact h.owned e he j howner
  · exact h.names
  · exact h.nodes
  · exact h.bounded
  · intro j b hj
    rcases hset hj with ⟨rfl, rfl⟩ | hj
    · exact Nat.lt_succ_self _
    · exact (h.numbered j b hj).trans (Nat.lt_succ_self _)
  · intro hdown
    exact absurd hphase (hdown first)
  · intro other hup
    obtain ⟨hle, hold⟩ := h.fresh other hup
    refine ⟨hle.trans (Nat.le_succ _), fun j b hj hpresent => ?_⟩
    rcases hset hj with ⟨rfl, rfl⟩ | hj
    · exact hle
    · exact hold j b hj hpresent
  · intro boot clear hstart
    exact Phase.noConfusion (hphase.symm.trans hstart)

theorem Orderly.settled (h : Orderly s) (hc : s.connections id = some ⟨none, x⟩) :
    Orderly (s.set id ⟨none, { x with down := true, reaped := true }⟩) := by
  have hstands := h.stands id _ hc
  have hgone : ¬Account.Live { x with down := true, reaped := true } :=
    fun hlive => hlive.2 ⟨rfl, rfl⟩
  refine h.moved hc (h.evolves id) ?_ (fun hthread => absurd rfl hthread)
    fun hlive => absurd hlive hgone
  exact
    { promises := trivial
      sound := ⟨hstands.sound.asked, fun _ => ⟨rfl, rfl⟩, hstands.sound.named, hstands.sound.room,
        hstands.sound.blank⟩
      recorded := fun hkept => absurd (hkept.1.resolve_left fun hne => hne rfl) hgone
      matched := fun e he howner => (hstands.matched e he howner).same rfl rfl rfl rfl rfl
      remembered := hstands.remembered
      seen := fun hthread => absurd rfl hthread
      locked := fun hthread => absurd rfl hthread
      room := fun hthread => absurd rfl hthread }

theorem own_cons (howner : e.owner = none) (w : World) :
    World.own { w with directory := e :: w.directory } = w.own := by
  unfold World.own
  exact List.filter_cons_of_neg (by rw [howner]; exact Bool.false_ne_true)

theorem Stands.added (h : Stands id c w) (howner : e.owner = none)
    (hnode : c.account.node ≠ some e.node) :
    Stands id c { w with directory := e :: w.directory } where
  promises := h.promises
  sound := h.sound
  recorded hkept := by
    obtain ⟨f, hf, hown⟩ := h.recorded hkept
    exact ⟨f, List.mem_cons_of_mem _ hf, hown⟩
  matched f hf hown := by
    rcases List.mem_cons.mp hf with rfl | hf
    · exact absurd (howner.symm.trans hown).symm (Option.some_ne_none _)
    · exact h.matched f hf hown
  remembered f hf hremember := by
    rcases List.mem_cons.mp hf with rfl | hf
    · exact absurd hremember hnode
    · exact h.remembered f hf hremember
  seen hthread hseen := by
    obtain ⟨f, hf, hown⟩ := h.seen hthread hseen
    exact ⟨f, List.mem_cons_of_mem _ hf, hown⟩
  locked := h.locked
  room hthread hroom := by
    rw [own_cons howner]
    exact h.room hthread hroom

theorem Orderly.added (h : Orderly s) (hname : ∀ f ∈ s.world.directory, f.name ≠ e.name)
    (hnode : ¬s.Known e.node) (howner : e.owner = none) :
    Orderly { s with world := { s.world with directory := e :: s.world.directory } } := by
  refine h.administered (fun id c hc => ?_) (fun f hf id hown => ?_) ?_ ?_ ?_
  · refine (h.stands id c hc).added howner fun hremember => hnode (.inr ⟨id, c, hc, hremember⟩)
  · rcases List.mem_cons.mp hf with rfl | hf
    · exact absurd (howner.symm.trans hown).symm (Option.some_ne_none _)
    · exact hf
  · refine List.nodup_cons.mpr ⟨fun hmem => ?_, h.names⟩
    obtain ⟨f, hf, heq⟩ := List.mem_map.mp hmem
    exact hname f hf heq
  · refine List.nodup_cons.mpr ⟨fun hmem => ?_, h.nodes⟩
    obtain ⟨f, hf, heq⟩ := List.mem_map.mp hmem
    exact hnode (.inl ⟨f, hf, heq⟩)
  · rw [own_cons howner]

theorem Orderly.discarded (h : Orderly s) {name : Text} (hphase : s.phase = .down)
    (hgone : ∀ e ∈ s.world.directory, e.name = name → ∀ id c, e.owner = some id →
      s.connections id = some c → ¬c.account.Live) :
    Orderly { s with world := { s.world with
      directory := s.world.directory.filter fun e => e.name ≠ name } } := by
  refine h.administered (fun id c hc => ?_) (fun e he _ _ => (List.mem_filter.mp he).1)
    (h.names.sublist (List.filter_sublist.map _)) (h.nodes.sublist (List.filter_sublist.map _))
    (filter_own_le _ _)
  have hthread : c.thread = none :=
    h.idle (fun first hup => Phase.noConfusion (hphase.symm.trans hup)) id c hc
  refine (h.stands id c hc).world hthread (fun e he howner hlive => ?_)
    (fun e he _ => (List.mem_filter.mp he).1)
    fun e he => (h.stands id c hc).remembered e (List.mem_filter.mp he).1
  refine ⟨e, List.mem_filter.mpr ⟨he, decide_eq_true fun heq => ?_⟩, howner⟩
  exact hgone e he heq id c howner hc hlive

/-- What every step of the system keeps. -/
theorem orderly_step (h : Orderly s) (hstep : Step s t) : Orderly t := by
  cases hstep with
  | boot name hphase =>
    refine ⟨h.stands, h.owned, h.names, h.nodes, h.bounded, h.numbered, fun _ => h.idle ?_,
      fun first hup => Phase.noConfusion hup, fun boot clear hstart => ?_⟩
    · exact fun first hup => Phase.noConfusion (hphase.symm.trans hup)
    · obtain ⟨rfl, rfl⟩ := Phase.starting.inj hstart
      exact ⟨boot_obeys name, fun hclear => absurd hclear Bool.false_ne_true⟩
  | @bootCall call next clear answer hphase hserved =>
    obtain ⟨⟨_, hnext⟩, hclear⟩ := h.starting _ _ hphase
    refine ⟨h.stands, h.owned, h.names, h.nodes, h.bounded, h.numbered, fun _ => h.idle ?_,
      fun first hup => Phase.noConfusion hup, fun boot clear' hstart => ?_⟩
    · exact fun first hup => Phase.noConfusion (hphase.symm.trans hup)
    · obtain ⟨rfl, rfl⟩ := Phase.starting.inj hstart
      exact ⟨hnext answer, h.cleared hserved hclear⟩
  | @started locals clear hphase =>
    obtain ⟨hends, hclear⟩ := h.starting _ _ hphase
    exact h.started (fun first hup => Phase.noConfusion (hphase.symm.trans hup)) (hclear hends)
  | @refused stop locals clear hphase =>
    refine ⟨h.stands, h.owned, h.names, h.nodes, h.bounded, h.numbered, fun _ => h.idle ?_,
      fun first hup => Phase.noConfusion hup, fun boot clear hstart => Phase.noConfusion hstart⟩
    exact fun first hup => Phase.noConfusion (hphase.symm.trans hup)
  | accept fuel config profile identity hphase =>
    exact h.accepted hphase (opening_obeys config profile identity)
  | call hc hserved => exact h.called hc hserved
  | rest hc => exact h.rethread hc (h.stands _ _ hc).promises fun _ => Option.some_ne_none _
  | ended hc => exact h.rethread hc trivial fun hne => absurd rfl hne
  | check hc =>
    exact h.rethread hc (checking_obeys (h.stands _ _ hc).promises) fun _ => Option.some_ne_none _
  | close fuel hc =>
    exact h.rethread hc (closing_obeys (h.stands _ _ hc).promises) fun _ => Option.some_ne_none _
  | leave fuel hc =>
    exact h.rethread hc (leaving_obeys (h.stands _ _ hc).promises) fun _ => Option.some_ne_none _
  | crash => exact h.crash
  | settle hc => exact h.settled hc
  | add hname hnode howner => exact h.added hname hnode howner
  | discard name hphase hgone => exact h.discarded hphase hgone

theorem orderly_new {directory : List Entry} (hnames : (directory.map Entry.name).Nodup)
    (hnodes : (directory.map Entry.node).Nodup) (howners : ∀ e ∈ directory, e.owner = none) :
    Orderly (.new directory) where
  stands id c hc := absurd hc.symm (Option.some_ne_none c)
  owned e he id howner := absurd (howner.symm.trans (howners e he)) (Option.some_ne_none id)
  names := hnames
  nodes := hnodes
  bounded := by
    have hown : World.own ⟨none, directory⟩ = [] :=
      List.filter_eq_nil_iff.mpr fun e he => by rw [howners e he]; exact Bool.false_ne_true
    change (World.own ⟨none, directory⟩).length ≤ maxRecords
    rw [hown]
    exact Nat.zero_le _
  numbered id c hc := absurd hc.symm (Option.some_ne_none c)
  idle _ id c hc := absurd hc.symm (Option.some_ne_none c)
  fresh first hup := Phase.noConfusion hup
  starting boot clear hstart := Phase.noConfusion hstart

theorem reachable_orderly (h : Reachable s) : Orderly s := by
  induction h with
  | new directory hnames hnodes howners => exact orderly_new hnames hnodes howners
  | step _ hstep ih => exact orderly_step ih hstep

theorem set_set : (s.set id c).set id d = s.set id d := by
  unfold System.set
  rw [Function.update_idem]

/-- A connection may go on while the others wait. -/
theorem reachable_call {next : Answer call → Task} {answer : Answer call}
    (h : Reachable (s.set id ⟨some (.busy (.ask call next)), x⟩))
    (hserved : Served id (s.set id ⟨some (.busy (.ask call next)), x⟩).Known s.world call answer
      w) :
    Reachable ({ s with world := w }.set id ⟨some (.busy (next answer)), x.after call answer⟩) := by
  have hstep := h.step (.call _ (Function.update_self ..) hserved)
  rw [set_set] at hstep
  exact hstep

theorem reachable_run (log : Log Call Answer) {task task' : Task}
    (h : Reachable (s.set id ⟨some (.busy task), x⟩)) (hrun : Run task log task')
    (hlog : ∀ e ∈ log, Call.shared e.1 = false) :
    Reachable (s.set id ⟨some (.busy task'), monitor.state x log⟩) := by
  induction hrun generalizing x with
  | here => exact h
  | ask answer _ ih =>
    have hcall := hlog _ List.mem_cons_self
    exact ih (reachable_call h (.other answer hcall)) fun e he => hlog e (List.mem_cons_of_mem _ he)

/-- A broker with an empty journal comes up. -/
theorem reachable_up (h : Reachable s) (name : Text) (hphase : s.phase = .down)
    (hname : validInstance name = true) (hempty : s.world.directory = []) :
    Reachable { s with phase := .up s.next, world := { s.world with holder := none } } := by
  have hboot := h.step (.boot s name hphase)
  have hnot : ¬validInstance name = false := fun hno => Bool.noConfusion (hname.symm.trans hno)
  have hopen : journalOpen name = trustedEach (journalPaths name) := if_neg hnot
  unfold Host.new at hboot
  rw [hopen] at hboot
  have hpath {path : Text} {next : Answer (.pathMetadata path) → Boot}
      (hs : Reachable { s with phase := .starting (.ask (.pathMetadata path) next) false }) :
      Reachable { s with phase := .starting (next (.ok (0, 0, true))) false } :=
    hs.step (@Step.bootCall _ (.pathMetadata path) next false (.ok (0, 0, true)) rfl
      (.other _ rfl))
  have hread := hpath (hpath (hpath (hpath hboot)))
  have hlisted : Listed s.world.directory [] := by
    rw [hempty]
    exact fun _ hmem => absurd hmem List.not_mem_nil
  exact (hread.step (.bootCall _ rfl (.listed hlisted))).step (.started _ rfl)

theorem live_of_up (hrequest : x.request ≠ none) (hdown : x.down = false) : x.Live :=
  ⟨hrequest, fun hgone => Bool.noConfusion (hdown.symm.trans hgone.1)⟩

/-- A connection without a node, alone with an empty journal. -/
theorem unknown_alone {phase : Phase} {holder : Option ℕ} {next : ℕ} (node : Node)
    (hc : c.account.node = none) :
    ¬(System.set ⟨phase, ⟨holder, []⟩, next, fun _ => none⟩ id c).Known node := by
  rintro (⟨e, he, _⟩ | ⟨j, d, hd, hnode⟩)
  · exact absurd he List.not_mem_nil
  · change Function.update (fun _ => none) id (some c) j = some d at hd
    by_cases hid : j = id
    · subst hid
      rw [Function.update_self] at hd
      obtain rfl := Option.some.inj hd
      exact absurd (hc.symm.trans hnode) (Option.some_ne_none _).symm
    · rw [Function.update_of_ne hid] at hd
      exact absurd hd.symm (Option.some_ne_none _)

/-- The status of a host with one port, which is free. -/
def onePort : Text :=
  "hub port sta spd dev sockfd local_busid\nhs 0 004 000 00000000 000000 0-0".toList

/-- Whatever the kernel may still have attached for a connection is in the journal, as the
connection wrote it, and no host that starts later is up while it is. -/
theorem attachments_evidenced (h : Reachable s) :
    (∀ id c, s.connections id = some c → c.account.Live → ∃ e ∈ s.world.directory,
      e.owner = some id ∧ c.account.name = some e.name ∧ c.account.line = some e.content ∧
        c.account.request = c.account.wanted) ∧
    (∀ first, s.phase = .up first → ∀ id c, s.connections id = some c →
      c.thread ≠ none ∨ c.account.Live → first ≤ id) ∧
    s.world.own.length ≤ maxRecords := by
  have horderly := reachable_orderly h
  refine ⟨fun id c hc hlive => ?_, fun first hup => (horderly.fresh first hup).2, horderly.bounded⟩
  have hstands := horderly.stands id c hc
  obtain ⟨e, he, howner, hname, hline⟩ := hstands.live hlive
  exact ⟨e, he, howner, hname, hline, (hstands.sound.asked hlive.1).2⟩

theorem attachments_evidenced_opened : ∃ s c e, Reachable s ∧ s.connections 0 = some c ∧
    c.account.Live ∧ e ∈ s.world.directory ∧ e.owner = some 0 ∧
      c.account.line = some e.content := by
  have hnil {p : Entry → Prop} : ∀ e ∈ ([] : List Entry), p e :=
    fun _ hmem => absurd hmem List.not_mem_nil
  have hup := reachable_up (.new [] List.nodup_nil List.nodup_nil hnil) ['a'] rfl rfl rfl
  have haccept : Reachable (System.set ⟨.up 0, ⟨none, []⟩, 1, fun _ => none⟩ 0
      ⟨some (.busy (opening 1 ⟨['a'], some 1, some 1, ∅⟩ .dualSense [])), .new⟩) :=
    hup.step (.accept _ 1 _ .dualSense [] rfl)
  have hready := reachable_run [⟨.readStatus, .ok onePort⟩, ⟨.reserve onePort, .ok ⟨0⟩⟩,
    ⟨.openAttach, .ok ()⟩, ⟨.attachMetadata, .ok true⟩, ⟨.openRandom, .ok ()⟩,
    ⟨.random, .ok (1, 1)⟩, ⟨.readStatus, .ok onePort⟩, ⟨.socketPairs, .ok (5, ⟨2, 3, 4⟩)⟩,
    ⟨.spawn ⟨['a'], .dualSense, 1, 1, [], 1, 1⟩, .ok ()⟩,
    ⟨.startupFrame, .ok (0, 1 :: bytesLe 8 1)⟩] haccept
    (.ask _ (.ask _ (.ask _ (.ask _ (.ask _ (.ask _ (.ask _ (.ask _ (.ask _ (.ask _
      (.here _))))))))))) (by decide)
  have hlocked := reachable_call hready (.locked rfl)
  have hlisted : Listed [] [] := hnil
  have hroom := reachable_run [⟨.openDirectory, .ok ()⟩] (reachable_call hlocked (.listed hlisted))
    (.ask _ (.here _)) (by decide)
  have hcreated := reachable_call hroom (.created hnil (unknown_alone (7, 1) rfl))
  have hnode := reachable_call hcreated (.metadata List.mem_cons_self rfl)
  have hdurable := reachable_run [⟨.syncRecord, .ok ()⟩, ⟨.syncDirectory, .ok ()⟩]
    (reachable_call hnode (.wrote _)) (.ask _ (.ask _ (.here _))) (by decide)
  have hattached := reachable_run [⟨.readStatus, .ok onePort⟩,
    ⟨.writeAttach (attachRequest 0 5 1), .ok 7⟩] (reachable_call hdurable .unlocked)
    (.ask _ (.ask _ (.here _))) (by decide)
  obtain ⟨e, he, howner, _, hline, _⟩ := (attachments_evidenced hattached).1 0 _ rfl
    (live_of_up (Option.some_ne_none _) rfl)
  exact ⟨_, _, e, hattached, rfl, live_of_up (Option.some_ne_none _) rfl, he, howner, hline⟩

end Runs

end AudioOwnership
