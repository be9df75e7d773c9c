import VirtualGamepad.AudioHost

/-! What the factory behind an audio connection may do when: no attachment without a record of it
on disk, no record removed before its worker and its socket are gone, and no failure that leaves
more behind than it tells. -/
namespace AudioHostAccounts

open AudioConnection (Opened Profile Channels)
open AudioHost Dialogue PlainText WireBytes
open VhciPolicy (PortLease)

section Accounts

/-- How far the record of a connection got. -/
inductive Evidence where
  | absent
  | created
  | torn
  | written
  | synced
  | durable
  deriving DecidableEq

/-- What is known of a connection from its calls so far. -/
structure Account where
  port : Option ℕ
  held : Bool
  status : Option Text
  identity : Option (UInt64 × UInt32)
  kernel : Option ℕ
  locked : Bool
  room : Bool
  evidence : Evidence
  node : Option Node
  seen : Bool
  removed : Bool
  request : Option Text
  down : Bool
  reaped : Bool

def Account.new : Account where
  port := none
  held := false
  status := none
  identity := none
  kernel := none
  locked := false
  room := false
  evidence := .absent
  node := none
  seen := false
  removed := false
  request := none
  down := false
  reaped := false

def Account.name (x : Account) : Option Text := x.identity.map fun i => recordName i.1

/-- The kernel was asked for an attachment that may still be there, or its worker may. -/
def Account.Live (x : Account) : Prop := x.request ≠ none ∧ ¬(x.down = true ∧ x.reaped = true)

/-- What the journal has to say of the attachment. -/
def Account.line (x : Account) : Option Text :=
  x.identity.bind fun i => x.port.map fun port => recordLine i.1 i.2 port

/-- What the kernel is to be asked. -/
def Account.wanted (x : Account) : Option Text :=
  x.identity.bind fun i => x.port.bind fun port => x.kernel.map fun kernel =>
    attachRequest port kernel i.2

def Account.allows (x : Account) : Call → Prop
  | .reserve _ => x.port = none
  | .dropLease lease => x.held = true ∧ x.port = some lease.port
  | .random => x.evidence = .absent
  | .socketPairs => x.kernel = none
  | .lock => x.locked = false
  | .unlock => x.locked = true
  | .createNew name => x.locked = true ∧ x.room = true ∧ x.evidence = .absent ∧
    x.name = some name
  | .recordMetadata => x.evidence ≠ .absent
  | .writeRecord line => x.evidence = .created ∧ x.line = some line
  | .writeAttach request => x.evidence = .durable ∧ x.held = true ∧ x.request = none ∧
    x.down = false ∧ x.removed = false ∧ x.wanted = some request ∧
    ∃ status port, x.status = some status ∧ x.port = some port ∧
      PortLease.revalidate status ⟨port⟩ = .ok ()
  | .removeFile name => x.seen = true ∧ x.down = true ∧ x.reaped = true ∧ x.name = some name
  | _ => True

def roomIn (entries : List (Except IoError (Option Text))) : Bool :=
  match admitEntries entries [] with
  | .ok names => names.length < maxRecords
  | .error _ => false

def Evidence.sync : Evidence → Evidence
  | .written => .synced
  | evidence => evidence

def Evidence.settle : Evidence → Evidence
  | .synced => .durable
  | evidence => evidence

def Account.after (x : Account) : (call : Call) → Answer call → Account
  | .readStatus, .ok status => { x with status := some status }
  | .writeAttach request, _ => { x with request := some request }
  | .reserve _, .ok lease => { x with port := some lease.port, held := true }
  | .dropLease _, _ => { x with held := false }
  | .random, .ok identity => { x with identity := some identity }
  | .socketPairs, .ok (kernel, _) => { x with kernel := some kernel }
  | .shutdown, .ok () => { x with down := true }
  | .shutdown, .error .notConnected => { x with down := true }
  | .tryWait, .ok (some _) => { x with reaped := true }
  | .lock, .ok () => { x with locked := true, room := false }
  | .unlock, _ => { x with locked := false, room := false }
  | .readDir, .ok entries => { x with room := x.locked && roomIn entries }
  | .createNew _, .ok _ => { x with evidence := .created, room := false }
  | .recordMetadata, .ok node => { x with node := some node }
  | .writeRecord _, .ok () => { x with evidence := .written }
  | .writeRecord _, .error _ => { x with evidence := .torn }
  | .syncRecord, .ok () => { x with evidence := x.evidence.sync }
  | .syncDirectory, .ok () => { x with evidence := x.evidence.settle }
  | .openRecord _, .ok (regular, node) => { x with seen := regular && x.node = some node }
  | .openRecord _, .error _ => { x with seen := false }
  | .removeFile _, .ok () => { x with removed := true, seen := false }
  | _, _ => x

def monitor : Monitor Call Answer Account := ⟨Account.allows, Account.after⟩

end Accounts

section Rules

variable {α β : Type} {l : Locals} {x : Account} {body : Hosted α}
variable {Q : α → Locals → Account → Prop} {R : β → Locals → Account → Prop}
variable {E E' : Stop → Locals → Account → Prop}

theorem keeps_attempt_ok {μ : Type} {mon : Monitor Call Answer μ} {y : μ} {a : α}
    {f : α → Hosted β} {R : β → Locals → μ → Prop} {E : Stop → Locals → μ → Prop}
    (h : Keeps mon (f a) R E l y) : Keeps mon (attempt (.ok a) >>= f) R E l y := h

theorem keeps_attempt_error {μ : Type} {mon : Monitor Call Answer μ} {y : μ} {error : IoError}
    {f : α → Hosted β} {R : β → Locals → μ → Prop} {E : Stop → Locals → μ → Prop}
    (h : E (.failed error) l y) : Keeps mon (attempt (.error error) >>= f) R E l y := h

theorem keeps_attempt_bind {r : Except IoError α} {f : α → Hosted β}
    (hok : ∀ a, r = .ok a → Keeps monitor (f a) R E l x)
    (herror : ∀ e, r = .error e → E (.failed e) l x) :
    Keeps monitor (attempt r >>= f) R E l x := by
  cases r with
  | ok a => exact hok a rfl
  | error e => exact herror e rfl

/-- What is known of an error that was looked at. -/
def Caught (Q : α → Locals → Account → Prop) (E : Stop → Locals → Account → Prop) :
    Except IoError α → Locals → Account → Prop
  | .ok a, l, x => Q a l x
  | .error e, l, x => E (.failed e) l x

theorem keeps_caught (h : Keeps monitor body Q E l x) :
    Keeps monitor (caught body) (Caught Q E) (fun stop m y => stop = .cut ∧ E .cut m y) l x := by
  refine obeys_bind h ?_
  rintro ⟨(_ | error) | a, m⟩ y hy
  · exact ⟨rfl, hy⟩
  · exact hy
  · exact hy

theorem keeps_caught_bind {f : Except IoError α → Hosted β} (h : Keeps monitor body Q E l x)
    (hok : ∀ a m y, Q a m y → Keeps monitor (f (.ok a)) R E' m y)
    (herror : ∀ e m y, E (.failed e) m y → Keeps monitor (f (.error e)) R E' m y)
    (hcut : ∀ m y, E .cut m y → E' .cut m y) :
    Keeps monitor (caught body >>= f) R E' l x := by
  refine obeys_bind (keeps_caught h) ?_
  rintro ⟨stop | e | a, m⟩ y hy
  · obtain ⟨rfl, hy⟩ := hy
    exact hcut m y hy
  · exact herror e m y hy
  · exact hok a m y hy

/-- A scope that ignores how what it leaves behind is dropped. -/
theorem keeps_ignored {Q' : Unit → Locals → Account → Prop} (h : Keeps monitor body Q E l x)
    (hok : ∀ a m y, Q a m y → Q' () m y) (herror : ∀ e m y, E (.failed e) m y → Q' () m y)
    (hcut : ∀ m y, E .cut m y → E' .cut m y) :
    Keeps monitor (caught body >>= fun _ => pure ()) Q' E' l x :=
  keeps_caught_bind h (fun a m y hy => keeps_pure (hok a m y hy))
    (fun e m y hy => keeps_pure (herror e m y hy)) hcut

theorem keeps_finishSetup {rollback : Hosted Unit} {F : Stop → Locals → Account → Prop}
    {P : IoError → Unit → Locals → Account → Prop}
    {G : IoError → Stop → Locals → Account → Prop} (h : Keeps monitor body Q E l x)
    (hroll : ∀ e m y, E (.failed e) m y → Keeps monitor rollback (P e) (G e) m y)
    (hclean : ∀ e m y, P e () m y → F (.failed e) m y)
    (hdirty : ∀ e c m y, G e (.failed c) m y → F (.failed (.attachmentCleanup e c)) m y)
    (hcut : ∀ m y, E .cut m y → F .cut m y) (hcut' : ∀ e m y, G e .cut m y → F .cut m y) :
    Keeps monitor (finishSetup body rollback) Q F l x := by
  refine keeps_caught_bind h (fun a m y hy => keeps_pure hy) (fun e m y hy => ?_) hcut
  exact keeps_caught_bind (hroll e m y hy) (fun _ m y hy => keeps_fail (hclean e m y hy))
    (fun c m y hy => keeps_fail (hdirty e c m y hy)) (hcut' e)

end Rules

section Closing

variable {l m n : Locals} {x y z : Account} {fuel : ℕ}

/-- What closing and waiting leave alone. -/
def Account.core (x : Account) : Account :=
  { x with
    status := none
    seen := false
    removed := false
    down := false
    reaped := false }

/-- What is known of a worker and a record that were given up. -/
structure Fits (l : Locals) (x : Account) : Prop where
  child : l.child = false → x.reaped = true
  removed : l.removed = true → x.removed = true

/-- From `x` to `y` by calls that only look, wait or give up. -/
structure Eased (x : Account) (m : Locals) (y : Account) : Prop where
  core : y.core = x.core
  down : x.down = true → y.down = true
  reaped : x.reaped = true → y.reaped = true
  removed : x.removed = true → y.removed = true
  fits : Fits m y

theorem Eased.refl (h : Fits l x) : Eased x l x :=
  ⟨rfl, id, id, id, h⟩

theorem Eased.trans (h : Eased x m y) (h' : Eased y n z) : Eased x n z where
  core := h'.core.trans h.core
  down hx := h'.down (h.down hx)
  reaped hx := h'.reaped (h.reaped hx)
  removed hx := h'.removed (h.removed hx)
  fits := h'.fits

theorem Eased.name (h : Eased x m y) : y.name = x.name := (congrArg Account.name h.core :)
theorem Eased.node (h : Eased x m y) : y.node = x.node := (congrArg Account.node h.core :)
theorem Eased.port (h : Eased x m y) : y.port = x.port := (congrArg Account.port h.core :)
theorem Eased.held (h : Eased x m y) : y.held = x.held := (congrArg Account.held h.core :)
theorem Eased.locked (h : Eased x m y) : y.locked = x.locked := (congrArg Account.locked h.core :)
theorem Eased.evidence (h : Eased x m y) : y.evidence = x.evidence :=
  (congrArg Account.evidence h.core :)
theorem Eased.request (h : Eased x m y) : y.request = x.request :=
  (congrArg Account.request h.core :)
theorem Eased.wanted (h : Eased x m y) : y.wanted = x.wanted := (congrArg Account.wanted h.core :)
theorem Eased.identity (h : Eased x m y) : y.identity = x.identity :=
  (congrArg Account.identity h.core :)

theorem eased_status (h : Fits l x) (status : Option Text) : Eased x l { x with status } :=
  ⟨rfl, id, id, id, h.child, h.removed⟩

theorem eased_reaped (h : Fits l x) (child : Bool) :
    Eased x { l with child } { x with reaped := true } :=
  ⟨rfl, id, fun _ => rfl, id, fun _ => rfl, h.removed⟩

theorem eased_down (h : Fits l x) : Eased x l { x with down := true } :=
  ⟨rfl, fun _ => rfl, id, id, h.child, h.removed⟩

/-- The answer to a shutdown. -/
theorem eased_shutdown (h : Fits l x) (answer : Except IoError Unit) :
    Eased x l (x.after .shutdown answer) := by
  cases answer with
  | ok _ => exact eased_down h
  | error e =>
    cases e with
    | notConnected => exact eased_down h
    | _ => exact .refl h

/-- One look at the worker. -/
theorem keeps_tryWait_bind {β : Type} {f : Option Text → Hosted β}
    {R : β → Locals → Account → Prop} {E : Stop → Locals → Account → Prop}
    (hnone : Keeps monitor (f none) R E l x)
    (hsome : ∀ status, Keeps monitor (f (some status)) R E l { x with reaped := true })
    (herror : ∀ e, E (.failed e) l x) :
    Keeps monitor (call .tryWait >>= fun answer => attempt answer >>= f) R E l x := by
  refine keeps_ask_bind trivial fun answer => ?_
  rcases answer with e | _ | status
  · exact keeps_attempt_error (herror e)
  · exact keeps_attempt_ok hnone
  · exact keeps_attempt_ok (hsome status)

theorem reap_keeps (h : Fits l x) (deadline : ℕ) :
    Keeps monitor (reap fuel deadline)
      (fun ended m y => Eased x m y ∧ (ended = true → y.reaped = true)) (fun _ => Eased x) l x := by
  induction fuel with
  | zero => exact keeps_fail (.refl h)
  | succ fuel ih =>
    refine keeps_tryWait_bind ?_ (fun status => ?_) fun e => .refl h
    · refine keeps_ask_bind trivial fun now => ?_
      by_cases hlate : deadline ≤ now
      · rw [if_pos hlate]
        exact keeps_pure ⟨.refl h, fun hended => absurd hended Bool.false_ne_true⟩
      · rw [if_neg hlate]
        exact keeps_ask_bind trivial fun _ => ih
    · exact ⟨eased_reaped h false, fun _ => rfl⟩

/-- What follows calls that only ease holds with the ease of both. -/
theorem keeps_eased {α : Type} {body : Hosted α} {P : α → Account → Prop} (h : Eased x m y)
    (hb : Keeps monitor body (fun a n z => Eased y n z ∧ P a z) (fun _ => Eased y) m y) :
    Keeps monitor body (fun a n z => Eased x n z ∧ P a z) (fun _ => Eased x) m y :=
  hb.mono (fun _ _ _ ha => ⟨h.trans ha.1, ha.2⟩) fun _ _ _ => h.trans

theorem killed_keeps (h : Fits l x) :
    Keeps monitor killed (fun _ => Eased x) (fun _ => Eased x) l x := by
  refine keeps_ask_bind trivial fun answer => ?_
  cases answer with
  | ok _ => exact keeps_pure (.refl h)
  | error e =>
    refine keeps_tryWait_bind ?_ (fun status => ?_) fun _ => .refl h
    · exact keeps_fail (.refl h)
    · exact keeps_pure (eased_reaped h l.child)

/-- A worker that is gone was waited for. -/
theorem stopChild_keeps (h : Fits l x) :
    Keeps monitor (stopChild fuel) (fun _ m y => Eased x m y ∧ y.reaped = true)
      (fun _ => Eased x) l x := by
  refine keeps_get_bind ?_
  by_cases hgone : l.child = false
  · rw [if_pos hgone]
    exact keeps_pure ⟨.refl h, h.child hgone⟩
  · rw [if_neg hgone]
    refine keeps_ask_bind trivial fun now => keeps_bind (reap_keeps h _) fun ended m y hy => ?_
    cases ended with
    | true => exact keeps_pure ⟨hy.1, hy.2 rfl⟩
    | false =>
      have hkilled := (killed_keeps hy.1.fits).mono (fun _ _ _ => hy.1.trans)
        fun _ _ _ => hy.1.trans
      refine keeps_bind hkilled fun _ m y hy => keeps_ask_bind trivial fun now => ?_
      refine keeps_bind (keeps_eased hy (reap_keeps hy.fits _)) fun ended m y hy => ?_
      cases ended with
      | true => exact keeps_pure ⟨hy.1, hy.2 rfl⟩
      | false => exact keeps_fail hy.1

/-- A session that was closed without an error is gone: its socket is down, its worker reaped. -/
theorem sessionClose_keeps (h : Fits l x) :
    Keeps monitor (sessionClose fuel)
      (fun _ m y => Eased x m y ∧ y.down = true ∧ y.reaped = true) (fun _ => Eased x) l x := by
  refine keeps_ask_bind trivial fun answer => ?_
  have hshut := eased_shutdown h answer
  refine keeps_caught_bind (stopChild_keeps hshut.fits) (fun _ m y hy => ?_) (fun e m y hy => ?_)
    fun m y hy => hshut.trans hy
  · cases answer with
    | ok _ => exact keeps_pure ⟨hshut.trans hy.1, hy.1.down rfl, hy.2⟩
    | error e =>
      by_cases hconnected : e = .notConnected
      · subst hconnected
        exact keeps_pure ⟨hshut.trans hy.1, hy.1.down rfl, hy.2⟩
      · dsimp only
        rw [if_neg hconnected]
        exact keeps_fail (hshut.trans hy.1)
  · cases answer with
    | ok _ => exact keeps_fail (hshut.trans hy)
    | error e' =>
      dsimp only
      by_cases hconnected : e' = .notConnected
      · rw [if_pos hconnected]
        exact keeps_fail (hshut.trans hy)
      · rw [if_neg hconnected]
        exact keeps_fail (hshut.trans hy)

theorem dropSession_keeps (h : Fits l x) :
    Keeps monitor (dropSession fuel) (fun _ => Eased x) (fun _ => Eased x) l x :=
  keeps_ignored (sessionClose_keeps h) (fun _ _ _ ha => ha.1) (fun _ _ _ ha => ha) fun _ _ ha => ha

theorem checkAlive_keeps (h : Fits l x) :
    Keeps monitor checkAlive (fun _ => Eased x) (fun _ => Eased x) l x := by
  refine keeps_get_bind ?_
  by_cases hgone : l.child = false
  · rw [if_pos hgone]
    exact keeps_fail (.refl h)
  · rw [if_neg hgone]
    refine keeps_tryWait_bind (keeps_pure (.refl h)) (fun status => ?_) fun _ => .refl h
    have hreaped := eased_reaped h false
    refine keeps_get_bind (keeps_bind (keeps_set (t := { l with child := false })
      (Q := fun _ => Eased x) hreaped) fun _ m y hy => ?_)
    exact keeps_ask_bind trivial fun answer => keeps_fail (hy.trans (eased_shutdown hy.fits answer))

theorem eased_seen (h : Fits l x) (seen : Bool) : Eased x l { x with seen } :=
  ⟨rfl, id, id, id, h.child, h.removed⟩

theorem eased_removed (h : Fits l x) : Eased x l { x with removed := true, seen := false } :=
  ⟨rfl, id, id, fun _ => rfl, h.child, fun _ => rfl⟩

theorem eased_syncDirectory (h : Fits l x) (hdurable : x.evidence = .durable)
    (answer : Except IoError Unit) : Eased x l (x.after .syncDirectory answer) := by
  cases answer with
  | error e => exact .refl h
  | ok _ =>
    cases x
    subst hdurable
    exact .refl ⟨h.child, h.removed⟩

variable {record : Record} {owned : Owned}

/-- The record of a connection, as the connection remembers it. -/
structure Recorded (record : Record) (x : Account) : Prop where
  evidence : x.evidence = .durable
  name : x.name = some record.name
  node : x.node = some record.node

theorem Recorded.eased (h : Recorded record x) (he : Eased x m y) : Recorded record y :=
  ⟨he.evidence.trans h.evidence, he.name.trans h.name, he.node.trans h.node⟩

/-- A record is removed only where the session is gone and the file is still its own. -/
theorem clear_keeps (h : Fits l x) (hrecord : Recorded record x) (hdown : x.down = true)
    (hreaped : x.reaped = true) :
    Keeps monitor (clear record) (fun _ m y => Eased x m y ∧ y.removed = true)
      (fun _ => Eased x) l x := by
  refine keeps_get_bind ?_
  by_cases hremoved : l.removed = true
  · rw [if_pos hremoved]
    exact keeps_pure ⟨.refl h, h.removed hremoved⟩
  rw [if_neg hremoved]
  refine keeps_ask_bind trivial fun answer => ?_
  rcases answer with e | ⟨regular, node⟩
  · exact keeps_attempt_error (eased_seen h false)
  refine keeps_attempt_ok ?_
  by_cases hchanged : regular = false ∨ node ≠ record.node
  · dsimp only
    rw [if_pos hchanged]
    exact keeps_fail (eased_seen h _)
  dsimp only
  rw [if_neg hchanged]
  obtain ⟨hregular, hnode⟩ := not_or.mp hchanged
  have hseen : (regular && decide (x.node = some node)) = true := by
    rw [Bool.eq_true_of_not_eq_false hregular, hrecord.node, not_not.mp hnode]
    simp
  have hlook := eased_seen h (regular && decide (x.node = some node))
  refine keeps_ask_bind ⟨hseen, hdown, hreaped, hrecord.name⟩ fun answer => ?_
  cases answer with
  | error e => exact keeps_attempt_error hlook
  | ok _ =>
    have hgone := hlook.trans (eased_removed hlook.fits)
    refine keeps_attempt_ok (keeps_ask_bind trivial fun answer => ?_)
    have hsync := eased_syncDirectory hgone.fits (hgone.evidence.trans hrecord.evidence) answer
    cases answer with
    | error e => exact keeps_attempt_error (hgone.trans hsync)
    | ok _ =>
      refine keeps_attempt_ok (keeps_get_bind (keeps_set ⟨?_, rfl⟩))
      have hboth := hgone.trans hsync
      exact ⟨hboth.core, hboth.down, hboth.reaped, hboth.removed, hboth.fits.child, fun _ => rfl⟩

/-- An attachment that was closed without an error is gone, and its record with it. -/
theorem close_keeps (owned : Owned) (h : Fits l x) (hrecord : Recorded owned.record x) :
    Keeps monitor (owned.close fuel)
      (fun _ m y => Eased x m y ∧ y.down = true ∧ y.reaped = true ∧ y.removed = true)
      (fun _ => Eased x) l x := by
  refine keeps_bind (sessionClose_keeps h) fun _ m y hy => ?_
  have hclear := clear_keeps hy.1.fits (hrecord.eased hy.1) hy.2.1 hy.2.2
  refine hclear.mono (fun _ n z hz => ?_) fun _ n z hz => hy.1.trans hz
  exact ⟨hy.1.trans hz.1, hz.1.down hy.2.1, hz.1.reaped hy.2.2, hz.2⟩

theorem dropOwned_keeps (owned : Owned) (h : Fits l x) (hrecord : Recorded owned.record x) :
    Keeps monitor (dropOwned fuel owned) (fun _ => Eased x) (fun _ => Eased x) l x :=
  keeps_ignored (close_keeps owned h hrecord) (fun _ _ _ ha => ha.1) (fun _ _ _ ha => ha)
    fun _ _ ha => ha

end Closing

section Attaching

variable {l m : Locals} {x y : Account} {fuel : ℕ} {session : Session} {device : UInt32}

theorem interfacesReady_keeps (h : Fits l x) (bus : Text) (rest : List (ℕ × Text)) :
    Keeps monitor (interfacesReady bus rest) (fun _ => Eased x) (fun _ => Eased x) l x := by
  induction rest with
  | nil => exact keeps_pure (.refl h)
  | cons first rest ih =>
    refine keeps_ask_bind trivial fun answer => ?_
    cases answer with
    | error e => exact keeps_pure (.refl h)
    | ok value =>
      dsimp only
      by_cases hready : trim value = first.2
      · rw [if_pos hready]
        exact ih
      · rw [if_neg hready]
        exact keeps_pure (.refl h)

theorem configured_keeps (h : Fits l x) (bus : Text) :
    Keeps monitor (configured bus) (fun _ => Eased x) (fun _ => Eased x) l x := by
  refine keeps_ask_bind trivial fun answer => ?_
  cases answer with
  | error e => exact keeps_pure (.refl h)
  | ok value =>
    dsimp only
    by_cases hready : trim value = "1".toList
    · rw [if_pos hready]
      exact interfacesReady_keeps h bus interfaces
    · rw [if_neg hready]
      exact keeps_pure (.refl h)

theorem enumerated_keeps (h : Fits l x) (port : ℕ) :
    Keeps monitor (enumerated port device) (fun _ => Eased x) (fun _ => Eased x) l x := by
  refine keeps_bind (checkAlive_keeps h) fun _ m y hy => keeps_ask_bind trivial fun answer => ?_
  cases answer with
  | error e => exact keeps_attempt_error hy
  | ok status =>
    have hread := hy.trans (eased_status hy.fits (some status))
    refine keeps_attempt_ok (keeps_attempt_bind (fun bus _ => ?_) fun _ _ => hread)
    cases bus with
    | none => exact keeps_pure hread
    | some bus =>
      refine keeps_bind ((configured_keeps hread.fits bus).mono (fun _ _ _ => hread.trans)
        fun _ _ _ => hread.trans) fun ready m z hz => ?_
      cases ready with
      | true => exact keeps_pure hz
      | false => exact keeps_pure hz

theorem enumerate_keeps (h : Fits l x) (port deadline : ℕ) :
    Keeps monitor (enumerate port device fuel deadline)
      (fun _ => Eased x) (fun _ => Eased x) l x := by
  induction fuel generalizing l x with
  | zero => exact keeps_fail (.refl h)
  | succ fuel ih =>
    refine keeps_bind (enumerated_keeps h port) fun bus m y hy => ?_
    cases bus with
    | some bus => exact keeps_pure hy
    | none =>
      refine keeps_ask_bind trivial fun now => ?_
      by_cases hlate : deadline ≤ now
      · rw [if_pos hlate]
        exact keeps_fail hy
      · rw [if_neg hlate]
        exact keeps_ask_bind trivial fun _ =>
          (ih hy.fits).mono (fun _ _ _ => hy.trans) fun _ _ _ => hy.trans

/-- A session that may be attached: its record is on disk. -/
structure Ready (session : Session) (device : UInt32) (x : Account) : Prop where
  evidence : x.evidence = .durable
  held : x.held = true
  port : x.port = some session.lease.port
  wanted : x.wanted = some (attachRequest session.lease.port session.kernel device)
  request : x.request = none
  down : x.down = false
  removed : x.removed = false

/-- From `x` to `y` with the one request that was made between them, if any. -/
def Asked (x : Account) (m : Locals) (y : Account) : Prop :=
  ∃ request, Eased { x with request } m y

theorem Asked.fits (h : Asked x m y) : Fits m y := h.choose_spec.fits

theorem attach_keeps (h : Fits l x) (hready : Ready session device x) :
    Keeps monitor (attach fuel session device)
      (fun _ m y => Asked x m y ∧ y.request = x.wanted) (fun _ => Asked x) l x := by
  refine keeps_bind (Q := fun _ m y => m = l ∧ ∃ status, y = { x with status := some status } ∧
    session.lease.revalidate status = .ok ()) ?_ ?_
  · refine keeps_ask_bind trivial fun answer => ?_
    cases answer with
    | error e => exact keeps_attempt_error ⟨x.request, .refl h⟩
    | ok status =>
      refine keeps_attempt_ok ?_
      cases hfree : session.lease.revalidate status with
      | error e => exact keeps_fail ⟨x.request, eased_status h (some status)⟩
      | ok _ => exact keeps_pure ⟨rfl, status, rfl, hfree⟩
  · rintro _ m y ⟨rfl, status, rfl, hfree⟩
    refine keeps_ask_bind ⟨hready.evidence, hready.held, hready.request, hready.down,
      hready.removed, hready.wanted, status, _, rfl, hready.port, hfree⟩ fun answer => ?_
    have hasked := eased_status (x := { x with request := some (attachRequest session.lease.port
      session.kernel device) }) ⟨h.child, h.removed⟩ (some status)
    cases answer with
    | error e => exact keeps_attempt_error ⟨_, hasked⟩
    | ok written =>
      refine keeps_attempt_ok ?_
      by_cases hpartial : written ≠
          byteLength (attachRequest session.lease.port session.kernel device)
      · rw [if_pos hpartial]
        exact keeps_fail ⟨_, hasked⟩
      · rw [if_neg hpartial]
        refine keeps_ask_bind trivial fun now => ?_
        refine (enumerate_keeps hasked.fits _ _).mono (fun _ n z hz => ?_)
          fun _ n z hz => ⟨_, hasked.trans hz⟩
        refine ⟨⟨_, hasked.trans hz⟩, ?_⟩
        rw [hz.request, hready.wanted]

end Attaching

section Recording

variable {l m : Locals} {x y : Account} {generation : UInt64} {device : UInt32} {port : ℕ}

/-- What writing a record leaves alone. -/
def Account.desk (x : Account) : Account :=
  { x with locked := false, room := false, evidence := .absent, node := none }

theorem pending_keeps : Keeps monitor pending
    (fun records m y => m = l ∧
      y = { x with room := x.locked && decide (records.length < maxRecords) })
    (fun _ m y => m = l ∧ y.desk = x.desk ∧ y.locked = x.locked) l x := by
  refine keeps_ask_bind trivial fun answer => ?_
  cases answer with
  | error e => exact keeps_attempt_error ⟨rfl, rfl, rfl⟩
  | ok entries =>
    refine keeps_attempt_ok ?_
    cases hentries : admitEntries entries [] with
    | error e => exact keeps_fail ⟨rfl, rfl, rfl⟩
    | ok records =>
      refine keeps_pure ⟨rfl, ?_⟩
      have hroom : roomIn entries = decide (records.length < maxRecords) := by
        unfold roomIn
        rw [hentries]
      rw [← hroom]
      rfl

/-- How far a record is that `x` is making. -/
structure Filing (x y : Account) (evidence : Evidence) : Prop where
  desk : y.desk = x.desk
  locked : y.locked = true
  evidence : y.evidence = evidence

/-- The line is on disk before the record counts. -/
theorem written_keeps {node : Node} {line name : Text} (h : Filing x y .created)
    (hnode : y.node = some node) (hname : y.name = some name) (hline : y.line = some line) :
    Keeps monitor (do
        attempt (← call (.writeRecord line))
        attempt (← call .syncRecord)
        attempt (← call .syncDirectory)
        return ⟨name, node⟩)
      (fun record m z => m = l ∧ z.desk = x.desk ∧ z.locked = true ∧ Recorded record z)
      (fun _ m z => m = l ∧ z.desk = x.desk ∧ z.locked = true) l y := by
  refine keeps_ask_bind ⟨h.evidence, hline⟩ fun answer => ?_
  rcases answer with e | _
  · exact keeps_attempt_error ⟨rfl, h.desk, h.locked⟩
  refine keeps_attempt_ok (keeps_ask_bind trivial fun answer => ?_)
  rcases answer with e | _
  · exact keeps_attempt_error ⟨rfl, h.desk, h.locked⟩
  refine keeps_attempt_ok (keeps_ask_bind trivial fun answer => ?_)
  rcases answer with e | _
  · exact keeps_attempt_error ⟨rfl, h.desk, h.locked⟩
  · exact keeps_attempt_ok (keeps_pure ⟨rfl, h.desk, h.locked, rfl, hname, hnode⟩)

/-- A record is made under the lock, where there is room for it. -/
theorem recordLocked_keeps (hlocked : x.locked = true) (hevidence : x.evidence = .absent)
    (hname : x.name = some (recordName generation))
    (hline : x.line = some (recordLine generation device port)) :
    Keeps monitor (recordLocked generation device port)
      (fun record m y => m = l ∧ y.desk = x.desk ∧ y.locked = true ∧ Recorded record y)
      (fun _ m y => m = l ∧ y.desk = x.desk ∧ y.locked = true) l x := by
  unfold recordLocked
  by_cases hzero : generation = 0 ∨ device = 0
  · rw [if_pos hzero]
    exact keeps_fail ⟨rfl, rfl, hlocked⟩
  rw [if_neg hzero]
  refine keeps_bind (pending_keeps.mono (fun _ _ _ h => h)
    fun _ _ _ h => ⟨h.1, h.2.1, h.2.2.trans hlocked⟩) ?_
  rintro records m y ⟨rfl, rfl⟩
  by_cases hfull : maxRecords ≤ records.length
  · rw [if_pos hfull]
    exact keeps_fail ⟨rfl, rfl, hlocked⟩
  rw [if_neg hfull]
  have hroom : (x.locked && decide (records.length < maxRecords)) = true := by
    rw [hlocked, Bool.true_and]
    exact decide_eq_true (not_le.mp hfull)
  refine keeps_ask_bind trivial fun answer => ?_
  rcases answer with e | _
  · exact keeps_attempt_error ⟨rfl, rfl, hlocked⟩
  refine keeps_attempt_ok (keeps_ask_bind ⟨hlocked, hroom, hevidence, hname⟩ fun answer => ?_)
  rcases answer with e | file
  · exact keeps_attempt_error ⟨rfl, rfl, hlocked⟩
  refine keeps_attempt_ok (keeps_ask_bind (Evidence.noConfusion : Evidence.created ≠ .absent)
    fun answer => ?_)
  rcases answer with e | node
  · exact keeps_attempt_error ⟨rfl, rfl, hlocked⟩
  · exact keeps_attempt_ok (written_keeps ⟨rfl, hlocked, rfl⟩ rfl hname hline)

theorem record_keeps (hfree : x.locked = false) (hevidence : x.evidence = .absent)
    (hname : x.name = some (recordName generation))
    (hline : x.line = some (recordLine generation device port)) :
    Keeps monitor (record generation device port)
      (fun record m y => m = l ∧ y.desk = x.desk ∧ y.locked = false ∧ Recorded record y)
      (fun _ m y => m = l ∧ y.desk = x.desk ∧ y.locked = false) l x := by
  refine keeps_ask_bind hfree fun answer => ?_
  rcases answer with e | _
  · exact keeps_attempt_error ⟨rfl, rfl, hfree⟩
  refine keeps_attempt_ok (keeps_bind (Q := fun record m y => m = l ∧ y.desk = x.desk ∧
    y.locked = true ∧ Recorded record y) (keeps_dropping (E := fun _ m y => m = l ∧
      y.desk = x.desk ∧ y.locked = true) ?_ ?_) ?_)
  · exact recordLocked_keeps (x := { x with locked := true, room := false }) rfl hevidence hname
      hline
  · rintro e m y ⟨rfl, hdesk, hlocked⟩
    exact keeps_ask_bind hlocked fun _ => keeps_pure ⟨rfl, hdesk, rfl⟩
  · rintro record m y ⟨rfl, hdesk, hlocked, hrecord⟩
    refine keeps_ask_bind hlocked fun _ => keeps_pure ⟨rfl, hdesk, rfl, ?_⟩
    exact ⟨hrecord.evidence, hrecord.name, hrecord.node⟩

end Recording

section Opening

variable {l m : Locals} {x y : Account} {fuel : ℕ} {session : Session} {lease : PortLease}
  {generation : UInt64} {device : UInt32}

/-- Whether an error tells of a cleanup that failed as well. -/
def unclean : IoError → Bool
  | .attachmentCleanup _ _ => true
  | .workerCleanup _ _ => true
  | _ => false

/-- What a connection has left behind when it stops: if a cleanup did not fail as well, no
attachment and no record of one. -/
def Cleared (stop : Stop) (x : Account) : Prop :=
  ∀ error, stop = .failed error → unclean error = false → x.request ≠ none →
    x.down = true ∧ x.reaped = true ∧ x.removed = true

theorem Cleared.eased {stop : Stop} (h : Cleared stop x) (he : Eased x m y) : Cleared stop y := by
  intro error hstop hclean hrequest
  obtain ⟨hdown, hreaped, hremoved⟩ := h error hstop hclean (he.request ▸ hrequest)
  exact ⟨he.down hdown, he.reaped hreaped, he.removed hremoved⟩

theorem cleared_unasked {stop : Stop} (h : x.request = none) : Cleared stop x :=
  fun _ _ _ hrequest => absurd h hrequest

/-- A connection that stops with the lease of a port. -/
structure Leased (lease : PortLease) (stop : Stop) (x : Account) : Prop where
  held : x.held = true
  port : x.port = some lease.port
  locked : x.locked = false
  cleared : Cleared stop x

theorem Leased.eased {stop : Stop} (h : Leased lease stop x) (he : Eased x m y) :
    Leased lease stop y :=
  ⟨he.held.trans h.held, he.port.trans h.port, he.locked.trans h.locked, h.cleared.eased he⟩

/-- A connection before its worker starts. -/
structure Starting (lease : PortLease) (x : Account) : Prop where
  held : x.held = true
  port : x.port = some lease.port
  locked : x.locked = false
  evidence : x.evidence = .absent
  request : x.request = none
  down : x.down = false
  removed : x.removed = false

theorem Starting.leased (h : Starting lease x) (stop : Stop) : Leased lease stop x :=
  ⟨h.held, h.port, h.locked, cleared_unasked h.request⟩

theorem Starting.leased_eased (h : Starting lease x) (he : Eased x m y) (stop : Stop) :
    Leased lease stop y := (h.leased stop).eased he

theorem ready_keeps : Keeps monitor (ready generation) (fun _ m y => m = l ∧ y = x)
    (fun _ m y => m = l ∧ y = x) l x := by
  refine keeps_ask_bind trivial fun answer => ?_
  rcases answer with e | ⟨tag, payload⟩
  · exact keeps_attempt_error ⟨rfl, rfl⟩
  refine keeps_attempt_ok ?_
  by_cases hwrong : tag ≠ 0 ∨ payload ≠ 1 :: bytesLe 8 generation.toNat
  · dsimp only
    rw [if_pos hwrong]
    exact keeps_fail ⟨rfl, rfl⟩
  · dsimp only
    rw [if_neg hwrong]
    exact keeps_pure ⟨rfl, rfl⟩

theorem awaitReady_keeps (h : Fits l x) :
    Keeps monitor (awaitReady fuel generation) (fun _ m y => m = l ∧ y = x)
      (fun _ => Eased x) l x := by
  refine keeps_caught_bind ready_keeps (fun _ m y hy => keeps_pure hy) (fun e m y hy => ?_)
    fun m y hy => ?_
  · obtain ⟨rfl, rfl⟩ := hy
    exact keeps_caught_bind (sessionClose_keeps h) (fun _ m y hy => keeps_fail hy.1)
      (fun c m y hy => keeps_fail hy) fun m y hy => hy
  · obtain ⟨rfl, rfl⟩ := hy
    exact .refl h

/-- Nothing was reaped or removed before, so a worker that starts is fit. -/
theorem prepare_keeps {launch : Launch} (h : Starting lease x) (hkernel : x.kernel = none)
    (hfresh : l.removed = false) :
    Keeps monitor (prepare fuel launch lease)
      (fun result m y => Fits m y ∧ result.1.lease = lease ∧
        y = { x with kernel := some result.1.kernel })
      (fun stop _ => Leased lease stop) l x := by
  refine keeps_ask_bind hkernel fun answer => ?_
  rcases answer with e | ⟨kernel, channels⟩
  · exact keeps_attempt_error (h.leased _)
  have hkept : Starting lease { x with kernel := some kernel } :=
    ⟨h.held, h.port, h.locked, h.evidence, h.request, h.down, h.removed⟩
  refine keeps_attempt_ok (keeps_bind (Q := fun _ m y => m = { l with child := true } ∧
    y = { x with kernel := some kernel }) ?_ ?_)
  · unfold spawn
    by_cases hwrong : launch.uid = 0 ∨ launch.gid = 0 ∨ launch.uid = 2 ^ 32 - 1 ∨
        launch.gid = 2 ^ 32 - 1 ∨ launch.device = 0 ∨ launch.generation = 0 ∨
        validInstance launch.instanceName = false
    · rw [if_pos hwrong]
      exact keeps_fail (hkept.leased _)
    · rw [if_neg hwrong]
      refine keeps_ask_bind trivial fun answer => ?_
      rcases answer with e | _
      · exact keeps_attempt_error (hkept.leased _)
      · exact keeps_attempt_ok (keeps_get_bind (keeps_set ⟨rfl, rfl⟩))
  · rintro _ m y ⟨rfl, rfl⟩
    have hfits : Fits { l with child := true } { x with kernel := some kernel } := by
      refine ⟨fun hchild => absurd hchild.symm Bool.false_ne_true, fun hremoved => ?_⟩
      exact absurd (hfresh.symm.trans hremoved) Bool.false_ne_true
    refine keeps_bind (keeps_dropping (awaitReady_keeps hfits) fun stop m y hy => ?_) ?_
    · exact (dropSession_keeps hy.fits).mono (fun _ _ _ hz => hkept.leased_eased (hy.trans hz) _)
        fun _ _ _ hz => hkept.leased_eased (hy.trans hz) _
    · rintro _ m y ⟨rfl, rfl⟩
      exact keeps_pure ⟨hfits, rfl, rfl⟩

theorem revalidate_keeps (h : Starting lease x) :
    Keeps monitor (revalidate lease) (fun _ m y => m = l ∧ ∃ status, y = { x with status })
      (fun stop _ => Leased lease stop) l x := by
  refine keeps_ask_bind trivial fun answer => ?_
  have hkept (status : Option Text) : Starting lease { x with status } :=
    ⟨h.held, h.port, h.locked, h.evidence, h.request, h.down, h.removed⟩
  cases answer with
  | error e => exact keeps_attempt_error (h.leased _)
  | ok status =>
    refine keeps_attempt_ok ?_
    cases lease.revalidate status with
    | error e => exact keeps_fail ((hkept (some status)).leased _)
    | ok _ => exact keeps_pure ⟨rfl, some status, rfl⟩

theorem drawIdentities_keeps (h : x.evidence = .absent) :
    Keeps monitor (drawIdentities fuel)
      (fun i m y => m = l ∧ y = { x with identity := some i } ∧ i.1 ≠ 0 ∧ i.2 ≠ 0)
      (fun _ m y => m = l ∧ ∃ identity, y = { x with identity }) l x := by
  induction fuel generalizing x with
  | zero => exact keeps_fail ⟨rfl, x.identity, rfl⟩
  | succ fuel ih =>
    refine keeps_ask_bind h fun answer => ?_
    rcases answer with e | i
    · exact keeps_attempt_error ⟨rfl, x.identity, rfl⟩
    refine keeps_attempt_ok ?_
    by_cases hgood : i.1 ≠ 0 ∧ i.2 ≠ 0
    · dsimp only
      rw [if_pos hgood]
      exact keeps_pure ⟨rfl, rfl, hgood⟩
    · dsimp only
      rw [if_neg hgood]
      exact ih (x := { x with identity := some i }) h

/-- What a connection owns once it is open: an attachment that its record vouches for. -/
structure Owns (opened : Opened) (owned : Owned) (m : Locals) (x : Account) : Prop where
  fits : Fits m x
  held : x.held = true
  port : x.port = some owned.session.lease.port
  locked : x.locked = false
  recorded : Recorded owned.record x
  identity : x.identity = some (opened.generation, opened.device)
  nonzero : opened.generation ≠ 0 ∧ opened.device ≠ 0
  request : x.request = some
    (attachRequest owned.session.lease.port owned.session.kernel opened.device)

/-- A connection with a worker, before there is a record of it. -/
structure Manned (session : Session) (generation : UInt64) (device : UInt32) (x : Account) :
    Prop extends Starting session.lease x where
  kernel : x.kernel = some session.kernel
  identity : x.identity = some (generation, device)

theorem desk_manned (h : Manned session generation device x) (hdesk : y.desk = x.desk)
    (hlocked : y.locked = false) :
    y.held = true ∧ y.port = some session.lease.port ∧ y.request = none ∧ y.down = false ∧
      y.removed = false ∧ y.identity = some (generation, device) ∧
      y.wanted = some (attachRequest session.lease.port session.kernel device) ∧
      ∀ stop, Leased session.lease stop y := by
  have hheld : y.held = true := (congrArg Account.held hdesk :).trans h.held
  have hport : y.port = some session.lease.port := (congrArg Account.port hdesk :).trans h.port
  have hrequest : y.request = none := (congrArg Account.request hdesk :).trans h.request
  have hidentity : y.identity = some (generation, device) :=
    (congrArg Account.identity hdesk :).trans h.identity
  have hkernel : y.kernel = some session.kernel := (congrArg Account.kernel hdesk :).trans h.kernel
  refine ⟨hheld, hport, hrequest, (congrArg Account.down hdesk :).trans h.down,
    (congrArg Account.removed hdesk :).trans h.removed, hidentity, ?_, fun stop =>
    ⟨hheld, hport, hlocked, cleared_unasked hrequest⟩⟩
  unfold Account.wanted
  rw [hidentity, hport, hkernel]
  rfl

/-- The record comes first; an attachment that fails takes it along, or tells that it could not. -/
theorem own_keeps {channels : Channels} (hfits : Fits l x)
    (h : Manned session generation device x) (hnonzero : generation ≠ 0 ∧ device ≠ 0) :
    Keeps monitor (own fuel generation device session channels)
      (fun result m y => Owns result.1 result.2 m y ∧ result.2.session = session)
      (fun stop m y => Fits m y ∧ Leased session.lease stop y) l x := by
  have hname : x.name = some (recordName generation) := by
    unfold Account.name
    rw [h.identity]
    rfl
  have hline : x.line = some (recordLine generation device session.lease.port) := by
    unfold Account.line
    rw [h.identity, h.port]
    rfl
  have hlow {y : Account} (hdesk : y.desk = x.desk) : Fits l y := by
    refine ⟨fun hchild => (congrArg Account.reaped hdesk :).trans (hfits.child hchild),
      fun hremoved => ?_⟩
    exact (congrArg Account.removed hdesk :).trans (hfits.removed hremoved)
  have hrecord := record_keeps (l := l) h.locked h.evidence hname hline
  refine keeps_bind (keeps_finishSetup (F := fun stop m y => Fits m y ∧ Leased session.lease stop y)
    (P := fun _ _ m y => Fits m y ∧ ∀ stop, Leased session.lease stop y)
    (G := fun _ _ m y => Fits m y ∧ ∀ stop, Leased session.lease stop y) hrecord ?_ ?_ ?_ ?_ ?_) ?_
  · rintro e m y ⟨rfl, hdesk, hlocked⟩
    obtain ⟨_, _, _, _, _, _, _, hleased⟩ := desk_manned h hdesk hlocked
    exact (sessionClose_keeps (hlow hdesk)).mono
      (fun _ n z hz => ⟨hz.1.fits, fun stop => (hleased stop).eased hz.1⟩)
      fun _ n z hz => ⟨hz.fits, fun stop => (hleased stop).eased hz⟩
  · exact fun e m y hy => ⟨hy.1, hy.2 _⟩
  · exact fun e c m y hy => ⟨hy.1, hy.2 _⟩
  · rintro m y ⟨rfl, hdesk, hlocked⟩
    obtain ⟨_, _, _, _, _, _, _, hleased⟩ := desk_manned h hdesk hlocked
    exact ⟨hlow hdesk, hleased _⟩
  · exact fun e m y hy => ⟨hy.1, hy.2 _⟩
  · rintro record m y ⟨rfl, hdesk, hlocked, hrecorded⟩
    obtain ⟨hheld, hport, hrequest, hdown, hremoved, hidentity, hwanted, hleased⟩ :=
      desk_manned h hdesk hlocked
    have hfit := hlow hdesk
    have hready : Ready session device y :=
      ⟨hrecorded.evidence, hheld, hport, hwanted, hrequest, hdown, hremoved⟩
    have hkept {request : Option Text} {n : Locals} {z : Account}
        (he : Eased { y with request } n z) : Recorded record z ∧ z.held = true ∧
          z.port = some session.lease.port ∧ z.locked = false := by
      have hbase : Recorded record { y with request } :=
        ⟨hrecorded.evidence, hrecorded.name, hrecorded.node⟩
      exact ⟨hbase.eased he, he.held.trans hheld, he.port.trans hport, he.locked.trans hlocked⟩
    -- Where the attachment fails, closing leaves it cleared or tells that it could not.
    refine keeps_dropping (E := fun stop n z => Fits n z ∧ Recorded record z ∧
      Leased session.lease stop z) ?_ ?_
    · refine keeps_bind (Q := fun _ n z => Asked y n z ∧ z.request = y.wanted)
        (keeps_finishSetup (attach_keeps hfit hready)
          (P := fun e _ n z => Fits n z ∧ Recorded record z ∧ Leased session.lease (.failed e) z)
          (G := fun e _ n z => Fits n z ∧ Recorded record z ∧ z.held = true ∧
            z.port = some session.lease.port ∧ z.locked = false) ?_ ?_ ?_ ?_ ?_) ?_
      · rintro e n z ⟨request, he⟩
        obtain ⟨hrecorded', hheld', hport', hlocked'⟩ := hkept he
        refine (close_keeps ⟨session, record⟩ he.fits hrecorded').mono ?_ ?_
        · rintro _ o w ⟨hw, hdown', hreaped', hremoved'⟩
          exact ⟨hw.fits, hrecorded'.eased hw, hw.held.trans hheld', hw.port.trans hport',
            hw.locked.trans hlocked', fun _ _ _ _ => ⟨hdown', hreaped', hremoved'⟩⟩
        · exact fun _ o w hw => ⟨hw.fits, hrecorded'.eased hw, hw.held.trans hheld',
            hw.port.trans hport', hw.locked.trans hlocked'⟩
      · exact fun e n z hz => hz
      · rintro e c n z ⟨hfits', hrecorded', hheld', hport', hlocked'⟩
        refine ⟨hfits', hrecorded', hheld', hport', hlocked', fun error hstop hclean => ?_⟩
        obtain rfl := Stop.failed.inj hstop
        exact absurd hclean (Bool.noConfusion : (true : Bool) ≠ false)
      · rintro n z ⟨request, he⟩
        obtain ⟨hrecorded', hheld', hport', hlocked'⟩ := hkept he
        exact ⟨he.fits, hrecorded', hheld', hport', hlocked',
          fun error hstop => Stop.noConfusion hstop⟩
      · rintro e n z ⟨hfits', hrecorded', hheld', hport', hlocked'⟩
        exact ⟨hfits', hrecorded', hheld', hport', hlocked',
          fun error hstop => Stop.noConfusion hstop⟩
      · rintro bus n z ⟨⟨request, he⟩, hrequest'⟩
        obtain ⟨hrecorded', hheld', hport', hlocked'⟩ := hkept he
        exact keeps_pure ⟨⟨he.fits, hheld', hport', hlocked', hrecorded',
          he.identity.trans hidentity, hnonzero, hrequest'.trans hwanted⟩, rfl⟩
    · rintro stop n z ⟨hfits', hrecorded', hleased'⟩
      exact (dropOwned_keeps ⟨session, record⟩ hfits' hrecorded').mono
        (fun _ o w hw => ⟨hw.fits, hleased'.eased hw⟩) fun _ o w hw => ⟨hw.fits, hleased'.eased hw⟩

theorem launch_keeps {config : HostConfig} {uid gid : ℕ} {profile : Profile}
    {identity : List UInt8} (h : Starting lease x) (hkernel : x.kernel = none)
    (hfresh : l.removed = false) :
    Keeps monitor (launch fuel config uid gid profile identity lease)
      (fun result m y => Owns result.1 result.2 m y)
      (fun stop _ => Leased lease stop) l x := by
  refine keeps_ask_bind trivial fun answer => ?_
  rcases answer with e | _
  · exact keeps_attempt_error (h.leased _)
  refine keeps_attempt_ok (keeps_ask_bind trivial fun answer => ?_)
  rcases answer with e | regular
  · exact keeps_attempt_error (h.leased _)
  refine keeps_attempt_ok ?_
  by_cases hregular : regular = false
  · rw [if_pos hregular]
    exact keeps_fail (h.leased _)
  rw [if_neg hregular]
  have hkept (identity : Option (UInt64 × UInt32)) (status : Option Text) :
      Starting lease { x with identity, status } :=
    ⟨h.held, h.port, h.locked, h.evidence, h.request, h.down, h.removed⟩
  have hdraw : Keeps monitor (identities fuel)
      (fun i m y => m = l ∧ y = { x with identity := some i } ∧ i.1 ≠ 0 ∧ i.2 ≠ 0)
      (fun _ m y => m = l ∧ ∃ identity, y = { x with identity }) l x := by
    refine keeps_ask_bind trivial fun answer => ?_
    rcases answer with e | _
    · exact keeps_attempt_error ⟨rfl, x.identity, rfl⟩
    · exact keeps_attempt_ok (drawIdentities_keeps h.evidence)
  refine keeps_bind (hdraw.mono (fun _ _ _ hy => hy) fun stop m y hy => ?_) ?_
  · obtain ⟨_, identity, rfl⟩ := hy
    exact (hkept identity x.status).leased stop
  rintro ⟨generation, device⟩ m y ⟨rfl, rfl, hnonzero⟩
  refine keeps_bind (revalidate_keeps (hkept _ x.status)) ?_
  rintro _ m y ⟨rfl, status, rfl⟩
  refine keeps_bind (prepare_keeps (hkept _ status) hkernel hfresh) ?_
  rintro ⟨session, channels⟩ m y ⟨hfits, hlease, rfl⟩
  obtain rfl : session.lease = lease := hlease
  refine keeps_dropping (E := fun stop m y => Fits m y ∧ Leased session.lease stop y)
    ((own_keeps hfits ⟨⟨h.held, h.port, h.locked, h.evidence, h.request, h.down, h.removed⟩, rfl,
      rfl⟩ hnonzero).mono (fun _ _ _ hy => hy.1) fun _ _ _ hy => hy) ?_
  rintro stop m y ⟨hfits', hleased⟩
  exact (dropSession_keeps hfits').mono (fun _ _ _ hz => hleased.eased hz)
    fun _ _ _ hz => hleased.eased hz

/-- What an open that fails has left behind. -/
structure Failed (stop : Stop) (x : Account) : Prop where
  held : x.held = false
  locked : x.locked = false
  cleared : Cleared stop x

theorem open_keeps (config : HostConfig) (profile : Profile) (identity : List UInt8) :
    Keeps monitor (Host.open fuel config profile identity)
      (fun result m y => Owns result.1 result.2 m y)
      (fun stop _ => Failed stop) ⟨false, false⟩ Account.new := by
  have hnone (stop : Stop) (status : Option Text) : Failed stop { Account.new with status } :=
    ⟨rfl, rfl, cleared_unasked rfl⟩
  unfold Host.open
  cases config.workerUid with
  | none => exact keeps_fail (hnone _ none)
  | some uid =>
    cases config.workerGid with
    | none => exact keeps_fail (hnone _ none)
    | some gid =>
      refine keeps_ask_bind trivial fun answer => ?_
      rcases answer with e | status
      · exact keeps_attempt_error (hnone _ none)
      refine keeps_attempt_ok (keeps_ask_bind rfl fun answer => ?_)
      rcases answer with e | lease
      · exact keeps_attempt_error (hnone _ (some status))
      refine keeps_attempt_ok (keeps_dropping (launch_keeps
        ⟨rfl, rfl, rfl, rfl, rfl, rfl, rfl⟩ rfl rfl) fun stop m y hy => ?_)
      exact keeps_ask_bind ⟨hy.held, hy.port⟩ fun _ =>
        keeps_pure ⟨rfl, hy.locked, hy.cleared⟩

/-- However an open runs, it asks for nothing out of turn; where it succeeds a record vouches for
what it attached, and where it fails without telling of a failed cleanup it leaves nothing. -/
theorem open_settles (fuel : ℕ) (config : HostConfig) (profile : Profile) (identity : List UInt8)
    {log : Log Call Answer} {result : Except Stop (Opened × Owned) × Locals}
    (h : Run (Host.open fuel config profile identity ⟨false, false⟩) log (.ret result)) :
    Either (fun result m y => Owns result.1 result.2 m y) (fun stop _ => Failed stop) result
        (monitor.state .new log) ∧
      ∀ before after call answer, log = before ++ ⟨call, answer⟩ :: after →
        (monitor.state .new before).allows call := by
  have hopen : Keeps monitor (Host.open fuel config profile identity) _ _ _ _ :=
    open_keeps config profile identity
  refine ⟨hopen.run h, fun before after call answer hlog => ?_⟩
  subst hlog
  exact hopen.allowed h

theorem open_settles_refused : Failed (.failed .notConnected)
    (monitor.state .new [⟨.readStatus, .ok []⟩, ⟨.reserve [], .ok ⟨3⟩⟩,
      ⟨.openAttach, .error .notConnected⟩, ⟨.dropLease ⟨3⟩, ()⟩]) := by
  have hrun : Run (Host.open 5 ⟨['a'], some 1, some 1, ∅⟩ .dualSense [] ⟨false, false⟩)
      [⟨.readStatus, .ok []⟩, ⟨.reserve [], .ok ⟨3⟩⟩, ⟨.openAttach, .error .notConnected⟩,
        ⟨.dropLease ⟨3⟩, ()⟩]
      (.ret (.error (.failed .notConnected), ⟨false, false⟩)) := by
    refine .ask _ ?_
    refine .ask _ ?_
    refine .ask _ ?_
    refine .ask _ ?_
    exact .here _
  exact (open_settles 5 _ .dualSense [] hrun).1

end Opening

end AudioHostAccounts
