import Mathlib.Data.Finset.Insert
import Mathlib.Data.List.Forall2
import Mathlib.Data.List.Induction
import Mathlib.Data.List.Perm.Basic
import VirtualGamepad.PlainText

/-! The administrator's configuration of the broker: which clients, controllers and ports it may
serve, and under which identity the workers run. -/
namespace HostAccess

open PlainText

/-- The reason of an `InvalidData` error. -/
abbrev Invalid := String

structure HostConfig where
  allowedUids : List ℕ
  instanceName : Text
  allowedUdcs : Finset Text
  allowedVhciPorts : Finset ℕ
  workerUid : Option ℕ
  workerGid : Option ℕ

def HostConfig.empty : HostConfig := ⟨[], [], ∅, ∅, none, none⟩

def u32Max : ℕ := 2 ^ 32 - 1

def parseWorkerId (value : Text) : Except Invalid ℕ :=
  if value = [] ∨ ¬digits value then .error "worker identity must be a nonzero numeric UID/GID"
  else
    match parseU32 value with
    | some id =>
      if id ≠ 0 ∧ id ≠ u32Max then .ok id
      else .error "worker identity must be a nonzero numeric UID/GID"
    | none => .error "worker identity must be a nonzero numeric UID/GID"

def instanceChar (c : Char) : Bool := isAsciiLowercase c || isAsciiDigit c || c == '-'

def validInstance (s : Text) : Bool := s ≠ [] && byteLength s ≤ 32 && s.all instanceChar

def validUdc (s : Text) : Bool :=
  (stripPrefix "dummy_udc." s).any fun n => n ≠ [] && digits n

def parseLine (c : HostConfig) (line : Text) : Except Invalid HostConfig :=
  if let some uid := stripPrefix "allow_uid=" line then
    match parseU32 uid with
    | some uid => .ok { c with allowedUids := c.allowedUids ++ [uid] }
    | none => .error "invalid allow_uid"
  else if let some udc := stripPrefix "allow_udc=" line then
    if ¬validUdc udc ∨ udc ∈ c.allowedUdcs then .error "invalid or duplicate allow_udc"
    else .ok { c with allowedUdcs := insert udc c.allowedUdcs }
  else if let some port := stripPrefix "allow_vhci_port=" line then
    if port = [] ∨ ¬digits port then .error "invalid allow_vhci_port"
    else
      match parseU16 port with
      | some port =>
        if port ∈ c.allowedVhciPorts then .error "duplicate allow_vhci_port"
        else .ok { c with allowedVhciPorts := insert port c.allowedVhciPorts }
      | none => .error "invalid allow_vhci_port"
  else if let some uid := stripPrefix "worker_uid=" line then do
    let uid ← parseWorkerId uid
    if c.workerUid.isSome then .error "duplicate worker_uid"
    else .ok { c with workerUid := some uid }
  else if let some gid := stripPrefix "worker_gid=" line then do
    let gid ← parseWorkerId gid
    if c.workerGid.isSome then .error "duplicate worker_gid"
    else .ok { c with workerGid := some gid }
  else if let some name := stripPrefix "instance=" line then
    if c.instanceName ≠ [] ∨ ¬validInstance name then .error "invalid or duplicate instance"
    else .ok { c with instanceName := name }
  else .error "unknown broker configuration key"

/-- All lines but the blank ones and the comments, trimmed. -/
def significant (contents : Text) : List Text :=
  ((lines contents).map trim).filter fun line => line ≠ [] ∧ line.head? ≠ some '#'

def HostConfig.check (c : HostConfig) : Except Invalid HostConfig :=
  if c.allowedUids = [] ∨ c.instanceName = [] ∨
      (c.allowedUdcs = ∅ ∧ c.allowedVhciPorts = ∅) then
    .error "broker requires allow_uid, instance, and an administrator transport allowlist"
  else
    let vhci : Bool := c.allowedVhciPorts ≠ ∅
    if vhci ≠ c.workerUid.isSome ∨ vhci ≠ c.workerGid.isSome then
      .error "VHCI requires both worker_uid and worker_gid; worker settings require a VHCI allowlist"
    else if c.workerUid.any (· ∈ c.allowedUids) then
      .error "worker identity must be distinct from every authorized client"
    else .ok c

def parse (contents : Text) : Except Invalid HostConfig := do
  let c ← (significant contents).foldlM parseLine .empty
  c.check

section Lines

/-- What one line grants or sets. -/
inductive Entry where
  | allowUid (uid : ℕ)
  | allowUdc (udc : Text)
  | allowVhciPort (port : ℕ)
  | workerUid (uid : ℕ)
  | workerGid (gid : ℕ)
  | instanceName (name : Text)
  deriving DecidableEq

/-- The known keys with their well-formed values. -/
inductive Reads : Text → Entry → Prop where
  | allowUid {value : Text} {uid : ℕ} (h : parseU32 value = some uid) :
    Reads ("allow_uid=".toList ++ value) (.allowUid uid)
  | allowUdc {number : Text} (h : number ≠ []) (hdigits : digits number) :
    Reads ("allow_udc=".toList ++ ("dummy_udc.".toList ++ number))
      (.allowUdc ("dummy_udc.".toList ++ number))
  | allowVhciPort {value : Text} {port : ℕ} (h : value ≠ []) (hdigits : digits value)
    (hport : parseU16 value = some port) :
    Reads ("allow_vhci_port=".toList ++ value) (.allowVhciPort port)
  | workerUid {value : Text} {uid : ℕ} (h : value ≠ []) (hdigits : digits value)
    (huid : parseU32 value = some uid) (hzero : uid ≠ 0) (hmax : uid ≠ u32Max) :
    Reads ("worker_uid=".toList ++ value) (.workerUid uid)
  | workerGid {value : Text} {gid : ℕ} (h : value ≠ []) (hdigits : digits value)
    (hgid : parseU32 value = some gid) (hzero : gid ≠ 0) (hmax : gid ≠ u32Max) :
    Reads ("worker_gid=".toList ++ value) (.workerGid gid)
  | instanceName {name : Text} (h : name ≠ []) (hlength : byteLength name ≤ 32)
    (hchars : ∀ c ∈ name, instanceChar c) : Reads ("instance=".toList ++ name) (.instanceName name)

/-- Whether the entry repeats nothing that may stand only once. -/
def HostConfig.Fresh (c : HostConfig) : Entry → Prop
  | .allowUid _ => True
  | .allowUdc udc => udc ∉ c.allowedUdcs
  | .allowVhciPort port => port ∉ c.allowedVhciPorts
  | .workerUid _ => c.workerUid = none
  | .workerGid _ => c.workerGid = none
  | .instanceName _ => c.instanceName = []

def HostConfig.add (c : HostConfig) : Entry → HostConfig
  | .allowUid uid => { c with allowedUids := c.allowedUids ++ [uid] }
  | .allowUdc udc => { c with allowedUdcs := insert udc c.allowedUdcs }
  | .allowVhciPort port => { c with allowedVhciPorts := insert port c.allowedVhciPorts }
  | .workerUid uid => { c with workerUid := some uid }
  | .workerGid gid => { c with workerGid := some gid }
  | .instanceName name => { c with instanceName := name }

variable {c d : HostConfig} {line value : Text} {key other : String} {e : Entry}

theorem stripPrefix_some : stripPrefix key line = some value ↔ line = key.toList ++ value := by
  unfold stripPrefix
  constructor
  · intro h
    split at h
    · next hprefix =>
      obtain ⟨rest, rfl⟩ := hprefix
      simpa using h
    · cases h
  · rintro rfl
    simp

/-- Two keys of which none continues the other are never confused. -/
theorem stripPrefix_other (h : ¬key.toList <+: other.toList) (h' : ¬other.toList <+: key.toList) :
    stripPrefix key (other.toList ++ value) = none := by
  unfold stripPrefix
  rw [if_neg]
  intro hprefix
  rcases List.prefix_or_prefix_of_prefix hprefix (List.prefix_append _ _) with hkey | hkey
  · exact h hkey
  · exact h' hkey

@[simp] theorem stripPrefix_same : stripPrefix key (key.toList ++ value) = some value :=
  stripPrefix_some.mpr rfl

theorem parseWorkerId_ok {id : ℕ} : parseWorkerId value = .ok id ↔
    value ≠ [] ∧ digits value ∧ parseU32 value = some id ∧ id ≠ 0 ∧ id ≠ u32Max := by
  unfold parseWorkerId
  by_cases hform : value = [] ∨ ¬digits value
  · rw [if_pos hform]
    constructor
    · intro h
      cases h
    · rintro ⟨hvalue, hdigits, -⟩
      rcases hform with hempty | hother
      · exact absurd hempty hvalue
      · exact absurd hdigits hother
  · rw [if_neg hform]
    simp only [not_or, not_not] at hform
    cases hparse : parseU32 value with
    | none => simp
    | some n =>
      simp only [Option.some.injEq]
      by_cases hid : n ≠ 0 ∧ n ≠ u32Max
      · rw [if_pos hid]
        constructor
        · intro h
          obtain rfl := Except.ok.inj h
          exact ⟨hform.1, hform.2, rfl, hid⟩
        · rintro ⟨-, -, rfl, -⟩
          rfl
      · rw [if_neg hid]
        constructor
        · intro h
          cases h
        · rintro ⟨-, -, rfl, hid'⟩
          exact absurd hid' hid

theorem validUdc_iff : validUdc value ↔
    ∃ number, value = "dummy_udc.".toList ++ number ∧ number ≠ [] ∧ digits number := by
  unfold validUdc
  rw [Option.any_eq_true]
  constructor
  · rintro ⟨number, hnumber, h⟩
    exact ⟨number, stripPrefix_some.mp hnumber, by simpa using h⟩
  · rintro ⟨number, rfl, h⟩
    exact ⟨number, stripPrefix_same, by simpa using h⟩

theorem validInstance_iff : validInstance value ↔
    value ≠ [] ∧ byteLength value ≤ 32 ∧ ∀ c ∈ value, instanceChar c := by
  simp [validInstance, and_assoc]

/-- A line is taken when it is a known entry that repeats nothing. -/
theorem parseLine_ok : parseLine c line = .ok d ↔ ∃ e, Reads line e ∧ c.Fresh e ∧ d = c.add e := by
  constructor
  · intro h
    unfold parseLine at h
    split at h
    · next value hkey =>
      obtain rfl := stripPrefix_some.mp hkey
      split at h
      · next uid huid => exact ⟨.allowUid uid, .allowUid huid, trivial, (Except.ok.inj h).symm⟩
      · cases h
    split at h
    · next value hkey =>
      obtain rfl := stripPrefix_some.mp hkey
      split at h
      · cases h
      · next hudc =>
        simp only [not_or, not_not] at hudc
        obtain ⟨number, rfl, hnumber, hdigits⟩ := validUdc_iff.mp hudc.1
        exact ⟨.allowUdc _, .allowUdc hnumber hdigits, hudc.2, (Except.ok.inj h).symm⟩
    split at h
    · next value hkey =>
      obtain rfl := stripPrefix_some.mp hkey
      split at h
      · cases h
      next hform =>
      simp only [not_or, not_not] at hform
      split at h
      · next port hport =>
        split at h
        · cases h
        · next hnew =>
          exact ⟨.allowVhciPort port, .allowVhciPort hform.1 hform.2 hport, hnew,
            (Except.ok.inj h).symm⟩
      · cases h
    split at h
    · next value hkey =>
      obtain rfl := stripPrefix_some.mp hkey
      obtain ⟨uid, huid, hset⟩ := bind_ok.mp h
      obtain ⟨hvalue, hdigits, hparse, hzero, hmax⟩ := parseWorkerId_ok.mp huid
      split at hset
      · cases hset
      · next hnone =>
        exact ⟨.workerUid uid, .workerUid hvalue hdigits hparse hzero hmax,
          Option.not_isSome_iff_eq_none.mp hnone, (Except.ok.inj hset).symm⟩
    split at h
    · next value hkey =>
      obtain rfl := stripPrefix_some.mp hkey
      obtain ⟨gid, hgid, hset⟩ := bind_ok.mp h
      obtain ⟨hvalue, hdigits, hparse, hzero, hmax⟩ := parseWorkerId_ok.mp hgid
      split at hset
      · cases hset
      · next hnone =>
        exact ⟨.workerGid gid, .workerGid hvalue hdigits hparse hzero hmax,
          Option.not_isSome_iff_eq_none.mp hnone, (Except.ok.inj hset).symm⟩
    split at h
    · next value hkey =>
      obtain rfl := stripPrefix_some.mp hkey
      split at h
      · cases h
      · next hname =>
        simp only [not_or, not_not] at hname
        obtain ⟨hvalue, hlength, hchars⟩ := validInstance_iff.mp hname.2
        exact ⟨.instanceName value, .instanceName hvalue hlength hchars, hname.1,
          (Except.ok.inj h).symm⟩
    · cases h
  · rintro ⟨e, hreads, hfresh, rfl⟩
    unfold parseLine
    cases hreads with
    | allowUid huid =>
      simp only [stripPrefix_same, huid]
      rfl
    | allowUdc hnumber hdigits =>
      have hvalid := validUdc_iff.mpr ⟨_, rfl, hnumber, hdigits⟩
      rw [stripPrefix_other (by decide) (by decide)]
      simp only [stripPrefix_same]
      rw [if_neg (not_or.mpr ⟨not_not.mpr hvalid, hfresh⟩)]
      rfl
    | allowVhciPort hvalue hdigits hport =>
      rw [stripPrefix_other (by decide) (by decide), stripPrefix_other (by decide) (by decide)]
      simp only [stripPrefix_same]
      rw [if_neg (by simp [hvalue, hdigits]), hport]
      exact if_neg hfresh
    | workerUid hvalue hdigits hparse hzero hmax =>
      have hid := parseWorkerId_ok.mpr ⟨hvalue, hdigits, hparse, hzero, hmax⟩
      have hnone : c.workerUid = none := hfresh
      rw [stripPrefix_other (by decide) (by decide), stripPrefix_other (by decide) (by decide),
        stripPrefix_other (by decide) (by decide)]
      simp only [stripPrefix_same]
      exact bind_ok.mpr ⟨_, hid, by simp [hnone, HostConfig.add]⟩
    | workerGid hvalue hdigits hparse hzero hmax =>
      have hid := parseWorkerId_ok.mpr ⟨hvalue, hdigits, hparse, hzero, hmax⟩
      have hnone : c.workerGid = none := hfresh
      rw [stripPrefix_other (by decide) (by decide), stripPrefix_other (by decide) (by decide),
        stripPrefix_other (by decide) (by decide), stripPrefix_other (by decide) (by decide)]
      simp only [stripPrefix_same]
      exact bind_ok.mpr ⟨_, hid, by simp [hnone, HostConfig.add]⟩
    | instanceName hname hlength hchars =>
      have hvalid := validInstance_iff.mpr ⟨hname, hlength, hchars⟩
      have hnone : c.instanceName = [] := hfresh
      rw [stripPrefix_other (by decide) (by decide), stripPrefix_other (by decide) (by decide),
        stripPrefix_other (by decide) (by decide), stripPrefix_other (by decide) (by decide),
        stripPrefix_other (by decide) (by decide)]
      simp only [stripPrefix_same]
      rw [if_neg (by simp [hnone, hvalid])]
      rfl

/-- Entry after entry repeats nothing of what stood before it. -/
def FreshAll (c : HostConfig) : List Entry → Prop
  | [] => True
  | e :: es => c.Fresh e ∧ FreshAll (c.add e) es

theorem parseLines_ok {read : List Text} : read.foldlM parseLine c = .ok d ↔
    ∃ es, List.Forall₂ Reads read es ∧ FreshAll c es ∧ d = es.foldl HostConfig.add c := by
  induction read generalizing c with
  | nil =>
    constructor
    · intro h
      obtain rfl := Except.ok.inj h
      exact ⟨[], .nil, trivial, rfl⟩
    · rintro ⟨es, hreads, -, rfl⟩
      cases hreads
      rfl
  | cons line read ih =>
    rw [List.foldlM_cons, bind_ok]
    constructor
    · rintro ⟨next, hline, hrest⟩
      obtain ⟨e, hreads, hfresh, rfl⟩ := parseLine_ok.mp hline
      obtain ⟨es, hall, hnew, rfl⟩ := ih.mp hrest
      exact ⟨e :: es, .cons hreads hall, ⟨hfresh, hnew⟩, rfl⟩
    · rintro ⟨es, hreads, hfresh, rfl⟩
      cases hreads with
      | cons hline hrest =>
        refine ⟨_, parseLine_ok.mpr ⟨_, hline, hfresh.1, rfl⟩, ih.mpr ⟨_, hrest, hfresh.2, rfl⟩⟩

theorem freshAll_concat {es : List Entry} :
    FreshAll c (es ++ [e]) ↔ FreshAll c es ∧ (es.foldl HostConfig.add c).Fresh e := by
  induction es generalizing c with
  | nil => simp [FreshAll]
  | cons first es ih => simp [FreshAll, ih, and_assoc]

end Lines

section Entries

def Entry.uid? : Entry → Option ℕ
  | .allowUid uid => some uid
  | _ => none

def Entry.udc? : Entry → Option Text
  | .allowUdc udc => some udc
  | _ => none

def Entry.port? : Entry → Option ℕ
  | .allowVhciPort port => some port
  | _ => none

def Entry.workerUid? : Entry → Option ℕ
  | .workerUid uid => some uid
  | _ => none

def Entry.workerGid? : Entry → Option ℕ
  | .workerGid gid => some gid
  | _ => none

def Entry.name? : Entry → Option Text
  | .instanceName name => some name
  | _ => none

/-- What the entries of a configuration amount to. -/
def config (es : List Entry) : HostConfig where
  allowedUids := es.filterMap Entry.uid?
  instanceName := (es.filterMap Entry.name?).head?.getD []
  allowedUdcs := (es.filterMap Entry.udc?).toFinset
  allowedVhciPorts := (es.filterMap Entry.port?).toFinset
  workerUid := (es.filterMap Entry.workerUid?).head?
  workerGid := (es.filterMap Entry.workerGid?).head?

/-- Single-valued keys stand at most once, controllers and ports do not repeat. -/
structure Unrepeated (es : List Entry) : Prop where
  udcs : (es.filterMap Entry.udc?).Nodup
  ports : (es.filterMap Entry.port?).Nodup
  workerUid : (es.filterMap Entry.workerUid?).length ≤ 1
  workerGid : (es.filterMap Entry.workerGid?).length ≤ 1
  name : (es.filterMap Entry.name?).length ≤ 1

/-- All that a broker needs is there, and worker identities exactly where there are ports. -/
structure Complete (es : List Entry) : Prop where
  uid : ∃ uid, .allowUid uid ∈ es
  name : ∃ name, .instanceName name ∈ es
  transport : (∃ udc, .allowUdc udc ∈ es) ∨ ∃ port, .allowVhciPort port ∈ es
  workerUid : (∃ uid, .workerUid uid ∈ es) ↔ ∃ port, .allowVhciPort port ∈ es
  workerGid : (∃ gid, .workerGid gid ∈ es) ↔ ∃ port, .allowVhciPort port ∈ es

/-- No worker runs as an authorized client. -/
def Separate (es : List Entry) : Prop := ∀ uid, .workerUid uid ∈ es → .allowUid uid ∉ es

def Named (es : List Entry) : Prop := ∀ name, .instanceName name ∈ es → name ≠ []

variable {es fs : List Entry} {e : Entry} {d : HostConfig}

/-- A selection of one kind of entry finds exactly the entries of that kind. -/
theorem mem_select {α : Type} {select : Entry → Option α} {make : α → Entry}
    (h : ∀ e a, select e = some a ↔ e = make a) (es : List Entry) (a : α) :
    a ∈ es.filterMap select ↔ make a ∈ es := by
  rw [List.mem_filterMap]
  constructor
  · rintro ⟨e, he, hselect⟩
    obtain rfl := (h e a).mp hselect
    exact he
  · intro hmem
    exact ⟨make a, hmem, (h _ _).mpr rfl⟩

theorem mem_uids {a} : a ∈ es.filterMap Entry.uid? ↔ .allowUid a ∈ es :=
  mem_select (by intro e a; cases e <;> simp [Entry.uid?]) es a

theorem mem_udcs {a} : a ∈ es.filterMap Entry.udc? ↔ .allowUdc a ∈ es :=
  mem_select (by intro e a; cases e <;> simp [Entry.udc?]) es a

theorem mem_ports {a} : a ∈ es.filterMap Entry.port? ↔ .allowVhciPort a ∈ es :=
  mem_select (by intro e a; cases e <;> simp [Entry.port?]) es a

theorem mem_workerUids {a} : a ∈ es.filterMap Entry.workerUid? ↔ .workerUid a ∈ es :=
  mem_select (by intro e a; cases e <;> simp [Entry.workerUid?]) es a

theorem mem_workerGids {a} : a ∈ es.filterMap Entry.workerGid? ↔ .workerGid a ∈ es :=
  mem_select (by intro e a; cases e <;> simp [Entry.workerGid?]) es a

theorem mem_names {a} : a ∈ es.filterMap Entry.name? ↔ .instanceName a ∈ es :=
  mem_select (by intro e a; cases e <;> simp [Entry.name?]) es a

theorem config_name (hnamed : Named es) :
    (config es).instanceName = [] ↔ es.filterMap Entry.name? = [] := by
  unfold config
  cases hnames : es.filterMap Entry.name? with
  | nil => simp
  | cons name rest =>
    have hname : name ∈ es.filterMap Entry.name? := by simp [hnames]
    simpa using hnamed name (mem_names.mp hname)

theorem length_concat_le {α : Type} {l : List α} {a : α} : (l ++ [a]).length ≤ 1 ↔ l = [] := by
  rw [List.length_append, List.length_singleton, ← List.length_eq_zero_iff]
  omega

theorem nodup_concat {α : Type} {l : List α} {a : α} : (l ++ [a]).Nodup ↔ l.Nodup ∧ a ∉ l := by
  rw [List.nodup_append_comm, List.singleton_append, List.nodup_cons]
  exact and_comm

theorem unrepeated_iff : Unrepeated es ↔
    (es.filterMap Entry.udc?).Nodup ∧ (es.filterMap Entry.port?).Nodup ∧
    (es.filterMap Entry.workerUid?).length ≤ 1 ∧ (es.filterMap Entry.workerGid?).length ≤ 1 ∧
    (es.filterMap Entry.name?).length ≤ 1 := by
  constructor
  · rintro ⟨hudcs, hports, huid, hgid, hname⟩
    exact ⟨hudcs, hports, huid, hgid, hname⟩
  · rintro ⟨hudcs, hports, huid, hgid, hname⟩
    exact ⟨hudcs, hports, huid, hgid, hname⟩

/-- One entry more keeps a configuration unrepeated exactly when it is fresh in it. -/
theorem unrepeated_concat (hnamed : Named es) :
    Unrepeated (es ++ [e]) ↔ Unrepeated es ∧ (config es).Fresh e := by
  have hempty : ∀ {α : Type} {l : List α}, l = [] → l.length ≤ 1 := by
    rintro α l rfl
    exact Nat.zero_le 1
  cases e with
  | allowUid uid =>
    simp only [unrepeated_iff, List.filterMap_append, List.filterMap_cons, List.filterMap_nil,
      List.append_nil, Entry.udc?, Entry.port?, Entry.workerUid?, Entry.workerGid?, Entry.name?,
      HostConfig.Fresh]
    tauto
  | allowUdc udc =>
    simp only [unrepeated_iff, List.filterMap_append, List.filterMap_cons, List.filterMap_nil,
      List.append_nil, Entry.udc?, Entry.port?, Entry.workerUid?, Entry.workerGid?, Entry.name?,
      HostConfig.Fresh, nodup_concat, config, List.mem_toFinset]
    tauto
  | allowVhciPort port =>
    simp only [unrepeated_iff, List.filterMap_append, List.filterMap_cons, List.filterMap_nil,
      List.append_nil, Entry.udc?, Entry.port?, Entry.workerUid?, Entry.workerGid?, Entry.name?,
      HostConfig.Fresh, nodup_concat, config, List.mem_toFinset]
    tauto
  | workerUid uid =>
    have hone := @hempty _ (es.filterMap Entry.workerUid?)
    simp only [unrepeated_iff, List.filterMap_append, List.filterMap_cons, List.filterMap_nil,
      List.append_nil, Entry.udc?, Entry.port?, Entry.workerUid?, Entry.workerGid?, Entry.name?,
      HostConfig.Fresh, length_concat_le, config, List.head?_eq_none_iff]
    tauto
  | workerGid gid =>
    have hone := @hempty _ (es.filterMap Entry.workerGid?)
    simp only [unrepeated_iff, List.filterMap_append, List.filterMap_cons, List.filterMap_nil,
      List.append_nil, Entry.udc?, Entry.port?, Entry.workerUid?, Entry.workerGid?, Entry.name?,
      HostConfig.Fresh, length_concat_le, config, List.head?_eq_none_iff]
    tauto
  | instanceName name =>
    have hone := @hempty _ (es.filterMap Entry.name?)
    simp only [unrepeated_iff, List.filterMap_append, List.filterMap_cons, List.filterMap_nil,
      List.append_nil, Entry.udc?, Entry.port?, Entry.workerUid?, Entry.workerGid?, Entry.name?,
      HostConfig.Fresh, length_concat_le, config_name hnamed]
    tauto

theorem toFinset_concat {α : Type} [DecidableEq α] {l : List α} {a : α} :
    (l ++ [a]).toFinset = insert a l.toFinset := by
  ext b
  simp [or_comm]

theorem config_concat (hnamed : Named es) (h : (config es).Fresh e) :
    (config es).add e = config (es ++ [e]) := by
  unfold config
  cases e with
  | allowUid uid =>
    simp [HostConfig.add, List.filterMap_cons, Entry.uid?, Entry.udc?, Entry.port?,
      Entry.workerUid?, Entry.workerGid?, Entry.name?]
  | allowUdc udc =>
    simp [HostConfig.add, List.filterMap_cons, toFinset_concat, Entry.uid?, Entry.udc?,
      Entry.port?, Entry.workerUid?, Entry.workerGid?, Entry.name?]
  | allowVhciPort port =>
    simp [HostConfig.add, List.filterMap_cons, toFinset_concat, Entry.uid?, Entry.udc?,
      Entry.port?, Entry.workerUid?, Entry.workerGid?, Entry.name?]
  | workerUid uid =>
    have hnone : es.filterMap Entry.workerUid? = [] := List.head?_eq_none_iff.mp h
    simp [HostConfig.add, hnone, List.filterMap_cons, Entry.uid?, Entry.udc?, Entry.port?,
      Entry.workerUid?, Entry.workerGid?, Entry.name?]
  | workerGid gid =>
    have hnone : es.filterMap Entry.workerGid? = [] := List.head?_eq_none_iff.mp h
    simp [HostConfig.add, hnone, List.filterMap_cons, Entry.uid?, Entry.udc?, Entry.port?,
      Entry.workerUid?, Entry.workerGid?, Entry.name?]
  | instanceName name =>
    have hnone := (config_name hnamed).mp h
    simp [HostConfig.add, hnone, List.filterMap_cons, Entry.uid?, Entry.udc?, Entry.port?,
      Entry.workerUid?, Entry.workerGid?, Entry.name?]

/-- Entries that repeat nothing leave the configuration that they amount to. -/
theorem freshAll_iff (hnamed : Named es) : (FreshAll .empty es ↔ Unrepeated es) ∧
    (Unrepeated es → es.foldl HostConfig.add .empty = config es) := by
  induction es using List.reverseRecOn with
  | nil =>
    refine ⟨?_, fun _ => rfl⟩
    simp [FreshAll, unrepeated_iff]
  | append_singleton es e ih =>
    have hbefore : Named es := fun name h => hnamed name (List.mem_append_left _ h)
    obtain ⟨hiff, hfold⟩ := ih hbefore
    constructor
    · rw [freshAll_concat, unrepeated_concat hbefore, hiff]
      constructor
      · rintro ⟨hes, he⟩
        exact ⟨hes, hfold hes ▸ he⟩
      · rintro ⟨hes, he⟩
        exact ⟨hes, (hfold hes).symm ▸ he⟩
    · intro h
      obtain ⟨hes, he⟩ := (unrepeated_concat hbefore).mp h
      rw [List.foldl_append, hfold hes]
      exact config_concat hbefore he

theorem eq_nil_iff {α : Type} {l : List α} : l = [] ↔ ¬∃ a, a ∈ l := by
  rw [List.eq_nil_iff_forall_not_mem, not_exists]

theorem head_isSome {α : Type} {l : List α} : l.head?.isSome ↔ ∃ a, a ∈ l := by
  cases l with
  | nil => simp
  | cons a l => simp

theorem mem_of_length_le_one {α : Type} {l : List α} {a : α} (h : l.length ≤ 1) :
    a ∈ l ↔ l.head? = some a := by
  match l, h with
  | [], _ => simp
  | [b], _ => simp [eq_comm]

theorem decide_ne_iff {p : Prop} [Decidable p] {b : Bool} : decide p ≠ b ↔ ¬(b ↔ p) := by
  by_cases hp : p
  · simp [hp, eq_comm]
  · simp [hp]

theorem HostConfig.check_ok {c : HostConfig} : c.check = .ok d ↔
    (c.allowedUids ≠ [] ∧ c.instanceName ≠ [] ∧ (c.allowedUdcs ≠ ∅ ∨ c.allowedVhciPorts ≠ ∅)) ∧
    (c.workerUid.isSome ↔ c.allowedVhciPorts ≠ ∅) ∧
    (c.workerGid.isSome ↔ c.allowedVhciPorts ≠ ∅) ∧
    ¬c.workerUid.any (· ∈ c.allowedUids) ∧ d = c := by
  unfold HostConfig.check
  by_cases hpresent : c.allowedUids = [] ∨ c.instanceName = [] ∨
      (c.allowedUdcs = ∅ ∧ c.allowedVhciPorts = ∅)
  · rw [if_pos hpresent]
    constructor
    · intro h
      cases h
    · rintro ⟨⟨huid, hname, htransport⟩, -⟩
      tauto
  · rw [if_neg hpresent]
    simp only [not_or, not_and_or] at hpresent
    by_cases hworker : (c.workerUid.isSome ↔ c.allowedVhciPorts ≠ ∅) ∧
        (c.workerGid.isSome ↔ c.allowedVhciPorts ≠ ∅)
    · rw [if_neg (by simp only [decide_ne_iff, ← not_and_or, not_not, hworker, true_and])]
      by_cases hshared : c.workerUid.any (· ∈ c.allowedUids) = true
      · rw [if_pos hshared]
        simp [hshared]
      · rw [if_neg hshared, Except.ok.injEq, eq_comm]
        exact ⟨fun h => ⟨hpresent, hworker.1, hworker.2, hshared, h⟩, fun h => h.2.2.2.2⟩
    · rw [if_pos (by simpa only [decide_ne_iff, not_and_or] using hworker)]
      constructor
      · intro h
        cases h
      · rintro ⟨-, huid, hgid, -⟩
        exact absurd ⟨huid, hgid⟩ hworker

/-- The checks at the end ask for completeness and for an identity of the workers' own. -/
theorem check_config (hnamed : Named es) (h : Unrepeated es) :
    (config es).check = .ok d ↔ Complete es ∧ Separate es ∧ d = config es := by
  have huids : (config es).allowedUids = [] ↔ ¬∃ uid, .allowUid uid ∈ es := by
    simp only [config, eq_nil_iff, mem_uids]
  have hname : (config es).instanceName = [] ↔ ¬∃ name, .instanceName name ∈ es := by
    simp only [config_name hnamed, eq_nil_iff, mem_names]
  have hudcs : (config es).allowedUdcs = ∅ ↔ ¬∃ udc, .allowUdc udc ∈ es := by
    simp only [config, List.toFinset_eq_empty_iff, eq_nil_iff, mem_udcs]
  have hports : (config es).allowedVhciPorts = ∅ ↔ ¬∃ port, .allowVhciPort port ∈ es := by
    simp only [config, List.toFinset_eq_empty_iff, eq_nil_iff, mem_ports]
  have huid : (config es).workerUid.isSome ↔ ∃ uid, .workerUid uid ∈ es := by
    simp only [config, head_isSome, mem_workerUids]
  have hgid : (config es).workerGid.isSome ↔ ∃ gid, .workerGid gid ∈ es := by
    simp only [config, head_isSome, mem_workerGids]
  have hshared : ¬(config es).workerUid.any (· ∈ (config es).allowedUids) ↔ Separate es := by
    simp only [Separate, config, Option.any_eq_true, ← mem_of_length_le_one h.workerUid,
      mem_workerUids, mem_uids, decide_eq_true_eq, not_exists, not_and]
  rw [HostConfig.check_ok, hshared, huid, hgid, ne_eq, ne_eq, ne_eq, ne_eq, huids, hname, hudcs,
    hports]
  simp only [not_not]
  constructor
  · rintro ⟨⟨huid, hname, htransport⟩, hworker, hgroup, hseparate, rfl⟩
    exact ⟨⟨huid, hname, htransport, hworker, hgroup⟩, hseparate, rfl⟩
  · rintro ⟨⟨huid, hname, htransport, hworker, hgroup⟩, hseparate, rfl⟩
    exact ⟨⟨huid, hname, htransport⟩, hworker, hgroup, hseparate, rfl⟩

theorem exists_line {read : List Text} (h : List.Forall₂ Reads read es) (he : e ∈ es) :
    ∃ line, Reads line e := by
  induction h with
  | nil => cases he
  | cons hline _ ih =>
    rcases List.mem_cons.mp he with rfl | he
    · exact ⟨_, hline⟩
    · exact ih he

theorem named_of_reads {read : List Text} (h : List.Forall₂ Reads read es) : Named es := by
  intro name hname
  obtain ⟨line, hline⟩ := exists_line h hname
  cases hline with
  | instanceName hne => exact hne

/-- A configuration is accepted exactly when its lines are well-formed entries that repeat nothing,
leave out nothing and keep the workers apart from the clients. -/
theorem parse_ok {contents : Text} : parse contents = .ok d ↔
    ∃ es, List.Forall₂ Reads (significant contents) es ∧ Unrepeated es ∧ Complete es ∧
      Separate es ∧ d = config es := by
  unfold parse
  rw [bind_ok]
  constructor
  · rintro ⟨c, hlines, hcheck⟩
    obtain ⟨es, hreads, hfresh, rfl⟩ := parseLines_ok.mp hlines
    have hnamed := named_of_reads hreads
    have hunrepeated := (freshAll_iff hnamed).1.mp hfresh
    rw [(freshAll_iff hnamed).2 hunrepeated, check_config hnamed hunrepeated] at hcheck
    exact ⟨es, hreads, hunrepeated, hcheck⟩
  · rintro ⟨es, hreads, hunrepeated, hcheck⟩
    have hnamed := named_of_reads hreads
    have hfresh := (freshAll_iff hnamed).1.mpr hunrepeated
    refine ⟨_, parseLines_ok.mpr ⟨es, hreads, hfresh, rfl⟩, ?_⟩
    rw [(freshAll_iff hnamed).2 hunrepeated, check_config hnamed hunrepeated]
    exact hcheck

section Order

/-- The same configuration but for the order of the clients. -/
structure Same (c d : HostConfig) : Prop where
  uids : c.allowedUids.Perm d.allowedUids
  name : c.instanceName = d.instanceName
  udcs : c.allowedUdcs = d.allowedUdcs
  ports : c.allowedVhciPorts = d.allowedVhciPorts
  workerUid : c.workerUid = d.workerUid
  workerGid : c.workerGid = d.workerGid

theorem unrepeated_perm (h : es.Perm fs) (hes : Unrepeated es) : Unrepeated fs := by
  obtain ⟨hudcs, hports, huid, hgid, hname⟩ := hes
  refine ⟨(h.filterMap _).nodup_iff.mp hudcs, (h.filterMap _).nodup_iff.mp hports, ?_, ?_, ?_⟩
  · exact (h.filterMap _).length_eq ▸ huid
  · exact (h.filterMap _).length_eq ▸ hgid
  · exact (h.filterMap _).length_eq ▸ hname

theorem complete_perm (h : es.Perm fs) (hes : Complete es) : Complete fs := by
  obtain ⟨huid, hname, htransport, hworker, hgroup⟩ := hes
  simp only [h.mem_iff] at *
  exact ⟨huid, hname, htransport, hworker, hgroup⟩

theorem separate_perm (h : es.Perm fs) (hes : Separate es) : Separate fs := by
  intro uid hworker hclient
  exact hes uid (h.mem_iff.mpr hworker) (h.mem_iff.mpr hclient)

theorem head?_perm {α : Type} {l m : List α} (h : l.Perm m) (hshort : l.length ≤ 1) :
    l.head? = m.head? := by
  match l, hshort with
  | [], _ => rw [h.nil_eq]
  | [a], _ => rw [List.perm_singleton.mp h.symm]

theorem config_perm (h : es.Perm fs) (hes : Unrepeated es) : Same (config es) (config fs) where
  uids := h.filterMap _
  name := congrArg (·.getD []) (head?_perm (h.filterMap _) hes.name)
  udcs := List.toFinset_eq_of_perm _ _ (h.filterMap _)
  ports := List.toFinset_eq_of_perm _ _ (h.filterMap _)
  workerUid := head?_perm (h.filterMap _) hes.workerUid
  workerGid := head?_perm (h.filterMap _) hes.workerGid

theorem parse_perm {a b : Text} {c : HostConfig} (h : (significant a).Perm (significant b))
    (ha : parse a = .ok c) : ∃ d, parse b = .ok d ∧ Same c d := by
  obtain ⟨es, hreads, hunrepeated, hcomplete, hseparate, rfl⟩ := parse_ok.mp ha
  obtain ⟨fs, hfs, hperm⟩ := List.perm_comp_forall₂ h.symm hreads
  have hperm' := hperm.symm
  exact ⟨config fs, parse_ok.mpr ⟨fs, hfs, unrepeated_perm hperm' hunrepeated,
    complete_perm hperm' hcomplete, separate_perm hperm' hseparate, rfl⟩,
    config_perm hperm' hunrepeated⟩

theorem significant_perm {a b : Text} (h : (lines a).Perm (lines b)) :
    (significant a).Perm (significant b) := (h.map trim).filter _

end Order

/-- In an accepted configuration the workers are neither root nor a client. -/
theorem parse_identities {contents : Text} (h : parse contents = .ok d) :
    (∀ uid, d.workerUid = some uid → uid ≠ 0 ∧ uid ≠ u32Max ∧ uid ∉ d.allowedUids) ∧
    (∀ gid, d.workerGid = some gid → gid ≠ 0 ∧ gid ≠ u32Max) ∧
    (∀ c ∈ d.instanceName, isAsciiLowercase c ∨ isAsciiDigit c ∨ c = '-') := by
  obtain ⟨es, hreads, hunrepeated, -, hseparate, rfl⟩ := parse_ok.mp h
  refine ⟨?_, ?_, ?_⟩
  · intro uid huid
    have hmem := mem_workerUids.mp ((mem_of_length_le_one hunrepeated.workerUid).mpr huid)
    obtain ⟨line, hline⟩ := exists_line hreads hmem
    cases hline with
    | workerUid _ _ _ hzero hmax =>
      exact ⟨hzero, hmax, fun hclient => hseparate uid hmem (mem_uids.mp hclient)⟩
  · intro gid hgid
    have hmem := mem_workerGids.mp ((mem_of_length_le_one hunrepeated.workerGid).mpr hgid)
    obtain ⟨line, hline⟩ := exists_line hreads hmem
    cases hline with
    | workerGid _ _ _ hzero hmax => exact ⟨hzero, hmax⟩
  · intro c hc
    cases hhead : (es.filterMap Entry.name?).head? with
    | none => simp [config, hhead] at hc
    | some name =>
      simp only [config, hhead, Option.getD_some] at hc
      have hmem := mem_names.mp ((mem_of_length_le_one hunrepeated.name).mpr hhead)
      obtain ⟨line, hline⟩ := exists_line hreads hmem
      cases hline with
      | instanceName _ _ hchars => simpa [instanceChar, or_assoc] using hchars c hc

end Entries

/-- A configuration whose workers run as its only client. -/
def sharedIdentity : Text :=
  "allow_uid=42\ninstance=test\nallow_vhci_port=0\nworker_uid=42\nworker_gid=44".toList

/-- Well-formed, unrepeated and complete entries alone are not always accepted. -/
theorem not_accepted_exactly :
    ¬∀ contents, (∃ c, parse contents = .ok c) ↔
      ∃ es, List.Forall₂ Reads (significant contents) es ∧ Unrepeated es ∧ Complete es := by
  intro h
  have hlines : significant sharedIdentity = [
      "allow_uid=".toList ++ "42".toList, "instance=".toList ++ "test".toList,
      "allow_vhci_port=".toList ++ "0".toList, "worker_uid=".toList ++ "42".toList,
      "worker_gid=".toList ++ "44".toList] := by
    decide +kernel
  have hname := validInstance_iff.mp (by decide : validInstance "test".toList = true)
  have hreads : List.Forall₂ Reads (significant sharedIdentity) [.allowUid 42,
      .instanceName "test".toList, .allowVhciPort 0, .workerUid 42, .workerGid 44] := by
    rw [hlines]
    exact .cons (.allowUid (by decide +kernel))
      (.cons (.instanceName hname.1 hname.2.1 hname.2.2)
      (.cons (.allowVhciPort (by decide) (by decide) (by decide +kernel))
      (.cons (.workerUid (by decide) (by decide) (by decide +kernel) (by decide) (by decide))
      (.cons (.workerGid (by decide) (by decide) (by decide +kernel) (by decide) (by decide))
      .nil))))
  have hcomplete : Complete [.allowUid 42, .instanceName "test".toList, .allowVhciPort 0,
      .workerUid 42, .workerGid 44] :=
    ⟨⟨42, by simp⟩, ⟨"test".toList, by simp⟩, .inr ⟨0, by simp⟩,
      ⟨fun _ => ⟨0, by simp⟩, fun _ => ⟨42, by simp⟩⟩,
      ⟨fun _ => ⟨0, by simp⟩, fun _ => ⟨44, by simp⟩⟩⟩
  obtain ⟨c, hc⟩ := (h sharedIdentity).mpr
    ⟨_, hreads, ⟨by decide, by decide, by decide, by decide, by decide⟩, hcomplete⟩
  have hrefused : (parse sharedIdentity).isOk = false := by decide +kernel
  simp [hc, Except.isOk, Except.toBool] at hrefused

/-- Whatever the order of its lines, a configuration is accepted exactly when it is well formed,
complete and keeps the workers apart from the clients. -/
theorem host_config :
    (∀ a b, (lines a).Perm (lines b) ∨ (significant a).Perm (significant b) →
      ((∃ c, parse a = .ok c) ↔ ∃ c, parse b = .ok c) ∧
      ∀ c d, parse a = .ok c → parse b = .ok d → Same c d) ∧
    (∀ contents, (∃ c, parse contents = .ok c) ↔
      ∃ es, List.Forall₂ Reads (significant contents) es ∧ Unrepeated es ∧ Complete es ∧
        Separate es) ∧
    (∀ contents c, parse contents = .ok c →
      (∀ uid, c.workerUid = some uid → uid ≠ 0 ∧ uid ≠ u32Max ∧ uid ∉ c.allowedUids) ∧
      (∀ gid, c.workerGid = some gid → gid ≠ 0 ∧ gid ≠ u32Max) ∧
      (∀ ch ∈ c.instanceName, isAsciiLowercase ch ∨ isAsciiDigit ch ∨ ch = '-')) := by
  refine ⟨?_, ?_, fun contents c h => parse_identities h⟩
  · intro a b h
    have hperm : (significant a).Perm (significant b) := by
      rcases h with h | h
      · exact significant_perm h
      · exact h
    refine ⟨⟨?_, ?_⟩, ?_⟩
    · rintro ⟨c, hc⟩
      obtain ⟨d, hd, -⟩ := parse_perm hperm hc
      exact ⟨d, hd⟩
    · rintro ⟨c, hc⟩
      obtain ⟨d, hd, -⟩ := parse_perm hperm.symm hc
      exact ⟨d, hd⟩
    · intro c d hc hd
      obtain ⟨d', hd', hsame⟩ := parse_perm hperm hc
      obtain rfl := Except.ok.inj (hd.symm.trans hd')
      exact hsame
  · intro contents
    constructor
    · rintro ⟨c, hc⟩
      obtain ⟨es, hreads, hunrepeated, hcomplete, hseparate, -⟩ := parse_ok.mp hc
      exact ⟨es, hreads, hunrepeated, hcomplete, hseparate⟩
    · rintro ⟨es, hreads, hunrepeated, hcomplete, hseparate⟩
      exact ⟨config es, parse_ok.mpr ⟨es, hreads, hunrepeated, hcomplete, hseparate, rfl⟩⟩

end HostAccess
