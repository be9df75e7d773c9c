import Mathlib.Data.Finset.Sort
import Mathlib.Data.List.Forall2
import VirtualGamepad.PlainText

/-! Admission to the ports of a virtual USB host: reservations of free ports, and what the status
text of the kernel says about a port. -/
namespace VhciPolicy

open PlainText

inductive IoError where
  | invalidData (reason : String)
  | addrInUse (reason : String)
  | other (reason : String)
  | parseInt
  deriving DecidableEq, Repr

def maxInventoryBytes : ℕ := 65536

def header : List Text :=
  ["hub", "port", "sta", "spd", "dev", "sockfd", "local_busid"].map String.toList

/-- The words of all rows below the right header. -/
def tableRows (inventory : Text) : Option (List (List Text)) :=
  match lines inventory with
  | [] => none
  | head :: rows => if splitWhitespace head = header then some (rows.map splitWhitespace) else none

section Inventory

structure Row where
  highSpeed : Bool
  port : ℕ
  state : ℕ
  speed : ℕ
  device : ℕ
  socket : ℕ
  bus : Text
  deriving DecidableEq, Repr

def orInvalid {α : Type} (reason : String) : Option α → Except IoError α
  | some a => .ok a
  | none => .error (.invalidData reason)

def parseRow : List Text → Except IoError Row
  | [hub, port, sta, spd, dev, sockfd, bus] =>
    if ¬(hub = "hs".toList ∨ hub = "ss".toList) then
      .error (.invalidData "malformed VHCI inventory row")
    else if ¬(digits port ∧ digits sta ∧ digits spd) then
      .error (.invalidData "malformed VHCI inventory number")
    else do
      let port ← orInvalid "invalid VHCI port" (parseU16 port)
      let state ← orInvalid "invalid VHCI state" (parseU8 sta)
      let speed ← orInvalid "invalid VHCI speed" (parseU8 spd)
      let device ← orInvalid "invalid VHCI device" (parseHexU32 dev)
      let socket ← orInvalid "invalid VHCI socket" (parseHexU32 sockfd)
      return ⟨hub = "hs".toList, port, state, speed, device, socket, bus⟩
  | _ => .error (.invalidData "malformed VHCI inventory row")

def Row.neutral (row : Row) : Bool :=
  row.speed = 0 ∧ row.device = 0 ∧ row.socket = 0 ∧ row.bus = "0-0".toList

/-- The ports seen so far, and those of them that are free. -/
def admitRow (row : Row) (ports : Finset ℕ × Finset ℕ) : Except IoError (Finset ℕ × Finset ℕ) :=
  if row.port ∈ ports.1 then .error (.invalidData "duplicate VHCI port")
  else if row.state = 4 ∧ !row.neutral then .error (.invalidData "inconsistent free VHCI port")
  else .ok (insert row.port ports.1,
    if row.state = 4 ∧ row.highSpeed then insert row.port ports.2 else ports.2)

def scanRows : List (List Text) → Finset ℕ × Finset ℕ → Except IoError (Finset ℕ × Finset ℕ)
  | [], ports => .ok ports
  | fields :: rows, ports => do
    let row ← parseRow fields
    let ports ← admitRow row ports
    scanRows rows ports

def freeHighSpeedPorts (inventory : Text) : Except IoError (Finset ℕ) :=
  if maxInventoryBytes < byteLength inventory then
    .error (.invalidData "oversized VHCI inventory")
  else
    match tableRows inventory with
    | none => .error (.invalidData "unexpected VHCI inventory header")
    | some rows => (scanRows rows (∅, ∅)).map Prod.snd

end Inventory

section Attachment

/-- A nonzero number of a bus or of a port on it. -/
def positive (t : Text) : Bool :=
  t ≠ [] ∧ digits t ∧ (parseU16 t).any (· ≠ 0)

def validBusId (value : Text) : Bool :=
  if 31 < byteLength value then false
  else
    match splitOnce '-' value with
    | none => false
    | some (bus, ports) => positive bus && (ports.splitOn '.').all positive

/-- Whether the port was seen so far, and the bus that was found for it. -/
def statusRow (port device : ℕ) (fields : List Text) (s : Bool × Option Text) :
    Except IoError (Bool × Option Text) :=
  match fields with
  | [hub, number, sta, spd, dev, sockfd, bus] =>
    match parseU16 number with
    | none => .error .parseInt
    | some number =>
      if number ≠ port then .ok s
      else if s.1 then .error (.other "duplicate VHCI port")
      else if hub ≠ "hs".toList then .error (.other "reserved VHCI port changed hub")
      else if sta = "004".toList ∨ sta = "005".toList then
        -- Identities stay hidden until the device is in use.
        if [spd, dev, sockfd, bus] ≠ ["000", "00000000", "000000", "0-0"].map String.toList then
          .error (.other "inconsistent pending VHCI status")
        else .ok (true, s.2)
      else if sta ≠ "006".toList then
        .error (.other "VHCI attachment entered terminal or unknown state")
      else
        match parseHexU32 dev with
        | none => .error .parseInt
        | some identity =>
          if identity ≠ device then .error (.other "VHCI attachment identity changed")
          else if spd = "003".toList then
            if validBusId bus then .ok (true, some bus)
            else .error (.other "invalid owned USB bus identity")
          else .ok (true, s.2)
  | _ => .error (.other "invalid VHCI status row")

def statusRows (port device : ℕ) :
    List (List Text) → Bool × Option Text → Except IoError (Bool × Option Text)
  | [], s => .ok s
  | fields :: rows, s => do
    let s ← statusRow port device fields s
    statusRows port device rows s

def attachedBus (status : Text) (port device : ℕ) : Except IoError (Option Text) :=
  if 65536 < byteLength status then .error (.other "oversized VHCI status")
  else
    match tableRows status with
    | none => .error (.other "invalid VHCI status header")
    | some rows => do
      let (seen, found) ← statusRows port device rows (false, none)
      if seen then .ok found else .error (.other "reserved VHCI port disappeared")

end Attachment

section Pool

structure PortPool where
  allowed : Finset ℕ
  reserved : Finset ℕ
  deriving DecidableEq

def PortPool.new (allowed : Finset ℕ) : PortPool := ⟨allowed, ∅⟩

structure PortLease where
  port : ℕ
  deriving DecidableEq, Repr

/-- The lowest allowed port that the inventory shows free and that nobody holds. -/
def PortPool.reserve (inventory : Text) (pool : PortPool) : Except IoError PortLease × PortPool :=
  match freeHighSpeedPorts inventory with
  | .error e => (.error e, pool)
  | .ok free =>
    match (pool.allowed.sort (· ≤ ·)).find? fun port => port ∈ free ∧ port ∉ pool.reserved with
    | none => (.error (.addrInUse "no free administrator-allowlisted VHCI port"), pool)
    | some port => (.ok ⟨port⟩, { pool with reserved := insert port pool.reserved })

def PortLease.revalidate (inventory : Text) (lease : PortLease) : Except IoError Unit := do
  let free ← freeHighSpeedPorts inventory
  if lease.port ∈ free then .ok ()
  else .error (.addrInUse "reserved VHCI port is no longer free")

def PortLease.drop (lease : PortLease) (pool : PortPool) : PortPool :=
  { pool with reserved := pool.reserved.erase lease.port }

end Pool

section Scanning

variable {fields : List Text} {rows : List (List Text)} {row : Row} {ports ports' : Finset ℕ × Finset ℕ}
  {parsed : List Row} {port : ℕ}

/-- Whether the row stands for this port. -/
def names (port : ℕ) (fields : List Text) : Bool := fields[1]?.bind parseU16 = some port

theorem orInvalid_ok {α : Type} {reason : String} {o : Option α} {a : α} :
    orInvalid reason o = .ok a ↔ o = some a := by
  cases o <;> simp [orInvalid]

/-- What the words of a row are, once it is read. -/
theorem parseRow_ok (h : parseRow fields = .ok row) :
    ∃ hub number sta spd dev sockfd, fields = [hub, number, sta, spd, dev, sockfd, row.bus] ∧
      (hub = "hs".toList ∨ hub = "ss".toList) ∧ row.highSpeed = decide (hub = "hs".toList) ∧
      parseU16 number = some row.port ∧ parseU8 sta = some row.state ∧
      parseU8 spd = some row.speed ∧ parseHexU32 dev = some row.device ∧
      parseHexU32 sockfd = some row.socket := by
  unfold parseRow at h
  split at h
  · next hub number sta spd dev sockfd bus =>
    by_cases hhub : hub = "hs".toList ∨ hub = "ss".toList
    · rw [if_neg (not_not.mpr hhub)] at h
      by_cases hdigits : digits number ∧ digits sta ∧ digits spd
      · rw [if_neg (not_not.mpr hdigits)] at h
        simp only [bind_ok, orInvalid_ok] at h
        obtain ⟨p, hp, st, hst, sp, hsp, d, hd, so, hso, hrow⟩ := h
        obtain rfl := Except.ok.inj hrow
        exact ⟨hub, number, sta, spd, dev, sockfd, rfl, hhub, rfl, hp, hst, hsp, hd, hso⟩
      · rw [if_pos hdigits] at h
        cases h
    · rw [if_pos hhub] at h
      cases h
  · cases h

theorem names_iff (h : parseRow fields = .ok row) : names port fields = true ↔ row.port = port := by
  obtain ⟨hub, number, sta, spd, dev, sockfd, hfields, _, _, hport, _⟩ := parseRow_ok h
  simp [names, hfields, hport]

theorem admitRow_ok : admitRow row ports = .ok ports' ↔ row.port ∉ ports.1 ∧
    (row.state = 4 → row.neutral = true) ∧ ports' = (insert row.port ports.1,
      if row.state = 4 ∧ row.highSpeed then insert row.port ports.2 else ports.2) := by
  unfold admitRow
  by_cases hseen : row.port ∈ ports.1
  · simp [hseen]
  · rw [if_neg hseen]
    by_cases hfree : row.state = 4 ∧ !row.neutral
    · rw [if_pos hfree]
      simp only [reduceCtorEq, false_iff, not_and]
      intro _ hneutral
      simp [hneutral hfree.1] at hfree
    · rw [if_neg hfree, Except.ok.injEq]
      have hneutral : row.state = 4 → row.neutral = true := by
        intro h
        simpa [h] using hfree
      constructor
      · rintro rfl
        exact ⟨hseen, hneutral, rfl⟩
      · rintro ⟨_, _, rfl⟩
        rfl

/-- The free rows of a table that was read. -/
def freePorts (parsed : List Row) : Finset ℕ :=
  ((parsed.filter fun row => row.state = 4 ∧ row.highSpeed).map Row.port).toFinset

/-- The rows of a table that can be read: each on its own, and no port twice. -/
structure Parsed (rows : List (List Text)) (parsed : List Row) : Prop where
  reads : List.Forall₂ (fun fields row => parseRow fields = .ok row) rows parsed
  distinct : (parsed.map Row.port).Nodup
  consistent : ∀ row ∈ parsed, row.state = 4 → row.neutral = true

theorem parsed_cons : Parsed (fields :: rows) (row :: parsed) ↔ parseRow fields = .ok row ∧
    row.port ∉ parsed.map Row.port ∧ (row.state = 4 → row.neutral = true) ∧ Parsed rows parsed := by
  constructor
  · rintro ⟨hreads, hdistinct, hconsistent⟩
    rw [List.forall₂_cons] at hreads
    rw [List.map_cons, List.nodup_cons] at hdistinct
    exact ⟨hreads.1, hdistinct.1, hconsistent _ List.mem_cons_self, hreads.2, hdistinct.2,
      fun r hr => hconsistent r (List.mem_cons_of_mem _ hr)⟩
  · rintro ⟨hrow, hnew, hneutral, hreads, hdistinct, hconsistent⟩
    refine ⟨.cons hrow hreads, List.nodup_cons.mpr ⟨hnew, hdistinct⟩, ?_⟩
    intro r hr
    rcases List.mem_cons.mp hr with rfl | hr
    · exact hneutral
    · exact hconsistent r hr

theorem scanRows_ok : scanRows rows ports = .ok ports' ↔ ∃ parsed, Parsed rows parsed ∧
    (∀ row ∈ parsed, row.port ∉ ports.1) ∧
    ports' = (ports.1 ∪ (parsed.map Row.port).toFinset, ports.2 ∪ freePorts parsed) := by
  induction rows generalizing ports with
  | nil =>
    simp only [scanRows, Except.ok.injEq]
    constructor
    · rintro rfl
      refine ⟨[], ⟨.nil, List.nodup_nil, by simp⟩, by simp, ?_⟩
      simp [freePorts]
    · rintro ⟨parsed, hparsed, _, rfl⟩
      cases hparsed.reads
      simp [freePorts]
  | cons fields rows ih =>
    simp only [scanRows, bind_ok, admitRow_ok, ih]
    constructor
    · rintro ⟨row, hrow, seen, ⟨hnew, hneutral, rfl⟩, parsed, hparsed, hfresh, rfl⟩
      have hport : row.port ∉ parsed.map Row.port := by
        intro hmem
        obtain ⟨r, hr, hsame⟩ := List.mem_map.mp hmem
        exact hfresh r hr (by rw [hsame]; exact Finset.mem_insert_self ..)
      refine ⟨row :: parsed, parsed_cons.mpr ⟨hrow, hport, hneutral, hparsed⟩, ?_, ?_⟩
      · intro r hr
        rcases List.mem_cons.mp hr with rfl | hr
        · exact hnew
        · exact fun hmem => hfresh r hr (Finset.mem_insert_of_mem hmem)
      · by_cases hfree : row.state = 4 ∧ row.highSpeed = true
        · simp [freePorts, hfree, Finset.insert_union]
        · simp [freePorts, hfree, Finset.insert_union]
    · rintro ⟨parsed, hparsed, hfresh, rfl⟩
      cases hparsed.reads with
      | @cons _ row _ parsed hrow hreads =>
        obtain ⟨_, hport, hneutral, hparsed⟩ := parsed_cons.mp hparsed
        refine ⟨row, hrow, _, ⟨hfresh row List.mem_cons_self, hneutral, rfl⟩, parsed, hparsed, ?_, ?_⟩
        · intro r hr hmem
          rcases Finset.mem_insert.mp hmem with hsame | hmem
          · exact hport (hsame ▸ List.mem_map_of_mem hr)
          · exact hfresh r (List.mem_cons_of_mem _ hr) hmem
        · by_cases hfree : row.state = 4 ∧ row.highSpeed = true
          · simp [freePorts, hfree, Finset.insert_union]
          · simp [freePorts, hfree, Finset.insert_union]

theorem mem_freePorts : port ∈ freePorts parsed ↔
    ∃ row ∈ parsed, row.port = port ∧ row.state = 4 ∧ row.highSpeed = true := by
  simp only [freePorts, List.mem_toFinset, List.mem_map, List.mem_filter, decide_eq_true_eq]
  constructor
  · rintro ⟨row, ⟨hrow, hfree⟩, hport⟩
    exact ⟨row, hrow, hport, hfree⟩
  · rintro ⟨row, hrow, hport, hfree⟩
    exact ⟨row, ⟨hrow, hfree⟩, hport⟩

theorem filter_names_eq_nil (h : Parsed rows parsed) (hport : port ∉ parsed.map Row.port) :
    rows.filter (names port) = [] := by
  obtain ⟨hreads, -, -⟩ := h
  induction hreads with
  | nil => rfl
  | cons hrow _ ih =>
    rw [List.map_cons, List.mem_cons, not_or] at hport
    have hname := mt (names_iff hrow).mp (Ne.symm hport.1)
    rw [List.filter_cons_of_neg hname, ih hport.2]

/-- A port of the table stands in exactly one row. -/
theorem filter_names_eq_singleton (h : Parsed rows parsed) (hrow : row ∈ parsed) :
    ∃ fields, rows.filter (names row.port) = [fields] ∧ parseRow fields = .ok row := by
  induction rows generalizing parsed with
  | nil =>
    cases h.reads
    cases hrow
  | cons fields rows ih =>
    cases h.reads with
    | @cons _ first _ parsed hfirst hreads =>
      obtain ⟨_, hport, _, hparsed⟩ := parsed_cons.mp h
      by_cases hsame : first.port = row.port
      · have hnone := filter_names_eq_nil hparsed hport
        have heq : row = first := by
          rcases List.mem_cons.mp hrow with rfl | hmem
          · rfl
          · exact absurd (hsame ▸ List.mem_map_of_mem hmem) hport
        rw [← hsame, List.filter_cons_of_pos ((names_iff hfirst).mpr rfl), hnone, heq]
        exact ⟨fields, rfl, hfirst⟩
      · have hmem : row ∈ parsed := by
          rcases List.mem_cons.mp hrow with rfl | hmem
          · exact absurd rfl hsame
          · exact hmem
        rw [List.filter_cons_of_neg (mt (names_iff hfirst).mp hsame)]
        exact ih hparsed hmem

/-- An inventory that is not oversized, has the right header and whose rows can be read. -/
def WellFormed (inventory : Text) : Prop :=
  byteLength inventory ≤ maxInventoryBytes ∧
    ∃ rows parsed, tableRows inventory = some rows ∧ Parsed rows parsed

/-- The port stands in exactly one row, which is that of a free high-speed port with a neutral
identity. -/
def FreeIn (inventory : Text) (port : ℕ) : Prop :=
  ∃ rows fields row, tableRows inventory = some rows ∧ rows.filter (names port) = [fields] ∧
    parseRow fields = .ok row ∧ row.port = port ∧ row.highSpeed = true ∧ row.state = 4 ∧
    row.neutral = true

theorem freeHighSpeedPorts_ok {inventory : Text} {free : Finset ℕ} :
    freeHighSpeedPorts inventory = .ok free ↔ byteLength inventory ≤ maxInventoryBytes ∧
      ∃ rows parsed, tableRows inventory = some rows ∧ Parsed rows parsed ∧
        free = freePorts parsed := by
  unfold freeHighSpeedPorts
  by_cases hsize : maxInventoryBytes < byteLength inventory
  · rw [if_pos hsize]
    simp only [reduceCtorEq, false_iff, not_and]
    intro hle
    omega
  · rw [if_neg hsize]
    cases htable : tableRows inventory with
    | none => simp
    | some rows =>
      have hscan (r : Except IoError (Finset ℕ × Finset ℕ)) :
          r.map Prod.snd = .ok free ↔ ∃ ports, r = .ok ports ∧ ports.2 = free := by
        cases r <;> simp [Except.map]
      simp only [hscan, scanRows_ok, Option.some.injEq]
      constructor
      · rintro ⟨_, ⟨parsed, hparsed, _, rfl⟩, rfl⟩
        exact ⟨by omega, rows, parsed, rfl, hparsed, by simp⟩
      · rintro ⟨_, _, parsed, rfl, hparsed, rfl⟩
        exact ⟨_, ⟨parsed, hparsed, by simp, rfl⟩, by simp⟩

theorem freeHighSpeedPorts_malformed {inventory : Text} (h : ¬WellFormed inventory) :
    ∃ e, freeHighSpeedPorts inventory = .error e := by
  cases hfree : freeHighSpeedPorts inventory with
  | error e => exact ⟨e, rfl⟩
  | ok free =>
    obtain ⟨hsize, rows, parsed, htable, hparsed, _⟩ := freeHighSpeedPorts_ok.mp hfree
    exact absurd ⟨hsize, rows, parsed, htable, hparsed⟩ h

theorem freeIn_of_mem {inventory : Text} {free : Finset ℕ}
    (h : freeHighSpeedPorts inventory = .ok free) (hport : port ∈ free) : FreeIn inventory port := by
  obtain ⟨_, rows, parsed, htable, hparsed, rfl⟩ := freeHighSpeedPorts_ok.mp h
  obtain ⟨row, hrow, rfl, hstate, hhigh⟩ := mem_freePorts.mp hport
  obtain ⟨fields, hfilter, hread⟩ := filter_names_eq_singleton hparsed hrow
  exact ⟨rows, fields, row, htable, hfilter, hread, rfl, hhigh, hstate,
    hparsed.consistent row hrow hstate⟩

end Scanning

section Attached

variable {fields : List Text} {rows before : List (List Text)} {port device : ℕ}
  {s s' : Bool × Option Text} {bus : Text}

/-- A high-speed row in use by this device, on a bus with a proper name. -/
def UsedBy (device : ℕ) (bus : Text) (fields : List Text) : Prop :=
  ∃ number dev sockfd, fields = ["hs".toList, number, "006".toList, "003".toList, dev, sockfd, bus] ∧
    parseHexU32 dev = some device ∧ validBusId bus = true

/-- What the rows before have told about the port. -/
structure Told (port device : ℕ) (before : List (List Text)) (s : Bool × Option Text) : Prop where
  unseen : s.1 = false → s.2 = none ∧ before.filter (names port) = []
  seen : s.1 = true → ∃ fields, before.filter (names port) = [fields] ∧
    ∀ bus, s.2 = some bus → UsedBy device bus fields

theorem told_other (h : Told port device before s) (hname : names port fields = false) :
    Told port device (before ++ [fields]) s := by
  have hfilter : (before ++ [fields]).filter (names port) = before.filter (names port) := by
    simp [hname]
  exact ⟨fun hs => by rw [hfilter]; exact h.unseen hs, fun hs => by rw [hfilter]; exact h.seen hs⟩

theorem told_first (h : Told port device before s) (hunseen : s.1 = false)
    (hname : names port fields = true) {found : Option Text}
    (hfound : ∀ bus, found = some bus → UsedBy device bus fields) :
    Told port device (before ++ [fields]) (true, found) := by
  refine ⟨fun hs => by simp at hs, fun _ => ⟨fields, ?_, hfound⟩⟩
  rw [List.filter_append, (h.unseen hunseen).2]
  simp [hname]

theorem statusRow_told (h : Told port device before s)
    (hrow : statusRow port device fields s = .ok s') : Told port device (before ++ [fields]) s' := by
  unfold statusRow at hrow
  split at hrow
  · next hub number sta spd dev sockfd bus =>
    cases hnumber : parseU16 number with
    | none => simp [hnumber] at hrow
    | some n =>
      simp only [hnumber] at hrow
      by_cases hn : n = port
      · subst hn
        have hname : names n [hub, number, sta, spd, dev, sockfd, bus] = true := by
          simp [names, hnumber]
        rw [if_neg (not_not.mpr rfl)] at hrow
        by_cases hseen : s.1 = true
        · rw [if_pos hseen] at hrow
          cases hrow
        rw [if_neg hseen] at hrow
        have hunseen : s.1 = false := by simpa using hseen
        have hnone := (h.unseen hunseen).1
        have hpending : Told n device (before ++ [[hub, number, sta, spd, dev, sockfd, bus]])
            (true, s.2) := told_first h hunseen hname (by simp [hnone])
        by_cases hhub : hub = "hs".toList
        · subst hhub
          rw [if_neg (not_not.mpr rfl)] at hrow
          by_cases hsta : sta = "004".toList ∨ sta = "005".toList
          · rw [if_pos hsta] at hrow
            split at hrow
            · cases hrow
            · obtain rfl := Except.ok.inj hrow
              exact hpending
          rw [if_neg hsta] at hrow
          by_cases hused : sta = "006".toList
          · subst hused
            rw [if_neg (not_not.mpr rfl)] at hrow
            cases hdev : parseHexU32 dev with
            | none => simp [hdev] at hrow
            | some identity =>
              simp only [hdev] at hrow
              by_cases hidentity : identity = device
              · subst hidentity
                rw [if_neg (not_not.mpr rfl)] at hrow
                by_cases hspeed : spd = "003".toList
                · subst hspeed
                  rw [if_pos rfl] at hrow
                  by_cases hbus : validBusId bus = true
                  · rw [if_pos hbus] at hrow
                    obtain rfl := Except.ok.inj hrow
                    refine told_first h hunseen hname fun b hb => ?_
                    obtain rfl := Option.some.inj hb
                    exact ⟨number, dev, sockfd, rfl, hdev, hbus⟩
                  · rw [if_neg hbus] at hrow
                    cases hrow
                · rw [if_neg hspeed] at hrow
                  obtain rfl := Except.ok.inj hrow
                  exact hpending
              · rw [if_pos hidentity] at hrow
                cases hrow
          · rw [if_pos hused] at hrow
            cases hrow
        · rw [if_pos hhub] at hrow
          cases hrow
      · rw [if_pos hn] at hrow
        obtain rfl := Except.ok.inj hrow
        exact told_other h (by simp [names, hnumber, hn])
  · cases hrow

theorem statusRows_told (h : Told port device before s)
    (hrows : statusRows port device rows s = .ok s') : Told port device (before ++ rows) s' := by
  induction rows generalizing before s with
  | nil =>
    obtain rfl := Except.ok.inj hrows
    rw [List.append_nil]
    exact h
  | cons fields rows ih =>
    obtain ⟨t, hrow, hrest⟩ := bind_ok.mp hrows
    have hnext := ih (statusRow_told h hrow) hrest
    rwa [List.append_assoc] at hnext

/-- A bus is reported for the one row of the port, if that is in use by the device. -/
theorem attachedBus_some {status : Text} (h : attachedBus status port device = .ok (some bus)) :
    ∃ rows fields, tableRows status = some rows ∧ rows.filter (names port) = [fields] ∧
      UsedBy device bus fields := by
  unfold attachedBus at h
  split at h
  · cases h
  · split at h
    · cases h
    · next rows htable =>
      obtain ⟨⟨seen, found⟩, hrows, hfound⟩ := bind_ok.mp h
      have hstart : Told port device [] (false, none) :=
        ⟨fun _ => ⟨rfl, rfl⟩, fun hs => absurd hs (by decide)⟩
      have htold := statusRows_told hstart hrows
      cases seen with
      | false => cases hfound
      | true =>
        obtain rfl := Except.ok.inj hfound
        obtain ⟨fields, hfilter, hused⟩ := htold.seen rfl
        exact ⟨rows, fields, htable, hfilter, hused bus rfl⟩

/-- The two readers of one text never contradict each other. -/
theorem not_free_and_attached {inventory : Text} {free : Finset ℕ}
    (hfree : freeHighSpeedPorts inventory = .ok free) (hport : port ∈ free)
    (hbus : attachedBus inventory port device = .ok (some bus)) : False := by
  obtain ⟨rows, fields, row, htable, hfilter, hread, _, _, hstate, _⟩ := freeIn_of_mem hfree hport
  obtain ⟨rows', fields', htable', hfilter', number, dev, sockfd, hfields, _⟩ := attachedBus_some hbus
  obtain rfl := Option.some.inj (htable.symm.trans htable')
  obtain ⟨rfl, -⟩ := List.cons.inj (hfilter.symm.trans hfilter')
  obtain ⟨hub, number', sta, spd, dev', sockfd', hwords, _, _, _, hsta, _⟩ := parseRow_ok hread
  rw [hfields] at hwords
  obtain ⟨-, -, rfl, -⟩ : "hs".toList = hub ∧ number = number' ∧ "006".toList = sta ∧
      "003".toList = spd := by
    simp only [List.cons.injEq] at hwords
    exact ⟨hwords.1, hwords.2.1, hwords.2.2.1, hwords.2.2.2.1⟩
  rw [hstate] at hsta
  exact absurd hsta (by decide)

end Attached

section Leases

/-- The pool with the leases that are held, each with the inventory it was reserved from. -/
structure System where
  pool : PortPool
  live : List (PortLease × Text)

def System.ports (s : System) : List ℕ := s.live.map fun lease => lease.1.port

inductive Step : System → System → Prop where
  | reserve {s : System} {lease : PortLease} {pool : PortPool} (inventory : Text)
    (h : s.pool.reserve inventory = (.ok lease, pool)) :
    Step s ⟨pool, s.live ++ [(lease, inventory)]⟩
  | refuse {s : System} {e : IoError} {pool : PortPool} (inventory : Text)
    (h : s.pool.reserve inventory = (.error e, pool)) : Step s ⟨pool, s.live⟩
  | revalidate {s : System} {lease : PortLease × Text} (inventory : Text)
    (result : Except IoError Unit) (h : lease ∈ s.live)
    (hr : lease.1.revalidate inventory = result) : Step s s
  | drop {s : System} {before after : List (PortLease × Text)} {lease : PortLease × Text}
    (h : s.live = before ++ lease :: after) : Step s ⟨lease.1.drop s.pool, before ++ after⟩

inductive Reachable (allowed : Finset ℕ) : System → Prop where
  | start : Reachable allowed ⟨.new allowed, []⟩
  | step {s t : System} (h : Reachable allowed s) (hs : Step s t) : Reachable allowed t

/-- The reservations are exactly the ports of the live leases. -/
structure Exact (allowed : Finset ℕ) (s : System) : Prop where
  same : s.pool.allowed = allowed
  distinct : s.ports.Nodup
  reserved : s.pool.reserved = s.ports.toFinset
  granted : ∀ lease ∈ s.live, lease.1.port ∈ allowed ∧ FreeIn lease.2 lease.1.port

variable {allowed : Finset ℕ} {s t : System} {pool : PortPool} {lease : PortLease}
  {inventory : Text}

theorem reserve_ok (h : s.pool.reserve inventory = (.ok lease, pool)) :
    lease.port ∈ s.pool.allowed ∧ lease.port ∉ s.pool.reserved ∧ FreeIn inventory lease.port ∧
      pool = { s.pool with reserved := insert lease.port s.pool.reserved } := by
  unfold PortPool.reserve at h
  cases hfree : freeHighSpeedPorts inventory with
  | error e => simp [hfree] at h
  | ok free =>
    simp only [hfree] at h
    split at h
    · cases h
    · next port hport =>
      obtain ⟨hlease, rfl⟩ := Prod.mk.inj h
      obtain rfl := Except.ok.inj hlease
      have hmem := List.mem_of_find?_eq_some hport
      have hfits := List.find?_some hport
      simp only [decide_eq_true_eq] at hfits
      exact ⟨(Finset.mem_sort _).mp hmem, hfits.2, freeIn_of_mem hfree hfits.1, rfl⟩

theorem reserve_error {e : IoError} (h : s.pool.reserve inventory = (.error e, pool)) :
    pool = s.pool := by
  unfold PortPool.reserve at h
  cases hfree : freeHighSpeedPorts inventory with
  | error e =>
    simp only [hfree] at h
    exact (Prod.mk.inj h).2.symm
  | ok free =>
    simp only [hfree] at h
    split at h
    · exact (Prod.mk.inj h).2.symm
    · cases (Prod.mk.inj h).1

theorem reserve_malformed (h : ¬WellFormed inventory) (pool : PortPool) :
    ∃ e, pool.reserve inventory = (.error e, pool) := by
  obtain ⟨e, he⟩ := freeHighSpeedPorts_malformed h
  unfold PortPool.reserve
  simp [he]

/-- With the leases of distinct ports, one port less is reserved and all others stay. -/
theorem Exact.drop (h : Exact allowed s) {before after : List (PortLease × Text)}
    {lease : PortLease × Text} (hlive : s.live = before ++ lease :: after) :
    Exact allowed ⟨lease.1.drop s.pool, before ++ after⟩ := by
  have hdistinct := h.distinct
  have hreserved := h.reserved
  unfold System.ports at hdistinct hreserved
  rw [hlive, List.map_append, List.map_cons] at hdistinct hreserved
  have hnew := List.nodup_middle.mp hdistinct
  rw [List.nodup_cons] at hnew
  refine ⟨h.same, ?_, ?_, ?_⟩
  · simpa [System.ports] using hnew.2
  · ext port
    simp only [PortLease.drop, hreserved, Finset.mem_erase, List.mem_toFinset, System.ports,
      List.map_append, List.mem_append, List.mem_cons]
    constructor
    · rintro ⟨hne, hmem⟩
      tauto
    · intro hmem
      refine ⟨?_, by tauto⟩
      rintro rfl
      exact hnew.1 (List.mem_append.mpr hmem)
  · intro other hother
    refine h.granted other ?_
    rw [hlive]
    simp only [List.mem_append, List.mem_cons] at hother ⊢
    tauto

theorem Exact.step (h : Exact allowed s) (hs : Step s t) : Exact allowed t := by
  cases hs with
  | reserve inventory hreserve =>
    obtain ⟨hallowed, hnew, hfree, rfl⟩ := reserve_ok hreserve
    rw [h.reserved, List.mem_toFinset] at hnew
    refine ⟨h.same, ?_, ?_, ?_⟩
    · unfold System.ports at hnew ⊢
      rw [List.map_append]
      exact List.nodup_append'.mpr ⟨h.distinct, List.nodup_singleton _, by simpa using hnew⟩
    · ext port
      simp [System.ports, h.reserved]
    · intro other hother
      rcases List.mem_append.mp hother with hother | hother
      · exact h.granted other hother
      · obtain rfl := List.mem_singleton.mp hother
        exact ⟨h.same ▸ hallowed, hfree⟩
  | refuse inventory hrefuse =>
    obtain rfl := reserve_error hrefuse
    exact h
  | revalidate => exact h
  | drop hlive => exact h.drop hlive

theorem Reachable.exact (h : Reachable allowed s) : Exact allowed s := by
  induction h with
  | start => exact ⟨rfl, List.nodup_nil, rfl, by simp⟩
  | step _ hs ih => exact ih.step hs

theorem port_admission :
    (∀ (allowed : Finset ℕ) (s : System), Reachable allowed s →
      s.ports.Nodup ∧
      (∀ lease ∈ s.live, lease.1.port ∈ allowed ∧ FreeIn lease.2 lease.1.port) ∧
      (∀ inventory, ¬WellFormed inventory →
        ∃ e, s.pool.reserve inventory = (.error e, s.pool)) ∧
      (∀ before lease after, s.live = before ++ lease :: after →
        lease.1.port ∈ s.pool.reserved ∧
        (lease.1.drop s.pool).reserved = s.pool.reserved \ {lease.1.port} ∧
        ∀ other ∈ before ++ after, other.1.port ∈ (lease.1.drop s.pool).reserved)) ∧
    (∀ (inventory : Text) (port device : ℕ) (free : Finset ℕ) (bus : Text),
      ¬(freeHighSpeedPorts inventory = .ok free ∧ port ∈ free ∧
        attachedBus inventory port device = .ok (some bus))) ∧
    (∀ (status : Text) (port device : ℕ) (bus : Text),
      attachedBus status port device = .ok (some bus) →
      ∃ rows fields, tableRows status = some rows ∧ rows.filter (names port) = [fields] ∧
        UsedBy device bus fields) := by
  refine ⟨?_, ?_, fun _ _ _ _ h => attachedBus_some h⟩
  · intro allowed s hreachable
    have hexact := hreachable.exact
    refine ⟨hexact.distinct, hexact.granted, fun inventory h => reserve_malformed h s.pool, ?_⟩
    intro before lease after hlive
    refine ⟨?_, (Finset.sdiff_singleton_eq_erase _ _).symm, ?_⟩
    · rw [hexact.reserved]
      simp [System.ports, hlive]
    · intro other hother
      rw [(hexact.drop hlive).reserved, List.mem_toFinset]
      exact List.mem_map_of_mem hother
  · rintro inventory port device free bus ⟨hfree, hport, hbus⟩
    exact not_free_and_attached hfree hport hbus

end Leases

end VhciPolicy
