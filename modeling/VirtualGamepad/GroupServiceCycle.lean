import VirtualGamepad.GroupService

/-! A required group lives and closes as one. A cycle visits the components by role up to the
first that is lost; then all of them are closed, each once and the last role first. -/
namespace GroupServiceCycle

open Fallible GroupService
open HidRuntime (Error)

variable {C O : Type} [ServicedComponent C O]

def roles (components : List (ℕ × C)) : List ℕ := components.map Prod.fst

def isClose : Call → Bool
  | .close _ => true
  | _ => false

/-- What a service of each component would come to, were they all visited. -/
def visits (now : ℕ) (components : List (ℕ × C)) : List (ℕ × Visit C O) :=
  components.map fun c => (c.1, serviceOne now c.2)

/-- The visits up to the first component that is lost. -/
def through : List (ℕ × Visit C O) → List (ℕ × Visit C O)
  | [] => []
  | visit :: rest => visit :: if visit.2.terminal then [] else through rest

def tagged (visit : ℕ × Visit C O) : List (ℕ × O) := visit.2.outputs.map (visit.1, ·)

def failed (visit : ℕ × Visit C O) : Option (ℕ × Error) := visit.2.failure.map (visit.1, ·)

/-- The components as the visits leave them. -/
def settled (served : List (ℕ × Visit C O)) (components : List (ℕ × C)) : List (ℕ × C) :=
  (served.map fun v => (v.1, v.2.component)) ++ components.drop served.length

def shut (c : ℕ × C) : ℕ × C := (c.1, (closeOne c.2).2)

section Prefixes

omit [ServicedComponent C O] in
theorem through_initial (vs : List (ℕ × Visit C O)) : through vs <+: vs := by
  induction vs with
  | nil => exact List.prefix_rfl
  | cons v vs ih =>
    rw [through]
    split
    · exact ⟨vs, rfl⟩
    · exact (List.prefix_cons_inj v).mpr ih

omit [ServicedComponent C O] in
/-- A component with a recoverable error does not keep its siblings from being visited. -/
theorem through_eq (vs : List (ℕ × Visit C O)) (h : (through vs).any (·.2.terminal) = false) :
    through vs = vs := by
  induction vs with
  | nil => rfl
  | cons v vs ih =>
    rw [through] at h ⊢
    rw [List.any_cons, Bool.or_eq_false_iff] at h
    obtain ⟨hv, hrest⟩ := h
    rw [hv] at hrest ⊢
    rw [if_neg Bool.false_ne_true] at hrest ⊢
    rw [ih hrest]

omit [ServicedComponent C O] in
/-- Only the last visit can have lost its component. -/
theorem through_last (vs : List (ℕ × Visit C O)) :
    ∀ v ∈ (through vs).dropLast, v.2.terminal = false := by
  induction vs with
  | nil =>
    intro v hv
    cases hv
  | cons w vs ih =>
    rw [through]
    by_cases hw : w.2.terminal = true
    · rw [if_pos hw]
      intro v hv
      cases hv
    · rw [if_neg hw]
      intro v hv
      cases ht : through vs with
      | nil =>
        rw [ht] at hv
        cases hv
      | cons x xs =>
        rw [ht, List.dropLast_cons_cons] at hv
        rcases List.mem_cons.mp hv with rfl | hv
        · exact Bool.eq_false_iff.mpr hw
        · apply ih v
          rw [ht]
          exact hv

end Prefixes

section Outputs

/-- The cycle keeps the first outputs and counts the others. -/
structure Retains (total : List (ℕ × O)) (cycle : GroupCycle O) : Prop where
  outputs_eq : cycle.outputs = total.take maxOutputs
  omitted_eq : cycle.omittedOutputs = total.length - maxOutputs

omit [ServicedComponent C O] in
theorem Retains.observeOne {total : List (ℕ × O)} {cycle : GroupCycle O}
    (h : Retains total cycle) (role : ℕ) (output : O) :
    Retains (total ++ [(role, output)]) (cycle.observeOne role output) := by
  have hlen : cycle.outputs.length = min maxOutputs total.length := by
    rw [h.outputs_eq, List.length_take]
  unfold GroupCycle.observeOne
  by_cases hroom : cycle.outputs.length < maxOutputs
  · rw [if_pos hroom]
    have hshort : total.length < maxOutputs := by omega
    constructor
    · change cycle.outputs ++ [(role, output)] = _
      rw [h.outputs_eq, List.take_of_length_le (by omega), List.take_of_length_le]
      rw [List.length_append, List.length_singleton]
      omega
    · change cycle.omittedOutputs = _
      rw [h.omitted_eq, List.length_append, List.length_singleton]
      omega
  · rw [if_neg hroom]
    have hlong : maxOutputs ≤ total.length := by omega
    constructor
    · change cycle.outputs = _
      rw [h.outputs_eq, List.take_append_of_le_length hlong]
    · change cycle.omittedOutputs + 1 = _
      rw [h.omitted_eq, List.length_append, List.length_singleton]
      omega

omit [ServicedComponent C O] in
theorem Retains.observe {total : List (ℕ × O)} {cycle : GroupCycle O} (h : Retains total cycle)
    (role : ℕ) (outputs : List O) :
    Retains (total ++ outputs.map (role, ·)) (cycle.observe role outputs) := by
  unfold GroupCycle.observe
  induction outputs generalizing total cycle with
  | nil =>
    rw [List.map_nil, List.append_nil]
    exact h
  | cons output outputs ih =>
    have hstep := ih (h.observeOne role output)
    rw [List.append_assoc] at hstep
    exact hstep

omit [ServicedComponent C O] in
theorem observe_failures (role : ℕ) (outputs : List O) (cycle : GroupCycle O) :
    (cycle.observe role outputs).failures = cycle.failures := by
  unfold GroupCycle.observe
  induction outputs generalizing cycle with
  | nil => rfl
  | cons output outputs ih =>
    rw [List.foldl_cons, ih]
    unfold GroupCycle.observeOne
    split <;> rfl

end Outputs

section Cleanup

theorem closeEach_components (components : List (ℕ × C)) :
    (closeEach components).components = components.map shut := by
  induction components with
  | nil => rfl
  | cons c rest ih =>
    rw [List.map_cons, ← ih]
    rfl

theorem shut_roles (components : List (ℕ × C)) : roles (components.map shut) = roles components := by
  unfold roles
  rw [List.map_map]
  rfl

/-- Every component is closed once, the last role first. -/
theorem closeEach_calls (components : List (ℕ × C)) :
    (closeEach components).calls = (roles components).reverse.map Call.close := by
  induction components with
  | nil => rfl
  | cons c rest ih =>
    obtain ⟨role, c⟩ := c
    unfold roles at *
    rw [List.map_cons, List.reverse_cons, List.map_append, ← ih]
    rfl

end Cleanup

section Cycle

variable {now : ℕ}

/-- Visits do not change the roles. -/
theorem settled_roles (components : List (ℕ × C)) :
    roles (settled (through (visits now components)) components) = roles components := by
  have hlen : (through (visits now components)).length ≤ components.length := by
    have h := (through_initial (visits now components)).length_le
    unfold visits at h
    rw [List.length_map] at h
    exact h
  have hroles : (through (visits now components)).map Prod.fst =
      (components.map Prod.fst).take (through (visits now components)).length := by
    have h := (through_initial (visits now components)).map Prod.fst
    rw [List.prefix_iff_eq_take, List.length_map] at h
    rw [h]
    unfold visits
    rw [List.map_map]
    rfl
  unfold settled roles
  rw [List.map_append, List.map_map, List.map_drop]
  change (through (visits now components)).map Prod.fst ++ _ = _
  rw [hroles, List.take_append_drop]

/-- What one cycle does with its components, from the visits alone. -/
structure Cycled (now : ℕ) (components : List (ℕ × C)) (total : List (ℕ × O))
    (failures : List (ℕ × Error)) (round : Round C O) : Prop where
  components_eq : round.components = settled (through (visits now components)) components
  calls_eq : round.calls = (components.take (through (visits now components)).length).flatMap
    fun c => visitCalls now c.1 c.2
  stopped_eq : round.stopped = (through (visits now components)).any (·.2.terminal)
  retains : Retains (total ++ (through (visits now components)).flatMap tagged) round.cycle
  failures_eq : round.cycle.failures =
    failures ++ (through (visits now components)).filterMap failed

theorem serviceEach_spec (now : ℕ) (components : List (ℕ × C)) {total : List (ℕ × O)}
    {cycle : GroupCycle O} (h : Retains total cycle) :
    Cycled now components total cycle.failures (serviceEach now components cycle) := by
  induction components generalizing total cycle with
  | nil =>
    constructor
    · rfl
    · rfl
    · rfl
    · change Retains (total ++ []) cycle
      rw [List.append_nil]
      exact h
    · exact (List.append_nil _).symm
  | cons c rest ih =>
    obtain ⟨role, c⟩ := c
    generalize hv : serviceOne now c = visit
    have hvisits : visits now ((role, c) :: rest) = (role, visit) :: visits now rest := by
      rw [← hv]
      rfl
    have hretains : Retains (total ++ tagged (role, visit))
        ((cycle.observe role visit.outputs).fail role visit.failure) := by
      have ho := h.observe role visit.outputs
      exact ⟨ho.outputs_eq, ho.omitted_eq⟩
    have hfailures : ((cycle.observe role visit.outputs).fail role visit.failure).failures =
        cycle.failures ++ (failed (role, visit)).toList := by
      rw [← observe_failures role visit.outputs cycle]
      rfl
    have hround : serviceEach now ((role, c) :: rest) cycle =
        if visit.terminal then
          ⟨(role, visit.component) :: rest,
            (cycle.observe role visit.outputs).fail role visit.failure, visitCalls now role c, true⟩
        else
          let round := serviceEach now rest
            ((cycle.observe role visit.outputs).fail role visit.failure)
          ⟨(role, visit.component) :: round.components, round.cycle,
            visitCalls now role c ++ round.calls, round.stopped⟩ := by
      rw [← hv]
      rfl
    rw [hround]
    by_cases ht : visit.terminal = true
    · rw [if_pos ht]
      have hthrough : through (visits now ((role, c) :: rest)) = [(role, visit)] := by
        rw [hvisits, through, if_pos ht]
      constructor
      · rw [hthrough]
        rfl
      · rw [hthrough]
        exact (List.append_nil _).symm
      · rw [hthrough]
        simp [ht]
      · rw [hthrough, List.flatMap_singleton]
        exact hretains
      · rw [hthrough]
        cases hf : failed (role, visit) with
        | none => simpa [hf] using hfailures
        | some e => simpa [hf] using hfailures
    · rw [if_neg ht]
      have hrest := ih hretains
      have hthrough : through (visits now ((role, c) :: rest)) =
          (role, visit) :: through (visits now rest) := by
        rw [hvisits, through, if_neg ht]
      constructor
      · rw [hthrough]
        exact congrArg (List.cons (role, visit.component)) hrest.components_eq
      · rw [hthrough, List.length_cons, List.take_succ_cons, List.flatMap_cons, ← hrest.calls_eq]
      · rw [hthrough, List.any_cons, Bool.eq_false_iff.mpr ht, Bool.false_or]
        exact hrest.stopped_eq
      · rw [hthrough, List.flatMap_cons, ← List.append_assoc]
        exact hrest.retains
      · rw [hthrough]
        have hlist := hrest.failures_eq
        rw [hfailures, List.append_assoc] at hlist
        cases hf : failed (role, visit) with
        | none => simpa [hf] using hlist
        | some e => simpa [hf] using hlist

/-- A cycle of an open group, in full. `served` are its visits. -/
structure CycleSpec (now : ℕ) (g : RequiredGroup C) (cycle : GroupCycle O) (g' : RequiredGroup C)
    (served : List (ℕ × Visit C O)) : Prop where
  /-- The components are visited by role, and all of them unless one is lost. -/
  served_initial : served <+: visits now g.components
  lost_last : ∀ v ∈ served.dropLast, v.2.terminal = false
  all_served : served.any (·.2.terminal) = false → served = visits now g.components
  closed_iff : g'.closed = served.any (·.2.terminal)
  components_eq : g'.components =
    if g'.closed then (settled served g.components).map shut else settled served g.components
  calls_eq : g'.calls = g.calls ++
    ((g.components.take served.length).flatMap fun c => visitCalls now c.1 c.2) ++
    if g'.closed then (roles g.components).reverse.map Call.close else []
  outputs_eq : cycle.outputs = (served.flatMap tagged).take maxOutputs
  omitted_eq : cycle.outputs.length + cycle.omittedOutputs = (served.flatMap tagged).length
  bounded : cycle.outputs.length ≤ maxOutputs
  failures_eq : cycle.failures = served.filterMap failed

theorem service_closed {g : RequiredGroup C} (h : g.closed = true) :
    GroupService.service now g = (.error .closed, g) := by
  unfold GroupService.service
  rw [if_pos h]

theorem edit_open {g : RequiredGroup C} (h : g.closed = false) (role : ℕ) (f : C → C) :
    edit role f g = { g with
      components := g.components.map fun c => if c.1 = role then (c.1, f c.2) else c } := by
  unfold edit
  rw [if_neg (Bool.eq_false_iff.mp h)]

/-- Nothing is asked of the components of a closed group. -/
theorem perform_closed {g : RequiredGroup C} (h : g.closed = true) (op : Op C) :
    perform g op = g := by
  cases op with
  | service now => exact congrArg Prod.snd (service_closed h)
  | edit role f => exact if_pos h
  | close => exact if_pos h

theorem close_spec {g : RequiredGroup C} (h : g.closed = false) :
    (GroupService.close g).closed = true ∧
      (GroupService.close g).components = g.components.map shut ∧
      (GroupService.close g).calls = g.calls ++ (roles g.components).reverse.map Call.close := by
  unfold GroupService.close
  rw [h, if_neg Bool.false_ne_true]
  refine ⟨rfl, closeEach_components g.components, ?_⟩
  rw [← closeEach_calls]

theorem service_spec (now : ℕ) {g : RequiredGroup C} (h : g.closed = false) :
    ∃ cycle g', GroupService.service now g = (.ok cycle, g') ∧
      roles g'.components = roles g.components ∧
      CycleSpec now g cycle g' (through (visits now g.components)) := by
  have hempty : Retains [] (⟨[], [], 0⟩ : GroupCycle O) :=
    ⟨List.take_nil.symm, (Nat.zero_sub _).symm⟩
  have hspec := serviceEach_spec now g.components hempty
  generalize hround : serviceEach now g.components (⟨[], [], 0⟩ : GroupCycle O) = round at hspec
  obtain ⟨hcomponents, hcalls, hstopped, ⟨houtputs, homitted⟩, hfailures⟩ := hspec
  rw [List.nil_append] at houtputs homitted hfailures
  have hservice : GroupService.service now g = (.ok round.cycle,
      if round.stopped then
        GroupService.close { g with
          components := round.components, calls := g.calls ++ round.calls }
      else { g with components := round.components, calls := g.calls ++ round.calls }) := by
    unfold GroupService.service
    rw [h, if_neg Bool.false_ne_true, hround]
  have hroles : roles round.components = roles g.components := by
    rw [hcomponents, settled_roles]
  have hlen : round.cycle.outputs.length + round.cycle.omittedOutputs =
      ((through (visits now g.components)).flatMap tagged).length := by
    rw [houtputs, homitted, List.length_take]
    omega
  have hbound : round.cycle.outputs.length ≤ maxOutputs := by
    rw [houtputs, List.length_take]
    exact Nat.min_le_left _ _
  refine ⟨round.cycle, _, hservice, ?_, ?_⟩
  · by_cases hs : round.stopped = true
    · obtain ⟨_, hshut, _⟩ := close_spec (g := { g with
          components := round.components, calls := g.calls ++ round.calls }) h
      rw [if_pos hs, hshut, shut_roles]
      exact hroles
    · rw [if_neg hs]
      exact hroles
  · by_cases hs : round.stopped = true
    · obtain ⟨hclosed, hshut, hlog⟩ := close_spec (g := { g with
          components := round.components, calls := g.calls ++ round.calls }) h
      rw [if_pos hs]
      refine ⟨through_initial _, through_last _, through_eq _, ?_, ?_, ?_, houtputs, hlen, hbound,
        hfailures⟩
      · rw [hclosed, ← hstopped, hs]
      · rw [hclosed, if_pos rfl, hshut, ← hcomponents]
      · rw [hlog, hclosed, if_pos rfl, ← hcalls, hroles]
    · rw [if_neg hs]
      refine ⟨through_initial _, through_last _, through_eq _, ?_, ?_, ?_, houtputs, hlen, hbound,
        hfailures⟩
      · rw [← hstopped, Bool.eq_false_iff.mpr hs]
        exact h
      · change round.components = if g.closed then _ else _
        rw [h, if_neg Bool.false_ne_true, hcomponents]
      · change g.calls ++ round.calls = _ ++ if g.closed then _ else _
        rw [h, if_neg Bool.false_ne_true, List.append_nil, ← hcalls]

end Cycle

section Runs

/-- What the calls of a group's life say: services, and then one close of each component. -/
structure Kept (rs : List ℕ) (g : RequiredGroup C) : Prop where
  roles_eq : roles g.components = rs
  calls_eq : ∃ served, (∀ call ∈ served, isClose call = false) ∧
    g.calls = served ++ if g.closed then rs.reverse.map Call.close else []

theorem visitCalls_open (now role : ℕ) (c : C) :
    ∀ call ∈ visitCalls now role c, isClose call = false := by
  unfold visitCalls
  split
  · intro call hc
    rw [List.mem_singleton.mp hc]
    rfl
  · intro call hc
    rcases List.mem_cons.mp hc with rfl | hc
    · rfl
    · rw [List.mem_singleton.mp hc]
      rfl

theorem perform_kept {rs : List ℕ} {g : RequiredGroup C} (h : Kept rs g) (op : Op C) :
    Kept rs (perform g op) := by
  obtain ⟨hroles, served, hopen, hcalls⟩ := h
  cases hc : g.closed with
  | true =>
    have hsame := perform_closed hc op
    rw [hsame]
    exact ⟨hroles, served, hopen, hcalls⟩
  | false =>
    rw [hc, if_neg Bool.false_ne_true, List.append_nil] at hcalls
    cases op with
    | service now =>
      obtain ⟨cycle, g', hs, hroles', hspec⟩ := service_spec now hc
      have hg : perform g (.service now) = g' := congrArg Prod.snd hs
      rw [hg]
      have hcalls' := hspec.calls_eq
      rw [hcalls, hroles] at hcalls'
      refine ⟨hroles'.trans hroles, _, ?_, hcalls'⟩
      · intro call hcall
        rcases List.mem_append.mp hcall with hcall | hcall
        · exact hopen call hcall
        · obtain ⟨c, _, hin⟩ := List.mem_flatMap.mp hcall
          exact visitCalls_open now c.1 c.2 call hin
    | edit role f =>
      have hg : perform g (.edit role f) = _ := edit_open hc role f
      rw [hg]
      refine ⟨?_, served, hopen, ?_⟩
      · rw [← hroles]
        unfold roles
        rw [List.map_map]
        apply List.map_congr_left
        intro c _
        change (if c.1 = role then (c.1, f c.2) else c).1 = c.1
        split <;> rfl
      · change g.calls = served ++ if g.closed then _ else _
        rw [hc, if_neg Bool.false_ne_true, List.append_nil]
        exact hcalls
    | close =>
      obtain ⟨hclosed, hshut, hclose⟩ := close_spec hc
      refine ⟨?_, served, hopen, ?_⟩
      · change roles (GroupService.close g).components = rs
        rw [hshut, shut_roles, hroles]
      · change (GroupService.close g).calls =
          served ++ if (GroupService.close g).closed then _ else _
        rw [hclose, hclosed, if_pos rfl, hcalls, hroles]

theorem run_kept {rs : List ℕ} {g : RequiredGroup C} (h : Kept rs g) (ops : List (Op C)) :
    Kept rs (ops.foldl perform g) := by
  induction ops generalizing g with
  | nil => exact h
  | cons op ops ih => exact ih (perform_kept h op)

end Runs

section Topology

omit [ServicedComponent C O] in
theorem sorted_roles (components : List (ℕ × C)) :
    (roles (sorted components)).Pairwise (· ≤ ·) := by
  unfold roles sorted
  rw [List.map_insertionSort (fun a b : ℕ × C => a.1 ≤ b.1) (· ≤ ·) Prod.fst components
    (fun a _ b _ => Iff.rfl)]
  exact List.pairwise_insertionSort _ _

omit [ServicedComponent C O] in
/-- Neighbours are enough to find a repeated role in a sorted list. -/
theorem repeated_spec (components : List (ℕ × C)) (h : (roles components).Pairwise (· ≤ ·)) :
    repeated components = false ↔ (roles components).Pairwise (· < ·) := by
  induction components with
  | nil => simp [repeated, roles]
  | cons first rest ih =>
    unfold roles at *
    rw [List.map_cons, List.pairwise_cons] at h ⊢
    obtain ⟨hfirst, hrest⟩ := h
    cases rest with
    | nil => simp [repeated]
    | cons second rest =>
      rw [repeated, Bool.or_eq_false_iff, ih hrest, decide_eq_false_iff_not]
      constructor
      · rintro ⟨hne, hlt⟩
        refine ⟨?_, hlt⟩
        intro role hrole
        have hsecond : first.1 < second.1 := by
          have := hfirst second.1 (by simp)
          omega
        rw [List.map_cons] at hrole hlt
        rcases List.mem_cons.mp hrole with rfl | hrole
        · exact hsecond
        · exact hsecond.trans ((List.pairwise_cons.mp hlt).1 role hrole)
      · rintro ⟨hlt, hrest'⟩
        refine ⟨?_, hrest'⟩
        exact Nat.ne_of_lt (hlt second.1 (by simp))

theorem new_ok {components : List (ℕ × C)} {g : RequiredGroup C} {calls : List Call}
    (h : GroupService.new components = (.ok g, calls)) :
    (roles g.components).Pairwise (· < ·) ∧ (roles g.components).Perm (roles components) ∧
      g.closed = false ∧ g.calls = [] := by
  unfold GroupService.new at h
  dsimp only at h
  split at h
  · cases h
  · next hvalid =>
    obtain ⟨hg, _⟩ := Prod.mk.inj h
    obtain rfl := Except.ok.inj hg
    simp only [not_or] at hvalid
    refine ⟨?_, ?_, rfl, rfl⟩
    · exact (repeated_spec _ (sorted_roles components)).mp (Bool.eq_false_iff.mpr hvalid.2.2)
    · exact (List.perm_insertionSort _ components).map Prod.fst

/-- A topology that is refused is closed at once, each component once. -/
theorem new_error {components : List (ℕ × C)} {e : GroupOpenError} {calls : List Call}
    (h : GroupService.new components = (.error e, calls)) :
    calls = (roles (sorted components)).reverse.map Call.close := by
  unfold GroupService.new at h
  dsimp only at h
  split at h
  · obtain ⟨_, rfl⟩ := Prod.mk.inj h
    exact closeEach_calls _
  · cases h

end Topology

/-- The life of a group, whatever its components do and whoever edits them between cycles. -/
structure ClosesAsOne (components : List (ℕ × C)) (g : RequiredGroup C) : Prop where
  roles_perm : (roles g.components).Perm (roles components)
  roles_ascending : (roles g.components).Pairwise (· < ·)
  /-- Each component is closed exactly once, the last role first, and after that nothing is
  asked of any. -/
  calls_eq : ∃ served, (∀ call ∈ served, isClose call = false) ∧
    g.calls = served ++ if g.closed then (roles g.components).reverse.map Call.close else []
  silent : g.closed = true → ∀ op, perform g op = g
  refused : g.closed = true → ∀ now, GroupService.service now g = (.error .closed, g)
  cycles : g.closed = false → ∀ now, ∃ cycle g' served,
    GroupService.service now g = (.ok cycle, g') ∧ CycleSpec now g cycle g' served

/-- Three runtimes of which the second, by role, does not learn whether its report was sent. -/
def crew : List (ℕ × HidRuntime.Runtime HidRuntime.Counting HidRuntime.Scripted UInt8 UInt8) :=
  [(2, HidRuntime.Counting.runtime ⟨1, 0⟩ ⟨[], [.uncertain]⟩ ⟨32, 16, 100000⟩),
    (1, HidRuntime.Counting.runtime ⟨3, 0⟩ ⟨[], []⟩ ⟨2, 16, 100000⟩),
    (3, HidRuntime.Counting.runtime ⟨1, 0⟩ ⟨[], []⟩ ⟨32, 16, 100000⟩)]

end GroupServiceCycle
