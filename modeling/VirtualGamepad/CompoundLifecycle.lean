import VirtualGamepad.CompoundSession

/-! A compound session opens all of its components or none, and closes each of them once:
after a failed open, after a terminal provider error, on request, or when it is dropped. -/
namespace CompoundLifecycle

open Fallible CompoundSession

variable {E F R S V D : Type}

/-- One close of each component, in the order given, whatever each of them answers. -/
inductive Closes : List ℕ → List (Call V) → Prop where
  | nil : Closes [] []
  | cons {ids calls} (id : ℕ) (result : Except ProviderError Unit) :
    Closes ids calls → Closes (id :: ids) (.close id result :: calls)

def Call.closes : Call V → Option ℕ
  | .close id _ => some id
  | _ => none

/-- The components closed so far, in order. -/
def closed (calls : List (Call V)) : List ℕ := calls.filterMap Call.closes

@[simp] theorem closed_append (calls calls' : List (Call V)) :
    closed (calls ++ calls') = closed calls ++ closed calls' := List.filterMap_append

theorem Closes.closed_eq {ids : List ℕ} {calls : List (Call V)} (h : Closes ids calls) :
    closed calls = ids := by
  induction h with
  | nil => rfl
  | cons id result _ ih =>
    change id :: closed _ = _
    rw [ih]

theorem closed_eq_nil {calls : List (Call V)} (h : ∀ c ∈ calls, Call.closes c = none) :
    closed calls = [] :=
  List.filterMap_eq_nil_iff.mpr h

def reads (ids : List ℕ) : List (Call V) := ids.map .diagnostics

section Closing

variable [Provider E S V D]

omit [Provider E S V D] in
theorem call_calls {ε α : Type} (w : World E V) (run : Action ε E α)
    (record : Except ε Unit → Call V) :
    ∃ result w', w.call run record = (result, w') ∧
      w'.calls = w.calls ++ [record (result.map fun _ => ())] :=
  ⟨_, _, rfl, rfl⟩

theorem closeEach_spec (components : List (Component S)) : ∀ w : World E V,
    (closeEach components w).2.1.map Component.id = components.map Component.id ∧
      ∃ calls, (closeEach components w).2.2.calls = w.calls ++ calls ∧
        Closes (components.map Component.id) calls := by
  induction components with
  | nil => exact fun w => ⟨rfl, [], by simp [closeEach], .nil⟩
  | cons component components ih =>
    intro w
    obtain ⟨result, w₁, hcall, hw₁⟩ :=
      call_calls w (Provider.close component.session) (.close component.id)
    obtain ⟨hids, calls, hcalls, hcl⟩ := ih w₁
    rw [hw₁, List.append_assoc] at hcalls
    simp only [closeEach, hcall]
    cases result with
    | ok _ =>
      exact ⟨by simp [hids], _, hcalls, .cons component.id _ hcl⟩
    | error error =>
      exact ⟨by simp [hids], _, hcalls, .cons component.id _ hcl⟩

theorem closeComponents_spec (components : List (Component S)) (w : World E V) :
    (closeComponents components w).2.1.map Component.id = components.map Component.id ∧
      ∃ calls, (closeComponents components w).2.2.calls = w.calls ++ calls ∧
        Closes (components.map Component.id).reverse calls := by
  obtain ⟨hids, calls, hcalls, hcl⟩ := closeEach_spec components.reverse w
  rw [List.map_reverse] at hids hcl
  refine ⟨?_, calls, hcalls, hcl⟩
  simp only [closeComponents, List.map_reverse, hids, List.reverse_reverse]

theorem diagnoseEach_spec (components : List (Component S)) : ∀ w : World E V,
    (diagnoseEach true components w).2.calls =
      w.calls ++ reads (components.map Component.id) := by
  induction components with
  | nil => exact fun w => by simp [diagnoseEach, reads]
  | cons component components ih =>
    intro w
    simp only [diagnoseEach, if_true]
    rw [ih]
    simp [reads]

theorem diagnoseOpen_spec (components : List (Component S)) : ∀ w : World E V,
    ∃ calls, (diagnoseEach false components w).2.calls = w.calls ++ calls ∧
      closed calls = [] := by
  induction components with
  | nil => exact fun w => ⟨[], by simp [diagnoseEach], rfl⟩
  | cons component components ih =>
    intro w
    simp only [diagnoseEach]
    obtain ⟨calls, hcalls, hnone⟩ := ih { w with
      calls := w.calls ++ [.hostPath component.id] ++ [.diagnostics component.id] }
    refine ⟨.hostPath component.id :: .diagnostics component.id :: calls, ?_, ?_⟩
    · simp only [Bool.false_eq_true, if_false]
      rw [hcalls]
      simp
    · exact hnone

end Closing

section Opening

variable [Factory E F R S]

def ComponentOpen.preflighted (request : ComponentOpen F R) : Call V :=
  .preflight request.id (.ok ())

def ComponentOpen.opened (request : ComponentOpen F R) : Call V :=
  .openSession request.id (.ok ())

theorem preflightAll_spec (opens : List (ComponentOpen F R)) : ∀ w : World E V,
    Meets (preflightAll opens w)
      (fun _ w' => w'.calls = w.calls ++ opens.map ComponentOpen.preflighted)
      (fun e w' => ∃ before request after error, opens = before ++ request :: after ∧
        e = .preflight request.id error.text ∧
        w'.calls = w.calls ++ (before.map ComponentOpen.preflighted ++
          [.preflight request.id (.error error)])) := by
  induction opens with
  | nil =>
    intro w
    simp [preflightAll]
  | cons request opens ih =>
    intro w
    obtain ⟨result, w₁, hcall, hw₁⟩ :=
      call_calls w (Factory.preflight request.factory request.request) (.preflight request.id)
    simp only [preflightAll, hcall]
    cases result with
    | ok _ =>
      refine (ih w₁).mono ?_ ?_
      · intro _ w' hw'
        rw [hw', hw₁, List.append_assoc]
        rfl
      · rintro e w' ⟨before, request', after, error, rfl, rfl, hw'⟩
        refine ⟨request :: before, request', after, error, rfl, rfl, ?_⟩
        rw [hw', hw₁, List.append_assoc]
        rfl
    | error error => exact ⟨[], request, opens, error, rfl, rfl, hw₁⟩

variable [Provider E S V D]

theorem openEach_spec (opens : List (ComponentOpen F R)) :
    ∀ (components : List (Component S)) (w : World E V),
    Meets (openEach components opens w)
      (fun opened w' =>
        opened.map Component.id = components.map Component.id ++ opens.map ComponentOpen.id ∧
        w'.calls = w.calls ++ opens.map ComponentOpen.opened)
      (fun e w' => ∃ before request after error failures closing,
        opens = before ++ request :: after ∧ e = .openFailed request.id error.text failures ∧
        Closes (components.map Component.id ++ before.map ComponentOpen.id).reverse closing ∧
        w'.calls = w.calls ++ (before.map ComponentOpen.opened ++
          .openSession request.id (.error error) :: closing)) := by
  induction opens with
  | nil =>
    intro components w
    simp [openEach]
  | cons request opens ih =>
    intro components w
    obtain ⟨result, w₁, hcall, hw₁⟩ := call_calls w
      (Factory.openSession request.factory request.request) (.openSession request.id)
    simp only [openEach, hcall]
    cases result with
    | ok session =>
      refine (ih (components ++ [⟨request.id, none, session, 0, none⟩]) w₁).mono ?_ ?_
      · rintro opened w' ⟨hids, hw'⟩
        refine ⟨by simp [hids], ?_⟩
        rw [hw', hw₁, List.append_assoc]
        rfl
      · rintro e w' ⟨before, request', after, error, failures, closing, rfl, rfl, hcl, hw'⟩
        refine ⟨request :: before, request', after, error, failures, closing, rfl, rfl, ?_, ?_⟩
        · simpa using hcl
        · rw [hw', hw₁, List.append_assoc]
          rfl
    | error error =>
      obtain ⟨_, closing, hcalls, hcl⟩ := closeComponents_spec components w₁
      refine ⟨[], request, opens, error, _, closing, rfl, rfl, ?_, ?_⟩
      · simpa using hcl
      · rw [hcalls, hw₁, List.append_assoc]
        rfl

/-- What opening a sorted list of plans may come to, with the calls it makes. -/
inductive Outcome (plans : List (ComponentOpen F R)) :
    Except CompoundOpenError (List (Component S)) → List (Call V) → Prop where
  | duplicate (component : ℕ) : ¬ (plans.map ComponentOpen.id).Nodup →
    Outcome plans (.error (.invalidComponentOrder component)) []
  | preflight {before request after} (error : ProviderPreflightError) :
    plans = before ++ request :: after →
    Outcome plans (.error (.preflight request.id error.text))
      (before.map ComponentOpen.preflighted ++ [.preflight request.id (.error error)])
  /-- The components before the failing one are closed, in reverse; none after it was opened. -/
  | openFailed {before request after closing} (error : ProviderError) (failures : List String) :
    plans = before ++ request :: after →
    Closes (before.map ComponentOpen.id).reverse closing →
    Outcome plans (.error (.openFailed request.id error.text failures))
      (plans.map ComponentOpen.preflighted ++ (before.map ComponentOpen.opened ++
        .openSession request.id (.error error) :: closing))
  | opened {components} : (plans.map ComponentOpen.id).Pairwise (· < ·) →
    components.map Component.id = plans.map ComponentOpen.id →
    Outcome plans (.ok components)
      (plans.map ComponentOpen.preflighted ++ plans.map ComponentOpen.opened)

def sorted (opens : List (ComponentOpen F R)) : List (ComponentOpen F R) :=
  opens.insertionSort (·.id ≤ ·.id)

theorem sorted_ids (opens : List (ComponentOpen F R)) :
    ((sorted opens).map ComponentOpen.id).Pairwise (· ≤ ·) := by
  unfold sorted
  rw [List.map_insertionSort (fun a b : ComponentOpen F R => a.id ≤ b.id) (· ≤ ·)
    ComponentOpen.id opens (fun a _ b _ => Iff.rfl)]
  exact List.pairwise_insertionSort _ _

/-- Neighbours are enough to find a repeated id in a sorted list. -/
theorem duplicate_spec (opens : List (ComponentOpen F R))
    (h : (opens.map ComponentOpen.id).Pairwise (· ≤ ·)) :
    match duplicate opens with
    | some _ => ¬ (opens.map ComponentOpen.id).Nodup
    | none => (opens.map ComponentOpen.id).Pairwise (· < ·) := by
  induction opens with
  | nil => exact List.Pairwise.nil
  | cons first opens ih =>
    cases opens with
    | nil => simp [duplicate]
    | cons second opens =>
      rw [List.map_cons, List.pairwise_cons] at h
      obtain ⟨hfirst, hrest⟩ := h
      have ih := ih hrest
      rw [duplicate]
      by_cases he : first.id = second.id
      · rw [if_pos he]
        simp [he]
      · rw [if_neg he]
        have hlt : first.id < second.id := by
          have := hfirst second.id (by simp)
          omega
        cases hd : duplicate (second :: opens) with
        | some id =>
          rw [hd] at ih
          intro hn
          exact ih (List.nodup_cons.mp hn).2
        | none =>
          rw [hd] at ih
          rw [List.map_cons, List.pairwise_cons]
          refine ⟨?_, ih⟩
          intro id hid
          rw [List.map_cons] at hid
          rcases List.mem_cons.mp hid with rfl | hid
          · exact hlt
          · rw [List.map_cons, List.pairwise_cons] at hrest
            have := hrest.1 id hid
            omega

theorem openCompound_spec (opens : List (ComponentOpen F R)) (w : World E V) :
    ∃ calls, (openCompound opens w).2.calls = w.calls ++ calls ∧
      Outcome (S := S) (sorted opens) (openCompound opens w).1 calls := by
  have hd := duplicate_spec (sorted opens) (sorted_ids opens)
  have hopen : openCompound (S := S) opens w = (match duplicate (sorted opens) with
    | some component => fail (CompoundOpenError.invalidComponentOrder component)
    | none => (do
      preflightAll (sorted opens)
      openEach [] (sorted opens))) w := rfl
  rw [hopen]
  cases hdup : duplicate (sorted opens) with
  | some component =>
    rw [hdup] at hd
    exact ⟨[], (List.append_nil _).symm, .duplicate component hd⟩
  | none =>
    rw [hdup] at hd
    dsimp only
    have hpre := preflightAll_spec (sorted opens) w
    rcases hp : preflightAll (sorted opens) w with ⟨e | _, w₁⟩
    · rw [hp] at hpre
      obtain ⟨before, request, after, error, hplans, rfl, hw₁⟩ := hpre
      rw [bind_run_error hp]
      exact ⟨_, hw₁, .preflight error hplans⟩
    · rw [hp] at hpre
      rw [bind_run_ok hp]
      have heach := openEach_spec (S := S) (sorted opens) [] w₁
      rcases ho : openEach (S := S) [] (sorted opens) w₁ with ⟨e | components, w₂⟩
      · rw [ho] at heach
        obtain ⟨before, request, after, error, failures, closing, hplans, rfl, hcl, hw₂⟩ := heach
        refine ⟨_, ?_, .openFailed error failures hplans hcl⟩
        rw [hw₂, meets_ok.mp hpre, List.append_assoc]
      · rw [ho] at heach
        obtain ⟨hids, hw₂⟩ := heach
        refine ⟨_, ?_, .opened hd hids⟩
        rw [hw₂, meets_ok.mp hpre, List.append_assoc]

end Opening

section Labels

variable [Provider E S V D] [Factory E F R S]

theorem labelAll_ids {identity : CompoundIdentity} {process : ℕ} {opens : List (ComponentOpen F R)} :
    ∀ {labelled}, labelAll identity process opens = .ok labelled →
      labelled.map ComponentOpen.id = opens.map ComponentOpen.id := by
  induction opens with
  | nil =>
    intro labelled h
    cases h
    rfl
  | cons request opens ih =>
    intro labelled h
    rw [labelAll] at h
    cases hl : request.request.realization.label (identity.component process request.id) with
    | none => rw [hl] at h; cases h
    | some realization =>
      rw [hl] at h
      cases hr : labelAll identity process opens with
      | error e => rw [hr] at h; cases h
      | ok rest =>
        rw [hr] at h
        cases h
        simp [ih hr]

/-- A session whose components only differ in their association. -/
theorem Outcome.relabel {plans : List (ComponentOpen F R)} {components : List (Component S)}
    {calls : List (Call V)} (h : Outcome plans (.ok components) calls)
    (association : Component S → Option ComponentAssociation) :
    Outcome plans (.ok (components.map fun c => { c with association := association c }))
      calls := by
  cases h with
  | opened hlt hids =>
    refine .opened hlt ?_
    rw [← hids, List.map_map]
    rfl

/-- How a session comes about, with the calls made on the way. A label that cannot be set or
was not prepared is refused before any call. -/
def Opens (opens : List (ComponentOpen F R)) (w : World E V)
    (r : Except CompoundOpenError (List (Component S)) × World E V) : Prop :=
  ((∃ component, r.1 = .error (.unsupportedAssociation component)) ∧ r.2 = w) ∨
    ∃ (plans : List (ComponentOpen F R)) (calls : List (Call V)),
      plans.map ComponentOpen.id = (sorted opens).map ComponentOpen.id ∧
      r.2.calls = w.calls ++ calls ∧ Outcome plans r.1 calls

theorem openCompound_opens (opens : List (ComponentOpen F R)) (w : World E V) :
    Opens opens w (openCompound (S := S) opens w) := by
  obtain ⟨calls, hcalls, ho⟩ := openCompound_spec (S := S) opens w
  exact .inr ⟨sorted opens, calls, rfl, hcalls, ho⟩

theorem sorted_ids_eq {opens opens' : List (ComponentOpen F R)}
    (h : opens'.map ComponentOpen.id = opens.map ComponentOpen.id) :
    (sorted opens').map ComponentOpen.id = (sorted opens).map ComponentOpen.id := by
  have hmap : ∀ l : List (ComponentOpen F R), (sorted l).map ComponentOpen.id =
      (l.map ComponentOpen.id).insertionSort (· ≤ ·) := fun l =>
    List.map_insertionSort (fun a b : ComponentOpen F R => a.id ≤ b.id) (· ≤ ·)
      ComponentOpen.id l (fun a _ b _ => Iff.rfl)
  rw [hmap, hmap, h]

theorem labelAll_error {identity : CompoundIdentity} {process : ℕ}
    {opens : List (ComponentOpen F R)} {error : CompoundOpenError}
    (h : labelAll identity process opens = .error error) :
    ∃ component, error = .unsupportedAssociation component := by
  induction opens with
  | nil => cases h
  | cons request opens ih =>
    rw [labelAll] at h
    cases hl : request.request.realization.label (identity.component process request.id) with
    | none =>
      rw [hl] at h
      cases h
      exact ⟨_, rfl⟩
    | some realization =>
      rw [hl] at h
      cases hr : labelAll identity process opens with
      | error e =>
        rw [hr] at h
        cases h
        exact ih hr
      | ok rest => rw [hr] at h; cases h

theorem openAssociated_opens (identity : CompoundIdentity) (process : ℕ)
    (opens : List (ComponentOpen F R)) (w : World E V) :
    Opens opens w (openAssociated (S := S) identity process opens w) := by
  unfold openAssociated
  cases hl : labelAll identity process opens with
  | error error =>
    obtain ⟨component, rfl⟩ := labelAll_error hl
    exact .inl ⟨⟨component, rfl⟩, rfl⟩
  | ok labelled =>
    right
    obtain ⟨calls, hcalls, ho⟩ := openCompound_spec (S := S) labelled w
    refine ⟨sorted labelled, calls, sorted_ids_eq (labelAll_ids hl), ?_⟩
    rw [bind_run_ok (show lift (Except.ok labelled) w = (.ok labelled, w) from rfl)]
    rcases hop : openCompound (S := S) labelled w with ⟨e | components, w₁⟩
    · rw [hop] at hcalls ho
      rw [bind_run_error hop]
      exact ⟨hcalls, ho⟩
    · rw [hop] at hcalls ho
      rw [bind_run_ok hop]
      exact ⟨hcalls, ho.relabel _⟩

theorem preparedAssociations_error {identity : CompoundIdentity} {process : ℕ}
    {opens : List (ComponentOpen F R)} : ∀ {paths : List String} {error : CompoundOpenError},
    preparedAssociations identity process paths opens = .error error →
      ∃ component, error = .unsupportedAssociation component := by
  induction opens with
  | nil =>
    intro paths error h
    cases h
  | cons request opens ih =>
    intro paths error h
    unfold preparedAssociations at h
    split at h
    · next path _ =>
      split at h
      · cases h
        exact ⟨_, rfl⟩
      · cases hr : preparedAssociations identity process (path :: paths) opens with
        | error e =>
          rw [hr] at h
          cases h
          exact ih hr
        | ok rest => rw [hr] at h; cases h
    · cases h
      exact ⟨_, rfl⟩

theorem openAssociatedPreparedEvdev_opens (identity : CompoundIdentity) (process : ℕ)
    (opens : List (ComponentOpen F R)) (w : World E V) :
    Opens opens w (openAssociatedPreparedEvdev (S := S) identity process opens w) := by
  unfold openAssociatedPreparedEvdev
  cases hl : preparedAssociations identity process [] opens with
  | error error =>
    obtain ⟨component, rfl⟩ := preparedAssociations_error hl
    exact .inl ⟨⟨component, rfl⟩, rfl⟩
  | ok associations =>
    right
    obtain ⟨calls, hcalls, ho⟩ := openCompound_spec (S := S) opens w
    refine ⟨sorted opens, calls, rfl, ?_⟩
    rw [bind_run_ok (show lift (Except.ok associations) w = (.ok associations, w) from rfl)]
    rcases hop : openCompound (S := S) opens w with ⟨e | components, w₁⟩
    · rw [hop] at hcalls ho
      rw [bind_run_error hop]
      exact ⟨hcalls, ho⟩
    · rw [hop] at hcalls ho
      rw [bind_run_ok hop]
      exact ⟨hcalls, ho.relabel _⟩

end Labels

section Operating

variable [Provider E S V D] {ids : List ℕ}

/-- A provider operation of the session that failed with `source`. -/
def Fails (id : ℕ) (source : ProviderError) (call : Call V) : Prop :=
  (∃ frame, call = .send id frame (.error source)) ∨ call = .drain id (.error source)

/-- Calls without a close and without a terminal failure. -/
def Calm (calls : List (Call V)) : Prop :=
  closed calls = [] ∧ ∀ c ∈ calls, ∀ id source, Fails id source c → source = .wouldBlock

theorem Calm.append {calls calls' : List (Call V)} (h : Calm calls) (h' : Calm calls') :
    Calm (calls ++ calls') := by
  refine ⟨by rw [closed_append, h.1, h'.1]; rfl, ?_⟩
  intro c hc id source hf
  rcases List.mem_append.mp hc with hc | hc
  · exact h.2 c hc id source hf
  · exact h'.2 c hc id source hf

/-- What an operation on an open session does to it. -/
inductive Effect (ids : List ℕ) (o o' : Owner E S V) : Except CompoundSessionError Unit → Prop where
  | calm {result} (calls : List (Call V)) : o'.closed = false → Calm calls →
    o'.world.calls = o.world.calls ++ calls →
    (∀ id source, result = .error (.provider id source) → source = .wouldBlock) →
    Effect ids o o' result
  /-- The first terminal failure closes everything and is what is returned. -/
  | terminal {id source call closing} (earlier : List (Call V)) : source ≠ .wouldBlock → o'.closed = true →
    Calm earlier → Fails id source call → Closes ids.reverse closing →
    o'.world.calls = o.world.calls ++ (earlier ++ call :: (closing ++ reads ids)) →
    Effect ids o o' (.error (.provider id source))

theorem Effect.after {o o₁ o' : Owner E S V} {result : Except CompoundSessionError Unit}
    {calls : List (Call V)} (h : Effect ids o₁ o' result) (hc : Calm calls)
    (ho : o₁.world.calls = o.world.calls ++ calls) : Effect ids o o' result := by
  cases h with
  | calm calls' hopen hcalm hlog hres =>
    exact .calm (calls ++ calls') hopen (hc.append hcalm) (by rw [hlog, ho, List.append_assoc]) hres
  | terminal earlier hne hclosed hcalm hf hcl hlog =>
    refine .terminal _ hne hclosed (hc.append hcalm) hf hcl ?_
    rw [hlog, ho]
    simp only [List.append_assoc]

theorem diagnostics_closed {o : Owner E S V} (hc : o.closed = true) :
    (diagnostics o).2.closed = true ∧
      (diagnostics o).2.components.map Component.id = o.components.map Component.id ∧
      (diagnostics o).2.world.calls =
        o.world.calls ++ reads (o.components.map Component.id) := by
  refine ⟨hc, rfl, ?_⟩
  have h := diagnoseEach_spec o.components o.world
  rw [← hc] at h
  exact h

theorem close_open {o : Owner E S V} (hc : o.closed = false)
    (hids : o.components.map Component.id = ids) :
    (close o).2.closed = true ∧ (close o).2.components.map Component.id = ids ∧
      ∃ closing, Closes ids.reverse closing ∧
        (close o).2.world.calls = o.world.calls ++ (closing ++ reads ids) := by
  obtain ⟨hids', closing, hcalls, hcl⟩ := closeComponents_spec o.components o.world
  rw [hids] at hids' hcl
  rcases hq : closeComponents o.components o.world with ⟨failures, components, world⟩
  rw [hq] at hids' hcalls
  obtain ⟨h₁, h₂, h₃⟩ := diagnostics_closed (o := ⟨components, true, world⟩) rfl
  have hclose : close o = diagnostics ⟨components, true, world⟩ := by
    simp only [close, hc, Bool.false_eq_true, if_false, hq]
  rw [hclose]
  refine ⟨h₁, h₂.trans hids', closing, hcl, ?_⟩
  rw [h₃, hcalls, hids', List.append_assoc]

/-- A failing provider operation is returned as it came; only a terminal one closes. -/
theorem providerFailure_effect (o o' : Owner E S V) {id : ℕ} {source : ProviderError}
    {call : Call V} (hc : o.closed = false) (hids : o.components.map Component.id = ids)
    (hcalls : o'.world.calls = o.world.calls ++ [call]) (hclosed : o'.closed = o.closed)
    (hcomp : o'.components = o.components) (hf : Fails id source call) :
    Effect ids o (providerFailure id source o').2 (.error (providerFailure id source o').1) ∧
      (providerFailure id source o').2.components.map Component.id = ids := by
  have hcall : Call.closes call = none := by
    rcases hf with ⟨frame, rfl⟩ | rfl <;> rfl
  unfold providerFailure
  by_cases hb : source = .wouldBlock
  · rw [if_pos hb]
    refine ⟨.calm [call] (hclosed.trans hc) ⟨closed_eq_nil (by simpa using hcall), ?_⟩ hcalls ?_,
      by rw [hcomp, hids]⟩
    · intro c hmem id' source' hf'
      rw [List.mem_singleton.mp hmem] at hf'
      rcases hf with ⟨frame, rfl⟩ | rfl <;> rcases hf' with ⟨frame', he⟩ | he <;> cases he <;>
        exact hb
    · intro id' source' he
      cases he
      exact hb
  · rw [if_neg hb]
    obtain ⟨h₁, h₂, closing, hcl, hlog⟩ := close_open (hclosed.trans hc) (by rw [hcomp, hids])
    refine ⟨.terminal [] hb h₁ ⟨rfl, by simp⟩ hf hcl ?_, h₂⟩
    rw [hlog, hcalls, List.append_assoc]
    rfl

theorem calm_ok {call : Call V} (hc : Call.closes call = none)
    (hf : ∀ id source, ¬ Fails id source call) : Calm [call] := by
  refine ⟨closed_eq_nil (by simpa using hc), ?_⟩
  intro c hmem id source h
  rw [List.mem_singleton.mp hmem] at h
  exact absurd h (hf id source)

theorem sendOne_effect {o : Owner E S V} (component : Component S) (id : ℕ)
    (frame : ProviderFrame) (hc : o.closed = false)
    (hids : o.components.map Component.id = ids) :
    Effect ids o (sendOne component id frame o).2 (sendOne component id frame o).1 ∧
      (sendOne component id frame o).2.components.map Component.id = ids := by
  obtain ⟨result, w, hcall, hw⟩ :=
    call_calls o.world (Provider.send component.session frame) (.send id frame)
  simp only [sendOne, hcall]
  cases result with
  | ok _ =>
    refine ⟨.calm [.send id frame (.ok ())] hc (calm_ok rfl ?_) hw (by simp), hids⟩
    rintro id source (⟨frame, hf⟩ | hf) <;> cases hf
  | error source =>
    exact providerFailure_effect o { o with world := w } hc hids hw rfl rfl (.inl ⟨frame, rfl⟩)

theorem sendEach_effect (frames : List ComponentFrame) : ∀ {o : Owner E S V},
    o.closed = false → o.components.map Component.id = ids →
    Effect ids o (sendEach frames o).2 (sendEach frames o).1 ∧
      (sendEach frames o).2.components.map Component.id = ids := by
  induction frames with
  | nil =>
    intro o hc hids
    exact ⟨.calm [] hc ⟨rfl, by simp⟩ (by simp [sendEach, pure]) (by simp [sendEach, pure]), hids⟩
  | cons frame frames ih =>
    intro o hc hids
    rw [sendEach, get_bind_run]
    cases hf : o.components.find? (·.id = frame.component) with
    | none =>
      exact ⟨.calm [] hc ⟨rfl, by simp⟩ (by simp [fail]) (by simp [fail]), hids⟩
    | some component =>
      dsimp only
      obtain ⟨heff, hids'⟩ := sendOne_effect component frame.component frame.frame hc hids
      rcases hs : sendOne component frame.component frame.frame o with ⟨e | _, o'⟩
      · rw [hs] at heff hids'
        rw [bind_run_error hs]
        exact ⟨heff, hids'⟩
      · rw [hs] at heff hids'
        rw [bind_run_ok hs]
        cases heff with
        | calm calls hopen hcalm hlog _ =>
          obtain ⟨heff', hids''⟩ := ih hopen hids'
          exact ⟨heff'.after hcalm hlog, hids''⟩

theorem send_effect {o : Owner E S V} (frames : List ComponentFrame) (hc : o.closed = false)
    (hids : o.components.map Component.id = ids) :
    Effect ids o (send frames o).2 (send frames o).1 ∧
      (send frames o).2.components.map Component.id = ids := by
  have hopen : ¬ o.closed = true := by simp [hc]
  unfold send
  rw [get_bind_run, if_neg hopen]
  split
  · exact ⟨.calm [] hc ⟨rfl, by simp⟩ (by simp [fail]) (by simp [fail]), hids⟩
  · exact sendEach_effect frames hc hids

theorem reply_effect {o : Owner E S V} (id : ℕ) (frame : ProviderFrame) (hc : o.closed = false)
    (hids : o.components.map Component.id = ids) :
    Effect ids o (reply id frame o).2 (reply id frame o).1 ∧
      (reply id frame o).2.components.map Component.id = ids := by
  have hopen : ¬ o.closed = true := by simp [hc]
  have refused : ∀ e : CompoundSessionError, (∀ id source, e ≠ .provider id source) →
      Effect ids o o (.error e) := by
    intro e he
    refine .calm [] hc ⟨rfl, by simp⟩ (by simp) ?_
    intro id source h
    exact absurd (Except.error.inj h) (he id source)
  unfold reply
  rw [get_bind_run, if_neg hopen]
  split
  · exact ⟨refused .invalidReply (by simp), hids⟩
  · cases o.components.find? (·.id = id) with
    | none => exact ⟨refused (.unknownComponent id) (by simp), hids⟩
    | some component => exact sendOne_effect component id frame hc hids

theorem drainEach_effect (components : List (Component S)) : ∀ {o : Owner E S V},
    o.closed = false → o.components.map Component.id = ids →
    Effect ids o (drainEach components o).2 (drainEach components o).1 ∧
      (drainEach components o).2.components.map Component.id = ids := by
  induction components with
  | nil =>
    intro o hc hids
    exact ⟨.calm [] hc ⟨rfl, by simp⟩ (by simp [drainEach, pure]) (by simp [drainEach, pure]), hids⟩
  | cons component components ih =>
    intro o hc hids
    rcases hd : Provider.drain component.session o.world.env with ⟨⟨events, result⟩, env⟩
    let o₁ : Owner E S V := { o with
      world := ⟨env, o.world.calls ++ events.map (.event component.id)⟩ }
    have hevents : Calm (events.map (.event component.id) : List (Call V)) := by
      refine ⟨closed_eq_nil (by simp [Call.closes]), ?_⟩
      intro c hmem id source hf
      obtain ⟨event, _, rfl⟩ := List.mem_map.mp hmem
      rcases hf with ⟨frame, hf⟩ | hf <;> cases hf
    have hlog : o₁.world.calls = o.world.calls ++ events.map (.event component.id) := rfl
    let o₂ : Owner E S V := { o with
      world := ⟨env, o.world.calls ++ events.map (.event component.id) ++
        [.drain component.id result]⟩ }
    -- the drain goes on unless the provider failed terminally
    have go : (∀ id source, Fails id source (.drain component.id result : Call V) →
        source = .wouldBlock) → drainEach (component :: components) o = drainEach components o₂ →
        Effect ids o (drainEach (component :: components) o).2
            (drainEach (component :: components) o).1 ∧
          (drainEach (component :: components) o).2.components.map Component.id = ids := by
      intro hcalm heq
      obtain ⟨heff, hids'⟩ := ih (o := o₂) hc hids
      rw [heq]
      refine ⟨?_, hids'⟩
      refine (heff.after (o := o₁) ⟨closed_eq_nil ?_, ?_⟩ rfl).after hevents hlog
      · simp [Call.closes]
      · intro c hmem id source hf
        rw [List.mem_singleton.mp hmem] at hf
        exact hcalm id source hf
    cases result with
    | ok _ =>
      refine go ?_ (by simp only [drainEach, hd]; rfl)
      rintro id source (⟨frame, hf⟩ | hf) <;> cases hf
    | error source =>
      by_cases hb : source = .wouldBlock
      · subst hb
        refine go ?_ (by simp only [drainEach, hd]; rfl)
        rintro id source (⟨frame, hf⟩ | hf) <;> cases hf
        rfl
      · have hfail : drainEach (component :: components) o =
            (.error (providerFailure component.id source o₂).1,
              (providerFailure component.id source o₂).2) := by
          cases source <;> first | exact absurd rfl hb | (simp only [drainEach, hd]; rfl)
        have hlast : o₂.world.calls = o₁.world.calls ++ [.drain component.id (.error source)] := rfl
        obtain ⟨heff, hids'⟩ :=
          providerFailure_effect o₁ o₂ hc hids hlast rfl rfl (.inr rfl)
        rw [hfail]
        exact ⟨heff.after hevents hlog, hids'⟩

theorem drainReverse_effect {o : Owner E S V} (hc : o.closed = false)
    (hids : o.components.map Component.id = ids) :
    Effect ids o (drainReverse o).2 (drainReverse o).1 ∧
      (drainReverse o).2.components.map Component.id = ids := by
  have hopen : ¬ o.closed = true := by simp [hc]
  unfold drainReverse
  rw [get_bind_run, if_neg hopen]
  exact drainEach_effect o.components hc hids

/-- The log of a session: operation, then one close of each component, then only reads of
their diagnostics. -/
structure Lived (ids : List ℕ) (o : Owner E S V) : Prop where
  ids_eq : o.components.map Component.id = ids
  log : ∃ during closing after, o.world.calls = during ++ (closing ++ after) ∧
    closed during = [] ∧ (o.closed = false → closing = [] ∧ after = []) ∧
    (o.closed = true → Closes ids.reverse closing) ∧ ∀ c ∈ after, ∃ id, c = .diagnostics id

theorem Lived.effect {o o' : Owner E S V} {result : Except CompoundSessionError Unit}
    (h : Lived ids o) (hc : o.closed = false)
    (he : Effect ids o o' result ∧ o'.components.map Component.id = ids) : Lived ids o' := by
  obtain ⟨during, closing, after, hlog, hnone, hopen, _, _⟩ := h.log
  obtain ⟨rfl, rfl⟩ := hopen hc
  obtain ⟨he, hids⟩ := he
  refine ⟨hids, ?_⟩
  cases he with
  | calm calls hopen' hcalm hlog' _ =>
    refine ⟨during ++ calls, [], [], ?_, ?_, fun _ => ⟨rfl, rfl⟩, by simp [hopen'], by simp⟩
    · rw [hlog', hlog]
      simp
    · rw [closed_append, hnone, hcalm.1]
      rfl
  | @terminal id source call closing earlier hne hclosed hcalm hf hcl hlog' =>
    refine ⟨during ++ (earlier ++ [call]), closing, reads ids, ?_, ?_, by simp [hclosed],
      fun _ => hcl, ?_⟩
    · rw [hlog', hlog]
      simp
    · have hcall : Call.closes call = none := by
        rcases hf with ⟨frame, rfl⟩ | rfl <;> rfl
      rw [closed_append, closed_append, hnone, hcalm.1, closed_eq_nil (by simpa using hcall)]
      rfl
    · intro c hmem
      obtain ⟨id, _, rfl⟩ := List.mem_map.mp hmem
      exact ⟨id, rfl⟩

theorem Lived.diagnostics {o : Owner E S V} (h : Lived ids o) :
    Lived ids (CompoundSession.diagnostics o).2 := by
  obtain ⟨during, closing, after, hlog, hnone, hopen, hcl, hafter⟩ := h.log
  refine ⟨h.ids_eq, ?_⟩
  cases hc : o.closed with
  | false =>
    obtain ⟨rfl, rfl⟩ := hopen hc
    obtain ⟨calls, hcalls, hn⟩ := diagnoseOpen_spec o.components o.world
    rw [← hc] at hcalls
    refine ⟨during ++ calls, [], [], ?_, ?_, fun _ => ⟨rfl, rfl⟩, ?_, by simp⟩
    · change (diagnoseEach o.closed o.components o.world).2.calls = _
      rw [hcalls, hlog]
      simp
    · rw [closed_append, hnone, hn]
      rfl
    · intro h'
      have : o.closed = true := h'
      rw [hc] at this
      cases this
  | true =>
    obtain ⟨_, _, hcalls⟩ := diagnostics_closed hc
    refine ⟨during, closing, after ++ reads (o.components.map Component.id), ?_, hnone, ?_,
      fun _ => hcl hc, ?_⟩
    · rw [hcalls, hlog]
      simp
    · intro h'
      have : o.closed = false := h'
      rw [hc] at this
      cases this
    · intro c hmem
      rcases List.mem_append.mp hmem with hmem | hmem
      · exact hafter c hmem
      · obtain ⟨id, _, rfl⟩ := List.mem_map.mp hmem
        exact ⟨id, rfl⟩

theorem Lived.close {o : Owner E S V} (h : Lived ids o) : Lived ids (close o).2 := by
  cases hc : o.closed with
  | true =>
    have hclose : CompoundSession.close o = CompoundSession.diagnostics o := by
      simp only [CompoundSession.close, hc, if_true]
    rw [hclose]
    exact h.diagnostics
  | false =>
    obtain ⟨during, closing, after, hlog, hnone, hopen, _, _⟩ := h.log
    obtain ⟨rfl, rfl⟩ := hopen hc
    obtain ⟨h₁, h₂, closing, hcl, hlog'⟩ := close_open hc h.ids_eq
    refine ⟨h₂, during, closing, reads ids, ?_, hnone, by simp [h₁], fun _ => hcl, ?_⟩
    · rw [hlog', hlog]
      simp
    · intro c hmem
      obtain ⟨id, _, rfl⟩ := List.mem_map.mp hmem
      exact ⟨id, rfl⟩

theorem send_closed {o : Owner E S V} (hc : o.closed = true) (frames : List ComponentFrame) :
    send frames o = (.error .closed, o) := by
  unfold send
  rw [get_bind_run, if_pos hc]
  rfl

theorem reply_closed {o : Owner E S V} (hc : o.closed = true) (id : ℕ) (frame : ProviderFrame) :
    reply id frame o = (.error .closed, o) := by
  unfold reply
  rw [get_bind_run, if_pos hc]
  rfl

theorem drainReverse_closed {o : Owner E S V} (hc : o.closed = true) :
    drainReverse o = (.error .closed, o) := by
  unfold drainReverse
  rw [get_bind_run, if_pos hc]
  rfl

theorem perform_lived {o : Owner E S V} (h : Lived ids o) (op : Op) : Lived ids (perform op o) := by
  cases hc : o.closed with
  | false =>
    cases op with
    | send frames => exact h.effect hc (send_effect frames hc h.ids_eq)
    | reply id frame => exact h.effect hc (reply_effect id frame hc h.ids_eq)
    | drainReverse => exact h.effect hc (drainReverse_effect hc h.ids_eq)
    | close => exact h.close
    | diagnostics => exact h.diagnostics
  | true =>
    cases op with
    | send frames =>
      rw [perform, send_closed hc]
      exact h
    | reply id frame =>
      rw [perform, reply_closed hc]
      exact h
    | drainReverse =>
      rw [perform, drainReverse_closed hc]
      exact h
    | close => exact h.close
    | diagnostics => exact h.diagnostics

end Operating

section Lives

variable [Provider E S V D] [Factory E F R S]

/-- Every state of a session that one of the three constructors returned. -/
inductive Reachable (opens : List (ComponentOpen F R)) (w : World E V) : Owner E S V → Prop where
  | opened {components w'} : openCompound opens w = (.ok components, w') →
    Reachable opens w ⟨components, false, w'⟩
  | associated {components w'} (identity : CompoundIdentity) (process : ℕ) :
    openAssociated identity process opens w = (.ok components, w') →
    Reachable opens w ⟨components, false, w'⟩
  | prepared {components w'} (identity : CompoundIdentity) (process : ℕ) :
    openAssociatedPreparedEvdev identity process opens w = (.ok components, w') →
    Reachable opens w ⟨components, false, w'⟩
  | step {o} : Reachable opens w o → ∀ op, Reachable opens w (perform op o)

def componentIds (opens : List (ComponentOpen F R)) : List ℕ :=
  (sorted opens).map ComponentOpen.id

omit [Provider E S V D] [Factory E F R S] in
theorem Opens.lived {opens : List (ComponentOpen F R)} {w w' : World E V}
    {components : List (Component S)} (hw : closed w.calls = [])
    (h : Opens opens w (.ok components, w')) :
    Lived (componentIds opens) (⟨components, false, w'⟩ : Owner E S V) ∧
      (componentIds opens).Pairwise (· < ·) := by
  rcases h with ⟨⟨component, he⟩, _⟩ | ⟨plans, calls, hids, hcalls, ho⟩
  · cases he
  · cases ho with
    | opened hlt hcomp =>
      refine ⟨⟨hcomp.trans hids, w'.calls, [], [], by simp, ?_, fun _ => ⟨rfl, rfl⟩, by simp,
        by simp⟩, ?_⟩
      · rw [hcalls, closed_append, hw, closed_append, closed_eq_nil, closed_eq_nil]
        · rfl
        · simp [Call.closes, ComponentOpen.opened]
        · simp [Call.closes, ComponentOpen.preflighted]
      · unfold componentIds
        rwa [← hids]

theorem reachable_lived {opens : List (ComponentOpen F R)} {w : World E V} {o : Owner E S V}
    (hw : closed w.calls = []) (h : Reachable opens w o) :
    Lived (componentIds opens) o ∧ (componentIds opens).Pairwise (· < ·) := by
  induction h with
  | opened h =>
    refine Opens.lived hw ?_
    rw [← h]
    exact openCompound_opens opens w
  | associated identity process h =>
    refine Opens.lived hw ?_
    rw [← h]
    exact openAssociated_opens identity process opens w
  | prepared identity process h =>
    refine Opens.lived hw ?_
    rw [← h]
    exact openAssociatedPreparedEvdev_opens identity process opens w
  | step _ op ih => exact ⟨perform_lived ih.1 op, ih.2⟩

/-- The life of an open session with the components `ids`. -/
structure ClosesOnce (ids : List ℕ) (o : Owner E S V) : Prop where
  distinct : ids.Nodup
  /-- Closed components are all of them, once each, in reverse order. -/
  closed_once : closed o.world.calls = if o.closed then ids.reverse else []
  dropped : (drop o).closed = true ∧ closed (drop o).world.calls = ids.reverse
  /-- After its first close only diagnostics are read and the other components closed. -/
  only_reads : ∀ before c after, o.world.calls = before ++ c :: after →
    (∃ id, Call.closes c = some id) → o.closed = true ∧
      ∀ d ∈ after, (∃ id, Call.closes d = some id) ∨ ∃ id, d = .diagnostics id
  send : o.closed = false → ∀ frames,
    Effect ids o (CompoundSession.send frames o).2 (CompoundSession.send frames o).1
  reply : o.closed = false → ∀ id frame,
    Effect ids o (CompoundSession.reply id frame o).2 (CompoundSession.reply id frame o).1
  drain : o.closed = false → Effect ids o (drainReverse o).2 (drainReverse o).1
  refused : o.closed = true → ∀ frames id frame,
    CompoundSession.send frames o = (.error .closed, o) ∧
    CompoundSession.reply id frame o = (.error .closed, o) ∧ drainReverse o = (.error .closed, o)

omit [Factory E F R S] in
theorem Lived.closed_once {ids : List ℕ} {o : Owner E S V} (h : Lived ids o) :
    closed o.world.calls = if o.closed then ids.reverse else [] := by
  obtain ⟨during, closing, after, hlog, hnone, hopen, hcl, hafter⟩ := h.log
  have hreads : closed after = [] := by
    refine closed_eq_nil ?_
    intro c hmem
    obtain ⟨id, rfl⟩ := hafter c hmem
    rfl
  rw [hlog, closed_append, closed_append, hnone, hreads]
  cases hc : o.closed with
  | false =>
    obtain ⟨rfl, _⟩ := hopen hc
    rfl
  | true =>
    rw [(hcl hc).closed_eq]
    simp

theorem Closes.mem {ids : List ℕ} {calls : List (Call V)} (h : Closes ids calls) :
    ∀ c ∈ calls, ∃ id, Call.closes c = some id := by
  induction h with
  | nil => simp
  | cons id result _ ih =>
    intro c hmem
    rcases List.mem_cons.mp hmem with rfl | hmem
    · exact ⟨id, rfl⟩
    · exact ih c hmem

omit [Factory E F R S] in
theorem Lived.only_reads {ids : List ℕ} {o : Owner E S V} (h : Lived ids o)
    {before after : List (Call V)} {c : Call V} (hlog : o.world.calls = before ++ c :: after)
    (hc : ∃ id, Call.closes c = some id) : o.closed = true ∧
      ∀ d ∈ after, (∃ id, Call.closes d = some id) ∨ ∃ id, d = .diagnostics id := by
  obtain ⟨during, closing, reads, hlog', hnone, hopen, hcl, hreads⟩ := h.log
  obtain ⟨id, hid⟩ := hc
  have hclosed : o.closed = true := by
    cases ho : o.closed with
    | true => rfl
    | false =>
      have hnil := h.closed_once
      rw [ho, hlog] at hnil
      have hn := List.filterMap_eq_nil_iff.mp hnil c (by simp)
      rw [hid] at hn
      cases hn
  refine ⟨hclosed, ?_⟩
  rw [hlog'] at hlog
  have htail : ∀ d ∈ closing ++ reads,
      (∃ id, Call.closes d = some id) ∨ ∃ id, d = .diagnostics id := by
    intro d hd
    rcases List.mem_append.mp hd with hd | hd
    · exact .inl ((hcl hclosed).mem d hd)
    · exact .inr (hreads d hd)
  intro d hd
  rcases List.append_eq_append_iff.mp hlog with ⟨ys, _, htl⟩ | ⟨ys, hdur, _⟩
  · refine htail d ?_
    rw [htl]
    simp [hd]
  · cases ys with
    | nil =>
      refine htail d ?_
      rename_i htl
      rw [← List.nil_append (closing ++ reads), ← htl]
      simp [hd]
    | cons y ys =>
      rename_i htl
      have hy : y = c := by
        have := List.head_eq_of_cons_eq htl
        exact this.symm
      have hmem : c ∈ during := by
        rw [hdur, hy]
        simp
      have hn := List.filterMap_eq_nil_iff.mp hnone c hmem
      rw [hid] at hn
      cases hn

/-- All components are opened or none stays open, and each opened one is closed once. -/
theorem compound_all_or_nothing (opens : List (ComponentOpen F R)) (env : E) :
    let w : World E V := ⟨env, []⟩
    Opens opens w (openCompound (S := S) opens w) ∧
    (∀ identity process, Opens opens w (openAssociated (S := S) identity process opens w) ∧
      Opens opens w (openAssociatedPreparedEvdev (S := S) identity process opens w)) ∧
    ∀ o : Owner E S V, Reachable opens w o → ClosesOnce (componentIds opens) o := by
  intro w
  refine ⟨openCompound_opens opens w, fun identity process =>
    ⟨openAssociated_opens identity process opens w,
      openAssociatedPreparedEvdev_opens identity process opens w⟩, ?_⟩
  intro o h
  obtain ⟨hl, hlt⟩ := reachable_lived rfl h
  constructor
  · exact hlt.imp (fun h => Nat.ne_of_lt h)
  · exact hl.closed_once
  · have hd : (drop o).closed = true := by
      unfold drop
      cases hc : o.closed with
      | true =>
        have hclose : close o = diagnostics o := by
          simp only [close, hc, if_true]
        rw [hclose]
        exact hc
      | false => exact (close_open hc hl.ids_eq).1
    have hdl : Lived (componentIds opens) (drop o) := hl.close
    refine ⟨hd, ?_⟩
    rw [hdl.closed_once, hd]
    rfl
  · intro before c after hlog hc
    exact hl.only_reads hlog hc
  · intro hc frames
    exact (send_effect frames hc hl.ids_eq).1
  · intro hc id frame
    exact (reply_effect id frame hc hl.ids_eq).1
  · intro hc
    exact (drainReverse_effect hc hl.ids_eq).1
  · intro hc frames id frame
    exact ⟨send_closed hc frames, reply_closed hc id frame, drainReverse_closed hc⟩

end Lives

/-- Providers for concrete runs: each call takes its outcome from a script, then succeeds. -/
structure Script where
  outcomes : List (Option ProviderError)

def Script.next : Action ProviderError Script Unit := fun s =>
  (match s.outcomes.headD none with | none => .ok () | some error => .error error,
    ⟨s.outcomes.tail⟩)

instance : Provider Script Unit Unit Unit where
  send _ _ := Script.next
  drain _ s := (([], (Script.next s).1), (Script.next s).2)
  hostPath _ _ := none
  diagnostics _ _ := ()
  close _ := Script.next

instance : Factory Script Unit Unit Unit where
  preflight _ _ s := (.ok (), s)
  openSession _ _ := Script.next

def component (id : ℕ) : ComponentOpen Unit Unit := ⟨id, (), ⟨.evdev none, ()⟩⟩

/-- The second of two sends fails terminally, and so does one of the closes after it. -/
theorem compound_all_or_nothing_write : ∃ o : Owner Script Unit Unit,
    ClosesOnce (componentIds [component 2, component 1]) o ∧ o.closed = true := by
  refine ⟨_, (compound_all_or_nothing [component 2, component 1]
    (⟨[none, none, none, some (.write "injected"), some .closed]⟩ : Script)).2.2 _
    (.step (.opened rfl) (.send [⟨1, .hidInput none [1]⟩, ⟨2, .hidInput none [2]⟩])), rfl⟩

/-- A closed component is still asked for its diagnostics. -/
theorem diagnostics_after_close : ∃ o : Owner Script Unit Unit,
    Reachable [component 1] ⟨⟨[]⟩, []⟩ o ∧
      o.world.calls = [.preflight 1 (.ok ()), .openSession 1 (.ok ()), .close 1 (.ok ()),
        .diagnostics 1] :=
  ⟨_, .step (.opened rfl) .close, rfl⟩

end CompoundLifecycle
