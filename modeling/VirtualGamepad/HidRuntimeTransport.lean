import VirtualGamepad.HidRuntime
import VirtualGamepad.Runs

/-! The transport under a HID session. Nothing but the calls of the log moves it, so what holds of
every run of a transport holds of the transport of every reachable session. -/
namespace HidRuntimeTransport

open Fallible HidRuntime Runs

inductive TransportCall where
  | event (result : Except Error (Option HostEvent))
  | submit (command : Command) (outcome : Delivery)
  | close (result : Except Error Unit)

variable {P T S O : Type}

def TransportStep [Transport T] (t : T) (call : TransportCall) (t' : T) : Prop :=
  match call with
  | .event result => Transport.event t = (result, t')
  | .submit command outcome => Transport.submit t command = (outcome, t')
  | .close result => Transport.close t = (result, t')

def transportCall (e : Entry P S) : Option TransportCall :=
  match e.call with
  | .event result => some (.event result)
  | .submit command outcome => some (.submit command outcome)
  | .close result => some (.close result)
  | _ => none

def transportCalls (calls : List (Entry P S)) : List TransportCall := calls.filterMap transportCall

@[simp] theorem transportCalls_append (calls calls' : List (Entry P S)) :
    transportCalls (calls ++ calls') = transportCalls calls ++ transportCalls calls' :=
  List.filterMap_append

section Following

variable [Transport T] {rt rt' rt'' : Runtime P T S O}

/-- The log has grown by calls that lead the transport from the first state to the second. -/
def Follows (rt rt' : Runtime P T S O) : Prop :=
  ∃ calls, rt'.calls = rt.calls ++ calls ∧
    Run TransportStep rt.transport (transportCalls calls) rt'.transport

theorem Follows.refl (rt : Runtime P T S O) : Follows rt rt := ⟨[], by simp, .nil⟩

theorem Follows.trans (h : Follows rt rt') (k : Follows rt' rt'') : Follows rt rt'' := by
  obtain ⟨calls, hcalls, hrun⟩ := h
  obtain ⟨calls', hcalls', hrun'⟩ := k
  refine ⟨calls ++ calls', by rw [hcalls', hcalls, List.append_assoc], ?_⟩
  rw [transportCalls_append]
  exact hrun.append hrun'

/-- Changes beside the transport and its log. -/
theorem follows_of_eq (hcalls : rt'.calls = rt.calls) (htransport : rt'.transport = rt.transport) :
    Follows rt rt' := by
  refine ⟨[], by simp [hcalls], ?_⟩
  rw [htransport]
  exact .nil

/-- A call that goes elsewhere. -/
theorem follows_record {call : Call P S} (h : transportCall ⟨rt.now, call⟩ = none)
    (hcalls : rt'.calls = (rt.record call).calls) (htransport : rt'.transport = rt.transport) :
    Follows rt rt' := by
  refine ⟨[⟨rt.now, call⟩], hcalls, ?_⟩
  rw [htransport]
  simp [transportCalls, h]

end Following

section Keeping

variable [Transport T] {α β : Type}

/-- A call of the runtime that moves the transport by the calls it logs, however it ends. -/
def Keeps (m : Action Error (Runtime P T S O) α) : Prop := ∀ rt, Follows rt (m rt).2

variable {m : Action Error (Runtime P T S O) α} {f : α → Action Error (Runtime P T S O) β}

theorem keeps_bind (h : Keeps m) (k : ∀ a, Keeps (f a)) : Keeps (m >>= f) := by
  intro rt
  have hm := h rt
  rcases hr : m rt with ⟨error | a, t⟩
  · rw [bind_run_error hr]
    rwa [hr] at hm
  · rw [bind_run_ok hr]
    rw [hr] at hm
    exact hm.trans (k a t)

theorem keeps_get {f : Runtime P T S O → Action Error (Runtime P T S O) β}
    (k : ∀ rt, Keeps (f rt)) : Keeps (get >>= f) := by
  intro rt
  exact k rt rt

theorem keeps_pure (a : α) : Keeps (pure a : Action Error (Runtime P T S O) α) := Follows.refl

theorem keeps_fail (error : Error) : Keeps (fail error : Action Error (Runtime P T S O) α) :=
  Follows.refl

theorem keeps_lift (r : Except Error α) : Keeps (lift r : Action Error (Runtime P T S O) α) :=
  Follows.refl

theorem keeps_modify {f : Runtime P T S O → Runtime P T S O} (h : ∀ rt, Follows rt (f rt)) :
    Keeps (modify f) := h

theorem keeps_ite {c : Prop} [Decidable c] {n : Action Error (Runtime P T S O) α} (h : Keeps m)
    (k : Keeps n) : Keeps (if c then m else n) := by
  split
  · exact h
  · exact k

end Keeping

section Runtime

variable [Protocol P S O] [Transport T]

theorem submit_keeps (command : Command) :
    Keeps (submit command : Action Error (Runtime P T S O) Delivery) := by
  intro rt
  refine ⟨[⟨rt.now, .submit command (Transport.submit rt.transport command).1⟩], rfl, ?_⟩
  exact run_singleton.mpr rfl

omit [Protocol P S O] in
theorem readEvent_keeps :
    Keeps (readEvent : Action Error (Runtime P T S O) (Option HostEvent)) := by
  intro rt
  refine ⟨[⟨rt.now, .event (Transport.event rt.transport).1⟩], rfl, ?_⟩
  exact run_singleton.mpr rfl

omit [Protocol P S O] in
theorem observe_follows (rt : Runtime P T S O) (output : O) : Follows rt (rt.observe output) := by
  unfold Runtime.observe
  split
  · exact follows_of_eq rfl rfl
  · exact follows_of_eq rfl rfl

omit [Protocol P S O] in
theorem observeOutput_follows (rt : Runtime P T S O) (output : Option O) :
    Follows rt (rt.observeOutput output) := by
  cases output with
  | none => exact .refl rt
  | some output => exact observe_follows rt output

theorem flushReply_keeps (now budget : ℕ) :
    Keeps (flushReply now budget : Action Error (Runtime P T S O) ℕ) := by
  refine keeps_get fun rt => ?_
  cases rt.reply with
  | none => exact keeps_pure _
  | some pending =>
    refine keeps_ite (keeps_fail _) (keeps_bind (submit_keeps _) fun delivery => ?_)
    cases delivery with
    | submitted => exact keeps_bind (keeps_modify fun _ => follows_of_eq rfl rfl) fun _ => keeps_pure _
    | definitelyUnsent => exact keeps_pure _
    | uncertain => exact keeps_fail _

theorem acceptRequest_keeps (request : Request) (now budget : ℕ) :
    Keeps (acceptRequest request now budget : Action Error (Runtime P T S O) ℕ) := by
  refine keeps_get fun rt => keeps_ite (keeps_fail _) ?_
  refine keeps_bind (keeps_modify fun _ => follows_record rfl rfl rfl) fun _ => ?_
  refine keeps_bind (keeps_lift _) fun _ => ?_
  refine keeps_bind (keeps_modify fun _ => follows_of_eq rfl rfl) fun _ => ?_
  refine keeps_bind (keeps_modify fun _ => observeOutput_follows _ _) fun _ => ?_
  exact flushReply_keeps now budget

theorem acceptOutput_keeps (report : Report) (now : ℕ) :
    Keeps (acceptOutput report now : Action Error (Runtime P T S O) Unit) := by
  refine keeps_get fun rt => ?_
  refine keeps_bind (keeps_modify fun _ => follows_record rfl rfl rfl) fun _ => ?_
  refine keeps_bind (keeps_lift _) fun output => ?_
  exact keeps_modify fun _ => observeOutput_follows _ _

theorem acceptLifecycle_keeps (event : Lifecycle) (now : ℕ) :
    Keeps (acceptLifecycle event now : Action Error (Runtime P T S O) Unit) := by
  refine keeps_bind (keeps_modify fun rt => ?_) fun _ => ?_
  · split
    · exact follows_of_eq rfl rfl
    · exact .refl rt
  refine keeps_get fun rt => ?_
  refine keeps_bind (keeps_modify fun _ => follows_record rfl rfl rfl) fun _ => ?_
  exact keeps_modify fun _ => observeOutput_follows _ _

theorem hostEvent_keeps (now budget : ℕ) :
    Keeps (hostEvent now budget : Action Error (Runtime P T S O) ℕ) := by
  refine keeps_get fun rt => keeps_ite (keeps_bind readEvent_keeps fun event => ?_) (keeps_pure _)
  rcases event with _ | request | report | event
  · exact keeps_pure _
  · exact acceptRequest_keeps request now budget
  · exact keeps_bind (acceptOutput_keeps report now) fun _ => keeps_pure _
  · exact keeps_bind (acceptLifecycle_keeps event now) fun _ => keeps_pure _

theorem drain_keeps (budget : ℕ) : Keeps (drain budget : Action Error (Runtime P T S O) ℕ) := by
  induction budget with
  | zero => exact keeps_pure _
  | succ budget ih =>
    refine keeps_get fun rt => ?_
    cases rt.pending with
    | nil => exact keeps_pure _
    | cons command rest =>
      refine keeps_bind (submit_keeps command) fun delivery => ?_
      cases delivery with
      | submitted => exact keeps_bind (keeps_modify fun _ => follows_of_eq rfl rfl) fun _ => ih
      | definitelyUnsent => exact keeps_pure _
      | uncertain => exact keeps_fail _

theorem generate_keeps (now : ℕ) :
    Keeps (generate now : Action Error (Runtime P T S O) Unit) := by
  refine keeps_get fun rt => ?_
  refine keeps_bind (keeps_modify fun _ => follows_record rfl rfl rfl) fun _ => ?_
  refine keeps_bind (keeps_lift _) fun reports => ?_
  refine keeps_ite (keeps_fail _) (keeps_ite (keeps_fail _) ?_)
  exact keeps_modify fun _ => follows_of_eq rfl rfl

omit [Protocol P S O] in
theorem takeObservations_keeps :
    Keeps (takeObservations (P := P) : Action Error (Runtime P T S O) (List O)) := by
  refine keeps_get fun rt => ?_
  exact keeps_bind (keeps_modify fun _ => follows_of_eq rfl rfl) fun _ => keeps_pure _

theorem serviceInner_keeps (now : ℕ) :
    Keeps (serviceInner now : Action Error (Runtime P T S O) (List O)) := by
  refine keeps_get fun rt => ?_
  refine keeps_bind (flushReply_keeps now _) fun budget => ?_
  refine keeps_bind (hostEvent_keeps now budget) fun budget => ?_
  refine keeps_bind (drain_keeps budget) fun budget => ?_
  refine keeps_get fun rt => keeps_ite ?_ takeObservations_keeps
  refine keeps_bind (generate_keeps now) fun _ => ?_
  exact keeps_bind (drain_keeps budget) fun _ => takeObservations_keeps

omit [Protocol P S O] in
theorem close_keeps : Keeps (close (P := P) : Action Error (Runtime P T S O) Unit) := by
  intro rt
  unfold close
  split
  · exact .refl rt
  · refine ⟨[⟨rt.now, .close (Transport.close rt.transport).1⟩], rfl, ?_⟩
    exact run_singleton.mpr rfl

theorem service_keeps (now : ℕ) :
    Keeps (service now : Action Error (Runtime P T S O) (List O)) := by
  intro rt
  unfold service
  split
  · exact .refl rt
  split
  · exact .refl rt
  have hentered : Follows rt { rt with now := now } := follows_of_eq rfl rfl
  have hinner := hentered.trans (serviceInner_keeps now { rt with now := now })
  split
  · next hrun =>
    rwa [hrun] at hinner
  · next error u hrun =>
    rw [hrun] at hinner
    split
    · exact hinner
    · exact hinner.trans (close_keeps u)

theorem update_keeps (edit : Action Error S Unit) :
    Keeps (update edit : Action Error (Runtime P T S O) Unit) := by
  refine keeps_get fun rt => keeps_ite (keeps_fail _) ?_
  split
  · exact keeps_fail _
  · split
    · exact keeps_fail _
    · exact keeps_modify fun _ => follows_of_eq rfl rfl

theorem updateProtocol_keeps (edit : Action Error P Unit) :
    Keeps (updateProtocol edit : Action Error (Runtime P T S O) Unit) := by
  refine keeps_get fun rt => keeps_ite (keeps_fail _) ?_
  split
  · exact keeps_fail _
  · split
    · exact keeps_fail _
    · exact keeps_modify fun _ => follows_record rfl rfl rfl

theorem perform_follows (op : Op P S) (rt : Runtime P T S O) : Follows rt (perform op rt) := by
  cases op with
  | update edit => exact update_keeps edit rt
  | updateProtocol edit => exact updateProtocol_keeps edit rt
  | service now => exact service_keeps now rt
  | takeObservations => exact takeObservations_keeps rt
  | close => exact close_keeps rt

theorem reachable_transport {protocol : P} {transport : T} {session : ℕ} {limits : Limits}
    {rt : Runtime P T S O} (h : Reachable protocol transport session limits rt) :
    Run TransportStep transport (transportCalls rt.calls) rt.transport := by
  induction h with
  | new hnew =>
    unfold Runtime.new at hnew
    simp only at hnew
    split at hnew
    · cases hnew
    · split at hnew
      · cases hnew
      · cases hnew
        exact .nil
  | step _ op ih =>
    rename_i rt _
    obtain ⟨calls, hcalls, hrun⟩ := perform_follows op rt
    rw [hcalls, transportCalls_append]
    exact ih.append hrun

end Runtime

end HidRuntimeTransport
