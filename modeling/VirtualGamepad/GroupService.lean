import VirtualGamepad.HidRuntime
import Mathlib.Data.List.Sort

/-! A group of required components that are serviced and closed together. `calls` is a ghost
log of what the group asked of its components. -/
namespace GroupService

open Fallible HidRuntime

/-- A component with bounded service and terminal, idempotent close. -/
class ServicedComponent (C : Type) (O : outParam Type) where
  service : ℕ → Action Error C (List O)
  takeObservations : C → List O × C := fun c => ([], c)
  deadline : C → Option ℕ
  readiness : C → Option Readiness
  wantsWrite : C → Bool
  isClosed : C → Bool
  close : Action Error C Unit
  cleanupError : C → Option Error := fun _ => none

instance {P T S O : Type} [Protocol P S O] [Transport T] :
    ServicedComponent (Runtime P T S O) O where
  service := HidRuntime.service
  takeObservations rt := (rt.observations, { rt with observations := [] })
  deadline := Runtime.deadline
  readiness := Runtime.readiness
  wantsWrite := Runtime.wantsWrite
  isClosed := Runtime.closed
  close := HidRuntime.close
  cleanupError := Runtime.closeError

inductive Call where
  | service (role : ℕ)
  | takeObservations (role : ℕ)
  | close (role : ℕ)
  deriving DecidableEq, Repr

def maxOutputs : ℕ := 128

structure GroupCycle (O : Type) where
  outputs : List (ℕ × O)
  failures : List (ℕ × Error)
  omittedOutputs : ℕ

structure GroupOpenError where
  cleanupFailures : List (ℕ × Error)

structure RequiredGroup (C : Type) where
  components : List (ℕ × C)
  closed : Bool
  cleanupFailures : List (ℕ × Error)
  calls : List Call

namespace GroupCycle

variable {O : Type}

def observeOne (role : ℕ) (cycle : GroupCycle O) (output : O) : GroupCycle O :=
  if cycle.outputs.length < maxOutputs then
    { cycle with outputs := cycle.outputs ++ [(role, output)] }
  else { cycle with omittedOutputs := cycle.omittedOutputs + 1 }

def observe (role : ℕ) (outputs : List O) (cycle : GroupCycle O) : GroupCycle O :=
  outputs.foldl (observeOne role) cycle

def fail (role : ℕ) (failure : Option Error) (cycle : GroupCycle O) : GroupCycle O :=
  { cycle with failures := cycle.failures ++ (failure.map (role, ·)).toList }

end GroupCycle

variable {C O : Type} [ServicedComponent C O]

section Closing

/-- Components after a cleanup, with the failures and the calls in the order of the closes. -/
structure Cleanup (C : Type) where
  components : List (ℕ × C)
  failures : List (ℕ × Error)
  calls : List Call

/-- A component that closes without an error may still have one to report. -/
def closeOne (c : C) : Option Error × C :=
  match ServicedComponent.close c with
  | (.error e, c) => (some e, c)
  | (.ok (), c) => (ServicedComponent.cleanupError c, c)

/-- The last component is closed first. -/
def closeEach : List (ℕ × C) → Cleanup C
  | [] => ⟨[], [], []⟩
  | (role, c) :: rest =>
    let after := closeEach rest
    let (error, c) := closeOne c
    ⟨(role, c) :: after.components, after.failures ++ (error.map (role, ·)).toList,
      after.calls ++ [.close role]⟩

def close (g : RequiredGroup C) : RequiredGroup C :=
  if g.closed then g
  else
    let after := closeEach g.components
    { components := after.components
      closed := true
      cleanupFailures := g.cleanupFailures ++ after.failures
      calls := g.calls ++ after.calls }

end Closing

def sorted (components : List (ℕ × C)) : List (ℕ × C) := components.insertionSort (·.1 ≤ ·.1)

def repeated : List (ℕ × C) → Bool
  | first :: second :: rest => first.1 = second.1 || repeated (second :: rest)
  | _ => false

/-- An invalid topology is closed at once; the calls are returned as well. -/
def new (components : List (ℕ × C)) : Except GroupOpenError (RequiredGroup C) × List Call :=
  let components := sorted components
  if components = [] ∨ 32 < components.length ∨ repeated components then
    let after := closeEach components
    (.error ⟨after.failures⟩, after.calls)
  else (.ok ⟨components, false, [], []⟩, [])

/-- The group goes on after these. -/
def recoverable : Error → Bool
  | .queueFull | .invalidState | .timeReversed => true
  | _ => false

section Service

/-- What one service of a component came to. -/
structure Visit (C O : Type) where
  component : C
  outputs : List O
  failure : Option Error
  terminal : Bool

/-- Observations survive a failed service. -/
def serviceOne (now : ℕ) (c : C) : Visit C O :=
  match ServicedComponent.service now c with
  | (.ok outputs, c) =>
    if ServicedComponent.isClosed c then ⟨c, outputs, some .closed, true⟩
    else ⟨c, outputs, none, false⟩
  | (.error e, c) =>
    let (outputs, c) := ServicedComponent.takeObservations c
    ⟨c, outputs, some e, ServicedComponent.isClosed c || !recoverable e⟩

/-- The calls of one visit. -/
def visitCalls (now role : ℕ) (c : C) : List Call :=
  match (ServicedComponent.service now c).1 with
  | .ok _ => [.service role]
  | .error _ => [.service role, .takeObservations role]

structure Round (C O : Type) where
  components : List (ℕ × C)
  cycle : GroupCycle O
  calls : List Call
  stopped : Bool

/-- Each component once in role order, up to the first that is lost. -/
def serviceEach (now : ℕ) : List (ℕ × C) → GroupCycle O → Round C O
  | [], cycle => ⟨[], cycle, [], false⟩
  | (role, c) :: rest, cycle =>
    let visit := serviceOne now c
    let cycle := (cycle.observe role visit.outputs).fail role visit.failure
    if visit.terminal then ⟨(role, visit.component) :: rest, cycle, visitCalls now role c, true⟩
    else
      let round := serviceEach now rest cycle
      ⟨(role, visit.component) :: round.components, round.cycle,
        visitCalls now role c ++ round.calls, round.stopped⟩

def service (now : ℕ) : Action Error (RequiredGroup C) (GroupCycle O) := fun g =>
  if g.closed then (.error .closed, g)
  else
    let round := serviceEach now g.components ⟨[], [], 0⟩
    let g := { g with components := round.components, calls := g.calls ++ round.calls }
    (.ok round.cycle, if round.stopped then close g else g)

end Service

/-- Native edits remain on the controller's own component. -/
def edit (role : ℕ) (f : C → C) (g : RequiredGroup C) : RequiredGroup C :=
  if g.closed then g
  else { g with components := g.components.map fun c => if c.1 = role then (c.1, f c.2) else c }

def deadline (g : RequiredGroup C) : Option ℕ :=
  if g.closed then none
  else (g.components.filterMap fun c => ServicedComponent.deadline c.2).min?

def interests (g : RequiredGroup C) : List (ℕ × Readiness × Bool) :=
  if g.closed then []
  else g.components.filterMap fun c =>
    (ServicedComponent.readiness c.2).map fun r => (c.1, r, ServicedComponent.wantsWrite c.2)

inductive Op (C : Type) where
  | service (now : ℕ)
  | edit (role : ℕ) (f : C → C)
  | close

def perform (g : RequiredGroup C) : Op C → RequiredGroup C
  | .service now => (service now g).2
  | .edit role f => edit role f g
  | .close => close g

end GroupService
