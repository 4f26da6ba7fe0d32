import Composer.Embedding.Action

/-!
A component to include: a counter that never exceeds its limit. Its interface has one method that
looks and two that change. The interface exists on views, where it is the counter itself, and on
hosts, where it is a wrapper that calls the counter through a slot.
-/

namespace Composer.Embedding

structure Counter where
  value : UInt64
  limit : UInt64
deriving DecidableEq, Repr

inductive CounterEvent
  | incremented (amount total : UInt64)
  | reset
deriving DecidableEq, Repr

inductive CounterError
  | limitExceeded (limit : UInt64)
  | alreadyZero
deriving DecidableEq, Repr

def checkedAdd (a b : UInt64) : Option UInt64 :=
  if a.toNat + b.toNat < UInt64.size then some (a + b) else none

/-- The interface of a counter over some state: a method that changes the state gives the new one
along with its result. -/
structure CounterInterface (State : Type) where
  value : State → UInt64
  increment : UInt64 → State → Except CounterError UInt64 × State
  reset : State → Except CounterError Unit × State

namespace Counter

def incremented? (counter : Counter) (amount : UInt64) : Option UInt64 :=
  (checkedAdd counter.value amount).filter (· ≤ counter.limit)

def increment (amount : UInt64) : Action Counter CounterEvent (Except CounterError UInt64) := do
  let counter ← Action.storage
  match counter.incremented? amount with
  | none => return .error (.limitExceeded counter.limit)
  | some total =>
      Action.setStorage { counter with value := total }
      Action.announce (.incremented amount total)
      return .ok total

def reset : Action Counter CounterEvent (Except CounterError Unit) := do
  let counter ← Action.storage
  if counter.value = 0 then return .error .alreadyZero
  else
    Action.setStorage { counter with value := 0 }
    Action.announce .reset
    return .ok ()

variable {Host HostEvent : Type} [Contract Host HostEvent]

def onView (slot : Slot Host HostEvent Counter CounterEvent) : CounterInterface (View slot) :=
  { value := fun view => view.storage.value
    increment := fun amount => (increment amount).on
    reset := reset.on }

/-- The wrapper for a host, where each method goes through the slot. -/
def onHost (slot : Slot Host HostEvent Counter CounterEvent) : CounterInterface Host :=
  { value := fun host => (onView slot).value (slot.view host)
    increment := fun amount => (increment amount).through slot
    reset := reset.through slot }

end Counter

end Composer.Embedding
