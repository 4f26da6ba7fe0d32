import Composer.Embedding.View

/-!
Component code as a value: it reads the storage of its component, writes it and emits events, and
does nothing else. `Action.on` performs an action on a view, so component code reaches its host only
through the storage and the events of the slot. `Action.through` is the wrapper of an action for a
host: it makes the view, performs the action on it and gives the result unchanged.
-/

namespace Composer.Embedding

inductive Action (Storage Event Result : Type) where
  | done (result : Result)
  | read (next : Storage → Action Storage Event Result)
  | write (storage : Storage) (next : Action Storage Event Result)
  | emit (event : Event) (next : Action Storage Event Result)

namespace Action

variable {Storage Event Result Other : Type}

def andThen (action : Action Storage Event Result) (next : Result → Action Storage Event Other) :
    Action Storage Event Other :=
  match action with
  | done result => next result
  | read step => read fun storage => (step storage).andThen next
  | write storage step => write storage (step.andThen next)
  | emit event step => emit event (step.andThen next)

instance : Monad (Action Storage Event) where
  pure := done
  bind := andThen

def storage : Action Storage Event Storage := read done

def setStorage (storage : Storage) : Action Storage Event Unit := write storage (done ())

def announce (event : Event) : Action Storage Event Unit := emit event (done ())

variable {Host HostEvent : Type} [Contract Host HostEvent]
  {slot : Slot Host HostEvent Storage Event}

def on : Action Storage Event Result → View slot → Result × View slot
  | done result, view => (result, view)
  | read next, view => (next view.storage).on view
  | write storage next, view => next.on (view.setStorage storage)
  | emit event next, view => next.on (view.emit event)

/-- Performs an action on a host: the view through the slot is made, used and given up. -/
def through (slot : Slot Host HostEvent Storage Event) (action : Action Storage Event Result)
    (host : Host) : Result × Host :=
  let (result, view) := action.on (slot.view host)
  (result, view.host)

end Action

end Composer.Embedding
