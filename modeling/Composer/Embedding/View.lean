/-!
How an included component meets its host at run time. A slot says where a host keeps the storage of
a component and how it nests the component's events among its own. A view is a host seen through a
slot; the host can be taken out of a view at any time.
-/

namespace Composer.Embedding

class Contract (Host : Type) (HostEvent : outParam Type) where
  emit : Host → HostEvent → Host

/-- One inclusion of a component in a host. Two inclusions of a component have two slots. -/
structure Slot (Host HostEvent Storage Event : Type) where
  storageField : String
  eventVariant : String
  storage : Host → Storage
  setStorage : Host → Storage → Host
  nest : Event → HostEvent

variable {Host HostEvent Storage Event : Type}

structure View (slot : Slot Host HostEvent Storage Event) where
  host : Host

namespace View

variable {slot : Slot Host HostEvent Storage Event}

def storage (view : View slot) : Storage := slot.storage view.host

def setStorage (view : View slot) (storage : Storage) : View slot :=
  ⟨slot.setStorage view.host storage⟩

def mapHost (view : View slot) (change : Host → Host) : View slot := ⟨change view.host⟩

/-- The view after an event of the component, which the host takes up under the slot's variant. -/
def emit [Contract Host HostEvent] (view : View slot) (event : Event) : View slot :=
  view.mapHost (Contract.emit · (slot.nest event))

end View

def Slot.view (slot : Slot Host HostEvent Storage Event) (host : Host) : View slot := ⟨host⟩

end Composer.Embedding
