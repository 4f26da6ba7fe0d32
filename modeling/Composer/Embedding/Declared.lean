import Composer.Embedding.Vault

/-!
Slots as a program declares them: by a field of the host and a variant of its events. A blueprint is
what such a declaration can name. Its laws say that the fields of a host are kept apart, that a host
takes an event up at the end of its log and nowhere else, and that an event has one variant.
-/

namespace Composer.Embedding

structure Blueprint (Host HostEvent : Type) [Contract Host HostEvent] where
  Field : Type
  fieldName : Field → String
  Content : Field → Type
  get : (field : Field) → Host → Content field
  set : (field : Field) → Host → Content field → Host
  Variant : Type
  variantName : Variant → String
  Payload : Variant → Type
  nest : (variant : Variant) → Payload variant → HostEvent
  payload? : (variant : Variant) → HostEvent → Option (Payload variant)
  events : Host → List HostEvent
  get_set (field : Field) (host : Host) (content : Content field) :
    get field (set field host content) = content
  get_set_other (field other : Field) (host : Host) (content : Content field)
    (distinct : other ≠ field) : get other (set field host content) = get other host
  events_set (field : Field) (host : Host) (content : Content field) :
    events (set field host content) = events host
  get_emit (field : Field) (host : Host) (event : HostEvent) :
    get field (Contract.emit host event) = get field host
  events_emit (host : Host) (event : HostEvent) :
    events (Contract.emit host event) = events host ++ [event]
  payload_nest (variant : Variant) (payload : Payload variant) :
    payload? variant (nest variant payload) = some payload
  payload_nest_other (variant other : Variant) (payload : Payload variant)
    (distinct : other ≠ variant) : payload? other (nest variant payload) = none

structure Blueprint.Inclusion {Host HostEvent : Type} [Contract Host HostEvent]
    (blueprint : Blueprint Host HostEvent) where
  field : blueprint.Field
  variant : blueprint.Variant

namespace Blueprint.Inclusion

variable {Host HostEvent : Type} [Contract Host HostEvent] {blueprint : Blueprint Host HostEvent}

abbrev Storage (inclusion : blueprint.Inclusion) : Type := blueprint.Content inclusion.field

abbrev Event (inclusion : blueprint.Inclusion) : Type := blueprint.Payload inclusion.variant

def slot (inclusion : blueprint.Inclusion) :
    Slot Host HostEvent inclusion.Storage inclusion.Event where
  storageField := blueprint.fieldName inclusion.field
  eventVariant := blueprint.variantName inclusion.variant
  storage := blueprint.get inclusion.field
  setStorage := blueprint.set inclusion.field
  nest := blueprint.nest inclusion.variant

end Blueprint.Inclusion

namespace Vault

inductive Field
  | primary
  | secondary
  | owner
deriving DecidableEq, Repr

inductive Variant
  | primary
  | secondary
  | ownerChanged
deriving DecidableEq, Repr

def Field.name : Field → String
  | primary => "primary"
  | secondary => "secondary"
  | owner => "owner"

def Field.Content : Field → Type
  | primary => Counter
  | secondary => Counter
  | owner => UInt64

def Field.get : (field : Field) → Vault → field.Content
  | primary, vault => vault.primary
  | secondary, vault => vault.secondary
  | owner, vault => vault.owner

def Field.set : (field : Field) → Vault → field.Content → Vault
  | primary, vault, counter => { vault with primary := counter }
  | secondary, vault, counter => { vault with secondary := counter }
  | owner, vault, holder => { vault with owner := holder }

def Variant.name : Variant → String
  | primary => "Primary"
  | secondary => "Secondary"
  | ownerChanged => "OwnerChanged"

def Variant.Payload : Variant → Type
  | primary => CounterEvent
  | secondary => CounterEvent
  | ownerChanged => UInt64

def Variant.nest : (variant : Variant) → variant.Payload → VaultEvent
  | primary => VaultEvent.primary
  | secondary => VaultEvent.secondary
  | ownerChanged => VaultEvent.ownerChanged

def Variant.payload? : (variant : Variant) → VaultEvent → Option variant.Payload
  | primary, .primary event => some event
  | secondary, .secondary event => some event
  | ownerChanged, .ownerChanged holder => some holder
  | _, _ => none

def blueprint : Blueprint Vault VaultEvent where
  Field := Field
  fieldName := Field.name
  Content := Field.Content
  get := Field.get
  set := Field.set
  Variant := Variant
  variantName := Variant.name
  Payload := Variant.Payload
  nest := Variant.nest
  payload? := Variant.payload?
  events := Vault.events
  get_set field _ _ := by cases field <;> rfl
  get_set_other field other _ _ distinct := by
    cases field <;> cases other <;> first | rfl | exact absurd rfl distinct
  events_set field _ _ := by cases field <;> rfl
  get_emit field _ _ := by cases field <;> rfl
  events_emit _ _ := rfl
  payload_nest variant _ := by cases variant <;> rfl
  payload_nest_other variant other _ distinct := by
    cases variant <;> cases other <;> first | rfl | exact absurd rfl distinct

def primaryInclusion : blueprint.Inclusion := ⟨.primary, .primary⟩

def secondaryInclusion : blueprint.Inclusion := ⟨.secondary, .secondary⟩

/-- The slots of the vault are those that its fields and variants declare. -/
theorem primary_slot_declared : primaryInclusion.slot = primarySlot := rfl

theorem secondary_slot_declared : secondaryInclusion.slot = secondarySlot := rfl

end Vault

end Composer.Embedding
