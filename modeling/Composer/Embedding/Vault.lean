import Composer.Embedding.Counter

/-!
A host that includes the counter twice. Its events keep the order in which they were taken up.
-/

namespace Composer.Embedding

inductive VaultEvent
  | primary (event : CounterEvent)
  | secondary (event : CounterEvent)
  | ownerChanged (owner : UInt64)
deriving DecidableEq, Repr

structure Vault where
  primary : Counter
  secondary : Counter
  owner : UInt64
  events : List VaultEvent
deriving DecidableEq, Repr

namespace Vault

instance : Contract Vault VaultEvent where
  emit vault event := { vault with events := vault.events ++ [event] }

def primarySlot : Slot Vault VaultEvent Counter CounterEvent where
  storageField := "primary"
  eventVariant := "Primary"
  storage := Vault.primary
  setStorage vault counter := { vault with primary := counter }
  nest := .primary

def secondarySlot : Slot Vault VaultEvent Counter CounterEvent where
  storageField := "secondary"
  eventVariant := "Secondary"
  storage := Vault.secondary
  setStorage vault counter := { vault with secondary := counter }
  nest := .secondary

end Vault

end Composer.Embedding
