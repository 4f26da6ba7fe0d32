import Composer.Proofs.Embedding.Interleaving

/-!
The counter and its wrapper, method by method. The wrapper gives what the counter gives on the view of
the host. What a method does is told by the counter alone: a vault that it is called on, keeps its
other counter and its owner, and takes the events up under the variant of the slot.
-/

namespace Composer.Embedding

namespace Counter

section Slots

variable {Host HostEvent : Type} [Contract Host HostEvent]
  (slot : Slot Host HostEvent Counter CounterEvent)

/-- Each method of the wrapper gives the result of the same method on the view, and the host of the
view that is left. -/
theorem on_host_eq_on_view (host : Host) :
    (onHost slot).value host = (onView slot).value (slot.view host) ∧
      (∀ amount, (onHost slot).increment amount host =
        Prod.map id View.host ((onView slot).increment amount (slot.view host))) ∧
      (onHost slot).reset host = Prod.map id View.host ((onView slot).reset (slot.view host)) :=
  ⟨rfl, fun _ => rfl, rfl⟩

end Slots

theorem increment_effect (amount : UInt64) (counter : Counter) :
    (increment amount).effect counter = match counter.incremented? amount with
      | none => ⟨.error (.limitExceeded counter.limit), counter, []⟩
      | some total => ⟨.ok total, { counter with value := total }, [.incremented amount total]⟩ := by
  change Action.effect (match counter.incremented? amount with
    | none => _
    | some total => _) counter = _
  cases counter.incremented? amount <;> rfl

theorem reset_effect (counter : Counter) :
    reset.effect counter =
      if counter.value = 0 then ⟨.error .alreadyZero, counter, []⟩
      else ⟨.ok (), { counter with value := 0 }, [.reset]⟩ := by
  change Action.effect (if counter.value = 0 then _ else _) counter = _
  split <;> rfl

end Counter

namespace Vault

theorem eq_of_fields {one other : Vault} (primary : one.primary = other.primary)
    (secondary : one.secondary = other.secondary) (owner : one.owner = other.owner)
    (events : one.events = other.events) : one = other := by
  cases one
  cases other
  cases primary
  cases secondary
  cases owner
  cases events
  rfl

variable {Result : Type} (action : Action Counter CounterEvent Result) (vault : Vault)

/-- A call through the primary slot does to the vault what it does to the primary counter. -/
theorem primary_call :
    let effect := action.effect vault.primary
    action.through primarySlot vault =
      (effect.result, { vault with
        primary := effect.storage
        events := vault.events ++ effect.emitted.map .primary }) := by
  obtain ⟨result, own, others, log⟩ := @Blueprint.Inclusion.action_changes _ _ _ blueprint
    primaryInclusion _ action vault
  have other := others .secondary nofun
  have owner := others .owner nofun
  rw [← primary_slot_declared]
  exact Prod.ext result (eq_of_fields own other owner log)

/-- So does a call through the secondary slot. -/
theorem secondary_call :
    let effect := action.effect vault.secondary
    action.through secondarySlot vault =
      (effect.result, { vault with
        secondary := effect.storage
        events := vault.events ++ effect.emitted.map .secondary }) := by
  obtain ⟨result, own, others, log⟩ := @Blueprint.Inclusion.action_changes _ _ _ blueprint
    secondaryInclusion _ action vault
  have other := others .primary nofun
  have owner := others .owner nofun
  rw [← secondary_slot_declared]
  exact Prod.ext result (eq_of_fields other own owner log)

end Vault

end Composer.Embedding
