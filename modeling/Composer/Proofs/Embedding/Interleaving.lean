import Composer.Embedding.Declared
import Mathlib.Data.Sum.Basic

/-!
Two inclusions in one host, used in any order. What a use gives and does is read off the storage of
its inclusion alone: `Use.effect` says it without a host. A run of both inclusions is then the runs
of each by itself, interleaved, and the log of the host has the events of both in the order of the
uses.
-/

namespace Composer.Embedding

universe u

/-! ### What an action does, told by the storage alone -/

structure Effect (Storage Event : Type) (Result : Type u) where
  result : Result
  storage : Storage
  emitted : List Event

def Action.effect {Storage Event Result : Type} :
    Action Storage Event Result → Storage → Effect Storage Event Result
  | done result, storage => ⟨result, storage, []⟩
  | read next, storage => (next storage).effect storage
  | write written next, _ => next.effect written
  | emit event next, storage =>
      let rest := next.effect storage
      ⟨rest.result, rest.storage, event :: rest.emitted⟩

/-! ### Uses of an inclusion -/

/-- One use of an included component: a call through the wrapper for the host, a call on a view of
the host, or an event that is emitted through the slot. -/
inductive Use (Storage Event : Type) : Type 1 where
  | wrapped {Result : Type} (action : Action Storage Event Result)
  | direct {Result : Type} (action : Action Storage Event Result)
  | emit (event : Event)

namespace Use

variable {Storage Event : Type}

def Answer : Use Storage Event → Type
  | @wrapped _ _ Result _ => Result
  | @direct _ _ Result _ => Result
  | emit _ => Unit

def effect : (use : Use Storage Event) → Storage → Effect Storage Event use.Answer
  | wrapped action, storage => action.effect storage
  | direct action, storage => action.effect storage
  | emit event, storage => ⟨(), storage, [event]⟩

def perform {Host HostEvent : Type} [Contract Host HostEvent]
    (slot : Slot Host HostEvent Storage Event) :
    (use : Use Storage Event) → Host → use.Answer × Host
  | wrapped action, host => action.through slot host
  | direct action, host =>
      let (result, view) := action.on (slot.view host)
      (result, view.host)
  | emit event, host => ((), ((slot.view host).emit event).host)

abbrev Reply (Storage Event : Type) : Type 1 := (use : Use Storage Event) × use.Answer

def effects : List (Use Storage Event) → Storage → Effect Storage Event (List (Reply Storage Event))
  | [], storage => ⟨[], storage, []⟩
  | use :: rest, storage =>
      let first := use.effect storage
      let later := effects rest first.storage
      ⟨⟨use, first.result⟩ :: later.result, later.storage, first.emitted ++ later.emitted⟩

end Use

namespace Blueprint

variable {Host HostEvent : Type} [Contract Host HostEvent] {blueprint : Blueprint Host HostEvent}

namespace Inclusion

def run (inclusion : blueprint.Inclusion) :
    List (Use inclusion.Storage inclusion.Event) → Host →
      List (Use.Reply inclusion.Storage inclusion.Event) × Host
  | [], host => ([], host)
  | use :: rest, host =>
      let (answer, next) := use.perform inclusion.slot host
      let (replies, last) := inclusion.run rest next
      (⟨use, answer⟩ :: replies, last)

end Inclusion

def runBoth (one other : blueprint.Inclusion) :
    List (Use one.Storage one.Event ⊕ Use other.Storage other.Event) → Host →
      List (Use.Reply one.Storage one.Event ⊕ Use.Reply other.Storage other.Event) × Host
  | [], host => ([], host)
  | .inl use :: rest, host =>
      let (answer, next) := use.perform one.slot host
      let (replies, last) := runBoth one other rest next
      (.inl ⟨use, answer⟩ :: replies, last)
  | .inr use :: rest, host =>
      let (answer, next) := use.perform other.slot host
      let (replies, last) := runBoth one other rest next
      (.inr ⟨use, answer⟩ :: replies, last)

/-- The events that uses of two inclusions emit, where each goes on from the storage its own uses
have left. -/
def emittedByBoth {one other : blueprint.Inclusion} :
    List (Use one.Storage one.Event ⊕ Use other.Storage other.Event) →
      one.Storage → other.Storage → List (one.Event ⊕ other.Event)
  | [], _, _ => []
  | .inl use :: rest, storage, otherStorage =>
      let effect := use.effect storage
      effect.emitted.map .inl ++ emittedByBoth rest effect.storage otherStorage
  | .inr use :: rest, storage, otherStorage =>
      let effect := use.effect otherStorage
      effect.emitted.map .inr ++ emittedByBoth rest storage effect.storage

/-! ### One use on a host -/

/-- A host after an inclusion was used: only its own storage is another one, and the events are at
the end of the log. -/
structure Inclusion.Changes (inclusion : blueprint.Inclusion) (before after : Host)
    (storage : inclusion.Storage) (emitted : List inclusion.Event) : Prop where
  own : blueprint.get inclusion.field after = storage
  others : ∀ field, field ≠ inclusion.field → blueprint.get field after = blueprint.get field before
  log : blueprint.events after =
    blueprint.events before ++ emitted.map (blueprint.nest inclusion.variant)

namespace Inclusion

variable {inclusion : blueprint.Inclusion}

theorem changes_nothing (host : Host) :
    inclusion.Changes host host (blueprint.get inclusion.field host) [] :=
  ⟨rfl, fun _ _ => rfl, (List.append_nil _).symm⟩

theorem Changes.then {before between after : Host} {storage laterStorage : inclusion.Storage}
    {emitted laterEmitted : List inclusion.Event}
    (first : inclusion.Changes before between storage emitted)
    (later : inclusion.Changes between after laterStorage laterEmitted) :
    inclusion.Changes before after laterStorage (emitted ++ laterEmitted) where
  own := later.own
  others field elsewhere := (later.others field elsewhere).trans (first.others field elsewhere)
  log := by rw [later.log, first.log, List.map_append, List.append_assoc]

theorem changes_by_write (host : Host) (storage : inclusion.Storage) :
    inclusion.Changes host (inclusion.slot.setStorage host storage) storage [] where
  own := blueprint.get_set _ _ _
  others field elsewhere := blueprint.get_set_other _ field _ _ elsewhere
  log := (blueprint.events_set _ _ _).trans (List.append_nil _).symm

theorem changes_by_emit (host : Host) (event : inclusion.Event) :
    inclusion.Changes host (Contract.emit host (inclusion.slot.nest event))
      (blueprint.get inclusion.field host) [event] where
  own := blueprint.get_emit _ _ _
  others field _ := blueprint.get_emit field _ _
  log := blueprint.events_emit _ _

/-- An action on a host gives what its effect on the storage gives, and does no more. -/
theorem action_changes {Result : Type} (action : Action inclusion.Storage inclusion.Event Result)
    (host : Host) :
    let done := action.on (inclusion.slot.view host)
    let effect := action.effect (blueprint.get inclusion.field host)
    done.1 = effect.result ∧ inclusion.Changes host done.2.host effect.storage effect.emitted := by
  induction action generalizing host with
  | done result => exact ⟨rfl, changes_nothing host⟩
  | read next ih => exact ih (blueprint.get inclusion.field host) host
  | write storage next ih =>
      have written := changes_by_write host storage
      obtain ⟨result, later⟩ := ih (inclusion.slot.setStorage host storage)
      rw [written.own] at result later
      exact ⟨result, written.then later⟩
  | emit event next ih =>
      have emitted := changes_by_emit host event
      obtain ⟨result, later⟩ := ih (Contract.emit host (inclusion.slot.nest event))
      rw [emitted.own] at result later
      exact ⟨result, emitted.then later⟩

theorem use_changes (use : Use inclusion.Storage inclusion.Event) (host : Host) :
    let done := use.perform inclusion.slot host
    let effect := use.effect (blueprint.get inclusion.field host)
    done.1 = effect.result ∧ inclusion.Changes host done.2 effect.storage effect.emitted := by
  cases use with
  | wrapped action => exact action_changes action host
  | direct action => exact action_changes action host
  | emit event => exact ⟨rfl, changes_by_emit host event⟩

/-! ### Runs -/

theorem run_changes (uses : List (Use inclusion.Storage inclusion.Event)) (host : Host) :
    let done := inclusion.run uses host
    let effect := Use.effects uses (blueprint.get inclusion.field host)
    done.1 = effect.result ∧ inclusion.Changes host done.2 effect.storage effect.emitted := by
  induction uses generalizing host with
  | nil => exact ⟨rfl, changes_nothing host⟩
  | cons use rest ih =>
      obtain ⟨answer, first⟩ := use_changes use host
      obtain ⟨replies, later⟩ := ih (use.perform inclusion.slot host).2
      rw [first.own] at replies later
      refine ⟨?_, first.then later⟩
      simp only [run, Use.effects, answer, replies]

end Inclusion

/-! ### Runs of two inclusions -/

theorem filter_map_read_back {Item Wrapped : Type*} (wrap : Item → Wrapped)
    (read : Wrapped → Option Item) (reads : ∀ item, read (wrap item) = some item)
    (items : List Item) : (items.map wrap).filterMap read = items := by
  rw [List.filterMap_map, show read ∘ wrap = some from funext reads, List.filterMap_some]

theorem filter_map_unread {Item Wrapped Other : Type*} (wrap : Item → Wrapped)
    (read : Wrapped → Option Other) (unread : ∀ item, read (wrap item) = none)
    (items : List Item) : (items.map wrap).filterMap read = [] := by
  rw [List.filterMap_map, List.filterMap_eq_nil_iff]
  exact fun item _ => unread item

/-- Of the events of both, those of one inclusion are what its own uses emit. -/
theorem emitted_by_both_split {one other : blueprint.Inclusion}
    (uses : List (Use one.Storage one.Event ⊕ Use other.Storage other.Event))
    (storage : one.Storage) (otherStorage : other.Storage) :
    (emittedByBoth uses storage otherStorage).filterMap Sum.getLeft? =
        (Use.effects (uses.filterMap Sum.getLeft?) storage).emitted ∧
      (emittedByBoth uses storage otherStorage).filterMap Sum.getRight? =
        (Use.effects (uses.filterMap Sum.getRight?) otherStorage).emitted := by
  induction uses generalizing storage otherStorage with
  | nil => exact ⟨rfl, rfl⟩
  | cons use rest ih =>
      cases use with
      | inl use =>
          obtain ⟨left, right⟩ := ih (use.effect storage).storage otherStorage
          simp only [emittedByBoth, List.filterMap_append, List.filterMap_cons, Sum.getLeft?_inl,
            Sum.getRight?_inl, Use.effects, left, right]
          rw [filter_map_read_back .inl Sum.getLeft? fun _ => rfl,
            filter_map_unread .inl Sum.getRight? fun _ => rfl, List.nil_append]
          exact ⟨rfl, rfl⟩
      | inr use =>
          obtain ⟨left, right⟩ := ih storage (use.effect otherStorage).storage
          simp only [emittedByBoth, List.filterMap_append, List.filterMap_cons, Sum.getLeft?_inr,
            Sum.getRight?_inr, Use.effects, left, right]
          rw [filter_map_unread .inr Sum.getLeft? fun _ => rfl,
            filter_map_read_back .inr Sum.getRight? fun _ => rfl, List.nil_append]
          exact ⟨rfl, rfl⟩

structure BothChange (one other : blueprint.Inclusion) (before after : Host)
    (storage : one.Storage) (otherStorage : other.Storage)
    (emitted : List (one.Event ⊕ other.Event)) : Prop where
  own : blueprint.get one.field after = storage
  other_own : blueprint.get other.field after = otherStorage
  others : ∀ field, field ≠ one.field → field ≠ other.field →
    blueprint.get field after = blueprint.get field before
  log : blueprint.events after = blueprint.events before ++
    emitted.map (Sum.elim (blueprint.nest one.variant) (blueprint.nest other.variant))

section Both

variable {one other : blueprint.Inclusion} {before between after : Host}
  {storage laterStorage : one.Storage} {otherStorage laterOtherStorage : other.Storage}

theorem BothChange.then {emitted laterEmitted : List (one.Event ⊕ other.Event)}
    (first : BothChange one other before between storage otherStorage emitted)
    (later : BothChange one other between after laterStorage laterOtherStorage laterEmitted) :
    BothChange one other before after laterStorage laterOtherStorage (emitted ++ laterEmitted) where
  own := later.own
  other_own := later.other_own
  others field elsewhere otherwise :=
    (later.others field elsewhere otherwise).trans (first.others field elsewhere otherwise)
  log := by rw [later.log, first.log, List.map_append, List.append_assoc]

theorem Inclusion.Changes.left (fields_apart : one.field ≠ other.field)
    {emitted : List one.Event} (changes : one.Changes before after storage emitted) :
    BothChange one other before after storage (blueprint.get other.field before)
      (emitted.map .inl) where
  own := changes.own
  other_own := changes.others _ fields_apart.symm
  others field elsewhere _ := changes.others field elsewhere
  log := by rw [changes.log, List.map_map, Sum.elim_comp_inl]

theorem Inclusion.Changes.right (fields_apart : one.field ≠ other.field)
    {emitted : List other.Event} (changes : other.Changes before after otherStorage emitted) :
    BothChange one other before after (blueprint.get one.field before) otherStorage
      (emitted.map .inr) where
  own := changes.others _ fields_apart
  other_own := changes.own
  others field _ otherwise := changes.others field otherwise
  log := by rw [changes.log, List.map_map, Sum.elim_comp_inr]

/-- A run of both inclusions gives each the replies and the storage of its own uses. -/
theorem run_both_changes (fields_apart : one.field ≠ other.field)
    (uses : List (Use one.Storage one.Event ⊕ Use other.Storage other.Event)) (host : Host) :
    let done := runBoth one other uses host
    let own := Use.effects (uses.filterMap Sum.getLeft?) (blueprint.get one.field host)
    let others := Use.effects (uses.filterMap Sum.getRight?) (blueprint.get other.field host)
    done.1.filterMap Sum.getLeft? = own.result ∧ done.1.filterMap Sum.getRight? = others.result ∧
      BothChange one other host done.2 own.storage others.storage
        (emittedByBoth uses (blueprint.get one.field host) (blueprint.get other.field host)) := by
  induction uses generalizing host with
  | nil => exact ⟨rfl, rfl, rfl, rfl, fun _ _ _ => rfl, (List.append_nil _).symm⟩
  | cons use rest ih =>
      cases use with
      | inl use =>
          obtain ⟨answer, changes⟩ := Inclusion.use_changes use host
          have first := changes.left fields_apart
          obtain ⟨replies, otherReplies, later⟩ := ih (use.perform one.slot host).2
          rw [first.own] at replies
          rw [first.other_own] at otherReplies
          rw [first.own, first.other_own] at later
          refine ⟨?_, otherReplies, first.then later⟩
          simp only [runBoth, List.filterMap_cons, Sum.getLeft?_inl, Use.effects, answer, replies]
      | inr use =>
          obtain ⟨answer, changes⟩ := Inclusion.use_changes use host
          have first := changes.right fields_apart
          obtain ⟨replies, otherReplies, later⟩ := ih (use.perform other.slot host).2
          rw [first.own] at replies
          rw [first.other_own] at otherReplies
          rw [first.own, first.other_own] at later
          refine ⟨replies, ?_, first.then later⟩
          simp only [runBoth, List.filterMap_cons, Sum.getRight?_inr, Use.effects, answer,
            otherReplies]

/-! ### What an inclusion can tell -/

def Inclusion.logged (inclusion : blueprint.Inclusion) (host : Host) : List inclusion.Event :=
  (blueprint.events host).filterMap (blueprint.payload? inclusion.variant)

theorem Inclusion.Changes.logged {emitted : List one.Event}
    (changes : one.Changes before after storage emitted) :
    one.logged after = one.logged before ++ emitted := by
  simp only [Inclusion.logged]
  rw [changes.log, List.filterMap_append, filter_map_read_back _ _ (blueprint.payload_nest _)]

/-- What a reading of host events finds behind those that were there is what it finds in the events
of the inclusions. -/
theorem BothChange.logged {emitted : List (one.Event ⊕ other.Event)}
    (changes : BothChange one other before after storage otherStorage emitted) {Payload : Type}
    {read : HostEvent → Option Payload} (readBoth : one.Event ⊕ other.Event → Option Payload)
    (own : ∀ event, read (blueprint.nest one.variant event) = readBoth (.inl event))
    (others : ∀ event, read (blueprint.nest other.variant event) = readBoth (.inr event)) :
    (blueprint.events after).filterMap read =
      (blueprint.events before).filterMap read ++ emitted.filterMap readBoth := by
  have nested : read ∘ Sum.elim (blueprint.nest one.variant) (blueprint.nest other.variant) =
      readBoth := by
    funext event
    cases event with
    | inl event => exact own event
    | inr event => exact others event
  rw [changes.log, List.filterMap_append, List.filterMap_map, nested]

/-- Replies and a host after a run that are, for an inclusion, those of a run of its own uses. -/
structure Inclusion.Undisturbed (inclusion : blueprint.Inclusion)
    (uses : List (Use inclusion.Storage inclusion.Event)) (host : Host)
    (replies : List (Use.Reply inclusion.Storage inclusion.Event)) (last : Host) : Prop where
  replies : replies = (inclusion.run uses host).1
  storage :
    blueprint.get inclusion.field last = blueprint.get inclusion.field (inclusion.run uses host).2
  events : inclusion.logged last = inclusion.logged (inclusion.run uses host).2

/-- Replies, storage and events that the effect of the own uses says. -/
theorem Inclusion.undisturbed_of_effects {inclusion : blueprint.Inclusion}
    {uses : List (Use inclusion.Storage inclusion.Event)} {host last : Host}
    {replies : List (Use.Reply inclusion.Storage inclusion.Event)}
    (answered : replies = (Use.effects uses (blueprint.get inclusion.field host)).result)
    (own : blueprint.get inclusion.field last =
      (Use.effects uses (blueprint.get inclusion.field host)).storage)
    (log : inclusion.logged last = inclusion.logged host ++
      (Use.effects uses (blueprint.get inclusion.field host)).emitted) :
    inclusion.Undisturbed uses host replies last := by
  obtain ⟨alone, changes⟩ := Inclusion.run_changes uses host
  exact ⟨answered.trans alone.symm, own.trans changes.own.symm, log.trans changes.logged.symm⟩

/-- Two inclusions with a field and a variant of their own do not talk to each other, in whatever
order they are used. The host is told the events of both, nested and in the order of the uses, and
is otherwise as it was. Nothing depends on whether a call goes through the wrapper. -/
theorem interleaved_inclusions_do_not_cross_talk (one other : blueprint.Inclusion)
    (fields_apart : one.field ≠ other.field) (variants_apart : one.variant ≠ other.variant)
    (uses : List (Use one.Storage one.Event ⊕ Use other.Storage other.Event)) (host : Host) :
    let (replies, last) := runBoth one other uses host
    one.Undisturbed (uses.filterMap Sum.getLeft?) host (replies.filterMap Sum.getLeft?) last ∧
      other.Undisturbed (uses.filterMap Sum.getRight?) host (replies.filterMap Sum.getRight?)
        last ∧
      (∀ field, field ≠ one.field → field ≠ other.field →
        blueprint.get field last = blueprint.get field host) ∧
      blueprint.events last = blueprint.events host ++
        (emittedByBoth uses (blueprint.get one.field host) (blueprint.get other.field host)).map
          (Sum.elim (blueprint.nest one.variant) (blueprint.nest other.variant)) ∧
      ∀ (inclusion : blueprint.Inclusion) {Result : Type}
        (action : Action inclusion.Storage inclusion.Event Result) (host : Host),
        action.through inclusion.slot host =
          ((action.on (inclusion.slot.view host)).1,
            (action.on (inclusion.slot.view host)).2.host) := by
  obtain ⟨replies, otherReplies, changes⟩ := run_both_changes fields_apart uses host
  obtain ⟨own, others⟩ := emitted_by_both_split uses (blueprint.get one.field host)
    (blueprint.get other.field host)
  have log := changes.logged Sum.getLeft? (blueprint.payload_nest one.variant)
    fun event => blueprint.payload_nest_other _ _ event variants_apart
  have otherLog := changes.logged Sum.getRight?
    (fun event => blueprint.payload_nest_other _ _ event variants_apart.symm)
    (blueprint.payload_nest other.variant)
  rw [own] at log
  rw [others] at otherLog
  exact ⟨Inclusion.undisturbed_of_effects replies changes.own log,
    Inclusion.undisturbed_of_effects otherReplies changes.other_own otherLog,
    changes.others, changes.log, fun _ _ _ _ => rfl⟩

end Both

end Blueprint

namespace Vault

def fresh : Vault := ⟨⟨0, 100⟩, ⟨0, 10⟩, 7, []⟩

/-- Calls on both counters, of which the third and the fifth fail and the last only looks, and an
event without a call. -/
def mixedUses : List (Use primaryInclusion.Storage primaryInclusion.Event ⊕
    Use secondaryInclusion.Storage secondaryInclusion.Event) :=
  [.inl (.wrapped (Counter.increment 5)), .inr (.direct (Counter.increment 3)),
    .inr (.wrapped (Counter.increment 11)), .inl (.emit CounterEvent.reset),
    .inl (.direct (Counter.increment 0xFFFFFFFFFFFFFFFF)), .inr (.wrapped Counter.reset),
    .inl (.wrapped Action.storage)]

theorem counters_do_not_cross_talk :
    primaryInclusion.field ≠ secondaryInclusion.field ∧
      primaryInclusion.variant ≠ secondaryInclusion.variant ∧
      primaryInclusion.Undisturbed (mixedUses.filterMap Sum.getLeft?) fresh
        ((Blueprint.runBoth _ _ mixedUses fresh).1.filterMap Sum.getLeft?)
        (Blueprint.runBoth _ _ mixedUses fresh).2 ∧
      (Blueprint.runBoth _ _ mixedUses fresh).2 =
        { primary := ⟨5, 100⟩
          secondary := ⟨0, 10⟩
          owner := 7
          events := [.primary (.incremented 5 5), .secondary (.incremented 3 3), .primary .reset,
            .secondary .reset] } := by
  have fields_apart : primaryInclusion.field ≠ secondaryInclusion.field := nofun
  have variants_apart : primaryInclusion.variant ≠ secondaryInclusion.variant := nofun
  have apart := Blueprint.interleaved_inclusions_do_not_cross_talk primaryInclusion
    secondaryInclusion fields_apart variants_apart mixedUses fresh
  exact ⟨fields_apart, variants_apart, apart.1, rfl⟩

end Vault

end Composer.Embedding
