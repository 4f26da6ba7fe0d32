import Composer.Proofs.Surface.Refusal

/-!
The surface as a union in which the first of a name counts. `Host.offers` lists all entry points that
the embedded exposures bring, regardless of names, each with its exposure; those of a new name are
the entry points of the surface, and each other one is reported at its exposure.
-/

namespace Composer

structure Offer where
  exposure : Exposure
  entry : EntryPoint

namespace Offer

def name (offer : Offer) : String := offer.entry.name

/-- A method of a wrapper as an exposure brings it. Only methods that take a snapshot are views. -/
def ofMethod (exposure : Exposure) (wrapper : Wrapper) (method : WrapperMethod) : Offer where
  exposure := exposure
  entry :=
    { name := method.signature.name
      access := if method.signature.receiver = .snapshot then .view else .external
      params := method.signature.params
      ret := method.signature.ret
      component := wrapper.component
      aliasName := wrapper.aliasName
      exposure := exposure.localName }

def duplicate (host : Host) (offer : Offer) : Diagnostic :=
  .duplicateEntryPoint host.name offer.name offer.exposure.span

end Offer

namespace Diagnostic

def duplicates (diagnostics : List Diagnostic) : List Diagnostic :=
  diagnostics.filter fun diagnostic => diagnostic.code = .duplicateEntryPoint

def withoutDuplicates (diagnostics : List Diagnostic) : List Diagnostic :=
  diagnostics.filter fun diagnostic => diagnostic.code ≠ .duplicateEntryPoint

end Diagnostic

namespace Host

variable (host : Host) (registry : Registry) (generated : List (Option Generated))
  (contractState : String)

def takings (exposures : List Exposure) : List (Exposure × Wrapper) :=
  exposures.filterMap fun exposure =>
    match host.select registry generated contractState exposure with
    | .wrapper wrapper => some (exposure, wrapper)
    | .refused _ => none
    | .silent => none

def refusals (exposures : List Exposure) : List Diagnostic :=
  exposures.filterMap fun exposure =>
    match host.select registry generated contractState exposure with
    | .wrapper _ => none
    | .refused diagnostic => some diagnostic
    | .silent => none

/-- All methods of the wrappers that embedded exposures take, as entry points of these exposures. -/
def offers (exposures : List Exposure) : List Offer :=
  ((host.takings registry generated contractState exposures).filter (·.1.embedded)).flatMap
    fun taking => (taking.2.entryPoints taking.1.localName).map (Offer.mk taking.1)

variable {host registry generated contractState} {exposure : Exposure} {wrapper : Wrapper}

theorem offers_eq_methods (exposures : List Exposure) :
    host.offers registry generated contractState exposures =
      ((host.takings registry generated contractState exposures).filter (·.1.embedded)).flatMap
        fun taking => taking.2.methods.map (Offer.ofMethod taking.1 taking.2) := by
  have access (receiver : ReceiverKind) :
      Access.ofReceiver receiver = if receiver = .snapshot then .view else .external := by
    cases receiver <;> rfl
  simp only [offers, Wrapper.entryPoints, List.map_map, access]
  rfl

theorem takings_cons_of_wrapper (rest : List Exposure)
    (chosen : host.select registry generated contractState exposure = .wrapper wrapper) :
    host.takings registry generated contractState (exposure :: rest) =
      (exposure, wrapper) :: host.takings registry generated contractState rest := by
  rw [takings, List.filterMap_cons, chosen]
  rfl

theorem offers_cons_of_wrapper (rest : List Exposure)
    (chosen : host.select registry generated contractState exposure = .wrapper wrapper) :
    host.offers registry generated contractState (exposure :: rest) =
      (exposure.offers wrapper).map (Offer.mk exposure) ++
        host.offers registry generated contractState rest := by
  rw [offers, takings_cons_of_wrapper rest chosen, List.filter_cons, Exposure.offers]
  cases exposure.embedded <;> rfl

/-- Exposures that take nothing offer nothing. -/
theorem takings_cons_of_none (rest : List Exposure)
    (nothing : ∀ wrapper,
      host.select registry generated contractState exposure ≠ .wrapper wrapper) :
    host.takings registry generated contractState (exposure :: rest) =
      host.takings registry generated contractState rest := by
  rw [takings, List.filterMap_cons]
  cases chosen : host.select registry generated contractState exposure with
  | wrapper wrapper => exact absurd chosen (nothing wrapper)
  | refused _ => rfl
  | silent => rfl

theorem offers_cons_of_none (rest : List Exposure)
    (nothing : ∀ wrapper,
      host.select registry generated contractState exposure ≠ .wrapper wrapper) :
    host.offers registry generated contractState (exposure :: rest) =
      host.offers registry generated contractState rest := by
  rw [offers, takings_cons_of_none rest nothing]
  rfl

theorem refusal_code_ne {diagnostic : Diagnostic}
    (refused : host.select registry generated contractState exposure = .refused diagnostic) :
    diagnostic.code ≠ .duplicateEntryPoint := by
  cases select_refused_iff.mp refused <;>
    · rw [Diagnostic.code]
      decide

/-- What is offered is offered by the embedded exposures. -/
theorem offers_of_embedded (exposures : List Exposure) :
    host.offers registry generated contractState (exposures.filter (·.embedded)) =
      host.offers registry generated contractState exposures := by
  induction exposures with
  | nil => rfl
  | cons exposure rest ih =>
      cases chosen : host.select registry generated contractState exposure with
      | wrapper wrapper =>
          rw [offers_cons_of_wrapper rest chosen, ← ih, List.filter_cons, Exposure.offers]
          split_ifs with embedded
          · rw [offers_cons_of_wrapper _ chosen, Exposure.offers, if_pos embedded]
          · rfl
      | refused _ | silent =>
          have nothing : ∀ wrapper,
              host.select registry generated contractState exposure ≠ .wrapper wrapper := by
            simp [chosen]
          rw [offers_cons_of_none rest nothing, ← ih, List.filter_cons]
          split_ifs
          · exact offers_cons_of_none _ nothing
          · rfl

theorem reported_duplicates (host : Host) (repeats : List Offer) (others : List Diagnostic) :
    Diagnostic.duplicates (repeats.map (Offer.duplicate host) ++ others) =
        repeats.map (Offer.duplicate host) ++ Diagnostic.duplicates others ∧
      Diagnostic.withoutDuplicates (repeats.map (Offer.duplicate host) ++ others) =
        Diagnostic.withoutDuplicates others := by
  have own : ∀ offer, (Offer.duplicate host offer).code = .duplicateEntryPoint := fun _ => rfl
  unfold Diagnostic.duplicates Diagnostic.withoutDuplicates
  simp [own, List.filter_map, Function.comp_def]

/-- One exposure's part of a run: it offers its entries after those that are taken. -/
theorem offered_entries (host : Host) (taken : List String) (exposure : Exposure)
    (entries : List EntryPoint) :
    firstsAfter (·.name) taken entries =
        (occurring Offer.name false taken (entries.map (Offer.mk exposure))).map (·.entry) ∧
      (repeatsAfter (·.name) taken entries).map
          (fun entry => .duplicateEntryPoint host.name entry.name exposure.span) =
        (occurring Offer.name true taken (entries.map (Offer.mk exposure))).map
          (Offer.duplicate host) := by
  rcases occurring_after Offer.name taken (entries.map (Offer.mk exposure)) with ⟨others, first⟩
  rw [← others, ← first, firsts_after_map, repeats_after_map, List.map_map, List.map_map]
  exact ⟨(List.map_id _).symm, rfl⟩

variable (host registry generated contractState) in
/-- Where these names are taken, a surface has what the exposures take, as it comes, each offer of a
name that is not taken yet, and reports on every other offer and on what is refused. -/
structure Collects (taken : List String) (exposures : List Exposure) (surface : Surface) : Prop where
  exposed : surface.exposed =
    (host.takings registry generated contractState exposures).map fun taking =>
      taking.1.take taking.2
  entryPoints : surface.entryPoints =
    (occurring Offer.name false taken
      (host.offers registry generated contractState exposures)).map (·.entry)
  repeats : Diagnostic.duplicates surface.diagnostics =
    (occurring Offer.name true taken
      (host.offers registry generated contractState exposures)).map (Offer.duplicate host)
  refused : Diagnostic.withoutDuplicates surface.diagnostics =
    host.refusals registry generated contractState exposures

namespace Collects

variable {taken : List String} {rest : List Exposure} {surface : Surface}

theorem behind_silent
    (silent : host.select registry generated contractState exposure = .silent)
    (later : host.Collects registry generated contractState taken rest surface) :
    host.Collects registry generated contractState taken (exposure :: rest) surface := by
  have nothing : ∀ wrapper,
      host.select registry generated contractState exposure ≠ .wrapper wrapper := by
    simp [silent]
  refine ⟨?_, ?_, ?_, ?_⟩
  · rw [takings_cons_of_none rest nothing]
    exact later.exposed
  · rw [offers_cons_of_none rest nothing]
    exact later.entryPoints
  · rw [offers_cons_of_none rest nothing]
    exact later.repeats
  · rw [refusals, List.filterMap_cons, silent]
    exact later.refused

/-- A refusal is reported in front of what comes later, and is no repetition. -/
theorem behind_refused {diagnostic : Diagnostic}
    (refused : host.select registry generated contractState exposure = .refused diagnostic)
    (later : host.Collects registry generated contractState taken rest surface) :
    host.Collects registry generated contractState taken (exposure :: rest)
      { surface with diagnostics := diagnostic :: surface.diagnostics } := by
  have nothing : ∀ wrapper,
      host.select registry generated contractState exposure ≠ .wrapper wrapper := by
    simp [refused]
  have other := refusal_code_ne refused
  refine ⟨?_, ?_, ?_, ?_⟩
  · rw [takings_cons_of_none rest nothing]
    exact later.exposed
  · rw [offers_cons_of_none rest nothing]
    exact later.entryPoints
  · rw [offers_cons_of_none rest nothing, ← later.repeats]
    apply List.filter_cons_of_neg
    simpa using other
  · rw [refusals, List.filterMap_cons, refused]
    apply (List.filter_cons_of_pos _).trans
    · exact congrArg _ later.refused
    · simpa using other

/-- Whether the offers of a wrapper were kept or not, their names are taken behind it. -/
theorem behind_wrapper
    (chosen : host.select registry generated contractState exposure = .wrapper wrapper)
    (later : host.Collects registry generated contractState
      ((firstsAfter (·.name) taken (exposure.offers wrapper)).map (·.name) ++ taken) rest surface) :
    host.Collects registry generated contractState taken (exposure :: rest)
      { exposed := exposure.take wrapper :: surface.exposed
        entryPoints := firstsAfter (·.name) taken (exposure.offers wrapper) ++ surface.entryPoints
        diagnostics :=
          ((repeatsAfter (·.name) taken (exposure.offers wrapper)).map fun entry =>
            .duplicateEntryPoint host.name entry.name exposure.span) ++ surface.diagnostics } := by
  rcases host.offered_entries taken exposure (exposure.offers wrapper) with ⟨first, others⟩
  have known : ∀ wanted,
      wanted ∈ (firstsAfter (·.name) taken (exposure.offers wrapper)).map (·.name) ++ taken ↔
        wanted ∈ ((exposure.offers wrapper).map (Offer.mk exposure)).map Offer.name ++ taken := by
    intro wanted
    rw [first, List.map_map]
    exact mem_keys_of_unseen Offer.name taken _ wanted
  rcases host.reported_duplicates
    (occurring Offer.name true taken ((exposure.offers wrapper).map (Offer.mk exposure)))
    surface.diagnostics with ⟨own, foreign⟩
  refine ⟨?_, ?_, ?_, ?_⟩
  · rw [takings_cons_of_wrapper rest chosen, List.map_cons, later.exposed]
  · rw [offers_cons_of_wrapper rest chosen, occurring_append, List.map_append,
      ← occurring_congr _ _ known, ← later.entryPoints, first]
  · rw [offers_cons_of_wrapper rest chosen, occurring_append, List.map_append,
      ← occurring_congr _ _ known, ← later.repeats, others]
    exact own
  · rw [others, refusals, List.filterMap_cons, chosen]
    exact foreign.trans later.refused

end Collects

variable (host registry generated contractState) in
theorem surface_after_offers (taken : List String) (exposures : List Exposure) :
    host.Collects registry generated contractState taken exposures
      (host.surfaceAfter registry generated contractState taken exposures) := by
  induction exposures generalizing taken with
  | nil => exact ⟨rfl, rfl, rfl, rfl⟩
  | cons exposure rest ih =>
      cases chosen : host.select registry generated contractState exposure with
      | silent =>
          rw [surfaceAfter, chosen]
          exact .behind_silent chosen (ih taken)
      | refused diagnostic =>
          rw [surfaceAfter, chosen]
          exact .behind_refused chosen (ih taken)
      | wrapper wrapper =>
          rw [surfaceAfter, chosen]
          exact .behind_wrapper chosen (ih _)

variable (host registry generated contractState) in
/-- The surface is the union of what embedded exposures offer, the methods of the wrappers that they
take, in which the first of a name counts: the entry points are the offers of names that no earlier
offer has, and every other offer is reported where its exposure stands. Exposures that are not
embedded make no difference to either. -/
theorem surface_first_come :
    let surface := host.surface registry generated contractState
    let offers := host.offers registry generated contractState host.exposures
    let embedded := { host with exposures := host.exposures.filter (·.embedded) }
    surface.exposed =
        (host.takings registry generated contractState host.exposures).map (fun taking =>
          taking.1.take taking.2) ∧
      offers =
        ((host.takings registry generated contractState host.exposures).filter
          (·.1.embedded)).flatMap
            (fun taking => taking.2.methods.map (Offer.ofMethod taking.1 taking.2)) ∧
      surface.entryPoints = (unrepeated Offer.name offers).map (·.entry) ∧
      (surface.entryPoints.map (·.name)).Nodup ∧
      Diagnostic.duplicates surface.diagnostics =
        (repeated Offer.name offers).map (Offer.duplicate host) ∧
      Diagnostic.withoutDuplicates surface.diagnostics =
        host.refusals registry generated contractState host.exposures ∧
      (embedded.surface registry generated contractState).entryPoints = surface.entryPoints ∧
      Diagnostic.duplicates (embedded.surface registry generated contractState).diagnostics =
        Diagnostic.duplicates surface.diagnostics := by
  intro surface offers embedded
  rcases host.surface_after_offers registry generated contractState [] host.exposures
    with ⟨exposed, entries, repeats, refused⟩
  rcases embedded.surface_after_offers registry generated contractState [] embedded.exposures
    with ⟨_, embeddedEntries, embeddedRepeats, _⟩
  have same : embedded.offers registry generated contractState embedded.exposures = offers :=
    offers_of_embedded host.exposures
  rw [same] at embeddedEntries embeddedRepeats
  have listed : surface.entryPoints = (firstsBy Offer.name offers).map (·.entry) := by
    rw [firsts_by_eq_unrepeated]
    exact entries
  refine ⟨exposed, offers_eq_methods host.exposures, entries, ?_, repeats, refused, ?_, ?_⟩
  · rw [listed, List.map_map]
    exact firsts_by_distinct Offer.name offers
  · exact embeddedEntries.trans entries.symm
  · exact embeddedRepeats.trans repeats.symm

end Host

end Composer
