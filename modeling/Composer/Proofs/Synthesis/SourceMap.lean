import Composer.Proofs.Compilation.Completeness
import Composer.Proofs.Compilation.Success
import Mathlib.Algebra.BigOperators.Group.List.Basic
import Mathlib.Algebra.GroupWithZero.Nat

/-!
Source maps against generated code. Accessors and wrappers are linked where they are generated, one
link for each. Entry points are linked afterwards, through the local name of the exposure that brought
them; this finds the right exposure and no other just where no second exposed wrapper has the local
name, which nothing in a compilation sees to.
-/

namespace Composer

def SourceMap.ofKind (map : SourceMap) (kind : GeneratedKind) : List SourceLink :=
  map.links.filter (·.kind = kind)

namespace Host

/-! ### Accessors and wrappers -/

def AccessorTraced (host : Host) (contractState : String) (accessor : Accessor)
    (link : SourceLink) : Prop :=
  ∃ inclusion ∈ host.inclusions, accessor.Serves host contractState inclusion ∧
    link = { item := accessor.name, kind := .accessor, file := host.file, span := inclusion.span }

/-- The link of a wrapper leads to the implementation of that alias, in the file of its component. -/
def WrapperTraced (registry : Registry) (wrapper : Wrapper) (link : SourceLink) : Prop :=
  ∃ component, registry.get? wrapper.component = some component ∧
    ∃ impl ∈ component.embeddable, impl.aliasName = some wrapper.aliasName ∧
      link = { item := wrapper.aliasName, kind := .wrapper, file := component.file,
               span := impl.span }

section Inclusions

variable {host : Host} {registry : Registry} {contractState : String}

theorem wrapper_links_traced {inclusion : Inclusion} {component : Component}
    (found : registry.get? inclusion.component = some component)
    {impls : List Implementation} {wrappers : List Wrapper}
    (embeddable : ∀ impl ∈ impls, impl ∈ component.embeddable)
    (wrapped : List.Forall₂
      (fun impl wrapper => wrapper.Serves registry contractState inclusion impl) impls wrappers) :
    List.Forall₂ (WrapperTraced registry) wrappers (wrappers.map fun wrapper =>
      { item := wrapper.aliasName, kind := .wrapper, file := component.file,
        span := wrapper.span }) := by
  induction wrapped with
  | nil => exact .nil
  | @cons impl wrapper impls wrappers serves _ ih =>
      rcases List.forall_mem_cons.mp embeddable with ⟨member, others⟩
      refine .cons ⟨component, ?_, impl, member, serves.aliasName, ?_⟩ (ih others)
      · rw [serves.component, found]
      · simp only [serves.span]

/-- The links of one inclusion: its accessor and its wrappers, each once and in order. -/
theorem links_of_yields {inclusion : Inclusion} (member : inclusion ∈ host.inclusions)
    {verdict : Verdict} {produced : Option Generated}
    (yields : host.Yields registry contractState inclusion verdict produced) :
    let links := host.inclusionLinks registry inclusion produced
    List.Forall₂ (host.AccessorTraced contractState) (produced.toList.map (·.accessor))
        (links.filter (·.kind = .accessor)) ∧
      List.Forall₂ (WrapperTraced registry) (produced.toList.flatMap (·.wrappers))
        (links.filter (·.kind = .wrapper)) ∧
      links.filter (·.kind = .entryPoint) = [] := by
  cases yields with
  | invalid => exact ⟨.nil, .nil, rfl⟩
  | accessorOnly serves => exact ⟨.cons ⟨inclusion, member, serves, rfl⟩ .nil, .nil, rfl⟩
  | @valid accessor wrappers serves wrapped =>
      cases found : registry.get? inclusion.component with
      | none =>
          simp only [Registry.embeddableOf, found, List.forall₂_nil_left_iff] at wrapped
          subst wrapped
          exact ⟨.cons ⟨inclusion, member, serves, rfl⟩ .nil, .nil, rfl⟩
      | some component =>
          rw [Registry.embeddableOf, found] at wrapped
          have traced := wrapper_links_traced found (fun _ present => present) wrapped
          simp only [inclusionLinks, found, Option.map_some, Option.getD_some,
            Option.toList_some, List.map_cons, List.map_nil, List.flatMap_cons, List.flatMap_nil,
            List.append_nil, List.filter_cons, List.filter_map, Function.comp_def]
          simp only [reduceCtorEq, decide_true, decide_false, if_true, if_false, List.filter_true,
            List.filter_false, List.map_nil, Bool.false_eq_true, and_true]
          exact ⟨.cons ⟨inclusion, member, serves, rfl⟩ .nil, traced⟩

theorem links_of_all_yields {pairs : List (Inclusion × Verdict)}
    {produce : Inclusion × Verdict → Option Generated}
    (included : ∀ pair ∈ pairs, pair.1 ∈ host.inclusions)
    (yields : ∀ pair ∈ pairs, host.Yields registry contractState pair.1 pair.2 (produce pair)) :
    let links := pairs.flatMap fun pair => host.inclusionLinks registry pair.1 (produce pair)
    let generated := (pairs.map produce).filterMap id
    List.Forall₂ (host.AccessorTraced contractState) (generated.map (·.accessor))
        (links.filter (·.kind = .accessor)) ∧
      List.Forall₂ (WrapperTraced registry) (generated.flatMap (·.wrappers))
        (links.filter (·.kind = .wrapper)) ∧
      links.filter (·.kind = .entryPoint) = [] := by
  induction pairs with
  | nil => exact ⟨.nil, .nil, rfl⟩
  | cons pair rest ih =>
      rcases List.forall_mem_cons.mp yields with ⟨first, later⟩
      rcases List.forall_mem_cons.mp included with ⟨member, restIncluded⟩
      obtain ⟨accessors, wrappers, entries⟩ := ih restIncluded later
      obtain ⟨accessor, wrapped, none⟩ := links_of_yields member first
      have head : ((pair :: rest).map produce).filterMap id =
          (produce pair).toList ++ (rest.map produce).filterMap id := by
        rw [List.map_cons]
        cases produce pair <;> rfl
      dsimp only at accessor wrapped none ⊢
      simp only [head, List.flatMap_cons, List.filter_append, List.map_append,
        List.flatMap_append, none, entries, List.append_nil, and_true]
      exact ⟨List.rel_append accessor accessors, List.rel_append wrapped wrappers⟩

end Inclusions

/-! ### Entry points -/

section Exposures

variable (host : Host) (registry : Registry) (generated : List (Option Generated))
  (contractState : String)

def offered (exposure : Exposure) : List EntryPoint :=
  match host.select registry generated contractState exposure with
  | .wrapper wrapper => exposure.offers wrapper
  | _ => []

/-- Among exposures, the one that an entry point of a name comes from: the first to bring it. -/
def contributorIn? (exposures : List Exposure) (name : String) : Option Exposure :=
  exposures.find? fun exposure =>
    (host.offered registry generated contractState exposure).any (·.name = name)

/-- The link of an entry point leads to the exposure that the entry point comes from. -/
def EntryTraced (entry : EntryPoint) (link : SourceLink) : Prop :=
  ∃ exposure, host.contributorIn? registry generated contractState host.exposures entry.name =
      some exposure ∧
    link = { item := entry.name, kind := .entryPoint, file := host.file, span := exposure.span }

variable {host registry generated contractState}

theorem Exposure.offers_exposure {exposure : Exposure} {wrapper : Wrapper} {entry : EntryPoint}
    (member : entry ∈ exposure.offers wrapper) : entry.exposure = exposure.localName := by
  unfold Exposure.offers at member
  split_ifs at member
  · rcases List.mem_map.mp member with ⟨method, _, rfl⟩
    rfl
  · cases member

theorem contributor_in_cons_of_offered {exposure : Exposure} {rest : List Exposure}
    {entry : EntryPoint}
    (member : entry ∈ host.offered registry generated contractState exposure) :
    host.contributorIn? registry generated contractState (exposure :: rest) entry.name =
      some exposure := by
  have holds : (host.offered registry generated contractState exposure).any
      (·.name = entry.name) = true := by
    rw [List.any_eq_true]
    exact ⟨entry, member, by simp⟩
  rw [contributorIn?, List.find?_cons_of_pos (by simpa using holds)]

theorem contributor_in_cons_of_not_offered {exposure : Exposure} {rest : List Exposure}
    {name : String}
    (absent : name ∉ (host.offered registry generated contractState exposure).map (·.name)) :
    host.contributorIn? registry generated contractState (exposure :: rest) name =
      host.contributorIn? registry generated contractState rest name := by
  have fails : ¬(host.offered registry generated contractState exposure).any
      (·.name = name) = true := by
    rw [List.any_eq_true]
    intro found
    rcases found with ⟨entry, member, named⟩
    exact absent (List.mem_map.mpr ⟨entry, member, of_decide_eq_true named⟩)
  rw [contributorIn?, List.find?_cons_of_neg (by simpa using fails)]
  rfl

variable (host registry generated contractState) in
/-- What an exposed wrapper brought: entry points under its local name that were not taken and that
come from an exposure of the same place. -/
def Brought (taken : List String) (exposures : List Exposure)
    (part : Exposed × List EntryPoint) : Prop :=
  ∀ entry ∈ part.2, entry.exposure = part.1.localName ∧ entry.name ∉ taken ∧
    ∃ exposure, host.contributorIn? registry generated contractState exposures entry.name =
        some exposure ∧ exposure.span = part.1.span

/-- An exposure before changes nothing where all that it offers was taken in between. -/
theorem Brought.behind {taken takenLater : List String} {exposure : Exposure}
    {rest : List Exposure} {part : Exposed × List EntryPoint}
    (brought : host.Brought registry generated contractState takenLater rest part)
    (grows : taken ⊆ takenLater)
    (offered : (host.offered registry generated contractState exposure).map (·.name) ⊆
      takenLater) :
    host.Brought registry generated contractState taken (exposure :: rest) part := by
  intro entry member
  obtain ⟨named, untaken, found⟩ := brought entry member
  rw [contributor_in_cons_of_not_offered fun repeated => untaken (offered repeated)]
  exact ⟨named, fun earlier => untaken (grows earlier), found⟩

variable (host registry generated contractState) in
structure MadeOf (taken : List String) (exposures : List Exposure) (surface : Surface)
    (parts : List (Exposed × List EntryPoint)) : Prop where
  exposed : surface.exposed = parts.map (·.1)
  entryPoints : surface.entryPoints = parts.flatMap (·.2)
  brought : ∀ part ∈ parts, host.Brought registry generated contractState taken exposures part

namespace MadeOf

variable {taken : List String} {exposure : Exposure} {rest : List Exposure}
  {surface more : Surface} {parts : List (Exposed × List EntryPoint)}

theorem behind_nothing
    (made : host.MadeOf registry generated contractState taken rest surface parts)
    (nothing : host.offered registry generated contractState exposure = [])
    (exposed : more.exposed = surface.exposed)
    (entryPoints : more.entryPoints = surface.entryPoints) :
    host.MadeOf registry generated contractState taken (exposure :: rest) more parts := by
  refine ⟨exposed.trans made.exposed, entryPoints.trans made.entryPoints, ?_⟩
  intro part member
  apply (made.brought part member).behind (List.Subset.refl _)
  rw [nothing]
  exact List.nil_subset _

/-- The names that a wrapper offers are taken behind it, so no later part is under one of them. -/
theorem behind_wrapper {wrapper : Wrapper}
    (chosen : host.select registry generated contractState exposure = .wrapper wrapper)
    (made : host.MadeOf registry generated contractState
      ((firstsAfter (·.name) taken (exposure.offers wrapper)).map (·.name) ++ taken) rest surface
      parts)
    (exposed : more.exposed = exposure.take wrapper :: surface.exposed)
    (entryPoints : more.entryPoints =
      firstsAfter (·.name) taken (exposure.offers wrapper) ++ surface.entryPoints) :
    host.MadeOf registry generated contractState taken (exposure :: rest) more
      ((exposure.take wrapper, firstsAfter (·.name) taken (exposure.offers wrapper)) :: parts) := by
  have offers : host.offered registry generated contractState exposure =
      exposure.offers wrapper := by
    rw [offered, chosen]
  refine ⟨?_, ?_, List.forall_mem_cons.mpr ⟨?_, ?_⟩⟩
  · rw [exposed, made.exposed, List.map_cons]
  · rw [entryPoints, made.entryPoints, List.flatMap_cons]
  · intro entry present
    obtain ⟨brought, untaken⟩ := firsts_after_unseen _ _ _ entry present
    refine ⟨Exposure.offers_exposure brought, untaken, exposure, ?_, rfl⟩
    exact contributor_in_cons_of_offered (offers ▸ brought)
  · intro part member
    apply (made.brought part member).behind (List.subset_append_right _ _)
    rw [offers]
    intro name repeated
    rcases List.mem_map.mp repeated with ⟨other, offered, rfl⟩
    exact key_mem_firsts_after (·.name) taken _ other offered

end MadeOf

variable (host registry generated contractState) in
theorem surface_after_parts (taken : List String) (exposures : List Exposure) :
    ∃ parts, host.MadeOf registry generated contractState taken exposures
      (host.surfaceAfter registry generated contractState taken exposures) parts := by
  induction exposures generalizing taken with
  | nil => exact ⟨[], rfl, rfl, nofun⟩
  | cons exposure rest ih =>
      cases chosen : host.select registry generated contractState exposure with
      | silent =>
          obtain ⟨parts, made⟩ := ih taken
          rw [surfaceAfter, chosen]
          exact ⟨parts, made.behind_nothing (by rw [offered, chosen]) rfl rfl⟩
      | refused diagnostic =>
          obtain ⟨parts, made⟩ := ih taken
          rw [surfaceAfter, chosen]
          exact ⟨parts, made.behind_nothing (by rw [offered, chosen]) rfl rfl⟩
      | wrapper wrapper =>
          obtain ⟨parts, made⟩ :=
            ih ((firstsAfter (·.name) taken (exposure.offers wrapper)).map (·.name) ++ taken)
          rw [surfaceAfter, chosen]
          exact ⟨_, .behind_wrapper chosen made rfl rfl⟩

/-! ### Local names -/

/-- Where a local name with entry points names one exposed wrapper only, the entry points under the
local name of a wrapper are those that it brought. -/
theorem entries_of_local_name {parts : List (Exposed × List EntryPoint)}
    (own : ∀ part ∈ parts, ∀ entry ∈ part.2, entry.exposure = part.1.localName)
    (unshared : ∀ entry ∈ parts.flatMap (·.2),
      ((parts.map (·.1)).filter (·.localName = entry.exposure)).length = 1) :
    ∀ part ∈ parts,
      (parts.flatMap (·.2)).filter (·.exposure = part.1.localName) = part.2 := by
  intro part member
  obtain ⟨before, after, split⟩ := List.append_of_mem member
  -- Any other wrapper under the same local name would be a second one for its own entry points.
  have foreign : ∀ other ∈ before ++ after, ∀ entry ∈ other.2,
      ¬entry.exposure = part.1.localName := by
    intro other elsewhere entry brought same
    have present : other ∈ parts := by
      rw [split]
      rcases List.mem_append.mp elsewhere with first | last
      · exact List.mem_append_left _ first
      · exact List.mem_append_right _ (List.mem_cons_of_mem _ last)
    have named := own other present entry brought
    have once := unshared entry (List.mem_flatMap.mpr ⟨other, present, brought⟩)
    have second : 0 < (((before ++ after).map (·.1)).filter
        (·.localName = entry.exposure)).length := by
      rw [List.length_pos_iff_exists_mem]
      exact ⟨other.1, List.mem_filter.mpr
        ⟨List.mem_map.mpr ⟨other, elsewhere, rfl⟩, by simp [named]⟩⟩
    rw [split] at once
    simp only [List.map_append, List.map_cons, List.filter_append, List.filter_cons, ← same,
      decide_true, if_true, List.length_append, List.length_cons] at once second
    omega
  have none : ∀ others : List (Exposed × List EntryPoint),
      (∀ other ∈ others, other ∈ before ++ after) →
        (others.flatMap (·.2)).filter (·.exposure = part.1.localName) = [] := by
    intro others elsewhere
    rw [List.filter_eq_nil_iff]
    intro entry brought
    rcases List.mem_flatMap.mp brought with ⟨other, present, from_other⟩
    simpa using foreign other (elsewhere other present) entry from_other
  have all : part.2.filter (·.exposure = part.1.localName) = part.2 := by
    rw [List.filter_eq_self]
    intro entry brought
    simpa using own part member entry brought
  rw [split, List.flatMap_append, List.flatMap_cons, List.filter_append, List.filter_append, all,
    none before fun other present => List.mem_append_left _ present,
    none after fun other present => List.mem_append_right _ present]
  simp

theorem sum_filter_lengths {First Second : Type} (related : First → Second → Bool)
    (firsts : List First) (seconds : List Second) :
    (firsts.map fun first => (seconds.filter (related first)).length).sum =
      (seconds.map fun second => (firsts.filter (related · second)).length).sum := by
  induction firsts with
  | nil => simp
  | cons first rest ih =>
      rw [List.map_cons, List.sum_cons, ih]
      clear ih
      induction seconds with
      | nil => rfl
      | cons second others ih =>
          simp only [List.filter_cons, List.map_cons, List.sum_cons] at ih ⊢
          cases related first second with
          | true => simp only [if_true, List.length_cons]; omega
          | false => simp only [Bool.false_eq_true, if_false]; omega

theorem eq_one_of_sum_eq_length {numbers : List Nat} (positive : ∀ number ∈ numbers, 1 ≤ number)
    (total : numbers.sum = numbers.length) : ∀ number ∈ numbers, number = 1 := by
  induction numbers with
  | nil => simp
  | cons number rest ih =>
      rcases List.forall_mem_cons.mp positive with ⟨here, later⟩
      have bound := List.length_le_sum_of_one_le rest later
      rw [List.sum_cons, List.length_cons] at total
      exact List.forall_mem_cons.mpr ⟨by omega, ih later (by omega)⟩

/-- Entry points are linked once for each exposed wrapper under their local name. -/
theorem entry_point_links_length (surface : Surface) :
    (host.entryPointLinks surface).length = (surface.entryPoints.map fun entry =>
      (surface.exposed.filter (·.localName = entry.exposure)).length).sum := by
  have swapped := sum_filter_lengths
    (fun (exposed : Exposed) (entry : EntryPoint) => decide (entry.exposure = exposed.localName))
    surface.exposed surface.entryPoints
  simp only [entryPointLinks, List.length_flatMap, List.length_map, swapped]
  simp only [@eq_comm _ _ (Exposed.localName _)]

section Parts

variable {surface : Surface} {parts : List (Exposed × List EntryPoint)}
  (made : host.MadeOf registry generated contractState [] host.exposures surface parts)
include made

/-- There is a link for each entry point and each exposed wrapper under its local name, so as many
links as entry points leave room for one such wrapper each. -/
theorem unshared_of_traced (traced : List.Forall₂
      (host.EntryTraced registry generated contractState) surface.entryPoints
      (host.entryPointLinks surface)) :
    ∀ entry ∈ surface.entryPoints,
      (surface.exposed.filter (·.localName = entry.exposure)).length = 1 := by
  have positive : ∀ number ∈ surface.entryPoints.map fun entry =>
      (surface.exposed.filter (·.localName = entry.exposure)).length, 1 ≤ number := by
    intro number counted
    rcases List.mem_map.mp counted with ⟨entry, member, rfl⟩
    rw [made.entryPoints] at member
    rcases List.mem_flatMap.mp member with ⟨part, present, from_part⟩
    have named := (made.brought part present entry from_part).1
    apply List.length_pos_iff_exists_mem.mpr
    rw [made.exposed]
    exact ⟨part.1, List.mem_filter.mpr ⟨List.mem_map.mpr ⟨part, present, rfl⟩, by simp [named]⟩⟩
  have total := (entry_point_links_length surface).symm.trans traced.length_eq.symm
  have each := eq_one_of_sum_eq_length positive (total.trans (List.length_map _).symm)
  exact fun entry member => each _ (List.mem_map.mpr ⟨entry, member, rfl⟩)

theorem traced_of_unshared (unshared : ∀ entry ∈ surface.entryPoints,
      (surface.exposed.filter (·.localName = entry.exposure)).length = 1) :
    List.Forall₂ (host.EntryTraced registry generated contractState) surface.entryPoints
      (host.entryPointLinks surface) := by
  obtain ⟨exposed, entries, brought⟩ := made
  rw [exposed, entries] at unshared
  have own := fun part member entry present => (brought part member entry present).1
  have links : host.entryPointLinks surface = parts.flatMap fun part =>
      part.2.map fun entry =>
        { item := entry.name, kind := .entryPoint, file := host.file, span := part.1.span } := by
    rw [entryPointLinks, exposed, entries, List.flatMap_map]
    apply List.flatMap_congr
    intro part member
    rw [entries_of_local_name own unshared part member]
  rw [links, entries]
  clear links unshared exposed entries own
  induction parts with
  | nil => exact .nil
  | cons part rest ih =>
      rcases List.forall_mem_cons.mp brought with ⟨here, later⟩
      rw [List.flatMap_cons, List.flatMap_cons]
      refine List.rel_append ?_ (ih later)
      rw [List.forall₂_map_right_iff, List.forall₂_same]
      intro entry member
      obtain ⟨_, _, exposure, found, placed⟩ := here entry member
      exact ⟨exposure, found, by rw [placed]⟩

end Parts

end Exposures

/-! ### The whole map -/

section Whole

variable (host : Host) {registry : Registry} (contractState : String) (defaultLayout : Layout)

theorem compile_links :
    (host.compile registry contractState defaultLayout).1.sourceMap.links =
      ((host.judged registry defaultLayout).flatMap fun pair =>
          host.inclusionLinks registry pair.1
            (host.generated registry contractState pair.1 pair.2)) ++
        host.entryPointLinks (host.surface registry
          (host.generatedAll registry contractState defaultLayout) contractState) := by
  rw [← zip_with_generated]
  change (List.zipWith _ host.inclusions (List.zipWith _ _ _)).flatten ++ _ = _
  rw [zip_with_zip_with]
  rfl

theorem of_kind_compile (kind : GeneratedKind) :
    (host.compile registry contractState defaultLayout).1.sourceMap.ofKind kind =
      ((host.judged registry defaultLayout).flatMap fun pair =>
          host.inclusionLinks registry pair.1
            (host.generated registry contractState pair.1 pair.2)).filter (·.kind = kind) ++
        if kind = .entryPoint then
          host.entryPointLinks (host.surface registry
            (host.generatedAll registry contractState defaultLayout) contractState)
        else [] := by
  rw [SourceMap.ofKind, compile_links, List.filter_append]
  congr 1
  split_ifs with entries
  · rw [List.filter_eq_self]
    intro link member
    rcases List.mem_flatMap.mp member with ⟨exposed, _, linked⟩
    rcases List.mem_map.mp linked with ⟨entry, _, rfl⟩
    simp [entries]
  · rw [List.filter_eq_nil_iff]
    intro link member
    rcases List.mem_flatMap.mp member with ⟨exposed, _, linked⟩
    rcases List.mem_map.mp linked with ⟨entry, _, rfl⟩
    simpa using Ne.symm entries

/-- The source map of a host: what is linked for accessors and wrappers is always right, and what is
linked for entry points is right where no local name is shared. -/
structure Traces (registry : Registry) (compiled : CompiledHost) : Prop where
  accessors : List.Forall₂ (host.AccessorTraced contractState) compiled.output.accessors
    (compiled.sourceMap.ofKind .accessor)
  wrappers : List.Forall₂ (WrapperTraced registry) compiled.output.wrappers
    (compiled.sourceMap.ofKind .wrapper)
  entryPoints :
    List.Forall₂
        (host.EntryTraced registry (host.generatedAll registry contractState defaultLayout)
          contractState)
        compiled.output.entryPoints (compiled.sourceMap.ofKind .entryPoint) ↔
      ∀ entry ∈ compiled.output.entryPoints,
        (compiled.exposed.filter (·.localName = entry.exposure)).length = 1

theorem compile_traces {registry : Registry} (reachable : registry.Reachable) :
    host.Traces contractState defaultLayout registry
      (host.compile registry contractState defaultLayout).1 := by
  have included : ∀ pair ∈ host.judged registry defaultLayout, pair.1 ∈ host.inclusions :=
    fun pair member => (List.of_mem_zip member).1
  obtain ⟨accessors, wrappers, entries⟩ := links_of_all_yields included
    (generated_yields host contractState defaultLayout reachable)
  obtain ⟨parts, made⟩ := host.surface_after_parts registry
    (host.generatedAll registry contractState defaultLayout) contractState [] host.exposures
  refine ⟨?_, ?_, ?_⟩
  · rw [compile_accessors, of_kind_compile, if_neg (by simp), List.append_nil]
    exact accessors
  · rw [compile_wrappers, of_kind_compile, if_neg (by simp), List.append_nil]
    exact wrappers
  · rw [compile_entry_points, compile_exposed, of_kind_compile, if_pos rfl, entries]
    exact ⟨unshared_of_traced made, traced_of_unshared made⟩

end Whole

end Host

/-! ### Programs -/

/-- Every host that a compilation gives is that of a contract, and its source map leads from each
accessor to its inclusion and from each wrapper to its implementation. It leads from each entry point
to the exposure that brought it just where no local name with entry points is used twice. -/
theorem source_maps_trace_unshared_names (files : List SourceFile) (options : Options) :
    ∀ compiled ∈ (Compilation.ofFiles files options).hosts,
      ∃ contract ∈ Compilation.contracts files,
        let registry := (registerAll .empty (Compilation.components files)).1
        let host := contract.content.host contract.file
        let layout := options.layout.toOption.getD .flat
        compiled = (host.compile registry options.contractState layout).1 ∧
          host.Traces options.contractState layout registry compiled := by
  intro compiled member
  by_cases readable : ∀ file ∈ files, file.parse.log.Clean
  · rw [Compilation.of_files_readable readable] at member
    obtain ⟨contract, present, same⟩ := mem_compile_contracts member
    refine ⟨contract, present, same, ?_⟩
    rw [same]
    exact Host.compile_traces _ _ _ (register_all_reachable .empty _)
  · have broken := mt (Compilation.readable_iff files options.maxErrors).mp readable
    rw [Bool.not_eq_false] at broken
    unfold Compilation.ofFiles at member
    simp [broken] at member

/-- In a program with one exposure the entry points are traced, and there are some. -/
theorem complete_program_source_map_exact :
    let compilation := Compilation.ofFiles completeProgram ⟨"S", 20, "v0"⟩
    ∃ compiled ∈ compilation.hosts, ∃ contract ∈ Compilation.contracts completeProgram,
      let registry := (registerAll .empty (Compilation.components completeProgram)).1
      let host := contract.content.host contract.file
      compiled.output.entryPoints ≠ [] ∧
        List.Forall₂ (host.EntryTraced registry (host.generatedAll registry "S" .flat) "S")
          compiled.output.entryPoints (compiled.sourceMap.ofKind .entryPoint) := by
  intro compilation
  have single : compilation.hosts.length = 1 := by decide +kernel
  obtain ⟨compiled, hosts⟩ := List.length_eq_one_iff.mp single
  have member : compiled ∈ compilation.hosts := by
    rw [hosts]
    exact List.mem_singleton_self compiled
  have brings : ∀ compiled ∈ compilation.hosts, compiled.output.entryPoints ≠ [] := by
    decide +kernel
  have unshared : ∀ compiled ∈ compilation.hosts, ∀ entry ∈ compiled.output.entryPoints,
      (compiled.exposed.filter (·.localName = entry.exposure)).length = 1 := by
    decide +kernel
  obtain ⟨contract, present, _, traces⟩ :=
    source_maps_trace_unshared_names completeProgram ⟨"S", 20, "v0"⟩ compiled member
  exact ⟨compiled, member, contract, present, brings compiled member,
    traces.entryPoints.mpr (unshared compiled member)⟩

def sharedNameProgram : List SourceFile :=
  [⟨"w.graft", "component c \x7b interface I \x7b fn f(self: @S); \x7d " ++
    "interface J \x7b fn g(self: @S); \x7d " ++
    "#[embeddable_as(A)] impl X of I; #[embeddable_as(B)] impl Y of J; \x7d " ++
    "contract W \x7b component!(path: c, storage: s, event: E); " ++
    "#[abi(embed_v0)] impl L = c::A<S>; #[abi(embed_v0)] impl L = c::B<S>; " ++
    "storage \x7b #[substorage(v0)] s: c::Storage \x7d event \x7b E: c::Event \x7d \x7d"⟩]

/-- Under a shared local name each entry point is linked to both exposures, although the program
compiles without errors. -/
theorem shared_name_links_every_entry_twice :
    let compilation := Compilation.ofFiles sharedNameProgram ⟨"S", 20, "v0"⟩
    compilation.success = true ∧
      compilation.hosts.map (fun compiled => compiled.output.entryPoints.map (·.name)) =
        [["f", "g"]] ∧
      compilation.hosts.map (fun compiled => (compiled.sourceMap.ofKind .entryPoint).map
          fun link => (link.item, link.span.start.column)) =
        [[("f", 203), ("g", 203), ("f", 238), ("g", 238)]] := by
  decide +kernel

end Composer
