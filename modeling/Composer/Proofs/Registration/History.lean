import Composer.Proofs.Compilation.Stages
import Composer.Proofs.Registration.Consistency

/-!
The registry after a history of declarations. For each name the first declaration decides: what a
registry holds is the definitions of those first declarations that are consistent, in order, and what
it has rejected is the names of the others. `Registry.Follows` says so, a registration keeps it, and
every lookup is read off it.
-/

namespace Composer

def Located.name (decl : Located ComponentDecl) : String := decl.content.name.name

/-- The first declarations of their names that can be registered. -/
def registrable (history : List (Located ComponentDecl)) : List (Located ComponentDecl) :=
  (firstsBy Located.name history).filter fun decl => decl.content.Consistent

namespace Registry

structure Follows (registry : Registry) (history : List (Located ComponentDecl)) : Prop where
  components : registry.components = (registrable history).map Located.definition
  rejected : ∀ name, registry.isRejected name = true ↔
    ∃ decl ∈ firstsBy Located.name history, decl.name = name ∧ ¬decl.content.Consistent

theorem follows_nothing : Registry.empty.Follows [] :=
  ⟨rfl, by simp [isRejected, empty, firstsBy, firstsAfter]⟩

namespace Follows

variable {registry : Registry} {history : List (Located ComponentDecl)}

theorem get_eq_some_iff (follows : registry.Follows history) (name : String)
    (component : Component) :
    registry.get? name = some component ↔
      ∃ decl ∈ registrable history, decl.definition = component ∧ decl.name = name := by
  have names : (registry.components.map (·.name)).Nodup := by
    have filtered : ((registrable history).map Located.name).Sublist
        ((firstsBy Located.name history).map Located.name) := List.filter_sublist.map _
    rw [follows.components, List.map_map]
    exact filtered.nodup (firsts_by_distinct Located.name history)
  rw [get?, find_eq_some_iff_of_distinct Component.name names, follows.components, List.mem_map]
  constructor
  · intro found
    rcases found with ⟨⟨decl, member, rfl⟩, named⟩
    exact ⟨decl, member, rfl, named⟩
  · intro found
    rcases found with ⟨decl, member, rfl, named⟩
    exact ⟨⟨decl, member, rfl⟩, named⟩

theorem decided_iff (follows : registry.Follows history) (name : String) :
    registry.Decided name ↔ name ∈ history.map Located.name := by
  rw [← mem_keys_firsts_by, List.mem_map, Decided, Option.isSome_iff_exists, follows.rejected]
  simp only [follows.get_eq_some_iff, registrable, List.mem_filter, decide_eq_true_eq]
  constructor
  · intro decided
    rcases decided with ⟨_, decl, ⟨first, _⟩, _, named⟩ | ⟨decl, first, named, _⟩
    · exact ⟨decl, first, named⟩
    · exact ⟨decl, first, named⟩
  · intro declared
    rcases declared with ⟨decl, first, named⟩
    by_cases consistent : decl.content.Consistent
    · exact .inl ⟨_, decl, ⟨first, consistent⟩, rfl, named⟩
    · exact .inr ⟨decl, first, named, consistent⟩

/-- A registration tells the registry of one more declaration. -/
theorem add (follows : registry.Follows history) (decl : Located ComponentDecl) :
    (registry.add decl.content decl.file).Follows (history ++ [decl]) := by
  have decided := follows.decided_iff decl.name
  have firsts := firsts_by_concat Located.name history decl
  rcases registry.register_cases decl.content decl.file with
    ⟨known, outcome⟩ | ⟨unknown, clean, outcome⟩ | ⟨unknown, faulty, outcome⟩
  · rw [if_pos (decided.mp known)] at firsts
    rw [Registry.add, outcome]
    refine ⟨?_, ?_⟩
    · rw [registrable, firsts]
      exact follows.components
    · rw [firsts]
      exact follows.rejected
  · have consistent := decl.content.faults_eq_nil_iff_consistent.mp clean
    rw [if_neg (mt decided.mpr unknown)] at firsts
    rw [Registry.add, outcome]
    refine ⟨?_, ?_⟩
    · rw [registrable, firsts, List.filter_append, List.map_append, follows.components]
      simp [registrable, consistent, Located.definition]
    · intro name
      rw [firsts]
      simpa [consistent, isRejected, or_and_right, exists_or] using follows.rejected name
  · have inconsistent := mt decl.content.faults_eq_nil_iff_consistent.mpr faulty
    rw [if_neg (mt decided.mpr unknown)] at firsts
    rw [Registry.add, outcome]
    refine ⟨?_, ?_⟩
    · rw [registrable, firsts, List.filter_append, List.map_append, follows.components]
      simp [registrable, inconsistent]
    · intro name
      have before := follows.rejected name
      rw [firsts]
      simp only [isRejected, List.contains_iff_mem] at before
      simp only [isRejected, List.contains_iff_mem, List.mem_cons, before, List.mem_append,
        List.not_mem_nil, or_false, or_and_right, exists_or, exists_eq_left]
      rw [or_comm]
      simp [inconsistent, Located.name, eq_comm]

theorem unknown_of_undeclared (follows : registry.Follows history) {name : String}
    (undeclared : history.find? (·.name = name) = none) :
    registry.get? name = none ∧ registry.isRejected name = false := by
  have undecided : ¬registry.Decided name := by
    rw [follows.decided_iff]
    intro declared
    rcases List.mem_map.mp declared with ⟨decl, member, named⟩
    simpa [named] using List.find?_eq_none.mp undeclared decl member
  simpa [Decided] using undecided

/-- No other declaration of a name counts than the one that a search from the front finds. -/
theorem eq_of_first {name : String} {first decl : Located ComponentDecl}
    (found : history.find? (·.name = name) = some first)
    (member : decl ∈ firstsBy Located.name history) (named : decl.name = name) : decl = first := by
  have counts := mem_firsts_by_of_find Located.name history name found
  have same : decl.name = first.name := by
    rw [named]
    simpa [eq_comm] using List.find?_some found
  exact List.inj_on_of_nodup_map (firsts_by_distinct Located.name history) member counts same

theorem registered_of_first (follows : registry.Follows history) {name : String}
    {first : Located ComponentDecl} (found : history.find? (·.name = name) = some first)
    (consistent : first.content.Consistent) :
    registry.get? name = some first.definition ∧ registry.isRejected name = false := by
  have counts := mem_firsts_by_of_find Located.name history name found
  have named : first.name = name := by simpa using List.find?_some found
  constructor
  · rw [follows.get_eq_some_iff]
    exact ⟨first, List.mem_filter.mpr ⟨counts, by simpa using consistent⟩, rfl, named⟩
  · rw [Bool.eq_false_iff, ne_eq, follows.rejected]
    intro rejected
    rcases rejected with ⟨decl, member, sameName, inconsistent⟩
    rw [eq_of_first found member sameName] at inconsistent
    exact inconsistent consistent

theorem rejected_of_first (follows : registry.Follows history) {name : String}
    {first : Located ComponentDecl} (found : history.find? (·.name = name) = some first)
    (inconsistent : ¬first.content.Consistent) :
    registry.get? name = none ∧ registry.isRejected name = true := by
  have counts := mem_firsts_by_of_find Located.name history name found
  have named : first.name = name := by simpa using List.find?_some found
  constructor
  · apply Option.eq_none_iff_forall_ne_some.mpr
    intro component registered
    rcases (follows.get_eq_some_iff name component).mp registered with ⟨decl, member, _, sameName⟩
    rcases List.mem_filter.mp member with ⟨firsts, consistent⟩
    rw [eq_of_first found firsts sameName] at consistent
    exact inconsistent (of_decide_eq_true consistent)
  · exact (follows.rejected name).mpr ⟨first, counts, named, inconsistent⟩

/-- A name that was declared is taken, whatever became of its declaration. -/
theorem register_declared (follows : registry.Follows history) {decl : ComponentDecl}
    (declared : decl.name.name ∈ history.map Located.name) (file : String) :
    registry.register decl file =
      (.error [.malformedComponent decl.name.name .duplicateComponent decl.name.span],
        registry) := by
  have decided := (follows.decided_iff decl.name.name).mpr declared
  rcases registry.register_cases decl file with ⟨_, outcome⟩ | ⟨fresh, _⟩ | ⟨fresh, _⟩
  · exact outcome
  · exact absurd decided fresh
  · exact absurd decided fresh

end Follows

end Registry

theorem register_all_follows {registry : Registry} {history : List (Located ComponentDecl)}
    (follows : registry.Follows history) (decls : List (Located ComponentDecl)) :
    (registerAll registry decls).1.Follows (history ++ decls) := by
  induction decls generalizing registry history with
  | nil =>
      rw [List.append_nil]
      exact follows
  | cons decl rest ih =>
      rw [List.append_cons]
      exact ih (follows.add decl)

theorem registered_follows (history : List (Located ComponentDecl)) :
    (registerAll .empty history).1.Follows history :=
  register_all_follows Registry.follows_nothing history

/-- The first declaration of a name decides for good. A consistent one is registered, one that is not
is rejected, and every further one of the name is refused as a duplicate without effect. -/
theorem first_declaration_decides (history : List (Located ComponentDecl)) :
    (registerAll .empty history).1.components =
        ((firstsBy Located.name history).filter fun decl => decl.content.Consistent).map
          Located.definition ∧
      ∀ name, match history.find? (·.name = name) with
        | none =>
            (registerAll .empty history).1.get? name = none ∧
              (registerAll .empty history).1.isRejected name = false
        | some first => ∀ later : List (Located ComponentDecl),
            let registry := (registerAll .empty (history ++ later)).1
            (first.content.Consistent →
              registry.get? name = some first.definition ∧ registry.isRejected name = false) ∧
            (¬first.content.Consistent →
              registry.get? name = none ∧ registry.isRejected name = true) ∧
            ∀ decl file, decl.name.name = name → registry.register decl file =
              (.error [.malformedComponent name .duplicateComponent decl.name.span], registry) := by
  refine ⟨(registered_follows history).components, fun name => ?_⟩
  cases found : history.find? (·.name = name) with
  | none => exact (registered_follows history).unknown_of_undeclared found
  | some first =>
      intro later registry
      have follows := registered_follows (history ++ later)
      have stillFirst : (history ++ later).find? (·.name = name) = some first := by
        rw [List.find?_append, found, Option.some_or]
      have declared : name ∈ (history ++ later).map Located.name :=
        List.mem_map.mpr ⟨first, List.mem_of_find?_eq_some stillFirst,
          by simpa using List.find?_some stillFirst⟩
      refine ⟨follows.registered_of_first stillFirst, follows.rejected_of_first stillFirst, ?_⟩
      intro decl file named
      subst named
      exact follows.register_declared declared file

def brokenCounter : ComponentDecl :=
  { counterDecl with
    storage := some
      ⟨[⟨[], atStart "value", .path [atStart "u64"] [] (.point 1 1), .point 1 1⟩,
        ⟨[], atStart "value", .path [atStart "u8"] [] (.point 1 1), .point 1 1⟩], .point 1 1⟩ }

theorem broken_counter_decides_first :
    let history : List (Located ComponentDecl) := [⟨"broken.graft", brokenCounter⟩]
    let registry := (registerAll .empty (history ++ [⟨"counter.graft", counterDecl⟩])).1
    ¬brokenCounter.Consistent ∧ counterDecl.Consistent ∧
      registry.get? "counter" = none ∧ registry.isRejected "counter" = true ∧
      registry.refusals counterDecl "again.graft" =
        [.malformedComponent "counter" .duplicateComponent (.point 1 1)] := by
  intro history registry
  have inconsistent : ¬brokenCounter.Consistent := by decide +kernel
  have decided := (first_declaration_decides history).2 "counter"
    [⟨"counter.graft", counterDecl⟩]
  rcases decided with ⟨_, rejected, duplicate⟩
  have refused := duplicate counterDecl "again.graft" rfl
  refine ⟨inconsistent, by decide +kernel, (rejected inconsistent).1, (rejected inconsistent).2, ?_⟩
  rw [Registry.refusals, refused]
  rfl

end Composer
