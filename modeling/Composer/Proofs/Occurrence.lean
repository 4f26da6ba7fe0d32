import Composer.Occurrence
import Mathlib.Data.List.Infix
import Mathlib.Data.List.Nodup

/-!
First and repeated occurrences against distinctness. Nothing is reported as repeated just where all
keys are new, and then the first occurrences are the whole list. `Fresh` says what the passes that
thread a list of taken names establish; its equations follow the order in which names are taken.
`repeated` and `unrepeated` say the same of each place in a list by what stands before it, without
a list of seen keys.
-/

namespace Composer

section Fresh

variable {Name : Type}

/-- Names that differ from each other and from all that are taken. -/
def Fresh (taken names : List Name) : Prop := names.Nodup ∧ ∀ name ∈ names, name ∉ taken

theorem fresh_nil (taken : List Name) : Fresh taken [] := by
  simp [Fresh]

theorem fresh_untaken (names : List Name) : Fresh [] names ↔ names.Nodup := by
  simp [Fresh]

theorem fresh_congr {taken others : List Name} (same : ∀ name, name ∈ taken ↔ name ∈ others)
    (names : List Name) : Fresh taken names ↔ Fresh others names := by
  simp only [Fresh, same]

theorem fresh_append (taken first second : List Name) :
    Fresh taken (first ++ second) ↔ Fresh taken first ∧ Fresh (first ++ taken) second := by
  simp only [Fresh, List.nodup_append', List.mem_append, List.disjoint_right, not_or]
  constructor
  · intro fresh
    rcases fresh with ⟨⟨firstDistinct, secondDistinct, apart⟩, untaken⟩
    exact ⟨⟨firstDistinct, fun name member => untaken name (.inl member)⟩, secondDistinct,
      fun name member => ⟨apart member, untaken name (.inr member)⟩⟩
  · intro fresh
    rcases fresh with ⟨⟨firstDistinct, firstUntaken⟩, secondDistinct, secondUntaken⟩
    refine ⟨⟨firstDistinct, secondDistinct, fun name member => (secondUntaken name member).1⟩, ?_⟩
    intro name member
    rcases member with member | member
    · exact firstUntaken name member
    · exact (secondUntaken name member).2

theorem fresh_cons (taken : List Name) (name : Name) (names : List Name) :
    Fresh taken (name :: names) ↔ name ∉ taken ∧ Fresh (name :: taken) names := by
  have split := fresh_append taken [name] names
  simpa [Fresh] using split

end Fresh

section Occurrences

variable {Element Key : Type} [DecidableEq Key] (key : Element → Key)

theorem repeats_after_eq_nil (seen : List Key) (elements : List Element) :
    repeatsAfter key seen elements = [] ↔ Fresh seen (elements.map key) := by
  induction elements generalizing seen with
  | nil => simp [repeatsAfter, fresh_nil]
  | cons element rest ih =>
      rw [List.map_cons, fresh_cons]
      by_cases taken : key element ∈ seen
      · simp [repeatsAfter, taken]
      · simp [repeatsAfter, taken, ih]

theorem repeats_by_eq_nil (elements : List Element) :
    repeatsBy key elements = [] ↔ (elements.map key).Nodup := by
  rw [repeatsBy, repeats_after_eq_nil, fresh_untaken]

theorem firsts_after_eq_self (seen : List Key) (elements : List Element)
    (fresh : Fresh seen (elements.map key)) : firstsAfter key seen elements = elements := by
  induction elements generalizing seen with
  | nil => rfl
  | cons element rest ih =>
      rw [List.map_cons, fresh_cons] at fresh
      rw [firstsAfter, if_neg fresh.1, ih _ fresh.2]

theorem firsts_by_eq_self (elements : List Element) (distinct : (elements.map key).Nodup) :
    firstsBy key elements = elements :=
  firsts_after_eq_self key [] elements ((fresh_untaken _).mpr distinct)

theorem firsts_after_unseen (seen : List Key) (elements : List Element) :
    ∀ element ∈ firstsAfter key seen elements, element ∈ elements ∧ key element ∉ seen := by
  induction elements generalizing seen with
  | nil => simp [firstsAfter]
  | cons first rest ih =>
      intro element member
      rw [firstsAfter] at member
      split_ifs at member with taken
      · obtain ⟨present, unseen⟩ := ih seen element member
        exact ⟨List.mem_cons_of_mem _ present, unseen⟩
      · rcases List.mem_cons.mp member with rfl | later
        · exact ⟨List.mem_cons_self, taken⟩
        · obtain ⟨present, unseen⟩ := ih (key first :: seen) element later
          exact ⟨List.mem_cons_of_mem _ present, fun earlier =>
            unseen (List.mem_cons_of_mem _ earlier)⟩

/-- Every key was seen before or is the key of a first occurrence. -/
theorem key_mem_firsts_after (seen : List Key) (elements : List Element) :
    ∀ element ∈ elements, key element ∈ (firstsAfter key seen elements).map key ++ seen := by
  induction elements generalizing seen with
  | nil => simp
  | cons first rest ih =>
      rw [firstsAfter, List.forall_mem_cons]
      split_ifs with taken
      · exact ⟨List.mem_append_right _ taken, ih seen⟩
      · refine ⟨by simp, fun element member => ?_⟩
        have placed := ih (key first :: seen) element member
        simp only [List.map_cons, List.cons_append, List.mem_append, List.mem_cons] at placed ⊢
        tauto

/-- The first element of a key is among the first occurrences, unless the key was seen before. -/
theorem mem_firsts_after_of_find (seen : List Key) (elements : List Element) (wanted : Key)
    (unseen : wanted ∉ seen) {first : Element}
    (found : elements.find? (key · = wanted) = some first) :
    first ∈ firstsAfter key seen elements := by
  induction elements generalizing seen with
  | nil => simp at found
  | cons element rest ih =>
      by_cases same : key element = wanted
      · have head : element = first := by simpa [List.find?_cons, same] using found
        subst head
        rw [firstsAfter, if_neg (same ▸ unseen)]
        exact List.mem_cons_self
      · have later : rest.find? (key · = wanted) = some first := by
          simpa [List.find?_cons, same] using found
        rw [firstsAfter]
        split_ifs with taken
        · exact ih seen unseen later
        · refine List.mem_cons_of_mem _ (ih _ ?_ later)
          simpa [Ne.symm same] using unseen

theorem mem_firsts_by_of_find (elements : List Element) (wanted : Key) {first : Element}
    (found : elements.find? (key · = wanted) = some first) : first ∈ firstsBy key elements :=
  mem_firsts_after_of_find key [] elements wanted List.not_mem_nil found

/-- Where all keys differ, a lookup by key finds whatever has that key. -/
theorem find_eq_some_iff_of_distinct {elements : List Element}
    (distinct : (elements.map key).Nodup) (wanted : Key) (element : Element) :
    elements.find? (key · = wanted) = some element ↔ element ∈ elements ∧ key element = wanted := by
  constructor
  · intro found
    exact ⟨List.mem_of_find?_eq_some found, by simpa using List.find?_some found⟩
  · intro present
    rcases present with ⟨member, rfl⟩
    cases found : elements.find? (key · = key element) with
    | none => simpa using List.find?_eq_none.mp found element member
    | some other =>
        have same : key other = key element := by simpa using List.find?_some found
        have present := List.mem_of_find?_eq_some found
        rw [List.inj_on_of_nodup_map distinct present member same]

theorem find_perm_of_distinct {elements others : List Element} (reordered : elements.Perm others)
    (distinct : (elements.map key).Nodup) (wanted : Key) :
    elements.find? (key · = wanted) = others.find? (key · = wanted) := by
  have othersDistinct : (others.map key).Nodup := (reordered.map key).nodup_iff.mp distinct
  apply Option.ext
  intro element
  rw [find_eq_some_iff_of_distinct key distinct, find_eq_some_iff_of_distinct key othersDistinct,
    reordered.mem_iff]

/-- Only the keys of the elements matter among those that were seen. -/
theorem firsts_after_congr {seen others : List Key} (elements : List Element)
    (same : ∀ element ∈ elements, key element ∈ seen ↔ key element ∈ others) :
    firstsAfter key seen elements = firstsAfter key others elements := by
  induction elements generalizing seen others with
  | nil => rfl
  | cons first rest ih =>
      rcases List.forall_mem_cons.mp same with ⟨here, later⟩
      rw [firstsAfter, firstsAfter]
      by_cases taken : key first ∈ seen
      · rw [if_pos taken, if_pos (here.mp taken)]
        exact ih later
      · rw [if_neg taken, if_neg (mt here.mpr taken)]
        congr 1
        apply ih
        intro element member
        simp only [List.mem_cons, later element member]

theorem firsts_after_append (seen : List Key) (elements others : List Element) :
    firstsAfter key seen (elements ++ others) =
      firstsAfter key seen elements ++ firstsAfter key (elements.map key ++ seen) others := by
  induction elements generalizing seen with
  | nil => rfl
  | cons first rest ih =>
      rw [List.cons_append, List.map_cons, firstsAfter, firstsAfter]
      by_cases taken : key first ∈ seen
      · rw [if_pos taken, if_pos taken, ih]
        congr 1
        apply firsts_after_congr
        intro element _
        simp only [List.cons_append, List.mem_cons, List.mem_append]
        constructor
        · exact Or.inr
        · intro earlier
          rcases earlier with same | earlier
          · exact .inr (same ▸ taken)
          · exact earlier
      · rw [if_neg taken, if_neg taken, ih, List.cons_append]
        congr 2
        apply firsts_after_congr
        intro element _
        simp only [List.cons_append, List.mem_cons, List.mem_append]
        tauto

theorem firsts_by_concat (elements : List Element) (element : Element) :
    firstsBy key (elements ++ [element]) =
      if key element ∈ elements.map key then firstsBy key elements
      else firstsBy key elements ++ [element] := by
  rw [firstsBy, firsts_after_append, List.append_nil, firstsAfter]
  split_ifs
  · exact List.append_nil _
  · rfl

/-- Elements with keys of their own come in between without changing what else is first. -/
theorem firsts_by_insert_sublist (before inserted after : List Element)
    (apart : ∀ element ∈ after, key element ∉ inserted.map key) :
    (firstsBy key (before ++ after)).Sublist (firstsBy key (before ++ inserted ++ after)) := by
  have unchanged : firstsAfter key (before.map key ++ []) after =
      firstsAfter key ((before ++ inserted).map key ++ []) after := by
    apply firsts_after_congr
    intro element member
    simp [apart element member]
  rw [firstsBy, firstsBy, firsts_after_append, firsts_after_append, firsts_after_append, unchanged]
  exact (List.sublist_append_left _ _).append_right _

/-- First occurrences have different keys, none of which was seen. -/
theorem firsts_after_fresh (seen : List Key) (elements : List Element) :
    Fresh seen ((firstsAfter key seen elements).map key) := by
  induction elements generalizing seen with
  | nil => exact fresh_nil seen
  | cons first rest ih =>
      rw [firstsAfter]
      split_ifs with taken
      · exact ih seen
      · rw [List.map_cons, fresh_cons]
        exact ⟨taken, ih (key first :: seen)⟩

theorem firsts_by_distinct (elements : List Element) :
    ((firstsBy key elements).map key).Nodup :=
  (firsts_after_fresh key [] elements).1

theorem mem_of_mem_firsts_by {elements : List Element} {element : Element}
    (first : element ∈ firstsBy key elements) : element ∈ elements :=
  (firsts_after_unseen key [] elements element first).1

theorem repeats_after_sublist (seen : List Key) (elements : List Element) :
    (repeatsAfter key seen elements).Sublist elements := by
  induction elements generalizing seen with
  | nil => exact .refl []
  | cons first rest ih =>
      rw [repeatsAfter]
      split_ifs
      · exact (ih seen).cons_cons first
      · exact (ih (key first :: seen)).cons first

theorem mem_of_mem_repeats_by {elements : List Element} {element : Element}
    (repeated : element ∈ repeatsBy key elements) : element ∈ elements :=
  (repeats_after_sublist key [] elements).mem repeated

theorem mem_keys_firsts_by (elements : List Element) (wanted : Key) :
    wanted ∈ (firstsBy key elements).map key ↔ wanted ∈ elements.map key := by
  constructor
  · intro first
    rcases List.mem_map.mp first with ⟨element, member, same⟩
    exact List.mem_map.mpr ⟨element, mem_of_mem_firsts_by key member, same⟩
  · intro present
    rcases List.mem_map.mp present with ⟨element, member, rfl⟩
    simpa [firstsBy] using key_mem_firsts_after key [] elements element member

theorem find_of_mem_firsts_by {elements : List Element} {element : Element}
    (first : element ∈ firstsBy key elements) :
    elements.find? (key · = key element) = some element := by
  have present : (elements.find? (key · = key element)).isSome :=
    List.find?_isSome.mpr ⟨element, mem_of_mem_firsts_by key first, by simp⟩
  obtain ⟨found, here⟩ := Option.isSome_iff_exists.mp present
  have same : key found = key element := by simpa using List.find?_some here
  have kept := mem_firsts_by_of_find key elements _ here
  rw [here, List.inj_on_of_nodup_map (firsts_by_distinct key elements) kept first same]

theorem firsts_after_map {Other : Type} (view : Other → Element) (seen : List Key)
    (others : List Other) :
    firstsAfter key seen (others.map view) =
      (firstsAfter (fun other => key (view other)) seen others).map view := by
  induction others generalizing seen with
  | nil => rfl
  | cons other rest ih =>
      rw [List.map_cons, firstsAfter, firstsAfter]
      split_ifs
      · exact ih seen
      · rw [List.map_cons, ih]

theorem repeats_after_map {Other : Type} (view : Other → Element) (seen : List Key)
    (others : List Other) :
    repeatsAfter key seen (others.map view) =
      (repeatsAfter (fun other => key (view other)) seen others).map view := by
  induction others generalizing seen with
  | nil => rfl
  | cons other rest ih =>
      rw [List.map_cons, repeatsAfter, repeatsAfter]
      split_ifs
      · rw [List.map_cons, ih]
      · exact ih _

end Occurrences

section Places

variable {Element Key : Type}

def withEarlier (elements : List Element) : List (List Element × Element) :=
  elements.inits.zip elements

theorem with_earlier_cons (element : Element) (rest : List Element) :
    withEarlier (element :: rest) =
      ([], element) :: (withEarlier rest).map (Prod.map (element :: ·) id) := by
  rw [withEarlier, List.inits_cons, List.zip_cons_cons, withEarlier, List.zip_map_left]

theorem exists_earlier {element : Element} {elements : List Element} (member : element ∈ elements) :
    ∃ earlier, (earlier, element) ∈ withEarlier elements := by
  induction elements with
  | nil => cases member
  | cons first rest ih =>
      rw [with_earlier_cons]
      rcases List.mem_cons.mp member with rfl | later
      · exact ⟨[], List.mem_cons_self⟩
      · obtain ⟨earlier, placed⟩ := ih later
        exact ⟨first :: earlier, List.mem_cons_of_mem _
          (List.mem_map.mpr ⟨(earlier, element), placed, rfl⟩)⟩

variable [DecidableEq Key] (key : Element → Key)

/-- The elements at which it is so, or is not so, that the key occurred before or is one of `seen`. -/
def occurring (before : Bool) (seen : List Key) (elements : List Element) : List Element :=
  ((withEarlier elements).filter fun place =>
    decide (key place.2 ∈ place.1.map key ++ seen) = before).map (·.2)

def repeated (elements : List Element) : List Element := occurring key true [] elements

def unrepeated (elements : List Element) : List Element := occurring key false [] elements

theorem occurring_cons (before : Bool) (seen : List Key) (element : Element)
    (rest : List Element) :
    occurring key before seen (element :: rest) =
      (if decide (key element ∈ seen) = before then [element] else []) ++
        occurring key before (key element :: seen) rest := by
  have moved : ∀ place : List Element × Element,
      key place.2 ∈ (element :: place.1).map key ++ seen ↔
        key place.2 ∈ place.1.map key ++ key element :: seen := by
    intro place
    simp only [List.map_cons, List.cons_append, List.mem_cons, List.mem_append, or_left_comm]
  have later : ((withEarlier rest).map (Prod.map (element :: ·) id)).filter (fun place =>
      decide (key place.2 ∈ place.1.map key ++ seen) = before) =
        ((withEarlier rest).filter fun place =>
          decide (key place.2 ∈ place.1.map key ++ key element :: seen) = before).map
            (Prod.map (element :: ·) id) := by
    rw [List.filter_map]
    congr 2
    funext place
    simp only [Function.comp_apply, Prod.map_fst, Prod.map_snd, id_eq, moved]
  rw [occurring, with_earlier_cons, List.filter_cons, later, occurring]
  split_ifs <;> simp_all

/-- Only which keys were seen matters. -/
theorem occurring_congr (before : Bool) {seen others : List Key}
    (same : ∀ wanted, wanted ∈ seen ↔ wanted ∈ others) (elements : List Element) :
    occurring key before seen elements = occurring key before others elements := by
  simp only [occurring, List.mem_append, same]

theorem occurring_known (before : Bool) {seen : List Key} {known : Key} (taken : known ∈ seen)
    (elements : List Element) :
    occurring key before (known :: seen) elements = occurring key before seen elements := by
  apply occurring_congr
  intro wanted
  simp only [List.mem_cons, or_iff_right_iff_imp]
  intro isKnown
  exact isKnown ▸ taken

theorem occurring_append (before : Bool) (seen : List Key) (elements others : List Element) :
    occurring key before seen (elements ++ others) =
      occurring key before seen elements ++
        occurring key before (elements.map key ++ seen) others := by
  induction elements generalizing seen with
  | nil => rfl
  | cons element rest ih =>
      have moved : occurring key before (rest.map key ++ key element :: seen) others =
          occurring key before ((element :: rest).map key ++ seen) others := by
        apply occurring_congr
        intro wanted
        simp only [List.map_cons, List.cons_append, List.mem_append, List.mem_cons, or_left_comm]
      rw [List.cons_append, occurring_cons, occurring_cons, ih, moved, List.append_assoc]

/-- The passes that thread what was seen find just the places said without them. -/
theorem occurring_after (seen : List Key) (elements : List Element) :
    repeatsAfter key seen elements = occurring key true seen elements ∧
      firstsAfter key seen elements = occurring key false seen elements := by
  induction elements generalizing seen with
  | nil => exact ⟨rfl, rfl⟩
  | cons element rest ih =>
      rw [repeatsAfter, firstsAfter, occurring_cons, occurring_cons]
      by_cases taken : key element ∈ seen
      · simp [taken, ih, occurring_known]
      · simp [taken, ih]

/-- The first occurrences have all keys that there are. -/
theorem mem_keys_of_unseen (seen : List Key) (elements : List Element) (wanted : Key) :
    wanted ∈ (occurring key false seen elements).map key ++ seen ↔
      wanted ∈ elements.map key ++ seen := by
  rw [← (occurring_after key seen elements).2]
  constructor
  · intro present
    rcases List.mem_append.mp present with first | earlier
    · rcases List.mem_map.mp first with ⟨element, member, rfl⟩
      have inside := (firsts_after_unseen key seen elements element member).1
      exact List.mem_append_left _ (List.mem_map_of_mem inside)
    · exact List.mem_append_right _ earlier
  · intro present
    rcases List.mem_append.mp present with named | earlier
    · rcases List.mem_map.mp named with ⟨element, member, rfl⟩
      exact key_mem_firsts_after key seen elements element member
    · exact List.mem_append_right _ earlier

theorem repeats_by_eq_repeated (elements : List Element) :
    repeatsBy key elements = repeated key elements :=
  (occurring_after key [] elements).1

theorem firsts_by_eq_unrepeated (elements : List Element) :
    firstsBy key elements = unrepeated key elements :=
  (occurring_after key [] elements).2

end Places

end Composer
