import Composer.Options
import Composer.Proofs.Json.Values
import Mathlib.Data.List.Nodup

/-!
Options and their JSON form. Options are read back from an object of their fields, in any order,
with any blanks and without those that have their standard values, and are then accepted or refused
as they are. A key that is no field, or that of a field for a second time, is always refused. Which
problem that is, also depends on its value if this is read before the field.
-/

namespace Composer.Options

open Composer.Json (Gap Gaps Handed Member Refused Taken ValueText objectText)

/-! ### Fields that are given -/

inductive Given
  | contractState (state : String)
  | maxErrors (count : Nat)
  | defaultSubstorage (version : String)
deriving DecidableEq, Repr

namespace Given

def key : Given → String
  | contractState _ => "contract_state"
  | maxErrors _ => "max_errors"
  | defaultSubstorage _ => "default_substorage"

def text : Given → String
  | contractState state => Json.quote state
  | maxErrors count => toString count
  | defaultSubstorage version => Json.quote version

def set (draft : Draft) : Given → Draft
  | contractState state => { draft with contractState := some state }
  | maxErrors count => { draft with maxErrors := some count }
  | defaultSubstorage version => { draft with defaultSubstorage := some version }

def isSet (draft : Draft) : Given → Bool
  | contractState _ => draft.contractState.isSome
  | maxErrors _ => draft.maxErrors.isSome
  | defaultSubstorage _ => draft.defaultSubstorage.isSome

/-- A number of errors is a word. -/
def Fits : Given → Prop
  | maxErrors count => count < UInt64.size
  | _ => True

def member (given : Given) (gaps : Gaps) : Member := ⟨given.key, given.text, gaps⟩

theorem unset_of_none (given : Given) : isSet ⟨none, none, none⟩ given = false := by
  cases given <;> rfl

theorem is_set_set (draft : Draft) (given other : Given) :
    isSet (set draft other) given = (isSet draft given || given.key = other.key) := by
  cases given <;> cases other <;> simp [isSet, set, key]

theorem set_comm (draft : Draft) {first second : Given} (other : first.key ≠ second.key) :
    set (set draft first) second = set (set draft second) first := by
  cases first <;> cases second <;> first | rfl | simp [key] at other

theorem is_set_fold (draft : Draft) (list : List Given) (given : Given) :
    isSet (list.foldl set draft) given =
      (isSet draft given || decide (given.key ∈ list.map key)) := by
  induction list generalizing draft with
  | nil => simp
  | cons first rest ih =>
      rw [List.foldl_cons, ih, is_set_set, List.map_cons, Bool.or_assoc]
      simp

theorem is_set_fold_none (list : List Given) (given : Given) :
    isSet (list.foldl set ⟨none, none, none⟩) given = decide (given.key ∈ list.map key) := by
  rw [is_set_fold, unset_of_none, Bool.false_or]

end Given

def Draft.given (draft : Draft) : List Given :=
  (draft.contractState.map Given.contractState).toList ++
    (draft.maxErrors.map Given.maxErrors).toList ++
      (draft.defaultSubstorage.map Given.defaultSubstorage).toList

section Given

variable {draft : Draft}

theorem given_keys_nodup (draft : Draft) : (draft.given.map Given.key).Nodup := by
  obtain ⟨state | state, count | count, version | version⟩ := draft <;>
    simp [Draft.given, Given.key]

theorem given_fits (word : draft.complete.maxErrors < UInt64.size) :
    ∀ given ∈ draft.given, given.Fits := by
  obtain ⟨state, count, version⟩ := draft
  intro given among
  simp only [Draft.given, List.mem_append, Option.mem_toList, Option.map_eq_some_iff] at among
  rcases among with (⟨_, _, rfl⟩ | ⟨own, rfl, rfl⟩) | ⟨_, _, rfl⟩
  · trivial
  · exact word
  · trivial

theorem fold_given (draft : Draft) : draft.given.foldl Given.set ⟨none, none, none⟩ = draft := by
  obtain ⟨state | state, count | count, version | version⟩ := draft <;> rfl

/-- The order in which the fields of a draft are set does not matter. -/
theorem fold_perm_given {list : List Given} (order : list.Perm draft.given) :
    list.foldl Given.set ⟨none, none, none⟩ = draft := by
  have comm : ∀ first ∈ list, ∀ second ∈ list, ∀ draft,
      Given.set (Given.set draft first) second = Given.set (Given.set draft second) first := by
    intro first inFirst second inSecond draft
    by_cases same : first = second
    · rw [same]
    · refine Given.set_comm draft fun keys => same ?_
      exact List.inj_on_of_nodup_map (given_keys_nodup _) (order.mem_iff.mp inFirst)
        (order.mem_iff.mp inSecond) keys
  rw [order.foldl_eq' comm, fold_given]

end Given

/-! ### Members of options -/

def membersOf (written : List (Given × Gaps)) : List Member :=
  written.map fun one => one.1.member one.2

section Members

variable {draft : Draft} {given : Given}

theorem handed_given (fits : given.Fits) (unset : given.isSet draft = false) (gaps : Gaps) :
    Handed fields draft (given.member gaps) (.ok (given.set draft)) := by
  cases given with
  | contractState state =>
      exact Json.handed_read (Given.member (.contractState state) gaps) Json.readString
        (fun draft state => Given.set draft (.contractState state)) rfl unset (fun _ => rfl)
        (.ok state) fun text _ => Json.read_string gaps.beforeValue state text
  | maxErrors count =>
      exact Json.handed_read (Given.member (.maxErrors count) gaps)
        (Json.readNatural largestMaxErrors) (fun draft count => Given.set draft (.maxErrors count))
        rfl unset (fun _ => rfl) (.ok count)
        fun _ stops => Json.read_natural_in_word gaps.beforeValue fits stops
  | defaultSubstorage version =>
      exact Json.handed_read (Given.member (.defaultSubstorage version) gaps) Json.readString
        (fun draft version => Given.set draft (.defaultSubstorage version)) rfl unset (fun _ => rfl)
        (.ok version) fun text _ => Json.read_string gaps.beforeValue version text

theorem handed_set {member : Member} (key : member.key = given.key)
    (isSet : given.isSet draft = true) : Handed fields draft member (.error .mismatched) := by
  obtain ⟨own, value, gaps⟩ := member
  cases key
  cases given <;> exact Json.handed_again rfl isSet

theorem handed_unknown_key {member : Member}
    (unknown : member.key ∉ ["contract_state", "max_errors", "default_substorage"]) :
    Handed fields draft member (.error .mismatched) := by
  refine Json.handed_unknown (List.find?_eq_none.mpr fun field among same => unknown ?_)
  rw [← of_decide_eq_true same]
  exact List.mem_map_of_mem among

theorem handed_reading {Value : Type} {member : Member} {field : Json.RecordField Draft}
    {problem : Json.ReadError} (read : Json.Reader Value) (make : Value → Given)
    (key : ∀ value, (make value).key = member.key)
    (found : fields.find? (·.name = member.key) = some field) (unset : field.isSet draft = false)
    (reads : ∀ text, field.read draft text =
      read text >>= fun (value, rest) => pure ((make value).set draft, rest))
    (own : (problem = .mismatched ∧ ∃ value, ∀ text, Json.NoNumber text →
        read (member.gaps.beforeValue.bytes ++ (textBytes member.value ++ text)) =
          .ok (value, text)) ∨
      ∀ text, Json.NoNumber text →
        read (member.gaps.beforeValue.bytes ++ (textBytes member.value ++ text)) =
          .error problem) :
    Handed fields draft member (.error problem) ∨
      problem = .mismatched ∧ ∃ other : Given, other.key = member.key ∧
        Handed fields draft member (.ok (other.set draft)) := by
  rcases Json.handed_read_value member read (fun draft value => (make value).set draft) found unset
    reads own with refused | ⟨mismatched, value, taken⟩
  · exact .inl refused
  · exact .inr ⟨mismatched, make value, key value, taken⟩

/-- A value under the key of a field is refused, or sets this field. -/
theorem handed_value {member : Member} (key : member.key = given.key) {value : ValueText}
    (text : member.value = value.text) (unset : given.isSet draft = false) :
    Handed fields draft member (.error value.refusal) ∨
      value.refusal = .mismatched ∧ ∃ other : Given, other.key = given.key ∧
        Handed fields draft member (.ok (other.set draft)) := by
  obtain ⟨own, written, gaps⟩ := member
  cases key
  cases text
  cases given with
  | contractState =>
      exact handed_reading Json.readString .contractState (fun _ => rfl) rfl unset (fun _ => rfl)
        (Json.read_string_of_value gaps.beforeValue value)
  | maxErrors =>
      exact handed_reading (Json.readNatural largestMaxErrors) .maxErrors (fun _ => rfl) rfl unset
        (fun _ => rfl) (Json.read_natural_of_value gaps.beforeValue largestMaxErrors value)
  | defaultSubstorage =>
      exact handed_reading Json.readString .defaultSubstorage (fun _ => rfl) rfl unset
        (fun _ => rfl) (Json.read_string_of_value gaps.beforeValue value)

/-- Fields that a draft does not have yet are taken one after another. -/
theorem taken_given {written : List (Given × Gaps)} (fits : ∀ one ∈ written, one.1.Fits)
    (apart : ((written.map (·.1)).map Given.key).Nodup)
    (unset : ∀ one ∈ written, one.1.isSet draft = false) :
    Taken fields draft (membersOf written) ((written.map (·.1)).foldl Given.set draft) := by
  induction written generalizing draft with
  | nil => exact .nil
  | cons one rest ih =>
      have handed := handed_given (fits one List.mem_cons_self) (unset one List.mem_cons_self) one.2
      rw [List.map_cons, List.map_cons, List.nodup_cons] at apart
      refine .cons handed (ih (fun other among => fits other (List.mem_cons_of_mem _ among)) apart.2
        fun other among => ?_)
      have differ : other.1.key ≠ one.1.key := by
        intro same
        exact apart.1 (same ▸ List.mem_map_of_mem (List.mem_map_of_mem among))
      rw [Given.is_set_set, unset other (List.mem_cons_of_mem _ among), Bool.false_or]
      exact decide_eq_false differ

/-- Among the members of fields, one that the draft has is refused, or another one before it. -/
theorem refused_of_set {written : List (Given × Gaps)} (fits : ∀ one ∈ written, one.1.Fits)
    {one : Given × Gaps} (among : one ∈ written) (set : one.1.isSet draft = true) :
    Refused fields .mismatched draft (membersOf written) := by
  induction written generalizing draft with
  | nil => cases among
  | cons first rest ih =>
      rw [List.forall_mem_cons] at fits
      cases own : first.1.isSet draft with
      | true =>
          have handed : Handed fields draft (first.1.member first.2) (.error .mismatched) :=
            handed_set rfl own
          exact .here handed
      | false =>
          rcases List.mem_cons.mp among with rfl | behind
          · cases set.symm.trans own
          · refine .later (handed_given fits.1 own first.2) (ih fits.2 behind ?_)
            rw [Given.is_set_set, set, Bool.true_or]

end Members

/-! ### Objects of options -/

section Objects

variable {front back : List (Given × Gaps)} {before inside behind : Gap}

theorem validate_eq (options : Options) : options.validate =
    if options.maxErrors = 0 then .error .zeroMaxErrors
    else if options.contractState = "" then .error .emptyContractState
    else if options.defaultSubstorage = "v0" ∨ options.defaultSubstorage = "v1" then .ok options
    else .error (.unknownSubstorage options.defaultSubstorage) := by
  have layouts : options.layout.map (fun _ => options) =
      if options.defaultSubstorage = "v0" ∨ options.defaultSubstorage = "v1" then .ok options
      else .error (.unknownSubstorage options.defaultSubstorage) := by
    rw [layout, Layout.ofVersion?]
    by_cases flat : options.defaultSubstorage = "v0"
    · rw [if_pos flat, if_pos (.inl flat)]
      rfl
    · by_cases nested : options.defaultSubstorage = "v1"
      · rw [if_neg flat, if_pos nested, if_pos (.inr nested)]
        rfl
      · rw [if_neg flat, if_neg nested, if_neg (not_or.mpr ⟨flat, nested⟩)]
        rfl
  rw [validate, layouts]

/-- The fields of options are read back, in any order. -/
theorem of_json_given {draft : Draft} (word : draft.complete.maxErrors < UInt64.size)
    {written : List (Given × Gaps)} (order : (written.map (·.1)).Perm draft.given) :
    ofJson (objectText before inside behind (membersOf written)) = draft.complete.validate := by
  have fits : ∀ one ∈ written, one.1.Fits := fun one among =>
    given_fits word one.1 (order.mem_iff.mp (List.mem_map_of_mem among))
  have apart := (order.map Given.key).nodup_iff.mpr (given_keys_nodup draft)
  have taken := taken_given fits apart fun one _ => Given.unset_of_none one.1
  rw [fold_perm_given order] at taken
  rw [ofJson, Json.read_all_taken taken]

section Extra

variable (fits : ∀ one ∈ front ++ back, one.1.Fits)
  (apart : (((front ++ back).map (·.1)).map Given.key).Nodup) {extra : Member}
include fits apart

theorem taken_front : Taken fields ⟨none, none, none⟩ (membersOf front)
    ((front.map (·.1)).foldl Given.set ⟨none, none, none⟩) := by
  rw [List.map_append, List.map_append, List.nodup_append] at apart
  rw [List.forall_mem_append] at fits
  exact taken_given fits.1 apart.1 fun one _ => Given.unset_of_none one.1

/-- A member that repeats a key, or has one of no field, is refused without a look at its value. -/
theorem refused_at_key
    (superfluous : extra.key ∉ ["contract_state", "max_errors", "default_substorage"] ∨
      ∃ one ∈ front, extra.key = one.1.key) :
    Refused fields .mismatched ⟨none, none, none⟩ (membersOf front ++ extra :: membersOf back) := by
  have taken := taken_front fits apart
  rcases superfluous with unknown | ⟨one, among, key⟩
  · exact taken.refused (.here (handed_unknown_key unknown))
  · refine taken.refused (.here (handed_set key ?_))
    rw [Given.is_set_fold_none]
    exact decide_eq_true (List.mem_map_of_mem (List.mem_map_of_mem among))

/-- A member with the key of a later one is refused for its value, or that one is refused for its
key. -/
theorem refused_before {value : ValueText} (text : extra.value = value.text)
    (repeated : ∃ one ∈ back, extra.key = one.1.key) :
    Refused fields value.refusal ⟨none, none, none⟩
      (membersOf front ++ extra :: membersOf back) := by
  have taken := taken_front fits apart
  rw [List.map_append, List.map_append, List.nodup_append] at apart
  rw [List.forall_mem_append] at fits
  obtain ⟨one, among, key⟩ := repeated
  have unset : one.1.isSet ((front.map (·.1)).foldl Given.set ⟨none, none, none⟩) = false := by
    rw [Given.is_set_fold_none]
    refine decide_eq_false fun inFront => ?_
    exact apart.2.2 _ inFront _ (List.mem_map_of_mem (List.mem_map_of_mem among)) rfl
  refine taken.refused ?_
  rcases handed_value key text unset with refused | ⟨mismatched, other, same, handed⟩
  · exact .here refused
  · rw [mismatched]
    refine .later handed (refused_of_set fits.2 among ?_)
    rw [Given.is_set_set, same, decide_eq_true rfl, Bool.or_true]

end Extra

/-- Options are read back from any object of their fields, in every order and without some fields
that have standard values, and are accepted or refused as they are. With a member more, whose key is
that of no field or of one that the object has already, they are refused in any case. Where this
member comes before the one with the same key, it is read first; then a number or a string that cannot
be held makes the text malformed, and any other value leads to a mismatch. -/
theorem options_survive_json {options : Options} (word : options.maxErrors < UInt64.size)
    {draft : Draft} (states : draft.complete = options)
    (order : ((front ++ back).map (·.1)).Perm draft.given) :
    ofJson (objectText before inside behind (membersOf (front ++ back))) = options.validate ∧
    options.validate =
      (if options.maxErrors = 0 then .error .zeroMaxErrors
      else if options.contractState = "" then .error .emptyContractState
      else if options.defaultSubstorage = "v0" ∨ options.defaultSubstorage = "v1" then .ok options
      else .error (.unknownSubstorage options.defaultSubstorage)) ∧
    ∀ extra : Member,
      let outcome := ofJson (objectText before inside behind
        (membersOf front ++ extra :: membersOf back))
      (extra.key ∉ ["contract_state", "max_errors", "default_substorage"] ∨
          (∃ one ∈ front, extra.key = one.1.key) → outcome = .error (.json .mismatched)) ∧
      ∀ value : ValueText, extra.value = value.text → (∃ one ∈ back, extra.key = one.1.key) →
        (value.Representable → outcome = .error (.json .mismatched)) ∧
        (value.Unrepresentable → outcome = .error (.json .malformed)) ∧
        (outcome = .error (.json .mismatched) ∨ outcome = .error (.json .malformed)) := by
  subst states
  have fits : ∀ one ∈ front ++ back, one.1.Fits := fun one among =>
    given_fits word one.1 (order.mem_iff.mp (List.mem_map_of_mem among))
  have apart := (order.map Given.key).nodup_iff.mpr (given_keys_nodup draft)
  refine ⟨of_json_given word order, validate_eq _, fun extra => ?_⟩
  intro outcome
  have refused {problem : Json.ReadError} (refused : Refused fields problem ⟨none, none, none⟩
      (membersOf front ++ extra :: membersOf back)) : outcome = .error (.json problem) := by
    change ofJson _ = _
    rw [ofJson, Json.read_all_refused refused]
  constructor
  · exact fun superfluous => refused (refused_at_key fits apart superfluous)
  · intro value text repeated
    have own := refused (refused_before fits apart text repeated)
    refine ⟨fun held => ?_, fun beyond => ?_, ?_⟩
    · rw [own, ValueText.refusal_of_representable held]
    · rw [own, ValueText.refusal_of_unrepresentable beyond]
    · rcases value.refusal_cases with mismatched | malformed
      · exact .inl (own.trans (by rw [mismatched]))
      · exact .inr (own.trans (by rw [malformed]))

/-- A text as it is, with a key of no field, with a key twice, and with a key twice where the first of
the two values cannot be held. -/
theorem reordered_options_read :
    ofJson "\x7b \"max_errors\" : 3,\n\"contract_state\":\"A\\\"pp\"\x7d" =
      .ok ⟨"A\"pp", 3, "v0"⟩ ∧
    ofJson "\x7b \"max_errors\" : 3,\"debug\":true,\n\"contract_state\":\"A\\\"pp\"\x7d" =
      .error (.json .mismatched) ∧
    ofJson "\x7b \"max_errors\" : 3,\"contract_state\":\"\",\n\"contract_state\":\"A\\\"pp\"\x7d" =
      .error (.json .mismatched) ∧
    ofJson "\x7b \"max_errors\" : 3,\"contract_state\":1e400,\n\"contract_state\":\"A\\\"pp\"\x7d" =
      .error (.json .malformed) := by
  obtain ⟨read, validated, refused⟩ := @options_survive_json
    [(.maxErrors 3, ⟨⟨" ", rfl⟩, ⟨" ", rfl⟩, ⟨" ", rfl⟩, .none⟩)]
    [(.contractState "A\"pp", ⟨⟨"\n", rfl⟩, .none, .none, .none⟩)] .none .none .none
    ⟨"A\"pp", 3, "v0"⟩ (by decide) ⟨some "A\"pp", some 3, none⟩ rfl (.swap _ _ _)
  have large : Json.NumberText.WellFormed
      ⟨false, [0x31], none, some ⟨false, none, [0x34, 0x30, 0x30]⟩⟩ :=
    { whole := ⟨List.cons_ne_nil _ _, List.all_eq_true.mp rfl⟩
      no_zero := fun zero => absurd zero (by decide)
      decimals := fun _ stated => absurd stated.symm (Option.some_ne_none _)
      exponent := by
        rintro exponent ⟨⟩
        exact ⟨List.cons_ne_nil _ _, List.all_eq_true.mp rfl⟩ }
  have beyond : (ValueText.number _ large).Unrepresentable := by
    have split : (10 : ℚ) ^ (400 : ℤ) = 10 ^ 106 * 10 ^ 294 := by
      rw [← pow_add]
      rfl
    change Json.infiniteBound ≤ (1 : ℕ) * 10 ^ (400 : ℤ)
    rw [Json.infiniteBound, split, Nat.cast_one, one_mul]
    exact mul_le_mul_of_nonneg_right (by norm_num) (pow_nonneg (by norm_num) _)
  have unknown := (refused ⟨"debug", "true", .none⟩).1 (.inl (by decide))
  have again := ((refused ⟨"contract_state", "\"\"", .none⟩).2 (.string []) rfl
    ⟨_, List.mem_cons_self, rfl⟩).1 (Option.some_ne_none _)
  have beyondAgain := ((refused ⟨"contract_state", "1e400", .none⟩).2 (.number _ large) rfl
    ⟨_, List.mem_cons_self, rfl⟩).2.1 beyond
  refine ⟨?_, ?_, ?_, ?_⟩
  · exact (congrArg ofJson (by decide +kernel)).trans (read.trans (validated.trans rfl))
  · exact (congrArg ofJson (by decide +kernel)).trans unknown
  · exact (congrArg ofJson (by decide +kernel)).trans again
  · exact (congrArg ofJson (by decide +kernel)).trans beyondAgain

/-- The number is read before its key is seen to be repeated, and so is the string. -/
theorem repeated_key_found_malformed :
    ofJson "\x7b\"max_errors\":3\x7d" = .ok ⟨"ContractState", 3, "v0"⟩ ∧
    ofJson "\x7b\"max_errors\":1e400,\"max_errors\":3\x7d" = .error (.json .malformed) ∧
    ofJson "\x7b\"max_errors\":1e400,\"max_errors\":3\x7d" ≠ .error (.json .mismatched) ∧
    ofJson "\x7b\"contract_state\":\"A\"\x7d" = .ok ⟨"A", 20, "v0"⟩ ∧
    ofJson "\x7b\"contract_state\":\"\\ud800\",\"contract_state\":\"A\"\x7d" =
      .error (.json .malformed) ∧
    ofJson "\x7b\"contract_state\":\"\\ud800\",\"contract_state\":\"A\"\x7d" ≠
      .error (.json .mismatched) := by
  decide +kernel

end Objects

end Composer.Options
