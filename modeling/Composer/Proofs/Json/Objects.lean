import Composer.Proofs.Json.Numbers
import Composer.Proofs.Json.Quoted

/-!
Objects, as they are written and read into records. Any blanks may stand between the parts of an
object. Its members are taken one after another: each is handed to its field, and the first one that
is refused decides, whatever stands behind it.
-/

namespace Composer.Json

/-! ### Texts of objects -/

structure Gaps where
  beforeKey : Gap
  behindKey : Gap
  beforeValue : Gap
  behindValue : Gap

def Gaps.none : Gaps := ⟨.none, .none, .none, .none⟩

structure Member where
  key : String
  value : String
  gaps : Gaps

def Member.text (member : Member) : String :=
  member.gaps.beforeKey.text ++ quote member.key ++ member.gaps.behindKey.text ++ ":" ++
    member.gaps.beforeValue.text ++ member.value ++ member.gaps.behindValue.text

def objectText (before inside behind : Gap) (members : List Member) : String :=
  before.text ++ "\x7b" ++ inside.text ++ String.intercalate "," (members.map Member.text) ++
    "\x7d" ++ behind.text

def Member.behindKey (member : Member) (text : List UInt8) : List UInt8 :=
  member.gaps.behindKey.bytes ++ 0x3a :: (member.gaps.beforeValue.bytes ++
    (textBytes member.value ++ (member.gaps.behindValue.bytes ++ text)))

/-- The members of an object from one on, and the text behind them. All but the first one of the
object have a comma in front. -/
def memberBytes (first : Bool) (text : List UInt8) : List Member → List UInt8
  | [] => text
  | member :: rest =>
      (if first then [] else [0x2c]) ++ (member.gaps.beforeKey.bytes ++ 0x22 ::
        (escapedBytes member.key.toList ++ 0x22 :: member.behindKey (memberBytes false text rest)))

theorem member_text_bytes (member : Member) (text : List UInt8) :
    textBytes member.text ++ text = member.gaps.beforeKey.bytes ++ 0x22 ::
      (escapedBytes member.key.toList ++ 0x22 :: member.behindKey text) := by
  have colon : textBytes ":" = [0x3a] := rfl
  simp only [Member.text, text_bytes_append, quote_bytes, colon, Member.behindKey, Gap.bytes,
    List.append_assoc, List.cons_append, List.nil_append]

theorem object_text_bytes (before inside behind : Gap) (members : List Member) :
    textBytes (objectText before inside behind members) =
      before.bytes ++ 0x7b :: (inside.bytes ++
        memberBytes true (0x7d :: behind.bytes) members) := by
  have opening : textBytes "\x7b" = [0x7b] := rfl
  have closing : textBytes "\x7d" = [0x7d] := rfl
  have comma : textBytes "," = [0x2c] := rfl
  have joined (members : List Member) (text : List UInt8) :
      textBytes (String.intercalate "," (members.map Member.text)) ++ text =
        memberBytes true text members := by
    induction members with
    | nil => rfl
    | cons member rest ih =>
        cases rest with
        | nil =>
            rw [List.map_singleton, String.intercalate_singleton, member_text_bytes]
            rfl
        | cons next others =>
            rw [List.map_cons, List.map_cons, String.intercalate_cons_cons, ← List.map_cons,
              text_bytes_append, text_bytes_append, comma, List.append_assoc, List.append_assoc, ih,
              member_text_bytes]
            rfl
  simp only [objectText, text_bytes_append, opening, closing, List.append_assoc, Gap.bytes,
    List.cons_append, List.nil_append]
  rw [joined]

/-! ### Members one after another -/

section Fields

variable {State : Type} {fields : List (RecordField State)}

def EndsValue (text : List UInt8) : Prop := text.head? = some 0x2c ∨ text.head? = some 0x7d

def Handed (fields : List (RecordField State)) (state : State) (member : Member)
    (outcome : Except ReadError State) : Prop :=
  ∀ text, EndsValue text → readKeyed fields .refused state member.key (member.behindKey text) =
    outcome.map fun state => (state, member.gaps.behindValue.bytes ++ text)

inductive Taken (fields : List (RecordField State)) : State → List Member → State → Prop
  | nil {state : State} : Taken fields state [] state
  | cons {state next last : State} {member : Member} {rest : List Member} :
      Handed fields state member (.ok next) → Taken fields next rest last →
        Taken fields state (member :: rest) last

inductive Refused (fields : List (RecordField State)) (problem : ReadError) :
    State → List Member → Prop
  | here {state : State} {member : Member} {rest : List Member} :
      Handed fields state member (.error problem) → Refused fields problem state (member :: rest)
  | later {state next : State} {member : Member} {rest : List Member} :
      Handed fields state member (.ok next) → Refused fields problem next rest →
        Refused fields problem state (member :: rest)

theorem Taken.refused {state next : State} {front back : List Member} {problem : ReadError}
    (taken : Taken fields state front next) (refused : Refused fields problem next back) :
    Refused fields problem state (front ++ back) := by
  induction taken with
  | nil => exact refused
  | cons handed _ ih => exact .later handed (ih refused)

/-- Reading goes on from this state and text with this outcome, whatever fuel is left. -/
def Gives (fields : List (RecordField State)) (first : Bool) (state : State) (text : List UInt8)
    (outcome : Except ReadError (State × List UInt8)) : Prop :=
  ∀ fuel, text.length < fuel →
    readFields readQuoted (readKeyed fields .refused) fuel first state text = outcome

section Single

variable {state : State} {member : Member}

/-- A key that is that of no field is refused, whatever its value is. -/
theorem handed_unknown (unknown : fields.find? (·.name = member.key) = none) :
    Handed fields state member (.error .mismatched) := by
  intro text _
  rw [readKeyed.eq_def, unknown]
  rfl

/-- A key that was taken before is refused, whatever its value is. -/
theorem handed_again {field : RecordField State}
    (found : fields.find? (·.name = member.key) = some field) (isSet : field.isSet state = true) :
    Handed fields state member (.error .mismatched) := by
  intro text _
  rw [readKeyed.eq_def, found]
  exact if_pos isSet

theorem handed_value {field : RecordField State}
    (found : fields.find? (·.name = member.key) = some field) (unset : field.isSet state = false)
    {outcome : Except ReadError State}
    (read : ∀ text, EndsValue text → field.read state (member.gaps.beforeValue.bytes ++
      (textBytes member.value ++ (member.gaps.behindValue.bytes ++ text))) =
        outcome.map fun state => (state, member.gaps.behindValue.bytes ++ text)) :
    Handed fields state member outcome := by
  intro text ends
  have colon (bytes : List UInt8) : skipBlanks (0x3a :: bytes) = 0x3a :: bytes := rfl
  rw [readKeyed.eq_def, found]
  dsimp only
  rw [unset, Member.behindKey, readColon, skip_gap, colon]
  exact read text ends

end Single

theorem ends_value_of_members (behind : List UInt8) (members : List Member) :
    EndsValue (memberBytes false (0x7d :: behind) members) := by
  cases members with
  | nil => exact .inr rfl
  | cons => exact .inl rfl

theorem next_key_gap (gap : Gap) (first : Bool) (text : List UInt8) :
    nextKey readQuoted first (gap.bytes ++ text) = nextKey readQuoted first text := by
  unfold nextKey
  rw [skip_gap]

theorem Gives.gap {first : Bool} {state : State} {text : List UInt8}
    {outcome : Except ReadError (State × List UInt8)}
    (gives : Gives fields first state text outcome) (gap : Gap) :
    Gives fields first state (gap.bytes ++ text) outcome := by
  intro fuel enough
  rw [List.length_append] at enough
  have own := gives fuel (by omega)
  cases fuel with
  | zero => omega
  | succ fuel =>
      rw [readFields] at own ⊢
      rw [next_key_gap]
      exact own

theorem gives_close (first : Bool) (state : State) (text : List UInt8) :
    Gives fields first state (0x7d :: text) (.ok (state, text)) := by
  intro fuel enough
  cases fuel with
  | zero => cases enough
  | succ fuel => rfl

theorem next_key_member (first : Bool) (member : Member) (rest : List Member)
    (text : List UInt8) :
    nextKey readQuoted first (memberBytes first text (member :: rest)) =
      .ok (some member.key, member.behindKey (memberBytes false text rest)) := by
  have quoted := read_quoted member.key (member.behindKey (memberBytes false text rest))
  have solid (bytes : List UInt8) : skipBlanks (0x22 :: bytes) = 0x22 :: bytes := rfl
  have comma (bytes : List UInt8) : skipBlanks (0x2c :: bytes) = 0x2c :: bytes := rfl
  cases first with
  | true =>
      change nextKey readQuoted true (member.gaps.beforeKey.bytes ++ 0x22 :: _) = _
      rw [nextKey, skip_gap, solid]
      change (readQuoted _ >>= _) = _
      rw [quoted]
      rfl
  | false =>
      change nextKey readQuoted false (0x2c :: (member.gaps.beforeKey.bytes ++ 0x22 :: _)) = _
      rw [nextKey, comma]
      dsimp only
      rw [skip_gap, solid]
      change (readQuoted _ >>= _) = _
      rw [quoted]
      rfl

theorem member_bytes_length (first : Bool) (text : List UInt8) (member : Member)
    (rest : List Member) : (member.gaps.behindValue.bytes ++ memberBytes false text rest).length <
      (memberBytes first text (member :: rest)).length := by
  rw [memberBytes, Member.behindKey]
  simp only [List.length_append, List.length_cons]
  omega

/-- A member that is taken leaves the next ones. -/
theorem Gives.member {first : Bool} {state next : State} {member : Member} {rest : List Member}
    {behind : List UInt8} {outcome : Except ReadError (State × List UInt8)}
    (handed : Handed fields state member (.ok next))
    (gives : Gives fields false next (memberBytes false (0x7d :: behind) rest) outcome) :
    Gives fields first state (memberBytes first (0x7d :: behind) (member :: rest)) outcome := by
  intro fuel enough
  have shorter := member_bytes_length first (0x7d :: behind) member rest
  cases fuel with
  | zero => cases enough
  | succ fuel =>
      rw [readFields, next_key_member]
      change (readKeyed fields .refused state member.key _ >>= _) = _
      rw [handed _ (ends_value_of_members behind rest)]
      exact gives.gap member.gaps.behindValue fuel (by omega)

/-- A member that is refused decides, whatever stands behind it. -/
theorem gives_refusal {first : Bool} {state : State} {member : Member} {rest : List Member}
    {behind : List UInt8} {problem : ReadError}
    (handed : Handed fields state member (.error problem)) :
    Gives fields first state (memberBytes first (0x7d :: behind) (member :: rest))
      (.error problem) := by
  intro fuel enough
  cases fuel with
  | zero => cases enough
  | succ fuel =>
      rw [readFields, next_key_member]
      change (readKeyed fields .refused state member.key _ >>= _) = _
      rw [handed _ (ends_value_of_members behind rest)]
      rfl

theorem Taken.gives {state last : State} {members : List Member}
    (taken : Taken fields state members last) (first : Bool) (behind : List UInt8) :
    Gives fields first state (memberBytes first (0x7d :: behind) members) (.ok (last, behind)) := by
  induction taken generalizing first with
  | nil => exact gives_close first _ behind
  | cons handed _ ih => exact .member handed (ih false)

theorem Refused.gives {state : State} {members : List Member} {problem : ReadError}
    (refused : Refused fields problem state members) (first : Bool) (behind : List UInt8) :
    Gives fields first state (memberBytes first (0x7d :: behind) members) (.error problem) := by
  induction refused generalizing first with
  | here handed => exact gives_refusal handed
  | later handed _ ih => exact .member handed (ih false)

end Fields

/-! ### Whole texts -/

section Whole

variable {State : Type} {fields : List (RecordField State)} {initial : State}
  {before inside behind : Gap} {members : List Member}

theorem read_object {outcome : Except ReadError (State × List UInt8)}
    (gives : Gives fields true initial (memberBytes true (0x7d :: behind.bytes) members) outcome) :
    readRecord fields .refused initial (textBytes (objectText before inside behind members)) =
      outcome := by
  have opening (bytes : List UInt8) : skipBlanks (0x7b :: bytes) = 0x7b :: bytes := rfl
  rw [object_text_bytes, readRecord, skip_gap, opening]
  exact gives.gap inside _ (Nat.lt_succ_self _)

/-- An object of which all members are taken is read as the last state. -/
theorem read_all_taken {last : State} (taken : Taken fields initial members last) :
    readAll (readRecord fields .refused initial) (objectText before inside behind members) =
      .ok last := by
  have blank := skip_gap behind []
  rw [List.append_nil] at blank
  change (readRecord fields .refused initial (textBytes _) >>= _) = _
  rw [read_object (taken.gives true behind.bytes)]
  exact if_pos blank

/-- An object is refused for the first member that is. -/
theorem read_all_refused {problem : ReadError}
    (refused : Refused fields problem initial members) :
    readAll (readRecord fields .refused initial) (objectText before inside behind members) =
      .error problem := by
  change (readRecord fields .refused initial (textBytes _) >>= _) = _
  rw [read_object (refused.gives true behind.bytes)]
  rfl

end Whole

end Composer.Json
