import SpeechService.Json.Record
import SpeechService.Json.Value
import SpeechService.Proofs.Json.Skip

/-!
What a value means to a reader that takes it off its input character by character. A `TypedField` is
a field together with what a value does to a record there; then reading a record is a fold over the
members of an object, or over the items of a list, whatever space stands between them.
-/

set_option autoImplicit false

namespace SpeechService.Json

/-- Behind any space, every form of a value is read as `meaning` says. -/
def Reader.Means {α : Type} (reader : Reader α) (meaning : Value → Except Fault α) : Prop :=
  ∀ (depth : Nat) (text : List Char) (value : Value) (space rest : List Char),
    ValueForm depth text value → Space space → EndsNumber rest →
      reader (space ++ (text ++ rest)) = (meaning value).map (·, rest)

theorem readNumber_of_readScalar {c : Char} {tail rest : Input} {value : Value}
    (h : readScalar (c :: tail) = .ok (value, rest)) (front : c = '-' ∨ c.isDigit = true) :
    ∃ number, readNumber (c :: tail) = .ok (number, rest) ∧ value = .number number := by
  rw [readScalar_of_number front] at h
  obtain ⟨⟨number, left⟩, read, same⟩ := exists_of_bind_eq_ok h
  cases same
  exact ⟨number, read, rfl⟩

theorem natural?_of_readScalar {c : Char} {tail rest : Input} {value : Value}
    (h : readScalar (c :: tail) = .ok (value, rest)) (other : ¬(c = '-' ∨ c.isDigit = true))
    (greatest : Nat) : value.natural? greatest = none := by
  rw [readScalar.eq_def] at h
  split at h
  · obtain ⟨pair, -, same⟩ := exists_of_bind_eq_ok h
    cases same
    rfl
  · obtain ⟨pair, -, same⟩ := exists_of_bind_eq_ok h
    cases same
    rfl
  · obtain ⟨pair, -, same⟩ := exists_of_bind_eq_ok h
    cases same
    rfl
  · obtain ⟨pair, -, same⟩ := exists_of_bind_eq_ok h
    cases same
    rfl
  · cases h
  · rename_i same
    cases same
    rw [if_neg other] at h
    cases h

def naturalMeaning (greatest : Nat) (value : Value) : Except Fault Nat :=
  match value.natural? greatest with
  | some number => .ok number
  | none => .error .mismatched

theorem Value.natural?_eq_some_iff {greatest natural : Nat} {value : Value} :
    value.natural? greatest = some natural ↔
      ∃ number : UInt64, value = .number (.natural number) ∧ number.toNat = natural ∧
        natural ≤ greatest := by
  constructor
  · intro h
    rw [Value.natural?.eq_def] at h
    split at h
    · rw [Number.natural?.eq_def] at h
      split at h
      · rename_i number
        split at h
        · rename_i fits
          cases h
          exact ⟨number, rfl, rfl, fits⟩
        · cases h
      · cases h
    · cases h
  · rintro ⟨number, rfl, rfl, fits⟩
    rw [Value.natural?, Number.natural?, if_pos fits]

theorem naturalMeaning_eq_ok_iff {greatest natural : Nat} {value : Value} :
    naturalMeaning greatest value = .ok natural ↔ value.natural? greatest = some natural := by
  rw [naturalMeaning]
  cases value.natural? greatest <;> simp

theorem readNatural_of_readValue {depth : Nat} {input rest : Input} {value : Value}
    (h : readValue depth input = .ok (value, rest)) (greatest : Nat) :
    readNatural greatest input = (naturalMeaning greatest value).map (·, rest) := by
  have mismatched := mismatch_of_readValue h
  rw [readValue.eq_def] at h
  rw [readNatural, naturalMeaning]
  split at h
  · cases h
  · cases h
  · rename_i front
    obtain ⟨pair, -, same⟩ := exists_of_bind_eq_ok h
    cases same
    simp only [front, mismatched]
    rfl
  · rename_i front
    obtain ⟨pair, -, same⟩ := exists_of_bind_eq_ok h
    cases same
    simp only [front, mismatched]
    rfl
  · cases front : skipSpace input with
    | nil =>
      rw [front] at h
      cases h
    | cons c tail =>
      rw [front] at h
      dsimp only
      by_cases digits : c = '-' ∨ c.isDigit = true
      · obtain ⟨number, read, rfl⟩ := readNumber_of_readScalar h digits
        rw [if_pos digits, read, Value.natural?]
        simp only [Bind.bind, Except.bind]
        cases number.natural? greatest <;> rfl
      · rw [if_neg digits, natural?_of_readScalar h digits, mismatched]
        rfl

theorem readNatural_means (greatest : Nat) :
    Reader.Means (readNatural greatest) (naturalMeaning greatest) := by
  intro depth text value space rest form lead ends
  have read := form.readAs.reads rest ends
  rw [← readValue_space lead] at read
  exact readNatural_of_readValue read greatest

variable {σ : Type}

structure TypedField (σ : Type) where
  field : Field σ
  step : σ → Value → Except Fault σ
  reads : ∀ record, Reader.Means (field.read record) (step record)

theorem Reader.Means.store {α : Type} {reader : Reader α} {meaning : Value → Except Fault α}
    (h : reader.Means meaning) (f : α → σ) :
    Reader.Means (fun input => do
      let (value, rest) ← reader input
      .ok (f value, rest)) (fun value => (meaning value).map f) := by
  intro depth text value space rest form lead ends
  simp only [h depth text value space rest form lead ends]
  cases meaning value <;> rfl

def TypedField.of {α : Type} (name : String) {reader : Reader α}
    {meaning : Value → Except Fault α} (h : reader.Means meaning) (store : σ → α → σ) :
    TypedField σ where
  field := .of name reader store
  step record value := (meaning value).map (store record)
  reads record := h.store (store record)

/-- What a member does to a record, and to the names of the fields that were given. -/
def recordStep (fields : List (TypedField σ)) (state : List String × σ) (member : String × Value) :
    Except Fault (List String × σ) :=
  match fields.find? (·.field.name == member.1) with
  | none => .ok state
  | some field =>
    if state.1.contains member.1 then .error .mismatched
    else (field.step state.2 member.2).map (member.1 :: state.1, ·)

def placeItems : List (TypedField σ) → List Value → σ → Except Fault σ
  | _, [], record => .ok record
  | [], _ :: _, _ => .error .malformed
  | field :: fields, value :: values, record =>
    (field.step record value).bind (placeItems fields values)

def recordMeaning (fields : List (TypedField σ)) (defaults : σ) : Value → Except Fault σ
  | .object members => (members.foldlM (recordStep fields) ([], defaults)).map Prod.snd
  | .list values => placeItems fields values defaults
  | _ => .error .mismatched

theorem readColon_member {before after : List Char} (blank : Space before) (rest : Input) :
    readColon (before ++ ':' :: (after ++ rest)) = .ok (after ++ rest) := by
  rw [readColon, blank.skipSpace, skipSpace_cons (by decide)]
  rfl

variable {depth : Nat}

theorem MemberForm.recordStep (fields : List (TypedField σ)) {text : List Char} {member : Member}
    (h : MemberForm (ValueForm depth) text member) :
    MemberStep (readField (fields.map TypedField.field)) (recordStep fields) text member.entry := by
  obtain @⟨quoted, before, after, _, named, blank, lead, value⟩ := h
  refine .mk named ?_
  intro state rest ends
  have colon : readColon (before ++ ':' :: (after ++ member.text) ++ rest) =
      .ok (after ++ (member.text ++ rest)) := by
    rw [List.append_assoc, List.cons_append, List.append_assoc, readColon_member blank]
  have lookup : (fields.map TypedField.field).find? (·.name == member.name) =
      (fields.find? (·.field.name == member.name)).map TypedField.field := List.find?_map
  rw [readField, Json.recordStep, lookup, Member.entry]
  dsimp only
  cases fields.find? (·.field.name == member.name) with
  | none =>
    rw [colon]
    simp only [Option.map_none, Bind.bind, Except.bind, value.skipValue lead ends]
    rfl
  | some field =>
    dsimp only [Option.map_some]
    split
    · rfl
    · have read := field.reads state.2 depth _ _ _ _ value lead ends
      rw [colon]
      simp only [Bind.bind, Except.bind, read]
      cases field.step state.2 member.value <;> rfl

section Positions

variable {space before text : List Char}

theorem readPositions_close (fields : List (Field σ)) (first : Bool) (record : σ)
    (blank : Space space) (rest : Input) :
    readPositions fields first record (space ++ ']' :: rest) = .ok (record, rest) := by
  have closing := (blank.skipSpace (']' :: rest)).trans (skipSpace_cons (by decide) rest)
  cases fields <;> simp only [readPositions, closing]

theorem readPositions_first (begins : BeginsValue text) (lead : Space before) (field : Field σ)
    (fields : List (Field σ)) (record : σ) (rest : Input) :
    readPositions (field :: fields) true record (before ++ (text ++ rest)) = (do
      let (record, rest) ← field.read record (text ++ rest)
      readPositions fields false record rest) := by
  have front : skipSpace (before ++ (text ++ rest)) = text ++ rest := by
    rw [lead.skipSpace, begins.skipSpace]
  obtain ⟨c, tail, rfl, -, open?⟩ := begins
  rw [readPositions, front]
  split
  · rename_i nothing
    cases nothing
  · rename_i closed
    cases closed
    exact absurd rfl open?
  · rfl

theorem readPositions_next (begins : BeginsValue text) (blank : Space space) (lead : Space before)
    (field : Field σ) (fields : List (Field σ)) (record : σ) (rest : Input) :
    readPositions (field :: fields) false record (space ++ ',' :: (before ++ (text ++ rest))) =
      (do
        let (record, rest) ← field.read record (text ++ rest)
        readPositions fields false record rest) := by
  have comma : skipSpace (space ++ ',' :: (before ++ (text ++ rest))) =
      ',' :: (before ++ (text ++ rest)) := by
    rw [blank.skipSpace, skipSpace_cons (by decide)]
  have front : skipSpace (before ++ (text ++ rest)) = text ++ rest := by
    rw [lead.skipSpace, begins.skipSpace]
  obtain ⟨c, tail, rfl, -, open?⟩ := begins
  rw [readPositions, comma]
  split
  · rename_i nothing
    cases nothing
  · rename_i closed
    cases closed
  · rw [if_neg Bool.false_ne_true]
    split
    · rename_i same
      cases same
      rw [front]
      split
      · rename_i nothing
        cases nothing
      · rename_i closed
        cases closed
        exact absurd rfl open?
      · rfl
    · rename_i other
      exact absurd rfl (other _)

variable {texts : List (List Char)} {values : List Value} {inner : List Char}

theorem readPositions_of_further (each : List.Forall₂ (ValueForm depth) texts values)
    (form : FurtherForm texts inner) (fields : List (TypedField σ)) (record : σ) (rest : Input) :
    readPositions (fields.map TypedField.field) false record (inner ++ ']' :: rest) =
      (placeItems fields values record).map (·, rest) := by
  induction each generalizing inner fields record with
  | nil =>
    cases form with
    | nil blank =>
      rw [readPositions_close _ _ _ blank, placeItems]
      rfl
  | @cons text value texts values first others ih =>
    cases form with
    | @cons space before _ later _ blank lead further =>
      have ends := further.endsNumber (show isNumeric ']' = false by decide) rest
      have whole : space ++ ',' :: (before ++ (text ++ later)) ++ ']' :: rest =
          space ++ ',' :: (before ++ (text ++ (later ++ ']' :: rest))) := by
        simp only [List.append_assoc, List.cons_append]
      rw [whole]
      cases fields with
      | nil =>
        rw [List.map_nil, readPositions, blank.skipSpace, skipSpace_cons (by decide)]
        rfl
      | cons field fields =>
        have read := field.reads record depth text value [] _ first space_nil ends
        rw [List.nil_append] at read
        rw [List.map_cons, readPositions_next first.readAs.begins blank lead, read, placeItems]
        cases field.step record value with
        | error fault => rfl
        | ok next => exact ih further fields next

theorem readPositions_of_items (each : List.Forall₂ (ValueForm depth) texts values)
    (form : ItemsForm texts inner) (fields : List (TypedField σ)) (record : σ) (rest : Input) :
    readPositions (fields.map TypedField.field) true record (inner ++ ']' :: rest) =
      (placeItems fields values record).map (·, rest) := by
  cases form with
  | nil blank =>
    cases each
    rw [readPositions_close _ _ _ blank, placeItems]
    rfl
  | @cons before text later texts lead further =>
    cases each with
    | @cons _ value _ values first others =>
      have ends := further.endsNumber (show isNumeric ']' = false by decide) rest
      have whole : before ++ (text ++ later) ++ ']' :: rest =
          before ++ (text ++ (later ++ ']' :: rest)) := by
        simp only [List.append_assoc]
      rw [whole]
      cases fields with
      | nil =>
        obtain ⟨c, tail, rfl, space, open?⟩ := first.readAs.begins
        rw [List.map_nil, readPositions, lead.skipSpace, List.cons_append, skipSpace_cons space]
        split
        · rename_i nothing
          cases nothing
        · rename_i closed
          cases closed
          exact absurd rfl open?
        · rfl
      | cons field fields =>
        have read := field.reads record depth text value [] _ first space_nil ends
        rw [List.nil_append] at read
        rw [List.map_cons, readPositions_first first.readAs.begins lead, read, placeItems]
        cases field.step record value with
        | error fault => rfl
        | ok next => exact readPositions_of_further others further fields next rest

end Positions

theorem ScalarForm.recordMeaning {text : List Char} {value : Value} (h : ScalarForm text value)
    (fields : List (TypedField σ)) (defaults : σ) :
    recordMeaning fields defaults value = .error .mismatched := by
  cases h <;> rfl

/-- A record is read from an object member by member, from a list item by item, and from nothing
else. -/
theorem readRecord_means (fields : List (TypedField σ)) (defaults : σ) :
    Reader.Means (readRecord (fields.map TypedField.field) defaults)
      (recordMeaning fields defaults) := by
  intro depth text value space rest form lead ends
  have front : skipSpace (space ++ (text ++ rest)) = text ++ rest := by
    rw [lead.skipSpace, form.readAs.begins.skipSpace]
  rw [readRecord, front]
  rcases form.forms with scalar | ⟨depth, items, @⟨inner, texts, _, each, items⟩, rfl⟩ |
    ⟨depth, members, @⟨inner, texts, _, each, items⟩, rfl⟩
  · have read := form.readAs.reads rest ends
    rw [← readValue_space lead] at read
    rw [mismatch_of_readValue read, scalar.recordMeaning]
    obtain ⟨c, tail, rfl, opens⟩ := scalar.opens
    obtain ⟨-, list, -, object⟩ := opensScalar_iff.1 opens
    split
    · rename_i brace
      cases brace
      exact absurd rfl object
    · rename_i bracket
      cases bracket
      exact absurd rfl list
    · rfl
  · have read := readPositions_of_items each items fields defaults rest
    rw [List.cons_append, List.append_assoc]
    exact read
  · have steps : List.Forall₂ (MemberStep (readField (fields.map TypedField.field))
        (recordStep fields)) texts (members.map Member.entry) := by
      rw [List.forall₂_map_right_iff]
      exact each.imp fun _ _ member => member.recordStep fields
    have read := readMembers_of_steps steps items ([], defaults) rest
    rw [List.cons_append, List.append_assoc]
    simp only [List.cons_append, List.nil_append, read, recordMeaning]
    cases (members.map Member.entry).foldlM (recordStep fields) ([], defaults) <;> rfl

/-- What a value gives as a record with one field: the defaults if the field is absent, else what
its value holds. -/
inductive Single (name : String) (defaults : σ) (holds : Value → σ → Prop) : Value → σ → Prop
  | absent {members : List (String × Value)} (absent : ∀ member ∈ members, member.1 ≠ name) :
      Single name defaults holds (.object members) defaults
  | member {before after : List (String × Value)} {value : Value} {record : σ}
      (others : ∀ member ∈ before ++ after, member.1 ≠ name) (held : holds value record) :
      Single name defaults holds (.object (before ++ (name, value) :: after)) record
  | noItem : Single name defaults holds (.list []) defaults
  | item {value : Value} {record : σ} (held : holds value record) :
      Single name defaults holds (.list [value]) record

section SingleField

variable {field : TypedField σ} {state : List String × σ} {member : String × Value}
  {members : List (String × Value)}

theorem recordStep_other (other : member.1 ≠ field.field.name) :
    recordStep [field] state member = .ok state := by
  rw [recordStep, List.find?_cons_of_neg, List.find?_nil]
  simpa using Ne.symm other

theorem recordStep_named (named : member.1 = field.field.name) :
    recordStep [field] state member =
      if state.1.contains member.1 then .error .mismatched
      else (field.step state.2 member.2).map (member.1 :: state.1, ·) := by
  rw [recordStep, List.find?_cons_of_pos]
  simp [named]

theorem foldlM_recordStep_others (others : ∀ member ∈ members, member.1 ≠ field.field.name) :
    members.foldlM (recordStep [field]) state = .ok state := by
  induction members with
  | nil => rfl
  | cons member members ih =>
    obtain ⟨other, others⟩ := List.forall_mem_cons.1 others
    rw [List.foldlM_cons, recordStep_other other]
    exact ih others

theorem others_of_foldlM_recordStep {result : List String × σ}
    (given : field.field.name ∈ state.1)
    (h : members.foldlM (recordStep [field]) state = .ok result) :
    ∀ member ∈ members, member.1 ≠ field.field.name := by
  induction members with
  | nil => exact List.forall_mem_nil _
  | cons member members ih =>
    rw [List.foldlM_cons] at h
    by_cases named : member.1 = field.field.name
    · have again : state.1.contains member.1 = true := List.contains_iff_mem.2 (named ▸ given)
      rw [recordStep_named named, if_pos again] at h
      cases h
    · rw [recordStep_other named] at h
      exact List.forall_mem_cons.2 ⟨named, ih h⟩

theorem single_of_foldlM {defaults : σ} {result : List String × σ}
    (h : members.foldlM (recordStep [field]) ([], defaults) = .ok result) :
    Single field.field.name defaults (fun value record => field.step defaults value = .ok record)
      (.object members) result.2 := by
  induction members with
  | nil =>
    cases h
    exact .absent (List.forall_mem_nil _)
  | cons member members ih =>
    rw [List.foldlM_cons] at h
    by_cases named : member.1 = field.field.name
    · obtain ⟨name, value⟩ := member
      dsimp only at named
      subst named
      rw [recordStep_named rfl] at h
      obtain ⟨next, first, later⟩ := exists_of_bind_eq_ok h
      rw [if_neg (by simp)] at first
      cases held : field.step defaults value with
      | error fault =>
        rw [held] at first
        cases first
      | ok record =>
        rw [held] at first
        cases first
        have others := others_of_foldlM_recordStep List.mem_cons_self later
        rw [foldlM_recordStep_others others] at later
        cases later
        exact @Single.member _ _ _ _ [] _ _ _ others held
    · rw [recordStep_other named] at h
      cases ih h with
      | absent absent => exact .absent (List.forall_mem_cons.2 ⟨named, absent⟩)
      | @member before after value record others held =>
        have fresh : ∀ other ∈ member :: (before ++ after), other.1 ≠ field.field.name :=
          List.forall_mem_cons.2 ⟨named, others⟩
        exact @Single.member _ _ _ _ (member :: before) _ _ _ fresh held

theorem recordMeaning_single_iff {defaults record : σ} {value : Value} :
    recordMeaning [field] defaults value = .ok record ↔
      Single field.field.name defaults (fun value record => field.step defaults value = .ok record)
        value record := by
  constructor
  · intro h
    cases value with
    | object members =>
      rw [recordMeaning] at h
      cases fold : members.foldlM (recordStep [field]) ([], defaults) with
      | error fault =>
        rw [fold] at h
        cases h
      | ok result =>
        rw [fold] at h
        cases h
        exact single_of_foldlM fold
    | list values =>
      rcases values with _ | ⟨value, _ | ⟨other, values⟩⟩
      · cases h
        exact .noItem
      · rw [recordMeaning, placeItems] at h
        obtain ⟨next, held, same⟩ := exists_of_bind_eq_ok h
        cases same
        exact .item held
      · rw [recordMeaning, placeItems] at h
        obtain ⟨next, held, same⟩ := exists_of_bind_eq_ok h
        cases same
    | null => cases h
    | bool value => cases h
    | number value => cases h
    | text value => cases h
  · intro h
    cases h with
    | absent absent =>
      rw [recordMeaning, foldlM_recordStep_others absent]
      rfl
    | member others held =>
      obtain ⟨earlier, later⟩ := List.forall_mem_append.1 others
      rw [recordMeaning, List.foldlM_append, foldlM_recordStep_others earlier]
      simp only [Bind.bind, Except.bind, List.foldlM_cons]
      rw [recordStep_named rfl, if_neg (by simp), held]
      simp only [Except.map, foldlM_recordStep_others later]
    | noItem => rfl
    | item held =>
      rw [recordMeaning, placeItems, held]
      rfl

end SingleField

/-- A text with one value, nested in any depth, and nothing but space around it. -/
def Document (text : String) (value : Value) : Prop :=
  ∃ depth before form after, Space before ∧ ValueForm depth form value ∧ Space after ∧
    text.toList = before ++ (form ++ after)

theorem readDocument_means {α : Type} {reader : Reader α} {meaning : Value → Except Fault α}
    (h : reader.Means meaning) {text : String} {value : Value} (document : Document text value) :
    readDocument reader text = meaning value := by
  obtain ⟨depth, before, form, after, lead, valued, blank, whole⟩ := document
  have ends : EndsNumber after := by
    have read := blank.endsNumber (show EndsNumber [] from nofun)
    rw [List.append_nil] at read
    exact read
  have closed : skipSpace after = [] := by
    have skip := blank.skipSpace []
    rw [List.append_nil] at skip
    exact skip
  rw [readDocument, whole, h depth form value before after valued lead ends]
  cases meaning value with
  | error fault => rfl
  | ok value =>
    simp only [Except.map, Bind.bind, Except.bind, closed]
    rfl

end SpeechService.Json
