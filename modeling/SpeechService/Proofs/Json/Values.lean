import SpeechService.Json.Value
import SpeechService.Proofs.Json.Grammar
import SpeechService.Proofs.Json.Number

/-!
Values inside a longer text. `ReadAs` says that a text is read as a value, whatever follows it; it
holds of every form of a value. `Spells` says in addition that the text stands on one line, which
holds of every text that is written. Lists and objects go item by item: reading an item is a step
from one state to the next, or the refusal of it; then reading all of them takes these steps one
after another, whatever space stands between the items.
-/

set_option autoImplicit false

namespace SpeechService.Json

theorem skipSpace_cons {c : Char} (h : isSpace c = false) (rest : Input) :
    skipSpace (c :: rest) = c :: rest := by
  rw [skipSpace, List.dropWhile_cons, h, if_neg Bool.false_ne_true]

theorem Space.skipSpace {space : List Char} (h : Space space) (rest : Input) :
    skipSpace (space ++ rest) = skipSpace rest := by
  have all : ∀ c ∈ [' ', '\n', '\t', '\r'], isSpace c = true := List.all_eq_true.1 (by decide)
  exact List.dropWhile_append_of_pos fun c mem => all c (h c mem)

theorem space_nil : Space [] := List.forall_mem_nil _

theorem Space.endsNumber {space : List Char} (h : Space space) {rest : Input}
    (ends : EndsNumber rest) : EndsNumber (space ++ rest) := by
  have all : ∀ c ∈ [' ', '\n', '\t', '\r'], isNumeric c = false := by
    simp only [List.forall_mem_cons]
    exact ⟨rfl, rfl, rfl, rfl, List.forall_mem_nil _⟩
  cases space with
  | nil => exact ends
  | cons c space => exact endsNumber_cons (all c (h c List.mem_cons_self)) _

theorem FurtherForm.endsNumber {texts : List (List Char)} {inner : List Char}
    (h : FurtherForm texts inner) {closer : Char} (closes : isNumeric closer = false)
    (rest : Input) : EndsNumber (inner ++ closer :: rest) := by
  cases h with
  | nil blank => exact blank.endsNumber (endsNumber_cons closes rest)
  | cons blank lead others =>
    rw [List.append_assoc]
    exact blank.endsNumber (endsNumber_cons (by decide) _)

theorem FurtherForm.length_le {texts : List (List Char)} {inner : List Char}
    (h : FurtherForm texts inner) : texts.length ≤ inner.length := by
  induction h with
  | nil blank => exact Nat.zero_le _
  | cons blank lead others ih =>
    simp only [List.length_append, List.length_cons]
    omega

theorem furtherForm_flatMap (texts : List (List Char)) :
    FurtherForm texts (texts.flatMap (',' :: ·)) := by
  induction texts with
  | nil => exact .nil space_nil
  | cons text texts ih => exact .cons space_nil space_nil ih

theorem itemsForm_separated (texts : List (List Char)) :
    ItemsForm texts (Written.separated texts) := by
  cases texts with
  | nil => exact .nil space_nil
  | cons text texts => exact .cons space_nil (furtherForm_flatMap texts)

/-- A text that begins like a value: with no space, and with no bracket that ends a list. -/
def BeginsValue (text : List Char) : Prop :=
  ∃ c tail, text = c :: tail ∧ isSpace c = false ∧ c ≠ ']'

theorem BeginsValue.skipSpace {text : List Char} (h : BeginsValue text) (rest : Input) :
    skipSpace (text ++ rest) = text ++ rest := by
  obtain ⟨c, tail, rfl, space, -⟩ := h
  exact skipSpace_cons space _

variable {σ α : Type}

structure ItemStep (item : σ → Reader σ) (step : σ → α → Except Fault σ) (text : List Char)
    (value : α) : Prop where
  begins : BeginsValue text
  reads : ∀ state rest, EndsNumber rest →
    item state (text ++ rest) = (step state value).map (·, rest)

section Lists

variable {item : σ → Reader σ} {step : σ → α → Except Fault σ} {texts : List (List Char)}
  {values : List α} {inner : List Char}

theorem readFurtherElements_of_steps (each : List.Forall₂ (ItemStep item step) texts values)
    (form : FurtherForm texts inner) {limit : Nat} (room : texts.length < limit) (state : σ)
    (rest : Input) :
    readFurtherElements item limit state (inner ++ ']' :: rest) =
      (values.foldlM step state).map (·, rest) := by
  induction each generalizing inner limit state with
  | nil =>
    obtain ⟨left, rfl⟩ := Nat.exists_eq_add_of_lt room
    cases form with
    | nil blank =>
      have closing := (blank.skipSpace (']' :: rest)).trans (skipSpace_cons (by decide) rest)
      rw [readFurtherElements, closing]
      rfl
  | @cons text value texts values first others ih =>
    obtain ⟨left, rfl⟩ := Nat.exists_eq_add_of_lt room
    have enough : texts.length < (text :: texts).length + left := by
      rw [List.length_cons]
      omega
    cases form with
    | @cons space before _ later _ blank lead further =>
      have ends := further.endsNumber (show isNumeric ']' = false by decide) rest
      have steps := ih further enough
      have comma : skipSpace (space ++ ',' :: (before ++ (text ++ later)) ++ ']' :: rest) =
          ',' :: (before ++ (text ++ (later ++ ']' :: rest))) := by
        simp only [List.append_assoc, List.cons_append]
        rw [blank.skipSpace, skipSpace_cons (by decide)]
      have front : skipSpace (before ++ (text ++ (later ++ ']' :: rest))) =
          text ++ (later ++ ']' :: rest) := by
        rw [lead.skipSpace, first.begins.skipSpace]
      have read := first.reads state _ ends
      obtain ⟨c, tail, rfl, -, open?⟩ := first.begins
      rw [readFurtherElements, comma]
      simp only [front]
      split
      · rename_i nothing
        cases nothing
      · rename_i closed
        cases closed
        exact absurd rfl open?
      · rw [read, List.foldlM_cons]
        cases step state value with
        | error fault => rfl
        | ok next => exact steps next

/-- The items of a list are read up to its closing bracket. -/
theorem readElements_of_steps (each : List.Forall₂ (ItemStep item step) texts values)
    (form : ItemsForm texts inner) (state : σ) (rest : Input) :
    readElements item state (inner ++ ']' :: rest) = (values.foldlM step state).map (·, rest) := by
  cases form with
  | nil blank =>
    cases each
    have closing := (blank.skipSpace (']' :: rest)).trans (skipSpace_cons (by decide) rest)
    rw [readElements, closing]
    rfl
  | @cons before text later texts lead further =>
    cases each with
    | @cons _ value _ values first others =>
      have ends := further.endsNumber (show isNumeric ']' = false by decide) rest
      have room : texts.length < (before ++ (text ++ later) ++ ']' :: rest).length := by
        have length := further.length_le
        simp only [List.length_append, List.length_cons]
        omega
      have steps := fun next => readFurtherElements_of_steps others further room next rest
      have front : skipSpace (before ++ (text ++ later) ++ ']' :: rest) =
          text ++ (later ++ ']' :: rest) := by
        simp only [List.append_assoc]
        rw [lead.skipSpace, first.begins.skipSpace]
      have read := first.reads state _ ends
      obtain ⟨c, tail, rfl, -, open?⟩ := first.begins
      rw [readElements, front]
      split
      · rename_i nothing
        cases nothing
      · rename_i closed
        cases closed
        exact absurd rfl open?
      · rw [read, List.foldlM_cons]
        cases step state value with
        | error fault => rfl
        | ok next => exact steps next

end Lists

/-- Reading what stands behind the name of a member takes this step. -/
inductive MemberStep (member : String → σ → Reader σ) (step : σ → α → Except Fault σ) :
    List Char → α → Prop
  | mk {quoted tail : List Char} {name : String} {value : α} (named : TextForm quoted name)
      (reads : ∀ state rest, EndsNumber rest →
        member name state (tail ++ rest) = (step state value).map (·, rest)) :
      MemberStep member step (quoted ++ tail) value

section Objects

variable {member : String → σ → Reader σ} {step : σ → α → Except Fault σ}
  {texts : List (List Char)} {values : List α} {inner : List Char}

theorem readFurtherMembers_of_steps (each : List.Forall₂ (MemberStep member step) texts values)
    (form : FurtherForm texts inner) {limit : Nat} (room : texts.length < limit) (state : σ)
    (rest : Input) :
    readFurtherMembers member limit state (inner ++ '\x7d' :: rest) =
      (values.foldlM step state).map (·, rest) := by
  induction each generalizing inner limit state with
  | nil =>
    obtain ⟨left, rfl⟩ := Nat.exists_eq_add_of_lt room
    cases form with
    | nil blank =>
      have closing := (blank.skipSpace ('\x7d' :: rest)).trans (skipSpace_cons (by decide) rest)
      rw [readFurtherMembers, closing]
      rfl
  | @cons text value texts values first others ih =>
    obtain ⟨left, rfl⟩ := Nat.exists_eq_add_of_lt room
    have enough : texts.length < (text :: texts).length + left := by
      rw [List.length_cons]
      omega
    cases form with
    | @cons space before _ later _ blank lead further =>
      have ends := further.endsNumber (show isNumeric '\x7d' = false by decide) rest
      have steps := ih further enough
      obtain @⟨quoted, tail, name, _, named, reads⟩ := first
      obtain ⟨behind, mark, quote⟩ := named.opened (tail ++ (later ++ '\x7d' :: rest))
      have comma : skipSpace
            (space ++ ',' :: (before ++ (quoted ++ tail ++ later)) ++ '\x7d' :: rest) =
          ',' :: (before ++ '"' :: behind) := by
        simp only [List.append_assoc, List.cons_append, mark]
        rw [blank.skipSpace, skipSpace_cons (by decide)]
      have front : skipSpace (before ++ '"' :: behind) = '"' :: behind := by
        rw [lead.skipSpace, skipSpace_cons (by decide)]
      rw [readFurtherMembers, comma]
      simp only [front, quote, Bind.bind, Except.bind, reads state _ ends, List.foldlM_cons]
      cases step state value with
      | error fault => rfl
      | ok next => exact steps next

theorem readMembers_of_steps (each : List.Forall₂ (MemberStep member step) texts values)
    (form : ItemsForm texts inner) (state : σ) (rest : Input) :
    readMembers member state (inner ++ '\x7d' :: rest) =
      (values.foldlM step state).map (·, rest) := by
  cases form with
  | nil blank =>
    cases each
    have closing := (blank.skipSpace ('\x7d' :: rest)).trans (skipSpace_cons (by decide) rest)
    rw [readMembers, closing]
    rfl
  | @cons before text later texts lead further =>
    cases each with
    | @cons _ value _ values first others =>
      have ends := further.endsNumber (show isNumeric '\x7d' = false by decide) rest
      have room : texts.length < (before ++ (text ++ later) ++ '\x7d' :: rest).length := by
        have length := further.length_le
        simp only [List.length_append, List.length_cons]
        omega
      have steps := fun next => readFurtherMembers_of_steps others further room next rest
      obtain @⟨quoted, tail, name, _, named, reads⟩ := first
      obtain ⟨behind, mark, quote⟩ := named.opened (tail ++ (later ++ '\x7d' :: rest))
      have front : skipSpace (before ++ (quoted ++ tail ++ later) ++ '\x7d' :: rest) =
          '"' :: behind := by
        simp only [List.append_assoc, mark]
        rw [lead.skipSpace, skipSpace_cons (by decide)]
      rw [readMembers, front]
      simp only [quote, Bind.bind, Except.bind, reads state _ ends, List.foldlM_cons]
      cases step state value with
      | error fault => rfl
      | ok next => exact steps next

end Objects

end SpeechService.Json

namespace SpeechService.Json

/-- A text that is read as a value of at most this nesting, and with which a list or an object can
go on. -/
structure ReadAs (depth : Nat) (text : List Char) (value : Value) : Prop where
  begins : BeginsValue text
  reads : ∀ rest, EndsNumber rest → readValue depth (text ++ rest) = .ok (value, rest)

structure Spells (depth : Nat) (text : List Char) (value : Value) : Prop
    extends ReadAs depth text value where
  oneLine : '\n' ∉ text

/-- A character with which neither a list nor an object begins, nor space. -/
def opensScalar (c : Char) : Bool :=
  !isSpace c && c != '[' && c != ']' && c != '\x7b'

theorem opensScalar_iff {c : Char} :
    opensScalar c = true ↔ isSpace c = false ∧ c ≠ '[' ∧ c ≠ ']' ∧ c ≠ '\x7b' := by
  simp only [opensScalar, Bool.and_eq_true, Bool.not_eq_true', bne_iff_ne, and_assoc]

theorem readValue_space {space : List Char} (h : Space space) (depth : Nat) (rest : Input) :
    readValue depth (space ++ rest) = readValue depth rest := by
  rw [readValue.eq_def, readValue.eq_def, h.skipSpace]

theorem readValue_of_opensScalar {c : Char} (opens : opensScalar c = true) (depth : Nat)
    (rest : Input) : readValue depth (c :: rest) = readScalar (c :: rest) := by
  obtain ⟨space, list, -, object⟩ := opensScalar_iff.1 opens
  have noList (tail : Input) (h : c :: rest = '[' :: tail) : False := by
    cases h
    exact list rfl
  have noObject (tail : Input) (h : c :: rest = '\x7b' :: tail) : False := by
    cases h
    exact object rfl
  rw [readValue.eq_def, skipSpace_cons space rest]
  split
  · rename_i bracket
    exact (noList _ bracket).elim
  · rename_i brace
    exact (noObject _ brace).elim
  · rename_i bracket
    exact (noList _ bracket).elim
  · rename_i brace
    exact (noObject _ brace).elim
  · rfl

theorem ReadAs.of_scalar {c : Char} {tail : List Char} {value : Value}
    (opens : opensScalar c = true)
    (reads : ∀ rest, EndsNumber rest → readScalar (c :: (tail ++ rest)) = .ok (value, rest))
    (depth : Nat) : ReadAs depth (c :: tail) value where
  begins := by
    obtain ⟨space, -, open?, -⟩ := opensScalar_iff.1 opens
    exact ⟨c, tail, rfl, space, open?⟩
  reads rest ends := by
    rw [List.cons_append, readValue_of_opensScalar opens, reads rest ends]

theorem readNumber_front {input rest : Input} {value : Number}
    (h : readNumber input = .ok (value, rest)) :
    ∃ c tail, input = c :: tail ∧ (c = '-' ∨ c.isDigit = true) := by
  cases input with
  | nil => cases h
  | cons c tail =>
    refine ⟨c, tail, rfl, ?_⟩
    by_cases minus : c = '-'
    · exact .inl minus
    · by_cases zero : c = '0'
      · exact .inr (zero ▸ rfl)
      · by_contra other
        rw [not_or] at other
        have plain := readMinus_of_ne minus tail
        have refused : readWhole (c :: tail) = .error .malformed := by
          rw [readWhole, if_neg other.2]
          exact zero
        simp only [readNumber, readNumberText, plain, refused, Bind.bind, Except.bind] at h
        cases h

theorem opensScalar_of_number {c : Char} (front : c = '-' ∨ c.isDigit = true) :
    opensScalar c = true := by
  have other {d : Char} (none : ¬(d = '-' ∨ d.isDigit = true)) : c ≠ d := by
    rintro rfl
    exact none front
  have space : isSpace c = false := by
    simp only [isSpace, Bool.or_eq_false_iff, beq_eq_false_iff_ne]
    exact ⟨⟨⟨other (by decide), other (by decide)⟩, other (by decide)⟩, other (by decide)⟩
  exact opensScalar_iff.2 ⟨space, other (by decide), other (by decide), other (by decide)⟩

theorem readScalar_of_number {c : Char} (front : c = '-' ∨ c.isDigit = true) (tail : Input) :
    readScalar (c :: tail) = (do
      let (value, rest) ← readNumber (c :: tail)
      .ok (.number value, rest)) := by
  have other {d : Char} (none : ¬(d = '-' ∨ d.isDigit = true)) : c ≠ d := by
    rintro rfl
    exact none front
  rw [readScalar, if_pos front]
  · exact other (by decide)
  · exact other (by decide)
  · exact other (by decide)
  · exact other (by decide)

theorem readAs_number (depth : Nat) {text : List Char} {value : Number}
    (h : readNumber text = .ok (value, [])) : ReadAs depth text (.number value) := by
  obtain ⟨c, tail, rfl, front⟩ := readNumber_front h
  refine .of_scalar (opensScalar_of_number front) ?_ depth
  intro rest ends
  have read := isNumeric_readNumber.append h ends
  rw [List.nil_append, List.cons_append] at read
  rw [readScalar_of_number front, read]
  rfl

theorem ScalarForm.opens {text : List Char} {value : Value} (h : ScalarForm text value) :
    ∃ c tail, text = c :: tail ∧ opensScalar c := by
  cases h with
  | null => exact ⟨'n', _, rfl, by decide⟩
  | true => exact ⟨'t', _, rfl, by decide⟩
  | false => exact ⟨'f', _, rfl, by decide⟩
  | number form inRange =>
    obtain ⟨c, tail, same, front⟩ := readNumber_front (form.readNumber inRange)
    exact ⟨c, tail, same, opensScalar_of_number front⟩
  | text form =>
    obtain @⟨inner, content, form⟩ := form
    exact ⟨'"', _, rfl, by decide⟩

theorem ScalarForm.readAs {text : List Char} {value : Value} (h : ScalarForm text value)
    (depth : Nat) : ReadAs depth text value := by
  cases h with
  | null => exact .of_scalar (by decide) (fun _ _ => rfl) depth
  | true => exact .of_scalar (by decide) (fun _ _ => rfl) depth
  | false => exact .of_scalar (by decide) (fun _ _ => rfl) depth
  | number form inRange => exact readAs_number depth (form.readNumber inRange)
  | text form =>
    obtain @⟨inner, content, form⟩ := form
    refine .of_scalar (by decide) ?_ depth
    intro rest _
    rw [List.append_assoc, List.cons_append, List.nil_append, readScalar, form.readQuoted]
    rfl

variable (depth : Nat)

theorem textForm_text (value : String) : TextForm (Written.text value) value := by
  have form := TextForm.mk (charactersForm_flatMap_escape value.toList)
  rw [String.ofList_toList] at form
  exact form

theorem spells_text (value : String) : Spells depth (Written.text value) (.text value) :=
  ⟨(ScalarForm.text (textForm_text value)).readAs depth, newline_not_mem_quote value.toList⟩

theorem spells_null : Spells depth Written.null .null :=
  ⟨ScalarForm.null.readAs depth, by decide⟩

theorem spells_bool (value : Bool) : Spells depth (Written.bool value) (.bool value) := by
  cases value
  · exact ⟨ScalarForm.false.readAs depth, by decide⟩
  · exact ⟨ScalarForm.true.readAs depth, by decide⟩

theorem spells_optionalText (value : Option String) :
    Spells depth (Written.optionalText value) (value.elim .null .text) := by
  cases value with
  | none => exact spells_null depth
  | some value => exact spells_text depth value

theorem spells_number {text : List Char} {value : Number}
    (h : readNumber text = .ok (value, [])) : Spells depth text (.number value) where
  toReadAs := readAs_number depth h
  oneLine := by
    obtain ⟨taken, same, numeric⟩ := isNumeric_readNumber.taken h
    rw [List.append_nil] at same
    intro mem
    have newline := numeric '\n' (same ▸ mem)
    exact absurd newline (by decide)

theorem spells_natural {value : Nat} (fits : value < UInt64.size) :
    Spells depth (Written.natural value) (.number (.natural value.toUInt64)) :=
  spells_number depth (readNumber_natural fits)

theorem mismatch_of_readValue {depth : Nat} {input rest : Input} {value : Value}
    (h : readValue depth input = .ok (value, rest)) : mismatch input = .mismatched := by
  rw [readValue.eq_def] at h
  rw [mismatch]
  split at h
  · cases h
  · cases h
  · rename_i front
    rw [front]
    rfl
  · rename_i front
    rw [front]
    rfl
  · split
    · rfl
    · rfl
    · rw [h]

theorem newline_not_mem_separated {texts : List (List Char)} (h : ∀ text ∈ texts, '\n' ∉ text) :
    '\n' ∉ Written.separated texts := by
  cases texts with
  | nil => exact List.not_mem_nil
  | cons first others =>
    have comma : '\n' ≠ ',' := by decide
    intro mem
    rcases List.mem_append.1 mem with here | later
    · exact h first List.mem_cons_self here
    · obtain ⟨text, among, inside⟩ := List.mem_flatMap.1 later
      rcases List.mem_cons.1 inside with same | within
      · exact comma same
      · exact h text (List.mem_cons_of_mem first among) within

def readItem (depth : Nat) (items : List Value) : Reader (List Value) := fun input => do
  let (value, rest) ← readValue depth input
  .ok (value :: items, rest)

/-- A named value in front of the members before it, newest first. -/
def readMember (depth : Nat) (name : String) (members : List (String × Value)) :
    Reader (List (String × Value)) := fun input => do
  let rest ← readColon input
  let (value, rest) ← readValue depth rest
  .ok ((name, value) :: members, rest)

theorem readValue_bracket (rest : Input) :
    readValue (depth + 1) ('[' :: rest) = (do
      let (items, rest) ← readElements (readItem depth) [] rest
      .ok (.list items.reverse, rest)) := by
  rw [readValue.eq_def, skipSpace_cons (by decide) rest]
  rfl

theorem readValue_brace (rest : Input) :
    readValue (depth + 1) ('\x7b' :: rest) = (do
      let (members, rest) ← readMembers (readMember depth) [] rest
      .ok (.object members.reverse, rest)) := by
  rw [readValue.eq_def, skipSpace_cons (by decide) rest]
  rfl

variable {depth : Nat}

theorem ReadAs.list {texts : List (List Char)} {values : List Value} {inner : List Char}
    (each : List.Forall₂ (ReadAs depth) texts values) (form : ItemsForm texts inner) :
    ReadAs (depth + 1) ('[' :: (inner ++ [']'])) (.list values) where
  begins := ⟨'[', _, rfl, by decide, by decide⟩
  reads rest _ := by
    have steps : List.Forall₂ (ItemStep (readItem depth)
        fun items value => pure (value :: items)) texts values := by
      refine each.imp ?_
      intro text value h
      refine ⟨h.begins, ?_⟩
      intro items rest ends
      rw [Json.readItem, h.reads rest ends]
      rfl
    have read := readElements_of_steps steps form [] rest
    rw [List.foldlM_pure, List.foldl_flip_cons_eq_append', List.append_nil] at read
    rw [List.cons_append, List.append_assoc, List.cons_append, List.nil_append, readValue_bracket,
      read]
    simp only [pure, Except.pure, Except.map, Bind.bind, Except.bind, List.reverse_reverse]

theorem spells_list {texts : List (List Char)} {values : List Value}
    (each : List.Forall₂ (Spells depth) texts values) :
    Spells (depth + 1) (Written.list texts) (.list values) where
  toReadAs := .list (each.imp fun _ _ h => h.toReadAs) (itemsForm_separated texts)
  oneLine := by
    have inside : '\n' ∉ Written.separated texts := by
      apply newline_not_mem_separated
      induction each with
      | nil => exact fun text mem => nomatch mem
      | cons first others ih => exact List.forall_mem_cons.2 ⟨first.oneLine, ih⟩
    simp [Written.list, inside]

/-- What stands behind the name of a member: a colon and a value. -/
def ReadBehind (depth : Nat) (tail : List Char) (value : Value) : Prop :=
  ∀ rest, EndsNumber rest →
    ∃ input, readColon (tail ++ rest) = .ok input ∧ readValue depth input = .ok (value, rest)

theorem ReadAs.behind {before after text : List Char} {value : Value} (h : ReadAs depth text value)
    (blank : Space before) (lead : Space after) :
    ReadBehind depth (before ++ ':' :: (after ++ text)) value := by
  intro rest ends
  refine ⟨after ++ (text ++ rest), ?_, ?_⟩
  · rw [List.append_assoc, List.cons_append, List.append_assoc, readColon, blank.skipSpace,
      skipSpace_cons (by decide)]
    rfl
  · rw [readValue_space lead, h.reads rest ends]

inductive MemberReadAs (depth : Nat) : List Char → String × Value → Prop
  | mk {quoted tail : List Char} {name : String} {value : Value} (named : TextForm quoted name)
      (behind : ReadBehind depth tail value) : MemberReadAs depth (quoted ++ tail) (name, value)

theorem ReadAs.object {texts : List (List Char)} {members : List (String × Value)}
    {inner : List Char} (each : List.Forall₂ (MemberReadAs depth) texts members)
    (form : ItemsForm texts inner) :
    ReadAs (depth + 1) ('\x7b' :: (inner ++ ['\x7d'])) (.object members) where
  begins := ⟨'\x7b', _, rfl, by decide, by decide⟩
  reads rest _ := by
    have steps : List.Forall₂ (MemberStep (readMember depth)
        fun members member => pure (member :: members)) texts members := by
      refine each.imp ?_
      rintro _ _ ⟨named, behind⟩
      refine .mk named ?_
      intro members rest ends
      obtain ⟨input, colon, read⟩ := behind rest ends
      simp only [Json.readMember, colon, read, Bind.bind, Except.bind]
      rfl
    have read := readMembers_of_steps steps form [] rest
    rw [List.foldlM_pure, List.foldl_flip_cons_eq_append', List.append_nil] at read
    rw [List.cons_append, List.append_assoc, List.cons_append, List.nil_append, readValue_brace,
      read]
    simp only [pure, Except.pure, Except.map, Bind.bind, Except.bind, List.reverse_reverse]

structure SpellsMember (depth : Nat) (written : String × List Char) (member : String × Value) :
    Prop where
  name : member.1 = written.1
  value : Spells depth written.2 member.2

theorem SpellsMember.readAs {written : String × List Char} {member : String × Value}
    (h : SpellsMember depth written member) :
    MemberReadAs depth (Written.member written.1 written.2) member := by
  obtain ⟨name, value⟩ := member
  obtain ⟨rfl, spelled⟩ := h
  exact .mk (textForm_text _) (spelled.behind space_nil space_nil)

def memberTexts (members : List (String × List Char)) : List (List Char) :=
  members.map fun (name, value) => Written.member name value

theorem SpellsMember.allReadAs {written : List (String × List Char)}
    {members : List (String × Value)} (each : List.Forall₂ (SpellsMember depth) written members) :
    List.Forall₂ (MemberReadAs depth) (memberTexts written) members := by
  rw [memberTexts, List.forall₂_map_left_iff]
  exact each.imp fun _ _ h => h.readAs

theorem newline_not_mem_object {written : List (String × List Char)}
    {members : List (String × Value)} (each : List.Forall₂ (SpellsMember depth) written members) :
    '\n' ∉ Written.object written := by
  have texts : ∀ text ∈ memberTexts written, '\n' ∉ text := by
    induction each with
    | nil => exact fun text mem => nomatch mem
    | @cons text member texts members first others ih =>
      have name := newline_not_mem_quote text.1.toList
      have value := first.value.oneLine
      refine List.forall_mem_cons.2 ⟨?_, ih⟩
      simp [Written.member, Written.text, name, value]
  have inside := newline_not_mem_separated texts
  rw [memberTexts] at inside
  simp [Written.object, inside]

theorem object_append (written : List (String × List Char)) (rest : Input) :
    Written.object written ++ rest =
      '\x7b' :: (Written.separated (memberTexts written) ++ '\x7d' :: rest) := by
  simp only [Written.object, memberTexts, List.cons_append, List.append_assoc, List.nil_append]

theorem spells_object {written : List (String × List Char)} {members : List (String × Value)}
    (each : List.Forall₂ (SpellsMember depth) written members) :
    Spells (depth + 1) (Written.object written) (.object members) where
  toReadAs := .object (SpellsMember.allReadAs each) (itemsForm_separated _)
  oneLine := newline_not_mem_object each

theorem ValueForm.readAs {text : List Char} {value : Value} (h : ValueForm depth text value) :
    ReadAs depth text value := by
  induction depth generalizing text value with
  | zero => exact ScalarForm.readAs h 0
  | succ depth ih =>
    rcases h with scalar | ⟨items, ⟨each, form⟩, rfl⟩ | ⟨members, ⟨each, form⟩, rfl⟩
    · exact scalar.readAs (depth + 1)
    · exact .list (each.imp fun _ _ h => ih h) form
    · refine .object ?_ form
      rw [List.forall₂_map_right_iff]
      refine each.imp ?_
      rintro _ member ⟨quoted, blank, lead, value⟩
      exact .mk quoted ((ih value).behind blank lead)

theorem ValueForm.forms {text : List Char} {value : Value} (h : ValueForm depth text value) :
    ScalarForm text value ∨
      (∃ depth items, ListForm (ValueForm depth) text items ∧ value = .list items) ∨
      ∃ depth members, ObjectForm (ValueForm depth) text members ∧
        value = .object (members.map Member.entry) := by
  cases depth with
  | zero => exact .inl h
  | succ depth =>
    rcases h with scalar | ⟨items, form, same⟩ | ⟨members, form, same⟩
    · exact .inl scalar
    · exact .inr (.inl ⟨depth, items, form, same⟩)
    · exact .inr (.inr ⟨depth, members, form, same⟩)

theorem ValueForm.scalar_or_bracket {text : List Char} {value : Value}
    (h : ValueForm depth text value) :
    ScalarForm text value ∨ (∃ items tail, value = .list items ∧ text = '[' :: tail) ∨
      ∃ members tail, value = .object members ∧ text = '\x7b' :: tail := by
  rcases h.forms with scalar | ⟨depth, items, ⟨each, form⟩, rfl⟩ |
    ⟨depth, members, ⟨each, form⟩, rfl⟩
  · exact .inl scalar
  · exact .inr (.inl ⟨_, _, rfl, rfl⟩)
  · exact .inr (.inr ⟨_, _, rfl, rfl⟩)

theorem ValueForm.number {text : List Char} {number : Number}
    (h : ValueForm depth text (.number number)) :
    ∃ digits, NumberForm text digits ∧ digits.value = .ok number := by
  rcases h.scalar_or_bracket with scalar | ⟨items, tail, other, -⟩ | ⟨members, tail, other, -⟩
  · cases scalar with
    | number form inRange => exact ⟨_, form, inRange⟩
  · cases other
  · cases other

theorem ValueForm.of_digits {text : List Char} {value : Value} (h : ValueForm depth text value)
    (digits : Digits text) : ∃ number, value = .number number := by
  have front {c : Char} (other : c.isDigit = false) (tail : List Char) : text ≠ c :: tail := by
    rintro rfl
    exact Bool.false_ne_true (other.symm.trans (digits.2 c List.mem_cons_self))
  -- every other form begins with a character that is no digit
  rcases h.scalar_or_bracket with scalar | ⟨items, tail, -, list⟩ | ⟨members, tail, -, object⟩
  · cases scalar with
    | null => exact absurd rfl (front (by decide) _)
    | true => exact absurd rfl (front (by decide) _)
    | false => exact absurd rfl (front (by decide) _)
    | number => exact ⟨_, rfl⟩
    | text form =>
      cases form
      exact absurd rfl (front (by decide) _)
  · exact absurd list (front (by decide) tail)
  · exact absurd object (front (by decide) tail)

end SpeechService.Json
