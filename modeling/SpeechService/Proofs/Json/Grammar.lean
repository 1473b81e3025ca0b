import Mathlib.Data.List.Forall2
import SpeechService.Json.Value

/-!
The grammar of JSON, and what each form of text stands for. `ValueForm` takes a bound on the nesting
of lists and objects; a number has to be in the range of floats, and an escape has to name a
character. Members of an object may have the same name. Every form of a character in quotes is read
as this character, and what is quoted is such a form, on one line.
-/

set_option autoImplicit false

namespace SpeechService.Json

def Space (text : List Char) : Prop := ∀ c ∈ text, c ∈ [' ', '\n', '\t', '\r']

inductive HexForm : Char → Nat → Prop
  | digit {value : Nat} (small : value < 10) : HexForm (Char.ofNat ('0'.toNat + value)) value
  | small {value : Nat} (small : value < 6) : HexForm (Char.ofNat ('a'.toNat + value)) (10 + value)
  | capital {value : Nat} (small : value < 6) :
      HexForm (Char.ofNat ('A'.toNat + value)) (10 + value)

inductive UnitForm : List Char → Nat → Prop
  | mk {a b c d : Char} {first second third fourth : Nat} (thousands : HexForm a first)
      (hundreds : HexForm b second) (tens : HexForm c third) (ones : HexForm d fourth) :
      UnitForm [a, b, c, d] (4096 * first + 256 * second + 16 * third + fourth)

def letterEscapes : List (Char × Char) :=
  [('"', '"'), ('\\', '\\'), ('/', '/'), ('b', Char.ofNat 8), ('f', Char.ofNat 12), ('n', '\n'),
   ('r', '\r'), ('t', '\t')]

/-- A character inside quotes. Characters beyond sixteen bits may be given as two surrogates. -/
inductive CharacterForm : List Char → Char → Prop
  | plain {c : Char} (printable : 32 ≤ c.toNat) (unquoted : c ≠ '"') (unescaped : c ≠ '\\') :
      CharacterForm [c] c
  | letter {letter c : Char} (escape : (letter, c) ∈ letterEscapes) : CharacterForm ['\\', letter] c
  | code {digits : List Char} {unit : Nat} (form : UnitForm digits unit)
      (whole : unit < 0xD800 ∨ 0xDFFF < unit) :
      CharacterForm ('\\' :: 'u' :: digits) (Char.ofNat unit)
  | pair {digits others : List Char} {unit other : Nat} (first : UnitForm digits unit)
      (second : UnitForm others other) (leading : 0xD800 ≤ unit ∧ unit ≤ 0xDBFF)
      (trailing : 0xDC00 ≤ other ∧ other ≤ 0xDFFF) :
      CharacterForm ('\\' :: 'u' :: (digits ++ '\\' :: 'u' :: others))
        (Char.ofNat (0x10000 + 0x400 * (unit - 0xD800) + (other - 0xDC00)))

inductive CharactersForm : List Char → List Char → Prop
  | nil : CharactersForm [] []
  | cons {form text content : List Char} {c : Char} (first : CharacterForm form c)
      (later : CharactersForm text content) : CharactersForm (form ++ text) (c :: content)

inductive TextForm : List Char → String → Prop
  | mk {inner content : List Char} (form : CharactersForm inner content) :
      TextForm ('"' :: (inner ++ ['"'])) (String.ofList content)

def Digits (digits : List Char) : Prop := digits ≠ [] ∧ ∀ c ∈ digits, c.isDigit = true

inductive FractionForm : List Char → Option (List Char) → Prop
  | none : FractionForm [] none
  | some {digits : List Char} (form : Digits digits) : FractionForm ('.' :: digits) (some digits)

inductive SignForm : List Char → Bool → Prop
  | none : SignForm [] false
  | plus : SignForm ['+'] false
  | minus : SignForm ['-'] true

inductive ExponentForm : List Char → Option (Bool × List Char) → Prop
  | none : ExponentForm [] none
  | some {mark : Char} {sign digits : List Char} {isNegative : Bool}
      (marked : mark = 'e' ∨ mark = 'E') (signed : SignForm sign isNegative)
      (form : Digits digits) :
      ExponentForm (mark :: (sign ++ digits)) (some (isNegative, digits))

/-- A number, digit by digit. Only a zero that stands alone begins with zero. -/
inductive NumberForm : List Char → NumberText → Prop
  | mk {whole fraction exponent : List Char} {isNegative : Bool} {decimals : Option (List Char)}
      {power : Option (Bool × List Char)} (digits : Digits whole)
      (canonical : whole = ['0'] ∨ whole.head? ≠ some '0')
      (fractional : FractionForm fraction decimals) (exponential : ExponentForm exponent power) :
      NumberForm ((if isNegative then ['-'] else []) ++ (whole ++ (fraction ++ exponent)))
        ⟨isNegative, whole, decimals, power⟩

inductive ScalarForm : List Char → Value → Prop
  | null : ScalarForm ['n', 'u', 'l', 'l'] .null
  | true : ScalarForm ['t', 'r', 'u', 'e'] (.bool true)
  | false : ScalarForm ['f', 'a', 'l', 's', 'e'] (.bool false)
  | number {text : List Char} {digits : NumberText} {number : Number}
      (form : NumberForm text digits) (inRange : digits.value = .ok number) :
      ScalarForm text (.number number)
  | text {text : List Char} {content : String} (form : TextForm text content) :
      ScalarForm text (.text content)

/-- What follows an item inside brackets: further items, each after a comma. -/
inductive FurtherForm : List (List Char) → List Char → Prop
  | nil {space : List Char} (blank : Space space) : FurtherForm [] space
  | cons {space before text later : List Char} {texts : List (List Char)} (blank : Space space)
      (lead : Space before) (others : FurtherForm texts later) :
      FurtherForm (text :: texts) (space ++ ',' :: (before ++ (text ++ later)))

inductive ItemsForm : List (List Char) → List Char → Prop
  | nil {space : List Char} (blank : Space space) : ItemsForm [] space
  | cons {before text later : List Char} {texts : List (List Char)} (lead : Space before)
      (others : FurtherForm texts later) : ItemsForm (text :: texts) (before ++ (text ++ later))

/-- A member of an object: its name, and its value with the text of it. -/
structure Member where
  name : String
  text : List Char
  value : Value

/-- The forms of lists and objects, with a form of values given. -/
inductive ListForm (form : List Char → Value → Prop) : List Char → List Value → Prop
  | mk {inner : List Char} {texts : List (List Char)} {values : List Value}
      (each : List.Forall₂ form texts values) (items : ItemsForm texts inner) :
      ListForm form ('[' :: (inner ++ [']'])) values

inductive MemberForm (form : List Char → Value → Prop) : List Char → Member → Prop
  | mk {name before after : List Char} {member : Member} (quoted : TextForm name member.name)
      (blank : Space before) (lead : Space after) (value : form member.text member.value) :
      MemberForm form (name ++ (before ++ ':' :: (after ++ member.text))) member

inductive ObjectForm (form : List Char → Value → Prop) : List Char → List Member → Prop
  | mk {inner : List Char} {texts : List (List Char)} {members : List Member}
      (each : List.Forall₂ (MemberForm form) texts members) (items : ItemsForm texts inner) :
      ObjectForm form ('\x7b' :: (inner ++ ['\x7d'])) members

def Member.entry (member : Member) : String × Value := (member.name, member.value)

/-- A value that nests in at most `depth` lists and objects of its own. -/
def ValueForm : (depth : Nat) → List Char → Value → Prop
  | 0 => ScalarForm
  | depth + 1 => fun text value =>
    ScalarForm text value ∨
      (∃ items, ListForm (ValueForm depth) text items ∧ value = .list items) ∨
      (∃ members, ObjectForm (ValueForm depth) text members ∧
        value = .object (members.map Member.entry))

def ObjectDocument (text : String) (members : List Member) : Prop :=
  ∃ before object after, Space before ∧ ObjectForm (ValueForm (greatestDepth - 1)) object members ∧
    Space after ∧ text.toList = before ++ (object ++ after)

theorem HexForm.hexValue? {c : Char} {value : Nat} (h : HexForm c value) :
    hexValue? c = some value := by
  have digits : ∀ value < 10, Json.hexValue? (Char.ofNat ('0'.toNat + value)) = some value := by
    decide
  have small : ∀ value < 6,
      Json.hexValue? (Char.ofNat ('a'.toNat + value)) = some (10 + value) := by
    decide
  have capital : ∀ value < 6,
      Json.hexValue? (Char.ofNat ('A'.toNat + value)) = some (10 + value) := by
    decide
  cases h with
  | digit bound => exact digits value bound
  | small bound => exact small _ bound
  | capital bound => exact capital _ bound

theorem UnitForm.readHex {digits : List Char} {unit : Nat} (h : UnitForm digits unit)
    (rest : Input) : readHex (digits ++ rest) = .ok (unit, rest) := by
  obtain @⟨a, b, c, d, _, _, _, _, first, second, third, fourth⟩ := h
  have enough : ¬([a, b, c, d].foldl (fun size c => size + c.utf8Size) 0 < 4) := by
    have sizes := And.intro a.utf8Size_pos (And.intro b.utf8Size_pos
      (And.intro c.utf8Size_pos d.utf8Size_pos))
    simp only [List.foldl_cons, List.foldl_nil]
    omega
  simp only [List.cons_append, List.nil_append]
  rw [Json.readHex, List.take_succ_cons, List.take_succ_cons, List.take_succ_cons,
    List.take_succ_cons, List.take_zero, if_neg enough]
  simp only [first.hexValue?, second.hexValue?, third.hexValue?, fourth.hexValue?]

private theorem isLeadingSurrogate_eq {unit : Nat} :
    isLeadingSurrogate unit = true ↔ 0xD800 ≤ unit ∧ unit ≤ 0xDBFF := by
  rw [isLeadingSurrogate, Bool.and_eq_true, decide_eq_true_iff, decide_eq_true_iff]

private theorem isTrailingSurrogate_eq {unit : Nat} :
    isTrailingSurrogate unit = true ↔ 0xDC00 ≤ unit ∧ unit ≤ 0xDFFF := by
  rw [isTrailingSurrogate, Bool.and_eq_true, decide_eq_true_iff, decide_eq_true_iff]

theorem readEscape_code {digits : List Char} {unit : Nat} (form : UnitForm digits unit)
    (whole : unit < 0xD800 ∨ 0xDFFF < unit) (rest : Input) :
    readEscape ('u' :: (digits ++ rest)) = .ok (Char.ofNat unit, rest) := by
  have trailing : ¬isTrailingSurrogate unit = true := by
    rw [isTrailingSurrogate_eq]
    omega
  have leading : ¬isLeadingSurrogate unit = true := by
    rw [isLeadingSurrogate_eq]
    omega
  rw [readEscape, readUnicode, form.readHex]
  simp only [Bind.bind, Except.bind, if_neg trailing, if_neg leading]

theorem readEscape_pair {digits others : List Char} {unit other : Nat}
    (first : UnitForm digits unit) (second : UnitForm others other)
    (leading : 0xD800 ≤ unit ∧ unit ≤ 0xDBFF) (trailing : 0xDC00 ≤ other ∧ other ≤ 0xDFFF)
    (rest : Input) :
    readEscape ('u' :: (digits ++ '\\' :: 'u' :: (others ++ rest))) =
      .ok (Char.ofNat (0x10000 + 0x400 * (unit - 0xD800) + (other - 0xDC00)), rest) := by
  have plain : ¬isTrailingSurrogate unit = true := by
    rw [isTrailingSurrogate_eq]
    omega
  rw [readEscape, readUnicode, first.readHex]
  simp only [Bind.bind, Except.bind, if_neg plain, if_pos (isLeadingSurrogate_eq.2 leading),
    second.readHex, if_pos (isTrailingSurrogate_eq.2 trailing)]

theorem shortEscape?_of_mem {letter c : Char} (h : (letter, c) ∈ letterEscapes) :
    letter ≠ 'u' ∧ shortEscape? letter = some c := by
  have all : ∀ escape ∈ letterEscapes,
      escape.1 ≠ 'u' ∧ shortEscape? escape.1 = some escape.2 := by decide
  exact all _ h

theorem CharacterForm.readCharacters {form : List Char} {c : Char} (h : CharacterForm form c)
    (limit : Nat) (read : List Char) (rest : Input) :
    readCharacters (limit + 1) read (form ++ rest) = readCharacters limit (c :: read) rest := by
  cases h with
  | plain printable unquoted unescaped =>
    rw [List.cons_append, List.nil_append, Json.readCharacters, if_neg (by omega)]
    · exact unquoted
    · exact unescaped
  | @letter letter _ escape =>
    obtain ⟨other, short⟩ := shortEscape?_of_mem escape
    have read : readEscape (letter :: rest) = .ok (c, rest) := by
      rw [readEscape, short]
      exact other
    rw [List.cons_append, List.cons_append, List.nil_append, Json.readCharacters, read]
    rfl
  | code form whole =>
    rw [List.cons_append, List.cons_append, Json.readCharacters, readEscape_code form whole]
    rfl
  | pair first second leading trailing =>
    simp only [List.cons_append, List.append_assoc]
    rw [Json.readCharacters, readEscape_pair first second leading trailing]
    rfl

theorem CharactersForm.readCharacters {text content : List Char} (h : CharactersForm text content)
    {limit : Nat} (room : content.length < limit) (read : List Char) (rest : Input) :
    readCharacters limit read (text ++ '"' :: rest) = .ok (read.reverse ++ content, rest) := by
  induction h generalizing limit read with
  | nil =>
    obtain ⟨left, rfl⟩ := Nat.exists_eq_add_of_lt room
    rw [List.nil_append, Json.readCharacters, List.append_nil]
  | cons first later ih =>
    obtain ⟨left, rfl⟩ := Nat.exists_eq_add_of_lt room
    rw [List.append_assoc, first.readCharacters, ih (by rw [List.length_cons]; omega),
      List.reverse_cons, List.append_assoc]
    rfl

theorem CharactersForm.length_le {text content : List Char} (h : CharactersForm text content) :
    content.length ≤ text.length := by
  induction h with
  | nil => exact Nat.le_refl 0
  | @cons form text content c first later ih =>
    have some? : 1 ≤ form.length := by cases first <;> simp
    rw [List.length_append, List.length_cons]
    omega

/-- A text in quotes is read up to its closing quote, whatever follows it. -/
theorem CharactersForm.readQuoted {text content : List Char} (h : CharactersForm text content)
    (rest : Input) : readQuoted (text ++ '"' :: rest) = .ok (String.ofList content, rest) := by
  have room : content.length < (text ++ '"' :: rest).length := by
    have length := h.length_le
    rw [List.length_append, List.length_cons]
    omega
  rw [Json.readQuoted, h.readCharacters room]
  rfl

theorem TextForm.opened {text : List Char} {content : String} (h : TextForm text content)
    (rest : Input) :
    ∃ tail, text ++ rest = '"' :: tail ∧ readQuoted tail = .ok (content, rest) := by
  obtain @⟨inner, content, form⟩ := h
  refine ⟨inner ++ '"' :: rest, ?_, form.readQuoted rest⟩
  rw [List.cons_append, List.append_assoc]
  rfl

theorem hexForm_hexDigit {value : Nat} (small : value < 16) : HexForm (hexDigit value) value := by
  rw [hexDigit]
  by_cases digit : value < 10
  · rw [if_pos digit]
    exact .digit digit
  · rw [if_neg digit]
    have letter := HexForm.small (show value - 10 < 6 by omega)
    rw [Nat.add_sub_cancel' (Nat.le_of_not_lt digit)] at letter
    exact letter

theorem hexDigit_ne_newline {value : Nat} (small : value < 16) : hexDigit value ≠ '\n' := by
  have all : ∀ value < 16, hexDigit value ≠ '\n' := by decide
  exact all value small

theorem escape_cases (c : Char) :
    (∃ letter, letter ≠ '\n' ∧ (letter, c) ∈ letterEscapes ∧
        escape c = ['\\', letter]) ∨
      (c.toNat < 32 ∧
        escape c = ['\\', 'u', '0', '0', hexDigit (c.toNat / 16), hexDigit (c.toNat % 16)]) ∨
      (32 ≤ c.toNat ∧ c ≠ '"' ∧ c ≠ '\\' ∧ escape c = [c]) := by
  have code {value : Nat} (h : c.toNat = value) : Char.ofNat value = c := by
    rw [← h, Char.ofNat_toNat]
  rw [escape]
  split
  · rename_i quote
    subst quote
    exact .inl ⟨'"', by decide, by decide, rfl⟩
  split
  · rename_i backslash
    subst backslash
    exact .inl ⟨'\\', by decide, by decide, rfl⟩
  split
  · rename_i newline
    subst newline
    exact .inl ⟨'n', by decide, by decide, rfl⟩
  split
  · rename_i tab
    subst tab
    exact .inl ⟨'t', by decide, by decide, rfl⟩
  split
  · rename_i carriage
    subst carriage
    exact .inl ⟨'r', by decide, by decide, rfl⟩
  split
  · rename_i backspace
    have same := code backspace
    subst same
    exact .inl ⟨'b', by decide, by decide, rfl⟩
  split
  · rename_i feed
    have same := code feed
    subst same
    exact .inl ⟨'f', by decide, by decide, rfl⟩
  split
  · rename_i control
    exact .inr (.inl ⟨control, rfl⟩)
  · rename_i quote backslash _ _ _ _ _ printable
    exact .inr (.inr ⟨Nat.le_of_not_lt printable, quote, backslash, rfl⟩)

theorem characterForm_escape (c : Char) : CharacterForm (escape c) c := by
  rcases escape_cases c with ⟨letter, -, short, escaped⟩ | ⟨control, escaped⟩ |
    ⟨printable, quote, backslash, escaped⟩
  · rw [escaped]
    exact .letter short
  · have zero := HexForm.digit (show 0 < 10 by decide)
    have form := UnitForm.mk zero zero (hexForm_hexDigit (show c.toNat / 16 < 16 by omega))
      (hexForm_hexDigit (show c.toNat % 16 < 16 by omega))
    have sum : 4096 * 0 + 256 * 0 + 16 * (c.toNat / 16) + c.toNat % 16 = c.toNat := by omega
    have code := CharacterForm.code form (.inl (by omega))
    rw [sum, Char.ofNat_toNat] at code
    rw [escaped]
    exact code
  · rw [escaped]
    exact .plain printable quote backslash

theorem charactersForm_flatMap_escape (text : List Char) :
    CharactersForm (text.flatMap escape) text := by
  induction text with
  | nil => exact .nil
  | cons c text ih =>
    rw [List.flatMap_cons]
    exact .cons (characterForm_escape c) ih

theorem newline_not_mem_quote (text : List Char) : '\n' ∉ quote text := by
  have escaped (c : Char) : '\n' ∉ escape c := by
    rcases escape_cases c with ⟨letter, other, -, escaped⟩ | ⟨control, escaped⟩ |
      ⟨printable, -, -, escaped⟩
    · rw [escaped]
      simp [Ne.symm other]
    · have high := hexDigit_ne_newline (show c.toNat / 16 < 16 by omega)
      have low := hexDigit_ne_newline (show c.toNat % 16 < 16 by omega)
      rw [escaped]
      simp [Ne.symm high, Ne.symm low]
    · have other : '\n' ≠ c := by
        rintro rfl
        exact absurd printable (by decide)
      rw [escaped]
      simp [other]
  simp [quote, escaped]

end SpeechService.Json
