import Mathlib.Data.List.TakeWhile
import SpeechService.Decimal
import SpeechService.Json.Value
import SpeechService.Proofs.Json.Grammar

/-!
Numbers inside a longer text. A reader of a number, and of each part of one, takes characters of
numbers only, and takes the same when other text follows. The digits of a 64-bit word are read back
as this word.
-/

set_option autoImplicit false

namespace SpeechService.Json

def isNumeric (c : Char) : Bool :=
  c.isDigit || c == '-' || c == '+' || c == '.' || c == 'e' || c == 'E'

def EndsNumber (input : Input) : Prop := ∀ c ∈ input.head?, isNumeric c = false

theorem endsNumber_cons {c : Char} (other : isNumeric c = false) (rest : Input) :
    EndsNumber (c :: rest) := by
  intro d mem
  cases mem
  exact other

theorem EndsNumber.not_any_isDigit {input : Input} (ends : EndsNumber input) :
    ¬input.head?.any Char.isDigit = true := by
  cases input with
  | nil => exact Bool.false_ne_true
  | cons c rest =>
    have none := ends c rfl
    simp only [isNumeric, Bool.or_eq_false_iff] at none
    rw [List.head?_cons, Option.any_some, none.1.1.1.1.1]
    exact Bool.false_ne_true

/-- A reader that takes characters of numbers only, and the same ones when a text follows in front
of which a number ends. -/
structure Reader.IsNumeric {α : Type} (reader : Reader α) : Prop where
  taken : ∀ {input value rest}, reader input = .ok (value, rest) →
    ∃ taken, input = taken ++ rest ∧ ∀ c ∈ taken, isNumeric c = true
  append : ∀ {input value rest}, reader input = .ok (value, rest) →
    ∀ {more}, EndsNumber more → reader (input ++ more) = .ok (value, rest ++ more)

namespace Reader.IsNumeric

variable {α β : Type}

theorem pure (value : α) : IsNumeric fun input => .ok (value, input) where
  taken h := by
    cases h
    exact ⟨[], rfl, fun c mem => nomatch mem⟩
  append h := by
    cases h
    intro more _
    rfl

theorem bind {first : Reader α} {next : α → Reader β} (h : IsNumeric first)
    (later : ∀ value, IsNumeric (next value)) :
    IsNumeric fun input => do
      let (value, rest) ← first input
      next value rest where
  taken {input value rest} both := by
    cases read : first input with
    | error fault =>
      rw [read] at both
      cases both
    | ok pair =>
      obtain ⟨middle, left⟩ := pair
      rw [read] at both
      obtain ⟨front, rfl, numeric⟩ := h.taken read
      obtain ⟨back, rfl, others⟩ := (later middle).taken both
      refine ⟨front ++ back, (List.append_assoc front back rest).symm, ?_⟩
      intro c mem
      exact (List.mem_append.1 mem).elim (numeric c) (others c)
  append {input value rest} both more ends := by
    cases read : first input with
    | error fault =>
      rw [read] at both
      cases both
    | ok pair =>
      obtain ⟨middle, left⟩ := pair
      rw [read] at both
      have second := (later middle).append both ends
      simp only [h.append read ends, Except.bind, Bind.bind]
      exact second

theorem map {reader : Reader α} (h : IsNumeric reader) (f : α → β) :
    IsNumeric (fun input => do
      let (value, rest) ← reader input
      .ok (f value, rest)) :=
  h.bind fun value => .pure (f value)

theorem cons {reader : Reader α} (h : reader.IsNumeric) {c : Char} (numeric : isNumeric c = true)
    {input rest : Input} {value : α} (read : reader input = .ok (value, rest)) :
    ∃ taken, c :: input = taken ++ rest ∧ ∀ d ∈ taken, isNumeric d = true := by
  obtain ⟨taken, rfl, others⟩ := h.taken read
  refine ⟨c :: taken, rfl, ?_⟩
  intro d mem
  rcases List.mem_cons.1 mem with rfl | later
  · exact numeric
  · exact others d later

/-- Two ways to read on, chosen by whether a mark stands in front: text that follows cannot bring in
a mark where there was none. -/
theorem marked (isMark : Char → Bool) {reader present absent : Reader α}
    (onMark : ∀ {c rest}, isMark c = true → reader (c :: rest) = present rest)
    (offMark : ∀ {input}, input.head?.any isMark = false → reader input = absent input)
    (numeric : ∀ {c}, isMark c = true → isNumeric c = true)
    (h : present.IsNumeric) (other : absent.IsNumeric) : reader.IsNumeric where
  taken {input value rest} read := by
    cases input with
    | nil =>
      rw [offMark rfl] at read
      exact other.taken read
    | cons c input =>
      cases mark : isMark c with
      | true =>
        rw [onMark mark] at read
        exact h.cons (numeric mark) read
      | false =>
        have plain : reader (c :: input) = absent (c :: input) := offMark mark
        rw [plain] at read
        exact other.taken read
  append {input value rest} read more ends := by
    cases input with
    | nil =>
      have plain : more.head?.any isMark = false := by
        rw [Option.any_eq_false]
        intro c mem
        rw [Bool.eq_false_iff]
        intro mark
        exact Bool.false_ne_true ((ends c mem).symm.trans (numeric mark))
      rw [offMark rfl] at read
      rw [List.nil_append, offMark plain]
      exact other.append read ends
    | cons c input =>
      cases mark : isMark c with
      | true =>
        rw [onMark mark] at read
        rw [List.cons_append, onMark mark]
        exact h.append read ends
      | false =>
        have plain (tail : Input) : reader (c :: tail) = absent (c :: tail) := offMark mark
        rw [plain] at read
        rw [List.cons_append, plain]
        exact other.append read ends

theorem markedBy (mark : Char) (numeric : isNumeric mark = true) {reader present absent : Reader α}
    (onMark : ∀ rest, reader (mark :: rest) = present rest)
    (offMark : ∀ {input}, input.head?.any (· == mark) = false → reader input = absent input)
    (h : present.IsNumeric) (other : absent.IsNumeric) : reader.IsNumeric := by
  refine .marked (· == mark) ?_ offMark ?_ h other
  · intro c rest same
    rw [eq_of_beq same, onMark]
  · intro c same
    rw [eq_of_beq same, numeric]

end Reader.IsNumeric

theorem spanDigits_append (input : Input) {more : Input} (ends : EndsNumber more) :
    spanDigits (input ++ more) = ((spanDigits input).1, (spanDigits input).2 ++ more) := by
  induction input with
  | nil =>
    cases more with
    | nil => rfl
    | cons c more =>
      have other : ¬c.isDigit = true := ends.not_any_isDigit
      simp [spanDigits, other]
  | cons c input ih =>
    cases digit : c.isDigit with
    | false => simp [spanDigits, digit]
    | true =>
      simp only [spanDigits, Prod.mk.injEq] at ih
      simp [spanDigits, digit, ih.1, ih.2]

theorem spanDigits_taken (input : Input) :
    input = (spanDigits input).1 ++ (spanDigits input).2 ∧
      ∀ c ∈ (spanDigits input).1, isNumeric c = true := by
  refine ⟨List.takeWhile_append_dropWhile.symm, ?_⟩
  intro c mem
  have digit : c.isDigit = true := List.all_eq_true.1 List.all_takeWhile c mem
  simp [isNumeric, digit]

theorem readDigits_eq_ok_iff {input : Input} {read : List Char × Input} :
    readDigits input = .ok read ↔ spanDigits input = read ∧ read.1 ≠ [] := by
  rcases span : spanDigits input with ⟨digits | ⟨digit, digits⟩, left⟩
  · have refused : ∃ fault, readDigits input = .error fault := by
      cases left with
      | nil => exact ⟨.truncated, by rw [readDigits, span]⟩
      | cons => exact ⟨.malformed, by rw [readDigits, span]⟩
    obtain ⟨fault, refused⟩ := refused
    rw [refused]
    constructor
    · intro h
      cases h
    · intro ⟨same, some?⟩
      subst same
      exact absurd rfl some?
  · have accepted : readDigits input = .ok (digit :: digits, left) := by
      rw [readDigits, span]
    rw [accepted, Except.ok.injEq]
    constructor
    · rintro rfl
      exact ⟨rfl, List.cons_ne_nil digit digits⟩
    · exact And.left

theorem isNumeric_readDigits : Reader.IsNumeric readDigits where
  taken {input value rest} h := by
    obtain ⟨span, -⟩ := readDigits_eq_ok_iff.1 h
    obtain ⟨whole, numeric⟩ := spanDigits_taken input
    rw [span] at whole numeric
    exact ⟨value, whole, numeric⟩
  append {input value rest} h more ends := by
    obtain ⟨span, some?⟩ := readDigits_eq_ok_iff.1 h
    apply readDigits_eq_ok_iff.2
    rw [spanDigits_append input ends, span]
    exact ⟨rfl, some?⟩

theorem isNumeric_readWhole : Reader.IsNumeric readWhole where
  taken {input value rest} h := by
    rw [readWhole.eq_def] at h
    split at h
    · cases h
    · split at h
      · cases h
      · cases h
        exact ⟨['0'], rfl, List.forall_mem_singleton.2 (by decide)⟩
    · split at h
      · rename_i c tail other digit
        obtain ⟨whole, numeric⟩ := spanDigits_taken (c :: tail)
        rw [Except.ok.inj h] at whole numeric
        exact ⟨value, whole, numeric⟩
      · cases h
  append {input value rest} h more ends := by
    rw [readWhole.eq_def] at h
    split at h
    · cases h
    · rename_i zeros
      split at h
      · cases h
      · rename_i alone
        cases h
        have still : ¬(rest ++ more).head?.any Char.isDigit = true := by
          cases rest with
          | nil => exact ends.not_any_isDigit
          | cons => exact alone
        rw [List.cons_append, readWhole, if_neg still]
    · rename_i c tail other
      split at h
      · rename_i digit
        have span := spanDigits_append (c :: tail) ends
        rw [Except.ok.inj h] at span
        rw [List.cons_append, readWhole, if_pos digit, ← List.cons_append, span]
        exact other
      · cases h

theorem isNumeric_readFraction : Reader.IsNumeric readFraction := by
  refine .markedBy '.' (by decide) (fun _ => rfl) ?_ (isNumeric_readDigits.map some) (.pure none)
  intro input plain
  rw [readFraction.eq_def]
  split
  · cases plain
  · rfl

theorem readMinus_of_ne {c : Char} (other : c ≠ '-') (rest : Input) :
    readMinus (c :: rest) = .ok (false, c :: rest) := by
  rw [readMinus]
  rintro _ ⟨⟩
  exact other rfl

theorem readMinus_of_isDigit {c : Char} (digit : c.isDigit = true) (rest : Input) :
    readMinus (c :: rest) = .ok (false, c :: rest) := by
  refine readMinus_of_ne ?_ rest
  rintro rfl
  exact absurd digit (by decide)

theorem isNumeric_readMinus : Reader.IsNumeric readMinus := by
  refine .markedBy '-' (by decide) (fun _ => rfl) ?_ (.pure true) (.pure false)
  intro input plain
  rw [readMinus.eq_def]
  split
  · cases plain
  · rfl

theorem isNumeric_readSign : Reader.IsNumeric readSign := by
  refine .markedBy '+' (by decide) (fun _ => rfl) ?_ (.pure false) isNumeric_readMinus
  intro input plain
  rw [readSign.eq_def]
  split
  · cases plain
  · rfl

private theorem isNumeric_signedDigits : Reader.IsNumeric (fun input => do
    let (isNegative, rest) ← readSign input
    let (digits, rest) ← readDigits rest
    .ok (some (isNegative, digits), rest)) :=
  isNumeric_readSign.bind fun isNegative => isNumeric_readDigits.map fun digits =>
    some (isNegative, digits)

theorem isNumeric_readExponent : Reader.IsNumeric readExponent := by
  refine .marked (fun c => c == 'e' || c == 'E') ?_ ?_ ?_ isNumeric_signedDigits
    (.pure none)
  · intro c rest mark
    rw [readExponent, if_pos (by simpa using mark)]
  · intro input plain
    rw [readExponent.eq_def]
    split
    · rfl
    · rename_i mark rest
      rw [if_neg (by simpa using plain)]
  · intro c mark
    simp only [isNumeric, mark, Bool.or_assoc, Bool.or_true]

theorem isNumeric_readNumberText : Reader.IsNumeric readNumberText :=
  isNumeric_readMinus.bind fun isNegative => isNumeric_readWhole.bind fun whole =>
    isNumeric_readFraction.bind fun fraction => isNumeric_readExponent.map fun exponent =>
      NumberText.mk isNegative whole fraction exponent

theorem isNumeric_readNumber : Reader.IsNumeric readNumber := by
  have value (text : NumberText) : Reader.IsNumeric (fun input => do
      let value ← text.value
      .ok (value, input)) := by
    cases text.value with
    | ok value => exact .pure value
    | error fault =>
      constructor
      · intro input value rest h
        cases h
      · intro input value rest h
        cases h
  exact isNumeric_readNumberText.bind value

theorem spanDigits_of_digits {digits : List Char} (each : ∀ c ∈ digits, c.isDigit = true)
    {rest : Input} (ends : ¬rest.head?.any Char.isDigit = true) :
    spanDigits (digits ++ rest) = (digits, rest) := by
  have stops : spanDigits rest = ([], rest) := by
    cases rest with
    | nil => rfl
    | cons c rest =>
      have other : ¬c.isDigit = true := ends
      rw [spanDigits, List.takeWhile_cons_of_neg other, List.dropWhile_cons_of_neg other]
  rw [spanDigits, Prod.mk.injEq] at stops
  rw [spanDigits, List.takeWhile_append_of_pos each, List.dropWhile_append_of_pos each, stops.1,
    stops.2, List.append_nil]

theorem Digits.readDigits {digits rest : List Char} (h : Digits digits)
    (ends : ¬rest.head?.any Char.isDigit = true) :
    readDigits (digits ++ rest) = .ok (digits, rest) :=
  readDigits_eq_ok_iff.2 ⟨spanDigits_of_digits h.2 ends, h.1⟩

theorem Digits.readWhole {whole rest : List Char} (h : Digits whole)
    (canonical : whole = ['0'] ∨ whole.head? ≠ some '0')
    (ends : ¬rest.head?.any Char.isDigit = true) :
    readWhole (whole ++ rest) = .ok (whole, rest) := by
  rcases canonical with rfl | leading
  · rw [List.cons_append, List.nil_append, Json.readWhole, if_neg ends]
  · have span := spanDigits_of_digits h.2 ends
    obtain ⟨c, tail, rfl⟩ := List.exists_cons_of_ne_nil h.1
    have digit : c.isDigit = true := h.2 c List.mem_cons_self
    rw [List.cons_append] at span ⊢
    rw [Json.readWhole, if_pos digit, span]
    rintro rfl
    exact leading rfl

theorem ExponentForm.readExponent {text : List Char} {power : Option (Bool × List Char)}
    (h : ExponentForm text power) : readExponent text = .ok (power, []) := by
  cases h with
  | none => rfl
  | @some mark sign digits isNegative marked signed form =>
    have read : readDigits (digits ++ []) = .ok (digits, []) := form.readDigits Bool.false_ne_true
    have plain : readMinus digits = .ok (false, digits) ∧
        readSign digits = .ok (false, digits) := by
      obtain ⟨c, tail, rfl⟩ := List.exists_cons_of_ne_nil form.1
      have digit : c.isDigit = true := form.2 c List.mem_cons_self
      have minus := readMinus_of_isDigit digit tail
      refine ⟨minus, ?_⟩
      rw [readSign, minus]
      rintro _ ⟨⟩
      exact absurd digit (by decide)
    have sign : readSign (sign ++ digits) = .ok (isNegative, digits) := by
      cases signed with
      | none => exact plain.2
      | plus => rfl
      | minus => rfl
    rw [List.append_nil] at read
    rw [Json.readExponent, if_pos marked]
    simp only [Bind.bind, Except.bind, sign, read]

private theorem ExponentForm.head? {text : List Char} {power : Option (Bool × List Char)}
    (h : ExponentForm text power) :
    ¬text.head?.any Char.isDigit = true ∧ ∀ rest, text ≠ '.' :: rest := by
  cases h with
  | none => exact ⟨Bool.false_ne_true, nofun⟩
  | some marked signed form =>
    rcases marked with rfl | rfl
    · exact ⟨show ¬Char.isDigit 'e' = true by decide, nofun⟩
    · exact ⟨show ¬Char.isDigit 'E' = true by decide, nofun⟩

theorem FractionForm.readFraction {text rest : List Char} {decimals : Option (List Char)}
    (h : FractionForm text decimals) (ends : ¬rest.head?.any Char.isDigit = true)
    (noPoint : ∀ more, rest ≠ '.' :: more) :
    readFraction (text ++ rest) = .ok (decimals, rest) := by
  cases h with
  | none =>
    rw [List.nil_append, Json.readFraction]
    exact noPoint
  | some form =>
    rw [List.cons_append, Json.readFraction, form.readDigits ends]
    rfl

theorem NumberForm.readNumberText {text : List Char} {digits : NumberText}
    (h : NumberForm text digits) : readNumberText text = .ok (digits, []) := by
  obtain @⟨whole, fraction, exponent, isNegative, decimals, power, form, canonical, fractional,
    exponential⟩ := h
  have ends : ¬(fraction ++ exponent).head?.any Char.isDigit = true := by
    cases fractional with
    | none => exact exponential.head?.1
    | some form => exact show ¬Char.isDigit '.' = true by decide
  have minus : readMinus ((if isNegative then ['-'] else []) ++ (whole ++ (fraction ++ exponent))) =
      .ok (isNegative, whole ++ (fraction ++ exponent)) := by
    cases isNegative with
    | true => rfl
    | false =>
      obtain ⟨c, tail, rfl⟩ := List.exists_cons_of_ne_nil form.1
      have digit : c.isDigit = true := form.2 c List.mem_cons_self
      rw [if_neg Bool.false_ne_true, List.nil_append, List.cons_append,
        readMinus_of_isDigit digit]
  rw [Json.readNumberText, minus]
  simp only [Bind.bind, Except.bind, form.readWhole canonical ends,
    fractional.readFraction exponential.head?.1 exponential.head?.2, exponential.readExponent]

/-- A form of a number is read whole as this number. -/
theorem NumberForm.readNumber {text : List Char} {digits : NumberText} {number : Number}
    (h : NumberForm text digits) (inRange : digits.value = .ok number) :
    readNumber text = .ok (number, []) := by
  rw [Json.readNumber, h.readNumberText]
  simp only [Bind.bind, Except.bind, inRange]

/-- The text of a 32-bit float is read as a number that gives this float again. -/
def SingleReadsBack (value : Float32) : Prop :=
  ∃ number, readNumber (Written.single value) = .ok (number, []) ∧ number.toSingle = value

/-- The text of a 64-bit float is read as a number that gives this float again. -/
def DoubleReadsBack (value : Float) : Prop :=
  ∃ number, readNumber (Written.double value) = .ok (number, []) ∧ number.toDouble = value

private theorem eq_ok_of_toOption {α : Type} {result : Except Fault α} {value : α}
    (h : result.toOption = some value) : result = .ok value := by
  cases result with
  | error fault => cases h
  | ok other => exact congrArg Except.ok (Option.some.inj h)

theorem singleReadsBack_of_toOption {value : Float32} {number : Number}
    (read : (readNumber (Written.single value)).toOption = some (number, []))
    (same : number.toSingle = value) : SingleReadsBack value :=
  ⟨number, eq_ok_of_toOption read, same⟩

theorem doubleReadsBack_of_toOption {value : Float} {number : Number}
    (read : (readNumber (Written.double value)).toOption = some (number, []))
    (same : number.toDouble = value) : DoubleReadsBack value :=
  ⟨number, eq_ok_of_toOption read, same⟩

theorem le_ofDigitChars (digits : List Char) (value : Nat) :
    value ≤ Nat.ofDigitChars 10 digits value := by
  induction digits generalizing value with
  | nil => exact Nat.le_refl value
  | cons digit digits ih =>
    have later := ih (10 * value + (digit.toNat - '0'.toNat))
    rw [Nat.ofDigitChars_cons]
    omega

theorem absorb_of_le {digits : List Char} {value : Nat}
    (fits : Nat.ofDigitChars 10 digits value ≤ greatestWord) :
    absorb value digits = (Nat.ofDigitChars 10 digits value, []) := by
  induction digits generalizing value with
  | nil => rfl
  | cons digit digits ih =>
    rw [Nat.ofDigitChars_cons] at fits ⊢
    have next := Nat.le_trans (le_ofDigitChars digits _) fits
    rw [absorb, Text.digitValue, if_pos next]
    exact ih fits

theorem ofDigitChars_of_absorb {digits : List Char} {value magnitude : Nat}
    (small : value ≤ greatestWord) (h : absorb value digits = (magnitude, [])) :
    Nat.ofDigitChars 10 digits value = magnitude ∧ magnitude ≤ greatestWord := by
  induction digits generalizing value with
  | nil =>
    cases h
    exact ⟨rfl, small⟩
  | cons digit digits ih =>
    rw [absorb] at h
    split at h
    · rename_i next
      rw [Nat.ofDigitChars_cons]
      exact ih next h
    · cases h

theorem head?_toDigits_ne_zero {value : Nat} (positive : 0 < value) :
    (Nat.toDigits 10 value).head? ≠ some '0' := by
  induction value using Nat.strongRecOn with
  | ind value ih =>
    by_cases small : value < 10
    · have all : ∀ digit < 10, 0 < digit → ([Nat.digitChar digit].head? ≠ some '0') := by decide
      rw [Nat.toDigits_of_lt_base small]
      exact all value small positive
    · have first := ih (value / 10) (by omega) (by omega)
      have some? : Nat.toDigits 10 (value / 10) ≠ [] := Nat.toDigits_ne_nil
      rw [Nat.toDigits_of_base_le (by decide) (Nat.le_of_not_lt small)]
      obtain ⟨digit, digits, split⟩ := List.exists_cons_of_ne_nil some?
      rw [split] at first ⊢
      exact first

theorem readNumberText_of_digits {digits : List Char} (each : ∀ c ∈ digits, c.isDigit = true)
    (some? : digits ≠ []) (canonical : digits.head? ≠ some '0') :
    readNumberText digits = .ok (⟨false, digits, none, none⟩, []) := by
  have form := @NumberForm.mk digits [] [] false none none ⟨some?, each⟩ (.inr canonical) .none
    .none
  rw [if_neg Bool.false_ne_true, List.nil_append, List.append_nil, List.append_nil] at form
  exact form.readNumberText

theorem readNumber_natural {value : Nat} (fits : value < UInt64.size) :
    readNumber (Decimal.natural value) = .ok (.natural value.toUInt64, []) := by
  by_cases zero : value = 0
  · subst zero
    rfl
  have digits : ∀ c ∈ Decimal.natural value, c.isDigit = true := fun c mem =>
    Nat.isDigit_of_mem_toDigits (by decide) (by decide) mem
  have text := readNumberText_of_digits digits Nat.toDigits_ne_nil
    (head?_toDigits_ne_zero (Nat.pos_of_ne_zero zero))
  have number : Nat.ofDigitChars 10 (Decimal.natural value) 0 = value :=
    Nat.ofDigitChars_ten_toDigits
  have all : absorb 0 (Decimal.natural value) = (value, []) := by
    have bound : Nat.ofDigitChars 10 (Decimal.natural value) 0 ≤ greatestWord := by
      rw [number, greatestWord]
      omega
    rw [absorb_of_le bound, number]
  rw [readNumber, text]
  simp only [Bind.bind, Except.bind, NumberText.value, all]
  rfl

theorem NumberForm.eq_of_digits {text : List Char} {digits : NumberText}
    (h : NumberForm text digits) (each : ∀ c ∈ text, c.isDigit = true) :
    digits = ⟨false, text, none, none⟩ := by
  obtain @⟨whole, fraction, exponent, isNegative, decimals, power, form, canonical, fractional,
    exponential⟩ := h
  simp only [List.forall_mem_append] at each
  obtain ⟨sign, -, point, mark⟩ := each
  cases isNegative with
  | true => exact absurd (sign '-' List.mem_cons_self) (by decide)
  | false =>
    cases fractional with
    | some => exact absurd (point '.' List.mem_cons_self) (by decide)
    | none =>
      cases exponential with
      | @some letter _ _ _ marked =>
        have digit : letter.isDigit = true := mark letter List.mem_cons_self
        rcases marked with rfl | rfl
        · exact absurd digit (by decide)
        · exact absurd digit (by decide)
      | none => simp only [Bool.false_eq_true, if_false, List.nil_append, List.append_nil]

theorem NumberForm.digits {text whole : List Char}
    (h : NumberForm text ⟨false, whole, none, none⟩) : text = whole ∧ Digits whole := by
  cases h with
  | mk form canonical fractional exponential =>
    cases fractional
    cases exponential
    refine ⟨?_, form⟩
    simp only [Bool.false_eq_true, if_false, List.nil_append, List.append_nil]

theorem lt_size_of_le_greatestWord {value : Nat} (h : value ≤ greatestWord) :
    value < UInt64.size :=
  Nat.lt_of_le_pred (by decide) h

theorem NumberText.of_value_eq_natural {text : NumberText} {word : UInt64}
    (h : text.value = .ok (.natural word)) :
    ∃ magnitude, text = ⟨false, text.whole, none, none⟩ ∧
      absorb 0 text.whole = (magnitude, []) ∧ word = magnitude.toUInt64 := by
  obtain ⟨isNegative, whole, fraction, exponent⟩ := text
  rw [NumberText.value] at h
  split at h
  rename_i magnitude left absorbed
  split at h
  · rename_i plain
    simp only [Bool.and_eq_true, Option.isNone_iff_eq_none, List.isEmpty_iff] at plain
    obtain ⟨⟨⟨rfl, rfl⟩, rfl⟩, -⟩ := plain
    cases isNegative with
    | true => cases h
    | false =>
      cases h
      exact ⟨magnitude, rfl, absorbed, rfl⟩
  · simp only [Bind.bind, Except.bind] at h
    split at h
    · cases h
    · cases h

theorem NumberForm.natural?_eq_some_iff {text : List Char} {digits : NumberText} {number : Number}
    (form : NumberForm text digits) (inRange : digits.value = .ok number) {greatest value : Nat}
    (bound : greatest ≤ greatestWord) :
    number.natural? greatest = some value ↔
      Digits text ∧ Nat.ofDigitChars 10 text 0 = value ∧ value ≤ greatest := by
  constructor
  · intro h
    cases number with
    | negative => cases h
    | real => cases h
    | natural word =>
      rw [Number.natural?] at h
      split at h
      · rename_i small
        cases h
        obtain ⟨magnitude, plain, absorbed, rfl⟩ := NumberText.of_value_eq_natural inRange
        obtain ⟨same, fits⟩ := ofDigitChars_of_absorb (Nat.zero_le _) absorbed
        have word : magnitude.toUInt64.toNat = magnitude :=
          UInt64.toNat_ofNat_of_lt (lt_size_of_le_greatestWord fits)
        rw [plain] at form
        obtain ⟨rfl, digits⟩ := form.digits
        rw [word] at small ⊢
        exact ⟨digits, same, small⟩
      · cases h
  · rintro ⟨⟨-, each⟩, rfl, small⟩
    obtain rfl := form.eq_of_digits each
    have absorbed := absorb_of_le (Nat.le_trans small bound)
    have word : (Nat.ofDigitChars 10 text 0).toUInt64.toNat = Nat.ofDigitChars 10 text 0 :=
      UInt64.toNat_ofNat_of_lt (lt_size_of_le_greatestWord (Nat.le_trans small bound))
    have value : NumberText.value ⟨false, text, none, none⟩ =
        .ok (.natural (Nat.ofDigitChars 10 text 0).toUInt64) := by
      simp only [NumberText.value, absorbed]
      rfl
    cases value.symm.trans inRange
    rw [Number.natural?, word, if_pos small]
end SpeechService.Json
