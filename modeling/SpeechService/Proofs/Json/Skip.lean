import SpeechService.Json.Record
import SpeechService.Proofs.Json.Values

/-!
Passing over values. Every form of a value is passed over, in any containers and whatever follows
it. A bound on the number of steps is enough if it is at least the number of characters.
-/

set_option autoImplicit false

namespace SpeechService.Json

theorem exists_of_bind_eq_ok {α β : Type} {result : Except Fault α} {next : α → Except Fault β}
    {value : β} (h : result >>= next = .ok value) :
    ∃ middle, result = .ok middle ∧ next middle = .ok value := by
  cases result with
  | error fault => cases h
  | ok middle => exact ⟨middle, rfl, h⟩

theorem exists_of_map_eq_ok {α β : Type} {result : Except Fault α} {f : α → β} {value : β}
    (h : result.map f = .ok value) : ∃ inner, result = .ok inner ∧ f inner = value := by
  cases result with
  | error fault => cases h
  | ok inner => exact ⟨inner, rfl, Except.ok.inj h⟩

theorem skipDigits_of_spanDigits {input digits rest : Input}
    (span : spanDigits input = (digits, rest)) (some? : digits ≠ []) : skipDigits input = .ok rest := by
  obtain ⟨digit, others, rfl⟩ := List.exists_cons_of_ne_nil some?
  rw [skipDigits, span]

theorem skipDigits_of_readDigits {input digits rest : Input}
    (h : readDigits input = .ok (digits, rest)) : skipDigits input = .ok rest := by
  obtain ⟨span, some?⟩ := readDigits_eq_ok_iff.1 h
  exact skipDigits_of_spanDigits span some?

theorem skipWhole_of_readWhole {input digits rest : Input}
    (h : readWhole input = .ok (digits, rest)) : skipWhole input = .ok rest := by
  rw [readWhole.eq_def] at h
  split at h
  · cases h
  · split at h
    · cases h
    · rename_i alone
      cases h
      rw [skipWhole, if_neg alone]
  · rename_i c tail other
    split at h
    · rename_i digit
      rw [Except.ok.injEq] at h
      have some? : digits ≠ [] := by
        rintro rfl
        rw [spanDigits, List.takeWhile_cons_of_pos digit] at h
        cases h
      rw [skipWhole, skipDigits_of_spanDigits h some?]
      rintro _ ⟨⟩
      exact other rfl
    · cases h

theorem skipFraction_of_readFraction {input rest : Input} {fraction : Option (List Char)}
    (h : readFraction input = .ok (fraction, rest)) : skipFraction input = .ok rest := by
  rw [readFraction.eq_def] at h
  split at h
  · obtain ⟨⟨digits, left⟩, read, same⟩ := exists_of_bind_eq_ok h
    cases same
    exact skipDigits_of_readDigits read
  · rename_i noPoint
    cases h
    rw [skipFraction]
    exact noPoint

theorem skipExponent_of_readExponent {input rest : Input} {exponent : Option (Bool × List Char)}
    (h : readExponent input = .ok (exponent, rest)) : skipExponent input = .ok rest := by
  rw [readExponent.eq_def] at h
  split at h
  · cases h
    rfl
  · rename_i mark tail
    split at h
    · rename_i marked
      obtain ⟨⟨isNegative, behind⟩, signed, h⟩ := exists_of_bind_eq_ok h
      obtain ⟨⟨digits, left⟩, read, same⟩ := exists_of_bind_eq_ok h
      cases same
      rw [skipExponent, if_pos marked, signed]
      exact skipDigits_of_readDigits read
    · rename_i plain
      cases h
      rw [skipExponent, if_neg plain]

theorem skipUnsigned_of_readNumber {input rest : Input} {number : Number}
    (h : readNumber input = .ok (number, rest)) :
    ∃ isNegative behind, readMinus input = .ok (isNegative, behind) ∧
      skipUnsigned behind = .ok rest := by
  obtain ⟨⟨text, left⟩, h, later⟩ := exists_of_bind_eq_ok h
  obtain ⟨value, -, same⟩ := exists_of_bind_eq_ok later
  cases same
  obtain ⟨⟨isNegative, behind⟩, minus, h⟩ := exists_of_bind_eq_ok h
  obtain ⟨⟨whole, afterWhole⟩, first, h⟩ := exists_of_bind_eq_ok h
  obtain ⟨⟨fraction, afterFraction⟩, second, h⟩ := exists_of_bind_eq_ok h
  obtain ⟨⟨exponent, end?⟩, third, same⟩ := exists_of_bind_eq_ok h
  cases same
  refine ⟨isNegative, behind, minus, ?_⟩
  rw [skipUnsigned, skipWhole_of_readWhole first]
  simp only [Bind.bind, Except.bind, skipFraction_of_readFraction second,
    skipExponent_of_readExponent third]

theorem CharacterForm.skipCharacters {form : List Char} {c : Char} (h : CharacterForm form c) :
    ∃ steps ≤ form.length, ∀ limit rest,
      skipCharacters (limit + steps) (form ++ rest) = skipCharacters limit rest := by
  have unit {digits : List Char} {unit : Nat} (form : UnitForm digits unit) (limit : Nat)
      (rest : Input) : Json.skipCharacters (limit + 1) ('\\' :: 'u' :: (digits ++ rest)) =
        Json.skipCharacters limit rest := by
    rw [Json.skipCharacters, skipEscape, form.readHex]
    rfl
  cases h with
  | plain printable unquoted unescaped =>
    refine ⟨1, Nat.le_refl 1, ?_⟩
    intro limit rest
    rw [List.cons_append, List.nil_append, Json.skipCharacters, if_neg (by omega)]
    · exact unquoted
    · exact unescaped
  | @letter letter _ escape =>
    obtain ⟨other, short⟩ := shortEscape?_of_mem escape
    refine ⟨1, Nat.le_succ 1, ?_⟩
    intro limit rest
    have skipped : skipEscape (letter :: rest) = .ok rest := by
      rw [skipEscape, short]
      · rfl
      · exact other
    rw [List.cons_append, List.cons_append, List.nil_append, Json.skipCharacters, skipped]
    rfl
  | code form whole =>
    refine ⟨1, Nat.le_add_left 1 _, ?_⟩
    intro limit rest
    exact unit form limit rest
  | @pair digits others _ _ first second leading trailing =>
    refine ⟨2, Nat.le_add_left 2 _, ?_⟩
    intro limit rest
    have split : '\\' :: 'u' :: (digits ++ '\\' :: 'u' :: others) ++ rest =
        '\\' :: 'u' :: (digits ++ '\\' :: 'u' :: (others ++ rest)) := by
      simp only [List.cons_append, List.append_assoc]
    rw [split, unit first (limit + 1), unit second]

theorem CharactersForm.skipCharacters {text content : List Char} (h : CharactersForm text content) :
    ∃ steps ≤ text.length, ∀ limit rest,
      skipCharacters (limit + steps) (text ++ rest) = skipCharacters limit rest := by
  induction h with
  | nil => exact ⟨0, Nat.le_refl 0, fun limit rest => rfl⟩
  | cons first later ih =>
    obtain ⟨steps, few, skip⟩ := first.skipCharacters
    obtain ⟨others, fewer, skips⟩ := ih
    refine ⟨others + steps, ?_, ?_⟩
    · rw [List.length_append]
      omega
    · intro limit rest
      rw [List.append_assoc, ← Nat.add_assoc, skip, skips]

theorem TextForm.skipQuoted {text : List Char} {content : String} (h : TextForm text content)
    (rest : Input) : ∃ tail, text ++ rest = '"' :: tail ∧ skipQuoted tail = .ok rest := by
  obtain @⟨inner, content, form⟩ := h
  obtain ⟨steps, few, skip⟩ := form.skipCharacters
  refine ⟨inner ++ '"' :: rest, ?_, ?_⟩
  · rw [List.cons_append, List.append_assoc]
    rfl
  · have room : (inner ++ '"' :: rest).length = inner.length - steps + rest.length + 1 + steps := by
      rw [List.length_append, List.length_cons]
      omega
    rw [Json.skipQuoted, room, skip, Json.skipCharacters]

theorem skipScalar_of_readNumber {input rest : Input} {number : Number}
    (h : readNumber input = .ok (number, rest)) : skipScalar input = .ok rest := by
  obtain ⟨c, tail, rfl, front⟩ := readNumber_front h
  obtain ⟨isNegative, behind, minus, skipped⟩ := skipUnsigned_of_readNumber h
  have other {d : Char} (none : ¬(d = '-' ∨ d.isDigit = true)) : c ≠ d := by
    rintro rfl
    exact none front
  by_cases signed : c = '-'
  · subst signed
    cases minus
    exact skipped
  · have digit : c.isDigit = true := front.resolve_left signed
    rw [readMinus_of_ne signed] at minus
    cases minus
    rw [skipScalar, if_pos digit, skipped]
    · exact other (by decide)
    · exact other (by decide)
    · exact other (by decide)
    · exact other (by decide)
    · exact signed

theorem ScalarForm.skipScalar {text : List Char} {value : Value} (h : ScalarForm text value)
    {rest : Input} (ends : EndsNumber rest) : skipScalar (text ++ rest) = .ok rest := by
  cases h with
  | null => rfl
  | true => rfl
  | false => rfl
  | number form inRange =>
    have read := isNumeric_readNumber.append (form.readNumber inRange) ends
    rw [List.nil_append] at read
    exact skipScalar_of_readNumber read
  | text form =>
    obtain ⟨tail, quoted, skipped⟩ := form.skipQuoted rest
    rw [quoted]
    exact skipped

theorem Space.skipNested {space : List Char} (h : Space space) (limit : Nat)
    (containers : List Bracket) (rest : Input) :
    skipNested limit .value containers (space ++ rest) =
      skipNested limit .value containers rest := by
  cases limit with
  | zero => rfl
  | succ limit => rw [Json.skipNested, Json.skipNested, h.skipSpace]

/-- Inside any containers this text is passed over as one value, in no more steps than it has
characters. -/
def Skipped (text : List Char) : Prop :=
  ∃ steps ≤ text.length, ∀ limit containers rest, EndsNumber rest →
    skipNested (limit + steps) .value containers (text ++ rest) =
      skipNested limit .after containers rest

/-- The same of what stands between two commas of a container. -/
structure SkippedIn (container : Bracket) (text : List Char) : Prop where
  begins : ∃ c tail, text = c :: tail ∧ isSpace c = false ∧ c ≠ container.closer
  skipped : ∃ steps ≤ text.length, ∀ limit outer before rest, Space before → EndsNumber rest →
    (skipLead container (before ++ (text ++ rest)) >>=
        skipNested (limit + steps) .value (container :: outer)) =
      skipNested limit .after (container :: outer) rest

/-- Behind an opening bracket there is its closing one or an item. -/
def skipEntered (limit : Nat) (container : Bracket) (outer : List Bracket) (input : Input) :
    Except Fault Input :=
  match skipSpace input with
  | [] => .error .truncated
  | c :: rest =>
    if c = container.closer then skipNested limit .after outer rest
    else skipLead container input >>= skipNested limit .value (container :: outer)

def Bracket.opener : Bracket → Char
  | .square => '['
  | .curly => '\x7b'

theorem skipNested_opener (container : Bracket) (limit : Nat) (outer : List Bracket)
    (rest : Input) : skipNested (limit + 1) .value outer (container.opener :: rest) =
      skipEntered limit container outer rest := by
  cases container with
  | square =>
    rw [skipNested, Bracket.opener, skipSpace_cons (by decide)]
    rfl
  | curly =>
    rw [skipNested, Bracket.opener, skipSpace_cons (by decide)]
    rfl

theorem Bracket.closer_plain (container : Bracket) :
    isSpace container.closer = false ∧ isNumeric container.closer = false ∧
      ',' ≠ container.closer := by
  cases container <;> decide

section Items

variable {container : Bracket} {texts : List (List Char)} {inner : List Char}

theorem FurtherForm.skipNested (form : FurtherForm texts inner)
    (each : ∀ text ∈ texts, SkippedIn container text) :
    ∃ steps ≤ inner.length + 1, ∀ limit outer rest,
      skipNested (limit + steps) .after (container :: outer) (inner ++ container.closer :: rest) =
        skipNested limit .after outer rest := by
  obtain ⟨closes, ends, comma⟩ := container.closer_plain
  induction form with
  | nil blank =>
    refine ⟨1, Nat.le_add_left 1 _, ?_⟩
    intro limit outer rest
    rw [Json.skipNested, blank.skipSpace, skipSpace_cons closes]
    exact if_pos rfl
  | @cons space before text later texts blank lead others ih =>
    obtain ⟨first, further⟩ := List.forall_mem_cons.1 each
    obtain ⟨steps, few, skip⟩ := first.skipped
    obtain ⟨more, fewer, skips⟩ := ih further
    refine ⟨more + steps + 1, ?_, ?_⟩
    · simp only [List.length_append, List.length_cons]
      omega
    · intro limit outer rest
      have behind := others.endsNumber ends rest
      have front : skipSpace
            (space ++ ',' :: (before ++ (text ++ later)) ++ container.closer :: rest) =
          ',' :: (before ++ (text ++ (later ++ container.closer :: rest))) := by
        simp only [List.append_assoc, List.cons_append]
        rw [blank.skipSpace, skipSpace_cons (by decide)]
      rw [← Nat.add_assoc, ← Nat.add_assoc, Json.skipNested, front]
      dsimp only
      rw [if_neg comma, if_pos rfl]
      exact (skip _ _ _ _ lead behind).trans (skips limit outer rest)

theorem ItemsForm.skipped (form : ItemsForm texts inner)
    (each : ∀ text ∈ texts, SkippedIn container text) :
    Skipped (container.opener :: (inner ++ [container.closer])) := by
  obtain ⟨closes, ends, comma⟩ := container.closer_plain
  cases form with
  | nil blank =>
    refine ⟨1, Nat.le_add_left 1 _, ?_⟩
    intro limit outer rest _
    rw [List.cons_append, skipNested_opener, skipEntered, List.append_assoc, blank.skipSpace,
      List.cons_append, skipSpace_cons closes]
    exact if_pos rfl
  | @cons before text later texts lead others =>
    obtain ⟨first, further⟩ := List.forall_mem_cons.1 each
    obtain ⟨steps, few, skip⟩ := first.skipped
    obtain ⟨more, fewer, skips⟩ := others.skipNested further
    refine ⟨more + steps + 1, ?_, ?_⟩
    · simp only [List.length_append, List.length_cons]
      omega
    · intro limit outer rest _
      have behind := others.endsNumber ends rest
      have read := (skip _ outer _ _ lead behind).trans (skips limit outer rest)
      have whole : before ++ (text ++ later) ++ [container.closer] ++ rest =
          before ++ (text ++ (later ++ container.closer :: rest)) := by
        simp only [List.append_assoc, List.cons_append, List.nil_append]
      obtain ⟨c, tail, rfl, space, open?⟩ := first.begins
      have front : skipSpace (before ++ (c :: tail ++ (later ++ container.closer :: rest))) =
          c :: (tail ++ (later ++ container.closer :: rest)) := by
        rw [lead.skipSpace, List.cons_append, skipSpace_cons space]
      rw [List.cons_append, whole, ← Nat.add_assoc, ← Nat.add_assoc, skipNested_opener,
        skipEntered, front]
      dsimp only
      rw [if_neg open?]
      exact read

end Items

theorem skipNested_of_opensScalar {c : Char} (opens : opensScalar c = true) (limit : Nat)
    (containers : List Bracket) (rest : Input) :
    skipNested (limit + 1) .value containers (c :: rest) =
      skipScalar (c :: rest) >>= skipNested limit .after containers := by
  obtain ⟨space, list, -, object⟩ := opensScalar_iff.1 opens
  rw [skipNested, skipSpace_cons space]
  dsimp only
  split
  · rename_i nothing
    cases nothing
  · rename_i bracket
    cases bracket
    exact absurd rfl list
  · rename_i brace
    cases brace
    exact absurd rfl object
  · rfl

theorem ScalarForm.skipped {text : List Char} {value : Value} (h : ScalarForm text value) :
    Skipped text := by
  obtain ⟨c, tail, rfl, opens⟩ := h.opens
  refine ⟨1, Nat.le_add_left 1 _, ?_⟩
  intro limit containers rest ends
  have skip := h.skipScalar ends
  rw [List.cons_append] at skip ⊢
  rw [skipNested_of_opensScalar opens, skip]
  rfl

theorem Skipped.inList {text : List Char} (h : Skipped text) (begins : BeginsValue text) :
    SkippedIn .square text where
  begins := begins
  skipped := by
    obtain ⟨steps, few, skip⟩ := h
    refine ⟨steps, few, ?_⟩
    intro limit outer before rest lead ends
    exact (lead.skipNested _ _ _).trans (skip limit _ rest ends)

theorem Skipped.inObject {quoted before after text : List Char} {name : String} (h : Skipped text)
    (named : TextForm quoted name) (blank : Space before) (lead : Space after) :
    SkippedIn .curly (quoted ++ (before ++ ':' :: (after ++ text))) where
  begins := by
    obtain @⟨inner, content, form⟩ := named
    exact ⟨'"', _, rfl, by decide, by decide⟩
  skipped := by
    obtain ⟨steps, few, skip⟩ := h
    refine ⟨steps, ?_, ?_⟩
    · simp only [List.length_append, List.length_cons]
      omega
    · intro limit outer front rest space ends
      obtain ⟨tail, mark, quote⟩ := named.skipQuoted (before ++ ':' :: (after ++ (text ++ rest)))
      have name : skipLead .curly
            (front ++ (quoted ++ (before ++ ':' :: (after ++ text)) ++ rest)) =
          .ok (after ++ (text ++ rest)) := by
        simp only [List.append_assoc, List.cons_append, mark]
        rw [skipLead, skipName, space.skipSpace, skipSpace_cons (by decide)]
        simp only [quote, Bind.bind, Except.bind]
        rw [blank.skipSpace, skipSpace_cons (by decide)]
        rfl
      rw [name]
      exact (lead.skipNested _ _ _).trans (skip limit _ rest ends)

variable {depth : Nat}

theorem ValueForm.skipped {text : List Char} {value : Value} (h : ValueForm depth text value) :
    Skipped text := by
  induction depth generalizing text value with
  | zero => exact ScalarForm.skipped h
  | succ depth ih =>
    rcases h with scalar | ⟨items, @⟨_, texts, _, each, form⟩, rfl⟩ |
      ⟨members, @⟨_, texts, _, each, form⟩, rfl⟩
    · exact scalar.skipped
    · have inside : ∀ text ∈ texts, SkippedIn .square text := by
        clear form
        induction each with
        | nil => exact List.forall_mem_nil _
        | cons first others items =>
          exact List.forall_mem_cons.2 ⟨(ih first).inList first.readAs.begins, items⟩
      exact form.skipped inside
    · have inside : ∀ text ∈ texts, SkippedIn .curly text := by
        clear form
        induction each with
        | nil => exact List.forall_mem_nil _
        | cons first others items =>
          obtain ⟨quoted, blank, lead, value⟩ := first
          exact List.forall_mem_cons.2 ⟨(ih value).inObject quoted blank lead, items⟩
      exact form.skipped inside

/-- Behind any space, a value is passed over up to what follows it. -/
theorem ValueForm.skipValue {text : List Char} {value : Value} (h : ValueForm depth text value)
    {space : List Char} (lead : Space space) {rest : Input} (ends : EndsNumber rest) :
    skipValue (space ++ (text ++ rest)) = .ok rest := by
  obtain ⟨steps, few, skip⟩ := h.skipped
  -- the scan may take as many steps as the input has characters, which is enough for this value
  have room : (space ++ (text ++ rest)).length + 1 =
      space.length + (text.length - steps) + rest.length + 1 + steps := by
    simp only [List.length_append]
    omega
  rw [Json.skipValue, room, lead.skipNested, skip _ _ _ ends, skipNested]

end SpeechService.Json
