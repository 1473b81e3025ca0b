import SpeechService.Json.Value

/-!
Records with named fields, read member by member. Fields may be absent and stand in any order; a
list gives them in the order of declaration. `readRecord` threads the record through its fields.
Unknown members are passed over without building their values: only the outline of the grammar is
checked, nesting is unbounded, numbers may have any size, and escapes may name surrogates.
-/

set_option autoImplicit false

namespace SpeechService.Json

inductive Bracket where
  | square
  | curly
  deriving DecidableEq, Repr

def Bracket.closer : Bracket → Char
  | .square => ']'
  | .curly => '\x7d'

def skipEscape : Input → Except Fault Input
  | [] => .error .truncated
  | 'u' :: rest => do
    let (_, rest) ← readHex rest
    .ok rest
  | c :: rest => if (shortEscape? c).isSome then .ok rest else .error .malformed

/-- Pass over the characters up to the closing quote. `limit` bounds their number. -/
def skipCharacters : (limit : Nat) → Input → Except Fault Input
  | 0, _ => .error .truncated
  | _ + 1, [] => .error .truncated
  | _ + 1, '"' :: rest => .ok rest
  | limit + 1, '\\' :: rest => do
    let rest ← skipEscape rest
    skipCharacters limit rest
  | limit + 1, c :: rest => if c.toNat < 32 then .error .malformed else skipCharacters limit rest

def skipQuoted (input : Input) : Except Fault Input := skipCharacters input.length input

def skipDigits (input : Input) : Except Fault Input :=
  match spanDigits input with
  | ([], _) => .error .malformed
  | (_, rest) => .ok rest

/-- Pass over at least one digit; a leading zero stands alone. -/
def skipWhole : Input → Except Fault Input
  | '0' :: rest => if rest.head?.any Char.isDigit then .error .malformed else .ok rest
  | rest => skipDigits rest

def skipFraction : Input → Except Fault Input
  | '.' :: rest => skipDigits rest
  | rest => .ok rest

/-- Pass over an exponent mark, a sign and digits, if there is a mark. -/
def skipExponent : Input → Except Fault Input
  | [] => .ok []
  | mark :: rest =>
    if mark = 'e' ∨ mark = 'E' then do
      let (_, rest) ← readSign rest
      skipDigits rest
    else .ok (mark :: rest)

/-- Pass over a number without its sign. A number that is cut off counts as malformed. -/
def skipUnsigned (input : Input) : Except Fault Input := do
  let rest ← skipWhole input
  let rest ← skipFraction rest
  skipExponent rest

/-- Pass over a value that is neither list nor object, and stands right at the front. -/
def skipScalar (input : Input) : Except Fault Input :=
  match input with
  | 'n' :: rest => do
    let (_, rest) ← readWord ['u', 'l', 'l'] rest
    .ok rest
  | 't' :: rest => do
    let (_, rest) ← readWord ['r', 'u', 'e'] rest
    .ok rest
  | 'f' :: rest => do
    let (_, rest) ← readWord ['a', 'l', 's', 'e'] rest
    .ok rest
  | '"' :: rest => skipQuoted rest
  | '-' :: rest => skipUnsigned rest
  | [] => .error .truncated
  | c :: rest => if c.isDigit then skipUnsigned (c :: rest) else .error .malformed

/-- Pass over the name of a member, whose opening quote comes next, and its colon. -/
def skipName (input : Input) : Except Fault Input :=
  match skipSpace input with
  | [] => .error .truncated
  | '"' :: rest => do
    let rest ← skipQuoted rest
    match skipSpace rest with
    | [] => .error .truncated
    | ':' :: rest => .ok rest
    | _ => .error .malformed
  | _ => .error .malformed

def skipLead : Bracket → Input → Except Fault Input
  | .square, input => .ok input
  | .curly, input => skipName input

inductive SkipPhase where
  | value
  | after
  deriving DecidableEq, Repr

/-- Pass over the rest of a value inside the open `containers`, innermost first. Every step but
the last one passes a character, and `limit` bounds their number. -/
def skipNested : (limit : Nat) → SkipPhase → (containers : List Bracket) → Input →
    Except Fault Input
  | 0, _, _, _ => .error .truncated
  | _ + 1, .after, [], input => .ok input
  | limit + 1, .after, container :: outer, input =>
    match skipSpace input with
    | [] => .error .truncated
    | c :: rest =>
      if c = container.closer then skipNested limit .after outer rest
      else if c = ',' then do
        let rest ← skipLead container rest
        skipNested limit .value (container :: outer) rest
      else .error .malformed
  | limit + 1, .value, containers, input =>
    let enter (container : Bracket) (rest : Input) : Except Fault Input :=
      match skipSpace rest with
      | [] => .error .truncated
      | c :: tail =>
        if c = container.closer then skipNested limit .after containers tail
        else do
          let rest ← skipLead container rest
          skipNested limit .value (container :: containers) rest
    match skipSpace input with
    | [] => .error .truncated
    | '[' :: rest => enter .square rest
    | '\x7b' :: rest => enter .curly rest
    | rest => do
      let rest ← skipScalar rest
      skipNested limit .after containers rest

def skipValue (input : Input) : Except Fault Input :=
  skipNested (input.length + 1) .value [] input

/-- A field of a record type `σ`: its name, and how it is read into a record. -/
structure Field (σ : Type) where
  name : String
  read : σ → Reader σ

def Field.of {σ α : Type} (name : String) (value : Reader α) (store : σ → α → σ) : Field σ where
  name := name
  read := fun record input => do
    let (value, rest) ← value input
    .ok (store record value, rest)

/-- A member of a record. A field that was given before is refused by its name alone. -/
def readField {σ : Type} (fields : List (Field σ)) (name : String) (state : List String × σ) :
    Reader (List String × σ) := fun input =>
  let (given, record) := state
  match fields.find? (·.name == name) with
  | none => do
    let rest ← readColon input
    let rest ← skipValue rest
    .ok (state, rest)
  | some field =>
    if given.contains name then .error .mismatched
    else do
      let rest ← readColon input
      let (record, rest) ← field.read record rest
      .ok ((name :: given, record), rest)

/-- The fields of a record given as a list; `first` says that no item came before. Fields at the end
may be left out; nothing may follow the last one. -/
def readPositions {σ : Type} : List (Field σ) → (first : Bool) → σ → Reader σ
  | [], _, record, input =>
    match skipSpace input with
    | [] => .error .truncated
    | ']' :: rest => .ok (record, rest)
    | _ => .error .malformed
  | field :: fields, first, record, input =>
    let read (rest : Input) : Except Fault (σ × Input) := do
      let (record, rest) ← field.read record rest
      readPositions fields false record rest
    match skipSpace input with
    | [] => .error .truncated
    | ']' :: rest => .ok (record, rest)
    | rest =>
      if first then read rest
      else match rest with
        | ',' :: rest =>
          match skipSpace rest with
          | [] => .error .truncated
          | ']' :: _ => .error .malformed
          | rest => read rest
        | _ => .error .malformed

def readRecord {σ : Type} (fields : List (Field σ)) (defaults : σ) (input : Input) :
    Except Fault (σ × Input) :=
  match skipSpace input with
  | '\x7b' :: rest => do
    let ((_, record), rest) ← readMembers (readField fields) ([], defaults) rest
    .ok (record, rest)
  | '[' :: rest => readPositions fields true defaults rest
  | _ => .error (mismatch input)

def readNatural (greatest : Nat) (input : Input) : Except Fault (Nat × Input) :=
  match skipSpace input with
  | c :: rest =>
    if c = '-' ∨ c.isDigit then do
      let (number, rest) ← readNumber (c :: rest)
      match number.natural? greatest with
      | some value => .ok (value, rest)
      | none => .error .mismatched
    else .error (mismatch input)
  | [] => .error .truncated

def readBool (input : Input) : Except Fault (Bool × Input) :=
  match skipSpace input with
  | 't' :: rest => do
    let (_, rest) ← readWord ['r', 'u', 'e'] rest
    .ok (true, rest)
  | 'f' :: rest => do
    let (_, rest) ← readWord ['a', 'l', 's', 'e'] rest
    .ok (false, rest)
  | _ => .error (mismatch input)

/-- A table from texts to texts: an object whose values are texts, in the order of its members. -/
def readTextTable (input : Input) : Except Fault (List (String × String) × Input) :=
  match skipSpace input with
  | '\x7b' :: rest => do
    let member (name : String) (entries : List (String × String)) :
        Reader (List (String × String)) := fun input => do
      let rest ← readColon input
      let (value, rest) ← readText rest
      .ok ((name, value) :: entries, rest)
    let (entries, rest) ← readMembers member [] rest
    .ok (entries.reverse, rest)
  | _ => .error (mismatch input)

end SpeechService.Json
