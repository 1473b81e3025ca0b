import SpeechService.Decimal
import SpeechService.Text

/-!
JSON values, read and written. A whole number that fits a 64-bit word stays exact; any other number
becomes a float: as many leading digits as fit 64 bits, scaled by a power of ten in one
floating-point step. Quoted texts may have every escape of JSON, but no control characters and no
unpaired surrogates. Lists and objects are read by `readElements` and `readMembers`, which thread a
state through the items; `readValue` uses them to build a value and bounds how deep values may nest.

`Value.members?` finds the fields of a record in an object or a list. `readTagged` reads a message
whose kind is the value of its member `type`, or stands in front of a list; the whole message is
read before its fields are looked at, so that only the kind itself can be refused earlier. Written
text has no space between tokens, and members in the given order.
-/

set_option autoImplicit false

namespace SpeechService.Json

inductive Fault where
  /-- The text breaks the grammar, nests too deeply, or holds a number beyond the range of floats.
  -/
  | malformed
  /-- The text is JSON, but a value, name or count is not the expected one. -/
  | mismatched
  | truncated
  deriving DecidableEq, Repr

def Fault.message : Fault → String
  | .malformed => "malformed JSON"
  | .mismatched => "unexpected value"
  | .truncated => "unexpected end of JSON"

abbrev Input := List Char

/-- A reader takes a value off the front of its input. -/
abbrev Reader (α : Type) := Input → Except Fault (α × Input)

def isSpace (c : Char) : Bool := c == ' ' || c == '\n' || c == '\t' || c == '\r'

def skipSpace (input : Input) : Input := input.dropWhile isSpace

def readWord : List Char → Reader Unit
  | [], input => .ok ((), input)
  | _ :: _, [] => .error .truncated
  | expected :: word, c :: input =>
    if c = expected then readWord word input else .error .malformed

inductive Number where
  | natural (value : UInt64)
  | negative (value : Int64)
  | real (value : Float)
  deriving DecidableEq

/-- A number as it is written: digits only, without sign, point and mark. -/
structure NumberText where
  isNegative : Bool
  whole : List Char
  fraction : Option (List Char)
  /-- Whether the exponent is negative, and its digits. -/
  exponent : Option (Bool × List Char)
  deriving DecidableEq, Repr

def spanDigits (input : Input) : List Char × Input :=
  (input.takeWhile Char.isDigit, input.dropWhile Char.isDigit)

def readWhole : Reader (List Char)
  | [] => .error .truncated
  | '0' :: rest =>
    if rest.head?.any Char.isDigit then .error .malformed else .ok (['0'], rest)
  | c :: rest =>
    if c.isDigit then .ok (spanDigits (c :: rest)) else .error .malformed

def readDigits (input : Input) : Except Fault (List Char × Input) :=
  match spanDigits input with
  | ([], []) => .error .truncated
  | ([], _ :: _) => .error .malformed
  | (digits, rest) => .ok (digits, rest)

def readFraction : Reader (Option (List Char))
  | '.' :: rest => do
    let (digits, rest) ← readDigits rest
    .ok (some digits, rest)
  | rest => .ok (none, rest)

def readMinus : Reader Bool
  | '-' :: rest => .ok (true, rest)
  | rest => .ok (false, rest)

/-- Whether there is a minus, and the input behind it or behind a plus. -/
def readSign : Reader Bool
  | '+' :: rest => .ok (false, rest)
  | rest => readMinus rest

def readExponent : Reader (Option (Bool × List Char))
  | [] => .ok (none, [])
  | mark :: rest =>
    if mark = 'e' ∨ mark = 'E' then do
      let (isNegative, rest) ← readSign rest
      let (digits, rest) ← readDigits rest
      .ok (some (isNegative, digits), rest)
    else .ok (none, mark :: rest)

def readNumberText (input : Input) : Except Fault (NumberText × Input) := do
  let (isNegative, input) ← readMinus input
  let (whole, input) ← readWhole input
  let (fraction, input) ← readFraction input
  let (exponent, input) ← readExponent input
  .ok (⟨isNegative, whole, fraction, exponent⟩, input)

def greatestWord : Nat := UInt64.size - 1

/-- Append digits to a number as long as it stays a 64-bit word; the digits from the first one that
does not fit are left. -/
def absorb (value : Nat) : List Char → Nat × List Char
  | [] => (value, [])
  | digit :: digits =>
    let next := 10 * value + Text.digitValue digit
    if next ≤ greatestWord then absorb next digits else (value, digit :: digits)

def powerOfTen (exponent : Nat) : Float := Decimal.doubleOfQuotient (Decimal.tenPow exponent) 1

/-- Scale a float by a power of ten, in steps of at most 308 places. A result beyond the greatest
float is refused. -/
def scale (value : Float) (exponent : Int) : Except Fault Float :=
  if exponent.natAbs ≤ 308 then
    if 0 ≤ exponent then
      let scaled := value * powerOfTen exponent.natAbs
      if scaled.isInf then .error .malformed else .ok scaled
    else .ok (value / powerOfTen exponent.natAbs)
  else if value == 0 then .ok value
  else if 0 ≤ exponent then .error .malformed
  else scale (value / powerOfTen 308) (exponent + 308)
termination_by exponent.natAbs
decreasing_by omega

/-- The greatest exponent that is counted; a larger one stands for a number out of range or for
zero. -/
def greatestExponent : Nat := UInt32.size / 2 - 1

namespace NumberText

def float (text : NumberText) : Except Fault Float := do
  let (significand, left) := absorb 0 text.whole
  let fraction := text.fraction.getD []
  let (significand, ignored) := absorb significand fraction
  let places : Int := left.length - (fraction.length - ignored.length : Nat)
  let magnitude ← match text.exponent with
    | none => scale significand.toUInt64.toFloat places
    | some (isNegative, digits) =>
      let exponent := Text.digitsValue digits
      if greatestExponent < exponent then
        if significand ≠ 0 ∧ !isNegative then .error .malformed else .ok 0
      else
        scale significand.toUInt64.toFloat
          (if isNegative then places - exponent else places + exponent)
  .ok (if text.isNegative then -magnitude else magnitude)

def value (text : NumberText) : Except Fault Number := do
  let (magnitude, left) := absorb 0 text.whole
  if text.fraction.isNone && text.exponent.isNone && left.isEmpty &&
      (!text.isNegative || (0 < magnitude && magnitude ≤ UInt64.size / 2)) then
    .ok (if text.isNegative then .negative (Int64.ofInt (-magnitude))
      else .natural magnitude.toUInt64)
  else
    let value ← text.float
    .ok (.real value)

end NumberText

def readNumber (input : Input) : Except Fault (Number × Input) := do
  let (text, input) ← readNumberText input
  let value ← text.value
  .ok (value, input)

namespace Number

/-- The value as a whole number from zero up to a greatest one. -/
def natural? (greatest : Nat) : Number → Option Nat
  | .natural value => if value.toNat ≤ greatest then some value.toNat else none
  | _ => none

def toDouble : Number → Float
  | .natural value => value.toFloat
  | .negative value => value.toFloat
  | .real value => value

/-- The value as a 32-bit float; whole numbers are rounded once. -/
def toSingle : Number → Float32
  | .natural value => value.toFloat32
  | .negative value => value.toFloat32
  | .real value => Decimal.narrow value

end Number

def hexDigit (value : Nat) : Char :=
  if value < 10 then Char.ofNat ('0'.toNat + value) else Char.ofNat ('a'.toNat + (value - 10))

def hexValue? (c : Char) : Option Nat :=
  if '0' ≤ c ∧ c ≤ '9' then some (c.toNat - '0'.toNat)
  else if 'a' ≤ c ∧ c ≤ 'f' then some (c.toNat - 'a'.toNat + 10)
  else if 'A' ≤ c ∧ c ≤ 'F' then some (c.toNat - 'A'.toNat + 10)
  else none

def escape (c : Char) : List Char :=
  if c = '"' then ['\\', '"']
  else if c = '\\' then ['\\', '\\']
  else if c = '\n' then ['\\', 'n']
  else if c = '\t' then ['\\', 't']
  else if c = '\r' then ['\\', 'r']
  else if c.toNat = 8 then ['\\', 'b']
  else if c.toNat = 12 then ['\\', 'f']
  else if c.toNat < 32 then
    ['\\', 'u', '0', '0', hexDigit (c.toNat / 16), hexDigit (c.toNat % 16)]
  else [c]

def quote (text : List Char) : List Char := '"' :: text.flatMap escape ++ ['"']

/-- Four hexadecimal digits. With fewer than four bytes left the text counts as cut off. -/
def readHex (input : Input) : Except Fault (Nat × Input) :=
  if (input.take 4).foldl (fun size c => size + c.utf8Size) 0 < 4 then .error .truncated
  else match input with
    | a :: b :: c :: d :: rest =>
      match hexValue? a, hexValue? b, hexValue? c, hexValue? d with
      | some a, some b, some c, some d => .ok (4096 * a + 256 * b + 16 * c + d, rest)
      | _, _, _, _ => .error .malformed
    | _ => .error .malformed

def isLeadingSurrogate (unit : Nat) : Bool := 0xD800 ≤ unit && unit ≤ 0xDBFF

def isTrailingSurrogate (unit : Nat) : Bool := 0xDC00 ≤ unit && unit ≤ 0xDFFF

/-- The character after `\u`: one unit, or a pair of surrogates of which the second follows in a
second escape. -/
def readUnicode (input : Input) : Except Fault (Char × Input) := do
  let (unit, rest) ← readHex input
  if isTrailingSurrogate unit then .error .malformed
  else if isLeadingSurrogate unit then
    match rest with
    | [] => .error .truncated
    | '\\' :: [] => .error .truncated
    | '\\' :: 'u' :: rest => do
      let (second, rest) ← readHex rest
      if isTrailingSurrogate second then
        .ok (Char.ofNat (0x10000 + 0x400 * (unit - 0xD800) + (second - 0xDC00)), rest)
      else .error .malformed
    | _ => .error .malformed
  else .ok (Char.ofNat unit, rest)

def shortEscape? (c : Char) : Option Char :=
  if c = '"' ∨ c = '\\' ∨ c = '/' then some c
  else if c = 'n' then some '\n'
  else if c = 't' then some '\t'
  else if c = 'r' then some '\r'
  else if c = 'b' then some (Char.ofNat 8)
  else if c = 'f' then some (Char.ofNat 12)
  else none

def readEscape : Reader Char
  | [] => .error .truncated
  | 'u' :: rest => readUnicode rest
  | c :: rest => match shortEscape? c with
    | some c => .ok (c, rest)
    | none => .error .malformed

/-- The characters up to the closing quote, those already read being reversed. `limit` bounds the
number of characters. -/
def readCharacters : (limit : Nat) → (read : List Char) → Reader (List Char)
  | 0, _, _ => .error .truncated
  | _ + 1, _, [] => .error .truncated
  | _ + 1, read, '"' :: rest => .ok (read.reverse, rest)
  | limit + 1, read, '\\' :: rest => do
    let (c, rest) ← readEscape rest
    readCharacters limit (c :: read) rest
  | limit + 1, read, c :: rest =>
    if c.toNat < 32 then .error .malformed else readCharacters limit (c :: read) rest

def readQuoted (input : Input) : Except Fault (String × Input) := do
  let (text, rest) ← readCharacters input.length [] input
  .ok (String.ofList text, rest)

/-- A JSON value; an object keeps its members in the order and number in which they are written. -/
inductive Value where
  | null
  | bool (value : Bool)
  | number (value : Number)
  | text (value : String)
  | list (items : List Value)
  | object (members : List (String × Value))

def greatestDepth : Nat := 127

/-- The items that follow an item of a list, up to the closing bracket. `limit` bounds their number.
-/
def readFurtherElements {σ : Type} (item : σ → Reader σ) : (limit : Nat) → σ → Reader σ
  | 0, _, _ => .error .truncated
  | limit + 1, state, input =>
    match skipSpace input with
    | [] => .error .truncated
    | ']' :: rest => .ok (state, rest)
    | ',' :: rest =>
      match skipSpace rest with
      | [] => .error .truncated
      | ']' :: _ => .error .malformed
      | rest => do
        let (state, rest) ← item state rest
        readFurtherElements item limit state rest
    | _ => .error .malformed

def readElements {σ : Type} (item : σ → Reader σ) (state : σ) (input : Input) :
    Except Fault (σ × Input) :=
  match skipSpace input with
  | [] => .error .truncated
  | ']' :: rest => .ok (state, rest)
  | rest => do
    let (state, rest) ← item state rest
    readFurtherElements item input.length state rest

def readColon (input : Input) : Except Fault Input :=
  match skipSpace input with
  | [] => .error .truncated
  | ':' :: rest => .ok rest
  | _ => .error .malformed

/-- The members that follow a member of an object, up to the closing brace. `member` reads on behind
the name of a member, and so can refuse a name before its colon; `limit` bounds their number. -/
def readFurtherMembers {σ : Type} (member : String → σ → Reader σ) : (limit : Nat) → σ → Reader σ
  | 0, _, _ => .error .truncated
  | limit + 1, state, input =>
    match skipSpace input with
    | [] => .error .truncated
    | '\x7d' :: rest => .ok (state, rest)
    | ',' :: rest =>
      match skipSpace rest with
      | [] => .error .truncated
      | '"' :: rest => do
        let (name, rest) ← readQuoted rest
        let (state, rest) ← member name state rest
        readFurtherMembers member limit state rest
      | _ => .error .malformed
    | _ => .error .malformed

/-- The members of an object whose opening brace has been read. -/
def readMembers {σ : Type} (member : String → σ → Reader σ) (state : σ) (input : Input) :
    Except Fault (σ × Input) :=
  match skipSpace input with
  | [] => .error .truncated
  | '\x7d' :: rest => .ok (state, rest)
  | '"' :: rest => do
    let (name, rest) ← readQuoted rest
    let (state, rest) ← member name state rest
    readFurtherMembers member input.length state rest
  | _ => .error .malformed

/-- A value that is neither list nor object, and stands right at the front. -/
def readScalar (input : Input) : Except Fault (Value × Input) :=
  match input with
  | 'n' :: rest => do
    let (_, rest) ← readWord ['u', 'l', 'l'] rest
    .ok (.null, rest)
  | 't' :: rest => do
    let (_, rest) ← readWord ['r', 'u', 'e'] rest
    .ok (.bool true, rest)
  | 'f' :: rest => do
    let (_, rest) ← readWord ['a', 'l', 's', 'e'] rest
    .ok (.bool false, rest)
  | '"' :: rest => do
    let (value, rest) ← readQuoted rest
    .ok (.text value, rest)
  | [] => .error .truncated
  | c :: _ =>
    if c = '-' ∨ c.isDigit then do
      let (value, rest) ← readNumber input
      .ok (.number value, rest)
    else .error .malformed

/-- A value that nests in at most `depth` lists and objects of its own. -/
def readValue (depth : Nat) (input : Input) : Except Fault (Value × Input) :=
  match skipSpace input, depth with
  | '[' :: _, 0 => .error .malformed
  | '\x7b' :: _, 0 => .error .malformed
  | '[' :: rest, depth + 1 => do
    let item (items : List Value) : Reader (List Value) := fun input => do
      let (value, rest) ← readValue depth input
      .ok (value :: items, rest)
    let (items, rest) ← readElements item [] rest
    .ok (.list items.reverse, rest)
  | '\x7b' :: rest, depth + 1 => do
    let member (name : String) (members : List (String × Value)) :
        Reader (List (String × Value)) := fun input => do
      let rest ← readColon input
      let (value, rest) ← readValue depth rest
      .ok ((name, value) :: members, rest)
    let (members, rest) ← readMembers member [] rest
    .ok (.object members.reverse, rest)
  | input, _ => readScalar input

/-- The fault of input that does not begin with what was expected: a scalar must still be well
formed, while lists and objects are not looked into. -/
def mismatch (input : Input) : Fault :=
  match skipSpace input with
  | '[' :: _ => .mismatched
  | '\x7b' :: _ => .mismatched
  | input => match readScalar input with
    | .ok _ => .mismatched
    | .error fault => fault

def readText (input : Input) : Except Fault (String × Input) :=
  match skipSpace input with
  | '"' :: rest => readQuoted rest
  | _ => .error (mismatch input)

/-- A whole document: a value with nothing but space around it. -/
def readDocument {α : Type} (value : Reader α) (text : String) : Except Fault α := do
  let (value, rest) ← value text.toList
  if (skipSpace rest).isEmpty then .ok value else .error .malformed

abbrev Members := List (String × Value)

/-- The fields named `names` that a value gives: members of an object, none of them twice, or the
items of a list in the order of the names. A list may be shorter than the names, not longer. -/
def Value.members? (names : List String) : Value → Option Members
  | .object members =>
    let fields := members.filter fun field => names.contains field.1
    if (fields.map Prod.fst).Nodup then some fields else none
  | .list items => if items.length ≤ names.length then some (names.zip items) else none
  | _ => none

namespace Value

def text? : Value → Option String
  | .text value => some value
  | _ => none

def optionalText? : Value → Option (Option String)
  | .text value => some (some value)
  | .null => some none
  | _ => none

def bool? : Value → Option Bool
  | .bool value => some value
  | _ => none

def natural? (greatest : Nat) : Value → Option Nat
  | .number value => value.natural? greatest
  | _ => none

def word32? (value : Value) : Option UInt32 := (value.natural? (UInt32.size - 1)).map UInt32.ofNat

def word64? (value : Value) : Option UInt64 := (value.natural? (UInt64.size - 1)).map UInt64.ofNat

def double? : Value → Option Float
  | .number value => some value.toDouble
  | _ => none

def single? : Value → Option Float32
  | .number value => some value.toSingle
  | _ => none

def list? {α : Type} (item : Value → Option α) : Value → Option (List α)
  | .list items => items.mapM item
  | _ => none

end Value

namespace Members

def required? {α : Type} (members : Members) (name : String) (read : Value → Option α) : Option α :=
  (members.lookup name).bind read

def field? {α : Type} (members : Members) (name : String) (read : Value → Option α) (default : α) :
    Option α :=
  match members.lookup name with
  | none => some default
  | some value => read value

end Members

def kindName : String := "type"

def readKind (kinds : List String) (input : Input) : Except Fault (String × Input) := do
  let (kind, rest) ← readText input
  if kinds.contains kind then .ok (kind, rest) else .error .mismatched

/-- What has been read of a message: its kind, once met, and its other members or items, newest
first. -/
structure Tagged (α : Type) where
  kind : Option String
  content : List α

/-- A member of a message. The kind may be given once; its name is refused when it comes again. -/
def readTaggedMember (kinds : List String) (name : String) (message : Tagged (String × Value)) :
    Reader (Tagged (String × Value)) := fun input =>
  if name = kindName then
    if message.kind.isSome then .error .mismatched
    else do
      let rest ← readColon input
      let (kind, rest) ← readKind kinds rest
      .ok (⟨some kind, message.content⟩, rest)
  else do
    let rest ← readColon input
    let (value, rest) ← readValue (greatestDepth - 1) rest
    .ok (⟨message.kind, (name, value) :: message.content⟩, rest)

def readTaggedItem (kinds : List String) (message : Tagged Value) : Reader (Tagged Value) :=
  fun input =>
    match message.kind with
    | none => do
      let (kind, rest) ← readKind kinds input
      .ok (⟨some kind, message.content⟩, rest)
    | some kind => do
      let (value, rest) ← readValue (greatestDepth - 1) input
      .ok (⟨some kind, value :: message.content⟩, rest)

def readTagged (kinds : List String) (input : Input) : Except Fault ((String × Value) × Input) :=
  match skipSpace input with
  | '\x7b' :: rest => do
    let (message, rest) ← readMembers (readTaggedMember kinds) ⟨none, []⟩ rest
    match message.kind with
    | some kind => .ok ((kind, .object message.content.reverse), rest)
    | none => .error .mismatched
  | '[' :: rest => do
    let (message, rest) ← readElements (readTaggedItem kinds) ⟨none, []⟩ rest
    match message.kind with
    | some kind => .ok ((kind, .list message.content.reverse), rest)
    | none => .error .mismatched
  | _ => .error (mismatch input)

end SpeechService.Json

namespace SpeechService.Json.Written

def null : List Char := ['n', 'u', 'l', 'l']

def bool (value : Bool) : List Char :=
  if value then ['t', 'r', 'u', 'e'] else ['f', 'a', 'l', 's', 'e']

def natural (value : Nat) : List Char := Decimal.natural value

/-- The shortest text of a 64-bit float; null if it is not finite. -/
def double (value : Float) : List Char := (Decimal.double? value).getD null

/-- The shortest text of a 32-bit float; null if it is not finite. -/
def single (value : Float32) : List Char := (Decimal.single? value).getD null

def text (value : String) : List Char := quote value.toList

def optionalText : Option String → List Char
  | some value => text value
  | none => null

def separated : List (List Char) → List Char
  | [] => []
  | first :: others => first ++ others.flatMap (',' :: ·)

def list (items : List (List Char)) : List Char := '[' :: separated items ++ [']']

def member (name : String) (value : List Char) : List Char := text name ++ ':' :: value

def object (members : List (String × List Char)) : List Char :=
  '\x7b' :: separated (members.map fun (name, value) => member name value) ++ ['\x7d']

end SpeechService.Json.Written
