import SpeechService.Audio

/-!
Texts. Blank means the Unicode property White_Space; letter case, digits and separators are those of
ASCII; bytes are UTF-8 or base 64. Of base 64 only canonical text is read: padded to groups of four,
unused bits zero. `ofText?` also allows blanks around the text.
-/

set_option autoImplicit false

namespace SpeechService.Text

/-- A character with the Unicode property White_Space. -/
def isBlank (c : Char) : Bool :=
  let n := c.toNat
  (0x09 ≤ n && n ≤ 0x0D) || n == 0x20 || n == 0x85 || n == 0xA0 || n == 0x1680 ||
    (0x2000 ≤ n && n ≤ 0x200A) || n == 0x2028 || n == 0x2029 || n == 0x202F || n == 0x205F ||
    n == 0x3000

def trimEnd (text : List Char) : List Char := (text.reverse.dropWhile isBlank).reverse

def trimList (text : List Char) : List Char := trimEnd (text.dropWhile isBlank)

def trim (text : String) : String := String.ofList (trimList text.toList)

def isBlankText (text : String) : Bool := text.toList.all isBlank

/-- Trimmed, and absent when nothing is left. -/
def trimmed? (text : String) : Option String :=
  let rest := trim text
  if rest.isEmpty then none else some rest

/-- Capital letters of ASCII made small; every other character stays. -/
def lowerAscii (text : String) : String := String.ofList (text.toList.map Char.toLower)

def digitValue (c : Char) : Nat := c.toNat - '0'.toNat

/-- The number that decimal digits stand for, most significant first. -/
def digitsValue (digits : List Char) : Nat :=
  digits.foldl (fun value c => 10 * value + digitValue c) 0

/-- A natural number of at most `greatest`: digits, at least one, after an optional plus sign. -/
def natural? (greatest : Nat) (text : String) : Option Nat :=
  let digits := match text.toList with
    | '+' :: rest => rest
    | all => all
  if digits.isEmpty || !digits.all Char.isDigit then none
  else
    let value := digitsValue digits
    if value ≤ greatest then some value else none

/-- The text before and after the last `separator`, if it occurs. -/
def splitAtLast? (separator : Char) (text : String) : Option (String × String) :=
  let backwards := text.toList.reverse
  let tail := backwards.takeWhile (· != separator)
  match backwards.drop tail.length with
  | [] => none
  | _ :: head => some (String.ofList head.reverse, String.ofList tail.reverse)

def bytes (text : String) : Bytes := text.toList.flatMap String.utf8EncodeChar

/-- The text whose UTF-8 form the bytes are, if they are one. -/
def ofBytes? (bytes : Bytes) : Option String := String.fromUTF8? ⟨bytes.toArray⟩

end SpeechService.Text

namespace SpeechService.Base64

def alphabet : List Char :=
  ['A', 'B', 'C', 'D', 'E', 'F', 'G', 'H', 'I', 'J', 'K', 'L', 'M', 'N', 'O', 'P',
   'Q', 'R', 'S', 'T', 'U', 'V', 'W', 'X', 'Y', 'Z', 'a', 'b', 'c', 'd', 'e', 'f',
   'g', 'h', 'i', 'j', 'k', 'l', 'm', 'n', 'o', 'p', 'q', 'r', 's', 't', 'u', 'v',
   'w', 'x', 'y', 'z', '0', '1', '2', '3', '4', '5', '6', '7', '8', '9', '+', '/']

def digit (value : Nat) : Char := alphabet.getD value '='

def value? (c : Char) : Option Nat := alphabet.idxOf? c

/-- Write the digits of the remaining bytes, the text so far being reversed. -/
def encodeOnto (written : List Char) : Bytes → List Char
  | a :: b :: c :: rest =>
    let group := 65536 * a.toNat + 256 * b.toNat + c.toNat
    encodeOnto (digit (group % 64) :: digit (group / 64 % 64) :: digit (group / 4096 % 64) ::
      digit (group / 262144) :: written) rest
  | [a, b] =>
    let group := 1024 * a.toNat + 4 * b.toNat
    ('=' :: digit (group % 64) :: digit (group / 64 % 64) :: digit (group / 4096) ::
      written).reverse
  | [a] =>
    let group := 16 * a.toNat
    ('=' :: '=' :: digit (group % 64) :: digit (group / 64) :: written).reverse
  | [] => written.reverse

/-- The digits of a byte string: four for each three bytes, the last group padded. -/
def encode (bytes : Bytes) : List Char := encodeOnto [] bytes

/-- The bytes of a last group, whose fourth digit is padding and whose third may be. -/
def decodePadded? (a b c : Char) : Option Bytes :=
  if c = '=' then do
    let group := 64 * (← value? a) + (← value? b)
    if group % 16 = 0 then some [UInt8.ofNat (group / 16)] else none
  else do
    let group := 4096 * (← value? a) + 64 * (← value? b) + (← value? c)
    if group % 4 = 0 then
      some [UInt8.ofNat (group / 1024), UInt8.ofNat (group / 4 % 256)]
    else none

/-- Read the remaining digits, the bytes so far being reversed. -/
def decodeOnto (read : Bytes) : List Char → Option Bytes
  | a :: b :: c :: d :: rest =>
    if d = '=' then
      if rest.isEmpty then (decodePadded? a b c).map (read.reverse ++ ·) else none
    else do
      let group := 262144 * (← value? a) + 4096 * (← value? b) + 64 * (← value? c) + (← value? d)
      decodeOnto (UInt8.ofNat (group % 256) :: UInt8.ofNat (group / 256 % 256) ::
        UInt8.ofNat (group / 65536) :: read) rest
  | [] => some read.reverse
  | _ => none

/-- The bytes whose digits these are, if they are the digits of any. -/
def decode? (digits : List Char) : Option Bytes := decodeOnto [] digits

def ofText? (text : String) : Option Bytes := decode? (Text.trimList text.toList)

end SpeechService.Base64
