import SpeechService.Failure
import SpeechService.Language

/-!
Whether and how a text is translated. `route` decides by the languages alone; only a text between
two known, different codes reaches the translator, and whatever happens there the gate gives an
outcome.
-/

set_option autoImplicit false

namespace SpeechService

/-- One call of a translator; the languages are given by the translator's own codes. -/
structure TranslatorCall where
  text : String
  source : String
  target : String
  deriving DecidableEq, Repr

inductive TranslatorResult where
  | translated (text : String)
  | failed (failure : Failure)
  | crashed
  deriving DecidableEq, Repr

structure TranslatorAnswer where
  result : TranslatorResult
  elapsed : UInt64
  deriving DecidableEq, Repr

/-- A translator answers a call; the answer may depend on the calls before it, oldest first. -/
abbrev Translator := List TranslatorCall → TranslatorCall → TranslatorAnswer

/-- A stand-in that puts the target code in front of the text. -/
def echoTranslator : Translator := fun _ call =>
  ⟨.translated ("[" ++ call.target ++ "] " ++ call.text), 0⟩

structure TranslationOutcome where
  text : String
  source : String
  target : String
  duration : UInt64
  /-- The text is the given one because translation could not or should not run. -/
  fallback : Bool
  /-- The translator answered, but later than it should have. -/
  overTimeout : Bool
  deriving DecidableEq, Repr

inductive TranslationRoute where
  /-- Source and target are the same language. -/
  | identity
  /-- A language is not known to the translator. -/
  | fallback
  | call (source target : String)
  deriving DecidableEq, Repr

structure TranslationGate where
  translator : Translator
  codes : LanguageCodes

/-- The route of a text between two language tags. Tags that are both unknown are the same language
if they are the same tag. -/
def LanguageCodes.route (codes : LanguageCodes) (source target : String) : TranslationRoute :=
  match codes.code? source, codes.code? target with
  | some sourceCode, some targetCode =>
    if sourceCode = targetCode then .identity else .call sourceCode targetCode
  | none, none => if source = target then .identity else .fallback
  | _, _ => .fallback

namespace TranslationOutcome

def unchanged (text source target : String) (fallback : Bool) (duration : UInt64) :
    TranslationOutcome where
  text := text
  source := source
  target := target
  duration := duration
  fallback := fallback
  overTimeout := false

/-- The outcome of a call that was answered. The timeout only marks a late answer. -/
def ofAnswer (text source target : String) (timeout : UInt64) (answer : TranslatorAnswer) :
    TranslationOutcome :=
  match answer.result with
  | .translated translation =>
    { text := translation, source := source, target := target, duration := answer.elapsed,
      fallback := false, overTimeout := timeout < answer.elapsed }
  | _ => unchanged text source target true answer.elapsed

end TranslationOutcome

namespace TranslationGate

/-- Call the translator after the calls in `calls`, and note the call. -/
def ask (gate : TranslationGate) (calls : List TranslatorCall) (call : TranslatorCall) :
    TranslatorAnswer × List TranslatorCall :=
  (gate.translator calls call, calls ++ [call])

/-- Decide about a text between two language tags, the translator having had the calls in `calls`.
-/
def decide (gate : TranslationGate) (calls : List TranslatorCall) (text source target : String)
    (timeout : UInt64) : TranslationOutcome × List TranslatorCall :=
  match gate.codes.route source target with
  | .identity => (.unchanged text source target false 0, calls)
  | .fallback => (.unchanged text source target true 0, calls)
  | .call sourceCode targetCode =>
    let (answer, calls) := gate.ask calls ⟨text, sourceCode, targetCode⟩
    (.ofAnswer text source target timeout answer, calls)

def warmUpText : String := "Hello world"

def codePairs (codes : List String) : List (String × String) :=
  codes.flatMap fun source =>
    (codes.filter (· != source)).map fun target => (source, target)

/-- Translate a short text once in every direction, so that no request has to wait for the first
use. Failures are of no consequence. -/
def warmUp (gate : TranslationGate) (calls : List TranslatorCall) : List TranslatorCall :=
  (codePairs gate.codes.known).foldl
    (fun calls pair => (gate.ask calls ⟨warmUpText, pair.1, pair.2⟩).2) calls

end TranslationGate

end SpeechService
