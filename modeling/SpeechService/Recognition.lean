import SpeechService.Audio
import SpeechService.Failure
import SpeechService.Text

/-!
What the service asks of a speech recognizer, and what it may get: segments, which make up a
transcript. `levelRecognizer` is a stand-in that reports whether there is sound and how much of it.
-/

set_option autoImplicit false

namespace SpeechService

inductive RecognitionTask where
  /-- Speech becomes text of the spoken language. -/
  | transcribe
  /-- Speech becomes English text. -/
  | translate
  deriving DecidableEq, Repr

namespace RecognitionTask

def name : RecognitionTask → String
  | .transcribe => "transcribe"
  | .translate => "translate"

/-- The task of a name, in any letter case and between blanks; no name means transcription. -/
def ofName? (name : String) : Option RecognitionTask :=
  let word := Text.lowerAscii (Text.trim name)
  if word = "" ∨ word = transcribe.name then some .transcribe
  else if word = translate.name then some .translate
  else none

end RecognitionTask

structure TranscriptSegment where
  text : String
  startTime : Float
  endTime : Float
  confidence : Float32

def TranscriptSegment.trim (segment : TranscriptSegment) : TranscriptSegment :=
  { segment with text := Text.trim segment.text }

/-- Append a text to a transcript, with a space between them; blanks around the text are dropped,
and a blank text adds nothing. -/
def appendText (transcript text : List Char) : List Char :=
  let part := Text.trimList text
  if part.isEmpty then transcript
  else if transcript.isEmpty then part
  else transcript ++ ' ' :: part

/-- The trimmed texts that are not blank, with single spaces between them. -/
def joinTexts (texts : List String) : String :=
  String.ofList (texts.foldl (fun transcript text => appendText transcript text.toList) [])

def joinSegments (segments : List TranscriptSegment) : String :=
  joinTexts (segments.map (·.text))

structure RecognizerCall where
  /-- Canonical audio as fractions of full scale. -/
  samples : List Float32
  language : Option String
  task : RecognitionTask

structure Recognition where
  segments : List TranscriptSegment
  language : String

inductive RecognizerResult where
  | recognized (recognition : Recognition)
  | failed (failure : Failure)
  | crashed

structure RecognizerAnswer where
  result : RecognizerResult
  elapsed : UInt64

structure Recognizer where
  warmUp : Except Failure Unit
  /-- Answer a call; the answer may depend on the calls before it, oldest first. -/
  recognize : List RecognizerCall → RecognizerCall → RecognizerAnswer

def fallbackLanguage : String := "en"

def rootMeanSquare (samples : List Float32) : Float32 :=
  if samples.isEmpty then 0
  else
    let squares := samples.foldl (fun sum sample => sum + sample * sample) (0 : Float32)
    (squares / samples.length.toUInt64.toFloat32).sqrt

def silenceLevel : Float32 := 0.01

/-- The one segment that stands for so many samples of sound. -/
def levelSegment (count : Nat) : TranscriptSegment where
  text := " [stub: " ++ toString count ++ " samples @ " ++
    toString Audio.canonicalRate.toNat ++ " Hz]"
  startTime := 0
  endTime := count.toUInt64.toFloat / Audio.canonicalRate.toFloat
  confidence := 1

def levelRecognition (call : RecognizerCall) : Recognition where
  segments :=
    if rootMeanSquare call.samples < silenceLevel then [] else [levelSegment call.samples.length]
  language := match call.task with
    | .translate => "en"
    | .transcribe => call.language.getD fallbackLanguage

def levelRecognizer : Recognizer where
  warmUp := .ok ()
  recognize := fun _ call => ⟨.recognized (levelRecognition call), 0⟩

end SpeechService
