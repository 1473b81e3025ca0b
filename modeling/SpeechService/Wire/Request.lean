import SpeechService.Engine.Basic
import SpeechService.Json.Value
import SpeechService.Text

/-!
The messages that clients send, as JSON. A message names its kind in its member `type`; every other
member has a default, and members without a meaning are ignored.
-/

set_option autoImplicit false

namespace SpeechService.Wire

structure TranscribeMessage where
  audio : Bytes := []
  sampleRate : UInt32 := 0
  languageHint : Option String := none
  task : String := ""
  targetLanguage : Option String := none
  sessionId : String := ""
  actionId : String := ""
  deriving DecidableEq, Repr

structure SynthesizeMessage where
  text : String := ""
  voice : String := anyVoice
  speed : Float32 := 1
  language : String := ""
  sessionId : String := ""
  actionId : String := ""
  deriving BEq, Repr

inductive Request where
  | transcribe (message : TranscribeMessage)
  | synthesize (message : SynthesizeMessage)
  | status
  deriving BEq, Repr

def bytes? (value : Json.Value) : Option Bytes := value.text?.bind Base64.ofText?

def writtenBytes (bytes : Bytes) : List Char := Json.quote (Base64.encode bytes)

namespace TranscribeMessage

def names : List String :=
  ["audio", "sampleRate", "languageHint", "task", "targetLanguage", "sessionId", "actionId"]

def ofValue? (value : Json.Value) : Option TranscribeMessage := do
  let members ← value.members? names
  let audio ← members.field? "audio" bytes? []
  let sampleRate ← members.field? "sampleRate" Json.Value.word32? 0
  let languageHint ← members.field? "languageHint" Json.Value.optionalText? none
  let task ← members.field? "task" Json.Value.text? ""
  let targetLanguage ← members.field? "targetLanguage" Json.Value.optionalText? none
  let sessionId ← members.field? "sessionId" Json.Value.text? ""
  let actionId ← members.field? "actionId" Json.Value.text? ""
  some ⟨audio, sampleRate, languageHint, task, targetLanguage, sessionId, actionId⟩

def written (message : TranscribeMessage) : List (String × List Char) :=
  [("audio", writtenBytes message.audio),
   ("sampleRate", Json.Written.natural message.sampleRate.toNat),
   ("languageHint", Json.Written.optionalText message.languageHint),
   ("task", Json.Written.text message.task),
   ("targetLanguage", Json.Written.optionalText message.targetLanguage),
   ("sessionId", Json.Written.text message.sessionId),
   ("actionId", Json.Written.text message.actionId)]

def engineRequest (message : TranscribeMessage) : Except Failure TranscriptionRequest :=
  match RecognitionTask.ofName? message.task with
  | none => .error (.protocol ("unknown task '" ++ message.task ++ "'"))
  | some task => .ok {
      audio := message.audio
      rate := message.sampleRate
      languageHint := message.languageHint
      task := task
      targetLanguage := message.targetLanguage }

end TranscribeMessage

namespace SynthesizeMessage

def names : List String := ["text", "voice", "speed", "language", "sessionId", "actionId"]

def ofValue? (value : Json.Value) : Option SynthesizeMessage := do
  let members ← value.members? names
  let text ← members.field? "text" Json.Value.text? ""
  let voice ← members.field? "voice" Json.Value.text? anyVoice
  let speed ← members.field? "speed" Json.Value.single? 1
  let language ← members.field? "language" Json.Value.text? ""
  let sessionId ← members.field? "sessionId" Json.Value.text? ""
  let actionId ← members.field? "actionId" Json.Value.text? ""
  some ⟨text, voice, speed, language, sessionId, actionId⟩

def written (message : SynthesizeMessage) : List (String × List Char) :=
  [("text", Json.Written.text message.text),
   ("voice", Json.Written.text message.voice),
   ("speed", Json.Written.single message.speed),
   ("language", Json.Written.text message.language),
   ("sessionId", Json.Written.text message.sessionId),
   ("actionId", Json.Written.text message.actionId)]

/-- What the engine is asked; a blank voice stands for no particular one. -/
def engineRequest (message : SynthesizeMessage) : SynthesisRequest where
  text := message.text
  voice := if Text.isBlankText message.voice then anyVoice else message.voice
  speed := message.speed
  language := message.language

end SynthesizeMessage

namespace Request

def transcribeKind : String := "transcribe"

def synthesizeKind : String := "synthesize"

def statusKind : String := "status"

def kinds : List String := [transcribeKind, synthesizeKind, statusKind]

/-- The request of a kind and the members of a message. A status request has none when it is a list.
-/
def ofContent? (kind : String) (content : Json.Value) : Option Request :=
  if kind = transcribeKind then (TranscribeMessage.ofValue? content).map .transcribe
  else if kind = synthesizeKind then (SynthesizeMessage.ofValue? content).map .synthesize
  else (content.members? []).map fun _ => .status

def read (input : Json.Input) : Except Json.Fault (Request × Json.Input) := do
  let ((kind, content), rest) ← Json.readTagged kinds input
  match ofContent? kind content with
  | some request => .ok (request, rest)
  | none => .error .mismatched

def ofText (text : String) : Except Json.Fault Request := Json.readDocument read text

def written : Request → List (String × List Char)
  | .transcribe message => (Json.kindName, Json.Written.text transcribeKind) :: message.written
  | .synthesize message => (Json.kindName, Json.Written.text synthesizeKind) :: message.written
  | .status => [(Json.kindName, Json.Written.text statusKind)]

def toText (request : Request) : String := String.ofList (Json.Written.object request.written)

end Request

end SpeechService.Wire
