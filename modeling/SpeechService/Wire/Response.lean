import SpeechService.Text
import SpeechService.Wire.Request

/-!
The messages that the server sends, as JSON. `Response.line` is a message as it goes over the wire:
its text and a newline.
-/

set_option autoImplicit false

namespace SpeechService.Wire

/-- A transcript. The fields on translation are empty when there is none. -/
structure TranscriptionMessage where
  text : String := ""
  language : String := ""
  segments : List TranscriptSegment := []
  inferenceDuration : UInt64 := 0
  translatedText : String := ""
  targetLanguage : String := ""
  translateDuration : UInt64 := 0
  translationFallback : Bool := false
  sessionId : String := ""
  actionId : String := ""

structure ChunkMessage where
  data : Bytes := []
  sequence : UInt64 := 0
  duration : UInt32 := 0
  isFinal : Bool := false
  sessionId : String := ""
  actionId : String := ""
  deriving DecidableEq, Repr

structure StatusMessage where
  voices : List String := []
  translator : Bool := false
  counters : Counters UInt64 := ⟨0, 0, 0, 0, 0, 0, 0⟩
  deriving DecidableEq, Repr

inductive Response where
  | transcription (message : TranscriptionMessage)
  | audioChunk (message : ChunkMessage)
  | status (message : StatusMessage)
  | error (message : String)

namespace Segment

def names : List String := ["text", "startTime", "endTime", "confidence"]

def ofValue? (value : Json.Value) : Option TranscriptSegment := do
  let members ← value.members? names
  let text ← members.required? "text" Json.Value.text?
  let startTime ← members.required? "startTime" Json.Value.double?
  let endTime ← members.required? "endTime" Json.Value.double?
  let confidence ← members.required? "confidence" Json.Value.single?
  some ⟨text, startTime, endTime, confidence⟩

def written (segment : TranscriptSegment) : List Char :=
  Json.Written.object
    [("text", Json.Written.text segment.text),
     ("startTime", Json.Written.double segment.startTime),
     ("endTime", Json.Written.double segment.endTime),
     ("confidence", Json.Written.single segment.confidence)]

end Segment

namespace CounterMessage

def names : List String :=
  ["transcriptions", "synthesisStreams", "chunksEmitted", "translationsAttempted",
   "translationFallbacks", "translationsOverTimeout", "rejectedRequests"]

def ofValue? (value : Json.Value) : Option (Counters UInt64) := do
  let members ← value.members? names
  let transcriptions ← members.required? "transcriptions" Json.Value.word64?
  let synthesisStreams ← members.required? "synthesisStreams" Json.Value.word64?
  let chunksEmitted ← members.required? "chunksEmitted" Json.Value.word64?
  let translationsAttempted ← members.required? "translationsAttempted" Json.Value.word64?
  let translationFallbacks ← members.required? "translationFallbacks" Json.Value.word64?
  let translationsOverTimeout ← members.required? "translationsOverTimeout" Json.Value.word64?
  let rejectedRequests ← members.required? "rejectedRequests" Json.Value.word64?
  some ⟨transcriptions, synthesisStreams, chunksEmitted, translationsAttempted,
    translationFallbacks, translationsOverTimeout, rejectedRequests⟩

def written (counters : Counters UInt64) : List Char :=
  Json.Written.object
    [("transcriptions", Json.Written.natural counters.transcriptions.toNat),
     ("synthesisStreams", Json.Written.natural counters.synthesisStreams.toNat),
     ("chunksEmitted", Json.Written.natural counters.chunksEmitted.toNat),
     ("translationsAttempted", Json.Written.natural counters.translationsAttempted.toNat),
     ("translationFallbacks", Json.Written.natural counters.translationFallbacks.toNat),
     ("translationsOverTimeout", Json.Written.natural counters.translationsOverTimeout.toNat),
     ("rejectedRequests", Json.Written.natural counters.rejectedRequests.toNat)]

end CounterMessage

namespace TranscriptionMessage

def names : List String :=
  ["text", "language", "segments", "inferenceDurationMs", "translatedText", "targetLanguage",
   "translateDurationMs", "translationFallback", "sessionId", "actionId"]

def ofValue? (value : Json.Value) : Option TranscriptionMessage := do
  let members ← value.members? names
  let text ← members.field? "text" Json.Value.text? ""
  let language ← members.field? "language" Json.Value.text? ""
  let segments ← members.field? "segments" (Json.Value.list? Segment.ofValue?) []
  let inferenceDuration ← members.field? "inferenceDurationMs" Json.Value.word64? 0
  let translatedText ← members.field? "translatedText" Json.Value.text? ""
  let targetLanguage ← members.field? "targetLanguage" Json.Value.text? ""
  let translateDuration ← members.field? "translateDurationMs" Json.Value.word64? 0
  let translationFallback ← members.field? "translationFallback" Json.Value.bool? false
  let sessionId ← members.field? "sessionId" Json.Value.text? ""
  let actionId ← members.field? "actionId" Json.Value.text? ""
  some ⟨text, language, segments, inferenceDuration, translatedText, targetLanguage,
    translateDuration, translationFallback, sessionId, actionId⟩

def written (message : TranscriptionMessage) : List (String × List Char) :=
  [("text", Json.Written.text message.text),
   ("language", Json.Written.text message.language),
   ("segments", Json.Written.list (message.segments.map Segment.written)),
   ("inferenceDurationMs", Json.Written.natural message.inferenceDuration.toNat),
   ("translatedText", Json.Written.text message.translatedText),
   ("targetLanguage", Json.Written.text message.targetLanguage),
   ("translateDurationMs", Json.Written.natural message.translateDuration.toNat),
   ("translationFallback", Json.Written.bool message.translationFallback),
   ("sessionId", Json.Written.text message.sessionId),
   ("actionId", Json.Written.text message.actionId)]

def ofTranscription (transcription : Transcription) (sessionId actionId : String) :
    TranscriptionMessage :=
  let plain : TranscriptionMessage := {
    text := transcription.text
    language := transcription.language
    segments := transcription.segments
    inferenceDuration := transcription.inferenceDuration
    sessionId := sessionId
    actionId := actionId }
  match transcription.translation with
  | none => plain
  | some outcome =>
    { plain with
      translatedText := outcome.text
      targetLanguage := outcome.target
      translateDuration := outcome.duration
      translationFallback := outcome.fallback }

end TranscriptionMessage

namespace ChunkMessage

def names : List String :=
  ["data", "sequence", "durationMs", "isFinal", "sessionId", "actionId"]

def ofValue? (value : Json.Value) : Option ChunkMessage := do
  let members ← value.members? names
  let data ← members.field? "data" bytes? []
  let sequence ← members.field? "sequence" Json.Value.word64? 0
  let duration ← members.field? "durationMs" Json.Value.word32? 0
  let isFinal ← members.field? "isFinal" Json.Value.bool? false
  let sessionId ← members.field? "sessionId" Json.Value.text? ""
  let actionId ← members.field? "actionId" Json.Value.text? ""
  some ⟨data, sequence, duration, isFinal, sessionId, actionId⟩

def written (message : ChunkMessage) : List (String × List Char) :=
  [("data", writtenBytes message.data),
   ("sequence", Json.Written.natural message.sequence.toNat),
   ("durationMs", Json.Written.natural message.duration.toNat),
   ("isFinal", Json.Written.bool message.isFinal),
   ("sessionId", Json.Written.text message.sessionId),
   ("actionId", Json.Written.text message.actionId)]

def ofChunk (chunk : AudioChunk) (sessionId actionId : String) : ChunkMessage where
  data := chunk.data
  sequence := UInt64.ofNat chunk.sequence
  duration := chunk.duration
  isFinal := chunk.isFinal
  sessionId := sessionId
  actionId := actionId

end ChunkMessage

namespace StatusMessage

def names : List String := ["voices", "translator", "diagnostics"]

def ofValue? (value : Json.Value) : Option StatusMessage := do
  let members ← value.members? names
  let voices ← members.field? "voices" (Json.Value.list? Json.Value.text?) []
  let translator ← members.field? "translator" Json.Value.bool? false
  let counters ← members.field? "diagnostics" CounterMessage.ofValue? ⟨0, 0, 0, 0, 0, 0, 0⟩
  some ⟨voices, translator, counters⟩

def written (message : StatusMessage) : List (String × List Char) :=
  [("voices", Json.Written.list (message.voices.map Json.Written.text)),
   ("translator", Json.Written.bool message.translator),
   ("diagnostics", CounterMessage.written message.counters)]

end StatusMessage

namespace Response

def transcriptionKind : String := "transcription"

def audioChunkKind : String := "audio_chunk"

def statusKind : String := "status"

def errorKind : String := "error"

def kinds : List String := [transcriptionKind, audioChunkKind, statusKind, errorKind]

def errorOfValue? (value : Json.Value) : Option String := do
  let members ← value.members? ["message"]
  members.required? "message" Json.Value.text?

def ofContent? (kind : String) (content : Json.Value) : Option Response :=
  if kind = transcriptionKind then (TranscriptionMessage.ofValue? content).map .transcription
  else if kind = audioChunkKind then (ChunkMessage.ofValue? content).map .audioChunk
  else if kind = statusKind then (StatusMessage.ofValue? content).map .status
  else (errorOfValue? content).map .error

def read (input : Json.Input) : Except Json.Fault (Response × Json.Input) := do
  let ((kind, content), rest) ← Json.readTagged kinds input
  match ofContent? kind content with
  | some response => .ok (response, rest)
  | none => .error .mismatched

def ofText (text : String) : Except Json.Fault Response := Json.readDocument read text

def written : Response → List (String × List Char)
  | .transcription message =>
    (Json.kindName, Json.Written.text transcriptionKind) :: message.written
  | .audioChunk message => (Json.kindName, Json.Written.text audioChunkKind) :: message.written
  | .status message => (Json.kindName, Json.Written.text statusKind) :: message.written
  | .error message =>
    [(Json.kindName, Json.Written.text errorKind), ("message", Json.Written.text message)]

def toText (response : Response) : String := String.ofList (Json.Written.object response.written)

def line (response : Response) : Bytes := Text.bytes response.toText ++ [10]

end Response

end SpeechService.Wire
