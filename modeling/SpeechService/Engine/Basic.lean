import SpeechService.Engine.Stream
import SpeechService.Recognition
import SpeechService.Translation
import SpeechService.Voice.Registry

/-!
The speech engine: voices, a recognizer and perhaps a translator behind one set of requests. What it
has done so far is its `Activity`, with a counter for each kind of event; every operation gives the
activity after it. For a transcript the sample rate is checked before the recognizer is called; the
transcript is translated at most once, when a target language is given.
-/

set_option autoImplicit false

namespace SpeechService

/-- Counts of type `α`: naturals while counting, 64-bit words in messages. -/
structure Counters (α : Type) where
  transcriptions : α
  synthesisStreams : α
  chunksEmitted : α
  translationsAttempted : α
  translationFallbacks : α
  translationsOverTimeout : α
  rejectedRequests : α
  deriving DecidableEq, Repr

namespace Counters

def zero : Counters Nat := ⟨0, 0, 0, 0, 0, 0, 0⟩

def map {α β : Type} (f : α → β) (counters : Counters α) : Counters β where
  transcriptions := f counters.transcriptions
  synthesisStreams := f counters.synthesisStreams
  chunksEmitted := f counters.chunksEmitted
  translationsAttempted := f counters.translationsAttempted
  translationFallbacks := f counters.translationFallbacks
  translationsOverTimeout := f counters.translationsOverTimeout
  rejectedRequests := f counters.rejectedRequests

end Counters

inductive CountedEvent where
  | transcription
  | synthesisStream
  | chunkEmitted
  | translationAttempted
  | translationFallback
  | translationOverTimeout
  | rejectedRequest
  deriving DecidableEq, Repr

def Counters.count (counters : Counters Nat) : CountedEvent → Counters Nat
  | .transcription => { counters with transcriptions := counters.transcriptions + 1 }
  | .synthesisStream => { counters with synthesisStreams := counters.synthesisStreams + 1 }
  | .chunkEmitted => { counters with chunksEmitted := counters.chunksEmitted + 1 }
  | .translationAttempted =>
    { counters with translationsAttempted := counters.translationsAttempted + 1 }
  | .translationFallback =>
    { counters with translationFallbacks := counters.translationFallbacks + 1 }
  | .translationOverTimeout =>
    { counters with translationsOverTimeout := counters.translationsOverTimeout + 1 }
  | .rejectedRequest => { counters with rejectedRequests := counters.rejectedRequests + 1 }

def Counters.countAll (counters : Counters Nat) (events : List CountedEvent) : Counters Nat :=
  events.foldl Counters.count counters

structure TranscriptionRequest where
  audio : Bytes
  rate : UInt32
  languageHint : Option String
  task : RecognitionTask
  targetLanguage : Option String
  deriving DecidableEq, Repr

structure Transcription where
  text : String
  language : String
  segments : List TranscriptSegment
  inferenceDuration : UInt64
  /-- Present when the text went through the translation gate. -/
  translation : Option TranslationOutcome

structure CallLog where
  recognizer : List RecognizerCall
  translator : List TranslatorCall
  voices : List VoiceCall

inductive Outcome (α : Type) where
  | answered (value : α)
  | refused (failure : Failure)
  /-- The backend broke down, and the request with it. -/
  | crashed

/-- The recognizer and the gate that serve transcription, and how long a translation should take at
most. -/
structure Transcriber where
  recognizer : Recognizer
  gate : Option TranslationGate
  timeout : UInt64

def Transcription.silent (hint : Option String) : Transcription where
  text := ""
  language := hint.getD fallbackLanguage
  segments := []
  inferenceDuration := 0
  translation := none

namespace Transcriber

/-- Translate a transcript if a target language is given, there is a gate, and there is something to
translate. -/
def translate (transcriber : Transcriber) (calls : List TranslatorCall) (text source : String)
    (target : Option String) : Option TranslationOutcome × List TranslatorCall :=
  match target, transcriber.gate with
  | some target, some gate =>
    if text.isEmpty then (none, calls)
    else
      let (outcome, calls) := gate.decide calls text source target transcriber.timeout
      (some outcome, calls)
  | _, _ => (none, calls)

/-- The transcript of a recognition that took so many milliseconds. -/
def assemble (transcriber : Transcriber) (calls : List TranslatorCall)
    (recognition : Recognition) (elapsed : UInt64) (target : Option String) :
    Transcription × List TranslatorCall :=
  let segments := recognition.segments.map TranscriptSegment.trim
  let text := joinSegments segments
  let (translation, calls) := transcriber.translate calls text recognition.language target
  ({ text := text, language := recognition.language, segments := segments,
     inferenceDuration := elapsed, translation := translation }, calls)

def transcribe (transcriber : Transcriber) (log : CallLog) (request : TranscriptionRequest) :
    Outcome Transcription × CallLog :=
  if request.rate ≠ Audio.canonicalRate then
    (.refused (.unsupportedSampleRate Audio.canonicalRate request.rate), log)
  else
    let hint := request.languageHint.bind Text.trimmed?
    let samples := Audio.decodeUnits request.audio
    if samples.isEmpty then (.answered (.silent hint), log)
    else
      let call : RecognizerCall := ⟨samples, hint, request.task⟩
      let answer := transcriber.recognizer.recognize log.recognizer call
      let heard := log.recognizer ++ [call]
      match answer.result with
      | .crashed => (.crashed, { log with recognizer := heard })
      | .failed failure => (.refused failure, { log with recognizer := heard })
      | .recognized recognition =>
        let target := request.targetLanguage.bind Text.trimmed?
        let (transcription, calls) :=
          transcriber.assemble log.translator recognition answer.elapsed target
        (.answered transcription, { log with recognizer := heard, translator := calls })

end Transcriber

structure EngineConfig where
  translateTimeout : UInt64
  codes : LanguageCodes
  voiceMap : VoiceMap
  deriving DecidableEq, Repr

/-- A quarter of a second for a translation, and the standard tables. -/
def EngineConfig.standard : EngineConfig := ⟨250, .standard, .standard⟩

structure SpeechEngine where
  config : EngineConfig
  voices : VoiceRegistry
  recognizer : Recognizer
  translator : Option Translator

structure Activity where
  counters : Counters Nat
  log : CallLog

namespace Activity

def fresh : Activity := ⟨.zero, ⟨[], [], []⟩⟩

def note (activity : Activity) (events : List CountedEvent) : Activity :=
  { activity with counters := activity.counters.countAll events }

end Activity

def Transcription.events (transcription : Transcription) : List CountedEvent :=
  .transcription :: match transcription.translation with
    | none => []
    | some outcome =>
      .translationAttempted ::
        ((if outcome.fallback then [.translationFallback] else []) ++
          (if outcome.overTimeout then [.translationOverTimeout] else []))

def Failure.events : Failure → List CountedEvent
  | .unsupportedSampleRate _ _ => [.rejectedRequest]
  | _ => []

def Outcome.events : Outcome Transcription → List CountedEvent
  | .answered transcription => transcription.events
  | .refused failure => failure.events
  | .crashed => []

def StreamItem.events : StreamItem → List CountedEvent
  | .ok chunk => if chunk.isFinal then [] else [.chunkEmitted]
  | .error _ => []

namespace SpeechEngine

def gate (engine : SpeechEngine) : Option TranslationGate :=
  engine.translator.map fun translator => ⟨translator, engine.config.codes⟩

def transcriber (engine : SpeechEngine) : Transcriber :=
  ⟨engine.recognizer, engine.gate, engine.config.translateTimeout⟩

/-- Prepare the recognizer and the translator. Only the recognizer can fail. -/
def warmUp (engine : SpeechEngine) (activity : Activity) : Except Failure Unit × Activity :=
  match engine.recognizer.warmUp with
  | .error failure => (.error failure, activity)
  | .ok _ =>
    let calls := match engine.gate with
      | none => activity.log.translator
      | some gate => gate.warmUp activity.log.translator
    (.ok (), { activity with log := { activity.log with translator := calls } })

def transcribe (engine : SpeechEngine) (activity : Activity) (request : TranscriptionRequest) :
    Outcome Transcription × Activity :=
  let (outcome, log) := engine.transcriber.transcribe activity.log request
  (outcome, { activity with log := log }.note outcome.events)

def synthesize (engine : SpeechEngine) (activity : Activity) (request : SynthesisRequest) :
    Except Failure SynthesisStream × Activity :=
  let (started, calls) := engine.voices.speak engine.config.voiceMap activity.log.voices request
  let activity := { activity with log := { activity.log with voices := calls } }
  match started with
  | .error failure => (.error failure, activity)
  | .ok stream => (.ok stream, activity.note [.synthesisStream])

end SpeechEngine

namespace Activity

def read (activity : Activity) (stream : SynthesisStream) (count : Nat) :
    List StreamItem × SynthesisStream × Activity :=
  let (items, stream) := stream.take count
  (items, stream, activity.note (items.flatMap StreamItem.events))

def readAll (activity : Activity) (stream : SynthesisStream) :
    List StreamItem × SynthesisStream × Activity :=
  let (items, stream) := stream.drain
  (items, stream, activity.note (items.flatMap StreamItem.events))

end Activity

end SpeechService
