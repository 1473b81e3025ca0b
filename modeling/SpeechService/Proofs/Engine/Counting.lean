import SpeechService.Engine.Basic

/-!
What the operations of an engine count. Every counter counts one kind of event, and it grows by the
events of that kind that an operation ends in. How long a recognizer takes is of no consequence:
with a recognizer of the same results an engine does the same and answers the same, but for the
reported time.
-/

set_option autoImplicit false

namespace SpeechService

def Counters.get (counters : Counters Nat) : CountedEvent → Nat
  | .transcription => counters.transcriptions
  | .synthesisStream => counters.synthesisStreams
  | .chunkEmitted => counters.chunksEmitted
  | .translationAttempted => counters.translationsAttempted
  | .translationFallback => counters.translationFallbacks
  | .translationOverTimeout => counters.translationsOverTimeout
  | .rejectedRequest => counters.rejectedRequests

theorem Counters.get_count (counters : Counters Nat) (event kind : CountedEvent) :
    (counters.count event).get kind = counters.get kind + if event = kind then 1 else 0 := by
  cases event <;> cases kind <;> rfl

theorem Counters.get_countAll (counters : Counters Nat) (events : List CountedEvent)
    (kind : CountedEvent) :
    (counters.countAll events).get kind = counters.get kind + events.count kind := by
  induction events generalizing counters with
  | nil => rfl
  | cons event events ih =>
    have later := ih (counters.count event)
    rw [Counters.countAll] at later
    rw [Counters.countAll, List.foldl_cons, later, Counters.get_count, List.count_cons]
    simp only [beq_iff_eq]
    omega

def Activity.count (activity : Activity) (kind : CountedEvent) : Nat :=
  activity.counters.get kind

@[simp] theorem Activity.count_note (activity : Activity) (events : List CountedEvent)
    (kind : CountedEvent) :
    (activity.note events).count kind = activity.count kind + events.count kind :=
  activity.counters.get_countAll events kind

def Outcome.isRateRefusal : Outcome Transcription → Bool
  | .refused (.unsupportedSampleRate _ _) => true
  | _ => false

theorem Transcription.count_events (transcription : Transcription) :
    transcription.events.count .transcription = 1 ∧
      transcription.events.count .chunkEmitted = 0 ∧
      transcription.events.count .rejectedRequest = 0 := by
  rw [events]
  cases transcription.translation with
  | none => exact ⟨rfl, rfl, rfl⟩
  | some outcome =>
    cases fallback : outcome.fallback <;> cases late : outcome.overTimeout <;>
      simp only [fallback, late] <;> exact ⟨rfl, rfl, rfl⟩

theorem Failure.count_events (failure : Failure) :
    failure.events.count .transcription = 0 ∧ failure.events.count .chunkEmitted = 0 ∧
      failure.events.count .rejectedRequest =
        (Outcome.isRateRefusal (.refused failure)).toNat := by
  cases failure <;> exact ⟨rfl, rfl, rfl⟩

namespace SpeechEngine

variable (engine : SpeechEngine) (activity : Activity)

/-- A transcription counts what it ends in and nothing else. -/
theorem count_transcribe (request : TranscriptionRequest) (kind : CountedEvent) :
    (engine.transcribe activity request).2.count kind =
      activity.count kind + (engine.transcribe activity request).1.events.count kind := by
  rw [transcribe]
  exact Activity.count_note _ _ kind

theorem count_started (request : SynthesisRequest) (kind : CountedEvent) :
    (engine.synthesize activity request).2.count kind = activity.count kind +
      ((engine.synthesize activity request).1.isOk && kind == .synthesisStream).toNat := by
  rw [synthesize]
  split
  rename_i started calls spoken
  cases started with
  | error failure => rfl
  | ok stream =>
    have one : [CountedEvent.synthesisStream].count kind =
        (kind == .synthesisStream).toNat := by cases kind <;> rfl
    simp only [Activity.count_note, one]
    rfl

theorem count_synthesize (request : SynthesisRequest) {kind : CountedEvent}
    (other : CountedEvent.synthesisStream ≠ kind) :
    (engine.synthesize activity request).2.count kind = activity.count kind := by
  have unlike : (kind == CountedEvent.synthesisStream) = false := beq_eq_false_iff_ne.2 other.symm
  rw [count_started, unlike, Bool.and_false, Bool.toNat_false, Nat.add_zero]

end SpeechEngine

/-- Recognizers that differ in nothing but the time that they take. -/
def Recognizer.SameResults (first second : Recognizer) : Prop :=
  ∀ earlier call, (first.recognize earlier call).result = (second.recognize earlier call).result

def Transcription.untimed (transcription : Transcription) : Transcription :=
  { transcription with inferenceDuration := 0 }

def Outcome.untimed : Outcome Transcription → Outcome Transcription
  | .answered transcription => .answered transcription.untimed
  | .refused failure => .refused failure
  | .crashed => .crashed

theorem Outcome.events_untimed (outcome : Outcome Transcription) :
    outcome.untimed.events = outcome.events := by
  cases outcome <;> rfl

theorem Transcriber.transcribe_of_sameResults (transcriber : Transcriber) {recognizer : Recognizer}
    (same : transcriber.recognizer.SameResults recognizer) (log : CallLog)
    (request : TranscriptionRequest) :
    ({ transcriber with recognizer := recognizer }.transcribe log request).1.untimed =
        (transcriber.transcribe log request).1.untimed ∧
      ({ transcriber with recognizer := recognizer }.transcribe log request).2 =
        (transcriber.transcribe log request).2 := by
  simp only [transcribe]
  split
  · exact ⟨rfl, rfl⟩
  · split
    · exact ⟨rfl, rfl⟩
    · rw [← same log.recognizer _]
      split
      · exact ⟨rfl, rfl⟩
      · exact ⟨rfl, rfl⟩
      · exact ⟨rfl, rfl⟩

def SpeechEngine.withRecognizer (engine : SpeechEngine) (recognizer : Recognizer) : SpeechEngine :=
  { engine with recognizer := recognizer }

theorem SpeechEngine.transcribe_of_sameResults {engine : SpeechEngine} {recognizer : Recognizer}
    (same : engine.recognizer.SameResults recognizer) (activity : Activity)
    (request : TranscriptionRequest) :
    ((engine.withRecognizer recognizer).transcribe activity request).1.untimed =
        (engine.transcribe activity request).1.untimed ∧
      ((engine.withRecognizer recognizer).transcribe activity request).2 =
        (engine.transcribe activity request).2 := by
  obtain ⟨outcome, log⟩ :=
    engine.transcriber.transcribe_of_sameResults same activity.log request
  have events := congrArg Outcome.events outcome
  rw [Outcome.events_untimed, Outcome.events_untimed] at events
  refine ⟨outcome, ?_⟩
  have other : (engine.withRecognizer recognizer).transcriber =
      { engine.transcriber with recognizer := recognizer } := rfl
  simp only [transcribe]
  rw [other, log, events]

theorem SpeechEngine.synthesize_withRecognizer (engine : SpeechEngine) (recognizer : Recognizer)
    (activity : Activity) (request : SynthesisRequest) :
    (engine.withRecognizer recognizer).synthesize activity request =
      engine.synthesize activity request := by
  simp only [synthesize, withRecognizer]

end SpeechService
