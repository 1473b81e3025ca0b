import SpeechService.Proofs.Engine.Counting
import SpeechService.Proofs.Engine.StreamOutput
import SpeechService.Proofs.Engine.Transcription
import SpeechService.Proofs.Runs

/-!
Uses of one engine in any order, with any number of streams open at once. A session keeps the
streams that were started; `run` takes steps one after another. The counters are those of the
results, and no stream notices the others.
-/

set_option autoImplicit false

namespace SpeechService

/-- One use of an engine. Streams are numbered in the order in which they start. -/
inductive EngineStep where
  | warmUp
  | transcribe (request : TranscriptionRequest)
  | synthesize (request : SynthesisRequest) (marker : Bool)
  | next (number : Nat)
  | drop (number : Nat)

inductive EngineResult where
  | warmedUp (result : Except Failure Unit)
  | transcribed (outcome : Outcome Transcription)
  /-- The number of the stream that has started. -/
  | started (number : Except Failure Nat)
  | handed (number : Nat) (item : Option StreamItem)
  /-- A stream was dropped, or asked for although it is not open. -/
  | nothing

structure EngineSession where
  activity : Activity
  /-- All streams that were started; nothing is left of a dropped one. -/
  streams : List (Option SynthesisStream)

def EngineSession.fresh : EngineSession := ⟨.fresh, []⟩

def EngineSession.stream? (session : EngineSession) (number : Nat) : Option SynthesisStream :=
  session.streams[number]?.join

def SynthesisStream.marked (stream : SynthesisStream) (marker : Bool) : SynthesisStream :=
  if marker then stream.withFinalMarker else stream

namespace SpeechEngine

def step (engine : SpeechEngine) (session : EngineSession) :
    EngineStep → EngineResult × EngineSession
  | .warmUp =>
    let (result, activity) := engine.warmUp session.activity
    (.warmedUp result, { session with activity := activity })
  | .transcribe request =>
    let (outcome, activity) := engine.transcribe session.activity request
    (.transcribed outcome, { session with activity := activity })
  | .synthesize request marker =>
    match engine.synthesize session.activity request with
    | (.error failure, activity) =>
      (.started (.error failure), { session with activity := activity })
    | (.ok stream, activity) =>
      (.started (.ok session.streams.length),
        ⟨activity, session.streams ++ [some (stream.marked marker)]⟩)
  | .next number => match session.stream? number with
    | none => (.nothing, session)
    | some stream =>
      let (items, stream, activity) := session.activity.read stream 1
      (.handed number items.head?, ⟨activity, session.streams.set number (some stream)⟩)
  | .drop number => (.nothing, { session with streams := session.streams.set number none })

/-- The results of steps taken one after another, and the session after them. -/
def run (engine : SpeechEngine) (session : EngineSession) (steps : List EngineStep) :
    List EngineResult × EngineSession :=
  runSteps engine.step session steps

end SpeechEngine

/-- What a voice speaks depends on the text and the parameters only. It may fail to start at any
time. -/
def Synthesizer.Consistent (voice : Synthesizer) : Prop :=
  ∀ earlier later text params blocks others, voice.render earlier text params = .ok blocks →
    voice.render later text params = .ok others → blocks = others

/-- A recognizer fails in its own way only; it may also break down. -/
def Recognizer.FailsByInference (recognizer : Recognizer) : Prop :=
  ∀ earlier call failure, (recognizer.recognize earlier call).result = .failed failure →
    ∃ detail, failure = .inference detail

def EngineResult.translation? : EngineResult → Option TranslationOutcome
  | .transcribed (.answered transcription) => transcription.translation
  | _ => none

def EngineStep.isEvent (step : EngineStep) (result : EngineResult) : CountedEvent → Bool
  | .transcription => match result with
    | .transcribed (.answered _) => true
    | _ => false
  | .translationAttempted => result.translation?.isSome
  | .translationFallback => result.translation?.any (·.fallback)
  | .translationOverTimeout => result.translation?.any (·.overTimeout)
  | .rejectedRequest => match step with
    | .transcribe request => request.rate != 16000
    | _ => false
  | .synthesisStream => match result with
    | .started (.ok _) => true
    | _ => false
  | .chunkEmitted => match result with
    | .handed _ (some (.ok chunk)) => !chunk.isFinal
    | _ => false

/-- The item that a result hands out from the stream of a number. -/
def EngineResult.handed? (number : Nat) : EngineResult → Option (Option StreamItem)
  | .handed other item => if other = number then some item else none
  | _ => none

def EngineStep.asks (number : Nat) : EngineStep → Bool
  | .next other => other == number
  | _ => false

def EngineStep.drops (number : Nat) : EngineStep → Bool
  | .drop other => other == number
  | _ => false

/-- How often a stream is asked for an item before it is dropped. -/
def asked (number : Nat) (steps : List EngineStep) : Nat :=
  (steps.takeWhile (!·.drops number)).countP (·.asks number)

/-- A stream that a request can start, whatever the engine has done before. -/
def SpeechEngine.Opens (engine : SpeechEngine) (request : SynthesisRequest) (marker : Bool)
    (stream : SynthesisStream) : Prop :=
  ∃ activity started, (engine.synthesize activity request).1 = .ok started ∧
    stream = started.marked marker

section Counting

variable {engine : SpeechEngine}

private theorem count_transcription (transcription : Transcription) {request : TranscriptionRequest}
    (accepted : request.rate = 16000) (kind : CountedEvent) :
    (Outcome.answered transcription).events.count kind =
      ((EngineStep.transcribe request).isEvent (.transcribed (.answered transcription))
        kind).toNat := by
  have supported : (request.rate != 16000) = false := bne_eq_false_iff_eq.2 accepted
  rw [Outcome.events, Transcription.events]
  cases translation : transcription.translation with
  | none =>
    cases kind <;>
      simp [EngineStep.isEvent, EngineResult.translation?, translation, supported]
  | some outcome =>
    cases fallback : outcome.fallback <;> cases late : outcome.overTimeout <;> cases kind <;>
      simp [EngineStep.isEvent, EngineResult.translation?, translation, fallback, late, supported]

private theorem count_outcome (plain : engine.recognizer.FailsByInference) {log after : CallLog}
    {request : TranscriptionRequest} {outcome : Outcome Transcription}
    (handled : engine.transcriber.Handles log request outcome after) (kind : CountedEvent) :
    outcome.events.count kind =
      ((EngineStep.transcribe request).isEvent (.transcribed outcome) kind).toNat := by
  have uncounted (rate : request.rate = 16000) :
      (EngineStep.transcribe request).isEvent (.transcribed .crashed) kind = false := by
    have supported : (request.rate != 16000) = false := bne_eq_false_iff_eq.2 rate
    cases kind <;> first | rfl | exact supported
  cases handled with
  | unsupported rate =>
    have refused : (request.rate != 16000) = true := bne_iff_ne.2 rate
    cases kind <;> simp [EngineStep.isEvent, EngineResult.translation?, Outcome.events,
      Failure.events, refused]
  | silent rate short => exact count_transcription _ rate kind
  | crashed rate long made answer =>
    rw [uncounted rate]
    rfl
  | failed rate long made answer =>
    obtain ⟨detail, rfl⟩ := plain _ _ _ answer
    have same : (EngineStep.transcribe request).isEvent
        (.transcribed (.refused (.inference detail))) kind = false := uncounted rate
    rw [same]
    rfl
  | recognized rate long made answer assembled => exact count_transcription _ rate kind

theorem count_warmUp (engine : SpeechEngine) (activity : Activity) (kind : CountedEvent) :
    (engine.warmUp activity).2.count kind = activity.count kind := by
  rw [SpeechEngine.warmUp]
  cases engine.recognizer.warmUp <;> rfl

theorem read_one (activity : Activity) (stream : SynthesisStream) :
    activity.read stream 1 = (stream.next.1.toList, stream.next.2,
      activity.note (stream.next.1.toList.flatMap StreamItem.events)) := by
  rcases step : stream.next with ⟨_ | item, after⟩ <;>
    simp [Activity.read, SynthesisStream.take, step]

theorem step_next {session : EngineSession} {number : Nat} {stream : SynthesisStream}
    (opened : session.stream? number = some stream) :
    engine.step session (.next number) = (.handed number stream.next.1,
      ⟨session.activity.note (stream.next.1.toList.flatMap StreamItem.events),
        session.streams.set number (some stream.next.2)⟩) := by
  rw [SpeechEngine.step, opened]
  simp only [read_one, Option.head?_toList]

private theorem count_item (number : Nat) (item : Option StreamItem) (kind : CountedEvent) :
    (item.toList.flatMap StreamItem.events).count kind =
      ((EngineStep.next number).isEvent (.handed number item) kind).toNat := by
  rcases item with _ | failure | chunk
  · cases kind <;> rfl
  · cases kind <;> rfl
  · cases final : chunk.isFinal <;> cases kind <;>
      simp [StreamItem.events, EngineStep.isEvent, EngineResult.translation?, final]

/-- A step counts what it is an event of. -/
theorem count_step (plain : engine.recognizer.FailsByInference) (session : EngineSession)
    (step : EngineStep) (kind : CountedEvent) :
    (engine.step session step).2.activity.count kind = session.activity.count kind +
      (step.isEvent (engine.step session step).1 kind).toNat := by
  cases step with
  | warmUp =>
    have counted := count_warmUp engine session.activity kind
    cases kind <;> exact counted
  | transcribe request =>
    have handled := engine.transcriber.transcribe_handles session.activity.log request
    have counted := engine.count_transcribe session.activity request kind
    have events := count_outcome plain handled kind
    exact counted.trans (congrArg _ events)
  | synthesize request marker =>
    have counted := engine.count_started session.activity request kind
    rw [SpeechEngine.step]
    rcases started : engine.synthesize session.activity request with ⟨_ | stream, activity⟩ <;>
      rw [started] at counted <;> cases kind <;> exact counted
  | next number =>
    cases opened : session.stream? number with
    | none =>
      rw [SpeechEngine.step, opened]
      cases kind <;> rfl
    | some stream => rw [step_next opened, Activity.count_note, count_item number]
  | drop number => cases kind <;> rfl

theorem count_run (plain : engine.recognizer.FailsByInference) (session : EngineSession)
    (steps : List EngineStep) (kind : CountedEvent) :
    (engine.run session steps).2.activity.count kind = session.activity.count kind +
      (steps.zip (engine.run session steps).1).countP fun taken =>
        taken.1.isEvent taken.2 kind := by
  induction steps generalizing session with
  | nil => rfl
  | cons step steps ih =>
    have first := count_step plain session step kind
    have later := ih (engine.step session step).2
    rw [SpeechEngine.run] at later
    rw [SpeechEngine.run, runSteps_cons, List.zip_cons_cons, List.countP_cons, later, first]
    cases step.isEvent (engine.step session step).1 kind
    · simp only [Bool.toNat_false, Bool.false_eq_true, if_false]
      omega
    · simp only [Bool.toNat_true, if_true]
      omega

/-- Only transcriptions are translated, and a translation that was left alone is not late. -/
structure Activity.Balanced (activity : Activity) : Prop where
  translations : activity.count .translationFallback + activity.count .translationOverTimeout ≤
    activity.count .translationAttempted
  transcriptions : activity.count .translationAttempted ≤ activity.count .transcription

theorem step_translation {session : EngineSession} {step : EngineStep}
    {outcome : TranslationOutcome}
    (translated : (engine.step session step).1.translation? = some outcome)
    (fallback : outcome.fallback = true) : outcome.overTimeout = false := by
  cases step with
  | warmUp => cases translated
  | transcribe request =>
    have handled := engine.transcriber.transcribe_handles session.activity.log request
    have result : (engine.step session (.transcribe request)).1 =
        .transcribed (engine.transcriber.transcribe session.activity.log request).1 := rfl
    rw [result] at translated
    cases answer : (engine.transcriber.transcribe session.activity.log request).1 with
    | answered transcription =>
      rw [answer] at translated handled
      exact handled.overTimeout translated fallback
    | refused failure =>
      rw [answer] at translated
      cases translated
    | crashed =>
      rw [answer] at translated
      cases translated
  | synthesize request marker =>
    rw [SpeechEngine.step] at translated
    rcases started : engine.synthesize session.activity request with ⟨_ | stream, activity⟩ <;>
      rw [started] at translated <;> cases translated
  | next number =>
    rw [SpeechEngine.step] at translated
    cases opened : session.stream? number <;> rw [opened] at translated <;> cases translated
  | drop number => cases translated

theorem balanced_step (plain : engine.recognizer.FailsByInference) (session : EngineSession)
    (step : EngineStep) (balanced : session.activity.Balanced) :
    (engine.step session step).2.activity.Balanced := by
  have counted := count_step plain session step
  have apart := @step_translation engine session step
  have fewer := balanced.translations
  have enough := balanced.transcriptions
  generalize engine.step session step = taken at counted apart
  have all : (step.isEvent taken.1 .translationFallback).toNat +
        (step.isEvent taken.1 .translationOverTimeout).toNat ≤
        (step.isEvent taken.1 .translationAttempted).toNat ∧
      (step.isEvent taken.1 .translationAttempted).toNat ≤
        (step.isEvent taken.1 .transcription).toNat := by
    simp only [EngineStep.isEvent]
    cases translation : taken.1.translation? with
    | none => simp
    | some outcome =>
      have transcribed : ∃ transcription, taken.1 = .transcribed (.answered transcription) := by
        unfold EngineResult.translation? at translation
        split at translation
        · exact ⟨_, by assumption⟩
        · cases translation
      obtain ⟨transcription, result⟩ := transcribed
      rw [result]
      cases fallback : outcome.fallback with
      | true => simp [fallback, apart translation fallback]
      | false => cases late : outcome.overTimeout <;> simp [fallback, late]
  constructor
  · rw [counted, counted, counted]
    omega
  · rw [counted, counted]
    omega

end Counting

section Streams

variable {engine : SpeechEngine} {session : EngineSession} {number : Nat}

theorem asked_cons_of_asks {step : EngineStep} (asks : step.asks number = true)
    (later : List EngineStep) : asked number (step :: later) = asked number later + 1 := by
  have stays : step.drops number = false := by
    cases step with
    | next other => rfl
    | _ => cases asks
  rw [asked, List.takeWhile_cons_of_pos (by rw [stays]; rfl), List.countP_cons_of_pos asks, asked]

theorem asked_cons_of_drops {step : EngineStep} (drops : step.drops number = true)
    (later : List EngineStep) : asked number (step :: later) = 0 := by
  rw [asked, List.takeWhile_cons_of_neg (by rw [drops]; decide), List.countP_nil]

theorem asked_cons_of_rests {step : EngineStep} (rests : step.asks number = false)
    (stays : step.drops number = false) (later : List EngineStep) :
    asked number (step :: later) = asked number later := by
  rw [asked, List.takeWhile_cons_of_pos (by rw [stays]; rfl),
    List.countP_cons_of_neg (by rw [rests]; decide), asked]

theorem EngineSession.stream?_of_slot {slot : Option SynthesisStream}
    (at_ : session.streams[number]? = some slot) : session.stream? number = slot := by
  rw [stream?, at_, Option.join_some]

/-- A step asks a stream for its next item, or drops it, or leaves it alone. -/
theorem step_slot {slot : Option SynthesisStream}
    (at_ : session.streams[number]? = some slot) (step : EngineStep) :
    (step.asks number = true ∧
        (engine.step session step).1.handed? number = slot.map (·.next.1) ∧
        (engine.step session step).2.streams[number]? = some (slot.map (·.next.2))) ∨
      (step.drops number = true ∧ (engine.step session step).1.handed? number = none ∧
        (engine.step session step).2.streams[number]? = some none) ∨
      (step.asks number = false ∧ step.drops number = false ∧
        (engine.step session step).1.handed? number = none ∧
        (engine.step session step).2.streams[number]? = some slot) := by
  obtain ⟨bound, -⟩ := List.getElem?_eq_some_iff.1 at_
  cases step with
  | warmUp => exact .inr (.inr ⟨rfl, rfl, rfl, at_⟩)
  | transcribe request => exact .inr (.inr ⟨rfl, rfl, rfl, at_⟩)
  | synthesize request marker =>
    refine .inr (.inr ⟨rfl, rfl, ?_⟩)
    rw [SpeechEngine.step]
    rcases engine.synthesize session.activity request with ⟨failure | stream, activity⟩
    · exact ⟨rfl, at_⟩
    · exact ⟨rfl, (List.getElem?_append_left bound).trans at_⟩
  | next other =>
    by_cases same : other = number
    · subst same
      refine .inl ⟨beq_self_eq_true other, ?_⟩
      have found := EngineSession.stream?_of_slot at_
      cases slot with
      | none =>
        rw [SpeechEngine.step, found]
        exact ⟨rfl, at_⟩
      | some stream =>
        rw [step_next found]
        exact ⟨if_pos rfl, List.getElem?_set_self bound⟩
    · refine .inr (.inr ⟨beq_false_of_ne same, rfl, ?_⟩)
      cases opened : session.stream? other with
      | none =>
        rw [SpeechEngine.step, opened]
        exact ⟨rfl, at_⟩
      | some stream =>
        rw [step_next opened]
        exact ⟨if_neg same, (List.getElem?_set_ne same).trans at_⟩
  | drop other =>
    by_cases same : other = number
    · subst same
      exact .inr (.inl ⟨beq_self_eq_true other, rfl, List.getElem?_set_self bound⟩)
    · exact .inr (.inr ⟨rfl, beq_false_of_ne same, rfl, (List.getElem?_set_ne same).trans at_⟩)

theorem run_dropped (steps : List EngineStep) (at_ : session.streams[number]? = some none) :
    (engine.run session steps).1.filterMap (·.handed? number) = [] := by
  induction steps generalizing session with
  | nil => rfl
  | cons step steps ih =>
    rw [SpeechEngine.run, runSteps_cons]
    rcases @step_slot engine session number none at_ step with
      ⟨-, silent, after⟩ | ⟨-, silent, after⟩ | ⟨-, -, silent, after⟩
    all_goals exact (List.filterMap_cons_none silent).trans (ih after)

/-- Whatever else happens, an open stream hands out the items of as many calls in a row as it is
asked for. -/
theorem run_handed (steps : List EngineStep) {stream : SynthesisStream}
    (at_ : session.streams[number]? = some (some stream)) :
    (engine.run session steps).1.filterMap (·.handed? number) =
      (stream.calls (asked number steps)).1 := by
  induction steps generalizing session stream with
  | nil => rfl
  | cons step steps ih =>
    rw [SpeechEngine.run, runSteps_cons]
    rcases @step_slot engine session number (some stream) at_ step with
      ⟨asks, handed, after⟩ | ⟨drops, silent, after⟩ | ⟨rests, stays, silent, after⟩
    · rw [List.filterMap_cons_some handed, asked_cons_of_asks asks]
      exact congrArg (stream.next.1 :: ·) (ih after)
    · rw [List.filterMap_cons_none silent, asked_cons_of_drops drops]
      exact run_dropped steps after
    · rw [List.filterMap_cons_none silent, asked_cons_of_rests rests stays]
      exact ih after

theorem length_step (session : EngineSession) (step : EngineStep) :
    session.streams.length ≤ (engine.step session step).2.streams.length := by
  cases step with
  | warmUp => exact Nat.le_refl _
  | transcribe request => exact Nat.le_refl _
  | synthesize request marker =>
    rw [SpeechEngine.step]
    rcases engine.synthesize session.activity request with ⟨failure | stream, activity⟩
    · exact Nat.le_refl _
    · rw [List.length_append]
      exact Nat.le_add_right _ _
  | next number =>
    rw [SpeechEngine.step]
    cases session.stream? number with
    | none => exact Nat.le_refl _
    | some stream => exact Nat.le_of_eq List.length_set.symm
  | drop number => exact Nat.le_of_eq List.length_set.symm

theorem step_unstarted (unstarted : session.streams.length ≤ number) (step : EngineStep) :
    (engine.step session step).1.handed? number = none := by
  cases step with
  | warmUp => rfl
  | transcribe request => rfl
  | synthesize request marker =>
    rw [SpeechEngine.step]
    rcases engine.synthesize session.activity request with ⟨failure | stream, activity⟩ <;> rfl
  | next other =>
    rw [SpeechEngine.step]
    cases opened : session.stream? other with
    | none => rfl
    | some stream =>
      refine if_neg ?_
      rintro rfl
      rw [EngineSession.stream?, List.getElem?_eq_none unstarted] at opened
      cases opened
  | drop number => rfl

theorem run_unstarted (steps : List EngineStep)
    (unstarted : (engine.run session steps).2.streams.length ≤ number) :
    (engine.run session steps).1.filterMap (·.handed? number) = [] := by
  induction steps generalizing session with
  | nil => rfl
  | cons step steps ih =>
    have later := @ih (engine.step session step).2 unstarted
    -- streams only become more, so the number was not in use before this step either
    have grown := runSteps_kept engine.step session
      (fun middle step (least : session.streams.length ≤ middle.streams.length) =>
        Nat.le_trans least (length_step middle step)) (step :: steps) (Nat.le_refl _)
    have before : session.streams.length ≤ number := Nat.le_trans grown unstarted
    rw [SpeechEngine.run, runSteps_cons, List.filterMap_cons_none (step_unstarted before step)]
    exact later

theorem step_started {request : SynthesisRequest} {marker : Bool}
    (started : (engine.step session (.synthesize request marker)).1 = .started (.ok number)) :
    number = session.streams.length ∧ ∃ stream, engine.Opens request marker stream ∧
      (engine.step session (.synthesize request marker)).2.streams[number]? =
        some (some stream) := by
  rw [SpeechEngine.step] at started ⊢
  rcases opened : engine.synthesize session.activity request with ⟨failure | stream, activity⟩
  · rw [opened] at started
    cases started
  · rw [opened] at started
    cases started
    refine ⟨rfl, _, ⟨session.activity, stream, congrArg Prod.fst opened, rfl⟩, ?_⟩
    exact List.getElem?_concat_length

end Streams

theorem VoiceRegistry.resolve_mem (registry : VoiceRegistry) (map : VoiceMap)
    (name language : String) : registry.resolve map name language ∈ registry.voices := by
  have found {id : String} {voice : Voice} (get : registry.get? id = some voice) :
      voice ∈ registry.voices := VoiceRegistry.mem_of_get? get
  rw [resolve]
  cases requested : registry.requested? name with
  | some voice =>
    rw [requested?] at requested
    split at requested
    · cases requested
    · exact found requested
  | none =>
    cases mapped : (map.voice? language).bind registry.get? with
    | some voice =>
      obtain ⟨id, -, get⟩ := Option.bind_eq_some_iff.1 mapped
      exact found get
    | none =>
      cases fallback : registry.get? map.defaultVoice with
      | some voice => exact found fallback
      | none => exact List.mem_cons_self

theorem SpeechEngine.Opens.unique {engine : SpeechEngine} {request : SynthesisRequest}
    {marker : Bool} {first second : SynthesisStream}
    (consistent : ∀ voice ∈ engine.voices.voices, voice.Consistent)
    (opens : engine.Opens request marker first) (again : engine.Opens request marker second) :
    first = second := by
  obtain ⟨earlier, started, start, rfl⟩ := opens
  obtain ⟨later, restarted, restart, rfl⟩ := again
  have result (activity : Activity) : (engine.synthesize activity request).1 =
      (engine.voices.speak engine.config.voiceMap activity.log.voices request).1 := by
    rw [synthesize]
    rcases engine.voices.speak engine.config.voiceMap activity.log.voices request with
      ⟨failure | stream, calls⟩ <;> rfl
  rw [result, VoiceRegistry.speak] at start restart
  cases trimmed : Text.trimmed? request.text with
  | none =>
    rw [trimmed] at start restart
    cases start
    cases restart
    rfl
  | some text =>
    rw [trimmed] at start restart
    have same := consistent _
      (engine.voices.resolve_mem engine.config.voiceMap request.voice request.language)
      earlier.log.voices later.log.voices text (.ofSpeed request.speed)
    simp only at start restart
    generalize engine.voices.resolve engine.config.voiceMap request.voice request.language = voice
      at start restart same
    cases rendered : voice.render earlier.log.voices text (.ofSpeed request.speed) with
    | error failure =>
      rw [rendered] at start
      cases start
    | ok blocks =>
      cases rerendered : voice.render later.log.voices text (.ofSpeed request.speed) with
      | error failure =>
        rw [rerendered] at restart
        cases restart
      | ok others =>
        rw [rendered] at start
        rw [rerendered] at restart
        cases start
        cases restart
        rw [same blocks others rendered rerendered]

/-- Uses of a fresh engine in any order. A stream hands out one item each time it is asked before it
is dropped, and these are the items that as many calls give on a stream of the same request read
alone. After every run each counter is the number of its events, whatever became of the streams. -/
theorem run_fresh (engine : SpeechEngine)
    (consistent : ∀ voice ∈ engine.voices.voices, voice.Consistent)
    (plain : engine.recognizer.FailsByInference) (steps : List EngineStep) :
    let results := (engine.run .fresh steps).1
    let counters := (engine.run .fresh steps).2.activity.counters
    (∀ before request marker after number,
      steps = before ++ .synthesize request marker :: after →
      results[before.length]? = some (.started (.ok number)) →
      (∃ stream, engine.Opens request marker stream) ∧
        ∀ stream, engine.Opens request marker stream →
          results.filterMap (·.handed? number) = (stream.calls (asked number after)).1) ∧
    (∀ kind, counters.get kind =
      (steps.zip results).countP fun taken => taken.1.isEvent taken.2 kind) ∧
    counters.translationFallbacks + counters.translationsOverTimeout ≤
      counters.translationsAttempted ∧
    counters.translationsAttempted ≤ counters.transcriptions := by
  intro results counters
  refine ⟨?_, ?_, ?_⟩
  · intro before request marker after number split result
    subst split
    have start := (getElem?_runSteps engine.step .fresh before _ after).symm.trans result
    obtain ⟨next, stream, opens, slot⟩ := step_started (Option.some.inj start)
    have unstarted := @run_unstarted engine .fresh number before (Nat.le_of_eq next.symm)
    have items : results.filterMap (·.handed? number) = (stream.calls (asked number after)).1 := by
      have cut : results = _ := congrArg Prod.fst (runSteps_append engine.step .fresh before _)
      rw [SpeechEngine.run] at unstarted
      rw [cut, List.filterMap_append, unstarted, List.nil_append, runSteps_cons,
        List.filterMap_cons_none]
      · exact run_handed after slot
      · rw [Option.some.inj start]
        rfl
    refine ⟨⟨stream, opens⟩, ?_⟩
    intro other again
    rw [items, opens.unique consistent again]
  · intro kind
    have none : EngineSession.fresh.activity.count kind = 0 := by cases kind <;> rfl
    have counted := count_run plain .fresh steps kind
    rw [none, Nat.zero_add] at counted
    exact counted
  · have start : EngineSession.fresh.activity.Balanced := ⟨Nat.le_refl _, Nat.le_refl _⟩
    have balanced : (engine.run .fresh steps).2.activity.Balanced :=
      runSteps_kept engine.step .fresh (balanced_step plain) steps start
    exact ⟨balanced.translations, balanced.transcriptions⟩

/-- An engine whose voice starts twice, whose recognizer answers once, fails once and then breaks
down, and whose translator always breaks down. -/
def moodyEngine : SpeechEngine where
  config := .standard
  voices := .single ⟨⟨Audio.canonicalRate, fun calls _ _ =>
    if calls.length < 2 then .ok [.error (.synthesis "hoarse")] else .error (.synthesis "mute")⟩,
    "moody"⟩
  recognizer := {
    warmUp := .ok ()
    recognize := fun calls _ => match calls with
      | [] => ⟨.recognized ⟨[⟨"hola", 0, 1, 1⟩], "es"⟩, 3⟩
      | [_] => ⟨.failed (.inference "lost"), 3⟩
      | _ => ⟨.crashed, 3⟩ }
  translator := some fun _ _ => ⟨.crashed, 3⟩

/-- Two streams are read in turns between transcriptions, and one is asked once more after it was
dropped. -/
def moodySteps : List EngineStep :=
  let speech (text : String) : SynthesisRequest := { text := text }
  let audio (rate : UInt32) : TranscriptionRequest := ⟨[0, 0], rate, none, .transcribe, "en"⟩
  [.synthesize (speech "a") true, .synthesize (speech "b") false, .warmUp,
    .transcribe (audio 16000), .next 1, .transcribe (audio 16000), .next 0,
    .transcribe (audio 16000), .drop 0, .next 1, .next 0, .synthesize (speech "c") false,
    .transcribe (audio 8000)]

theorem run_fresh_moodyEngine :
    let results := (moodyEngine.run .fresh moodySteps).1
    let counters := (moodyEngine.run .fresh moodySteps).2.activity.counters
    (∀ voice ∈ moodyEngine.voices.voices, voice.Consistent) ∧
      moodyEngine.recognizer.FailsByInference ∧
      results[0]? = some (.started (.ok 0)) ∧ results[1]? = some (.started (.ok 1)) ∧
      (∃ stream, moodyEngine.Opens { text := "a" } true stream ∧
        results.filterMap (·.handed? 0) = (stream.calls 1).1) ∧
      (∃ stream, moodyEngine.Opens { text := "b" } false stream ∧
        results.filterMap (·.handed? 1) = (stream.calls 2).1) ∧
      counters.get .synthesisStream = 2 ∧ counters.get .translationFallback = 1 ∧
      counters.get .rejectedRequest = 1 := by
  intro results counters
  have consistent : ∀ voice ∈ moodyEngine.voices.voices, voice.Consistent := by
    intro voice mem earlier later text params blocks others first second
    obtain rfl := List.mem_singleton.1 mem
    change (if _ then _ else _) = _ at first second
    split at first <;> cases first
    split at second <;> cases second
    rfl
  have plain : moodyEngine.recognizer.FailsByInference := by
    intro earlier call failure failed
    match earlier, failed with
    | [_], failed =>
      cases failed
      exact ⟨_, rfl⟩
  obtain ⟨streams, counted, -⟩ := run_fresh moodyEngine consistent plain moodySteps
  have first : results[0]? = some (.started (.ok 0)) := rfl
  have second : results[1]? = some (.started (.ok 1)) := rfl
  obtain ⟨⟨dropped, starts⟩, items⟩ := streams [] { text := "a" } true (moodySteps.drop 1) 0 rfl
    first
  obtain ⟨⟨stream, opens⟩, others⟩ := streams (moodySteps.take 1) { text := "b" } false
    (moodySteps.drop 2) 1 rfl second
  refine ⟨consistent, plain, first, second, ⟨dropped, starts, items dropped starts⟩,
    ⟨stream, opens, others stream opens⟩, ?_, ?_, ?_⟩
  · exact (counted .synthesisStream).trans (by decide +kernel)
  · exact (counted .translationFallback).trans (by decide +kernel)
  · exact (counted .rejectedRequest).trans (by decide +kernel)

end SpeechService
