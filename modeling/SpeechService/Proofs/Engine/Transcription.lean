import SpeechService.Engine.Basic
import SpeechService.Proofs.Text
import SpeechService.Proofs.Translation
import SpeechService.Recognition
import SpeechService.Wire.Response

/-!
Which backends a transcription calls, with what, and what it makes of their answers. `Handles` lists
the ways a request can end; `Assembled` relates the transcript to what was recognized: what trimming
leaves of its texts, with single spaces in between. Parts of a recording can be transcribed one by
one and their transcripts joined: `joinSegments_append`.
-/

set_option autoImplicit false

namespace SpeechService

variable {text part transcript : String}

private theorem appendText_of_none (blank : Text.trimmed? text = none) (written : List Char) :
    appendText written text.toList = written := by
  have nothing : Text.trimList text.toList = [] := by
    rw [Text.trimmed?_eq_none_iff, ← Text.isEmpty_trim, String.isEmpty_iff] at blank
    exact String.ofList_eq_empty_iff.1 blank
  rw [appendText, nothing]
  rfl

private theorem appendText_of_some (kept : Text.trimmed? text = some part) (written : List Char) :
    part ≠ "" ∧ appendText written text.toList =
      if written.isEmpty then part.toList else written ++ ' ' :: part.toList := by
  obtain ⟨filled, rfl⟩ := Text.trimmed?_eq_some_iff.1 kept
  rw [← Text.isEmpty_trim] at filled
  have some? : Text.trim text ≠ "" := fun empty => by
    rw [empty] at filled
    cases filled
  have list : (Text.trim text).toList = Text.trimList text.toList := String.toList_ofList
  refine ⟨some?, ?_⟩
  rw [appendText, ← list, if_neg]
  rw [List.isEmpty_iff, String.toList_eq_nil_iff]
  exact some?

private theorem foldl_appendText (some? : transcript ≠ "") (texts : List String) :
    String.ofList (texts.foldl (fun written text => appendText written text.toList)
        transcript.toList) =
      " ".intercalate (transcript :: texts.filterMap Text.trimmed?) := by
  induction texts generalizing transcript with
  | nil =>
    rw [List.foldl_nil, String.ofList_toList, List.filterMap_nil, String.intercalate_singleton]
  | cons text texts ih =>
    rw [List.foldl_cons]
    cases kept : Text.trimmed? text with
    | none => rw [appendText_of_none kept, ih some?, List.filterMap_cons_none kept]
    | some part =>
      have longer : transcript ++ " " ++ part ≠ "" := by
        simp [String.append_eq_empty_iff, some?]
      have appended : transcript.toList ++ ' ' :: part.toList =
          (transcript ++ " " ++ part).toList := by
        simp
      rw [(appendText_of_some kept _).2, if_neg, appended, ih longer, List.filterMap_cons_some kept,
        String.intercalate_cons_append, String.intercalate_cons_cons]
      rwa [List.isEmpty_iff, String.toList_eq_nil_iff]

theorem joinTexts_eq (texts : List String) :
    joinTexts texts = " ".intercalate (texts.filterMap Text.trimmed?) := by
  rw [joinTexts]
  induction texts with
  | nil => rfl
  | cons text texts ih =>
    rw [List.foldl_cons]
    cases kept : Text.trimmed? text with
    | none => rw [appendText_of_none kept, ih, List.filterMap_cons_none kept]
    | some part =>
      obtain ⟨some?, first⟩ := appendText_of_some kept []
      rw [first, if_pos List.isEmpty_nil, foldl_appendText some?, List.filterMap_cons_some kept]

theorem joinSegments_trim (segments : List TranscriptSegment) :
    joinSegments (segments.map TranscriptSegment.trim) =
      " ".intercalate (segments.filterMap fun segment => Text.trimmed? segment.text) := by
  have texts : (segments.map TranscriptSegment.trim).map (·.text) =
      segments.map fun segment => Text.trim segment.text := List.map_map
  rw [joinSegments, joinTexts_eq, texts, List.filterMap_map]
  simp only [Function.comp_def, Text.trimmed?_trim]

/-- Two transcripts as one, with a space between them unless one is empty. -/
def joinTranscripts (first second : String) : String :=
  if first ≠ "" ∧ second ≠ "" then first ++ " " ++ second else first ++ second

/-- The second list is the first one with blank segments put in anywhere. -/
inductive WithBlanks : List TranscriptSegment → List TranscriptSegment → Prop
  | nil : WithBlanks [] []
  | kept (segment : TranscriptSegment) {segments longer : List TranscriptSegment}
      (later : WithBlanks segments longer) : WithBlanks (segment :: segments) (segment :: longer)
  | blank {segment : TranscriptSegment} (blank : Text.isBlankText segment.text = true)
      {segments longer : List TranscriptSegment} (later : WithBlanks segments longer) :
      WithBlanks segments (segment :: longer)

private theorem tight_intercalate {parts : List String} (each : ∀ part ∈ parts, Text.Tight part)
    (some? : parts ≠ []) : Text.Tight (" ".intercalate parts) := by
  induction parts with
  | nil => exact absurd rfl some?
  | cons part parts ih =>
    obtain ⟨tight, others⟩ := List.forall_mem_cons.1 each
    cases parts with
    | nil =>
      rw [String.intercalate_singleton]
      exact tight
    | cons other parts =>
      rw [String.intercalate_cons_cons]
      exact tight.append (ih others (List.cons_ne_nil other parts)) " "

theorem tight_joinTexts {texts : List String} (some? : texts.filterMap Text.trimmed? ≠ []) :
    Text.Tight (joinTexts texts) := by
  rw [joinTexts_eq]
  refine tight_intercalate ?_ some?
  intro part mem
  obtain ⟨_, -, trimmed⟩ := List.mem_filterMap.1 mem
  exact Text.tight_of_trimmed? trimmed

theorem joinTexts_eq_empty_iff (texts : List String) :
    joinTexts texts = "" ↔ texts.filterMap Text.trimmed? = [] := by
  constructor
  · intro empty
    by_contra some?
    exact (tight_joinTexts some?).ne_empty empty
  · intro nothing
    rw [joinTexts_eq, nothing, String.intercalate_nil]

theorem not_isBlank_ends_joinTexts (texts : List String) :
    (∀ c ∈ (joinTexts texts).toList.head?, Text.isBlank c = false) ∧
      ∀ c ∈ (joinTexts texts).toList.getLast?, Text.isBlank c = false := by
  by_cases nothing : texts.filterMap Text.trimmed? = []
  · rw [(joinTexts_eq_empty_iff texts).2 nothing]
    exact ⟨nofun, nofun⟩
  · exact ⟨(tight_joinTexts nothing).first, (tight_joinTexts nothing).last⟩

theorem joinTranscripts_empty_left (transcript : String) :
    joinTranscripts "" transcript = transcript := by
  rw [joinTranscripts, if_neg fun filled => filled.1 rfl, String.empty_append]

theorem joinTranscripts_empty_right (transcript : String) :
    joinTranscripts transcript "" = transcript := by
  rw [joinTranscripts, if_neg fun filled => filled.2 rfl, String.append_empty]

theorem joinTexts_append (earlier later : List String) :
    joinTexts (earlier ++ later) = joinTranscripts (joinTexts earlier) (joinTexts later) := by
  by_cases before : earlier.filterMap Text.trimmed? = []
  · rw [(joinTexts_eq_empty_iff earlier).2 before, joinTranscripts_empty_left, joinTexts_eq,
      List.filterMap_append, before, List.nil_append, joinTexts_eq]
  by_cases after : later.filterMap Text.trimmed? = []
  · rw [(joinTexts_eq_empty_iff later).2 after, joinTranscripts_empty_right, joinTexts_eq,
      List.filterMap_append, after, List.append_nil, joinTexts_eq]
  · have filled : joinTexts earlier ≠ "" ∧ joinTexts later ≠ "" :=
      ⟨mt (joinTexts_eq_empty_iff earlier).1 before, mt (joinTexts_eq_empty_iff later).1 after⟩
    rw [joinTranscripts, if_pos filled, joinTexts_eq, List.filterMap_append,
      String.intercalate_append_of_ne_nil before after, joinTexts_eq, joinTexts_eq]

theorem joinSegments_cons (segment : TranscriptSegment) (segments : List TranscriptSegment) :
    joinSegments (segment :: segments) =
      joinTranscripts (joinTexts [segment.text]) (joinSegments segments) :=
  joinTexts_append [segment.text] (segments.map TranscriptSegment.text)

theorem WithBlanks.joinSegments_eq {segments longer : List TranscriptSegment}
    (h : WithBlanks segments longer) : joinSegments longer = joinSegments segments := by
  induction h with
  | nil => rfl
  | kept segment later ih => rw [joinSegments_cons, ih, ← joinSegments_cons]
  | blank blank later ih =>
    have nothing := (joinTexts_eq_empty_iff [_]).2
      (List.filterMap_cons_none ((Text.trimmed?_eq_none_iff _).2 blank))
    rw [joinSegments_cons, nothing, ih, joinTranscripts_empty_left]

/-- The transcript of segments that follow others is put behind theirs. It is empty if all segments
are blank, and has no blank at either end. Neither the blanks around the segments nor blank segments
among them show in it. -/
theorem joinSegments_append :
    (∀ earlier later : List TranscriptSegment, joinSegments (earlier ++ later) =
      joinTranscripts (joinSegments earlier) (joinSegments later)) ∧
    ∀ segments : List TranscriptSegment,
      (joinSegments segments = "" ↔
        ∀ segment ∈ segments, Text.isBlankText segment.text = true) ∧
      (∀ c ∈ (joinSegments segments).toList.head?, Text.isBlank c = false) ∧
      (∀ c ∈ (joinSegments segments).toList.getLast?, Text.isBlank c = false) ∧
      joinSegments (segments.map TranscriptSegment.trim) = joinSegments segments ∧
      ∀ longer, WithBlanks segments longer → joinSegments longer = joinSegments segments := by
  constructor
  · intro earlier later
    rw [joinSegments, List.map_append, joinTexts_append, joinSegments, joinSegments]
  · intro segments
    obtain ⟨first, last⟩ := not_isBlank_ends_joinTexts (segments.map (·.text))
    refine ⟨?_, first, last, ?_, fun longer inserted => inserted.joinSegments_eq⟩
    · rw [joinSegments, joinTexts_eq_empty_iff, List.filterMap_map, List.filterMap_eq_nil_iff]
      simp only [Function.comp_apply, Text.trimmed?_eq_none_iff]
    · rw [joinSegments_trim, joinSegments, joinTexts_eq, List.filterMap_map]
      simp only [Function.comp_def]

theorem joinSegments_append_greeting :
    let hello : TranscriptSegment := ⟨" Hello", 0, 1, 1⟩
    let world : TranscriptSegment := ⟨"world.\u2003", 2, 3, 1⟩
    let blank : TranscriptSegment := ⟨"\t ", 1, 2, 0⟩
    let longer := [blank, hello, blank, world]
    joinSegments [hello, world] = "Hello world." ∧ joinSegments longer = "Hello world." ∧
      WithBlanks [hello, world] longer ∧ joinSegments [blank, blank] = "" ∧
      joinSegments (longer ++ [blank, hello]) = "Hello world. Hello" ∧
      joinSegments (longer.map TranscriptSegment.trim) = "Hello world." ∧
      'H' ∈ "Hello world.".toList.head? ∧ Text.isBlank 'H' = false ∧
      '.' ∈ "Hello world.".toList.getLast? ∧ Text.isBlank '.' = false := by
  intro hello world blank longer
  obtain ⟨append, all⟩ := joinSegments_append
  obtain ⟨-, front, back, -, inserted⟩ := all [hello, world]
  obtain ⟨-, -, -, trimmed, -⟩ := all longer
  have joined : joinSegments [hello, world] = "Hello world." := by decide +kernel
  have put : WithBlanks [hello, world] longer :=
    .blank (by decide) (.kept hello (.blank (by decide) (.kept world .nil)))
  have same : joinSegments longer = "Hello world." := (inserted longer put).trans joined
  have silent : joinSegments [blank, blank] = "" := by
    refine (all [blank, blank]).1.2 ?_
    simp only [List.forall_mem_cons]
    exact ⟨by decide, by decide, List.forall_mem_nil _⟩
  have spoken : joinTranscripts "Hello world." (joinSegments [blank, hello]) =
      "Hello world. Hello" := by decide +kernel
  have further := append longer [blank, hello]
  rw [same] at further
  rw [joined] at front back
  exact ⟨joined, same, put, silent, further.trans spoken, trimmed.trans same, rfl, front 'H' rfl,
    rfl, back '.' rfl⟩

end SpeechService

namespace SpeechService

/-- The call that a request makes of a recognizer. A hint of blanks is no hint. -/
structure TranscriptionRequest.Makes (request : TranscriptionRequest) (call : RecognizerCall) :
    Prop where
  samples : call.samples = Audio.decodeUnits request.audio
  length : call.samples.length = request.audio.length / 2
  language : call.language = request.languageHint.bind Text.trimmed?
  task : call.task = request.task

namespace Transcriber

variable (transcriber : Transcriber)

/-- The transcript of a recognition. The translator had the calls `before`, and has then had the
calls `after`. -/
structure Assembled (before : List TranslatorCall) (recognition : Recognition) (elapsed : UInt64)
    (target : Option String) (transcription : Transcription) (after : List TranslatorCall) :
    Prop where
  segments : transcription.segments =
    recognition.segments.map fun segment => { segment with text := Text.trim segment.text }
  text : transcription.text =
    " ".intercalate (recognition.segments.filterMap fun segment => Text.trimmed? segment.text)
  language : transcription.language = recognition.language
  duration : transcription.inferenceDuration = elapsed
  /-- With a gate, a target and a text, the gate decides once. -/
  translated : ∀ gate tag, transcriber.gate = some gate → target = some tag →
    transcription.text ≠ "" →
      ∃ outcome, transcription.translation = some outcome ∧
        gate.decide before transcription.text recognition.language tag transcriber.timeout =
          (outcome, after)
  untranslated : transcriber.gate = none ∨ target = none ∨ transcription.text = "" →
    transcription.translation = none ∧ after = before

/-- The outcome of a request, and the calls after it. -/
inductive Handles (log : CallLog) (request : TranscriptionRequest) :
    Outcome Transcription → CallLog → Prop
  | unsupported (rate : request.rate ≠ 16000) :
      Handles log request (.refused (.unsupportedSampleRate 16000 request.rate)) log
  | silent (rate : request.rate = 16000) (short : request.audio.length < 2) :
      Handles log request
        (.answered ⟨"", (request.languageHint.bind Text.trimmed?).getD "en", [], 0, none⟩) log
  | crashed {call : RecognizerCall} (rate : request.rate = 16000)
      (long : 2 ≤ request.audio.length) (made : request.Makes call)
      (answer : (transcriber.recognizer.recognize log.recognizer call).result = .crashed) :
      Handles log request .crashed { log with recognizer := log.recognizer ++ [call] }
  | failed {call : RecognizerCall} {failure : Failure} (rate : request.rate = 16000)
      (long : 2 ≤ request.audio.length) (made : request.Makes call)
      (answer : (transcriber.recognizer.recognize log.recognizer call).result = .failed failure) :
      Handles log request (.refused failure) { log with recognizer := log.recognizer ++ [call] }
  | recognized {call : RecognizerCall} {recognition : Recognition} {elapsed : UInt64}
      {transcription : Transcription} {after : List TranslatorCall} (rate : request.rate = 16000)
      (long : 2 ≤ request.audio.length) (made : request.Makes call)
      (answer : transcriber.recognizer.recognize log.recognizer call =
        ⟨.recognized recognition, elapsed⟩)
      (assembled : transcriber.Assembled log.translator recognition elapsed
        (request.targetLanguage.bind Text.trimmed?) transcription after) :
      Handles log request (.answered transcription)
        { log with recognizer := log.recognizer ++ [call], translator := after }

section Translate

variable {transcriber : Transcriber} {before : List TranslatorCall} {text source : String}
  {target : Option String}

theorem translate_some {gate : TranslationGate} {tag : String}
    (gated : transcriber.gate = some gate) (given : target = some tag) (filled : text ≠ "") :
    transcriber.translate before text source target =
      (some (gate.decide before text source tag transcriber.timeout).1,
        (gate.decide before text source tag transcriber.timeout).2) := by
  have some? : text.isEmpty = false := by
    rw [Bool.eq_false_iff, ne_eq, String.isEmpty_iff]
    exact filled
  simp only [translate, gated, given, some?, Bool.false_eq_true, if_false]

theorem translate_none
    (nothing : transcriber.gate = none ∨ target = none ∨ text = "") :
    transcriber.translate before text source target = (none, before) := by
  unfold translate
  split
  · rename_i tag gate gated
    obtain rfl : text = "" := by simpa [gated] using nothing
    rfl
  · rfl

end Translate

theorem assemble_assembled (before : List TranslatorCall) (recognition : Recognition)
    (elapsed : UInt64) (target : Option String) :
    transcriber.Assembled before recognition elapsed target
      (transcriber.assemble before recognition elapsed target).1
      (transcriber.assemble before recognition elapsed target).2 where
  segments := rfl
  text := joinSegments_trim recognition.segments
  language := rfl
  duration := rfl
  translated _ _ gated given filled :=
    have decided := translate_some gated given filled
    ⟨_, congrArg Prod.fst decided, Prod.ext rfl (congrArg Prod.snd decided).symm⟩
  untranslated nothing :=
    have undecided := translate_none nothing
    ⟨congrArg Prod.fst undecided, congrArg Prod.snd undecided⟩

theorem Assembled.decided {transcriber : Transcriber} {before after : List TranslatorCall}
    {recognition : Recognition} {elapsed : UInt64} {target : Option String}
    {transcription : Transcription} {outcome : TranslationOutcome}
    (assembled : transcriber.Assembled before recognition elapsed target transcription after)
    (translated : transcription.translation = some outcome) :
    ∃ (gate : TranslationGate) (tag : String), target = some tag ∧ outcome =
      (gate.decide before transcription.text recognition.language tag transcriber.timeout).1 := by
  by_cases nothing : transcriber.gate = none ∨ target = none ∨ transcription.text = ""
  · rw [(assembled.untranslated nothing).1] at translated
    cases translated
  · simp only [not_or, ← ne_eq, Option.ne_none_iff_exists'] at nothing
    obtain ⟨⟨gate, gated⟩, ⟨tag, given⟩, filled⟩ := nothing
    obtain ⟨other, made, decision⟩ := assembled.translated gate tag gated given filled
    rw [translated] at made
    cases made
    exact ⟨gate, tag, given, (congrArg Prod.fst decision).symm⟩

/-- A reply that carries a transcript. It names a target language exactly when there is a
translation, and its fields on translation are empty when there is none. -/
structure Tells (reply : Wire.TranscriptionMessage) (transcription : Transcription) : Prop where
  text : reply.text = transcription.text
  language : reply.language = transcription.language
  segments : reply.segments = transcription.segments
  duration : reply.inferenceDuration = transcription.inferenceDuration
  named : reply.targetLanguage ≠ "" ↔ transcription.translation ≠ none
  translated : ∀ outcome, transcription.translation = some outcome →
    reply.translatedText = outcome.text ∧ reply.targetLanguage = outcome.target ∧
      reply.translateDuration = outcome.duration ∧ reply.translationFallback = outcome.fallback
  untranslated : transcription.translation = none →
    reply.translatedText = "" ∧ reply.translateDuration = 0 ∧ reply.translationFallback = false

theorem transcribe_handles (log : CallLog) (request : TranscriptionRequest) :
    transcriber.Handles log request (transcriber.transcribe log request).1
      (transcriber.transcribe log request).2 := by
  rw [transcribe]
  split
  · rename_i rate
    exact .unsupported rate
  rename_i rate
  have rate : request.rate = 16000 := Decidable.not_not.1 rate
  have length : (Audio.decodeUnits request.audio).length = request.audio.length / 2 := by
    rw [Audio.decodeUnits, List.length_map, Audio.length_decode]
    rfl
  dsimp only
  split
  · rename_i silence
    rw [List.isEmpty_iff_length_eq_zero, length] at silence
    exact .silent rate (by omega)
  · rename_i sound
    rw [List.isEmpty_iff_length_eq_zero, length] at sound
    have long : 2 ≤ request.audio.length := by omega
    have made : request.Makes ⟨Audio.decodeUnits request.audio,
        request.languageHint.bind Text.trimmed?, request.task⟩ := ⟨rfl, length, rfl, rfl⟩
    split
    · rename_i answer
      exact .crashed rate long made answer
    · rename_i failure answer
      exact .failed rate long made answer
    · rename_i recognition answer
      exact .recognized rate long made (by rw [← answer])
        (transcriber.assemble_assembled _ _ _ _)

theorem Handles.target_ne_empty {transcriber : Transcriber} {log after : CallLog}
    {request : TranscriptionRequest} {transcription : Transcription}
    (handled : transcriber.Handles log request (.answered transcription) after)
    {outcome : TranslationOutcome} (translated : transcription.translation = some outcome) :
    outcome.target ≠ "" := by
  cases handled with
  | silent rate short => cases translated
  | recognized rate long made answer assembled =>
    obtain ⟨gate, tag, given, rfl⟩ := assembled.decided translated
    obtain ⟨_, -, trimmed⟩ := Option.bind_eq_some_iff.1 given
    obtain ⟨filled, rest⟩ := Text.trimmed?_eq_some_iff.1 trimmed
    obtain ⟨_, _, _, decided⟩ := gate.decide_decided log.translator transcription.text
      _ tag transcriber.timeout
    rw [← Text.isEmpty_trim, rest] at filled
    rw [decided.target]
    intro empty
    rw [empty] at filled
    cases filled

theorem Handles.overTimeout {transcriber : Transcriber} {log after : CallLog}
    {request : TranscriptionRequest} {transcription : Transcription}
    (handled : transcriber.Handles log request (.answered transcription) after)
    {outcome : TranslationOutcome} (translated : transcription.translation = some outcome)
    (fallback : outcome.fallback = true) : outcome.overTimeout = false := by
  cases handled with
  | silent rate short => cases translated
  | recognized rate long made answer assembled =>
    obtain ⟨gate, tag, given, rfl⟩ := assembled.decided translated
    exact gate.decide_overTimeout _ _ _ _ _ fallback

theorem tells_ofTranscription {transcription : Transcription} (sessionId actionId : String)
    (named : ∀ outcome, transcription.translation = some outcome → outcome.target ≠ "") :
    Tells (.ofTranscription transcription sessionId actionId) transcription := by
  rw [Wire.TranscriptionMessage.ofTranscription]
  cases translation : transcription.translation with
  | none =>
    exact ⟨rfl, rfl, rfl, rfl, by simp [translation], by simp [translation],
      fun _ => ⟨rfl, rfl, rfl⟩⟩
  | some outcome =>
    have target := named outcome translation
    exact ⟨rfl, rfl, rfl, rfl, by simp [translation, target], by simp [translation],
      by simp [translation]⟩

/-- Every request is handled as `Handles` says, and a reply with the transcript tells a client
whether there is a translation. -/
theorem transcribe_tells (log : CallLog) (request : TranscriptionRequest) :
    transcriber.Handles log request (transcriber.transcribe log request).1
        (transcriber.transcribe log request).2 ∧
      ∀ transcription, (transcriber.transcribe log request).1 = .answered transcription →
        ∀ sessionId actionId,
          Tells (.ofTranscription transcription sessionId actionId) transcription := by
  have handled := transcriber.transcribe_handles log request
  refine ⟨handled, ?_⟩
  intro transcription answered sessionId actionId
  rw [answered] at handled
  exact tells_ofTranscription sessionId actionId fun _ => handled.target_ne_empty

end Transcriber

end SpeechService
