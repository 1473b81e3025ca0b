import SpeechService.Decimal
import SpeechService.Proofs.Base64
import SpeechService.Proofs.Json.Tagged
import SpeechService.Wire.Request
import SpeechService.Wire.Response

/-!
Messages are read back from their text, which stands on one line. A text `Carries` what is taken
from the value that it spells; each kind of field is written so that it carries its content, and a
list or an object carries what its items or members do. Bytes are read from a text that has their
standard form between blanks, and from no other. Of a request only a speed that is not finite is
lost: it is written as null, and null is no speed. Of a response the floats of its segments are read
back if they are read back from their own text.
-/

set_option autoImplicit false

namespace SpeechService

namespace Json

def Carries {α : Type} (depth : Nat) (text : List Char) (take : Value → Option α) (content : α) :
    Prop :=
  ∃ value, Spells depth text value ∧ take value = some content

/-- Members spell those of an object from which this content is taken. -/
def CarriesMembers {α : Type} (depth : Nat) (written : List (String × List Char))
    (take : Value → Option α) (content : α) : Prop :=
  ∃ members, List.Forall₂ (SpellsMember depth) written members ∧
    take (.object members) = some content

theorem CarriesMembers.object {α : Type} {depth : Nat} {written : List (String × List Char)}
    {take : Value → Option α} {content : α} (h : CarriesMembers depth written take content) :
    Carries (depth + 1) (Written.object written) take content := by
  obtain ⟨members, each, taken⟩ := h
  exact ⟨.object members, spells_object each, taken⟩

section Scalars

variable (depth : Nat)

theorem carries_text (value : String) : Carries depth (Written.text value) Value.text? value :=
  ⟨.text value, spells_text depth value, rfl⟩

theorem carries_optionalText (value : Option String) :
    Carries depth (Written.optionalText value) Value.optionalText? value := by
  refine ⟨_, spells_optionalText depth value, ?_⟩
  cases value with
  | none => rfl
  | some value => rfl

theorem carries_bool (value : Bool) : Carries depth (Written.bool value) Value.bool? value :=
  ⟨.bool value, spells_bool depth value, rfl⟩

theorem carries_natural {value greatest : Nat} (fits : value < UInt64.size)
    (bound : value ≤ greatest) :
    Carries depth (Written.natural value) (Value.natural? greatest) value := by
  have same : value.toUInt64.toNat = value := UInt64.toNat_ofNat_of_lt fits
  refine ⟨_, spells_natural depth fits, ?_⟩
  rw [Value.natural?, Number.natural?, same, if_pos bound]

theorem Carries.map {α β : Type} {text : List Char} {take : Value → Option α} {content : α}
    (h : Carries depth text take content) (f : α → β) :
    Carries depth text (fun value => (take value).map f) (f content) := by
  obtain ⟨value, spelled, taken⟩ := h
  refine ⟨value, spelled, ?_⟩
  simp only [taken, Option.map_some]

theorem carries_word32 (value : UInt32) :
    Carries depth (Written.natural value.toNat) Value.word32? value := by
  have bound := value.toNat_lt
  have carried := (carries_natural depth (show value.toNat < UInt64.size by
    rw [UInt64.size]; omega) (show value.toNat ≤ UInt32.size - 1 by
    rw [UInt32.size]; omega)).map depth UInt32.ofNat
  rw [UInt32.ofNat_toNat] at carried
  exact carried

theorem carries_word64 (value : UInt64) :
    Carries depth (Written.natural value.toNat) Value.word64? value := by
  have bound := value.toNat_lt
  have carried := (carries_natural depth (show value.toNat < UInt64.size by
    rw [UInt64.size]; omega) (show value.toNat ≤ UInt64.size - 1 by
    rw [UInt64.size]; omega)).map depth UInt64.ofNat
  rw [UInt64.ofNat_toNat] at carried
  exact carried

theorem carries_single {value : Float32} (h : SingleReadsBack value) :
    Carries depth (Written.single value) Value.single? value := by
  obtain ⟨number, read, same⟩ := h
  exact ⟨.number number, spells_number depth read, congrArg some same⟩

theorem carries_double {value : Float} (h : DoubleReadsBack value) :
    Carries depth (Written.double value) Value.double? value := by
  obtain ⟨number, read, same⟩ := h
  exact ⟨.number number, spells_number depth read, congrArg some same⟩

end Scalars

theorem carries_list {α : Type} {depth : Nat} {write : α → List Char} {take : Value → Option α}
    {items : List α} (each : ∀ item ∈ items, Carries depth (write item) take item) :
    Carries (depth + 1) (Written.list (items.map write)) (Value.list? take) items := by
  have spelled : ∃ values, List.Forall₂ (Spells depth) (items.map write) values ∧
      values.mapM take = some items := by
    induction items with
    | nil => exact ⟨[], .nil, rfl⟩
    | cons item items ih =>
      obtain ⟨⟨value, spelled, taken⟩, others⟩ := List.forall_mem_cons.1 each
      obtain ⟨values, later, rest⟩ := ih others
      refine ⟨value :: values, .cons spelled later, ?_⟩
      rw [List.mapM_cons, taken, rest]
      rfl
  obtain ⟨values, spelled, taken⟩ := spelled
  exact ⟨.list values, spells_list spelled, taken⟩

theorem Value.members?_of_nodup {members : Members} (distinct : (members.map Prod.fst).Nodup)
    (names : List String) :
    (Value.object members).members? names =
      some (members.filter fun field => names.contains field.1) := by
  have some? : ((members.filter fun field => names.contains field.1).map Prod.fst).Nodup :=
    distinct.sublist (List.filter_sublist.map Prod.fst)
  simp only [Value.members?, if_pos some?]

theorem Value.members?_object {names : List String} {members : Members}
    (same : members.map Prod.fst = names) (distinct : names.Nodup) :
    (Value.object members).members? names = some members := by
  have all : members.filter (fun field => names.contains field.1) = members := by
    rw [List.filter_eq_self]
    intro field mem
    rw [List.contains_iff_mem, ← same]
    exact List.mem_map_of_mem mem
  rw [members?_of_nodup (same ▸ distinct), all]

theorem CarriesMembers.document {α β : Type} {written : List (String × List Char)}
    {take : Value → Option α} {content : α}
    (h : CarriesMembers (greatestDepth - 1) written take content) {kinds : List String}
    {kind : String} {reader : Reader β} {message : β} (known : kinds.contains kind = true)
    (names : kindName ∉ written.map Prod.fst)
    (reads : ∀ {input value rest}, readTagged kinds input = .ok ((kind, value), rest) →
      take value = some content → reader input = .ok (message, rest)) :
    let text := Written.object ((kindName, Written.text kind) :: written)
    '\n' ∉ text ∧ readDocument reader (String.ofList text) = .ok message := by
  intro text
  obtain ⟨members, each, taken⟩ := h
  have first : SpellsMember (greatestDepth - 1) (kindName, Written.text kind)
      (kindName, .text kind) := ⟨rfl, spells_text _ kind⟩
  have tagged := readTagged_object known each names []
  rw [List.append_nil] at tagged
  refine ⟨newline_not_mem_object (.cons first each), ?_⟩
  rw [readDocument, String.toList_ofList, reads tagged taken]
  rfl

end Json

namespace Wire

theorem carries_bytes (depth : Nat) (bytes : Bytes) :
    Json.Carries depth (writtenBytes bytes) bytes? bytes := by
  have spelled := Json.spells_text depth (String.ofList (Base64.encode bytes))
  rw [Json.Written.text, String.toList_ofList] at spelled
  exact ⟨_, spelled, Base64.ofText?_encode bytes⟩

end Wire

end SpeechService

namespace SpeechService.Wire

open Base64 (StandardForm Flawed)

theorem bytes?_text_eq_some_iff {text : String} {bytes : Bytes} :
    bytes? (.text text) = some bytes ↔ StandardForm bytes (Text.trim text).toList := by
  rw [Base64.standardForm_iff, Text.trim, String.toList_ofList]
  exact Base64.ofText?_eq_some_iff

theorem bytes?_text_eq_none_iff {text : String} :
    bytes? (.text text) = none ↔ Flawed (Text.trim text).toList := by
  constructor
  · intro refused
    by_contra sound
    obtain ⟨bytes, form⟩ := Base64.exists_standardForm sound
    rw [bytes?_text_eq_some_iff.2 form] at refused
    cases refused
  · intro flawed
    cases read : bytes? (.text text) with
    | none => rfl
    | some bytes => exact absurd flawed (bytes?_text_eq_some_iff.1 read).not_flawed

/-- Bytes are read back from the text that they are written as. A text is read exactly if it has the
standard form of some bytes between blanks, and these are the bytes that are read; so texts of the
same bytes are the same between their blanks. All others have a blank inside, a foreign character,
too little or too much padding, or an unused bit that is set. -/
theorem bytes?_standardForm :
    (∀ bytes : Bytes, ∃ text : String, writtenBytes bytes = Json.Written.text text ∧
      bytes? (.text text) = some bytes ∧
      ∀ depth, Json.Carries depth (writtenBytes bytes) bytes? bytes) ∧
    (∀ (text : String) (bytes : Bytes),
      bytes? (.text text) = some bytes ↔ StandardForm bytes (Text.trim text).toList) ∧
    (∀ (text other : String) (bytes : Bytes), bytes? (.text text) = some bytes →
      (bytes? (.text other) = some bytes ↔ Text.trim other = Text.trim text)) ∧
    ∀ text : String, bytes? (.text text) = none ↔ Flawed (Text.trim text).toList := by
  refine ⟨?_, fun _ _ => bytes?_text_eq_some_iff, ?_, fun _ => bytes?_text_eq_none_iff⟩
  · intro bytes
    refine ⟨String.ofList (Base64.encode bytes), ?_, Base64.ofText?_encode bytes, ?_⟩
    · rw [writtenBytes, Json.Written.text, String.toList_ofList]
    · exact fun depth => carries_bytes depth bytes
  · intro text other bytes read
    rw [bytes?_text_eq_some_iff] at read ⊢
    constructor
    · intro h
      exact String.toList_injective (h.unique read)
    · intro same
      rwa [same]

theorem bytes?_standardForm_pair :
    bytes? (.text " TWE=\u2003") = some [77, 97] ∧ bytes? (.text "TWE=") = some [77, 97] ∧
      Text.trim " TWE=\u2003" = Text.trim "TWE=" ∧ StandardForm [77, 97] "TWE=".toList ∧
      ∀ text ∈ ["TW E", "TW-_", "TWE", "TWE=====", "TQ==TWE=", "TWF="],
        Flawed (Text.trim text).toList ∧ bytes? (.text text) = none := by
  obtain ⟨-, reads, unique, refuses⟩ := bytes?_standardForm
  have read : bytes? (.text "TWE=") = some [77, 97] := by decide +kernel
  have blanks : Text.trim " TWE=\u2003" = Text.trim "TWE=" := by decide +kernel
  have trimmed : Text.trim "TWE=" = "TWE=" := by decide +kernel
  have form := (reads _ _).1 read
  rw [trimmed] at form
  have refused (text : String) (flawed : Flawed (Text.trim text).toList) :
      Flawed (Text.trim text).toList ∧ bytes? (.text text) = none :=
    ⟨flawed, (refuses text).2 flawed⟩
  refine ⟨(unique _ _ _ read).2 blanks, read, blanks, form, ?_⟩
  simp only [List.forall_mem_cons]
  refine ⟨refused _ (.blank ' ' ?_ rfl), refused _ (.foreign '-' ?_ ?_ ?_), refused _ (.broken ?_),
    refused _ (.surplus ?_), refused _ (.inside ['T', 'Q', '='] ['W', 'E', '='] 'T' ?_ ?_),
    refused _ (.unused ['T', 'W'] 5 1 ?_ ?_ ?_), nofun⟩ <;> decide +kernel

end SpeechService.Wire

namespace SpeechService.Decimal

open Float.Model

theorem exponent_of_not_isFinite {value : Float32} (h : value.isFinite = false) :
    value.toBits.toNat / twoPow single.fractionBits % twoPow single.exponentBits =
      twoPow single.exponentBits - 1 := by
  have unpacked : (UnpackedFloat.unpack Format.binary32 value.toBits.toBitVec).isFinite = false := h
  delta UnpackedFloat.unpack at unpacked
  dsimp only at unpacked
  by_cases exponent : @UnpackedFloat.unpackExponent Format.binary32 value.toBits.toBitVec = -1#8
  · have field := congrArg BitVec.toNat exponent
    rw [UnpackedFloat.unpackExponent, BitVec.toNat_cast, BitVec.extractLsb_toNat,
      Nat.shiftRight_eq_div_pow] at field
    exact field
  · rw [if_neg exponent] at unpacked
    by_cases zero : @UnpackedFloat.unpackExponent Format.binary32 value.toBits.toBitVec = 0#8
    · rw [if_pos zero] at unpacked
      by_cases mantissa : @UnpackedFloat.unpackMantissa Format.binary32 value.toBits.toBitVec = 0#23
      · rw [dif_pos mantissa] at unpacked
        cases unpacked
      · rw [dif_neg mantissa] at unpacked
        cases unpacked
    · rw [if_neg zero] at unpacked
      cases unpacked

theorem single?_of_not_isFinite {value : Float32} (h : value.isFinite = false) :
    single? value = none := by
  have exponent := exponent_of_not_isFinite h
  rw [single?, Style.writeBits?, Layout.decode]
  simp only [exponent, if_true]
  by_cases fraction : value.toBits.toNat % twoPow single.fractionBits = 0
  · rw [if_pos fraction]
  · rw [if_neg fraction]

end SpeechService.Decimal

namespace SpeechService.Wire

theorem TranscribeMessage.carries (depth : Nat) (message : TranscribeMessage) :
    Json.CarriesMembers depth message.written ofValue? message := by
  obtain ⟨audio, audioSpelled, audioTaken⟩ := carries_bytes depth message.audio
  obtain ⟨rate, rateSpelled, rateTaken⟩ := Json.carries_word32 depth message.sampleRate
  obtain ⟨hint, hintSpelled, hintTaken⟩ := Json.carries_optionalText depth message.languageHint
  obtain ⟨task, taskSpelled, taskTaken⟩ := Json.carries_text depth message.task
  obtain ⟨target, targetSpelled, targetTaken⟩ :=
    Json.carries_optionalText depth message.targetLanguage
  obtain ⟨session, sessionSpelled, sessionTaken⟩ := Json.carries_text depth message.sessionId
  obtain ⟨action, actionSpelled, actionTaken⟩ := Json.carries_text depth message.actionId
  refine ⟨[("audio", audio), ("sampleRate", rate), ("languageHint", hint), ("task", task),
    ("targetLanguage", target), ("sessionId", session), ("actionId", action)], ?_, ?_⟩
  · exact .cons ⟨rfl, audioSpelled⟩ (.cons ⟨rfl, rateSpelled⟩ (.cons ⟨rfl, hintSpelled⟩
      (.cons ⟨rfl, taskSpelled⟩ (.cons ⟨rfl, targetSpelled⟩ (.cons ⟨rfl, sessionSpelled⟩
        (.cons ⟨rfl, actionSpelled⟩ .nil))))))
  · rw [ofValue?, Json.Value.members?_object]
    · simp only [Json.Members.field?, List.lookup_cons, String.reduceBEq, Option.bind_eq_bind,
        Option.bind_some, audioTaken, rateTaken, hintTaken, taskTaken, targetTaken, sessionTaken,
        actionTaken]
    · rfl
    · decide

theorem SynthesizeMessage.spells {depth : Nat} (message : SynthesizeMessage) {speed : Json.Value}
    (spelled : Json.Spells depth (Json.Written.single message.speed) speed) :
    ∃ members, List.Forall₂ (Json.SpellsMember depth) message.written members ∧
      ofValue? (.object members) = speed.single?.map ({ message with speed := · }) := by
  obtain ⟨text, textSpelled, textTaken⟩ := Json.carries_text depth message.text
  obtain ⟨voice, voiceSpelled, voiceTaken⟩ := Json.carries_text depth message.voice
  obtain ⟨language, languageSpelled, languageTaken⟩ := Json.carries_text depth message.language
  obtain ⟨session, sessionSpelled, sessionTaken⟩ := Json.carries_text depth message.sessionId
  obtain ⟨action, actionSpelled, actionTaken⟩ := Json.carries_text depth message.actionId
  refine ⟨[("text", text), ("voice", voice), ("speed", speed), ("language", language),
    ("sessionId", session), ("actionId", action)], ?_, ?_⟩
  · exact .cons ⟨rfl, textSpelled⟩ (.cons ⟨rfl, voiceSpelled⟩ (.cons ⟨rfl, spelled⟩
      (.cons ⟨rfl, languageSpelled⟩ (.cons ⟨rfl, sessionSpelled⟩
        (.cons ⟨rfl, actionSpelled⟩ .nil)))))
  · rw [ofValue?, Json.Value.members?_object]
    · simp only [Json.Members.field?, List.lookup_cons, String.reduceBEq, Option.bind_eq_bind,
        Option.bind_some, textTaken, voiceTaken, languageTaken, sessionTaken, actionTaken,
        Option.map_eq_bind, Function.comp_def]
    · rfl
    · decide

theorem SynthesizeMessage.carries (depth : Nat) (message : SynthesizeMessage)
    (speed : Json.SingleReadsBack message.speed) :
    Json.CarriesMembers depth message.written ofValue? message := by
  obtain ⟨value, spelled, taken⟩ := Json.carries_single depth speed
  obtain ⟨members, each, read⟩ := message.spells spelled
  rw [taken, Option.map_some] at read
  exact ⟨members, each, read⟩

/-- The speed of a request, if it has one, is read back from its text. -/
def Request.ReadsBack : Request → Prop
  | .synthesize message => Json.SingleReadsBack message.speed
  | _ => True

theorem Request.read_of_tagged {input rest : Json.Input} {kind : String} {content : Json.Value}
    {request : Request} (tagged : Json.readTagged kinds input = .ok ((kind, content), rest))
    (made : ofContent? kind content = some request) : read input = .ok (request, rest) := by
  rw [read, tagged]
  simp only [Bind.bind, Except.bind, made]

/-- A request is written on one line and read back from it. -/
theorem Request.readsBack {request : Request} (h : request.ReadsBack) :
    '\n' ∉ request.toText.toList ∧ Request.ofText request.toText = .ok request := by
  rw [toText, String.toList_ofList, ofText]
  cases request with
  | transcribe message =>
    refine (message.carries _).document (show kinds.contains transcribeKind = true by decide)
      (show Json.kindName ∉ TranscribeMessage.names by decide) ?_
    intro input value rest tagged taken
    apply read_of_tagged tagged
    rw [ofContent?, if_pos rfl, taken, Option.map_some]
  | synthesize message =>
    refine (message.carries _ h).document (show kinds.contains synthesizeKind = true by decide)
      (show Json.kindName ∉ SynthesizeMessage.names by decide) ?_
    intro input value rest tagged taken
    apply read_of_tagged tagged
    rw [ofContent?, if_neg (by decide), if_pos rfl, taken, Option.map_some]
  | status =>
    have nothing : Json.CarriesMembers (Json.greatestDepth - 1) [] (·.members? []) [] :=
      ⟨[], .nil, rfl⟩
    refine nothing.document (show kinds.contains statusKind = true by decide)
      List.not_mem_nil ?_
    intro input value rest tagged taken
    apply read_of_tagged tagged
    rw [ofContent?, if_neg (by decide), if_neg (by decide), taken, Option.map_some]

theorem Request.ofText_of_not_isFinite {message : SynthesizeMessage}
    (h : message.speed.isFinite = false) :
    Request.ofText (toText (.synthesize message)) = .error .mismatched := by
  have null : Json.Spells (Json.greatestDepth - 1) (Json.Written.single message.speed) .null := by
    rw [Json.Written.single, Decimal.single?_of_not_isFinite h]
    exact Json.spells_null _
  obtain ⟨members, each, taken⟩ := message.spells null
  have tagged := Json.readTagged_object (show kinds.contains synthesizeKind = true by decide) each
    (show Json.kindName ∉ SynthesizeMessage.names by decide) []
  have nothing : ofContent? synthesizeKind (.object members) = none := by
    rw [ofContent?, if_neg (by decide), if_pos rfl, taken]
    rfl
  rw [List.append_nil] at tagged
  have refused : read (Json.Written.object (written (.synthesize message))) =
      .error .mismatched := by
    rw [read, written, tagged]
    simp only [Bind.bind, Except.bind, nothing]
  rw [ofText, toText, Json.readDocument, String.toList_ofList, refused]
  rfl

structure Segment.ReadsBack (segment : TranscriptSegment) : Prop where
  startTime : Json.DoubleReadsBack segment.startTime
  endTime : Json.DoubleReadsBack segment.endTime
  confidence : Json.SingleReadsBack segment.confidence

theorem Segment.carries (depth : Nat) {segment : TranscriptSegment} (h : ReadsBack segment) :
    Json.Carries (depth + 1) (written segment) ofValue? segment := by
  obtain ⟨text, textSpelled, textTaken⟩ := Json.carries_text depth segment.text
  obtain ⟨startTime, startSpelled, startTaken⟩ := Json.carries_double depth h.startTime
  obtain ⟨endTime, endSpelled, endTaken⟩ := Json.carries_double depth h.endTime
  obtain ⟨confidence, confidenceSpelled, confidenceTaken⟩ := Json.carries_single depth h.confidence
  apply Json.CarriesMembers.object
  refine ⟨[("text", text), ("startTime", startTime), ("endTime", endTime),
    ("confidence", confidence)], ?_, ?_⟩
  · exact .cons ⟨rfl, textSpelled⟩ (.cons ⟨rfl, startSpelled⟩ (.cons ⟨rfl, endSpelled⟩
      (.cons ⟨rfl, confidenceSpelled⟩ .nil)))
  · rw [ofValue?, Json.Value.members?_object]
    · simp only [Json.Members.required?, List.lookup_cons, String.reduceBEq, Option.bind_eq_bind,
        Option.bind_some, textTaken, startTaken, endTaken, confidenceTaken]
    · rfl
    · decide

theorem CounterMessage.carries (depth : Nat) (counters : Counters UInt64) :
    Json.Carries (depth + 1) (written counters) ofValue? counters := by
  have each (count : UInt64) := Json.carries_word64 depth count
  obtain ⟨transcriptions, spelled₁, taken₁⟩ := each counters.transcriptions
  obtain ⟨streams, spelled₂, taken₂⟩ := each counters.synthesisStreams
  obtain ⟨chunks, spelled₃, taken₃⟩ := each counters.chunksEmitted
  obtain ⟨attempted, spelled₄, taken₄⟩ := each counters.translationsAttempted
  obtain ⟨fallbacks, spelled₅, taken₅⟩ := each counters.translationFallbacks
  obtain ⟨late, spelled₆, taken₆⟩ := each counters.translationsOverTimeout
  obtain ⟨rejected, spelled₇, taken₇⟩ := each counters.rejectedRequests
  apply Json.CarriesMembers.object
  refine ⟨[("transcriptions", transcriptions), ("synthesisStreams", streams),
    ("chunksEmitted", chunks), ("translationsAttempted", attempted),
    ("translationFallbacks", fallbacks), ("translationsOverTimeout", late),
    ("rejectedRequests", rejected)], ?_, ?_⟩
  · exact .cons ⟨rfl, spelled₁⟩ (.cons ⟨rfl, spelled₂⟩ (.cons ⟨rfl, spelled₃⟩
      (.cons ⟨rfl, spelled₄⟩ (.cons ⟨rfl, spelled₅⟩ (.cons ⟨rfl, spelled₆⟩
        (.cons ⟨rfl, spelled₇⟩ .nil))))))
  · rw [ofValue?, Json.Value.members?_object]
    · simp only [Json.Members.required?, List.lookup_cons, String.reduceBEq, Option.bind_eq_bind,
        Option.bind_some, taken₁, taken₂, taken₃, taken₄, taken₅, taken₆, taken₇]
    · rfl
    · decide

theorem TranscriptionMessage.carries (depth : Nat) {message : TranscriptionMessage}
    (h : ∀ segment ∈ message.segments, Segment.ReadsBack segment) :
    Json.CarriesMembers (depth + 2) message.written ofValue? message := by
  have text (value : String) := Json.carries_text (depth + 2) value
  have word (value : UInt64) := Json.carries_word64 (depth + 2) value
  obtain ⟨transcript, spelled₁, taken₁⟩ := text message.text
  obtain ⟨language, spelled₂, taken₂⟩ := text message.language
  obtain ⟨segments, spelled₃, taken₃⟩ :=
    Json.carries_list fun segment mem => Segment.carries depth (h segment mem)
  obtain ⟨inference, spelled₄, taken₄⟩ := word message.inferenceDuration
  obtain ⟨translated, spelled₅, taken₅⟩ := text message.translatedText
  obtain ⟨target, spelled₆, taken₆⟩ := text message.targetLanguage
  obtain ⟨translation, spelled₇, taken₇⟩ := word message.translateDuration
  obtain ⟨fallback, spelled₈, taken₈⟩ := Json.carries_bool (depth + 2) message.translationFallback
  obtain ⟨session, spelled₉, taken₉⟩ := text message.sessionId
  obtain ⟨action, spelled₁₀, taken₁₀⟩ := text message.actionId
  refine ⟨[("text", transcript), ("language", language), ("segments", segments),
    ("inferenceDurationMs", inference), ("translatedText", translated), ("targetLanguage", target),
    ("translateDurationMs", translation), ("translationFallback", fallback),
    ("sessionId", session), ("actionId", action)], ?_, ?_⟩
  · exact .cons ⟨rfl, spelled₁⟩ (.cons ⟨rfl, spelled₂⟩ (.cons ⟨rfl, spelled₃⟩
      (.cons ⟨rfl, spelled₄⟩ (.cons ⟨rfl, spelled₅⟩ (.cons ⟨rfl, spelled₆⟩
        (.cons ⟨rfl, spelled₇⟩ (.cons ⟨rfl, spelled₈⟩ (.cons ⟨rfl, spelled₉⟩
          (.cons ⟨rfl, spelled₁₀⟩ .nil)))))))))
  · rw [ofValue?, Json.Value.members?_object]
    · simp only [Json.Members.field?, List.lookup_cons, String.reduceBEq, Option.bind_eq_bind,
        Option.bind_some, taken₁, taken₂, taken₃, taken₄, taken₅, taken₆, taken₇, taken₈, taken₉,
        taken₁₀]
    · rfl
    · decide

theorem ChunkMessage.carries (depth : Nat) (message : ChunkMessage) :
    Json.CarriesMembers depth message.written ofValue? message := by
  obtain ⟨data, spelled₁, taken₁⟩ := carries_bytes depth message.data
  obtain ⟨sequence, spelled₂, taken₂⟩ := Json.carries_word64 depth message.sequence
  obtain ⟨duration, spelled₃, taken₃⟩ := Json.carries_word32 depth message.duration
  obtain ⟨isFinal, spelled₄, taken₄⟩ := Json.carries_bool depth message.isFinal
  obtain ⟨session, spelled₅, taken₅⟩ := Json.carries_text depth message.sessionId
  obtain ⟨action, spelled₆, taken₆⟩ := Json.carries_text depth message.actionId
  refine ⟨[("data", data), ("sequence", sequence), ("durationMs", duration), ("isFinal", isFinal),
    ("sessionId", session), ("actionId", action)], ?_, ?_⟩
  · exact .cons ⟨rfl, spelled₁⟩ (.cons ⟨rfl, spelled₂⟩ (.cons ⟨rfl, spelled₃⟩
      (.cons ⟨rfl, spelled₄⟩ (.cons ⟨rfl, spelled₅⟩ (.cons ⟨rfl, spelled₆⟩ .nil)))))
  · rw [ofValue?, Json.Value.members?_object]
    · simp only [Json.Members.field?, List.lookup_cons, String.reduceBEq, Option.bind_eq_bind,
        Option.bind_some, taken₁, taken₂, taken₃, taken₄, taken₅, taken₆]
    · rfl
    · decide

theorem StatusMessage.carries (depth : Nat) (message : StatusMessage) :
    Json.CarriesMembers (depth + 1) message.written ofValue? message := by
  obtain ⟨voices, spelled₁, taken₁⟩ :=
    Json.carries_list fun voice (_ : voice ∈ message.voices) => Json.carries_text depth voice
  obtain ⟨translator, spelled₂, taken₂⟩ := Json.carries_bool (depth + 1) message.translator
  obtain ⟨counters, spelled₃, taken₃⟩ := CounterMessage.carries depth message.counters
  refine ⟨[("voices", voices), ("translator", translator), ("diagnostics", counters)], ?_, ?_⟩
  · exact .cons ⟨rfl, spelled₁⟩ (.cons ⟨rfl, spelled₂⟩ (.cons ⟨rfl, spelled₃⟩ .nil))
  · rw [ofValue?, Json.Value.members?_object]
    · simp only [Json.Members.field?, List.lookup_cons, String.reduceBEq, Option.bind_eq_bind,
        Option.bind_some, taken₁, taken₂, taken₃]
    · rfl
    · decide

theorem Response.carries_error (depth : Nat) (message : String) :
    Json.CarriesMembers depth [("message", Json.Written.text message)] errorOfValue? message := by
  obtain ⟨value, spelled, taken⟩ := Json.carries_text depth message
  refine ⟨[("message", value)], .cons ⟨rfl, spelled⟩ .nil, ?_⟩
  rw [errorOfValue?, Json.Value.members?_object]
  · simp only [Json.Members.required?, List.lookup_cons, String.reduceBEq, Option.bind_eq_bind,
      Option.bind_some, taken]
  · rfl
  · decide

/-- The floats of a response, if it has any, are read back from their text. -/
def Response.ReadsBack : Response → Prop
  | .transcription message => ∀ segment ∈ message.segments, Segment.ReadsBack segment
  | _ => True

theorem Response.read_of_tagged {input rest : Json.Input} {kind : String} {content : Json.Value}
    {response : Response} (tagged : Json.readTagged kinds input = .ok ((kind, content), rest))
    (made : ofContent? kind content = some response) : read input = .ok (response, rest) := by
  rw [read, tagged]
  simp only [Bind.bind, Except.bind, made]

theorem Response.readsBack {response : Response} (h : response.ReadsBack) :
    '\n' ∉ response.toText.toList ∧ Response.ofText response.toText = .ok response := by
  rw [toText, String.toList_ofList, ofText]
  cases response with
  | transcription message =>
    refine (TranscriptionMessage.carries _ h).document
      (show kinds.contains transcriptionKind = true by decide)
      (show Json.kindName ∉ TranscriptionMessage.names by decide) ?_
    intro input value rest tagged taken
    apply read_of_tagged tagged
    rw [ofContent?, if_pos rfl, taken, Option.map_some]
  | audioChunk message =>
    refine (message.carries _).document (show kinds.contains audioChunkKind = true by decide)
      (show Json.kindName ∉ ChunkMessage.names by decide) ?_
    intro input value rest tagged taken
    apply read_of_tagged tagged
    rw [ofContent?, if_neg (by decide), if_pos rfl, taken, Option.map_some]
  | status message =>
    refine (message.carries _).document (show kinds.contains statusKind = true by decide)
      (show Json.kindName ∉ StatusMessage.names by decide) ?_
    intro input value rest tagged taken
    apply read_of_tagged tagged
    rw [ofContent?, if_neg (by decide), if_neg (by decide), if_pos rfl, taken, Option.map_some]
  | error message =>
    refine (carries_error _ message).document (show kinds.contains errorKind = true by decide)
      (show Json.kindName ∉ ["message"] by decide) ?_
    intro input value rest tagged taken
    apply read_of_tagged tagged
    rw [ofContent?, if_neg (by decide), if_neg (by decide), if_neg (by decide), taken,
      Option.map_some]

end SpeechService.Wire
