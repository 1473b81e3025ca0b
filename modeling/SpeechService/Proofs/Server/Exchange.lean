import SpeechService.Proofs.Server.Lines
import SpeechService.Proofs.Text
import SpeechService.Proofs.Wire.Messages
import SpeechService.Server.Service

/-!
What one side writes is what the other side reads. Requests are written as lines, with blank lines
between them; however the bytes arrive, the service finds the lines again, and each gives back its
request. Responses are written as lines too, and each piece between newlines gives back its
response.
-/

set_option autoImplicit false

namespace SpeechService.Server

open Wire

inductive ClientLine where
  | blank (text : String) (blank : Text.isBlankText text = true) (oneLine : '\n' ∉ text.toList)
  | request (request : Request)

namespace ClientLine

def text : ClientLine → String
  | .blank text _ _ => text
  | .request message => message.toText

def content (line : ClientLine) : Bytes := Text.bytes line.text

def request? : ClientLine → Option Request
  | .blank _ _ _ => none
  | .request message => some message

end ClientLine

theorem trimmed?_toText (request : Request) :
    Text.trimmed? request.toText = some request.toText := by
  have front : ∀ c ∈ (Json.Written.object request.written).head?, Text.isBlank c = false := by
    intro c mem
    cases mem
    decide
  have back : ∀ c ∈ (Json.Written.object request.written).getLast?, Text.isBlank c = false := by
    intro c mem
    rw [Json.Written.object, List.getLast?_concat] at mem
    cases mem
    decide
  have whole : Text.trim request.toText = request.toText := by
    rw [Text.trim, Request.toText, String.toList_ofList, Text.trimList_eq_self front back]
  have some? : request.toText.isEmpty = false := by
    rw [Bool.eq_false_iff, Ne, String.isEmpty_iff, Request.toText, String.ofList_eq_empty_iff,
      Json.Written.object]
    intro empty
    cases empty
  rw [Text.trimmed?, whole, some?]
  rfl

theorem ClientLine.request?_ofLine {max : Nat} {line : ClientLine}
    (readsBack : ∀ request, line.request? = some request → request.ReadsBack)
    (fits : line.content.length ≤ max) :
    (LineRead.ofLine max line.content).request? max = line.request?.map .ok := by
  rw [LineRead.ofLine, if_pos fits, LineRead.request?, content, Text.ofBytes?_bytes]
  cases line with
  | blank text blank oneLine =>
    simp only [ClientLine.text, (Text.trimmed?_eq_none_iff text).2 blank]
    rfl
  | request request =>
    simp only [ClientLine.text, trimmed?_toText, (Request.readsBack (readsBack request rfl)).2]
    rfl

theorem ClientLine.newline_not_mem_content {line : ClientLine}
    (readsBack : ∀ request, line.request? = some request → request.ReadsBack) :
    newline ∉ line.content := by
  apply Text.newline_not_mem_bytes
  cases line with
  | blank text _ oneLine => exact oneLine
  | request request => exact (Request.readsBack (readsBack request rfl)).1

/-- Requests are read in the order in which they are sent, whatever blank lines stand between them
and however the bytes arrive, if every line fits and every speed is read back from its text. A
request whose speed is not finite is refused. -/
theorem readLines_sent (max : Nat) (sent : List ClientLine) (fills : Fills)
    (stream : fills.flatten = sent.flatMap (·.content ++ [newline]))
    (fits : ∀ line ∈ sent, line.content.length ≤ max)
    (readsBack : ∀ request ∈ sent.filterMap ClientLine.request?, request.ReadsBack) :
    (readLines max fills).filterMap (LineRead.request? max) =
        (sent.filterMap ClientLine.request?).map .ok ∧
      ∀ message : SynthesizeMessage, message.speed.isFinite = false →
        Request.ofText (Request.toText (.synthesize message)) = .error .mismatched := by
  refine ⟨?_, fun message infinite => Request.ofText_of_not_isFinite infinite⟩
  have each : ∀ line ∈ sent, ∀ request, line.request? = some request → request.ReadsBack := by
    intro line mem request holds
    exact readsBack request (List.mem_filterMap.2 ⟨line, mem, holds⟩)
  have fresh : ∀ line ∈ sent.map ClientLine.content, newline ∉ line := by
    intro line mem
    obtain ⟨line, among, rfl⟩ := List.mem_map.1 mem
    exact line.newline_not_mem_content (each line among)
  have lines : streamLines fills.flatten = sent.map ClientLine.content := by
    rw [stream, ← streamLines_flatMap fresh, List.flatMap_map]
  rw [readLines_eq_map, lines, List.map_map, List.filterMap_map, List.map_filterMap]
  apply List.filterMap_congr
  intro line mem
  exact line.request?_ofLine (each line mem) (fits line mem)

/-- A text of two lines, to be spoken at one and a half times the speed. -/
def briskRequest : SynthesizeMessage := { text := "\"one\"\nzwölf", speed := 1.5 }

theorem singleReadsBack_briskRequest : Json.SingleReadsBack briskRequest.speed :=
  Json.singleReadsBack_of_toOption
    (show (Json.readNumber (Json.Written.single 1.5)).toOption = some (.real 1.5, []) by
      decide +kernel) (by decide +kernel)

theorem readLines_sent_briskRequest :
    let sent : List ClientLine :=
      [.blank "" (by decide) (by decide), .request .status,
        .request (.transcribe { audio := [0, 10, 255], languageHint := some "de" }),
        .blank " \t\x0d" (by decide) (by decide), .request (.synthesize briskRequest)]
    let stream := sent.flatMap (·.content ++ [newline])
    let fills : Fills := [stream.take 9, stream.drop 9]
    fills.flatten = stream ∧ (∀ line ∈ sent, line.content.length ≤ 160) ∧
      (∀ request ∈ sent.filterMap ClientLine.request?, request.ReadsBack) ∧
      (readLines 160 fills).filterMap (LineRead.request? 160) =
        [.ok .status, .ok (.transcribe { audio := [0, 10, 255], languageHint := some "de" }),
          .ok (.synthesize briskRequest)] := by
  intro sent stream fills
  have whole : fills.flatten = stream := by
    simp [fills]
  have fits : ∀ line ∈ sent, line.content.length ≤ 160 := by
    decide +kernel
  have requests : sent.filterMap ClientLine.request? =
      [.status, .transcribe { audio := [0, 10, 255], languageHint := some "de" },
        .synthesize briskRequest] := rfl
  have readsBack : ∀ request ∈ sent.filterMap ClientLine.request?, request.ReadsBack := by
    rw [requests]
    intro request mem
    simp only [List.mem_cons, List.not_mem_nil, or_false] at mem
    rcases mem with rfl | rfl | rfl
    · trivial
    · trivial
    · exact singleReadsBack_briskRequest
  exact ⟨whole, fits, readsBack, (readLines_sent 160 sent fills whole fits readsBack).1⟩

/-- Responses that are written one after another are the pieces of their stream between newlines,
and nothing is left behind the last one; each piece gives back its response. -/
theorem splitOn_responses (responses : List Response)
    (readsBack : ∀ response ∈ responses, response.ReadsBack) :
    ∃ pieces, (responses.flatMap Response.line).splitOn newline = pieces ++ [[]] ∧
      pieces.length = responses.length ∧
      pieces.map (fun piece => (Text.ofBytes? piece).map Response.ofText) =
        responses.map fun response => some (.ok response) := by
  let texts := responses.map fun response => Text.bytes response.toText
  have oneLine : ∀ text ∈ texts, newline ∉ text := by
    intro text mem
    obtain ⟨response, among, rfl⟩ := List.mem_map.1 mem
    exact Text.newline_not_mem_bytes (Response.readsBack (readsBack response among)).1
  have stream : responses.flatMap Response.line = texts.flatMap (· ++ [newline]) := by
    rw [List.flatMap_map]
    rfl
  refine ⟨texts, ?_, List.length_map _, ?_⟩
  · rw [stream, splitOn_flatMap oneLine]
  · rw [List.map_map]
    apply List.map_congr_left
    intro response mem
    rw [Function.comp_apply, Text.ofBytes?_bytes, Option.map_some,
      (Response.readsBack (readsBack response mem)).2]

def brokenTranscript : TranscriptionMessage := {
  text := "\"one\"\nzwölf"
  language := "de"
  segments := [⟨"\"one\"\nzwölf", 0.5, 2.25, 0.9⟩]
  inferenceDuration := 17 }

theorem readsBack_brokenTranscript : (Response.transcription brokenTranscript).ReadsBack := by
  intro segment mem
  rw [List.mem_singleton.1 mem]
  have half : (Json.readNumber (Json.Written.double 0.5)).toOption = some (.real 0.5, []) := by
    decide +kernel
  have two : (Json.readNumber (Json.Written.double 2.25)).toOption = some (.real 2.25, []) := by
    decide +kernel
  have tenths : (Json.readNumber (Json.Written.single 0.9)).toOption = some (.real 0.9, []) := by
    decide +kernel
  exact ⟨Json.doubleReadsBack_of_toOption half rfl, Json.doubleReadsBack_of_toOption two rfl,
    Json.singleReadsBack_of_toOption tenths (by decide +kernel)⟩

theorem splitOn_responses_brokenTranscript :
    let responses : List Response := [.transcription brokenTranscript,
      .audioChunk { data := [10, 0, 255], sequence := 3, duration := 100 },
      .status { voices := ["a\nb", ""], translator := true }, .error "no\nvoice"]
    (∀ response ∈ responses, response.ReadsBack) ∧
      ∃ pieces, (responses.flatMap Response.line).splitOn newline = pieces ++ [[]] ∧
        pieces.length = 4 ∧
        pieces.map (fun piece => (Text.ofBytes? piece).map Response.ofText) =
          responses.map fun response => some (.ok response) := by
  intro responses
  have readsBack : ∀ response ∈ responses, response.ReadsBack := by
    intro response mem
    simp only [responses, List.mem_cons, List.not_mem_nil, or_false] at mem
    rcases mem with rfl | rfl | rfl | rfl
    · exact readsBack_brokenTranscript
    · trivial
    · trivial
    · trivial
  exact ⟨readsBack, splitOn_responses responses readsBack⟩

end SpeechService.Server
