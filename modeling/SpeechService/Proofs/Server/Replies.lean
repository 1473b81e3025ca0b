import SpeechService.Proofs.Engine.StreamOutput
import SpeechService.Proofs.Server.Lines
import SpeechService.Proofs.Text
import SpeechService.Server.Service

/-!
The replies of a whole connection. `Answered` says once what the answer to a request can be: the
messages that are sent, how the answer ends and the state after it. A `Turn` is a line that is
answered, with the state before it and its answer; the replies of a connection are those of its
turns, and its turns are its lines in order, without the blank ones.
-/

set_option autoImplicit false

namespace SpeechService

theorem SpeechEngine.synthesize_ok {engine : SpeechEngine} {activity after : Activity}
    {request : SynthesisRequest} {stream : SynthesisStream}
    (h : engine.synthesize activity request = (.ok stream, after)) :
    (Text.isBlankText request.text = true ∧ stream = .empty) ∨
      (Text.isBlankText request.text = false ∧
        ∃ voice blocks, stream = .ofBlocks voice blocks) := by
  cases trimmed : Text.trimmed? request.text with
  | none =>
    rw [synthesize, VoiceRegistry.speak, trimmed] at h
    cases h
    exact .inl ⟨(Text.trimmed?_eq_none_iff _).1 trimmed, rfl⟩
  | some text =>
    have spoken : Text.isBlankText request.text = false := by
      rw [Bool.eq_false_iff]
      intro blank
      rw [(Text.trimmed?_eq_none_iff _).2 blank] at trimmed
      cases trimmed
    rw [synthesize, VoiceRegistry.speak, trimmed] at h
    generalize engine.voices.resolve engine.config.voiceMap request.voice request.language = voice
      at h
    cases rendered : voice.render activity.log.voices text (.ofSpeed request.speed) with
    | error failure =>
      simp only [rendered] at h
      cases h
    | ok blocks =>
      simp only [rendered] at h
      cases h
      exact .inr ⟨spoken, voice.id, blocks, rfl⟩

namespace Server

open Wire

def dataFrames (sessionId actionId : String) (datas : List Bytes) : List Response :=
  datas.mapIdx fun index data => .audioChunk {
    data := data
    sequence := UInt64.ofNat index
    duration := 100
    isFinal := false
    sessionId := sessionId
    actionId := actionId }

def finalFrame (sessionId actionId : String) (count : Nat) : Response :=
  .audioChunk {
    data := []
    sequence := UInt64.ofNat count
    duration := 0
    isFinal := true
    sessionId := sessionId
    actionId := actionId }

variable (sessionId actionId : String)

theorem map_ofItem_numbered (number : Nat) {datas : List Bytes}
    (full : ∀ data ∈ datas, data.length = chunkBytes) :
    ((numbered number datas).map Except.ok).map (Response.ofItem sessionId actionId) =
      datas.mapIdx fun index data => Response.audioChunk {
        data := data
        sequence := UInt64.ofNat (number + index)
        duration := 100
        isFinal := false
        sessionId := sessionId
        actionId := actionId } := by
  have tenth : Audio.canonicalDuration chunkBytes = 100 := by decide
  induction datas generalizing number with
  | nil => rfl
  | cons data datas ih =>
    have later := ih (number + 1) fun other mem => full other (List.mem_cons_of_mem data mem)
    rw [numbered, List.map_cons, List.map_cons, later, List.mapIdx_cons]
    congr 1
    · rw [Response.ofItem, ChunkMessage.ofChunk, AudioChunk.ofData,
        full data List.mem_cons_self, tenth]
      rfl
    · congr 1
      funext index other
      have shift : number + 1 + index = number + (index + 1) := by omega
      rw [shift]

theorem flatMap_events_numbered (number : Nat) (datas : List Bytes) :
    ((numbered number datas).map Except.ok).flatMap StreamItem.events =
      List.replicate datas.length .chunkEmitted := by
  induction datas generalizing number with
  | nil => rfl
  | cons data datas ih =>
    rw [numbered, List.map_cons, List.flatMap_cons, ih, List.length_cons, List.replicate_succ]
    rfl

theorem any_failed_numbered (number : Nat) (datas : List Bytes) :
    ((numbered number datas).map (Except.ok (ε := Failure))).any (·.isOk == false) = false := by
  rw [List.any_map, List.any_eq_false]
  intro chunk _
  rw [Function.comp_apply]
  exact Bool.false_ne_true

/-- The state after a worker has served a request and the engine has done this. -/
def ServiceState.served (state : ServiceState) (activity : Activity) : ServiceState :=
  { state.takeWorker with activity := activity }.returnWorker

/-- What the answer to a request can be. -/
inductive Answered (service : Service) (state : ServiceState) : Request → Answer → Prop
  | status : Answered service state .status ⟨[.status (service.status state)], .ok, state⟩
  | unknownTask (message : TranscribeMessage)
      (unknown : RecognitionTask.ofName? message.task = none) :
      Answered service state (.transcribe message)
        (.refusal state (Failure.protocol ("unknown task '" ++ message.task ++ "'")).message)
  | refused (message : TranscribeMessage) (request : TranscriptionRequest) (failure : Failure)
      (activity : Activity) (known : message.engineRequest = .ok request)
      (outcome : service.engine.transcribe state.activity request = (.refused failure, activity)) :
      Answered service state (.transcribe message)
        (.refusal (state.served activity) failure.message)
  | transcribed (message : TranscribeMessage) (request : TranscriptionRequest)
      (transcription : Transcription) (reply : TranscriptionMessage) (activity : Activity)
      (known : message.engineRequest = .ok request)
      (outcome : service.engine.transcribe state.activity request =
        (.answered transcription, activity))
      (made : reply = .ofTranscription transcription message.sessionId message.actionId)
      (carries : reply.sessionId = message.sessionId ∧ reply.actionId = message.actionId) :
      Answered service state (.transcribe message)
        ⟨[.transcription reply], .ok, state.served activity⟩
  | crashed (message : TranscribeMessage) (request : TranscriptionRequest) (activity : Activity)
      (known : message.engineRequest = .ok request)
      (outcome : service.engine.transcribe state.activity request = (.crashed, activity)) :
      Answered service state (.transcribe message) ⟨[], .crashed, state.served activity⟩
  | notStarted (message : SynthesizeMessage) (failure : Failure) (activity : Activity)
      (started : service.engine.synthesize state.activity message.engineRequest =
        (.error failure, activity)) :
      Answered service state (.synthesize message)
        (.refusal (state.served activity) failure.message)
  | silent (message : SynthesizeMessage) (activity : Activity)
      (blank : Text.isBlankText message.text = true)
      (started : service.engine.synthesize state.activity message.engineRequest =
        (.ok .empty, activity)) :
      Answered service state (.synthesize message)
        ⟨[finalFrame message.sessionId message.actionId 0], .ok, state.served activity⟩
  | spoken (message : SynthesizeMessage) (voice : String) (blocks : List BlockItem)
      (datas : List Bytes) (activity : Activity)
      (text : Text.isBlankText message.text = false)
      (started : service.engine.synthesize state.activity message.engineRequest =
        (.ok (.ofBlocks voice blocks), activity))
      (whole : failure? blocks = none) (full : ∀ data ∈ datas, data.length = 3200)
      (audio : ∃ silence < 3200, datas.flatten = canonicalAudio blocks ++ .replicate silence 0) :
      Answered service state (.synthesize message)
        ⟨dataFrames message.sessionId message.actionId datas ++
            [finalFrame message.sessionId message.actionId datas.length],
          .ok, state.served (activity.note (.replicate datas.length .chunkEmitted))⟩
  | brokenOff (message : SynthesizeMessage) (voice : String) (blocks : List BlockItem)
      (datas : List Bytes) (failure : Failure) (activity : Activity)
      (text : Text.isBlankText message.text = false)
      (started : service.engine.synthesize state.activity message.engineRequest =
        (.ok (.ofBlocks voice blocks), activity))
      (broken : failure? blocks = some failure) (full : ∀ data ∈ datas, data.length = 3200)
      (audio : datas.flatten = (canonicalAudio blocks).take (3200 * datas.length)) :
      Answered service state (.synthesize message)
        ⟨dataFrames message.sessionId message.actionId datas ++ [.error failure.message],
          .failed, state.served (activity.note (.replicate datas.length .chunkEmitted))⟩

theorem ofTranscription_carries (transcription : Transcription) :
    (TranscriptionMessage.ofTranscription transcription sessionId actionId).sessionId = sessionId ∧
      (TranscriptionMessage.ofTranscription transcription sessionId actionId).actionId =
        actionId := by
  rw [TranscriptionMessage.ofTranscription]
  cases transcription.translation <;> exact ⟨rfl, rfl⟩

variable (service : Service) (state : ServiceState)

private theorem transcribe_answered (message : TranscribeMessage) :
    Answered service state (.transcribe message) (service.transcribe state message) := by
  cases task : RecognitionTask.ofName? message.task with
  | none =>
    rw [Service.transcribe, TranscribeMessage.engineRequest, task]
    exact .unknownTask message task
  | some named =>
    have known : ∃ request, message.engineRequest = .ok request := by
      rw [TranscribeMessage.engineRequest, task]
      exact ⟨_, rfl⟩
    obtain ⟨request, known⟩ := known
    rcases outcome : service.engine.transcribe state.activity request with
      ⟨transcription | failure | _, activity⟩
    all_goals
      have served := outcome
      rw [show state.activity = state.takeWorker.activity from rfl] at served
      simp only [Service.transcribe, known, served]
    · exact .transcribed message request transcription _ activity known outcome rfl
        (ofTranscription_carries _ _ transcription)
    · exact .refused message request failure activity known outcome
    · exact .crashed message request activity known outcome

private theorem synthesize_of_started {message : SynthesizeMessage} {stream : SynthesisStream}
    {activity : Activity} {datas : List Bytes} {last : List StreamItem}
    (started : service.engine.synthesize state.activity message.engineRequest =
      (.ok stream, activity))
    (items : stream.withFinalMarker.drain.1 = (numbered 0 datas).map .ok ++ last)
    (quiet : last.flatMap StreamItem.events = [])
    (full : ∀ data ∈ datas, data.length = 3200) :
    service.synthesize state message =
      ⟨dataFrames message.sessionId message.actionId datas ++
          last.map (Response.ofItem message.sessionId message.actionId),
        if last.any (·.isOk == false) then .failed else .ok,
        state.served (activity.note (.replicate datas.length .chunkEmitted))⟩ := by
  have frames := map_ofItem_numbered message.sessionId message.actionId 0 full
  simp only [Nat.zero_add] at frames
  rw [show state.activity = state.takeWorker.activity from rfl] at started
  simp only [Service.synthesize, started, Activity.readAll, items, List.map_append, frames,
    List.any_append, any_failed_numbered, List.flatMap_append, flatMap_events_numbered, quiet,
    List.append_nil, Bool.false_or]
  rfl

private theorem synthesize_answered (message : SynthesizeMessage) :
    Answered service state (.synthesize message) (service.synthesize state message) := by
  rcases started : service.engine.synthesize state.activity message.engineRequest with
    ⟨failure | stream, activity⟩
  · have served := started
    rw [show state.activity = state.takeWorker.activity from rfl] at served
    simp only [Service.synthesize, served]
    exact .notStarted message failure activity started
  · rcases SpeechEngine.synthesize_ok started with ⟨blank, rfl⟩ | ⟨text, voice, blocks, rfl⟩
    · have items : SynthesisStream.empty.withFinalMarker.drain.1 =
          (numbered 0 []).map .ok ++ [.ok (.finalMarker 0)] :=
        SynthesisStream.drain_empty_withFinalMarker
      have answer := synthesize_of_started service state started items rfl (by simp)
      rw [answer]
      exact .silent message activity blank started
    · obtain ⟨chunks, rest, cut, items⟩ := SynthesisStream.drain_ofBlocks voice blocks true
      rw [if_pos rfl, length_numbered] at items
      have full := cut.length_allChunks (failure? blocks)
      cases failed : failure? blocks with
      | none =>
        rw [failed] at items full
        have answer := synthesize_of_started service state started items rfl full
        rw [answer]
        exact .spoken message voice blocks _ activity text started failed full
          cut.flatten_append_tailChunk.2
      | some failure =>
        rw [failed] at items full
        have answer := synthesize_of_started service state started items rfl full
        rw [answer]
        exact .brokenOff message voice blocks _ failure activity text started failed full
          cut.flatten_eq_take

theorem answer_answered (request : Request) :
    Answered service state request (service.answer state request) := by
  cases request with
  | transcribe message => exact transcribe_answered service state message
  | synthesize message => exact synthesize_answered service state message
  | status => exact .status

end Server

/-- A recognizer that never breaks down. -/
def Recognizer.Steady (recognizer : Recognizer) : Prop :=
  ∀ earlier call, (recognizer.recognize earlier call).result ≠ .crashed

namespace Server

open Wire

/-- A line without an answer: one of blank characters that is not too long. -/
def Service.passesOver (service : Service) (line : Bytes) : Bool :=
  decide (line.length ≤ service.maxRequestBytes) && (Text.ofBytes? line).any Text.isBlankText

/-- What an answered line holds: a request, or a reason to refuse it. -/
inductive Service.Holds (service : Service) (line : Bytes) : Except String Request → Prop
  | overlong (long : service.maxRequestBytes < line.length) :
      Holds service line
        (.error ("request line exceeds " ++ toString service.maxRequestBytes ++ " bytes"))
  | notUtf8 (fits : line.length ≤ service.maxRequestBytes) (garbled : Text.ofBytes? line = none) :
      Holds service line (.error "malformed request: not UTF-8")
  | malformed (text : String) (fault : Json.Fault) (fits : line.length ≤ service.maxRequestBytes)
      (read : Text.ofBytes? line = some text) (some? : Text.isBlankText text = false)
      (refused : Request.ofText (Text.trim text) = .error fault) :
      Holds service line (.error ("malformed request: " ++ fault.message))
  | request (text : String) (request : Request) (fits : line.length ≤ service.maxRequestBytes)
      (read : Text.ofBytes? line = some text) (some? : Text.isBlankText text = false)
      (accepted : Request.ofText (Text.trim text) = .ok request) :
      Holds service line (.ok request)

theorem Service.request?_cases (service : Service) (line : Bytes) :
    (service.passesOver line = true ∧
        (LineRead.ofLine service.maxRequestBytes line).request? service.maxRequestBytes = none) ∨
      (service.passesOver line = false ∧ ∃ held, service.Holds line held ∧
        (LineRead.ofLine service.maxRequestBytes line).request? service.maxRequestBytes =
          some held) := by
  by_cases fits : line.length ≤ service.maxRequestBytes
  · rw [LineRead.ofLine, if_pos fits, LineRead.request?, passesOver, decide_eq_true fits,
      Bool.true_and]
    cases read : Text.ofBytes? line with
    | none => exact .inr ⟨rfl, _, .notUtf8 fits read, rfl⟩
    | some text =>
      rw [Option.any_some]
      cases blank : Text.isBlankText text with
      | true =>
        refine .inl ⟨rfl, ?_⟩
        simp only [(Text.trimmed?_eq_none_iff text).2 blank]
      | false =>
        have trimmed : Text.trimmed? text = some (Text.trim text) :=
          Text.trimmed?_eq_some_iff.2 ⟨blank, rfl⟩
        refine .inr ⟨rfl, ?_⟩
        simp only [trimmed]
        cases parsed : Request.ofText (Text.trim text) with
        | ok request => exact ⟨_, .request text request fits read blank parsed, rfl⟩
        | error fault => exact ⟨_, .malformed text fault fits read blank parsed, rfl⟩
  · rw [LineRead.ofLine, if_neg fits, LineRead.request?, passesOver, decide_eq_false fits,
      Bool.false_and]
    exact .inr ⟨rfl, _, .overlong (by omega), rfl⟩

theorem Service.Holds.request? {service : Service} {line : Bytes}
    {held : Except String Request} (h : service.Holds line held) :
    (LineRead.ofLine service.maxRequestBytes line).request? service.maxRequestBytes =
      some held := by
  have trimmed {text : String} (some? : Text.isBlankText text = false) :
      Text.trimmed? text = some (Text.trim text) :=
    Text.trimmed?_eq_some_iff.2 ⟨some?, rfl⟩
  cases h with
  | overlong long =>
    rw [LineRead.ofLine, if_neg (by omega)]
    rfl
  | notUtf8 fits garbled =>
    rw [LineRead.ofLine, if_pos fits, LineRead.request?, garbled]
    rfl
  | malformed text fault fits read some? refused =>
    rw [LineRead.ofLine, if_pos fits, LineRead.request?, read]
    simp only [trimmed some?, refused]
    rfl
  | request text request fits read some? accepted =>
    rw [LineRead.ofLine, if_pos fits, LineRead.request?, read]
    simp only [trimmed some?, accepted]

/-- An answered line: the state before it, its bytes and its answer. -/
structure Turn where
  before : ServiceState
  line : Bytes
  answer : Answer

def Turn.replies (turn : Turn) : List Response := turn.answer.responses

def Service.turns (service : Service) (state : ServiceState) : List Bytes → List Turn
  | [] => []
  | line :: rest =>
    let answer := service.answerLine state (.ofLine service.maxRequestBytes line)
    let later := if answer.ending = .crashed then [] else service.turns answer.state rest
    if service.passesOver line then later else ⟨state, line, answer⟩ :: later

/-- The state in which the first line of a connection is read. -/
def ServiceState.connected (state : ServiceState) : ServiceState :=
  { state with
    connectionsOpen := state.connectionsOpen + 1
    connectionsTotal := state.connectionsTotal + 1 }

variable (service : Service) (state : ServiceState)

def Answer.counted (answer : Answer) : Answer :=
  match answer.ending with
  | .ok => { answer with state := { answer.state with requestsOk := answer.state.requestsOk + 1 } }
  | .failed =>
    { answer with state := { answer.state with requestsFailed := answer.state.requestsFailed + 1 } }
  | .crashed => answer

theorem Answer.counted_responses (answer : Answer) :
    answer.counted.responses = answer.responses := by
  rw [counted]
  cases answer.ending <;> rfl

theorem Answer.counted_ending (answer : Answer) : answer.counted.ending = answer.ending := by
  obtain ⟨responses, ending, after⟩ := answer
  cases ending <;> rfl

theorem answerLine_of_none {read : LineRead}
    (h : read.request? service.maxRequestBytes = none) :
    service.answerLine state read = ⟨[], .ok, state⟩ := by
  rw [Service.answerLine, h]

theorem serveLines_cons_of_none {read : LineRead}
    (h : read.request? service.maxRequestBytes = none) (reads : List LineRead) :
    service.serveLines state (read :: reads) = service.serveLines state reads := by
  simp only [Service.serveLines, answerLine_of_none service state h]
  rfl

theorem answerLine_of_error {read : LineRead} {message : String}
    (h : read.request? service.maxRequestBytes = some (.error message)) :
    service.answerLine state read = (Answer.refusal state message).counted := by
  rw [Service.answerLine, h]
  rfl

theorem answerLine_of_request {read : LineRead} {request : Request}
    (h : read.request? service.maxRequestBytes = some (.ok request)) :
    service.answerLine state read = (service.answer state request).counted := by
  rw [Service.answerLine, h]
  rfl

theorem turns_of_passesOver {line : Bytes} (h : service.passesOver line = true)
    (rest : List Bytes) : service.turns state (line :: rest) = service.turns state rest := by
  rcases service.request?_cases line with ⟨-, nothing⟩ | ⟨other, -⟩
  · simp only [Service.turns, answerLine_of_none service state nothing, h, if_true]
    rfl
  · rw [h] at other
    cases other

theorem turns_of_answered {line : Bytes} (h : service.passesOver line = false)
    (rest : List Bytes) :
    service.turns state (line :: rest) =
      let answer := service.answerLine state (.ofLine service.maxRequestBytes line)
      ⟨state, line, answer⟩ ::
        if answer.ending = .crashed then [] else service.turns answer.state rest := by
  simp only [Service.turns, h, Bool.false_eq_true, if_false]

theorem answer_of_mem_turns (lines : List Bytes) {turn : Turn}
    (mem : turn ∈ service.turns state lines) :
    turn.answer = service.answerLine turn.before (.ofLine service.maxRequestBytes turn.line) := by
  induction lines generalizing state with
  | nil => cases mem
  | cons line rest ih =>
    cases blank : service.passesOver line with
    | true =>
      rw [turns_of_passesOver service state blank] at mem
      exact ih state mem
    | false =>
      rw [turns_of_answered service state blank] at mem
      rcases List.mem_cons.1 mem with rfl | later
      · rfl
      · split at later
        · cases later
        · exact ih _ later

theorem replies_of_mem_turns (lines : List Bytes) {turn : Turn} {request : Request}
    (mem : turn ∈ service.turns state lines) (held : service.Holds turn.line (.ok request)) :
    turn.replies = (service.answer turn.before request).responses := by
  have answer := answer_of_mem_turns service state lines mem
  rw [answerLine_of_request service turn.before held.request?] at answer
  rw [Turn.replies, answer, Answer.counted_responses]

theorem replies_of_refused (lines : List Bytes) {turn : Turn} {message : String}
    (mem : turn ∈ service.turns state lines) (held : service.Holds turn.line (.error message)) :
    turn.replies = [.error message] := by
  have answer := answer_of_mem_turns service state lines mem
  rw [answerLine_of_error service turn.before held.request?] at answer
  rw [Turn.replies, answer, Answer.counted_responses]
  rfl

theorem serveLines_eq_flatMap (lines : List Bytes) :
    (service.serveLines state (lines.map (LineRead.ofLine service.maxRequestBytes))).1 =
      (service.turns state lines).flatMap Turn.replies := by
  induction lines generalizing state with
  | nil => rfl
  | cons line rest ih =>
    rcases service.request?_cases line with ⟨blank, nothing⟩ | ⟨answered, -⟩
    · rw [turns_of_passesOver service state blank, ← ih, List.map_cons,
        serveLines_cons_of_none service state nothing]
    · rw [turns_of_answered service state answered]
      simp only [List.map_cons, Service.serveLines, List.flatMap_cons]
      split
      · rw [List.flatMap_nil, List.append_nil]
        rfl
      · rw [← ih]
        rfl

theorem serveLines_of_unasked {reads : List LineRead}
    (h : reads.filterMap (LineRead.request? service.maxRequestBytes) = []) :
    (service.serveLines state reads).1 = [] := by
  induction reads with
  | nil => rfl
  | cons read reads ih =>
    cases held : read.request? service.maxRequestBytes with
    | some request =>
      rw [List.filterMap_cons_some held] at h
      cases h
    | none =>
      rw [List.filterMap_cons_none held] at h
      rw [serveLines_cons_of_none service state held]
      exact ih h

theorem serveLines_of_request {reads : List LineRead} {request : Request}
    (h : reads.filterMap (LineRead.request? service.maxRequestBytes) = [.ok request]) :
    (service.serveLines state reads).1 = (service.answer state request).responses := by
  induction reads with
  | nil => cases h
  | cons read reads ih =>
    cases held : read.request? service.maxRequestBytes with
    | none =>
      rw [List.filterMap_cons_none held] at h
      rw [serveLines_cons_of_none service state held]
      exact ih h
    | some asked =>
      rw [List.filterMap_cons_some held, List.cons.injEq] at h
      obtain ⟨rfl, nothing⟩ := h
      have unasked :=
        serveLines_of_unasked service (service.answer state request).counted.state nothing
      simp only [Service.serveLines, answerLine_of_request service state held]
      split
      · exact Answer.counted_responses _
      · rw [unasked, List.append_nil]
        exact Answer.counted_responses _

theorem serve_of_request {fills : Fills} {request : Request}
    (h : (readLines service.maxRequestBytes fills).filterMap
      (LineRead.request? service.maxRequestBytes) = [.ok request]) :
    (service.serve state fills).1 = (service.answer state.connected request).responses :=
  serveLines_of_request service state.connected h

/-- What a line is answered with: an error if it holds no request, else the complete answer to its
request. -/
inductive Replied (line : Bytes) : List Response → Prop
  | error (message : String) (held : service.Holds line (.error message)) :
      Replied line [.error message]
  | request (request : Request) (answer : Answer) (held : service.Holds line (.ok request))
      (answered : Answered service state request answer) (complete : answer.ending ≠ .crashed) :
      Replied line answer.responses

theorem transcribe_ne_crashed {engine : SpeechEngine} (activity : Activity)
    (request : TranscriptionRequest) (steady : engine.recognizer.Steady) :
    (engine.transcribe activity request).1 ≠ .crashed := by
  simp only [SpeechEngine.transcribe, Transcriber.transcribe]
  split
  · intro h
    cases h
  · split
    · intro h
      cases h
    · split
      · rename_i crashed
        exact absurd crashed (steady _ _)
      · intro h
        cases h
      · intro h
        cases h

theorem Answered.complete {request : Request} {answer : Answer}
    (h : Answered service state request answer) (steady : service.engine.recognizer.Steady) :
    answer.ending ≠ .crashed := by
  cases h with
  | crashed message request activity known outcome =>
    have never := transcribe_ne_crashed state.activity request steady
    rw [outcome] at never
    exact absurd rfl never
  | _ => intro ended; cases ended

variable {service}

/-- An answered line is replied to once, and the connection goes on. -/
theorem answerLine_replied {line : Bytes} (answered : service.passesOver line = false)
    (steady : service.engine.recognizer.Steady) :
    Replied service state line
        (service.answerLine state (.ofLine service.maxRequestBytes line)).responses ∧
      (service.answerLine state (.ofLine service.maxRequestBytes line)).ending ≠ .crashed := by
  rcases service.request?_cases line with ⟨blank, -⟩ | ⟨-, held, holds, read⟩
  · rw [answered] at blank
    cases blank
  · cases held with
    | error message =>
      rw [answerLine_of_error service state read, Answer.counted_responses, Answer.counted_ending]
      refine ⟨.error message holds, ?_⟩
      intro ended
      cases ended
    | ok request =>
      have answer := answer_answered service state request
      have complete := answer.complete service state steady
      rw [answerLine_of_request service state read, Answer.counted_responses,
        Answer.counted_ending]
      exact ⟨.request request _ holds answer complete, complete⟩

theorem map_line_turns (steady : service.engine.recognizer.Steady) (lines : List Bytes) :
    (service.turns state lines).map Turn.line = lines.filter (!service.passesOver ·) ∧
      ∀ turn ∈ service.turns state lines,
        Replied service turn.before turn.line turn.replies := by
  induction lines generalizing state with
  | nil =>
    refine ⟨rfl, ?_⟩
    intro turn mem
    cases mem
  | cons line rest ih =>
    cases blank : service.passesOver line with
    | true =>
      rw [turns_of_passesOver service state blank, List.filter_cons, blank]
      exact ih state
    | false =>
      obtain ⟨replied, complete⟩ := answerLine_replied state blank steady
      obtain ⟨later, each⟩ :=
        ih (service.answerLine state (.ofLine service.maxRequestBytes line)).state
      simp only [turns_of_answered service state blank, if_neg complete, List.map_cons, later,
        List.filter_cons, blank]
      refine ⟨rfl, ?_⟩
      intro turn mem
      rcases List.mem_cons.1 mem with rfl | after
      · exact replied
      · exact each turn after

/-- The replies of a connection are, in the order of its lines, those of one turn for every line
that is not blank. -/
theorem serve_eq_flatMap (service : Service) (state : ServiceState) (fills : Fills)
    (steady : service.engine.recognizer.Steady) :
    let turns := service.turns state.connected (streamLines fills.flatten)
    (service.serve state fills).1 = turns.flatMap Turn.replies ∧
      turns.map Turn.line = (streamLines fills.flatten).filter (!service.passesOver ·) ∧
      ∀ turn ∈ turns, Replied service turn.before turn.line turn.replies := by
  intro turns
  obtain ⟨each, replied⟩ := map_line_turns state.connected steady (streamLines fills.flatten)
  refine ⟨?_, each, replied⟩
  have answers := serveLines_eq_flatMap service state.connected (streamLines fills.flatten)
  rw [← readLines_eq_map] at answers
  exact answers

/-- A service whose one voice says one sample, for lines of at most forty-one bytes. -/
def terseService : Service where
  engine := {
    config := .standard
    voices := .single ⟨⟨Audio.canonicalRate, fun _ _ _ =>
      .ok [.ok ⟨[7, 7], Audio.canonicalRate⟩]⟩, "still"⟩
    recognizer := levelRecognizer
    translator := none }
  workers := 1
  maxRequestBytes := 41
  workers_pos := Nat.one_pos

theorem answer_terseService (state : ServiceState) :
    (terseService.answer state (.synthesize { text := "a" })).responses =
      dataFrames "" "" [padded [7, 7]] ++ [finalFrame "" "" 1] := by
  let blocks : List BlockItem := [.ok ⟨[7, 7], Audio.canonicalRate⟩]
  obtain ⟨chunks, rest, cut, items⟩ := SynthesisStream.drain_ofBlocks "still" blocks true
  have sample : Cut (canonicalAudio blocks) [] [7, 7] := Cut.of_lt (by decide)
  obtain ⟨rfl, rfl⟩ := cut.unique sample
  have full : ∀ data ∈ [padded [7, 7]], data.length = chunkBytes := by
    intro data mem
    rw [List.mem_singleton.1 mem]
    exact length_padded (by decide)
  have frames := map_ofItem_numbered "" "" 0 full
  have read : (terseService.answer state (.synthesize { text := "a" })).responses =
      (SynthesisStream.ofBlocks "still" blocks).withFinalMarker.drain.1.map
        (Response.ofItem "" "") := rfl
  rw [if_pos rfl] at items
  rw [read, items, List.map_append]
  exact congrArg₂ (· ++ ·) frames rfl

theorem serve_eq_flatMap_terseService :
    let state := ServiceState.fresh terseService .fresh
    let audio := Text.bytes "\x7b\"type\":\"transcribe\",\"sampleRate\":16000\x7d"
    let speech := Text.bytes "\x7b\"type\":\"synthesize\",\"text\":\"a\"\x7d"
    let fills : Fills :=
      [newline :: audio.take 7, audio.drop 7 ++ newline :: .replicate 42 97, newline :: speech]
    let turns := terseService.turns state.connected (streamLines fills.flatten)
    terseService.engine.recognizer.Steady ∧
      (terseService.serve state fills).1 =
        [.transcription { language := "en" }, .error "request line exceeds 41 bytes",
          .audioChunk { data := padded [7, 7], duration := 100 },
          .audioChunk { sequence := 1, isFinal := true }] ∧
      turns.map Turn.line = [audio, .replicate 42 97, speech] ∧
      ∀ turn ∈ turns, Replied terseService turn.before turn.line turn.replies := by
  intro state audio speech fills turns
  have steady : terseService.engine.recognizer.Steady := by
    intro earlier call crashed
    cases crashed
  have lines : (streamLines fills.flatten).filter (!terseService.passesOver ·) =
      [audio, .replicate 42 97, speech] := by
    decide +kernel
  obtain ⟨replies, each, replied⟩ := serve_eq_flatMap terseService state fills steady
  refine ⟨steady, ?_, each.trans lines, replied⟩
  obtain ⟨first, others, split, heard, each⟩ := List.map_eq_cons_iff.1 (each.trans lines)
  obtain ⟨second, others, rfl, long, each⟩ := List.map_eq_cons_iff.1 each
  obtain ⟨third, others, rfl, spoken, each⟩ := List.map_eq_cons_iff.1 each
  obtain rfl := List.map_eq_nil_iff.1 each
  have mem : ∀ turn ∈ [first, second, third], turn ∈ turns := by
    intro turn
    simp only [turns, split, imp_self]
  have asked : terseService.Holds first.line (.ok (.transcribe { sampleRate := 16000 })) := by
    rw [heard]
    exact .request "\x7b\"type\":\"transcribe\",\"sampleRate\":16000\x7d" _ (by decide +kernel)
      (by decide +kernel) (by decide +kernel) rfl
  have refused : terseService.Holds second.line (.error "request line exceeds 41 bytes") := by
    rw [long]
    exact .overlong (by decide)
  have told : terseService.Holds third.line (.ok (.synthesize { text := "a" })) := by
    rw [spoken]
    exact .request "\x7b\"type\":\"synthesize\",\"text\":\"a\"\x7d" _ (by decide +kernel)
      (by decide +kernel) (by decide +kernel) rfl
  have transcription : first.replies = [.transcription { language := "en" }] :=
    replies_of_mem_turns terseService _ _ (mem first (by simp)) asked
  have refusal : second.replies = [.error "request line exceeds 41 bytes"] :=
    replies_of_refused terseService _ _ (mem second (by simp)) refused
  have synthesis : third.replies = dataFrames "" "" [padded [7, 7]] ++ [finalFrame "" "" 1] :=
    (replies_of_mem_turns terseService _ _ (mem third (by simp)) told).trans
      (answer_terseService third.before)
  refine replies.trans ?_
  simp only [split, List.flatMap_cons, List.flatMap_nil, transcription, refusal, synthesis]
  rfl

end Server

end SpeechService
