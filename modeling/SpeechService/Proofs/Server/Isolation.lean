import SpeechService.Proofs.Engine.Counting
import SpeechService.Proofs.Server.Tally

/-!
Lines that are no valid requests stand alone: without them every other line is answered as before,
and the engine does the same. So do connections: it does not matter over which of them a line comes.
What such lines change of the state, the failures counted so far and the numbers of connections, is
noticed by no request.
-/

set_option autoImplicit false

namespace SpeechService

def Wire.Response.untimed : Wire.Response → Wire.Response
  | .transcription message => .transcription { message with inferenceDuration := 0 }
  | .audioChunk message => .audioChunk message
  | .status message => .status message
  | .error message => .error message

theorem Wire.ofTranscription_untimed {first second : Transcription}
    (same : first.untimed = second.untimed) (sessionId actionId : String) :
    (Response.transcription (.ofTranscription first sessionId actionId)).untimed =
      (Response.transcription (.ofTranscription second sessionId actionId)).untimed := by
  obtain ⟨text, language, segments, elapsed, translation⟩ := first
  cases second
  cases same
  cases translation <;> rfl

namespace Server

open Wire

/-- A change of the state that requests do not notice and that their answers keep. -/
structure Unnoticed (change : ServiceState → ServiceState) : Prop where
  activity : ∀ state, (change state).activity = state.activity
  served : ∀ state activity, (change state).served activity = change (state.served activity)
  countedOk : ∀ state, { change state with requestsOk := (change state).requestsOk + 1 } =
    change { state with requestsOk := state.requestsOk + 1 }
  countedFailed : ∀ state,
    { change state with requestsFailed := (change state).requestsFailed + 1 } =
      change { state with requestsFailed := state.requestsFailed + 1 }

def ServiceState.addFailed (state : ServiceState) (count : Nat) : ServiceState :=
  { state with requestsFailed := state.requestsFailed + count }

def ServiceState.withConnections (state : ServiceState) (opened total : Nat) : ServiceState :=
  { state with connectionsOpen := opened, connectionsTotal := total }

theorem ServiceState.addFailed_addFailed (state : ServiceState) (first second : Nat) :
    (state.addFailed first).addFailed second = state.addFailed (first + second) := by
  simp only [addFailed, Nat.add_assoc]

theorem unnoticed_addFailed (count : Nat) : Unnoticed (·.addFailed count) where
  activity _ := rfl
  served _ _ := rfl
  countedOk _ := rfl
  countedFailed state := by
    simp only [ServiceState.addFailed, Nat.add_right_comm]

theorem unnoticed_withConnections (opened total : Nat) :
    Unnoticed (·.withConnections opened total) :=
  ⟨fun _ => rfl, fun _ _ => rfl, fun _ => rfl, fun _ => rfl⟩

def Service.withRecognizer (service : Service) (recognizer : Recognizer) : Service :=
  { service with engine := service.engine.withRecognizer recognizer }

@[simp] theorem Service.withRecognizer_maxRequestBytes (service : Service)
    (recognizer : Recognizer) :
    (service.withRecognizer recognizer).maxRequestBytes = service.maxRequestBytes := rfl

/-- What two answers have in common when the second comes from a changed state, and perhaps from a
recognizer that takes another time. -/
structure Answer.Alike (change : ServiceState → ServiceState) (first second : Answer) : Prop where
  responses : second.responses.map Response.untimed = first.responses.map Response.untimed
  ending : second.ending = first.ending
  state : second.state = change first.state

namespace Answer

variable {change : ServiceState → ServiceState}

theorem Alike.counted {first second : Answer} (h : first.Alike change second)
    (unnoticed : Unnoticed change) : first.counted.Alike change second.counted := by
  obtain ⟨messages, same, state⟩ := h
  rw [Answer.counted, Answer.counted, same]
  cases ended : first.ending with
  | ok =>
    refine ⟨messages, rfl, ?_⟩
    rw [state]
    exact unnoticed.countedOk first.state
  | failed =>
    refine ⟨messages, rfl, ?_⟩
    rw [state]
    exact unnoticed.countedFailed first.state
  | crashed => exact ⟨messages, same, state⟩

def ofOutcome (message : TranscribeMessage) (state : ServiceState) : Outcome Transcription → Answer
  | .answered transcription =>
    ⟨[.transcription (.ofTranscription transcription message.sessionId message.actionId)], .ok,
      state⟩
  | .refused failure => .refusal state failure.message
  | .crashed => ⟨[], .crashed, state⟩

theorem ofOutcome_alike {first second : Outcome Transcription}
    (same : second.untimed = first.untimed) (message : TranscribeMessage) (state : ServiceState) :
    (ofOutcome message state first).Alike change (ofOutcome message (change state) second) := by
  cases first with
  | answered transcription =>
    cases second with
    | answered other =>
      have same : other.untimed = transcription.untimed := Outcome.answered.inj same
      exact ⟨congrArg (fun reply => [reply]) (ofTranscription_untimed same _ _), rfl, rfl⟩
    | refused failure => cases same
    | crashed => cases same
  | refused failure =>
    cases second with
    | answered other => cases same
    | refused other =>
      cases same
      exact ⟨rfl, rfl, rfl⟩
    | crashed => cases same
  | crashed =>
    cases second with
    | answered other => cases same
    | refused other => cases same
    | crashed => exact ⟨rfl, rfl, rfl⟩

/-- The answer to a request for speech that the engine has started, or has refused. -/
def ofStarted (message : SynthesizeMessage) (state : ServiceState) :
    Except Failure SynthesisStream × Activity → Answer
  | (.error failure, activity) => .refusal (state.served activity) failure.message
  | (.ok stream, activity) =>
    let (items, _, activity) := activity.readAll stream.withFinalMarker
    { responses := items.map (Response.ofItem message.sessionId message.actionId)
      ending := if items.any (·.isOk == false) then .failed else .ok
      state := state.served activity }

theorem ofStarted_alike (unnoticed : Unnoticed change) (message : SynthesizeMessage)
    (state : ServiceState) (started : Except Failure SynthesisStream × Activity) :
    (ofStarted message state started).Alike change (ofStarted message (change state) started) := by
  obtain ⟨failure | stream, activity⟩ := started
  · simp only [ofStarted, unnoticed.served]
    exact ⟨rfl, rfl, rfl⟩
  · simp only [ofStarted, unnoticed.served]
    exact ⟨rfl, rfl, rfl⟩

end Answer

theorem transcribe_of_known (service : Service) (state : ServiceState)
    {message : TranscribeMessage} {request : TranscriptionRequest}
    (known : message.engineRequest = .ok request) :
    service.transcribe state message =
      .ofOutcome message
        (state.served (service.engine.transcribe state.activity request).2)
        (service.engine.transcribe state.activity request).1 := by
  simp only [Service.transcribe, known]
  rfl

theorem synthesize_eq_ofStarted (service : Service) (state : ServiceState)
    (message : SynthesizeMessage) :
    service.synthesize state message =
      .ofStarted message state
        (service.engine.synthesize state.activity message.engineRequest) := by
  rcases started : service.engine.synthesize state.activity message.engineRequest with
    ⟨failure | stream, activity⟩
  all_goals
    rw [show state.activity = state.takeWorker.activity from rfl] at started
    simp only [Service.synthesize, started]
    rfl

section Alike

variable {change : ServiceState → ServiceState} {service : Service} {recognizer : Recognizer}
  (unnoticed : Unnoticed change) (same : service.engine.recognizer.SameResults recognizer)
  (state : ServiceState)
include unnoticed same

private theorem transcribe_alike (message : TranscribeMessage) :
    (service.transcribe state message).Alike change
      ((service.withRecognizer recognizer).transcribe (change state) message) := by
  cases known : message.engineRequest with
  | error failure =>
    simp only [Service.transcribe, known]
    exact ⟨rfl, rfl, rfl⟩
  | ok request =>
    obtain ⟨outcome, activity⟩ :=
      SpeechEngine.transcribe_of_sameResults same state.activity request
    have engine : (service.withRecognizer recognizer).engine =
        service.engine.withRecognizer recognizer := rfl
    rw [transcribe_of_known service state known, transcribe_of_known _ _ known, engine,
      unnoticed.activity, activity, unnoticed.served]
    exact Answer.ofOutcome_alike outcome message _

omit same in
private theorem synthesize_alike (message : SynthesizeMessage) :
    (service.synthesize state message).Alike change
      ((service.withRecognizer recognizer).synthesize (change state) message) := by
  have engine : (service.withRecognizer recognizer).engine =
      service.engine.withRecognizer recognizer := rfl
  rw [synthesize_eq_ofStarted, synthesize_eq_ofStarted, engine,
    SpeechEngine.synthesize_withRecognizer, unnoticed.activity]
  exact Answer.ofStarted_alike unnoticed message state _

private theorem answer_alike (request : Request) :
    (service.answer state request).Alike change
      ((service.withRecognizer recognizer).answer (change state) request) := by
  cases request with
  | transcribe message =>
    simp only [Service.answer]
    exact transcribe_alike unnoticed same state message
  | synthesize message =>
    simp only [Service.answer]
    exact synthesize_alike unnoticed state message
  | status =>
    have status :
        (service.withRecognizer recognizer).status (change state) = service.status state := by
      simp only [Service.status, unnoticed.activity]
      rfl
    simp only [Service.answer, status]
    exact ⟨rfl, rfl, rfl⟩

theorem answerLine_alike (read : LineRead) :
    (service.answerLine state read).Alike change
      ((service.withRecognizer recognizer).answerLine (change state) read) := by
  have longest : (service.withRecognizer recognizer).maxRequestBytes = service.maxRequestBytes :=
    rfl
  cases held : read.request? service.maxRequestBytes with
  | none =>
    rw [answerLine_of_none service state held, answerLine_of_none _ _ (longest ▸ held)]
    exact ⟨rfl, rfl, rfl⟩
  | some request =>
    cases request with
    | error message =>
      have refused : (Answer.refusal state message).Alike change
          (.refusal (change state) message) := ⟨rfl, rfl, rfl⟩
      rw [answerLine_of_error service state held, answerLine_of_error _ _ (longest ▸ held)]
      exact refused.counted unnoticed
    | ok request =>
      rw [answerLine_of_request service state held, answerLine_of_request _ _ (longest ▸ held)]
      exact (answer_alike unnoticed same state request).counted unnoticed

theorem serveLines_alike (reads : List LineRead) :
    ((service.withRecognizer recognizer).serveLines (change state) reads).1.map
          Response.untimed =
        (service.serveLines state reads).1.map Response.untimed ∧
      ((service.withRecognizer recognizer).serveLines (change state) reads).2 =
        change (service.serveLines state reads).2 := by
  induction reads generalizing state with
  | nil => exact ⟨rfl, rfl⟩
  | cons read rest ih =>
    obtain ⟨messages, ending, after⟩ := answerLine_alike unnoticed same state read
    simp only [Service.serveLines, ending, after]
    split
    · exact ⟨messages, rfl⟩
    · obtain ⟨later, last⟩ := ih (service.answerLine state read).state
      rw [List.map_append, List.map_append, messages, later]
      exact ⟨rfl, last⟩

end Alike

end Server

theorem Recognizer.SameResults.steady {first second : Recognizer} (same : first.SameResults second)
    (steady : first.Steady) : second.Steady := by
  intro earlier call
  rw [← same]
  exact steady earlier call

namespace Server

open Wire

/-- The answers to lines one by one, up to one whose request breaks down. -/
def Service.answers (service : Service) (state : ServiceState) : List Bytes → List Answer
  | [] => []
  | line :: rest =>
    let answer := service.answerLine state (.ofLine service.maxRequestBytes line)
    answer :: if answer.ending = .crashed then [] else service.answers answer.state rest

variable {service : Service}

theorem complete_answerLine (steady : service.engine.recognizer.Steady) (state : ServiceState)
    (line : Bytes) :
    (service.answerLine state (.ofLine service.maxRequestBytes line)).ending ≠ .crashed := by
  rcases service.request?_cases line with ⟨-, nothing⟩ | ⟨answered, -⟩
  · rw [answerLine_of_none service state nothing]
    intro ended
    cases ended
  · exact (answerLine_replied state answered steady).2

theorem answers_cons (steady : service.engine.recognizer.Steady) (state : ServiceState)
    (line : Bytes) (rest : List Bytes) :
    let answer := service.answerLine state (.ofLine service.maxRequestBytes line)
    service.answers state (line :: rest) = answer :: service.answers answer.state rest := by
  rw [Service.answers, if_neg (complete_answerLine steady state line)]

theorem serveLines_cons (steady : service.engine.recognizer.Steady) (state : ServiceState)
    (line : Bytes) (rest : List LineRead) :
    let answer := service.answerLine state (.ofLine service.maxRequestBytes line)
    service.serveLines state (.ofLine service.maxRequestBytes line :: rest) =
      (answer.responses ++ (service.serveLines answer.state rest).1,
        (service.serveLines answer.state rest).2) := by
  rw [Service.serveLines, if_neg (complete_answerLine steady state line)]

/-- A line that gives the engine nothing to do: it is blank or holds no request, or its request
names a task that does not exist. -/
inductive Service.Idles (service : Service) (line : Bytes) : Prop
  | blank (passed : service.passesOver line = true)
  | refused (message : String) (held : service.Holds line (.error message))
  | unknownTask (message : TranscribeMessage)
      (held : service.Holds line (.ok (.transcribe message)))
      (unknown : RecognitionTask.ofName? message.task = none)

def Answer.isError (answer : Answer) : Bool := answer.responses.any Response.isError

theorem Service.Idles.state {line : Bytes} (h : service.Idles line) (state : ServiceState) :
    let answer := service.answerLine state (.ofLine service.maxRequestBytes line)
    answer.state = state.addFailed answer.isError.toNat := by
  cases h with
  | blank passed =>
    rcases service.request?_cases line with ⟨-, nothing⟩ | ⟨answered, -⟩
    · rw [answerLine_of_none service state nothing]
      rfl
    · rw [passed] at answered
      cases answered
  | refused message held =>
    rw [answerLine_of_error service state held.request?]
    rfl
  | unknownTask message held unknown =>
    have answer : service.answer state (.transcribe message) =
        .refusal state (Failure.protocol ("unknown task '" ++ message.task ++ "'")).message := by
      rw [Service.answer, Service.transcribe, TranscribeMessage.engineRequest, unknown]
    rw [answerLine_of_request service state held.request?, answer]
    rfl

theorem Answer.Alike.isError {change : ServiceState → ServiceState} {first second : Answer}
    (h : first.Alike change second) : second.isError = first.isError := by
  have untimed (responses : List Response) :
      (responses.map Response.untimed).any Response.isError = responses.any Response.isError := by
    rw [List.any_map]
    congr 1
    funext response
    cases response <;> rfl
  rw [Answer.isError, Answer.isError, ← untimed, h.responses, untimed]

/-- The elements at the positions that are kept, counted from zero. -/
def selected {α : Type} (keep : Nat → Bool) : List α → List α
  | [] => []
  | first :: rest =>
    let others := selected (fun index => keep (index + 1)) rest
    if keep 0 then first :: others else others

@[simp] theorem selected_cons_of_true {α : Type} {keep : Nat → Bool} (kept : keep 0 = true)
    (first : α) (rest : List α) :
    selected keep (first :: rest) = first :: selected (fun index => keep (index + 1)) rest := by
  simp only [selected, kept, if_true]

@[simp] theorem selected_cons_of_false {α : Type} {keep : Nat → Bool} (left : keep 0 = false)
    (first : α) (rest : List α) :
    selected keep (first :: rest) = selected (fun index => keep (index + 1)) rest := by
  simp only [selected, left, Bool.false_eq_true, if_false]

/-- How a run over lines compares with a run over those at the kept positions, when so many more
failures were counted before it: their answers there are alike, and the first run has counted as
failed what it answered with an error elsewhere. -/
structure Service.RunsAlike (again service : Service) (state : ServiceState) (count : Nat)
    (keep : Nat → Bool) (lines : List Bytes) : Prop where
  length : (again.answers (state.addFailed count) lines).length = lines.length
  replies : (selected keep (again.answers (state.addFailed count) lines)).map
      (·.responses.map Response.untimed) =
    (service.answers state (selected keep lines)).map (·.responses.map Response.untimed)
  state :
    (again.serveLines (state.addFailed count)
        (lines.map (LineRead.ofLine service.maxRequestBytes))).2 =
      (service.serveLines state
        ((selected keep lines).map (LineRead.ofLine service.maxRequestBytes))).2.addFailed
          (count + (selected (!keep ·)
            (again.answers (state.addFailed count) lines)).countP Answer.isError)

/-- Lines are answered alike with and without those that give the engine no work. -/
theorem runsAlike {recognizer : Recognizer}
    (same : service.engine.recognizer.SameResults recognizer)
    (steady : service.engine.recognizer.Steady) (lines : List Bytes) (keep : Nat → Bool)
    (idle : ∀ line ∈ selected (!keep ·) lines, service.Idles line) (state : ServiceState)
    (count : Nat) :
    (service.withRecognizer recognizer).RunsAlike service state count keep lines := by
  have steady' : (service.withRecognizer recognizer).engine.recognizer.Steady := same.steady steady
  induction lines generalizing keep state count with
  | nil => exact ⟨rfl, rfl, rfl⟩
  | cons line rest ih =>
    have alike := answerLine_alike (unnoticed_addFailed count) same state
      (.ofLine service.maxRequestBytes line)
    have answers := answers_cons steady' (state.addFailed count) line rest
    have served := serveLines_cons steady' (state.addFailed count) line
      (rest.map (.ofLine service.maxRequestBytes))
    simp only [Service.withRecognizer_maxRequestBytes, alike.state] at answers served
    cases kept : keep 0 with
    | true =>
      have others : (!keep 0) = false := by rw [kept]; rfl
      rw [selected_cons_of_false others] at idle
      have later := ih (fun index => keep (index + 1)) idle
        (service.answerLine state (.ofLine service.maxRequestBytes line)).state count
      refine ⟨?_, ?_, ?_⟩
      · rw [answers, List.length_cons, List.length_cons, later.length]
      · rw [answers, selected_cons_of_true kept, selected_cons_of_true kept,
          answers_cons steady state, List.map_cons, List.map_cons, alike.responses, later.replies]
      · rw [answers, selected_cons_of_true kept, selected_cons_of_false others, List.map_cons,
          List.map_cons, served, serveLines_cons steady state]
        exact later.state
    | false =>
      -- only this run has the line, so it is ahead by one more failure if the line is refused
      have others : (!keep 0) = true := by rw [kept]; rfl
      rw [selected_cons_of_true others] at idle
      have counted := (idle line List.mem_cons_self).state state
      rw [counted, ServiceState.addFailed_addFailed] at answers served
      have later := ih (fun index => keep (index + 1))
        (fun other mem => idle other (List.mem_cons_of_mem line mem)) state
        ((service.answerLine state (.ofLine service.maxRequestBytes line)).isError.toNat + count)
      refine ⟨?_, ?_, ?_⟩
      · rw [answers, List.length_cons, List.length_cons, later.length]
      · rw [answers, selected_cons_of_false kept, selected_cons_of_false kept]
        exact later.replies
      · rw [answers, selected_cons_of_false kept, selected_cons_of_true others, List.map_cons,
          served, List.countP_cons, alike.isError, later.state]
        congr 1
        cases (service.answerLine state (.ofLine service.maxRequestBytes line)).isError
        · simp
        · simp
          omega

theorem serveLines_append (steady : service.engine.recognizer.Steady) (state : ServiceState)
    (lines : List Bytes) (more : List LineRead) :
    let first := service.serveLines state (lines.map (LineRead.ofLine service.maxRequestBytes))
    service.serveLines state (lines.map (LineRead.ofLine service.maxRequestBytes) ++ more) =
      (first.1 ++ (service.serveLines first.2 more).1, (service.serveLines first.2 more).2) := by
  induction lines generalizing state with
  | nil => rfl
  | cons line rest ih =>
    have later := ih (service.answerLine state (.ofLine service.maxRequestBytes line)).state
    simp only at later
    simp only [List.map_cons, List.cons_append, serveLines_cons steady, later, List.append_assoc]

theorem serve_alike {recognizer : Recognizer}
    (same : service.engine.recognizer.SameResults recognizer) (fills : Fills)
    (state : ServiceState) (opened total : Nat) :
    let served := (service.withRecognizer recognizer).serve (state.withConnections opened total)
      fills
    let joined := service.serveLines state
      ((streamLines fills.flatten).map (LineRead.ofLine service.maxRequestBytes))
    served.1.map Response.untimed = joined.1.map Response.untimed ∧
      served.2 = joined.2.withConnections opened (total + 1) := by
  obtain ⟨messages, after⟩ := serveLines_alike
    (unnoticed_withConnections (opened + 1) (total + 1)) same state
    ((streamLines fills.flatten).map (LineRead.ofLine service.maxRequestBytes))
  have connected : { state.withConnections opened total with
      connectionsOpen := (state.withConnections opened total).connectionsOpen + 1
      connectionsTotal := (state.withConnections opened total).connectionsTotal + 1 } =
    state.withConnections (opened + 1) (total + 1) := rfl
  simp only [Service.serve, connected, Service.withRecognizer_maxRequestBytes, readLines_eq_map]
  rw [after]
  exact ⟨messages, rfl⟩

theorem serveAll_alike {recognizer : Recognizer}
    (same : service.engine.recognizer.SameResults recognizer)
    (steady : service.engine.recognizer.Steady) (connections : List Fills) (state : ServiceState)
    (opened total : Nat) :
    let apart := (service.withRecognizer recognizer).serveAll
      (state.withConnections opened total) connections
    let joined := service.serveLines state
      ((connections.flatMap fun fills => streamLines fills.flatten).map
        (LineRead.ofLine service.maxRequestBytes))
    apart.1.map Response.untimed = joined.1.map Response.untimed ∧
      apart.2 = joined.2.withConnections opened (total + connections.length) := by
  induction connections generalizing state total with
  | nil => exact ⟨rfl, rfl⟩
  | cons fills rest ih =>
    obtain ⟨messages, after⟩ := serve_alike same fills state opened total
    obtain ⟨later, last⟩ := ih (service.serveLines state
      ((streamLines fills.flatten).map (LineRead.ofLine service.maxRequestBytes))).2 (total + 1)
    simp only [Service.serveAll, List.flatMap_cons, List.map_append, serveLines_append steady,
      after, messages, later, last, List.length_cons]
    refine ⟨trivial, ?_⟩
    rw [Nat.add_assoc, Nat.add_comm 1]

theorem serveLines_eq_flatMap_answers (steady : service.engine.recognizer.Steady)
    (state : ServiceState) (lines : List Bytes) :
    (service.serveLines state (lines.map (LineRead.ofLine service.maxRequestBytes))).1 =
      (service.answers state lines).flatMap Answer.responses := by
  induction lines generalizing state with
  | nil => rfl
  | cons line rest ih =>
    rw [List.map_cons, serveLines_cons steady, answers_cons steady, List.flatMap_cons, ih]

/-- Without the lines that give the engine no work, every other line is answered as with them, but
for the time that recognition took. The engine counts and calls the same; only the failures differ,
by the errors on the lines that are left out. The same lines over several connections, one after
another, are answered as over one. -/
theorem serve_isolates (service : Service) {recognizer : Recognizer}
    (same : service.engine.recognizer.SameResults recognizer)
    (steady : service.engine.recognizer.Steady) (state : ServiceState) :
    let again := service.withRecognizer recognizer
    (∀ (fills pruned : Fills) (keep : Nat → Bool),
      let lines := streamLines fills.flatten
      let answers := again.answers state.connected lines
      let others := service.answers state.connected (streamLines pruned.flatten)
      streamLines pruned.flatten = selected keep lines →
      (∀ line ∈ selected (!keep ·) lines, service.Idles line) →
        answers.length = lines.length ∧
        (again.serve state fills).1 = answers.flatMap Answer.responses ∧
        (service.serve state pruned).1 = others.flatMap Answer.responses ∧
        (selected keep answers).map (·.responses.map Response.untimed) =
          others.map (·.responses.map Response.untimed) ∧
        (again.serve state fills).2 =
          (service.serve state pruned).2.addFailed
            ((selected (!keep ·) answers).countP Answer.isError)) ∧
    ∀ (fills : Fills) (connections : List Fills),
      let joined := service.serve state fills
      let apart := again.serveAll state connections
      streamLines fills.flatten = connections.flatMap (fun part => streamLines part.flatten) →
        apart.1.map Response.untimed = joined.1.map Response.untimed ∧
        apart.2 = joined.2.withConnections state.connectionsOpen
          (state.connectionsTotal + connections.length) := by
  intro again
  have steady' : again.engine.recognizer.Steady := same.steady steady
  constructor
  · intro fills pruned keep lines answers others left idle
    have alike := runsAlike same steady lines keep idle state.connected 0
    have unchanged : state.connected.addFailed 0 = state.connected := rfl
    obtain ⟨length, replies, after⟩ := unchanged ▸ alike
    rw [Nat.zero_add, ← left] at after
    rw [← left] at replies
    have whole : (again.serve state fills).1 = answers.flatMap Answer.responses := by
      rw [← serveLines_eq_flatMap_answers steady', ← readLines_eq_map]
      rfl
    have rest : (service.serve state pruned).1 = others.flatMap Answer.responses := by
      rw [← serveLines_eq_flatMap_answers steady, ← readLines_eq_map]
      rfl
    refine ⟨length, whole, rest, replies, ?_⟩
    rw [← readLines_eq_map, ← readLines_eq_map] at after
    exact congrArg (fun last : ServiceState =>
      { last with connectionsOpen := last.connectionsOpen - 1 }) after
  · intro fills connections joined apart lines
    obtain ⟨messages, after⟩ := serveAll_alike same steady connections state.connected
      state.connectionsOpen state.connectionsTotal
    rw [← lines, ← readLines_eq_map] at messages after
    exact ⟨messages, after⟩

def quietService : Service := { terseService with maxRequestBytes := 40 }

def slowRecognizer : Recognizer where
  warmUp := .ok ()
  recognize := fun _ call => ⟨.recognized (levelRecognition call), 7⟩

theorem serve_isolates_quietService :
    let state := ServiceState.fresh quietService .fresh
    let status := Text.bytes "\x7b\"type\":\"status\"\x7d"
    let unknownTask := Text.bytes "\x7b\"type\":\"transcribe\",\"task\":\"x\"\x7d"
    let first : Fills := [[newline] ++ [120, newline] ++ status ++ [newline]]
    let second : Fills := [.replicate 41 97 ++ [newline] ++ [255, newline] ++ unknownTask]
    let lines := [[], [120], status, .replicate 41 97, [255], unknownTask]
    let again := quietService.withRecognizer slowRecognizer
    let answers := again.answers state.connected lines
    quietService.engine.recognizer.SameResults slowRecognizer ∧
      quietService.engine.recognizer.Steady ∧
      streamLines (first ++ second).flatten = lines ∧
      streamLines status = selected (· == 2) lines ∧
      (∀ line ∈ selected (!· == 2) lines, quietService.Idles line) ∧
      (again.serve state (first ++ second)).2 =
        (quietService.serve state [status]).2.addFailed
          ((selected (!· == 2) answers).countP Answer.isError) ∧
      (again.serveAll state [first, second]).1.map Response.untimed =
        (quietService.serve state (first ++ second)).1.map Response.untimed := by
  intro state status unknownTask first second lines again answers
  have same : quietService.engine.recognizer.SameResults slowRecognizer := by
    intro earlier call
    rfl
  have steady : quietService.engine.recognizer.Steady := by
    intro earlier call crashed
    cases crashed
  have cut : streamLines (first ++ second).flatten = lines := by decide +kernel
  have kept : streamLines status = selected (· == 2) lines := by decide +kernel
  have idle : ∀ line ∈ selected (!· == 2) lines, quietService.Idles line := by
    have others : selected (!· == 2) lines =
        [[], [120], .replicate 41 97, [255], unknownTask] := by decide +kernel
    rw [others]
    intro line mem
    simp only [List.mem_cons, List.not_mem_nil, or_false] at mem
    rcases mem with rfl | rfl | rfl | rfl | rfl
    · exact .blank (by decide +kernel)
    · exact .refused _ (.malformed "x" .malformed (by decide +kernel) (by decide +kernel)
        (by decide +kernel) rfl)
    · exact .refused _ (.overlong (by decide +kernel))
    · exact .refused _ (.notUtf8 (by decide +kernel) (by decide +kernel))
    · exact .unknownTask { task := "x" }
        (.request "\x7b\"type\":\"transcribe\",\"task\":\"x\"\x7d" _ (by decide +kernel)
          (by decide +kernel) (by decide +kernel) rfl) rfl
  obtain ⟨isolated, joined⟩ := serve_isolates quietService same steady state
  obtain ⟨-, -, -, -, after⟩ :=
    isolated (first ++ second) [status] (· == 2) (kept.trans (congrArg _ cut.symm))
      (cut ▸ idle)
  obtain ⟨messages, -⟩ := joined (first ++ second) [first, second] rfl
  rw [cut] at after
  exact ⟨same, steady, cut, kept, idle, after, messages⟩

end Server

end SpeechService
