import SpeechService.Proofs.Engine.Counting
import SpeechService.Proofs.Server.Replies

/-!
The counters of a service agree with the messages that it has sent. `Counted` relates two states by
the messages sent between them: it holds from one line to the next, and so over whole connections.
-/

set_option autoImplicit false

namespace SpeechService

namespace Wire.Response

def isError : Response → Bool
  | .error _ => true
  | _ => false

def isTranscription : Response → Bool
  | .transcription _ => true
  | _ => false

def isData : Response → Bool
  | .audioChunk message => !message.isFinal
  | _ => false

def isCompletion : Response → Bool
  | .status _ => true
  | .transcription _ => true
  | .audioChunk message => message.isFinal
  | .error _ => false

end Wire.Response

namespace Server

open Wire

section Frames

variable (sessionId actionId : String) (datas : List Bytes)

private theorem countP_dataFrames (kind : Response → Bool) (value : Bool)
    (h : ∀ message : ChunkMessage, message.isFinal = false →
      kind (.audioChunk message) = value) :
    (dataFrames sessionId actionId datas).countP kind = if value then datas.length else 0 := by
  have length : (dataFrames sessionId actionId datas).length = datas.length := List.length_mapIdx
  have each : ∀ frame ∈ dataFrames sessionId actionId datas, kind frame = value := by
    intro frame mem
    obtain ⟨index, bound, rfl⟩ := List.mem_mapIdx.1 mem
    exact h _ rfl
  cases value with
  | true =>
    rw [if_pos rfl, ← length, List.countP_eq_length]
    exact each
  | false =>
    rw [if_neg Bool.false_ne_true, List.countP_eq_zero]
    intro frame mem
    rw [each frame mem]
    exact Bool.false_ne_true

end Frames

structure ServiceState.Kept (before after : ServiceState) : Prop where
  connectionsOpen : after.connectionsOpen = before.connectionsOpen
  connectionsTotal : after.connectionsTotal = before.connectionsTotal
  requestsOk : after.requestsOk = before.requestsOk
  requestsFailed : after.requestsFailed = before.requestsFailed
  streamsAbandoned : after.streamsAbandoned = before.streamsAbandoned
  idleWorkers : after.idleWorkers = before.idleWorkers

theorem ServiceState.Kept.refl (state : ServiceState) : state.Kept state :=
  ⟨rfl, rfl, rfl, rfl, rfl, rfl⟩

theorem ServiceState.Kept.served {state : ServiceState} (idle : 0 < state.idleWorkers)
    (activity : Activity) : state.Kept (state.served activity) := by
  refine ⟨rfl, rfl, rfl, rfl, rfl, ?_⟩
  show state.idleWorkers - 1 + 1 = state.idleWorkers
  omega

/-- How the counters grow while these messages are sent, so many transcriptions are refused for
their sample rate, and so many connections are served. -/
structure Counted (before after : ServiceState) (responses : List Response)
    (refusals connections : Nat) : Prop where
  requestsFailed : after.requestsFailed = before.requestsFailed + responses.countP Response.isError
  requestsOk : after.requestsOk = before.requestsOk + responses.countP Response.isCompletion
  transcriptions : after.activity.count .transcription =
    before.activity.count .transcription + responses.countP Response.isTranscription
  chunksEmitted : after.activity.count .chunkEmitted =
    before.activity.count .chunkEmitted + responses.countP Response.isData
  rejectedRequests : after.activity.count .rejectedRequest =
    before.activity.count .rejectedRequest + refusals
  connectionsTotal : after.connectionsTotal = before.connectionsTotal + connections
  connectionsOpen : after.connectionsOpen = before.connectionsOpen
  streamsAbandoned : after.streamsAbandoned = before.streamsAbandoned
  idleWorkers : after.idleWorkers = before.idleWorkers

namespace Counted

theorem refl (state : ServiceState) : Counted state state [] 0 0 :=
  ⟨rfl, rfl, rfl, rfl, rfl, rfl, rfl, rfl, rfl⟩

theorem trans {before middle after : ServiceState} {first second : List Response}
    {refused more served others : Nat} (h : Counted before middle first refused served)
    (later : Counted middle after second more others) :
    Counted before after (first ++ second) (refused + more) (served + others) where
  requestsFailed := by
    rw [later.requestsFailed, h.requestsFailed, List.countP_append, Nat.add_assoc]
  requestsOk := by rw [later.requestsOk, h.requestsOk, List.countP_append, Nat.add_assoc]
  transcriptions := by
    rw [later.transcriptions, h.transcriptions, List.countP_append, Nat.add_assoc]
  chunksEmitted := by
    rw [later.chunksEmitted, h.chunksEmitted, List.countP_append, Nat.add_assoc]
  rejectedRequests := by rw [later.rejectedRequests, h.rejectedRequests, Nat.add_assoc]
  connectionsTotal := by rw [later.connectionsTotal, h.connectionsTotal, Nat.add_assoc]
  connectionsOpen := later.connectionsOpen.trans h.connectionsOpen
  streamsAbandoned := later.streamsAbandoned.trans h.streamsAbandoned
  idleWorkers := later.idleWorkers.trans h.idleWorkers

end Counted

/-- An answer before it is counted: its ending says which counter it belongs to. -/
structure Tallied (state : ServiceState) (answer : Answer) (refusals : Nat) : Prop where
  kept : state.Kept answer.state
  errors : answer.responses.countP Response.isError = if answer.ending = .failed then 1 else 0
  completions : answer.responses.countP Response.isCompletion =
    if answer.ending = .ok then 1 else 0
  transcriptions : answer.state.activity.count .transcription =
    state.activity.count .transcription + answer.responses.countP Response.isTranscription
  chunksEmitted : answer.state.activity.count .chunkEmitted =
    state.activity.count .chunkEmitted + answer.responses.countP Response.isData
  rejectedRequests : answer.state.activity.count .rejectedRequest =
    state.activity.count .rejectedRequest + refusals

theorem Tallied.counted {state : ServiceState} {answer : Answer} {refusals : Nat}
    (h : Tallied state answer refusals) :
    Counted state answer.counted.state answer.counted.responses refusals 0 := by
  obtain ⟨responses, ending, after⟩ := answer
  obtain ⟨kept, errors, completions, transcriptions, chunks, rejected⟩ := h
  obtain ⟨opened, total, ok, failed, abandoned, idle⟩ := kept
  cases ending with
  | ok =>
    refine ⟨?_, ?_, transcriptions, chunks, rejected, total, opened, abandoned, idle⟩
    · exact failed.trans (congrArg (state.requestsFailed + ·) errors).symm
    · exact (congrArg (· + 1) ok).trans (congrArg (state.requestsOk + ·) completions).symm
  | failed =>
    refine ⟨?_, ?_, transcriptions, chunks, rejected, total, opened, abandoned, idle⟩
    · exact (congrArg (· + 1) failed).trans (congrArg (state.requestsFailed + ·) errors).symm
    · exact ok.trans (congrArg (state.requestsOk + ·) completions).symm
  | crashed =>
    refine ⟨?_, ?_, transcriptions, chunks, rejected, total, opened, abandoned, idle⟩
    · exact failed.trans (congrArg (state.requestsFailed + ·) errors).symm
    · exact ok.trans (congrArg (state.requestsOk + ·) completions).symm

theorem tallied_refusal (state : ServiceState) (message : String) :
    Tallied state (.refusal state message) 0 :=
  ⟨.refl state, rfl, rfl, rfl, rfl, rfl⟩

/-- Whether a request is answered with the error on the sample rate. -/
def Service.refusesRate (service : Service) (state : ServiceState) : Request → Bool
  | .transcribe message => match message.engineRequest with
    | .ok request => (service.engine.transcribe state.activity request).1.isRateRefusal
    | .error _ => false
  | _ => false

variable {service : Service} {state : ServiceState}

private theorem tallied_of_transcribe {message : TranscribeMessage}
    {request : TranscriptionRequest} {outcome : Outcome Transcription} {activity : Activity}
    {responses : List Response} {ending : Ending} (idle : 0 < state.idleWorkers)
    (known : message.engineRequest = .ok request)
    (served : service.engine.transcribe state.activity request = (outcome, activity))
    (errors : responses.countP Response.isError = if ending = .failed then 1 else 0)
    (completions : responses.countP Response.isCompletion = if ending = .ok then 1 else 0)
    (transcriptions :
      outcome.events.count .transcription = responses.countP Response.isTranscription)
    (chunks : outcome.events.count .chunkEmitted = responses.countP Response.isData)
    (rejected : outcome.events.count .rejectedRequest = outcome.isRateRefusal.toNat) :
    Tallied state ⟨responses, ending, state.served activity⟩
      (service.refusesRate state (.transcribe message)).toNat := by
  have counts (kind : CountedEvent) :
      activity.count kind = state.activity.count kind + outcome.events.count kind := by
    have counted := service.engine.count_transcribe state.activity request kind
    rw [served] at counted
    exact counted
  refine ⟨.served idle activity, errors, completions, ?_, ?_, ?_⟩
  · exact (counts _).trans (congrArg _ transcriptions)
  · exact (counts _).trans (congrArg _ chunks)
  · rw [Service.refusesRate, known]
    simp only [served]
    exact (counts _).trans (congrArg _ rejected)

private theorem tallied_of_synthesize {message : SynthesizeMessage}
    {started : Except Failure SynthesisStream} {activity : Activity} (datas : List Bytes)
    {last : Response} {ending : Ending} (idle : 0 < state.idleWorkers)
    (served : service.engine.synthesize state.activity message.engineRequest =
      (started, activity))
    (errors : [last].countP Response.isError = if ending = .failed then 1 else 0)
    (completions : [last].countP Response.isCompletion = if ending = .ok then 1 else 0)
    (transcriptions : [last].countP Response.isTranscription = 0)
    (chunks : [last].countP Response.isData = 0) :
    Tallied state
      ⟨dataFrames message.sessionId message.actionId datas ++ [last], ending,
        state.served (activity.note (.replicate datas.length .chunkEmitted))⟩
      (service.refusesRate state (.synthesize message)).toNat := by
  have kept {kind : CountedEvent} (other : CountedEvent.synthesisStream ≠ kind) :
      activity.count kind = state.activity.count kind := by
    have counted := service.engine.count_synthesize state.activity message.engineRequest other
    rw [served] at counted
    exact counted
  have counts {kind : CountedEvent} (other : CountedEvent.synthesisStream ≠ kind) :
      (state.served (activity.note (.replicate datas.length .chunkEmitted))).activity.count kind =
        state.activity.count kind + if kind = .chunkEmitted then datas.length else 0 := by
    have noted := activity.count_note (.replicate datas.length .chunkEmitted) kind
    rw [kept other, List.count_replicate] at noted
    cases kind <;> exact noted
  refine ⟨.served idle _, ?_, ?_, ?_, ?_, counts (by decide)⟩
  · rw [List.countP_append, countP_dataFrames _ _ _ _ false fun _ _ => rfl, errors]
    exact Nat.zero_add _
  · rw [List.countP_append, countP_dataFrames _ _ _ _ false fun _ data => data, completions]
    exact Nat.zero_add _
  · rw [List.countP_append, countP_dataFrames _ _ _ _ false fun _ _ => rfl, transcriptions]
    exact counts (by decide)
  · have data (message : ChunkMessage) (open? : message.isFinal = false) :
        Response.isData (.audioChunk message) = true := by
      rw [Response.isData, open?]
      rfl
    rw [List.countP_append, countP_dataFrames _ _ _ _ true data, chunks]
    exact counts (by decide)

theorem Answered.tallied {request : Request} {answer : Answer}
    (h : Answered service state request answer) (idle : 0 < state.idleWorkers) :
    Tallied state answer (service.refusesRate state request).toNat := by
  cases h with
  | status => exact ⟨.refl state, rfl, rfl, rfl, rfl, rfl⟩
  | unknownTask message unknown =>
    have refused : message.engineRequest =
        .error (.protocol ("unknown task '" ++ message.task ++ "'")) := by
      rw [TranscribeMessage.engineRequest, unknown]
    rw [Service.refusesRate, refused]
    exact tallied_refusal state _
  | refused message request failure activity known outcome =>
    obtain ⟨transcriptions, chunks, rejected⟩ := failure.count_events
    exact tallied_of_transcribe idle known outcome rfl rfl transcriptions chunks rejected
  | transcribed message request transcription reply activity known outcome made carries =>
    obtain ⟨transcriptions, chunks, rejected⟩ := transcription.count_events
    exact tallied_of_transcribe idle known outcome rfl rfl transcriptions chunks rejected
  | crashed message request activity known outcome =>
    exact tallied_of_transcribe idle known outcome rfl rfl rfl rfl rfl
  | notStarted message failure activity started =>
    exact tallied_of_synthesize [] idle started rfl rfl rfl rfl
  | silent message activity blank started =>
    exact tallied_of_synthesize [] idle started rfl rfl rfl rfl
  | spoken message voice blocks datas activity text started whole full audio =>
    exact tallied_of_synthesize datas idle started rfl rfl rfl rfl
  | brokenOff message voice blocks datas failure activity text started broken full audio =>
    exact tallied_of_synthesize datas idle started rfl rfl rfl rfl

theorem Answered.of_refusesRate {request : Request} {answer : Answer}
    (h : Answered service state request answer)
    (refused : service.refusesRate state request = true) :
    ∃ expected actual,
      answer.responses = [.error (Failure.unsupportedSampleRate expected actual).message] := by
  cases h with
  | refused message request failure activity known outcome =>
    simp only [Service.refusesRate, known, outcome] at refused
    cases failure with
    | unsupportedSampleRate expected actual => exact ⟨expected, actual, rfl⟩
    | _ => cases refused
  | unknownTask message unknown =>
    simp only [Service.refusesRate, TranscribeMessage.engineRequest, unknown] at refused
    cases refused
  | transcribed message request transcription reply activity known outcome made carries =>
    simp only [Service.refusesRate, known, outcome] at refused
    cases refused
  | crashed message request activity known outcome =>
    simp only [Service.refusesRate, known, outcome] at refused
    cases refused
  | _ => cases refused

variable (service state)

/-- Whether a turn is answered with the error on the sample rate. -/
def Turn.refusesRate (service : Service) (turn : Turn) : Bool :=
  match (LineRead.ofLine service.maxRequestBytes turn.line).request?
      service.maxRequestBytes with
  | some (.ok request) => service.refusesRate turn.before request
  | _ => false

/-- A line that is answered is counted once. -/
theorem answerLine_counted {line : Bytes} (answered : service.passesOver line = false)
    (idle : 0 < state.idleWorkers) :
    let answer := service.answerLine state (.ofLine service.maxRequestBytes line)
    Counted state answer.state answer.responses
      (Turn.refusesRate service ⟨state, line, answer⟩).toNat 0 := by
  intro answer
  rcases service.request?_cases line with ⟨blank, -⟩ | ⟨-, held, holds, read⟩
  · rw [answered] at blank
    cases blank
  · cases held with
    | error message =>
      have counted := (tallied_refusal state message).counted
      rw [← answerLine_of_error service state read] at counted
      simp only [Turn.refusesRate, read]
      exact counted
    | ok request =>
      have counted := ((answer_answered service state request).tallied idle).counted
      rw [← answerLine_of_request service state read] at counted
      simp only [Turn.refusesRate, read]
      exact counted

theorem serveLines_counted (lines : List Bytes) (idle : 0 < state.idleWorkers) :
    let served := service.serveLines state (lines.map (LineRead.ofLine service.maxRequestBytes))
    Counted state served.2 served.1
      ((service.turns state lines).countP (Turn.refusesRate service)) 0 := by
  induction lines generalizing state with
  | nil => exact .refl state
  | cons line rest ih =>
    rcases service.request?_cases line with ⟨blank, nothing⟩ | ⟨answered, -⟩
    · have later := ih state idle
      rw [turns_of_passesOver service state blank, List.map_cons,
        serveLines_cons_of_none service state nothing]
      exact later
    · have step := answerLine_counted service state answered idle
      have ready := idle
      rw [← step.idleWorkers] at ready
      have first (turn : Turn) (later : List Turn) :
          (turn :: later).countP (Turn.refusesRate service) =
            (turn.refusesRate service).toNat + later.countP (Turn.refusesRate service) := by
        rw [List.countP_cons, Nat.add_comm]
        cases turn.refusesRate service <;> rfl
      rw [turns_of_answered service state answered]
      simp only [List.map_cons, Service.serveLines, first]
      -- no line behind a breakdown is answered or counted
      split
      · exact step
      · exact step.trans (ih _ ready)

def Service.allTurns (service : Service) (state : ServiceState) : List Fills → List Turn
  | [] => []
  | fills :: rest =>
    service.turns state.connected (streamLines fills.flatten) ++
      service.allTurns (service.serve state fills).2 rest

def Service.serveAll (service : Service) (state : ServiceState) :
    List Fills → List Response × ServiceState
  | [] => ([], state)
  | fills :: rest =>
    let (responses, state) := service.serve state fills
    let (others, last) := service.serveAll state rest
    (responses ++ others, last)

theorem serve_counted (fills : Fills) (idle : 0 < state.idleWorkers) :
    Counted state (service.serve state fills).2 (service.serve state fills).1
      ((service.turns state.connected (streamLines fills.flatten)).countP
        (Turn.refusesRate service)) 1 := by
  have served := serveLines_counted service state.connected (streamLines fills.flatten) idle
  rw [← readLines_eq_map] at served
  obtain ⟨failed, ok, transcriptions, chunks, rejected, total, opened, abandoned, workers⟩ := served
  refine ⟨failed, ok, transcriptions, chunks, rejected, total, ?_, abandoned, workers⟩
  exact congrArg (· - 1) opened

theorem serveAll_counted (connections : List Fills) (idle : 0 < state.idleWorkers) :
    Counted state (service.serveAll state connections).2 (service.serveAll state connections).1
      ((service.allTurns state connections).countP (Turn.refusesRate service))
      connections.length := by
  induction connections generalizing state with
  | nil => exact .refl state
  | cons fills rest ih =>
    have step := serve_counted service state fills idle
    have ready := idle
    rw [← step.idleWorkers] at ready
    rw [Service.allTurns, List.countP_append, List.length_cons, Nat.add_comm rest.length]
    exact step.trans (ih _ ready)

theorem serveAll_eq_flatMap (connections : List Fills) :
    (service.serveAll state connections).1 =
      (service.allTurns state connections).flatMap Turn.replies := by
  induction connections generalizing state with
  | nil => rfl
  | cons fills rest ih =>
    have first := serveLines_eq_flatMap service state.connected (streamLines fills.flatten)
    rw [← readLines_eq_map] at first
    rw [Service.allTurns, List.flatMap_append, ← ih, ← first]
    rfl

theorem replies_of_refusesRate {connections : List Fills} {turn : Turn}
    (mem : turn ∈ service.allTurns state connections) (refused : turn.refusesRate service = true) :
    ∃ expected actual,
      turn.replies = [.error (Failure.unsupportedSampleRate expected actual).message] := by
  induction connections generalizing state with
  | nil => cases mem
  | cons fills rest ih =>
    rcases List.mem_append.1 mem with here | later
    · have answer := answer_of_mem_turns service state.connected _ here
      rw [Turn.refusesRate] at refused
      split at refused
      · rename_i request read
        rw [Turn.replies, answer, answerLine_of_request service turn.before read,
          Answer.counted_responses]
        exact (answer_answered service turn.before request).of_refusesRate refused
      · cases refused
    · exact ih _ later

/-- However many clients were served, whatever they sent, the counters agree with the messages that
were sent, every worker is idle again and no connection is open. -/
theorem serveAll_counters (log : CallLog) (connections : List Fills) :
    let fresh := ServiceState.fresh service ⟨.zero, log⟩
    let responses := (service.serveAll fresh connections).1
    let last := (service.serveAll fresh connections).2
    let turns := service.allTurns fresh connections
    responses = turns.flatMap Turn.replies ∧
      last.requestsFailed = responses.countP Response.isError ∧
      last.requestsOk = responses.countP Response.isCompletion ∧
      last.activity.counters.transcriptions = responses.countP Response.isTranscription ∧
      last.activity.counters.chunksEmitted = responses.countP Response.isData ∧
      last.activity.counters.rejectedRequests = turns.countP (Turn.refusesRate service) ∧
      (∀ turn ∈ turns, turn.refusesRate service = true → ∃ expected actual,
        turn.replies = [.error (Failure.unsupportedSampleRate expected actual).message]) ∧
      last.connectionsTotal = connections.length ∧ last.connectionsOpen = 0 ∧
      last.streamsAbandoned = 0 ∧ last.idleWorkers = service.workers := by
  intro fresh responses last turns
  obtain ⟨failed, ok, transcriptions, chunks, rejected, total, opened, abandoned, idle⟩ :=
    serveAll_counted service fresh connections service.workers_pos
  refine ⟨serveAll_eq_flatMap service fresh connections, ?_, ?_, ?_, ?_, ?_, ?_, ?_, opened,
    abandoned, idle⟩
  · exact failed.trans (Nat.zero_add _)
  · exact ok.trans (Nat.zero_add _)
  · exact transcriptions.trans (Nat.zero_add _)
  · exact chunks.trans (Nat.zero_add _)
  · exact rejected.trans (Nat.zero_add _)
  · intro turn mem refused
    exact replies_of_refusesRate service fresh mem refused
  · exact total.trans (Nat.zero_add _)

end Server

end SpeechService
