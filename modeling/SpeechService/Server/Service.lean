import SpeechService.Audio
import SpeechService.Engine.Basic
import SpeechService.Server.Settings
import SpeechService.Wire.Response

/-!
Serving clients. A client's bytes arrive in fills of any sizes; `readLine` takes one line off them
and gives up on a line that is too long, which it passes over. Each request line is answered before
the next one is read: a line that is not a request by an error, a request by one message or a stream
of chunks. A client that sends bad lines is not cut off; only a recognizer that breaks down ends the
connection.
-/

set_option autoImplicit false

namespace SpeechService.Server

def newline : UInt8 := 10

inductive LineRead where
  | line (content : Bytes)
  | tooLong
  | ended
  deriving DecidableEq, Repr

/-- The bytes that have arrived but are not read yet, fill by fill. -/
abbrev Fills := List Bytes

/-- How many bytes lead up to the first newline and include it. -/
def lengthToNewline? (bytes : Bytes) : Option Nat := (bytes.idxOf? newline).map (· + 1)

/-- Take bytes through the next newline, but at most `limit`. -/
def takeLine (limit : Nat) : Fills → Bytes × Fills
  | [] => ([], [])
  | fill :: fills =>
    let window := fill.take limit
    match lengthToNewline? window with
    | some length => (window.take length, fill.drop length :: fills)
    | none =>
      if limit ≤ window.length then (window, fill.drop limit :: fills)
      else
        let (taken, rest) := takeLine (limit - window.length) fills
        (window ++ taken, rest)

def dropLine : Fills → Fills
  | [] => []
  | fill :: fills => match lengthToNewline? fill with
    | some length => fill.drop length :: fills
    | none => dropLine fills

/-- Read a line of at most `max` bytes. The last line needs no newline. -/
def readLine (max : Nat) (fills : Fills) : LineRead × Fills :=
  let (taken, rest) := takeLine (max + 1) fills
  if taken.isEmpty then (.ended, rest)
  else if taken.getLast? = some newline then (.line taken.dropLast, rest)
  else if taken.length ≤ max then (.line taken, rest)
  else (.tooLong, dropLine rest)

def Fills.size (fills : Fills) : Nat := fills.flatten.length

theorem takeLine_size (limit : Nat) (fills : Fills) :
    (takeLine limit fills).1.length + (takeLine limit fills).2.size = fills.size := by
  induction fills generalizing limit with
  | nil => rfl
  | cons fill fills ih =>
    simp only [takeLine, lengthToNewline?]
    split
    · rename_i length found
      simp only [Option.map_eq_some_iff] at found
      obtain ⟨index, found, rfl⟩ := found
      have bound : index < (fill.take limit).length := by
        have := List.idxOf?_eq_some_iff.1 found
        exact this.choose
      simp only [Fills.size, List.flatten_cons, List.length_append, List.length_take,
        List.length_drop] at *
      omega
    · split
      · rename_i full
        simp only [Fills.size, List.flatten_cons, List.length_append, List.length_take,
          List.length_drop] at *
        omega
      · rename_i room
        have := ih (limit - (fill.take limit).length)
        simp only [Fills.size, List.flatten_cons, List.length_append, List.length_take] at *
        omega

theorem dropLine_size (fills : Fills) : (dropLine fills).size ≤ fills.size := by
  induction fills with
  | nil => exact Nat.le_refl _
  | cons fill fills ih =>
    simp only [dropLine]
    split
    · simp only [Fills.size, List.flatten_cons, List.length_append, List.length_drop]
      omega
    · simp only [Fills.size, List.flatten_cons, List.length_append] at *
      omega

theorem readLine_size {max : Nat} {fills rest : Fills} {read : LineRead}
    (h : readLine max fills = (read, rest)) (more : read ≠ .ended) : rest.size < fills.size := by
  have total := takeLine_size (max + 1) fills
  unfold readLine at h
  simp only at h
  split at h
  · cases h
    exact absurd rfl more
  · rename_i some?
    have taken : 0 < (takeLine (max + 1) fills).1.length := by
      cases h' : (takeLine (max + 1) fills).1 with
      | nil => simp [h'] at some?
      | cons => simp
    split at h
    · cases h
      omega
    · split at h
      · cases h
        omega
      · cases h
        have := dropLine_size (takeLine (max + 1) fills).2
        omega

def readLines (max : Nat) (fills : Fills) : List LineRead :=
  match _step : readLine max fills with
  | (.ended, _) => []
  | (.line content, rest) => .line content :: readLines max rest
  | (.tooLong, rest) => .tooLong :: readLines max rest
termination_by fills.size
decreasing_by all_goals exact readLine_size _step (by simp)

open Wire

structure Service where
  engine : SpeechEngine
  workers : Nat
  /-- Bytes of the longest accepted request line. -/
  maxRequestBytes : Nat
  /-- Without a worker no request would ever be answered. -/
  workers_pos : 0 < workers

def Service.ofSettings (engine : SpeechEngine) (settings : Settings)
    (workers_pos : 0 < settings.workers) : Service where
  engine := engine
  workers := settings.workers
  maxRequestBytes := settings.maxRequestBytes
  workers_pos := workers_pos

structure ServiceState where
  activity : Activity
  connectionsOpen : Nat
  connectionsTotal : Nat
  requestsOk : Nat
  /-- Lines answered by an error, or by a stream that ends with one. -/
  requestsFailed : Nat
  streamsAbandoned : Nat
  idleWorkers : Nat

namespace ServiceState

def fresh (service : Service) (activity : Activity) : ServiceState where
  activity := activity
  connectionsOpen := 0
  connectionsTotal := 0
  requestsOk := 0
  requestsFailed := 0
  streamsAbandoned := 0
  idleWorkers := service.workers

def takeWorker (state : ServiceState) : ServiceState :=
  { state with idleWorkers := state.idleWorkers - 1 }

def returnWorker (state : ServiceState) : ServiceState :=
  { state with idleWorkers := state.idleWorkers + 1 }

end ServiceState

/-- The answer to a line that is not a request, when the reason is of this kind. -/
def malformedMessage (reason : String) : String := "malformed request: " ++ reason

/-- The request in a line, or why it is refused; nothing for a blank line or the end. -/
def LineRead.request? (max : Nat) : LineRead → Option (Except String Request)
  | .ended => none
  | .tooLong => some (.error ("request line exceeds " ++ toString max ++ " bytes"))
  | .line content => match Text.ofBytes? content with
    | none => some (.error (malformedMessage "not UTF-8"))
    | some text => match Text.trimmed? text with
      | none => none
      | some text => match Request.ofText text with
        | .ok request => some (.ok request)
        | .error fault => some (.error (malformedMessage fault.message))

inductive Ending where
  | ok
  | failed
  /-- There is no answer, and the connection is closed. -/
  | crashed
  deriving DecidableEq, Repr

structure Answer where
  responses : List Response
  ending : Ending
  state : ServiceState

def Answer.refusal (state : ServiceState) (message : String) : Answer :=
  ⟨[.error message], .failed, state⟩

def Service.status (service : Service) (state : ServiceState) : StatusMessage where
  voices := service.engine.voices.ids
  translator := service.engine.translator.isSome
  counters := state.activity.counters.map UInt64.ofNat

def Service.transcribe (service : Service) (state : ServiceState) (message : TranscribeMessage) :
    Answer :=
  match message.engineRequest with
  | .error failure => .refusal state failure.message
  | .ok request =>
    let state := state.takeWorker
    let (outcome, activity) := service.engine.transcribe state.activity request
    let state := { state with activity := activity }.returnWorker
    match outcome with
    | .answered transcription =>
      ⟨[.transcription (.ofTranscription transcription message.sessionId message.actionId)], .ok,
        state⟩
    | .refused failure => .refusal state failure.message
    | .crashed => ⟨[], .crashed, state⟩

def Response.ofItem (sessionId actionId : String) : StreamItem → Response
  | .ok chunk => .audioChunk (.ofChunk chunk sessionId actionId)
  | .error failure => .error failure.message

def Service.synthesize (service : Service) (state : ServiceState) (message : SynthesizeMessage) :
    Answer :=
  let state := state.takeWorker
  let (started, activity) := service.engine.synthesize state.activity message.engineRequest
  match started with
  | .error failure => .refusal { state with activity := activity }.returnWorker failure.message
  | .ok stream =>
    let (items, _, activity) := activity.readAll stream.withFinalMarker
    { responses := items.map (Response.ofItem message.sessionId message.actionId)
      ending := if items.any (·.isOk == false) then .failed else .ok
      state := { state with activity := activity }.returnWorker }

def Service.answer (service : Service) (state : ServiceState) : Request → Answer
  | .status => ⟨[.status (service.status state)], .ok, state⟩
  | .transcribe message => service.transcribe state message
  | .synthesize message => service.synthesize state message

/-- The answer to a line, counted by its ending. A blank line has none. -/
def Service.answerLine (service : Service) (state : ServiceState) (read : LineRead) : Answer :=
  match read.request? service.maxRequestBytes with
  | none => ⟨[], .ok, state⟩
  | some request =>
    let answer : Answer := match request with
      | .error message => .refusal state message
      | .ok request => service.answer state request
    let state := answer.state
    match answer.ending with
    | .ok => { answer with state := { state with requestsOk := state.requestsOk + 1 } }
    | .failed => { answer with state := { state with requestsFailed := state.requestsFailed + 1 } }
    | .crashed => answer

/-- Answer lines in order, up to one whose request breaks down. -/
def Service.serveLines (service : Service) (state : ServiceState) :
    List LineRead → List Response × ServiceState
  | [] => ([], state)
  | read :: rest =>
    let answer := service.answerLine state read
    if answer.ending = .crashed then (answer.responses, answer.state)
    else
      let (responses, state) := service.serveLines answer.state rest
      (answer.responses ++ responses, state)

/-- Serve a client who sends these bytes and then closes its side. -/
def Service.serve (service : Service) (state : ServiceState) (fills : Fills) :
    List Response × ServiceState :=
  let opened := { state with
    connectionsOpen := state.connectionsOpen + 1
    connectionsTotal := state.connectionsTotal + 1 }
  let (responses, state) := service.serveLines opened (readLines service.maxRequestBytes fills)
  (responses, { state with connectionsOpen := state.connectionsOpen - 1 })

end SpeechService.Server
