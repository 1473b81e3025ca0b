import SpeechService.Command.Synth
import SpeechService.Proofs.Audio.Pcm
import SpeechService.Proofs.Engine.Sessions
import SpeechService.Proofs.Server.Exchange
import SpeechService.Proofs.Server.Replies
import SpeechService.Proofs.Voice.Folder

/-!
The command and the service speak alike. Both read the stream of one request to its end, the service
with a marker and the command without; the command decodes every chunk and writes its samples again,
which loses nothing because chunks are whole samples.
-/

set_option autoImplicit false

namespace SpeechService

/-- Full chunks that hold audio, with less than a chunk of silence behind it. -/
structure Chunked (audio : Bytes) (datas : List Bytes) : Prop where
  full : ∀ data ∈ datas, data.length = 3200
  audio : ∃ silence < 3200, datas.flatten = audio ++ List.replicate silence 0

theorem Chunked.length_flatten {audio : Bytes} {datas : List Bytes} (h : Chunked audio datas) :
    datas.flatten.length = 3200 * datas.length :=
  Cut.length_flatten h.full

theorem Chunked.flatten_eq {audio : Bytes} {datas others : List Bytes} (h : Chunked audio datas)
    (other : Chunked audio others) : datas.flatten = others.flatten := by
  have length := h.length_flatten
  have otherLength := other.length_flatten
  obtain ⟨silence, short, content⟩ := h.audio
  obtain ⟨otherSilence, otherShort, otherContent⟩ := other.audio
  rw [content, List.length_append, List.length_replicate] at length
  rw [otherContent, List.length_append, List.length_replicate] at otherLength
  have same : silence = otherSilence := by omega
  rw [content, otherContent, same]

/-- A stream without a failure, and the canonical audio in it. -/
inductive Plays : SynthesisStream → Bytes → Prop
  | silent : Plays .empty []
  | spoken (voice : String) (blocks : List AudioBlock) :
      Plays (.ofBlocks voice (blocks.map .ok)) (audioOf blocks)

/-- Tones start the same stream whatever calls there were before, an empty one for a blank text. -/
theorem VoiceRegistry.speak_plays {registry : VoiceRegistry}
    (tones : ∀ voice ∈ registry.voices, voice.IsTone) (map : VoiceMap)
    (request : SynthesisRequest) :
    ∃ stream audio, Plays stream audio ∧
      (∀ calls, (registry.speak map calls request).1 = .ok stream) ∧
      (Text.isBlankText request.text = true → audio = []) := by
  cases trimmed : Text.trimmed? request.text with
  | none =>
    refine ⟨.empty, [], .silent, ?_, fun _ => rfl⟩
    intro calls
    rw [speak, trimmed]
  | some text =>
    have visible := (Text.trimmed?_eq_some_iff.1 trimmed).1
    obtain ⟨tone, same⟩ := tones _ (registry.resolve_mem map request.voice request.language)
    refine ⟨_, _, .spoken (registry.resolve map request.voice request.language).id
      (tone.blocks text (.ofSpeed request.speed)), ?_, ?_⟩
    · intro calls
      rw [speak, trimmed]
      simp only [same]
      rfl
    · intro blank
      rw [visible] at blank
      cases blank

theorem Plays.drain {stream : SynthesisStream} {audio : Bytes} (h : Plays stream audio)
    (marker : Bool) :
    ∃ datas, Chunked audio datas ∧ (stream.marked marker).drain.1 =
      (numbered 0 datas).map .ok ++ if marker then [.ok (.finalMarker datas.length)] else [] := by
  cases h with
  | silent =>
    refine ⟨[], ⟨nofun, 0, by decide, rfl⟩, ?_⟩
    cases marker with
    | true => exact SynthesisStream.drain_empty_withFinalMarker
    | false =>
      have step : SynthesisStream.empty.next = SynthesisStream.empty.conclude := rfl
      exact congrArg Prod.fst (SynthesisStream.drain_of_next_none step)
  | spoken voice blocks =>
    obtain ⟨chunks, rest, cut, items⟩ :=
      SynthesisStream.drain_ofBlocks voice (blocks.map .ok) marker
    rw [failure?_map, length_numbered] at items
    rw [canonicalAudio_map] at cut
    exact ⟨_, ⟨cut.length_allChunks none, cut.flatten_append_tailChunk.2⟩, items⟩

theorem SpeechEngine.synthesize_of_speak {engine : SpeechEngine} {activity : Activity}
    {request : SynthesisRequest} {stream : SynthesisStream}
    (h : (engine.voices.speak engine.config.voiceMap activity.log.voices request).1 = .ok stream) :
    ∃ after, engine.synthesize activity request = (.ok stream, after) := by
  rw [synthesize]
  rcases speaking : engine.voices.speak engine.config.voiceMap activity.log.voices request with
    ⟨started, calls⟩
  rw [speaking] at h
  cases h
  exact ⟨_, rfl⟩

namespace Server

open Wire

/-- Responses that are chunks, numbered from zero on, and the audio in them. -/
def Streams (responses : List Response) (audio : Bytes) : Prop :=
  ∃ chunks : List ChunkMessage, responses = chunks.map .audioChunk ∧
    chunks.map ChunkMessage.sequence = (List.range chunks.length).map UInt64.ofNat ∧
    chunks.flatMap ChunkMessage.data = audio

theorem streams_ofItem (datas : List Bytes) (sessionId actionId : String) :
    Streams (((numbered 0 datas ++ [AudioChunk.finalMarker datas.length]).map Except.ok).map
      (Response.ofItem sessionId actionId)) datas.flatten := by
  have numbers : (numbered 0 datas ++ [AudioChunk.finalMarker datas.length]).map
      AudioChunk.sequence = List.range (datas.length + 1) := by
    rw [List.map_append, map_sequence_numbered, List.range_succ, List.range_eq_range']
    rfl
  have content : (numbered 0 datas ++ [AudioChunk.finalMarker datas.length]).flatMap
      AudioChunk.data = datas.flatten := by
    rw [List.flatMap_append, flatMap_data_numbered]
    exact List.append_nil _
  have count : (numbered 0 datas ++ [AudioChunk.finalMarker datas.length]).length =
      datas.length + 1 := by
    rw [List.length_append, length_numbered, List.length_singleton]
  generalize numbered 0 datas ++ [AudioChunk.finalMarker datas.length] = chunks at *
  refine ⟨chunks.map (ChunkMessage.ofChunk · sessionId actionId), ?_, ?_, ?_⟩
  · rw [List.map_map, List.map_map]
    rfl
  · rw [List.length_map, count, ← numbers, List.map_map, List.map_map]
    rfl
  · rw [List.flatMap_map, ← content]
    rfl

theorem synthesize_plays {service : Service} {state : ServiceState} {message : SynthesizeMessage}
    {stream : SynthesisStream} {audio : Bytes} (plays : Plays stream audio)
    (speaks : (service.engine.voices.speak service.engine.config.voiceMap
      state.activity.log.voices message.engineRequest).1 = .ok stream) :
    ∃ datas, Chunked audio datas ∧
      Streams (service.synthesize state message).responses datas.flatten := by
  obtain ⟨datas, chunked, items⟩ := plays.drain true
  have marked : stream.marked true = stream.withFinalMarker := rfl
  have whole : stream.withFinalMarker.drain.1 =
      (numbered 0 datas ++ [AudioChunk.finalMarker datas.length]).map .ok := by
    rw [← marked, items, List.map_append]
    rfl
  obtain ⟨after, started⟩ := SpeechEngine.synthesize_of_speak speaks
  rw [show state.activity = state.takeWorker.activity from rfl] at started
  refine ⟨datas, chunked, ?_⟩
  simp only [Service.synthesize, started, Activity.readAll, whole]
  exact streams_ofItem datas message.sessionId message.actionId

end Server

namespace Command

open Server Wire

theorem gather_numbered (number : Nat) (datas : List Bytes) :
    gather ((numbered number datas).map .ok) = .ok datas := by
  induction datas generalizing number with
  | nil => rfl
  | cons data datas ih =>
    rw [numbered, List.map_cons, gather, ih]
    rfl

theorem encode_flatMap_decode {datas : List Bytes} (full : ∀ data ∈ datas, data.length = 3200) :
    Audio.encode (datas.flatMap Audio.decode) = datas.flatten := by
  induction datas with
  | nil => rfl
  | cons data datas ih =>
    have later := ih fun other mem => full other (List.mem_cons_of_mem data mem)
    have even : data.length % 2 = 0 := by
      rw [full data List.mem_cons_self]
    rw [List.flatMap_cons, Audio.encode, List.flatMap_append, ← Audio.encode, ← Audio.encode,
      Audio.encode_decode even, later, List.flatten_cons]

theorem waveFile_flatMap_decode {datas : List Bytes} (full : ∀ data ∈ datas, data.length = 3200) :
    Audio.waveFile (datas.flatMap Audio.decode) =
      Audio.waveHeader datas.flatten.length ++ datas.flatten := by
  rw [Audio.waveFile, encode_flatMap_decode full]

theorem render_plays {registry : VoiceRegistry} {request : SynthesisRequest}
    {stream : SynthesisStream} {audio : Bytes} (plays : Plays stream audio)
    (speaks : (registry.speak .standard [] request).1 = .ok stream) :
    ∃ datas, Chunked audio datas ∧ render registry request =
      .ok (Audio.waveHeader datas.flatten.length ++ datas.flatten) := by
  obtain ⟨datas, chunked, items⟩ := plays.drain false
  have unmarked : stream.marked false = stream := rfl
  have gathered : gather stream.drain.1 = .ok datas := by
    rw [← unmarked, items, if_neg Bool.false_ne_true, List.append_nil, gather_numbered]
  refine ⟨datas, chunked, ?_⟩
  rw [render, speaks]
  simp only [bind, Except.bind, gathered]
  rw [waveFile_flatMap_decode chunked.full]

theorem isTone_of_voices {disk : Disk} {models : Option String} {registry : VoiceRegistry}
    (loaded : voices disk models = .ok registry) : ∀ voice ∈ registry.voices, voice.IsTone := by
  cases models with
  | none =>
    cases loaded
    intro voice mem
    rw [List.mem_singleton.1 mem]
    exact ⟨_, rfl⟩
  | some path =>
    rw [voices] at loaded
    cases made : loadVoices toneLoader path (disk.folder? path) with
    | error failure =>
      simp only [made] at loaded
      cases loaded
    | ok other =>
      simp only [made] at loaded
      cases loaded
      exact isTone_of_loadVoices made

/-- A run that has its arguments, its voices and a file to write to. -/
structure Ready (disk : Disk) (words : List String) (arguments : Arguments) (text : String)
    (registry : VoiceRegistry) : Prop where
  parsed : parse words = .run arguments
  text : arguments.text = some text
  loaded : voices disk arguments.models = .ok registry
  creatable : disk.refusal? arguments.output = none

inductive Unready (disk : Disk) (words : List String) : Prop
  | refused (failure : RunFailure) (parsed : parse words = .failed failure)
  | textless (arguments : Arguments) (parsed : parse words = .run arguments)
      (text : arguments.text = none)
  | voiceless (arguments : Arguments) (text : String) (failure : RunFailure)
      (parsed : parse words = .run arguments) (given : arguments.text = some text)
      (loaded : voices disk arguments.models = .error failure)

def Arguments.request (arguments : Arguments) (text : String) : SynthesisRequest where
  text := text
  voice := arguments.voice
  speed := arguments.speed
  language := arguments.language

def Arguments.message (arguments : Arguments) (text sessionId actionId : String) :
    SynthesizeMessage where
  text := text
  voice := arguments.voice
  speed := arguments.speed
  language := arguments.language
  sessionId := sessionId
  actionId := actionId

theorem Arguments.engineRequest_message {arguments : Arguments}
    (named : Text.isBlankText arguments.voice = false) (text sessionId actionId : String) :
    (arguments.message text sessionId actionId).engineRequest = arguments.request text := by
  rw [SynthesizeMessage.engineRequest]
  simp only [message, named, Bool.false_eq_true, if_false]
  rfl

theorem Unready.run_eq {disk : Disk} {words : List String} (h : Unready disk words) :
    ∃ errors, run disk words = ⟨1, "", errors, []⟩ := by
  cases h with
  | refused failure parsed =>
    rw [run, parsed]
    exact ⟨_, rfl⟩
  | textless arguments parsed text =>
    rw [run, parsed]
    simp only [text]
    exact ⟨_, rfl⟩
  | voiceless arguments text failure parsed given loaded =>
    rw [run, parsed]
    simp only [given, synthesize, loaded]
    exact ⟨_, rfl⟩

theorem Ready.run_eq {disk : Disk} {words : List String} {arguments : Arguments} {text : String}
    {registry : VoiceRegistry} {file : Bytes} (h : Ready disk words arguments text registry)
    (rendered : render registry (arguments.request text) = .ok file) :
    run disk words = ⟨0, "", "", [(arguments.output, file)]⟩ := by
  rw [Arguments.request] at rendered
  rw [run, h.parsed]
  simp only [h.text, synthesize, h.loaded, h.creatable, rendered]

/-- The command writes the audio that a service with its voices sends for the same request, alone or
between other lines, whatever was served before. A command without its arguments or voices writes no
file. -/
theorem run_writes_served_audio (disk : Disk) (words : List String) :
    (∀ arguments text registry, Ready disk words arguments text registry →
      Text.isBlankText arguments.voice = false →
      ∃ file, run disk words = ⟨0, "", "", [(arguments.output, file)]⟩ ∧
        3200 ∣ (file.drop 44).length ∧
        (Text.isBlankText text = true → file.drop 44 = []) ∧
        (file.length < UInt32.size → Audio.Wave.ofFile? file = some {
          channels := 1
          rate := 16000
          sampleBits := 16
          dataBytes := (file.drop 44).length
          audio := file.drop 44 }) ∧
        ∀ (service : Service) (state : ServiceState) (fills : Fills) (sessionId actionId : String),
          service.engine.voices = registry → service.engine.config.voiceMap = .standard →
          let request := Request.synthesize (arguments.message text sessionId actionId)
          ((readLines service.maxRequestBytes fills).filterMap
                (LineRead.request? service.maxRequestBytes) = [.ok request] →
              Streams (service.serve state fills).1 (file.drop 44)) ∧
            ∀ turn ∈ service.turns state.connected (streamLines fills.flatten),
              service.Holds turn.line (.ok request) → Streams turn.replies (file.drop 44)) ∧
    (Unready disk words → ∃ errors, run disk words = ⟨1, "", errors, []⟩) := by
  refine ⟨?_, Unready.run_eq⟩
  intro arguments text registry ready named
  obtain ⟨stream, audio, plays, speaks, silent⟩ := VoiceRegistry.speak_plays
    (isTone_of_voices ready.loaded) .standard (arguments.request text)
  obtain ⟨datas, chunked, rendered⟩ := render_plays plays (speaks [])
  have behind : (Audio.waveHeader datas.flatten.length ++ datas.flatten).drop 44 =
      datas.flatten := List.drop_left' (Audio.length_waveHeader _)
  refine ⟨_, ready.run_eq rendered, ?_⟩
  rw [behind]
  refine ⟨⟨datas.length, chunked.length_flatten⟩, ?_, Audio.ofFile?_waveHeader_append, ?_⟩
  · intro blank
    have nothing : Chunked audio [] := ⟨nofun, 0, by decide, by rw [silent blank]; rfl⟩
    exact chunked.flatten_eq nothing
  · intro service state fills sessionId actionId voices map request
    have answered (before : ServiceState) :
        Streams (service.answer before request).responses datas.flatten := by
      have asked := Arguments.engineRequest_message named text sessionId actionId
      have started := speaks before.activity.log.voices
      rw [← voices, ← map, ← asked] at started
      obtain ⟨others, same, streams⟩ := synthesize_plays plays started
      rw [chunked.flatten_eq same]
      exact streams
    constructor
    · intro sent
      rw [serve_of_request service state sent]
      exact answered state.connected
    · intro turn mem held
      rw [replies_of_mem_turns service state.connected _ mem held]
      exact answered turn.before

def soloDisk : Disk where
  file? := fun _ => none
  folder? := fun _ => some [("en.onnx", .file []),
    ("en.onnx.json", .file (Text.bytes "\x7b\"audio\":\x7b\"sample_rate\":8000\x7d\x7d"))]
  refusal? := fun _ => none

def soloRegistry : VoiceRegistry := .single ⟨(Tone.standard 8000).synthesizer, "en"⟩

def soloService : Service where
  engine := {
    config := .standard
    voices := soloRegistry
    recognizer := levelRecognizer
    translator := none }
  workers := 1
  maxRequestBytes := 200
  workers_pos := Nat.one_pos

def greeting : Arguments where
  text := some "Hello. How are you?"
  voice := "en"
  models := some "models"

theorem voices_soloDisk : voices soloDisk (some "models") = .ok soloRegistry := by
  have discovered : Folder.discover [("en.onnx", .file []),
      ("en.onnx.json", .file (Text.bytes "\x7b\"audio\":\x7b\"sample_rate\":8000\x7d\x7d"))] =
      [⟨"en", "en.onnx", "en.onnx.json",
        Text.bytes "\x7b\"audio\":\x7b\"sample_rate\":8000\x7d\x7d"⟩] := by
    decide +kernel
  simp only [voices, loadVoices, soloDisk, scanVoices, discovered, bind, Except.bind]
  rfl

theorem run_writes_served_audio_greeting :
    let words := ["--text", "Hello. How are you?", "--voice", "en", "--models", "models"]
    let message := greeting.message "Hello. How are you?" "session" "action"
    let fills : Fills := [(ClientLine.request (.synthesize message)).content ++ [newline]]
    Ready soloDisk words greeting "Hello. How are you?" soloRegistry ∧
      Text.isBlankText greeting.voice = false ∧
      (readLines 200 fills).filterMap (LineRead.request? 200) = [.ok (.synthesize message)] ∧
      ∃ file, run soloDisk words = ⟨0, "", "", [("out.wav", file)]⟩ ∧
        Streams (soloService.serve (.fresh soloService .fresh) fills).1 (file.drop 44) := by
  intro words message fills
  have ready : Ready soloDisk words greeting "Hello. How are you?" soloRegistry :=
    ⟨rfl, rfl, voices_soloDisk, rfl⟩
  have named : Text.isBlankText greeting.voice = false := by decide
  have speed : Json.SingleReadsBack message.speed :=
    Json.singleReadsBack_of_toOption
      (show (Json.readNumber (Json.Written.single 1)).toOption = some (.real 1, []) by
        decide +kernel) (by decide +kernel)
  let line := ClientLine.request (.synthesize message)
  have readsBack : ∀ request, line.request? = some request → request.ReadsBack := by
    intro request same
    cases same
    exact speed
  have fits : line.content.length ≤ 200 := by decide +kernel
  have fresh : ∀ content ∈ [line.content], newline ∉ content := by
    intro content mem
    rw [List.mem_singleton.1 mem]
    exact line.newline_not_mem_content readsBack
  have sent : (readLines 200 fills).filterMap (LineRead.request? 200) =
      [.ok (.synthesize message)] := by
    have lines : streamLines fills.flatten = [line.content] := by
      have stream := streamLines_flatMap fresh
      rw [List.flatMap_singleton] at stream
      rw [List.flatten_singleton]
      exact stream
    have held := line.request?_ofLine readsBack fits
    rw [readLines_eq_map, lines, List.map_singleton, List.filterMap_cons_some held]
    rfl
  obtain ⟨file, written, -, -, -, served⟩ := (run_writes_served_audio soloDisk words).1
    greeting "Hello. How are you?" soloRegistry ready named
  have alone := (served soloService (.fresh soloService .fresh) fills "session" "action" rfl rfl).1
  exact ⟨ready, named, sent, file, written, alone sent⟩

end Command

end SpeechService
