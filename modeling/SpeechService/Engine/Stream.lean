import SpeechService.Audio
import SpeechService.Audio.Resample
import SpeechService.Text
import SpeechService.Voice.Registry

/-!
Streaming synthesis. A `SynthesisStream` turns the blocks of a voice into canonical chunks, one at a
time. A block is asked for only when every chunk of the earlier blocks has been handed out. `next`
gives the next item, which is a chunk or the failure that ends the stream.
-/

set_option autoImplicit false

namespace SpeechService

structure SynthesisRequest where
  text : String
  /-- Identifier of a voice, or `default` for none in particular. -/
  voice : String := anyVoice
  speed : Float32 := 1
  language : String := ""

abbrev StreamItem := Except Failure AudioChunk

structure SynthesisStream where
  /-- The voice that speaks; none for a blank text. -/
  voice : Option String
  /-- The items not asked for yet; none once the voice has reported its end or a failure. -/
  source : Option (List BlockItem)
  /-- Items that the voice was asked for and gave, a failure included. -/
  pulled : Nat
  buffer : ChunkBuffer
  /-- Full chunks that have not been handed out. -/
  pending : List Bytes
  nextSequence : Nat
  finalMarker : Bool
  /-- Nothing but pending chunks is left. -/
  done : Bool

inductive Refill where
  /-- Chunks to hand out, of which there is at least one, and the state of the source after them. -/
  | chunks (first : Bytes) (others : List Bytes) (buffer : ChunkBuffer)
      (source : Option (List BlockItem)) (pulled : Nat)
  /-- The voice reported its end, and nothing was waiting. -/
  | ended (pulled : Nat)
  | failed (failure : Failure) (pulled : Nat)

/-- Ask for blocks until a chunk is full, the voice fails or has come to its end. `pulled` counts
the items that the voice gave before. -/
def refill (buffer : ChunkBuffer) (pulled : Nat) : List BlockItem → Refill
  | [] => match buffer.finish with
    | (some last, buffer) => .chunks last [] buffer none pulled
    | (none, _) => .ended pulled
  | .error failure :: _ => .failed failure (pulled + 1)
  | .ok block :: rest => match buffer.push (Audio.convert Audio.canonicalRate block) with
    | (first :: others, buffer) => .chunks first others buffer (some rest) (pulled + 1)
    | ([], buffer) => refill buffer (pulled + 1) rest

namespace SynthesisStream

def ofBlocks (voice : String) (blocks : List BlockItem) : SynthesisStream where
  voice := some voice
  source := some blocks
  pulled := 0
  buffer := .empty
  pending := []
  nextSequence := 0
  finalMarker := false
  done := false

def empty : SynthesisStream where
  voice := none
  source := none
  pulled := 0
  buffer := .empty
  pending := []
  nextSequence := 0
  finalMarker := false
  done := false

def withFinalMarker (stream : SynthesisStream) : SynthesisStream :=
  { stream with finalMarker := true }

def chunksEmitted (stream : SynthesisStream) : Nat := stream.nextSequence

def emit (stream : SynthesisStream) (data : Bytes) : Option StreamItem × SynthesisStream :=
  (some (.ok (.ofData data stream.nextSequence)),
    { stream with nextSequence := stream.nextSequence + 1 })

def conclude (stream : SynthesisStream) : Option StreamItem × SynthesisStream :=
  let stream := { stream with source := none, done := true }
  if stream.finalMarker then (some (.ok (.finalMarker stream.nextSequence)), stream)
  else (none, stream)

def next (stream : SynthesisStream) : Option StreamItem × SynthesisStream :=
  match stream.pending with
  | data :: rest => { stream with pending := rest }.emit data
  | [] =>
    if stream.done then (none, stream)
    else match stream.source with
      | none => stream.conclude
      | some blocks => match refill stream.buffer stream.pulled blocks with
        | .chunks first others buffer source pulled =>
          { stream with
            pending := others
            buffer := buffer
            source := source
            pulled := pulled }.emit first
        | .ended pulled => { stream with buffer := .empty, pulled := pulled }.conclude
        | .failed failure pulled =>
          (some (.error failure), { stream with source := none, pulled := pulled, done := true })

/-- At most `count` items, and the stream after them; fewer when the stream ends. -/
def take (stream : SynthesisStream) : (count : Nat) → List StreamItem × SynthesisStream
  | 0 => ([], stream)
  | count + 1 => match stream.next with
    | (none, stream) => ([], stream)
    | (some item, stream) =>
      let (items, stream) := stream.take count
      (item :: items, stream)

/-- How often a source may still be asked, the report of its end included. -/
def asksLeft : Option (List BlockItem) → Nat
  | some blocks => blocks.length + 1
  | none => 0

def openEnd (stream : SynthesisStream) : Nat := if stream.done then 0 else 1

theorem asksLeft_refill {buffer after : ChunkBuffer} {before pulled : Nat} {blocks : List BlockItem}
    {first : Bytes} {others : List Bytes} {source : Option (List BlockItem)}
    (h : refill buffer before blocks = .chunks first others after source pulled) :
    asksLeft source < asksLeft (some blocks) := by
  induction blocks generalizing buffer before with
  | nil =>
    simp only [refill] at h
    split at h <;> cases h
    simp [asksLeft]
  | cons item rest ih =>
    cases item with
    | error failure => cases h
    | ok block =>
      simp only [refill] at h
      split at h
      · cases h
        simp [asksLeft]
      · exact Nat.lt_trans (ih h) (by simp [asksLeft])

/-- Every item brings the end of the stream nearer. -/
theorem next_decreases {stream after : SynthesisStream} {item : StreamItem}
    (h : stream.next = (some item, after)) :
    Prod.Lex (· < ·) (Prod.Lex (· < ·) (· < ·))
      (asksLeft after.source, after.pending.length, after.openEnd)
      (asksLeft stream.source, stream.pending.length, stream.openEnd) := by
  unfold next at h
  split at h
  · rename_i data rest pending
    simp only [emit, Prod.mk.injEq] at h
    obtain ⟨-, rfl⟩ := h
    refine .right _ (.left _ _ ?_)
    simp [pending]
  · rename_i pending
    split at h
    · cases h
    · rename_i open?
      split at h
      · rename_i source
        simp only [conclude] at h
        split at h <;> cases h
        simp only [source, pending, openEnd]
        exact .right _ (.right _ (by simp [open?]))
      · rename_i blocks source
        split at h
        · rename_i refilled
          simp only [emit, Prod.mk.injEq] at h
          obtain ⟨-, rfl⟩ := h
          refine .left _ _ ?_
          simpa only [source] using asksLeft_refill refilled
        · simp only [conclude] at h
          split at h <;> cases h
          exact .left _ _ (by simp [asksLeft, source])
        · cases h
          exact .left _ _ (by simp [asksLeft, source])

/-- Read a stream to its end: its items, and the stream after them. -/
def drain (stream : SynthesisStream) : List StreamItem × SynthesisStream :=
  match _step : stream.next with
  | (none, after) => ([], after)
  | (some item, after) =>
    let (items, last) := after.drain
    (item :: items, last)
termination_by (asksLeft stream.source, stream.pending.length, stream.openEnd)
decreasing_by exact next_decreases _step

end SynthesisStream

/-- Start to speak, the voices having had the calls in `calls`. A blank text gives the empty stream
and calls no voice. -/
def VoiceRegistry.speak (registry : VoiceRegistry) (map : VoiceMap) (calls : List VoiceCall)
    (request : SynthesisRequest) : Except Failure SynthesisStream × List VoiceCall :=
  match Text.trimmed? request.text with
  | none => (.ok .empty, calls)
  | some text =>
    let voice := registry.resolve map request.voice request.language
    let params := SynthesisParams.ofSpeed request.speed
    let started := (voice.render calls text params).map (.ofBlocks voice.id)
    (started, calls ++ [⟨voice.id, text, params⟩])

end SpeechService
