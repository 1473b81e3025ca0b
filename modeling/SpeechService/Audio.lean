/-!
Signed 16-bit little-endian mono audio. All audio that crosses the service boundary is in the
canonical format of 16 000 samples a second. It is streamed in chunks of 3200 bytes, a tenth of a
second: a `ChunkBuffer` cuts them from a byte stream, and what is left over waits for the next
bytes; at the end it is padded with silence. In a wave file a header of 44 bytes stands in front of
the samples.
-/

set_option autoImplicit false

namespace SpeechService

/-- A string of bytes: audio, a file, or what a client sends. -/
abbrev Bytes := List UInt8

namespace Audio

def canonicalRate : UInt32 := 16000

def sampleBytes : Nat := 2

/-- The sample whose low byte is `low` and whose high byte is `high`. -/
def sampleOfBytes (low high : UInt8) : Int16 :=
  (low.toUInt16 ||| (high.toUInt16 <<< 8)).toInt16

def bytesOfSample (sample : Int16) : Bytes :=
  [sample.toUInt16.toUInt8, (sample.toUInt16 >>> 8).toUInt8]

/-- Read the remaining bytes, the samples so far being reversed. -/
def decodeOnto (decoded : List Int16) : Bytes → List Int16
  | low :: high :: rest => decodeOnto (sampleOfBytes low high :: decoded) rest
  | _ => decoded.reverse

/-- The samples of a byte string; a trailing odd byte is ignored. -/
def decode (pcm : Bytes) : List Int16 := decodeOnto [] pcm

def encode (samples : List Int16) : Bytes := samples.flatMap bytesOfSample

def unitOfSample (sample : Int16) : Float32 := sample.toFloat32 / 32768

def decodeUnits (pcm : Bytes) : List Float32 := (decode pcm).map unitOfSample

def sampleCount (bytes : Nat) : Nat := bytes / sampleBytes

/-- Milliseconds that so many bytes of canonical audio last, rounded down, in a 32-bit word. -/
def canonicalDuration (bytes : Nat) : UInt32 :=
  UInt32.ofNat (sampleCount bytes * 1000 / canonicalRate.toNat)

private theorem decodeOnto_eq : (decoded : List Int16) → (pcm : Bytes) →
    decodeOnto decoded pcm = decoded.reverse ++ decode pcm
  | decoded, [] => (List.append_nil _).symm
  | decoded, [_] => (List.append_nil _).symm
  | decoded, low :: high :: rest => by
    have here := decodeOnto_eq (sampleOfBytes low high :: decoded) rest
    have alone := decodeOnto_eq [sampleOfBytes low high] rest
    rw [decode, decodeOnto, decodeOnto, here, alone, List.reverse_cons, List.append_assoc,
      List.reverse_singleton]

@[simp] theorem decode_nil : decode [] = [] := rfl

@[simp] theorem decode_singleton (b : UInt8) : decode [b] = [] := rfl

theorem decode_cons_cons (low high : UInt8) (rest : Bytes) :
    decode (low :: high :: rest) = sampleOfBytes low high :: decode rest :=
  decodeOnto_eq [sampleOfBytes low high] rest

theorem length_decode : (pcm : Bytes) → (decode pcm).length = sampleCount pcm.length
  | [] => rfl
  | [b] => by
    rw [decode_singleton, List.length_nil, List.length_singleton, sampleCount, sampleBytes]
  | low :: high :: rest => by
    rw [decode_cons_cons, List.length_cons, length_decode rest]
    simp only [List.length_cons, sampleCount, sampleBytes]
    omega

@[simp] theorem encode_nil : encode [] = [] := rfl

@[simp] theorem encode_cons (sample : Int16) (rest : List Int16) :
    encode (sample :: rest) = bytesOfSample sample ++ encode rest := rfl

end Audio

/-- One block of 16-bit mono audio as a voice renders it; the rate may differ between blocks. -/
structure AudioBlock where
  pcm : Bytes
  rate : UInt32
  deriving DecidableEq, Repr

namespace AudioBlock

def ofSamples (samples : List Int16) (rate : UInt32) : AudioBlock := ⟨Audio.encode samples, rate⟩

def sampleCount (block : AudioBlock) : Nat := Audio.sampleCount block.pcm.length

def seconds (block : AudioBlock) : Float :=
  if block.rate = 0 then 0 else block.sampleCount.toUInt64.toFloat / block.rate.toFloat

def isEmpty (block : AudioBlock) : Bool := block.sampleCount == 0

end AudioBlock

def chunkBytes : Nat := 3200

structure ChunkBuffer where
  residual : Bytes
  residual_lt : residual.length < chunkBytes := by decide

namespace ChunkBuffer

def empty : ChunkBuffer where
  residual := []

/-- Cut as many whole chunks as there are, newest first on top of `cut`. -/
def cutChunks (cut : List Bytes) (bytes : Bytes) : List Bytes × ChunkBuffer :=
  let chunk := bytes.take chunkBytes
  if full : chunk.length = chunkBytes then
    cutChunks (chunk :: cut) (bytes.drop chunkBytes)
  else (cut.reverse, ⟨bytes, by simp only [chunk, List.length_take] at full; omega⟩)
termination_by bytes.length
decreasing_by
  simp only [chunk, List.length_take, List.length_drop, chunkBytes] at full ⊢
  omega

/-- Append bytes and take out every chunk that is now full, in order. -/
def push (buffer : ChunkBuffer) (bytes : Bytes) : List Bytes × ChunkBuffer :=
  cutChunks [] (buffer.residual ++ bytes)

/-- Take out what is waiting as one chunk padded with silence, if anything is waiting. -/
def finish (buffer : ChunkBuffer) : Option Bytes × ChunkBuffer :=
  if buffer.residual.isEmpty then (none, buffer)
  else
    (some (buffer.residual ++ List.replicate (chunkBytes - buffer.residual.length) 0), empty)

end ChunkBuffer

/-- A piece of a stream. Data chunks carry audio; the final marker carries none. -/
structure AudioChunk where
  data : Bytes
  /-- Position in the stream, from zero and without gaps. -/
  sequence : Nat
  duration : UInt32
  isFinal : Bool
  deriving DecidableEq, Repr

namespace AudioChunk

def ofData (data : Bytes) (sequence : Nat) : AudioChunk where
  data := data
  sequence := sequence
  duration := Audio.canonicalDuration data.length
  isFinal := false

def finalMarker (sequence : Nat) : AudioChunk where
  data := []
  sequence := sequence
  duration := 0
  isFinal := true

def isEmpty (chunk : AudioChunk) : Bool := chunk.data.isEmpty

end AudioChunk

end SpeechService

namespace SpeechService.Audio

def littleEndian (number : Nat) : (count : Nat) → Bytes
  | 0 => []
  | count + 1 => UInt8.ofNat (number % 256) :: littleEndian (number / 256) count

def sectionTag (tag : String) : Bytes := tag.toList.map fun c => UInt8.ofNat c.toNat

def canonicalChannels : Nat := 1

def sampleBits : Nat := 16

/-- The header of a wave file with so many bytes of canonical audio. -/
def waveHeader (dataBytes : Nat) : Bytes :=
  let frameBytes := canonicalChannels * sampleBytes
  let rate := canonicalRate.toNat
  sectionTag "RIFF" ++ littleEndian (36 + dataBytes) 4 ++ sectionTag "WAVE" ++
    sectionTag "fmt " ++ littleEndian 16 4 ++ littleEndian 1 2 ++
    littleEndian canonicalChannels 2 ++ littleEndian rate 4 ++
    littleEndian (rate * frameBytes) 4 ++ littleEndian frameBytes 2 ++
    littleEndian sampleBits 2 ++
    sectionTag "data" ++ littleEndian dataBytes 4

def waveFile (samples : List Int16) : Bytes :=
  let pcm := encode samples
  waveHeader pcm.length ++ pcm

end SpeechService.Audio
