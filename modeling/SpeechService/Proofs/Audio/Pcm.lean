import Mathlib.Data.List.Basic
import SpeechService.Audio

/-!
Bytes that are read as samples and written back. Every sample gives the two bytes that it was read
from, so only a trailing odd byte is lost. A wave file gives back what its header declares, and its
audio.
-/

set_option autoImplicit false

namespace SpeechService.Audio

private theorem toNat_shiftCount : (8 : UInt16).toNat % 16 = 8 := rfl

private theorem toNat_word (low high : UInt8) :
    (low.toUInt16 ||| (high.toUInt16 <<< 8)).toNat = 256 * high.toNat + low.toNat := by
  have small := low.toNat_lt
  have least := high.toNat_lt
  have joined := Nat.shiftLeft_add_eq_or_of_lt small high.toNat
  have bound : high.toNat * 2 ^ 8 % 2 ^ 16 = high.toNat * 2 ^ 8 := by omega
  rw [Nat.shiftLeft_eq] at joined
  rw [UInt16.toNat_or, UInt16.toNat_shiftLeft, UInt8.toNat_toUInt16, UInt8.toNat_toUInt16,
    toNat_shiftCount, Nat.shiftLeft_eq, bound, Nat.or_comm, ← joined]
  omega

theorem bytesOfSample_sampleOfBytes (low high : UInt8) :
    bytesOfSample (sampleOfBytes low high) = [low, high] := by
  have small := low.toNat_lt
  have least := high.toNat_lt
  have number := toNat_word low high
  have read : (sampleOfBytes low high).toUInt16 = low.toUInt16 ||| (high.toUInt16 <<< 8) := rfl
  rw [bytesOfSample, read]
  clear read
  generalize low.toUInt16 ||| (high.toUInt16 <<< 8) = word at *
  have first : word.toUInt8 = low := by
    rw [← UInt8.toNat_inj, UInt16.toNat_toUInt8]
    omega
  have second : (word >>> 8).toUInt8 = high := by
    rw [← UInt8.toNat_inj, UInt16.toNat_toUInt8, UInt16.toNat_shiftRight, toNat_shiftCount,
      Nat.shiftRight_eq_div_pow]
    omega
  rw [first, second]

theorem sampleOfBytes_bytesOfSample (sample : Int16) :
    sampleOfBytes sample.toUInt16.toUInt8 (sample.toUInt16 >>> 8).toUInt8 = sample := by
  have small := sample.toUInt16.toNat_lt
  have word : sample.toUInt16.toUInt8.toUInt16 |||
      ((sample.toUInt16 >>> 8).toUInt8.toUInt16 <<< 8) = sample.toUInt16 := by
    rw [← UInt16.toNat_inj, toNat_word, UInt16.toNat_toUInt8, UInt16.toNat_toUInt8,
      UInt16.toNat_shiftRight, toNat_shiftCount, Nat.shiftRight_eq_div_pow]
    omega
  rw [sampleOfBytes, word, Int16.toInt16_toUInt16]

theorem length_encode (samples : List Int16) : (encode samples).length = 2 * samples.length := by
  induction samples with
  | nil => rfl
  | cons sample samples ih =>
    have two : (bytesOfSample sample).length = 2 := rfl
    rw [encode_cons, List.length_append, two, ih, List.length_cons]
    omega

theorem decode_encode (samples : List Int16) : decode (encode samples) = samples := by
  induction samples with
  | nil => rfl
  | cons sample samples ih =>
    rw [encode_cons, bytesOfSample, List.cons_append, List.cons_append, List.nil_append,
      decode_cons_cons, sampleOfBytes_bytesOfSample, ih]

theorem encode_decode_append : (pcm : Bytes) →
    encode (decode pcm) ++ pcm.drop (2 * (pcm.length / 2)) = pcm
  | [] => rfl
  | [byte] => by
    rw [decode_singleton, encode_nil, List.nil_append, List.length_singleton]
    rfl
  | low :: high :: rest => by
    have halves : 2 * ((low :: high :: rest).length / 2) = 2 * (rest.length / 2) + 2 := by
      simp only [List.length_cons]
      omega
    rw [decode_cons_cons, encode_cons, bytesOfSample_sampleOfBytes, halves, List.drop_succ_cons,
      List.drop_succ_cons, List.append_assoc, encode_decode_append rest]
    rfl

theorem encode_decode {pcm : Bytes} (whole : pcm.length % 2 = 0) : encode (decode pcm) = pcm := by
  have all : 2 * (pcm.length / 2) = pcm.length := by omega
  have split := encode_decode_append pcm
  rw [all, List.drop_length, List.append_nil] at split
  exact split

private theorem decode_append : (pcm : Bytes) → pcm.length % 2 = 0 → (later : Bytes) →
    decode (pcm ++ later) = decode pcm ++ decode later
  | [], _, _ => rfl
  | [_], odd, _ => by cases odd
  | low :: high :: rest, whole, later => by
    have even : rest.length % 2 = 0 := by
      simp only [List.length_cons] at whole
      omega
    rw [List.cons_append, List.cons_append, decode_cons_cons, decode_cons_cons,
      decode_append rest even later, List.cons_append]

theorem decode_append_iff {pcm : Bytes} :
    (∀ later, decode (pcm ++ later) = decode pcm ++ decode later) ↔ pcm.length % 2 = 0 := by
  constructor
  · intro apart
    have counted := congrArg List.length (apart [0])
    rw [List.length_append, length_decode, length_decode, length_decode, List.length_append,
      List.length_singleton, sampleCount, sampleCount, sampleCount, sampleBytes] at counted
    omega
  · exact fun whole => decode_append pcm whole

def ofLittleEndian : Bytes → Nat
  | [] => 0
  | byte :: rest => byte.toNat + 256 * ofLittleEndian rest

theorem length_littleEndian (number count : Nat) : (littleEndian number count).length = count := by
  induction count generalizing number with
  | zero => rfl
  | succ count ih => rw [littleEndian, List.length_cons, ih]

theorem ofLittleEndian_littleEndian {number count : Nat} (fits : number < Nat.pow 256 count) :
    ofLittleEndian (littleEndian number count) = number := by
  induction count generalizing number with
  | zero => exact (Nat.lt_one_iff.1 fits).symm
  | succ count ih =>
    have small : number % 256 < 256 := Nat.mod_lt number (by decide)
    have byte : (UInt8.ofNat (number % 256)).toNat = number % 256 := UInt8.toNat_ofNat_of_lt small
    have quotient : number / 256 < Nat.pow 256 count :=
      (Nat.div_lt_iff_lt_mul (by decide)).2 fits
    rw [littleEndian, ofLittleEndian, ih quotient, byte]
    exact Nat.mod_add_div number 256

/-- The number in the first bytes of a file, and what follows them. -/
def takeNumber? (count : Nat) (file : Bytes) : Option (Nat × Bytes) :=
  if count ≤ file.length then some (ofLittleEndian (file.take count), file.drop count) else none

theorem takeNumber?_append {number count : Nat} (fits : number < Nat.pow 256 count)
    (rest : Bytes) :
    takeNumber? count (littleEndian number count ++ rest) = some (number, rest) := by
  have length := length_littleEndian number count
  have enough : count ≤ (littleEndian number count ++ rest).length := by
    rw [List.length_append, length]
    omega
  rw [takeNumber?, if_pos enough, List.take_left' length, List.drop_left' length,
    ofLittleEndian_littleEndian fits]

/-- Numbers of these widths one after another, and what follows them. -/
def takeNumbers? : (widths : List Nat) → Bytes → Option (List Nat × Bytes)
  | [], file => some ([], file)
  | width :: widths, file =>
    match takeNumber? width file with
    | none => none
    | some (number, file) => (takeNumbers? widths file).map fun (numbers, rest) =>
      (number :: numbers, rest)

theorem takeNumbers?_append {numbers : List (Nat × Nat)}
    (fits : ∀ number ∈ numbers, number.1 < Nat.pow 256 number.2) (rest : Bytes) :
    takeNumbers? (numbers.map Prod.snd)
        (numbers.flatMap (fun number => littleEndian number.1 number.2) ++ rest) =
      some (numbers.map Prod.fst, rest) := by
  induction numbers with
  | nil => rfl
  | cons number numbers ih =>
    have here := fits number List.mem_cons_self
    have later := ih fun other mem => fits other (List.mem_cons_of_mem number mem)
    rw [List.map_cons, List.flatMap_cons, List.append_assoc, takeNumbers?,
      takeNumber?_append here]
    simp only [later]
    rfl

def takeTag? (tag : String) (file : Bytes) : Option Bytes := file.dropPrefix? (sectionTag tag)

theorem takeTag?_append (tag : String) (rest : Bytes) :
    takeTag? tag (sectionTag tag ++ rest) = some rest :=
  List.dropPrefix?_append_of_beq rest (beq_self_eq_true _)

theorem length_sectionTag (tag : String) : (sectionTag tag).length = tag.length := by
  rw [sectionTag, List.length_map, String.length_toList]

/-- The declared length of the section that begins with a tag, and what follows the length. -/
def takeSection? (tag : String) (file : Bytes) : Option (Nat × Bytes) :=
  (takeTag? tag file).bind (takeNumber? 4)

theorem takeSection?_append (tag : String) {length : Nat} (fits : length < Nat.pow 256 4)
    (rest : Bytes) :
    takeSection? tag (sectionTag tag ++ (littleEndian length 4 ++ rest)) = some (length, rest) := by
  rw [takeSection?, takeTag?_append, Option.bind_some, takeNumber?_append fits]

structure Wave where
  channels : Nat
  rate : Nat
  sampleBits : Nat
  dataBytes : Nat
  audio : Bytes
  deriving DecidableEq, Repr

/-- The wave of a file of linear samples whose declared lengths are right. -/
def Wave.ofFile? (file : Bytes) : Option Wave := do
  let (riffBytes, riff) ← takeSection? "RIFF" file
  let wave ← takeTag? "WAVE" riff
  let (formatBytes, format) ← takeSection? "fmt " wave
  let ([encoding, channels, rate, byteRate, frameBytes, sampleBits], rest) ←
    takeNumbers? [2, 2, 4, 4, 2, 2] format | none
  let (dataBytes, audio) ← takeSection? "data" rest
  if riffBytes = riff.length ∧ formatBytes = 16 ∧ encoding = 1 ∧
      8 * frameBytes = channels * sampleBits ∧ byteRate = rate * frameBytes ∧
      dataBytes = audio.length then
    some ⟨channels, rate, sampleBits, dataBytes, audio⟩
  else none

theorem length_waveHeader (dataBytes : Nat) : (waveHeader dataBytes).length = 44 := by
  simp only [waveHeader, List.length_append, length_littleEndian, length_sectionTag]
  decide

/-- The numbers of the format section and their widths: the encoding, the channels, the rate, the
bytes of a second and of a frame, and the bits of a sample. -/
def formatNumbers : List (Nat × Nat) :=
  [(1, 2), (1, 2), (16000, 4), (32000, 4), (2, 2), (16, 2)]

theorem waveHeader_append (dataBytes : Nat) (audio : Bytes) :
    waveHeader dataBytes ++ audio =
      sectionTag "RIFF" ++ (littleEndian (36 + dataBytes) 4 ++ (sectionTag "WAVE" ++
        (sectionTag "fmt " ++ (littleEndian 16 4 ++
          (formatNumbers.flatMap (fun number => littleEndian number.1 number.2) ++
            (sectionTag "data" ++ (littleEndian dataBytes 4 ++ audio))))))) := by
  simp only [waveHeader, formatNumbers, List.append_assoc, List.flatMap_cons, List.flatMap_nil,
    List.nil_append]
  rfl

theorem ofFile?_waveHeader_append {audio : Bytes}
    (fits : (waveHeader audio.length ++ audio).length < UInt32.size) :
    Wave.ofFile? (waveHeader audio.length ++ audio) = some {
      channels := 1
      rate := 16000
      sampleBits := 16
      dataBytes := audio.length
      audio := audio } := by
  rw [List.length_append, length_waveHeader] at fits
  have riff : 36 + audio.length < UInt32.size := by omega
  have data : audio.length < UInt32.size := by omega
  have small : ∀ number ∈ formatNumbers, number.1 < Nat.pow 256 number.2 := by decide
  have numbers : takeNumbers? [2, 2, 4, 4, 2, 2]
      (formatNumbers.flatMap (fun number => littleEndian number.1 number.2) ++
        (sectionTag "data" ++ (littleEndian audio.length 4 ++ audio))) =
      some ([1, 1, 16000, 32000, 2, 16],
        sectionTag "data" ++ (littleEndian audio.length 4 ++ audio)) :=
    takeNumbers?_append small _
  have tags : "WAVE".length = 4 ∧ "fmt ".length = 4 ∧ "data".length = 4 := by decide
  have widths : (formatNumbers.flatMap fun number =>
      littleEndian number.1 number.2).length = 16 := by decide
  rw [waveHeader_append, Wave.ofFile?, takeSection?_append "RIFF" riff]
  simp only [Option.bind_eq_bind, Option.bind_some, takeTag?_append]
  rw [takeSection?_append "fmt " (by decide)]
  simp only [Option.bind_some, numbers]
  rw [takeSection?_append "data" data]
  simp only [Option.bind_some]
  refine if_pos ⟨?_, trivial, trivial, trivial, trivial, trivial⟩
  simp only [List.length_append, length_littleEndian, length_sectionTag, widths]
  omega

end SpeechService.Audio
