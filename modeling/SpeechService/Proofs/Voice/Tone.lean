import Mathlib.Algebra.Ring.Nat
import Mathlib.Data.List.Forall2
import SpeechService.Proofs.Audio.Pcm
import SpeechService.Proofs.Text
import SpeechService.Voice.Directory

/-!
The sentences of a text, and the tone that stands for them. `Divides` follows a text from mark to
mark; it is what the scan does, and nothing of the text is lost by it but blanks. Wherever a block
of the tone begins, it goes on with the sample that comes next, so that the blocks of a text
together are the beginning of one sequence of samples.
-/

set_option autoImplicit false

namespace SpeechService

def Unmarked (text : List Char) : Prop := ∀ c ∈ text, isSentenceEnd c = false

/-- A text and its sentences. Up to the first mark there is one sentence; without a mark the whole
text is one, unless it is blank. -/
inductive Divides : List Char → List (List Char) → Prop
  | blank {text : List Char} (blank : ∀ c ∈ text, Text.isBlank c = true) : Divides text []
  | last {text : List Char} (unmarked : Unmarked text) (visible : Text.trimList text ≠ []) :
      Divides text [Text.trimList text]
  | mark {front rest : List Char} {c : Char} {pieces : List (List Char)}
      (unmarked : Unmarked front) (mark : isSentenceEnd c = true) (later : Divides rest pieces) :
      Divides (front ++ c :: rest) ((front.dropWhile Text.isBlank ++ [c]) :: pieces)

/-- Pieces in their order, with only blanks before, between and behind them. -/
inductive Spaced : List (List Char) → List Char → Prop
  | nil {gap : List Char} (blank : ∀ c ∈ gap, Text.isBlank c = true) : Spaced [] gap
  | cons {gap : List Char} (blank : ∀ c ∈ gap, Text.isBlank c = true) (piece : List Char)
      {pieces : List (List Char)} {rest : List Char} (later : Spaced pieces rest) :
      Spaced (piece :: pieces) (gap ++ piece ++ rest)

/-- A piece of text, not empty, without blanks around it, with no mark before its last character. -/
structure Sentence (piece : List Char) : Prop where
  ne_nil : piece ≠ []
  first : ∀ c ∈ piece.head?, Text.isBlank c = false
  last : ∀ c ∈ piece.getLast?, Text.isBlank c = false
  unmarked : Unmarked piece.dropLast

def Ended (piece : List Char) : Prop := ∃ c ∈ piece.getLast?, isSentenceEnd c = true

theorem not_isBlank_of_isSentenceEnd {c : Char} (mark : isSentenceEnd c = true) :
    Text.isBlank c = false := by
  simp only [isSentenceEnd, Bool.or_eq_true, beq_iff_eq] at mark
  rcases mark with (rfl | rfl) | rfl <;> decide

theorem unmarked_of_blank {text : List Char} (blank : ∀ c ∈ text, Text.isBlank c = true) :
    Unmarked text := by
  intro c mem
  by_contra mark
  have visible := not_isBlank_of_isSentenceEnd (Bool.not_eq_false _ ▸ mark)
  rw [blank c mem] at visible
  cases visible

theorem eq_nil_of_unmarked {text : List Char} (unmarked : Unmarked text)
    (ended : ∀ c ∈ text.getLast?, isSentenceEnd c = true) : text = [] := by
  by_contra some?
  have mark := ended _ (List.getLast?_eq_some_getLast some?)
  rw [unmarked _ (List.getLast_mem some?)] at mark
  cases mark

theorem trimList_concat {c : Char} (visible : Text.isBlank c = false) (front : List Char) :
    Text.trimList (front ++ [c]) = front.dropWhile Text.isBlank ++ [c] :=
  Text.trimList_append_cons visible front []

theorem addPiece_of_blank {piece : List Char} (nothing : Text.trimList piece = [])
    (pieces : List (List Char)) : addPiece piece pieces = pieces := by
  rw [addPiece, nothing]
  rfl

theorem addPiece_of_visible {piece : List Char} (visible : Text.trimList piece ≠ [])
    (pieces : List (List Char)) : addPiece piece pieces = Text.trimList piece :: pieces := by
  rw [addPiece, if_neg]
  rwa [List.isEmpty_iff]

theorem sentencesOnto_of_mark {c : Char} (mark : isSentenceEnd c = true)
    (pieces : List (List Char)) (current rest : List Char) :
    sentencesOnto pieces current (c :: rest) =
      sentencesOnto ((current.reverse.dropWhile Text.isBlank ++ [c]) :: pieces) [] rest := by
  have piece := trimList_concat (not_isBlank_of_isSentenceEnd mark) current.reverse
  have visible : Text.trimList (current.reverse ++ [c]) ≠ [] := by
    rw [piece]
    exact List.concat_ne_nil c _
  rw [sentencesOnto, if_pos mark, List.reverse_cons, addPiece_of_visible visible, piece]

theorem sentencesOnto_eq (pieces : List (List Char)) (current text : List Char) :
    sentencesOnto pieces current text = pieces.reverse ++ sentencesOnto [] current text := by
  induction text generalizing pieces current with
  | nil =>
    by_cases nothing : Text.trimList current.reverse = []
    · simp only [sentencesOnto, addPiece_of_blank nothing, List.reverse_nil, List.append_nil]
    · simp only [sentencesOnto, addPiece_of_visible nothing, List.reverse_cons, List.reverse_nil,
        List.nil_append]
  | cons c rest ih =>
    by_cases mark : isSentenceEnd c = true
    · rw [sentencesOnto_of_mark mark, sentencesOnto_of_mark mark, ih, ih [_], List.reverse_cons,
        List.reverse_singleton, List.append_assoc]
    · rw [sentencesOnto, if_neg mark, ih, sentencesOnto, if_neg mark]

/-- The scan divides the text that it has not divided yet: the characters since the last mark, none
of which is a mark, and the text that remains. -/
theorem divides_sentencesOnto (current : List Char) (unmarked : Unmarked current.reverse)
    (text : List Char) : Divides (current.reverse ++ text) (sentencesOnto [] current text) := by
  induction text generalizing current with
  | nil =>
    rw [List.append_nil, sentencesOnto]
    by_cases nothing : Text.trimList current.reverse = []
    · rw [addPiece_of_blank nothing]
      exact .blank ((Text.trimList_eq_nil_iff _).1 nothing)
    · rw [addPiece_of_visible nothing]
      exact .last unmarked nothing
  | cons c rest ih =>
    by_cases mark : isSentenceEnd c = true
    · rw [sentencesOnto_of_mark mark, sentencesOnto_eq]
      exact .mark unmarked mark (ih [] nofun)
    · have longer : Unmarked (c :: current).reverse := by
        rw [List.reverse_cons]
        exact List.forall_mem_append.2 ⟨unmarked, by simpa using mark⟩
      rw [sentencesOnto, if_neg mark, List.append_cons, ← List.reverse_cons]
      exact ih _ longer

theorem divides_sentences (text : List Char) : Divides text (sentences text) :=
  divides_sentencesOnto [] nofun text

theorem sentencesOnto_append {front : List Char} (unmarked : Unmarked front)
    (pieces : List (List Char)) (current rest : List Char) :
    sentencesOnto pieces current (front ++ rest) =
      sentencesOnto pieces (front.reverse ++ current) rest := by
  induction front generalizing current with
  | nil => rfl
  | cons c front ih =>
    obtain ⟨plain, others⟩ := List.forall_mem_cons.1 unmarked
    rw [List.cons_append, sentencesOnto, if_neg (Bool.eq_false_iff.1 plain), ih others,
      List.reverse_cons, List.append_assoc, List.singleton_append]

theorem sentences_of_unmarked {text : List Char} (unmarked : Unmarked text) :
    sentences text = (addPiece text []).reverse := by
  have aside := sentencesOnto_append unmarked [] [] []
  rw [List.append_nil, List.append_nil, sentencesOnto, List.reverse_reverse] at aside
  exact aside

namespace Divides

variable {text : List Char} {pieces : List (List Char)}

theorem eq_sentences (h : Divides text pieces) : sentences text = pieces := by
  induction h with
  | blank blank =>
    rw [sentences_of_unmarked (unmarked_of_blank blank),
      addPiece_of_blank ((Text.trimList_eq_nil_iff _).2 blank)]
    rfl
  | last unmarked visible =>
    rw [sentences_of_unmarked unmarked, addPiece_of_visible visible]
    rfl
  | mark unmarked mark later ih =>
    rw [sentences, sentencesOnto_append unmarked, sentencesOnto_of_mark mark, sentencesOnto_eq,
      List.append_nil, List.reverse_reverse, ← sentences, ih]
    rfl

theorem spaced (h : Divides text pieces) : Spaced pieces text := by
  induction h with
  | blank blank => exact .nil blank
  | last unmarked visible =>
    rename_i text
    obtain ⟨front, back, before, behind, split⟩ := Text.exists_append_trimList text
    have whole := Spaced.cons before (Text.trimList text) (.nil behind)
    rwa [split] at whole
  | mark unmarked mark later ih =>
    rename_i front rest c pieces
    have before : ∀ d ∈ front.takeWhile Text.isBlank, Text.isBlank d = true :=
      fun d mem => List.mem_takeWhile_imp mem
    have whole := Spaced.cons before (front.dropWhile Text.isBlank ++ [c]) ih
    rwa [← List.append_assoc, List.takeWhile_append_dropWhile, ← List.append_cons] at whole

theorem sentence (h : Divides text pieces) : ∀ piece ∈ pieces, Sentence piece := by
  induction h with
  | blank blank => nofun
  | last unmarked visible =>
    rename_i text
    obtain ⟨first, last⟩ := Text.not_isBlank_ends_trimList text
    refine List.forall_mem_singleton.2 ⟨visible, first, last, ?_⟩
    exact fun d mem => unmarked d (Text.mem_of_mem_trimList ((List.dropLast_subset _) mem))
  | mark unmarked mark later ih =>
    rename_i front rest c pieces
    have trimmed := trimList_concat (not_isBlank_of_isSentenceEnd mark) front
    have ends := Text.not_isBlank_ends_trimList (front ++ [c])
    rw [trimmed] at ends
    refine List.forall_mem_cons.2 ⟨⟨List.concat_ne_nil c _, ends.1, ends.2, ?_⟩, ih⟩
    rw [List.dropLast_concat]
    exact fun d mem => unmarked d ((List.dropWhile_suffix _).subset mem)

theorem ended (h : Divides text pieces) : ∀ piece ∈ pieces.dropLast, Ended piece := by
  induction h with
  | blank blank => nofun
  | last unmarked visible => nofun
  | mark unmarked mark later ih =>
    rename_i front rest c pieces
    cases pieces with
    | nil => nofun
    | cons other others =>
      rw [List.dropLast_cons_of_ne_nil (List.cons_ne_nil other others)]
      exact List.forall_mem_cons.2 ⟨⟨c, List.getLast?_concat, mark⟩, ih⟩

theorem append {later : List Char} {others : List (List Char)} (h : Divides text pieces)
    (ended : ∀ c ∈ text.getLast?, isSentenceEnd c = true) (further : Divides later others) :
    Divides (text ++ later) (pieces ++ others) := by
  induction h with
  | blank blank =>
    rw [eq_nil_of_unmarked (unmarked_of_blank blank) ended]
    exact further
  | last unmarked visible =>
    rw [eq_nil_of_unmarked unmarked ended] at visible
    exact absurd rfl visible
  | mark unmarked mark later ih =>
    rename_i front rest c pieces
    rw [List.append_assoc, List.cons_append, List.cons_append]
    refine .mark unmarked mark (ih fun d mem => ended d ?_)
    rw [Option.mem_def] at mem ⊢
    rw [List.getLast?_append, List.getLast?_cons, mem]
    rfl

section Gaps

variable {gap : List Char} (blank : ∀ c ∈ gap, Text.isBlank c = true)

include blank

theorem behind (h : Divides text pieces) : Divides (gap ++ text) pieces := by
  have plain := unmarked_of_blank blank
  cases h with
  | blank all => exact .blank (List.forall_mem_append.2 ⟨blank, all⟩)
  | last unmarked visible =>
    rw [← Text.trimList_blank_append blank] at visible ⊢
    exact .last (List.forall_mem_append.2 ⟨plain, unmarked⟩) visible
  | mark unmarked mark later =>
    rename_i front rest c pieces
    rw [← List.append_assoc, ← List.dropWhile_append_of_pos blank]
    exact .mark (List.forall_mem_append.2 ⟨plain, unmarked⟩) mark later

theorem before (h : Divides text pieces) : Divides (text ++ gap) pieces := by
  have plain := unmarked_of_blank blank
  induction h with
  | blank all => exact .blank (List.forall_mem_append.2 ⟨all, blank⟩)
  | last unmarked visible =>
    rw [← Text.trimList_append_blank blank] at visible ⊢
    exact .last (List.forall_mem_append.2 ⟨unmarked, plain⟩) visible
  | mark unmarked mark later ih =>
    rw [List.append_assoc, List.cons_append]
    exact .mark unmarked mark ih

end Gaps

end Divides

theorem sentences_trimList (text : List Char) :
    sentences (Text.trimList text) = sentences text := by
  obtain ⟨front, back, before, behind, split⟩ := Text.exists_append_trimList text
  have divided := ((divides_sentences (Text.trimList text)).behind before).before behind
  rw [split] at divided
  exact divided.eq_sentences.symm

/-- A text is its sentences, with only blanks before, between and behind them. They are trimmed, and
all but the last one end at the first mark in them. Trimming the text changes none of them, and
neither does what follows a mark. -/
theorem sentences_spaced (text : List Char) :
    Spaced (sentences text) text ∧ (∀ piece ∈ sentences text, Sentence piece) ∧
      (∀ piece ∈ (sentences text).dropLast, Ended piece) ∧
      sentences (Text.trimList text) = sentences text ∧
      ∀ later, Ended text → sentences (text ++ later) = sentences text ++ sentences later := by
  have divided := divides_sentences text
  refine ⟨divided.spaced, divided.sentence, divided.ended, sentences_trimList text, ?_⟩
  rintro later ⟨c, last, mark⟩
  refine (divided.append ?_ (divides_sentences later)).eq_sentences
  intro d mem
  rw [Option.mem_unique mem last]
  exact mark

theorem sentences_spaced_exclamation :
    let text := " One!\u3000 ? Two.".toList
    let pieces := ["One!".toList, "?".toList, "Two.".toList]
    sentences text = pieces ∧ Spaced pieces text ∧ "?".toList ∈ pieces ∧ Sentence "?".toList ∧
      "One!".toList ∈ pieces.dropLast ∧ Ended "One!".toList ∧
      sentences (Text.trimList text) = pieces ∧ Ended text ∧
      sentences (text ++ " rest ".toList) = pieces ++ ["rest".toList] := by
  intro text pieces
  obtain ⟨spaced, each, ended, trimmed, append⟩ := sentences_spaced text
  have divided : sentences text = pieces := by decide +kernel
  have marked : Ended text := ⟨'.', by decide +kernel, rfl⟩
  have further : sentences " rest ".toList = ["rest".toList] := by decide +kernel
  have alone : "?".toList ∈ pieces := by decide +kernel
  have first : "One!".toList ∈ pieces.dropLast := by decide +kernel
  have behind := append " rest ".toList marked
  rw [divided] at spaced each ended trimmed behind
  rw [further] at behind
  exact ⟨divided, spaced, alone, each _ alone, first, ended _ first, trimmed, marked, behind⟩

namespace AudioBlock

def samples (block : AudioBlock) : List Int16 := Audio.decode block.pcm

theorem samples_ofSamples (samples : List Int16) (rate : UInt32) :
    (ofSamples samples rate).samples = samples :=
  Audio.decode_encode samples

end AudioBlock

namespace Tone

/-- Samples in the block of a sentence of so many characters, whatever the frequency is. -/
def blockSamples (rate : UInt32) (scale : Float32) (characters : Nat) : Nat :=
  (standard rate).sentenceLength scale characters

theorem sentenceLength_eq (tone : Tone) (scale : Float32) (characters : Nat) :
    tone.sentenceLength scale characters = blockSamples tone.rate scale characters := rfl

variable (tone : Tone)

theorem forall₂_blocksFrom (start : Nat) (lengths : List Nat) :
    List.Forall₂ (fun length block => block.rate = tone.rate ∧ block.pcm.length = 2 * length)
      lengths (tone.blocksFrom start lengths) := by
  induction lengths generalizing start with
  | nil => exact .nil
  | cons length lengths ih =>
    refine .cons ⟨rfl, ?_⟩ (ih (start + length))
    rw [AudioBlock.ofSamples, Audio.length_encode, List.length_map, List.length_range']

theorem flatMap_samples_blocksFrom (start : Nat) (lengths : List Nat) :
    (tone.blocksFrom start lengths).flatMap AudioBlock.samples =
      (List.range' start lengths.sum).map tone.sample := by
  induction lengths generalizing start with
  | nil => rfl
  | cons length lengths ih =>
    rw [blocksFrom, List.flatMap_cons, AudioBlock.samples_ofSamples, ih, ← List.map_append,
      List.range'_append_1, List.sum_cons]

/-- A tone renders one block for each sentence, at its rate, and as long as the number of characters
asks for. All blocks together are the samples of the tone from the first one on, with none left out
and none twice, wherever sentences end and whatever was rendered before. -/
theorem render_continues (calls : List VoiceCall) (text : String) (params : SynthesisParams) :
    let lengths := (sentences text.toList).map fun sentence =>
      blockSamples tone.rate params.lengthScale sentence.length
    ∃ blocks : List AudioBlock,
      tone.synthesizer.render calls text params = .ok (blocks.map .ok) ∧
      List.Forall₂ (fun length block => block.rate = tone.rate ∧ block.pcm.length = 2 * length)
        lengths blocks ∧
      blocks.flatMap AudioBlock.samples = (List.range lengths.sum).map tone.sample := by
  intro lengths
  have rendered : tone.blocks text params = tone.blocksFrom 0 lengths := by
    simp only [blocks, lengths, sentenceLength_eq]
  refine ⟨tone.blocks text params, rfl, ?_, ?_⟩
  · rw [rendered]
    exact tone.forall₂_blocksFrom 0 lengths
  · rw [rendered, tone.flatMap_samples_blocksFrom, List.range_eq_range']

end Tone

end SpeechService
