import SpeechService.Proofs.Engine.StreamOutput
import SpeechService.Proofs.Text

/-!
When a stream asks its voice for blocks. `OnDemand` says what one call of `next` may ask for and
what it may hand out: a block is asked for only when every full chunk of the blocks before it has
been handed out. `Progress` is the invariant behind it; it relates what has been handed out, what is
pending and what is waiting to the blocks that were given so far.
-/

set_option autoImplicit false

namespace SpeechService

/-- The canonical audio of the first blocks that a voice gives. -/
def heard (blocks : List BlockItem) (count : Nat) : Bytes :=
  audioOf ((leadingBlocks blocks).take count)

theorem audioOf_append (first second : List AudioBlock) :
    audioOf (first ++ second) = audioOf first ++ audioOf second :=
  List.flatMap_append

theorem leadingBlocks_append (given : List AudioBlock) (rest : List BlockItem) :
    leadingBlocks (given.map .ok ++ rest) = given ++ leadingBlocks rest := by
  induction given with
  | nil => rfl
  | cons block given ih => rw [List.map_cons, List.cons_append, leadingBlocks, ih, List.cons_append]

theorem length_heard_mono (blocks : List BlockItem) {fewer more : Nat} (h : fewer ≤ more) :
    (heard blocks fewer).length ≤ (heard blocks more).length := by
  have split := List.take_append_drop fewer ((leadingBlocks blocks).take more)
  rw [List.take_take, Nat.min_eq_left h] at split
  rw [heard, heard, ← split, audioOf_append, List.length_append]
  exact Nat.le_add_right _ _

theorem length_heard_le (blocks : List BlockItem) (count : Nat) :
    (heard blocks count).length ≤ (canonicalAudio blocks).length := by
  have all := length_heard_mono blocks (Nat.le_max_left count (leadingBlocks blocks).length)
  rw [heard, heard, List.take_of_length_le (Nat.le_max_right _ _)] at all
  exact all

theorem heard_length {blocks rest : List BlockItem} {given : List AudioBlock}
    (h : blocks = given.map .ok ++ rest) : heard blocks given.length = audioOf given := by
  rw [heard, h, leadingBlocks_append, List.take_left]

namespace SynthesisStream

/-- What a call of `next` may ask of a voice that gives these blocks, and what it may hand out. -/
structure OnDemand (blocks : List BlockItem) (before : SynthesisStream)
    (item : Option StreamItem) (after : SynthesisStream) : Prop where
  /-- A block is asked for only when every full chunk of those before it has been handed out. -/
  asked : ∀ index, before.pulled ≤ index → index < after.pulled →
    (heard blocks index).length / 3200 ≤ before.chunksEmitted
  /-- The same holds of the end and of a failure. -/
  closing : before.source ≠ none → after.source = none →
    before.chunksEmitted = (canonicalAudio blocks).length / 3200
  /-- A full chunk takes as few blocks as it can, and the voice may give more. -/
  full : before.chunksEmitted < (canonicalAudio blocks).length / 3200 →
    item = some (.ok (.ofData
      (((canonicalAudio blocks).drop (3200 * before.chunksEmitted)).take 3200)
      before.chunksEmitted)) ∧
    3200 * (before.chunksEmitted + 1) ≤ (heard blocks after.pulled).length ∧
    (∀ count < after.pulled, (heard blocks count).length < 3200 * (before.chunksEmitted + 1)) ∧
    after.source = some (blocks.drop after.pulled)
  /-- The padded chunk and the marker come when every block was given and the end reported. -/
  late : ∀ chunk, item = some (.ok chunk) →
    chunk.isFinal = true ∨ (canonicalAudio blocks).length / 3200 ≤ before.chunksEmitted →
    failure? blocks = none ∧ after.pulled = blocks.length ∧ after.source = none
  /-- Nothing is handed out when the end was reported or the voice had failed before. -/
  ended : item = none → after.source = none ∧
    (failure? blocks = none ∧ after.pulled = blocks.length ∨
      (failure? blocks).isSome = true ∧ before.source = none)
  /-- Asking a voice that fails next hands out the failure. -/
  failed : ∀ failure, failure? blocks = some failure → before.source ≠ none → after.source = none →
    item = some (.error failure) ∧ after.pulled = (leadingBlocks blocks).length + 1
  /-- After the end or a failure nothing is asked. -/
  closed : before.source = none → after.source = none ∧ after.pulled = before.pulled

/-- What a stream has asked for and handed out so far. -/
inductive Progress (blocks : List BlockItem) (stream : SynthesisStream) : Prop
  /-- The last of the blocks given so far was needed for a chunk that has been handed out. -/
  | running (given : List AudioBlock) (rest : List BlockItem) (handed : List Bytes)
      (split : blocks = given.map .ok ++ rest) (source : stream.source = some rest)
      (open? : stream.done = false) (pulled : stream.pulled = given.length)
      (number : stream.nextSequence = handed.length)
      (cut : Cut (audioOf given) (handed ++ stream.pending) stream.buffer.residual)
      (needed : given ≠ [] → (audioOf given.dropLast).length < chunkBytes * handed.length) :
      Progress blocks stream
  | exhausted (whole : failure? blocks = none) (source : stream.source = none)
      (pending : stream.pending = []) (pulled : stream.pulled = blocks.length)
      (number : (canonicalAudio blocks).length / chunkBytes ≤ stream.nextSequence) :
      Progress blocks stream
  | failed (failure : Failure) (broken : failure? blocks = some failure)
      (source : stream.source = none) (finished : stream.Finished)
      (number : (canonicalAudio blocks).length / chunkBytes ≤ stream.nextSequence) :
      Progress blocks stream

theorem progress_ofBlocks (voice : String) (blocks : List BlockItem) (marker : Bool) :
    Progress blocks
      (if marker then (ofBlocks voice blocks).withFinalMarker else ofBlocks voice blocks) := by
  have nothing : Cut (audioOf []) ([] ++ []) [] := Cut.of_lt (by decide)
  cases marker with
  | false => exact .running [] blocks [] rfl rfl rfl rfl rfl nothing (absurd rfl)
  | true => exact .running [] blocks [] rfl rfl rfl rfl rfl nothing (absurd rfl)

section Running

variable {blocks rest : List BlockItem} {given earlier : List AudioBlock}
  {handed others : List Bytes} {data left : Bytes}

/-- The blocks given so far just suffice for the next full chunk. -/
private theorem heard_of_cut (split : blocks = given.map .ok ++ rest)
    (cut : Cut (audioOf given) (handed ++ data :: others) left)
    (needed : (audioOf given.dropLast).length < chunkBytes * (handed.length + 1)) :
    ((canonicalAudio blocks).drop (3200 * handed.length)).take 3200 = data ∧
      3200 * (handed.length + 1) ≤ (heard blocks given.length).length ∧
      (∀ count < given.length, (heard blocks count).length < 3200 * (handed.length + 1)) ∧
      rest = blocks.drop given.length := by
  have total := cut.length_eq
  have here := heard_length split
  refine ⟨?_, ?_, ?_, ?_⟩
  · rw [split, canonicalAudio_append]
    exact cut.slice_append _
  · rw [here, total, List.length_append, List.length_cons]
    simp only [chunkBytes]
    omega
  · intro count fewer
    have before : heard blocks (given.length - 1) = audioOf given.dropLast := by
      rw [heard, split, leadingBlocks_append, List.take_append_of_le_length (Nat.sub_le _ _),
        List.dropLast_eq_take]
    have mono := length_heard_mono blocks (Nat.le_sub_one_of_lt fewer)
    rw [before] at mono
    simp only [chunkBytes] at needed
    omega
  · rw [split, List.drop_left' (List.length_map _)]

private theorem heard_of_starved (split : blocks = (given ++ earlier).map .ok ++ rest)
    (cut : Cut (audioOf given) handed left)
    (starved : (left ++ audioOf earlier).length < chunkBytes) {index : Nat}
    (bound : index ≤ given.length + earlier.length) :
    (heard blocks index).length / 3200 ≤ handed.length := by
  have total := cut.length_eq
  have mono := length_heard_mono blocks bound
  have there : heard blocks (given.length + earlier.length) = audioOf given ++ audioOf earlier := by
    rw [← List.length_append, heard_length split, audioOf_append]
  rw [there, List.length_append] at mono
  rw [List.length_append] at starved
  simp only [chunkBytes] at total starved
  omega

private theorem length_canonicalAudio_of_starved
    (audio : canonicalAudio blocks = audioOf (given ++ earlier))
    (cut : Cut (audioOf given) handed left)
    (starved : (left ++ audioOf earlier).length < chunkBytes) :
    handed.length = (canonicalAudio blocks).length / 3200 := by
  have total := cut.length_eq
  rw [audio, audioOf_append, List.length_append]
  rw [List.length_append] at starved
  simp only [chunkBytes] at total starved
  omega

private theorem given_all {all : List AudioBlock} {pulled number : Nat}
    (split : blocks = given.map .ok ++ rest) (count : pulled = given.length)
    (next : number = handed.length) (cut : Cut (audioOf given) handed left)
    (last : rest = all.map .ok) (starved : (left ++ audioOf all).length < chunkBytes) :
    failure? blocks = none ∧ pulled + all.length = blocks.length ∧
      number = (canonicalAudio blocks).length / 3200 ∧
      ∀ index, pulled ≤ index → index < blocks.length →
        (heard blocks index).length / 3200 ≤ number := by
  have whole : blocks = (given ++ all).map .ok := by rw [split, last, List.map_append]
  have audio : canonicalAudio blocks = audioOf (given ++ all) := by rw [whole, canonicalAudio_map]
  have length : blocks.length = given.length + all.length := by
    rw [whole, List.length_map, List.length_append]
  refine ⟨?_, ?_, ?_, ?_⟩
  · rw [whole, failure?_map]
  · rw [length, count]
  · rw [next]
    exact length_canonicalAudio_of_starved audio cut starved
  · intro index _ bound
    rw [next]
    have every : blocks = (given ++ all).map .ok ++ [] := by rw [whole, List.append_nil]
    exact heard_of_starved every cut starved (by omega)

end Running

section Calls

variable {blocks rest : List BlockItem} {stream after : SynthesisStream}

/-- What a call may ask for and hand out, and where it leaves the stream. -/
def Serves (blocks : List BlockItem) (before : SynthesisStream)
    (result : Option StreamItem × SynthesisStream) : Prop :=
  OnDemand blocks before result.1 result.2 ∧ Progress blocks result.2

private theorem serves_chunk {given : List AudioBlock} {handed : List Bytes} {data : Bytes}
    (split : blocks = given.map .ok ++ rest)
    (cut : Cut (audioOf given) (handed ++ data :: after.pending) after.buffer.residual)
    (needed : (audioOf given.dropLast).length < chunkBytes * (handed.length + 1))
    (before : stream.source ≠ none) (number : stream.nextSequence = handed.length)
    (asked : ∀ index, stream.pulled ≤ index → index < given.length →
      (heard blocks index).length / 3200 ≤ handed.length)
    (source : after.source = some rest) (open? : after.done = false)
    (pulled : after.pulled = given.length) (next : after.nextSequence = handed.length + 1) :
    Serves blocks stream (some (.ok (.ofData data handed.length)), after) := by
  obtain ⟨slice, reached, least, left⟩ := heard_of_cut split cut needed
  have open_source : after.source ≠ none := by
    rw [source]
    exact Option.some_ne_none rest
  constructor
  · constructor
    case asked =>
      intro index from_ to_
      rw [pulled] at to_
      rw [chunksEmitted, number]
      exact asked index from_ to_
    case full =>
      intro _
      rw [chunksEmitted, number, pulled, source, slice, left]
      exact ⟨rfl, reached, least, rfl⟩
    case late =>
      intro chunk handed_out which
      cases handed_out
      rcases which with final | every
      · cases final
      · have more := length_heard_le blocks given.length
        rw [chunksEmitted, number] at every
        omega
    case ended =>
      intro nothing
      cases nothing
    case closing => exact fun _ closed => absurd closed open_source
    case failed => exact fun _ _ _ closed => absurd closed open_source
    case closed => exact fun closed => absurd closed before
  · have handed_all : Cut (audioOf given) ((handed ++ [data]) ++ after.pending)
        after.buffer.residual := by
      rw [List.append_assoc]
      exact cut
    refine .running given rest (handed ++ [data]) split source open? pulled ?_ handed_all ?_
    · rw [next, List.length_append, List.length_singleton]
    · intro _
      rw [List.length_append, List.length_singleton]
      exact needed

private theorem serves_end {item : Option StreamItem} (whole : failure? blocks = none)
    (every : (canonicalAudio blocks).length / 3200 ≤ stream.nextSequence)
    (closing : stream.source ≠ none →
      stream.nextSequence = (canonicalAudio blocks).length / 3200)
    (asked : ∀ index, stream.pulled ≤ index → index < blocks.length →
      (heard blocks index).length / 3200 ≤ stream.nextSequence)
    (kept : stream.source = none → stream.pulled = blocks.length)
    (source : after.source = none) (pending : after.pending = [])
    (pulled : after.pulled = blocks.length)
    (number : stream.nextSequence ≤ after.nextSequence) :
    Serves blocks stream (item, after) := by
  constructor
  · constructor
    case asked =>
      intro index from_ to_
      rw [pulled] at to_
      exact asked index from_ to_
    case closing => exact fun opened _ => closing opened
    case full => exact fun more => absurd every (Nat.not_le_of_lt more)
    case late => exact fun _ _ _ => ⟨whole, pulled, source⟩
    case ended => exact fun _ => ⟨source, .inl ⟨whole, pulled⟩⟩
    case failed =>
      intro failure broken
      rw [whole] at broken
      cases broken
    case closed => exact fun closed => ⟨source, pulled.trans (kept closed).symm⟩
  · exact .exhausted whole source pending pulled (Nat.le_trans every number)

private theorem serves_failure {failure : Failure} (broken : failure? blocks = some failure)
    (before : stream.source ≠ none)
    (number : stream.nextSequence = (canonicalAudio blocks).length / 3200)
    (asked : ∀ index, stream.pulled ≤ index → index < (leadingBlocks blocks).length + 1 →
      (heard blocks index).length / 3200 ≤ stream.nextSequence)
    (source : after.source = none) (finished : after.Finished)
    (pulled : after.pulled = (leadingBlocks blocks).length + 1)
    (next : after.nextSequence = stream.nextSequence) :
    Serves blocks stream (some (.error failure), after) := by
  have every := Nat.le_of_eq number.symm
  constructor
  · constructor
    case asked =>
      intro index from_ to_
      rw [pulled] at to_
      exact asked index from_ to_
    case closing => exact fun _ _ => number
    case full => exact fun more => absurd every (Nat.not_le_of_lt more)
    case late =>
      intro chunk handed_out
      cases handed_out
    case ended =>
      intro nothing
      cases nothing
    case failed =>
      intro other same _ _
      rw [broken] at same
      cases same
      exact ⟨rfl, pulled⟩
    case closed => exact fun closed => absurd closed before
  · rw [← next] at every
    exact .failed failure broken source finished every

private theorem serves_failed {failure : Failure} (broken : failure? blocks = some failure)
    (source : stream.source = none) (finished : stream.Finished)
    (number : (canonicalAudio blocks).length / 3200 ≤ stream.nextSequence) :
    Serves blocks stream (none, stream) := by
  constructor
  · constructor
    case asked => exact fun _ from_ to_ => absurd (Nat.lt_of_le_of_lt from_ to_) (Nat.lt_irrefl _)
    case closing => exact fun opened _ => absurd source opened
    case full => exact fun more => absurd number (Nat.not_le_of_lt more)
    case late =>
      intro chunk handed_out
      cases handed_out
    case ended =>
      intro _
      refine ⟨source, .inr ⟨?_, source⟩⟩
      rw [broken]
      rfl
    case failed => exact fun _ _ opened => absurd source opened
    case closed => exact fun closed => ⟨closed, rfl⟩
  · exact .failed failure broken source finished number

private theorem serves_conclude {other : SynthesisStream} (whole : failure? blocks = none)
    (closing : stream.source ≠ none →
      stream.nextSequence = (canonicalAudio blocks).length / 3200)
    (every : (canonicalAudio blocks).length / 3200 ≤ stream.nextSequence)
    (asked : ∀ index, stream.pulled ≤ index → index < blocks.length →
      (heard blocks index).length / 3200 ≤ stream.nextSequence)
    (kept : stream.source = none → stream.pulled = blocks.length)
    (pending : other.pending = []) (pulled : other.pulled = blocks.length)
    (number : other.nextSequence = stream.nextSequence) :
    Serves blocks stream other.conclude := by
  have next := Nat.le_of_eq number.symm
  simp only [conclude]
  split
  · exact serves_end whole every closing asked kept rfl pending pulled next
  · exact serves_end whole every closing asked kept rfl pending pulled next

private theorem serves_refill {given : List AudioBlock} {handed : List Bytes} {outcome : Refill}
    (split : blocks = given.map .ok ++ rest) (source : stream.source = some rest)
    (open? : stream.done = false) (pending : stream.pending = [])
    (pulled : stream.pulled = given.length) (number : stream.nextSequence = handed.length)
    (cut : Cut (audioOf given) handed stream.buffer.residual)
    (refilled : Refilled stream.buffer stream.pulled rest outcome) :
    Serves blocks stream (stream.afterRefill outcome) := by
  have opened : stream.source ≠ none := by
    rw [source]
    exact Option.some_ne_none rest
  cases refilled with
  | chunks earlier last left first others buffer more starved filled =>
    have whole : blocks = (given ++ earlier ++ [last]).map .ok ++ left := by
      rw [split, more, ← List.append_assoc, ← List.map_append, List.append_assoc given]
    have all : Cut (audioOf (given ++ earlier ++ [last])) (handed ++ first :: others)
        buffer.residual := by
      rw [List.append_assoc, audioOf_append]
      refine cut.append ?_
      exact filled
    have step : stream.afterRefill (.chunks first others buffer (some left)
          (stream.pulled + earlier.length + 1)) =
        (some (.ok (.ofData first handed.length)), { stream with
          pending := others
          buffer := buffer
          source := some left
          pulled := stream.pulled + earlier.length + 1
          nextSequence := stream.nextSequence + 1 }) := by
      rw [← number]
      rfl
    have length : stream.pulled + earlier.length + 1 = (given ++ earlier ++ [last]).length := by
      rw [pulled, List.length_append, List.length_append, List.length_singleton]
    rw [step]
    refine serves_chunk whole all ?_ opened number ?_ rfl open? length (congrArg (· + 1) number)
    · have total := cut.length_eq
      rw [List.dropLast_concat, audioOf_append, List.length_append]
      rw [List.length_append] at starved
      simp only [chunkBytes] at total starved ⊢
      omega
    · intro index _ to_
      have before : blocks = (given ++ earlier).map .ok ++ .ok last :: left := by
        rw [whole, List.map_append, List.append_assoc]
        rfl
      refine heard_of_starved before cut starved ?_
      rw [List.length_append, List.length_append, List.length_singleton] at to_
      omega
  | tail all more starved waiting =>
    obtain ⟨whole, length, counted, asked⟩ := given_all split pulled number cut more starved
    exact serves_end whole (Nat.le_of_eq counted.symm) (fun _ => counted) asked
      (fun closed => absurd closed opened) rfl rfl length (Nat.le_succ _)
  | ended all more nothing =>
    have starved : (stream.buffer.residual ++ audioOf all).length < chunkBytes := by
      rw [nothing]
      decide
    obtain ⟨whole, length, counted, asked⟩ := given_all split pulled number cut more starved
    exact serves_conclude whole (fun _ => counted) (Nat.le_of_eq counted.symm) asked
      (fun closed => absurd closed opened) pending length rfl
  | failed earlier failure left more starved =>
    have whole : blocks = (given ++ earlier).map .ok ++ .error failure :: left := by
      rw [split, more, List.map_append, List.append_assoc]
    have audio : canonicalAudio blocks = audioOf (given ++ earlier) := by
      rw [whole, canonicalAudio_append, canonicalAudio_error, List.append_nil]
    have leading : leadingBlocks blocks = given ++ earlier := by
      rw [whole, leadingBlocks_append]
      exact List.append_nil _
    have counted := length_canonicalAudio_of_starved audio cut starved
    rw [← number] at counted
    refine serves_failure (by rw [whole, failure?_append]; rfl) opened counted ?_ rfl
      ⟨pending, rfl⟩ ?_ rfl
    · intro index _ to_
      rw [leading, List.length_append] at to_
      rw [number]
      exact heard_of_starved whole cut starved (Nat.le_of_lt_succ to_)
    · rw [leading, List.length_append, ← pulled]

/-- Every call asks and hands out as it should. -/
theorem serves_next (h : Progress blocks stream) : Serves blocks stream stream.next := by
  have stepped := stream.next_stepped
  generalize stream.next = result at stepped
  cases h with
  | running given rest handed split source open? pulled number cut needed =>
    cases stepped with
    | pending data others waiting =>
      rw [waiting] at cut
      have some? : given ≠ [] := by
        rintro rfl
        have total := cut.length_eq
        rw [audioOf_nil, List.length_nil, List.length_append, List.length_cons, chunkBytes] at total
        omega
      have enough : (audioOf given.dropLast).length < chunkBytes * (handed.length + 1) :=
        Nat.lt_of_lt_of_le (needed some?) (Nat.mul_le_mul_left _ (Nat.le_succ _))
      have opened : stream.source ≠ none := by
        rw [source]
        exact Option.some_ne_none rest
      have step : { stream with pending := others }.emit data =
          (some (.ok (.ofData data handed.length)), { stream with
            pending := others
            nextSequence := stream.nextSequence + 1 }) := by
        rw [← number]
        rfl
      rw [step]
      refine serves_chunk split cut enough opened number ?_ source open? pulled
        (congrArg (· + 1) number)
      intro index from_ to_
      rw [pulled] at from_
      omega
    | finished finished =>
      rw [finished.2] at open?
      cases open?
    | exhausted pending opened closed =>
      rw [source] at closed
      cases closed
    | refilled asked outcome pending opened same refilled =>
      rw [source] at same
      cases same
      rw [pending, List.append_nil] at cut
      exact serves_refill split source open? pending pulled number cut refilled
  | exhausted whole source pending pulled number =>
    have closing (opened : stream.source ≠ none) :
        stream.nextSequence = (canonicalAudio blocks).length / 3200 := absurd source opened
    have asked (index : Nat) (from_ : stream.pulled ≤ index) (to_ : index < blocks.length) :
        (heard blocks index).length / 3200 ≤ stream.nextSequence := by
      rw [pulled] at from_
      omega
    cases stepped with
    | pending data others waiting =>
      rw [pending] at waiting
      cases waiting
    | finished finished =>
      exact serves_end whole number closing asked (fun _ => pulled) source pending pulled
        (Nat.le_refl _)
    | exhausted _ _ _ =>
      exact serves_conclude whole closing number asked (fun _ => pulled) pending pulled rfl
    | refilled asked outcome _ _ same _ =>
      rw [source] at same
      cases same
  | failed failure broken source finished number =>
    cases stepped with
    | pending data others waiting =>
      rw [finished.1] at waiting
      cases waiting
    | finished _ => exact serves_failed broken source finished number
    | exhausted _ open? _ =>
      rw [finished.2] at open?
      cases open?
    | refilled asked outcome _ _ same _ =>
      rw [source] at same
      cases same

end Calls

section Runs

variable {blocks : List BlockItem} {stream : SynthesisStream}

theorem calls_cons (stream : SynthesisStream) (count : Nat) :
    stream.calls (count + 1) =
      (stream.next.1 :: (stream.next.2.calls count).1, (stream.next.2.calls count).2) := rfl

theorem calls_succ (stream : SynthesisStream) (count : Nat) :
    stream.calls (count + 1) =
      ((stream.calls count).1 ++ [(stream.calls count).2.next.1],
        (stream.calls count).2.next.2) := by
  induction count generalizing stream with
  | zero => rfl
  | succ count ih =>
    rw [calls_cons stream (count + 1), ih, calls_cons stream count, List.cons_append]

theorem progress_calls (start : Progress blocks stream) (count : Nat) :
    Progress blocks (stream.calls count).2 := by
  induction count with
  | zero => exact start
  | succ count ih =>
    rw [calls_succ]
    exact (serves_next ih).2

theorem chunksEmitted_calls_of_le (start : Progress blocks stream)
    (fresh : stream.chunksEmitted = 0) {count : Nat}
    (enough : count ≤ (canonicalAudio blocks).length / 3200) :
    (stream.calls count).2.chunksEmitted = count := by
  induction count with
  | zero => exact fresh
  | succ count ih =>
    have before := ih (Nat.le_of_succ_le enough)
    have step := (serves_next (progress_calls start count)).1
    have given := (step.full (by omega)).1
    rw [chunksEmitted_calls, fresh] at before ⊢
    rw [calls_succ, List.countP_append, given]
    exact (Nat.add_assoc _ _ _).symm.trans (congrArg (· + 1) before)

theorem closed_calls (start : Progress blocks stream) (closed : stream.source = none)
    (count : Nat) :
    (stream.calls count).2.source = none ∧ (stream.calls count).2.pulled = stream.pulled := by
  induction count with
  | zero => exact ⟨closed, rfl⟩
  | succ count ih =>
    obtain ⟨source, pulled⟩ := (serves_next (progress_calls start count)).1.closed ih.1
    rw [calls_succ]
    exact ⟨source, pulled.trans ih.2⟩

theorem failure_mem_calls (start : Progress blocks stream) (opened : stream.source ≠ none)
    {failure : Failure} (broken : failure? blocks = some failure) {count : Nat}
    (closed : (stream.calls count).2.source = none) :
    some (.error failure) ∈ (stream.calls count).1 := by
  induction count with
  | zero => exact absurd closed opened
  | succ count ih =>
    rw [calls_succ] at closed ⊢
    rw [List.mem_append]
    by_cases before : (stream.calls count).2.source = none
    · exact .inl (ih before)
    -- the call that closes the source is the one that hands out the failure
    · have step := (serves_next (progress_calls start count)).1
      obtain ⟨handed, -⟩ := step.failed failure broken before closed
      rw [handed]
      exact .inr List.mem_cons_self

end Runs

end SynthesisStream

theorem VoiceRegistry.speak_of_isBlankText (registry : VoiceRegistry) (map : VoiceMap)
    (calls : List VoiceCall) {request : SynthesisRequest}
    (blank : Text.isBlankText request.text = true) :
    registry.speak map calls request = (.ok .empty, calls) := by
  rw [speak, (Text.trimmed?_eq_none_iff _).2 blank]

/-- A stream asks its voice for no block before its first call. Whenever it hands out a full chunk
it has asked for the least number of blocks that hold so much audio; every call is `OnDemand`, and
after a failure nothing is handed out before the failure itself. The stream of a blank text comes
from no call of a voice and asks for nothing. -/
theorem calls_onDemand (voice : String) (blocks : List BlockItem) (marker : Bool) :
    let whole := SynthesisStream.ofBlocks voice blocks
    let stream := if marker then whole.withFinalMarker else whole
    let silent := if marker then SynthesisStream.empty.withFinalMarker else .empty
    let audio := canonicalAudio blocks
    (stream.pulled = 0 ∧ stream.source = some blocks) ∧
      (∀ index, 3200 * (index + 1) ≤ audio.length →
        let after := (stream.calls (index + 1)).2
        (stream.calls (index + 1)).1.getLast? =
            some (some (.ok (.ofData ((audio.drop (3200 * index)).take 3200) index))) ∧
          3200 * (index + 1) ≤ (heard blocks after.pulled).length ∧
          (∀ count < after.pulled, (heard blocks count).length < 3200 * (index + 1)) ∧
          after.source = some (blocks.drop after.pulled)) ∧
      (∀ count,
        let before := (stream.calls count).2
        SynthesisStream.OnDemand blocks before before.next.1 before.next.2 ∧
          (before.next.1 = none → ∀ failure, failure? blocks = some failure →
            some (.error failure) ∈ (stream.calls count).1)) ∧
      (∀ (registry : VoiceRegistry) (map : VoiceMap) (calls : List VoiceCall)
          (request : SynthesisRequest), Text.isBlankText request.text = true →
        registry.speak map calls request = (.ok .empty, calls) ∧
          ∀ count, (silent.calls count).2.pulled = 0 ∧ (silent.calls count).2.source = none) := by
  intro whole stream silent audio
  have start : SynthesisStream.Progress blocks stream :=
    SynthesisStream.progress_ofBlocks voice blocks marker
  have fresh : stream.pulled = 0 ∧ stream.source = some blocks ∧ stream.chunksEmitted = 0 := by
    cases marker <;> exact ⟨rfl, rfl, rfl⟩
  have opened : stream.source ≠ none := by
    rw [fresh.2.1]
    exact Option.some_ne_none blocks
  refine ⟨⟨fresh.1, fresh.2.1⟩, ?_, ?_, ?_⟩
  · intro index enough
    have next : index + 1 ≤ audio.length / 3200 := by omega
    have before :=
      SynthesisStream.chunksEmitted_calls_of_le start fresh.2.2 (Nat.le_of_succ_le next)
    have step := (SynthesisStream.serves_next (SynthesisStream.progress_calls start index)).1
    have given := step.full (Nat.lt_of_le_of_lt (Nat.le_of_eq before) next)
    rw [before] at given
    rw [SynthesisStream.calls_succ, List.getLast?_concat, given.1]
    exact ⟨rfl, given.2⟩
  · intro count
    have step := (SynthesisStream.serves_next (SynthesisStream.progress_calls start count)).1
    refine ⟨step, ?_⟩
    intro nothing failure broken
    rcases (step.ended nothing).2 with ⟨unbroken, -⟩ | ⟨-, closed⟩
    · rw [unbroken] at broken
      cases broken
    · exact SynthesisStream.failure_mem_calls start opened broken closed
  · intro registry map calls request blank
    refine ⟨registry.speak_of_isBlankText map calls blank, ?_⟩
    intro count
    have quiet : SynthesisStream.Progress [] silent := by
      cases marker <;> exact .exhausted rfl rfl rfl rfl (Nat.le_refl _)
    have closed : silent.source = none ∧ silent.pulled = 0 := by
      cases marker <;> exact ⟨rfl, rfl⟩
    obtain ⟨source, pulled⟩ := SynthesisStream.closed_calls quiet closed.1 count
    exact ⟨pulled.trans closed.2, source⟩

theorem calls_onDemand_first :
    let block : BlockItem := .ok ⟨List.replicate 3200 0, Audio.canonicalRate⟩
    let stream := SynthesisStream.ofBlocks "tone" [block, block]
    3200 * 1 ≤ (canonicalAudio [block, block]).length ∧ (stream.calls 1).2.pulled = 1 := by
  intro block stream
  have same : Audio.convert Audio.canonicalRate ⟨List.replicate 3200 0, Audio.canonicalRate⟩ =
      List.replicate 3200 0 := if_pos (.inr rfl)
  have one : (heard [block, block] 1).length = 3200 := by
    have first : (leadingBlocks [block, block]).take 1 =
        [⟨List.replicate 3200 0, Audio.canonicalRate⟩] := rfl
    rw [heard, first, audioOf_cons, audioOf_nil, List.append_nil, same, List.length_replicate]
  have enough : 3200 * 1 ≤ (canonicalAudio [block, block]).length := by
    have more := length_heard_le [block, block] 1
    omega
  obtain ⟨-, reached, least, -⟩ := (calls_onDemand "tone" [block, block] false).2.1 0 enough
  refine ⟨enough, ?_⟩
  have none : (heard [block, block] 0).length = 0 := rfl
  have few : ¬1 < (stream.calls 1).2.pulled := by
    intro more
    have short := least 1 more
    omega
  have some? : (stream.calls 1).2.pulled ≠ 0 := by
    intro zero
    have short : 3200 ≤ (heard [block, block] 0).length := zero ▸ reached
    omega
  omega

end SpeechService
