import SpeechService.Engine.Stream
import SpeechService.Proofs.Audio.Chunks

/-!
What a stream yields from its first item to its last. `Refilled` says what asking a voice for blocks
can lead to, with exactly the items that were asked for in each case, and `Stepped` what one call of
`next` can do. From it follow the items of a whole stream, which are the chunks of the canonical
audio before the first failure and then the end that the voice comes to.
-/

set_option autoImplicit false

namespace SpeechService

def leadingBlocks : List BlockItem → List AudioBlock
  | .ok block :: rest => block :: leadingBlocks rest
  | _ => []

def failure? : List BlockItem → Option Failure
  | [] => none
  | .ok _ :: rest => failure? rest
  | .error failure :: _ => some failure

def audioOf (blocks : List AudioBlock) : Bytes :=
  blocks.flatMap (Audio.convert Audio.canonicalRate)

/-- The canonical audio before the first failure. -/
def canonicalAudio (items : List BlockItem) : Bytes := audioOf (leadingBlocks items)

@[simp] theorem audioOf_nil : audioOf [] = [] := rfl

@[simp] theorem audioOf_cons (block : AudioBlock) (blocks : List AudioBlock) :
    audioOf (block :: blocks) = Audio.convert Audio.canonicalRate block ++ audioOf blocks :=
  List.flatMap_cons

@[simp] theorem canonicalAudio_nil : canonicalAudio [] = [] := rfl

@[simp] theorem canonicalAudio_error (failure : Failure) (items : List BlockItem) :
    canonicalAudio (.error failure :: items) = [] := rfl

theorem canonicalAudio_append (blocks : List AudioBlock) (items : List BlockItem) :
    canonicalAudio (blocks.map .ok ++ items) = audioOf blocks ++ canonicalAudio items := by
  induction blocks with
  | nil => rfl
  | cons block blocks ih =>
    rw [canonicalAudio] at ih
    rw [List.map_cons, List.cons_append, canonicalAudio, leadingBlocks, audioOf_cons, ih,
      audioOf_cons, List.append_assoc]

theorem failure?_append (blocks : List AudioBlock) (items : List BlockItem) :
    failure? (blocks.map .ok ++ items) = failure? items := by
  induction blocks with
  | nil => rfl
  | cons block blocks ih => rw [List.map_cons, List.cons_append, failure?, ih]

theorem canonicalAudio_map (blocks : List AudioBlock) :
    canonicalAudio (blocks.map .ok) = audioOf blocks := by
  have ended := canonicalAudio_append blocks []
  rw [List.append_nil, canonicalAudio_nil, List.append_nil] at ended
  exact ended

theorem failure?_map (blocks : List AudioBlock) : failure? (blocks.map .ok) = none := by
  have ended := failure?_append blocks []
  rw [List.append_nil] at ended
  exact ended

/-- What asking for `blocks` can lead to, and exactly what was asked for then. -/
inductive Refilled (buffer : ChunkBuffer) (pulled : Nat) (blocks : List BlockItem) : Refill → Prop
  /-- The block `last` fills a chunk, which the blocks before it did not. -/
  | chunks (earlier : List AudioBlock) (last : AudioBlock) (rest : List BlockItem)
      (first : Bytes) (others : List Bytes) (after : ChunkBuffer)
      (source : blocks = (earlier ++ [last]).map .ok ++ rest)
      (starved : (buffer.residual ++ audioOf earlier).length < chunkBytes)
      (cut : Cut (buffer.residual ++ audioOf (earlier ++ [last])) (first :: others)
        after.residual) :
      Refilled buffer pulled blocks
        (.chunks first others after (some rest) (pulled + earlier.length + 1))
  /-- All blocks are given, and what is waiting is padded. -/
  | tail (all : List AudioBlock) (source : blocks = all.map .ok)
      (starved : (buffer.residual ++ audioOf all).length < chunkBytes)
      (waiting : buffer.residual ++ audioOf all ≠ []) :
      Refilled buffer pulled blocks
        (.chunks (padded (buffer.residual ++ audioOf all)) [] .empty none (pulled + all.length))
  /-- All blocks are given, and nothing is waiting. -/
  | ended (all : List AudioBlock) (source : blocks = all.map .ok)
      (nothing : buffer.residual ++ audioOf all = []) :
      Refilled buffer pulled blocks (.ended (pulled + all.length))
  /-- The voice fails before a chunk is full. -/
  | failed (earlier : List AudioBlock) (failure : Failure) (rest : List BlockItem)
      (source : blocks = earlier.map .ok ++ .error failure :: rest)
      (starved : (buffer.residual ++ audioOf earlier).length < chunkBytes) :
      Refilled buffer pulled blocks (.failed failure (pulled + earlier.length + 1))

private theorem Refilled.cons {buffer next : ChunkBuffer} {pulled : Nat} {block : AudioBlock}
    {blocks : List BlockItem} {outcome : Refill}
    (grown : next.residual = buffer.residual ++ Audio.convert Audio.canonicalRate block)
    (h : Refilled next (pulled + 1) blocks outcome) :
    Refilled buffer pulled (.ok block :: blocks) outcome := by
  have same (more : List AudioBlock) :
      next.residual ++ audioOf more = buffer.residual ++ audioOf (block :: more) := by
    rw [grown, audioOf_cons, List.append_assoc]
  have count (more : List AudioBlock) :
      pulled + 1 + more.length = pulled + (block :: more).length := by
    rw [List.length_cons]
    omega
  cases h with
  | chunks earlier last rest first others after source starved cut =>
    rw [same] at starved cut
    rw [count]
    exact .chunks (block :: earlier) last rest first others after (by simp [source]) starved cut
  | tail all source starved waiting =>
    rw [same] at starved waiting
    rw [same, count]
    exact .tail (block :: all) (by simp [source]) starved waiting
  | ended all source nothing =>
    rw [same] at nothing
    rw [count]
    exact .ended (block :: all) (by simp [source]) nothing
  | failed earlier failure rest source starved =>
    rw [same] at starved
    rw [count]
    exact .failed (block :: earlier) failure rest (by simp [source]) starved

theorem refill_refilled (buffer : ChunkBuffer) (pulled : Nat) (blocks : List BlockItem) :
    Refilled buffer pulled blocks (refill buffer pulled blocks) := by
  induction blocks generalizing buffer pulled with
  | nil =>
    have alone : buffer.residual ++ audioOf [] = buffer.residual := by
      rw [audioOf_nil, List.append_nil]
    rw [refill, buffer.finish_eq]
    split
    · rename_i last after finished
      split at finished
      · cases finished
      · rename_i waiting
        cases finished
        rw [← alone] at waiting ⊢
        refine .tail [] rfl ?_ waiting
        rw [alone]
        exact buffer.residual_lt
    · rename_i after finished
      split at finished
      · rename_i nothing
        exact .ended [] rfl (by rw [alone]; exact nothing)
      · cases finished
  | cons item rest ih =>
    cases item with
    | error failure =>
      refine .failed [] failure rest rfl ?_
      rw [audioOf_nil, List.append_nil]
      exact buffer.residual_lt
    | ok block =>
      have cut := buffer.push_cut (Audio.convert Audio.canonicalRate block)
      rw [refill]
      split
      · rename_i first others after pushed
        rw [pushed] at cut
        refine .chunks [] block rest first others after rfl ?_ ?_
        · rw [audioOf_nil, List.append_nil]
          exact buffer.residual_lt
        · rw [List.nil_append, audioOf_cons, audioOf_nil, List.append_nil]
          exact cut
      · rename_i after pushed
        rw [pushed] at cut
        exact .cons cut.rest_eq (ih after (pulled + 1))

def numbered : Nat → List Bytes → List AudioChunk
  | _, [] => []
  | number, data :: rest => .ofData data number :: numbered (number + 1) rest

/-- What ends a stream after so many data chunks: the failure of the voice, else the marker if one
is asked for. -/
def ending (marker : Bool) (count : Nat) : Option Failure → List StreamItem
  | some failure => [.error failure]
  | none => if marker then [.ok (.finalMarker count)] else []

/-- The last data chunk, with what is left over after the whole ones. -/
def tailChunk (rest : Bytes) : List Bytes := if rest = [] then [] else [padded rest]

/-- All data chunks: the whole ones, and the tail unless the voice fails. -/
def allChunks (chunks : List Bytes) (rest : Bytes) : Option Failure → List Bytes
  | none => chunks ++ tailChunk rest
  | some _ => chunks

theorem length_numbered (number : Nat) (datas : List Bytes) :
    (numbered number datas).length = datas.length := by
  induction datas generalizing number with
  | nil => rfl
  | cons data datas ih => rw [numbered, List.length_cons, List.length_cons, ih]

theorem numbered_append (number : Nat) (first second : List Bytes) :
    numbered number (first ++ second) =
      numbered number first ++ numbered (number + first.length) second := by
  induction first generalizing number with
  | nil => rfl
  | cons data first ih =>
    have shift : number + 1 + first.length = number + (first.length + 1) := by omega
    rw [List.cons_append, numbered, numbered, ih, List.cons_append, List.length_cons, shift]

namespace SynthesisStream

def Finished (stream : SynthesisStream) : Prop := stream.pending = [] ∧ stream.done = true

theorem next_of_finished {stream : SynthesisStream} (h : stream.Finished) :
    stream.next = (none, stream) := by
  rw [next, h.1, h.2]
  rfl

def afterRefill (stream : SynthesisStream) : Refill → Option StreamItem × SynthesisStream
  | .chunks first others buffer source pulled =>
    { stream with
      pending := others
      buffer := buffer
      source := source
      pulled := pulled }.emit first
  | .ended pulled => { stream with buffer := .empty, pulled := pulled }.conclude
  | .failed failure pulled =>
    (some (.error failure), { stream with source := none, pulled := pulled, done := true })

/-- What one call of `next` can do. -/
inductive Stepped (stream : SynthesisStream) : Option StreamItem × SynthesisStream → Prop
  | pending (data : Bytes) (rest : List Bytes) (waiting : stream.pending = data :: rest) :
      Stepped stream ({ stream with pending := rest }.emit data)
  | finished (finished : stream.Finished) : Stepped stream (none, stream)
  | exhausted (pending : stream.pending = []) (open? : stream.done = false)
      (source : stream.source = none) : Stepped stream stream.conclude
  | refilled (blocks : List BlockItem) (outcome : Refill) (pending : stream.pending = [])
      (open? : stream.done = false) (source : stream.source = some blocks)
      (refilled : Refilled stream.buffer stream.pulled blocks outcome) :
      Stepped stream (stream.afterRefill outcome)

theorem next_of_source {stream : SynthesisStream} {blocks : List BlockItem}
    (pending : stream.pending = []) (open? : stream.done = false)
    (source : stream.source = some blocks) :
    stream.next = stream.afterRefill (refill stream.buffer stream.pulled blocks) := by
  obtain ⟨voice, _, pulled, buffer, _, number, marker, _⟩ := stream
  cases pending
  cases open?
  cases source
  simp only [next, Bool.false_eq_true, if_false]
  generalize refill buffer pulled blocks = outcome
  cases outcome <;> rfl

theorem next_stepped (stream : SynthesisStream) : stream.Stepped stream.next := by
  cases pending : stream.pending with
  | cons data rest =>
    have step : stream.next = { stream with pending := rest }.emit data := by
      rw [next, pending]
    rw [step]
    exact .pending data rest pending
  | nil =>
    cases open? : stream.done with
    | true =>
      rw [next_of_finished ⟨pending, open?⟩]
      exact .finished ⟨pending, open?⟩
    | false =>
      cases source : stream.source with
      | none =>
        have step : stream.next = stream.conclude := by
          rw [next, pending, open?, source]
          rfl
        rw [step]
        exact .exhausted pending open? source
      | some blocks =>
        rw [next_of_source pending open? source]
        exact .refilled blocks _ pending open? source (refill_refilled _ _ _)

theorem finished_of_conclude {stream after : SynthesisStream} (pending : stream.pending = [])
    (h : stream.conclude = (none, after)) : after.Finished := by
  simp only [conclude] at h
  split at h <;> cases h
  exact ⟨pending, rfl⟩

theorem finished_of_next {stream after : SynthesisStream} (h : stream.next = (none, after)) :
    after.Finished := by
  have stepped := stream.next_stepped
  rw [h] at stepped
  generalize given : (none, after) = result at stepped
  cases stepped with
  | pending data rest waiting => cases given
  | finished finished =>
    cases given
    exact finished
  | exhausted pending open? source => exact finished_of_conclude pending given.symm
  | refilled blocks outcome pending open? source refilled =>
    cases outcome with
    | chunks first others buffer source pulled => cases given
    | ended pulled =>
      rw [afterRefill] at given
      refine finished_of_conclude ?_ given.symm
      exact pending
    | failed failure pulled => cases given

theorem drain_of_next_none {stream after : SynthesisStream} (h : stream.next = (none, after)) :
    stream.drain = ([], after) := by
  rw [drain]
  split
  · rename_i last step
    rw [h] at step
    cases step
    rfl
  · rename_i item next step
    rw [h] at step
    cases step

theorem drain_of_next_some {stream after : SynthesisStream} {item : StreamItem}
    (h : stream.next = (some item, after)) :
    stream.drain = (item :: after.drain.1, after.drain.2) := by
  rw [drain]
  split
  · rename_i last step
    rw [h] at step
    cases step
  · rename_i other next step
    rw [h] at step
    cases step
    rfl

/-- The stream with other chunks to hand out, and as many counted. -/
def withPending (stream : SynthesisStream) (pending : List Bytes) (number : Nat) :
    SynthesisStream :=
  { stream with pending := pending, nextSequence := number }

theorem drain_withPending (stream : SynthesisStream) (pending : List Bytes) (number : Nat) :
    (stream.withPending pending number).drain =
      ((numbered number pending).map .ok ++
          (stream.withPending [] (number + pending.length)).drain.1,
        (stream.withPending [] (number + pending.length)).drain.2) := by
  induction pending generalizing number with
  | nil => rfl
  | cons data pending ih =>
    have step : (stream.withPending (data :: pending) number).next =
        (some (.ok (.ofData data number)), stream.withPending pending (number + 1)) := rfl
    have shift : number + 1 + pending.length = number + (data :: pending).length := by
      rw [List.length_cons]
      omega
    rw [drain_of_next_some step, ih, shift]
    rfl

theorem drain_of_conclude {stream other : SynthesisStream} (step : stream.next = other.conclude)
    (pending : other.pending = []) :
    stream.drain = (ending other.finalMarker other.nextSequence none,
      { other with source := none, done := true }) := by
  have closed : ({ other with source := none, done := true } : SynthesisStream).Finished :=
    ⟨pending, rfl⟩
  have rest := drain_of_next_none (next_of_finished closed)
  simp only [conclude] at step
  cases marker : other.finalMarker with
  | false =>
    rw [marker, if_neg Bool.false_ne_true] at step
    rw [drain_of_next_none step]
    rfl
  | true =>
    rw [marker, if_pos rfl] at step
    rw [drain_of_next_some step]
    rw [marker] at rest
    rw [rest]
    rfl

/-- The items of a stream are the chunks of some audio and then the end. -/
def Yields (stream : SynthesisStream) (audio : Bytes) (failure : Option Failure) : Prop :=
  ∃ chunks rest, Cut audio chunks rest ∧
    stream.drain.1 =
      (numbered stream.nextSequence (allChunks chunks rest failure)).map .ok ++
        ending stream.finalMarker
          (stream.nextSequence + (allChunks chunks rest failure).length) failure

private theorem yields_of_refill {stream later : SynthesisStream} {audio more rest : Bytes}
    {first : Bytes} {others : List Bytes} {failure : Option Failure}
    (step : stream.next = (some (.ok (.ofData first stream.nextSequence)),
      later.withPending others (stream.nextSequence + 1)))
    (marker : later.finalMarker = stream.finalMarker) (cut : Cut audio (first :: others) rest)
    (h : (later.withPending [] (stream.nextSequence + 1 + others.length)).Yields (rest ++ more)
      failure) :
    stream.Yields (audio ++ more) failure := by
  obtain ⟨chunks, left, left_cut, items⟩ := h
  have split : allChunks (first :: others ++ chunks) left failure =
      first :: (others ++ allChunks chunks left failure) := by
    cases failure with
    | none => exact List.append_assoc (first :: others) chunks (tailChunk left)
    | some failure => rfl
  have shift : stream.nextSequence + 1 + others.length + (allChunks chunks left failure).length =
      stream.nextSequence + (first :: (others ++ allChunks chunks left failure)).length := by
    rw [List.length_cons, List.length_append]
    omega
  refine ⟨first :: others ++ chunks, left, cut.append left_cut, ?_⟩
  rw [drain_of_next_some step, drain_withPending, items, split, ← shift, ← marker, numbered,
    numbered_append, List.map_cons, List.map_append, List.cons_append, List.append_assoc]
  rfl

private theorem yields_of_conclude {stream other : SynthesisStream} {audio : Bytes}
    (step : stream.next = other.conclude) (pending : other.pending = [])
    (number : other.nextSequence = stream.nextSequence)
    (marker : other.finalMarker = stream.finalMarker) (nothing : audio = []) :
    stream.Yields audio none := by
  subst nothing
  refine ⟨[], [], .of_lt (by decide), ?_⟩
  rw [drain_of_conclude step pending, number, marker]
  rfl

private theorem yields_of_tail {stream last : SynthesisStream} {audio : Bytes}
    (step : stream.next = (some (.ok (.ofData (padded audio) stream.nextSequence)), last))
    (concluding : last.next = last.conclude) (pending : last.pending = [])
    (number : last.nextSequence = stream.nextSequence + 1)
    (marker : last.finalMarker = stream.finalMarker) (short : audio.length < chunkBytes)
    (waiting : audio ≠ []) :
    stream.Yields audio none := by
  refine ⟨[], audio, .of_lt short, ?_⟩
  rw [drain_of_next_some step, drain_of_conclude concluding pending, number, marker, allChunks,
    tailChunk, if_neg waiting]
  rfl

private theorem yields_of_failure {stream last : SynthesisStream} {audio : Bytes}
    {failure : Failure} (step : stream.next = (some (.error failure), last))
    (finished : last.Finished) (short : audio.length < chunkBytes) :
    stream.Yields audio (some failure) := by
  refine ⟨[], audio, .of_lt short, ?_⟩
  rw [drain_of_next_some step, drain_of_next_none (next_of_finished finished)]
  rfl

/-- A stream that has handed out every chunk of the blocks it has asked for yields the chunks of
what is waiting and of the blocks to come. -/
theorem yields_of_source {stream : SynthesisStream} {blocks : List BlockItem}
    (pending : stream.pending = []) (open? : stream.done = false)
    (source : stream.source = some blocks) :
    stream.Yields (stream.buffer.residual ++ canonicalAudio blocks) (failure? blocks) := by
  -- on the number of blocks to come: a refill that gives chunks has asked for at least one
  induction size : blocks.length using Nat.strongRecOn generalizing stream blocks with
  | ind _ ih =>
    subst size
    have step := next_of_source pending open? source
    have refilled := refill_refilled stream.buffer stream.pulled blocks
    generalize refill stream.buffer stream.pulled blocks = outcome at step refilled
    cases refilled with
    | chunks earlier last rest first others after given starved cut =>
      subst given
      rw [canonicalAudio_append, failure?_append, ← List.append_assoc]
      have shorter : rest.length < ((earlier ++ [last]).map Except.ok ++ rest).length := by
        rw [List.length_append, List.length_map, List.length_append, List.length_singleton]
        omega
      let later : SynthesisStream := { stream with
        buffer := after
        source := some rest
        pulled := stream.pulled + earlier.length + 1 }
      have handed : stream.next = (some (.ok (.ofData first stream.nextSequence)),
          later.withPending others (stream.nextSequence + 1)) := step
      exact yields_of_refill handed rfl cut (ih rest.length shorter rfl open? rfl rfl)
    | tail all given starved waiting =>
      rw [given, canonicalAudio_map, failure?_map]
      refine yields_of_tail step ?_ rfl rfl rfl starved waiting
      rw [next, open?]
      rfl
    | ended all given nothing =>
      rw [given, canonicalAudio_map, failure?_map]
      exact yields_of_conclude step pending rfl rfl nothing
    | failed earlier failure rest given starved =>
      rw [given, canonicalAudio_append, failure?_append, canonicalAudio_error, List.append_nil]
      exact yields_of_failure step ⟨pending, rfl⟩ starved

/-- The items of a fresh stream of blocks. -/
theorem drain_ofBlocks (voice : String) (blocks : List BlockItem) (marker : Bool) :
    ∃ chunks rest, Cut (canonicalAudio blocks) chunks rest ∧
      (if marker then (ofBlocks voice blocks).withFinalMarker else ofBlocks voice blocks).drain.1 =
        (numbered 0 (allChunks chunks rest (failure? blocks))).map .ok ++
          ending marker (numbered 0 (allChunks chunks rest (failure? blocks))).length
            (failure? blocks) := by
  let fresh := ofBlocks voice blocks
  have start : ∀ stream, stream = (if marker then fresh.withFinalMarker else fresh) →
      stream.pending = [] ∧ stream.done = false ∧ stream.source = some blocks ∧
        stream.buffer = .empty ∧ stream.nextSequence = 0 ∧ stream.finalMarker = marker := by
    rintro stream rfl
    cases marker <;> exact ⟨rfl, rfl, rfl, rfl, rfl, rfl⟩
  obtain ⟨pending, open?, source, buffer, number, marked⟩ := start _ rfl
  obtain ⟨chunks, rest, cut, items⟩ := yields_of_source pending open? source
  rw [buffer] at cut
  rw [number, marked, Nat.zero_add] at items
  refine ⟨chunks, rest, cut, ?_⟩
  rw [length_numbered]
  exact items

theorem drain_empty_withFinalMarker :
    empty.withFinalMarker.drain.1 = [.ok (.finalMarker 0)] := by
  have step : empty.withFinalMarker.next = empty.withFinalMarker.conclude := rfl
  rw [drain_of_conclude step rfl]
  rfl

/-- What `count` calls of `next` give, and the stream after them. The end does not stop the calls.
-/
def calls (stream : SynthesisStream) : (count : Nat) → List (Option StreamItem) × SynthesisStream
  | 0 => ([], stream)
  | count + 1 =>
    let (item, stream) := stream.next
    let (items, last) := stream.calls count
    (item :: items, last)

private theorem calls_of_finished {stream : SynthesisStream} (h : stream.Finished) (count : Nat) :
    (stream.calls count).1 = List.replicate count none := by
  induction count with
  | zero => rfl
  | succ count ih =>
    simp only [calls, next_of_finished h]
    rw [ih, List.replicate_succ]

theorem calls_eq_drain (stream : SynthesisStream) (count : Nat) :
    (stream.calls count).1 = (List.range count).map fun index => stream.drain.1[index]? := by
  induction count generalizing stream with
  | zero => rfl
  | succ count ih =>
    rw [List.range_succ_eq_map, List.map_cons, List.map_map]
    rcases step : stream.next with ⟨_ | item, after⟩
    · have finished := calls_of_finished (finished_of_next step) count
      simp only [calls, step, drain_of_next_none step]
      have nothing : ((fun index => ([] : List StreamItem)[index]?) ∘ Nat.succ) =
          fun _ => none := rfl
      rw [finished, nothing, List.map_const', List.length_range]
      rfl
    · simp only [calls, step, drain_of_next_some step]
      rw [ih]
      rfl

def givesData : Option StreamItem → Bool
  | some (.ok chunk) => !chunk.isFinal
  | _ => false

private theorem chunksEmitted_conclude (stream : SynthesisStream) :
    stream.conclude.2.chunksEmitted =
      stream.chunksEmitted + (givesData stream.conclude.1).toNat := by
  unfold conclude
  cases marker : stream.finalMarker <;> rfl

private theorem chunksEmitted_next (stream : SynthesisStream) :
    stream.next.2.chunksEmitted = stream.chunksEmitted + (givesData stream.next.1).toNat := by
  have stepped := stream.next_stepped
  generalize stream.next = result at stepped
  cases stepped with
  | pending data rest waiting => rfl
  | finished finished => rfl
  | exhausted pending open? source => exact chunksEmitted_conclude stream
  | refilled blocks outcome pending open? source refilled =>
    cases outcome with
    | chunks first others buffer source pulled => rfl
    | ended pulled => exact chunksEmitted_conclude _
    | failed failure pulled => rfl

theorem chunksEmitted_calls (stream : SynthesisStream) (count : Nat) :
    (stream.calls count).2.chunksEmitted =
      stream.chunksEmitted + (stream.calls count).1.countP givesData := by
  induction count generalizing stream with
  | zero => rfl
  | succ count ih =>
    have step := chunksEmitted_next stream
    have counted : (givesData stream.next.1).toNat = if givesData stream.next.1 then 1 else 0 := by
      cases givesData stream.next.1 <;> rfl
    simp only [calls, ih, List.countP_cons]
    omega

end SynthesisStream

structure InOrder (chunks : List AudioChunk) : Prop where
  length_data : ∀ chunk ∈ chunks, chunk.data.length = 3200
  duration : ∀ chunk ∈ chunks, chunk.duration = 100
  isFinal : ∀ chunk ∈ chunks, chunk.isFinal = false
  sequence : chunks.map AudioChunk.sequence = List.range chunks.length

theorem mem_numbered {number : Nat} {datas : List Bytes} {chunk : AudioChunk}
    (h : chunk ∈ numbered number datas) :
    ∃ data ∈ datas, ∃ sequence, chunk = .ofData data sequence := by
  induction datas generalizing number with
  | nil => cases h
  | cons data datas ih =>
    rcases List.mem_cons.1 h with rfl | later
    · exact ⟨data, List.mem_cons_self, number, rfl⟩
    · obtain ⟨other, mem, sequence, made⟩ := ih later
      exact ⟨other, List.mem_cons_of_mem data mem, sequence, made⟩

theorem map_sequence_numbered (number : Nat) (datas : List Bytes) :
    (numbered number datas).map AudioChunk.sequence = List.range' number datas.length := by
  induction datas generalizing number with
  | nil => rfl
  | cons data datas ih => rw [numbered, List.map_cons, ih, List.length_cons, List.range'_succ]; rfl

theorem flatMap_data_numbered (number : Nat) (datas : List Bytes) :
    (numbered number datas).flatMap AudioChunk.data = datas.flatten := by
  induction datas generalizing number with
  | nil => rfl
  | cons data datas ih => rw [numbered, List.flatMap_cons, ih, List.flatten_cons]; rfl

theorem inOrder_numbered {datas : List Bytes} (h : ∀ data ∈ datas, data.length = chunkBytes) :
    InOrder (numbered 0 datas) := by
  have tenth : Audio.canonicalDuration chunkBytes = 100 := by decide
  refine ⟨?_, ?_, ?_, ?_⟩
  · intro chunk mem
    obtain ⟨data, here, sequence, rfl⟩ := mem_numbered mem
    exact h data here
  · intro chunk mem
    obtain ⟨data, here, sequence, rfl⟩ := mem_numbered mem
    rw [AudioChunk.ofData, h data here, tenth]
  · intro chunk mem
    obtain ⟨data, here, sequence, rfl⟩ := mem_numbered mem
    rfl
  · rw [map_sequence_numbered, length_numbered, List.range_eq_range']

namespace Cut

variable {bytes rest : Bytes} {chunks : List Bytes}

theorem length_allChunks (h : Cut bytes chunks rest) (failure : Option Failure) :
    ∀ data ∈ allChunks chunks rest failure, data.length = chunkBytes := by
  intro data mem
  cases failure with
  | some failure => exact h.length_chunk data mem
  | none =>
    rcases List.mem_append.1 mem with whole | tail
    · exact h.length_chunk data whole
    · rw [tailChunk] at tail
      split at tail
      · cases tail
      · rw [List.mem_singleton.1 tail]
        exact length_padded h.rest_lt

theorem flatten_append_tailChunk (h : Cut bytes chunks rest) :
    (chunks ++ tailChunk rest).length = (bytes.length + 3199) / 3200 ∧
      ∃ silence < 3200, (chunks ++ tailChunk rest).flatten =
        bytes ++ List.replicate silence 0 := by
  have total := h.length_eq
  have short := h.rest_lt
  rw [List.flatten_append, List.length_append, tailChunk]
  split
  · rename_i nothing
    have whole := h.flatten_append
    rw [nothing, List.length_nil] at total
    rw [nothing, List.append_nil] at whole
    refine ⟨?_, 0, by decide, ?_⟩
    · simp only [chunkBytes, List.length_nil] at total ⊢
      omega
    · rw [whole, List.flatten_nil, List.replicate_zero]
  · rename_i waiting
    have some? : 0 < rest.length := List.length_pos_iff.2 waiting
    refine ⟨?_, chunkBytes - rest.length, ?_, ?_⟩
    · simp only [chunkBytes, List.length_singleton] at total short ⊢
      omega
    · simp only [chunkBytes]
      omega
    · rw [List.flatten_singleton, padded, ← List.append_assoc, h.flatten_append]

end Cut

/-- The whole output of a stream of any blocks, with or without a marker. Without a failure it is
the canonical audio in full chunks, the last one padded with silence, and then the marker; with one
it is the full chunks before the failure and then the failure. Every further call gives nothing, and
the stream counts the data chunks that it has handed out. -/
theorem calls_ofBlocks (voice : String) (blocks : List BlockItem) (marker : Bool) :
    let whole := SynthesisStream.ofBlocks voice blocks
    let stream := if marker then whole.withFinalMarker else whole
    let audio := canonicalAudio blocks
    ∃ chunks, InOrder chunks ∧ ∃ last,
      stream.drain.1 = chunks.map .ok ++ last ∧
      (match failure? blocks with
        | none =>
          chunks.length = (audio.length + 3199) / 3200 ∧
          (∃ silence < 3200, chunks.flatMap AudioChunk.data =
            audio ++ List.replicate silence 0) ∧
          last = if marker then [.ok
            { data := [], sequence := chunks.length, duration := 0, isFinal := true }] else []
        | some failure =>
          chunks.length = audio.length / 3200 ∧
          chunks.flatMap AudioChunk.data = audio.take (3200 * chunks.length) ∧
          last = [.error failure]) ∧
      ∀ count,
        (stream.calls count).1 = ((List.range count).map fun index =>
          (chunks.map Except.ok ++ last)[index]?) ∧
        (stream.calls count).2.chunksEmitted = (stream.calls count).1.countP
          SynthesisStream.givesData := by
  intro whole stream audio
  obtain ⟨datas, rest, cut, items⟩ := SynthesisStream.drain_ofBlocks voice blocks marker
  refine ⟨numbered 0 (allChunks datas rest (failure? blocks)),
    inOrder_numbered (cut.length_allChunks _), _, items, ?_, ?_⟩
  · rw [length_numbered, flatMap_data_numbered]
    cases failure? blocks with
    | none =>
      obtain ⟨length, silence⟩ := cut.flatten_append_tailChunk
      exact ⟨length, silence, rfl⟩
    | some failure => exact ⟨cut.length_chunks, cut.flatten_eq_take, rfl⟩
  · intro count
    have counted := stream.chunksEmitted_calls count
    have fresh : stream.chunksEmitted = 0 := by
      cases marker <;> rfl
    rw [fresh, Nat.zero_add] at counted
    rw [← items]
    exact ⟨stream.calls_eq_drain count, counted⟩

end SpeechService
