import Mathlib.Data.List.DropRight
import SpeechService.Audio
import SpeechService.Proofs.Runs

/-!
Cutting bytes into chunks. `Cut` says what the whole chunks of a byte string are and what is left
over; cutting a string piece by piece, with the rest carried along, is cutting it at once. Since a
buffer was last finished, the chunks that it has returned and the bytes that are waiting cut the
bytes that were pushed; as bytes are cut in one way only, it makes no difference how they are
divided into blocks.
-/

set_option autoImplicit false

namespace SpeechService

/-- `chunks` are whole chunks which, with a rest that is too short for one, make up `bytes`. -/
structure Cut (bytes : Bytes) (chunks : List Bytes) (rest : Bytes) : Prop where
  length_chunk : ∀ chunk ∈ chunks, chunk.length = chunkBytes
  rest_lt : rest.length < chunkBytes
  flatten_append : chunks.flatten ++ rest = bytes

namespace Cut

theorem of_lt {bytes : Bytes} (h : bytes.length < chunkBytes) : Cut bytes [] bytes :=
  ⟨by simp, h, rfl⟩

theorem append {first second rest last : Bytes} {chunks others : List Bytes}
    (h : Cut first chunks rest) (later : Cut (rest ++ second) others last) :
    Cut (first ++ second) (chunks ++ others) last := by
  refine ⟨?_, later.rest_lt, ?_⟩
  · intro chunk mem
    rcases List.mem_append.1 mem with mem | mem
    · exact h.length_chunk chunk mem
    · exact later.length_chunk chunk mem
  · rw [List.flatten_append, List.append_assoc, later.flatten_append, ← List.append_assoc,
      h.flatten_append]

theorem length_flatten {chunks : List Bytes}
    (h : ∀ chunk ∈ chunks, chunk.length = chunkBytes) :
    chunks.flatten.length = chunkBytes * chunks.length := by
  induction chunks with
  | nil => rfl
  | cons chunk chunks ih =>
    have here := h chunk List.mem_cons_self
    have later := ih fun other mem => h other (List.mem_cons_of_mem chunk mem)
    rw [List.flatten_cons, List.length_append, here, later, List.length_cons, Nat.mul_succ,
      Nat.add_comm]

variable {bytes rest : Bytes} {chunks : List Bytes}

theorem length_eq (h : Cut bytes chunks rest) :
    bytes.length = chunkBytes * chunks.length + rest.length := by
  rw [← h.flatten_append, List.length_append, length_flatten h.length_chunk]

theorem length_chunks (h : Cut bytes chunks rest) : chunks.length = bytes.length / chunkBytes := by
  have total := h.length_eq
  have short := h.rest_lt
  simp only [chunkBytes] at total short ⊢
  omega

theorem flatten_eq_take (h : Cut bytes chunks rest) :
    chunks.flatten = bytes.take (chunkBytes * chunks.length) := by
  rw [← length_flatten h.length_chunk, ← h.flatten_append, List.take_left]

theorem slice_append {earlier later : List Bytes} {data : Bytes}
    (h : Cut bytes (earlier ++ data :: later) rest) (more : Bytes) :
    ((bytes ++ more).drop (chunkBytes * earlier.length)).take chunkBytes = data := by
  have before : earlier.flatten.length = chunkBytes * earlier.length :=
    length_flatten fun chunk mem => h.length_chunk chunk (List.mem_append_left _ mem)
  have here : data.length = chunkBytes :=
    h.length_chunk data (List.mem_append_right _ List.mem_cons_self)
  rw [← h.flatten_append, List.flatten_append, List.flatten_cons, List.append_assoc,
    List.append_assoc, List.append_assoc, List.drop_left' before, List.take_left' here]

theorem unique {others : List Bytes} {last : Bytes} (h : Cut bytes chunks rest)
    (other : Cut bytes others last) : chunks = others ∧ rest = last := by
  have number : chunks.length = others.length := h.length_chunks.trans other.length_chunks.symm
  have whole : chunks.flatten ++ rest = others.flatten ++ last :=
    h.flatten_append.trans other.flatten_append.symm
  have length : chunks.flatten.length = others.flatten.length := by
    rw [length_flatten h.length_chunk, length_flatten other.length_chunk, number]
  obtain ⟨same, left⟩ := List.append_inj whole length
  refine ⟨?_, left⟩
  refine List.eq_iff_flatten_eq.2 ⟨same, List.ext_getElem (by simpa using number) ?_⟩
  intro index inside outside
  rw [List.getElem_map, List.getElem_map, h.length_chunk _ (List.getElem_mem _),
    other.length_chunk _ (List.getElem_mem _)]

theorem rest_eq (h : Cut bytes [] rest) : rest = bytes := h.flatten_append

end Cut

/-- Bytes with silence behind them up to the length of a chunk. -/
def padded (bytes : Bytes) : Bytes := bytes ++ List.replicate (chunkBytes - bytes.length) 0

theorem length_padded {bytes : Bytes} (h : bytes.length < chunkBytes) :
    (padded bytes).length = chunkBytes := by
  rw [padded, List.length_append, List.length_replicate]
  omega

namespace ChunkBuffer

private theorem cutChunks_cut (cut : List Bytes) (bytes : Bytes) :
    ∃ chunks, (cutChunks cut bytes).1 = cut.reverse ++ chunks ∧
      Cut bytes chunks (cutChunks cut bytes).2.residual := by
  fun_induction cutChunks cut bytes with
  | case1 cut bytes chunk full ih =>
    obtain ⟨chunks, here, later⟩ := ih
    refine ⟨chunk :: chunks, by simpa using here, ?_, later.rest_lt, ?_⟩
    · intro other mem
      rcases List.mem_cons.1 mem with rfl | mem
      · exact full
      · exact later.length_chunk other mem
    · rw [List.flatten_cons, List.append_assoc, later.flatten_append, List.take_append_drop]
  | case2 cut bytes chunk short =>
    refine ⟨[], by simp, Cut.of_lt ?_⟩
    rw [List.length_take] at short
    omega

theorem push_cut (buffer : ChunkBuffer) (bytes : Bytes) :
    Cut (buffer.residual ++ bytes) (buffer.push bytes).1 (buffer.push bytes).2.residual := by
  obtain ⟨chunks, here, cut⟩ := cutChunks_cut [] (buffer.residual ++ bytes)
  rw [push, here]
  exact cut

theorem finish_eq (buffer : ChunkBuffer) :
    buffer.finish =
      (if buffer.residual = [] then none else some (padded buffer.residual), .empty) := by
  obtain ⟨residual, short⟩ := buffer
  cases residual with
  | nil => rfl
  | cons byte rest => rfl

end ChunkBuffer

end SpeechService

namespace SpeechService.ChunkBuffer

inductive Call where
  | push (block : Bytes)
  | finish
  deriving DecidableEq, Repr

namespace Call

def isPush : Call → Bool
  | .push _ => true
  | .finish => false

def bytes : Call → Bytes
  | .push block => block
  | .finish => []

end Call

def call (buffer : ChunkBuffer) : Call → List Bytes × ChunkBuffer
  | .push block => buffer.push block
  | .finish => (buffer.finish.1.toList, buffer.finish.2)

/-- What each of several calls returns, and the buffer after all of them. -/
def callAll (buffer : ChunkBuffer) (calls : List Call) : List (List Bytes) × ChunkBuffer :=
  runSteps call buffer calls

/-- The calls after the last finish. -/
def sinceFinish (calls : List Call) : List Call := calls.rtakeWhile Call.isPush

theorem eq_of_residual_eq {buffer other : ChunkBuffer} (h : buffer.residual = other.residual) :
    buffer = other := by
  cases buffer
  cases other
  cases h
  rfl

theorem length_of_mem_call (buffer : ChunkBuffer) (taken : Call) :
    ∀ chunk ∈ (buffer.call taken).1, chunk.length = chunkBytes := by
  cases taken with
  | push block => exact (buffer.push_cut block).length_chunk
  | finish =>
    intro chunk mem
    simp only [call, finish_eq, Option.mem_toList] at mem
    split at mem
    · cases mem
    · cases mem
      exact length_padded buffer.residual_lt

theorem call_finish (buffer : ChunkBuffer) : (buffer.call .finish).2 = empty := by
  rw [call, finish_eq]

theorem length_of_mem_callAll (buffer : ChunkBuffer) (calls : List Call) :
    ∀ chunks ∈ (buffer.callAll calls).1, ∀ chunk ∈ chunks, chunk.length = chunkBytes := by
  induction calls generalizing buffer with
  | nil => nofun
  | cons taken calls ih =>
    rw [callAll, runSteps_cons]
    exact List.forall_mem_cons.2 ⟨buffer.length_of_mem_call taken, ih _⟩

theorem callAll_append (buffer : ChunkBuffer) (earlier later : List Call) :
    buffer.callAll (earlier ++ later) =
      ((buffer.callAll earlier).1 ++ ((buffer.callAll earlier).2.callAll later).1,
        ((buffer.callAll earlier).2.callAll later).2) :=
  runSteps_append call buffer earlier later

theorem callAll_concat (buffer : ChunkBuffer) (calls : List Call) (last : Call) :
    buffer.callAll (calls ++ [last]) =
      ((buffer.callAll calls).1 ++ [((buffer.callAll calls).2.call last).1],
        ((buffer.callAll calls).2.call last).2) :=
  buffer.callAll_append calls [last]

/-- Since the last finish, what was pushed is cut. The induction is on the last call: pushing goes
on with what was waiting, and finishing leaves nothing to go on with. -/
theorem callAll_cut (calls : List Call) :
    Cut ((sinceFinish calls).flatMap Call.bytes)
      ((empty.callAll calls).1.rtake (sinceFinish calls).length).flatten
      (empty.callAll calls).2.residual := by
  induction calls using List.reverseRecOn with
  | nil => exact .of_lt (by decide)
  | append_singleton calls last ih =>
    rw [callAll_concat]
    cases last with
    | push block =>
      have longer : sinceFinish (calls ++ [.push block]) = sinceFinish calls ++ [.push block] :=
        List.rtakeWhile_concat_pos _ _ _ rfl
      have pushed := ih.append ((empty.callAll calls).2.push_cut block)
      rw [longer, List.length_append, List.length_singleton, List.rtake_concat_succ,
        List.flatMap_append, List.flatMap_singleton, List.flatten_append, List.flatten_singleton]
      exact pushed
    | finish =>
      have ended : sinceFinish (calls ++ [.finish]) = [] :=
        List.rtakeWhile_concat_neg _ _ _ Bool.false_ne_true
      rw [ended, call_finish, List.length_nil, List.rtake_zero]
      exact .of_lt (by decide)

theorem callAll_push_cut (buffer : ChunkBuffer) (blocks : List Bytes) :
    Cut (buffer.residual ++ blocks.flatten) (buffer.callAll (blocks.map .push)).1.flatten
      (buffer.callAll (blocks.map .push)).2.residual := by
  induction blocks generalizing buffer with
  | nil =>
    rw [List.flatten_nil, List.append_nil]
    exact .of_lt buffer.residual_lt
  | cons block blocks ih =>
    have pushed := (buffer.push_cut block).append (ih (buffer.push block).2)
    rw [List.append_assoc] at pushed
    exact pushed

theorem callAll_blocks (buffer : ChunkBuffer) (blocks : List Bytes) :
    (buffer.callAll (blocks.map .push)).1.flatten = (buffer.push blocks.flatten).1 ∧
      (buffer.callAll (blocks.map .push)).2 = (buffer.push blocks.flatten).2 := by
  obtain ⟨chunks, residual⟩ :=
    (buffer.callAll_push_cut blocks).unique (buffer.push_cut blocks.flatten)
  exact ⟨chunks, eq_of_residual_eq residual⟩

/-- What a new buffer gives over any calls. Since the last finish, the chunks and what is waiting
cut the bytes that were pushed; every chunk is whole. Finishing gives what is waiting, padded with
silence, or nothing if nothing is waiting, and leaves a new buffer. How pushed bytes are divided
into blocks changes neither the chunks nor the buffer. -/
theorem callAll_chunks :
    (∀ calls, let made := empty.callAll calls
      let since := sinceFinish calls
      Cut (since.flatMap Call.bytes) (made.1.rtake since.length).flatten made.2.residual ∧
      (∀ chunks ∈ made.1, ∀ chunk ∈ chunks, chunk.length = chunkBytes) ∧
      (made.2.finish.1 = none ↔ made.2.residual = []) ∧
      (∀ last, made.2.finish.1 = some last ↔ made.2.residual ≠ [] ∧ last =
        made.2.residual ++ List.replicate (chunkBytes - made.2.residual.length) 0) ∧
      made.2.finish.2 = empty) ∧
    ∀ (earlier : List Call) (blocks : List Bytes) (later : List Call),
      let divided := empty.callAll (earlier ++ blocks.map .push ++ later)
      let whole := empty.callAll (earlier ++ [.push blocks.flatten] ++ later)
      divided.1.flatten = whole.1.flatten ∧ divided.2 = whole.2 := by
  constructor
  · intro calls made since
    refine ⟨callAll_cut calls, empty.length_of_mem_callAll calls, ?_⟩
    rw [finish_eq]
    by_cases nothing : made.2.residual = []
    · simp [nothing]
    · rw [if_neg nothing]
      refine ⟨iff_of_false nofun nothing, fun last => ?_, rfl⟩
      rw [Option.some.injEq, padded, eq_comm, and_iff_right nothing]
  · intro earlier blocks later divided whole
    obtain ⟨chunks, buffer⟩ := (empty.callAll earlier).2.callAll_blocks blocks
    have once (start : ChunkBuffer) : start.callAll [.push blocks.flatten] =
        ([(start.push blocks.flatten).1], (start.push blocks.flatten).2) := rfl
    simp only [divided, whole, callAll_append, once, List.flatten_append, List.flatten_singleton,
      chunks, buffer, and_self]

theorem callAll_chunks_reused :
    let reused := (empty.callAll [.push [1, 2], .finish, .finish, .push [3]]).2
    reused.residual = [3] ∧ reused.finish.1 = some (3 :: List.replicate 3199 0) ∧
      reused.finish.2 = empty ∧
      (empty.callAll [.push [1], .push [2, 3]]).2 = (empty.callAll [.push [1, 2, 3]]).2 := by
  intro reused
  obtain ⟨calls, divided⟩ := callAll_chunks
  have waiting : reused.residual = [3] := by decide +kernel
  obtain ⟨-, -, -, last, finished⟩ := calls [.push [1, 2], .finish, .finish, .push [3]]
  refine ⟨waiting, (last _).2 ⟨?_, ?_⟩, finished, (divided [] [[1], [2, 3]] []).2⟩
  · rw [waiting]
    exact List.cons_ne_nil 3 []
  · rw [waiting]
    rfl

end SpeechService.ChunkBuffer
