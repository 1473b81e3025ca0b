import SpeechService.Server.Service

/-!
The lines that a reader takes off a byte stream. `streamLines` cuts a stream at its newlines without
regard to fills or limits; reading call by call gives exactly these lines, the long ones as too
long, and then the end for ever, however the stream is cut into fills.
-/

set_option autoImplicit false

namespace SpeechService.Server

/-- The pieces of a stream between newlines, without an empty one at its end. -/
def streamLines (stream : Bytes) : List Bytes :=
  let pieces := stream.splitOn newline
  if pieces.getLast? = some [] then pieces.dropLast else pieces

def LineRead.ofLine (max : Nat) (line : Bytes) : LineRead :=
  if line.length ≤ max then .line line else .tooLong

/-- What `count` calls read, and the fills after them. The end of the stream does not stop the
calls. -/
def readTimes (max : Nat) : Nat → Fills → List LineRead × Fills
  | 0, fills => ([], fills)
  | count + 1, fills =>
    let (read, rest) := readLine max fills
    let (reads, last) := readTimes max count rest
    (read :: reads, last)

theorem stream_cases (stream : Bytes) :
    stream = [] ∨ (∃ line rest, newline ∉ line ∧ stream = line ++ newline :: rest) ∨
      (stream ≠ [] ∧ newline ∉ stream) := by
  by_cases ended : newline ∈ stream
  · obtain ⟨line, rest, split, fresh⟩ := List.eq_append_cons_of_mem ended
    exact .inr (.inl ⟨line, rest, fresh, split⟩)
  · by_cases empty : stream = []
    · exact .inl empty
    · exact .inr (.inr ⟨empty, ended⟩)

@[simp] theorem streamLines_nil : streamLines [] = [] := rfl

theorem streamLines_append_newline {line : Bytes} (h : newline ∉ line) (rest : Bytes) :
    streamLines (line ++ newline :: rest) = line :: streamLines rest := by
  have pieces : (line ++ newline :: rest).splitOn newline = line :: rest.splitOn newline :=
    List.splitOn_append_cons_self_of_not_mem h rest
  have more : rest.splitOn newline ≠ [] := List.splitOn_ne_nil newline rest
  simp only [streamLines, pieces]
  rw [List.getLast?_cons_of_ne_nil more, List.dropLast_cons_of_ne_nil more]
  split <;> rfl

theorem streamLines_of_not_mem {line : Bytes} (h : newline ∉ line) (some? : line ≠ []) :
    streamLines line = [line] := by
  have pieces : line.splitOn newline = [line] := List.splitOn_eq_singleton h
  simp [streamLines, pieces, some?]

theorem splitOn_flatMap {lines : List Bytes} (h : ∀ line ∈ lines, newline ∉ line) :
    (lines.flatMap (· ++ [newline])).splitOn newline = lines ++ [[]] := by
  induction lines with
  | nil => rfl
  | cons line lines ih =>
    obtain ⟨first, others⟩ := List.forall_mem_cons.1 h
    rw [List.flatMap_cons, List.append_assoc, List.singleton_append,
      List.splitOn_append_cons_self_of_not_mem first, ih others, List.cons_append]

theorem streamLines_flatMap {lines : List Bytes} (h : ∀ line ∈ lines, newline ∉ line) :
    streamLines (lines.flatMap (· ++ [newline])) = lines := by
  simp only [streamLines, splitOn_flatMap h, List.getLast?_concat, if_true, List.dropLast_concat]

private theorem lengthToNewline?_of_not_mem {bytes : Bytes} (h : newline ∉ bytes) :
    lengthToNewline? bytes = none := by
  rw [lengthToNewline?, List.idxOf?_eq_none_iff.2 h, Option.map_none]

private theorem lengthToNewline?_append_newline {line : Bytes} (h : newline ∉ line)
    (rest : Bytes) : lengthToNewline? (line ++ newline :: rest) = some (line.length + 1) := by
  induction line with
  | nil => simp [lengthToNewline?, List.idxOf?_cons]
  | cons byte line ih =>
    rw [List.mem_cons, not_or] at h
    have later := ih h.2
    have first : (byte == newline) = false := beq_eq_false_iff_ne.2 (Ne.symm h.1)
    rw [lengthToNewline?, List.cons_append, List.idxOf?_cons, first]
    rw [lengthToNewline?] at later
    simpa using later

private theorem lengthToNewline?_append {bytes : Bytes} {length : Nat} (more : Bytes)
    (h : lengthToNewline? bytes = some length) :
    lengthToNewline? (bytes ++ more) = some length ∧ length ≤ bytes.length := by
  by_cases ended : newline ∈ bytes
  · obtain ⟨line, rest, rfl, fresh⟩ := List.eq_append_cons_of_mem ended
    rw [lengthToNewline?_append_newline fresh, Option.some.injEq] at h
    subst h
    refine ⟨?_, by simp⟩
    rw [List.append_assoc, List.cons_append]
    exact lengthToNewline?_append_newline fresh _
  · rw [lengthToNewline?_of_not_mem ended] at h
    cases h

private theorem not_mem_of_lengthToNewline? {bytes : Bytes} (h : lengthToNewline? bytes = none) :
    newline ∉ bytes := by
  intro ended
  obtain ⟨line, rest, rfl, fresh⟩ := List.eq_append_cons_of_mem ended
  rw [lengthToNewline?_append_newline fresh] at h
  cases h

private theorem lengthToNewline?_append_of_not_mem {bytes : Bytes} (h : newline ∉ bytes)
    (more : Bytes) :
    lengthToNewline? (bytes ++ more) = (lengthToNewline? more).map (bytes.length + ·) := by
  by_cases ended : newline ∈ more
  · obtain ⟨line, rest, rfl, fresh⟩ := List.eq_append_cons_of_mem ended
    have both : newline ∉ bytes ++ line := by
      rw [List.mem_append]
      exact not_or.2 ⟨h, fresh⟩
    rw [← List.append_assoc, lengthToNewline?_append_newline both,
      lengthToNewline?_append_newline fresh, List.length_append, Option.map_some, Nat.add_assoc]
  · have neither : newline ∉ bytes ++ more := by
      rw [List.mem_append]
      exact not_or.2 ⟨h, ended⟩
    rw [lengthToNewline?_of_not_mem neither, lengthToNewline?_of_not_mem ended, Option.map_none]

/-- How many bytes `takeLine` takes off a stream: through the first newline among the first `limit`
bytes, else `limit`. -/
def takenLength (limit : Nat) (stream : Bytes) : Nat :=
  (lengthToNewline? (stream.take limit)).getD limit

theorem takeLine_flatten (limit : Nat) (fills : Fills) :
    (takeLine limit fills).1 = fills.flatten.take (takenLength limit fills.flatten) ∧
      (takeLine limit fills).2.flatten = fills.flatten.drop (takenLength limit fills.flatten) := by
  induction fills generalizing limit with
  | nil => simp [takeLine]
  | cons fill fills ih =>
    have window : (fill ++ fills.flatten).take limit =
        fill.take limit ++ fills.flatten.take (limit - fill.length) := List.take_append
    simp only [takeLine, List.flatten_cons, takenLength, window]
    -- a newline in this fill ends the line; without one the whole fill counts against the limit
    split
    · rename_i length found
      have whole := lengthToNewline?_append (fills.flatten.take (limit - fill.length)) found
      have bound : length ≤ limit ∧ length ≤ fill.length := by
        have := whole.2
        rw [List.length_take] at this
        omega
      rw [whole.1, Option.getD_some, List.flatten_cons, List.take_take, Nat.min_eq_left bound.1,
        List.take_append_of_le_length bound.2, List.drop_append_of_le_length bound.2]
      exact ⟨rfl, rfl⟩
    · rename_i missing
      rw [lengthToNewline?_append_of_not_mem (not_mem_of_lengthToNewline? missing)]
      split
      · rename_i full
        have bound : limit ≤ fill.length := by
          rw [List.length_take] at full
          omega
        have none : limit - fill.length = 0 := by omega
        have nothing : lengthToNewline? [] = Option.none := rfl
        rw [none, List.take_zero, nothing, Option.map_none, Option.getD_none, List.flatten_cons,
          List.take_append_of_le_length bound, List.drop_append_of_le_length bound]
        exact ⟨rfl, rfl⟩
      · rename_i room
        have short : fill.take limit = fill := by
          apply List.take_of_length_le
          rw [List.length_take] at room
          omega
        rw [short] at room ⊢
        have later := ih (limit - fill.length)
        have total : ((lengthToNewline? (fills.flatten.take (limit - fill.length))).map
            (fill.length + ·)).getD limit =
              fill.length + takenLength (limit - fill.length) fills.flatten := by
          rw [takenLength]
          cases lengthToNewline? (fills.flatten.take (limit - fill.length)) with
          | none => simp only [Option.map_none, Option.getD_none]; omega
          | some length => rfl
        rw [total, List.take_length_add_append, List.drop_length_add_append, later.1, later.2]
        exact ⟨rfl, rfl⟩

theorem dropLine_flatten (fills : Fills) :
    (dropLine fills).flatten =
      fills.flatten.drop ((lengthToNewline? fills.flatten).getD fills.flatten.length) := by
  induction fills with
  | nil => rfl
  | cons fill fills ih =>
    rw [dropLine, List.flatten_cons]
    split
    · rename_i length found
      have whole := lengthToNewline?_append fills.flatten found
      rw [whole.1, Option.getD_some, List.flatten_cons, List.drop_append_of_le_length whole.2]
    · rename_i missing
      rw [lengthToNewline?_append_of_not_mem (not_mem_of_lengthToNewline? missing), ih]
      cases lengthToNewline? fills.flatten with
      | none => simp
      | some length => simp [List.drop_length_add_append]

private theorem takenLength_append_newline {limit : Nat} {line : Bytes} (h : newline ∉ line)
    (fits : line.length < limit) (rest : Bytes) :
    takenLength limit (line ++ newline :: rest) = line.length + 1 := by
  obtain ⟨room, rfl⟩ := Nat.exists_eq_add_of_lt fits
  have window : (line ++ newline :: rest).take (line.length + room + 1) =
      line ++ newline :: rest.take room := by
    rw [Nat.add_assoc, List.take_length_add_append, List.take_succ_cons]
  rw [takenLength, window, lengthToNewline?_append_newline h, Option.getD_some]

private theorem takenLength_of_not_mem {limit : Nat} {stream : Bytes}
    (h : newline ∉ stream.take limit) : takenLength limit stream = limit := by
  rw [takenLength, lengthToNewline?_of_not_mem h, Option.getD_none]

private theorem readLine_of_not_mem {max : Nat} {fills : Fills}
    (h : newline ∉ fills.flatten.take (max + 1)) (some? : fills.flatten ≠ []) :
    readLine max fills =
      if fills.flatten.length ≤ max then (.line fills.flatten, (takeLine (max + 1) fills).2)
      else (.tooLong, dropLine (takeLine (max + 1) fills).2) := by
  have taken := (takeLine_flatten (max + 1) fills).1
  rw [takenLength_of_not_mem h] at taken
  have nonempty : (fills.flatten.take (max + 1)).isEmpty = false := by
    cases stream : fills.flatten with
    | nil => exact absurd stream some?
    | cons => rfl
  have open? : (fills.flatten.take (max + 1)).getLast? ≠ some newline := by
    intro last
    exact h (List.mem_of_getLast? last)
  have count : (fills.flatten.take (max + 1)).length ≤ max ↔ fills.flatten.length ≤ max := by
    rw [List.length_take]
    omega
  simp only [readLine, taken, nonempty, open?, count, Bool.false_eq_true, if_false]
  split
  · rename_i short
    rw [List.take_of_length_le (by omega)]
  · rfl

theorem readLine_of_newline (max : Nat) {fills : Fills} {line rest : Bytes} (h : newline ∉ line)
    (stream : fills.flatten = line ++ newline :: rest) :
    (readLine max fills).1 = .ofLine max line ∧ (readLine max fills).2.flatten = rest := by
  obtain ⟨taken, left⟩ := takeLine_flatten (max + 1) fills
  rw [stream] at taken left
  by_cases fits : line.length ≤ max
  · have length := takenLength_append_newline h (Nat.lt_succ_of_le fits) rest
    rw [length, List.take_length_add_append, List.take_succ_cons, List.take_zero] at taken
    rw [length, List.drop_length_add_append, List.drop_succ_cons, List.drop_zero] at left
    have read : readLine max fills = (.line line, (takeLine (max + 1) fills).2) := by
      simp [readLine, taken]
    rw [read, LineRead.ofLine, if_pos fits]
    exact ⟨rfl, left⟩
  · have window : (line ++ newline :: rest).take (max + 1) = line.take (max + 1) :=
      List.take_append_of_le_length (by omega)
    have fresh : newline ∉ fills.flatten.take (max + 1) := by
      rw [stream, window]
      exact fun ended => h (List.mem_of_mem_take ended)
    have some? : fills.flatten ≠ [] := by
      rw [stream]
      simp
    have long : ¬fills.flatten.length ≤ max := by
      rw [stream, List.length_append]
      omega
    rw [readLine_of_not_mem fresh some?, if_neg long, LineRead.ofLine, if_neg fits]
    refine ⟨rfl, ?_⟩
    rw [stream] at fresh
    rw [takenLength_of_not_mem fresh, List.drop_append_of_le_length (by omega)] at left
    have later : newline ∉ line.drop (max + 1) := fun ended => h (List.mem_of_mem_drop ended)
    rw [dropLine_flatten, left, lengthToNewline?_append_newline later, Option.getD_some,
      List.drop_length_add_append, List.drop_succ_cons, List.drop_zero]

theorem readLine_of_last (max : Nat) {fills : Fills} (h : newline ∉ fills.flatten)
    (some? : fills.flatten ≠ []) :
    (readLine max fills).1 = .ofLine max fills.flatten ∧ (readLine max fills).2.flatten = [] := by
  have fresh : newline ∉ fills.flatten.take (max + 1) := fun ended => h (List.mem_of_mem_take ended)
  have left := (takeLine_flatten (max + 1) fills).2
  rw [takenLength_of_not_mem fresh] at left
  rw [readLine_of_not_mem fresh some?, LineRead.ofLine]
  split
  · rename_i short
    refine ⟨rfl, ?_⟩
    rw [left, List.drop_eq_nil_of_le (by omega)]
  · have later : newline ∉ fills.flatten.drop (max + 1) :=
      fun ended => h (List.mem_of_mem_drop ended)
    refine ⟨rfl, ?_⟩
    rw [dropLine_flatten, left, lengthToNewline?_of_not_mem later, Option.getD_none,
      List.drop_length]

theorem readLine_of_empty (max : Nat) {fills : Fills} (h : fills.flatten = []) :
    (readLine max fills).1 = .ended ∧ (readLine max fills).2.flatten = [] := by
  obtain ⟨taken, left⟩ := takeLine_flatten (max + 1) fills
  rw [h, List.take_nil] at taken
  rw [h, List.drop_nil] at left
  have read : readLine max fills = (.ended, (takeLine (max + 1) fills).2) := by
    simp [readLine, taken]
  rw [read]
  exact ⟨rfl, left⟩

/-- One read takes the first line off the stream. -/
theorem readLine_streamLines (max : Nat) (fills : Fills) :
    (readLine max fills).1 =
        (((streamLines fills.flatten).head?.map (LineRead.ofLine max)).getD .ended) ∧
      streamLines (readLine max fills).2.flatten = (streamLines fills.flatten).tail := by
  rcases stream_cases fills.flatten with empty | ⟨line, rest, fresh, stream⟩ | ⟨some?, fresh⟩
  · obtain ⟨read, left⟩ := readLine_of_empty max empty
    rw [read, left, empty]
    exact ⟨rfl, rfl⟩
  · obtain ⟨read, left⟩ := readLine_of_newline max fresh stream
    rw [read, left, stream, streamLines_append_newline fresh]
    exact ⟨rfl, rfl⟩
  · obtain ⟨read, left⟩ := readLine_of_last max fresh some?
    rw [read, left, streamLines_of_not_mem fresh some?]
    exact ⟨rfl, rfl⟩

private theorem readLines_of_ended {max : Nat} {fills : Fills}
    (read : (readLine max fills).1 = .ended) : readLines max fills = [] := by
  fun_cases readLines max fills with
  | case1 after step => rfl
  | case2 content rest step =>
    rw [step] at read
    cases read
  | case3 rest step =>
    rw [step] at read
    cases read

private theorem readLines_of_more {max : Nat} {fills : Fills}
    (more : (readLine max fills).1 ≠ .ended) :
    readLines max fills = (readLine max fills).1 :: readLines max (readLine max fills).2 := by
  fun_cases readLines max fills with
  | case1 after step =>
    rw [step] at more
    exact absurd rfl more
  | case2 content rest step => rw [step]
  | case3 rest step => rw [step]

theorem readLines_eq_map (max : Nat) (fills : Fills) :
    readLines max fills = (streamLines fills.flatten).map (LineRead.ofLine max) := by
  induction lines : streamLines fills.flatten generalizing fills with
  | nil =>
    obtain ⟨read, -⟩ := readLine_streamLines max fills
    rw [lines] at read
    exact readLines_of_ended read
  | cons line rest ih =>
    obtain ⟨read, left⟩ := readLine_streamLines max fills
    rw [lines] at read left
    have first : (readLine max fills).1 = .ofLine max line := read
    have more : (readLine max fills).1 ≠ .ended := by
      rw [first, LineRead.ofLine]
      split <;> simp
    rw [readLines_of_more more, first, ih _ left, List.map_cons]

private theorem readTimes_eq (max count : Nat) (fills : Fills) :
    (readTimes max count fills).1 = ((List.range count).map fun index =>
        ((streamLines fills.flatten)[index]?.map (LineRead.ofLine max)).getD .ended) ∧
      streamLines (readTimes max count fills).2.flatten =
        (streamLines fills.flatten).drop count := by
  induction count generalizing fills with
  | zero => exact ⟨rfl, rfl⟩
  | succ count ih =>
    obtain ⟨read, left⟩ := readLine_streamLines max fills
    obtain ⟨reads, last⟩ := ih (readLine max fills).2
    simp only [readTimes]
    rw [left] at reads last
    rw [reads, last, read, List.range_succ_eq_map, List.map_cons, List.map_map,
      List.drop_tail, List.head?_eq_getElem?]
    refine ⟨?_, rfl⟩
    congr 1
    apply List.map_congr_left
    intro index _
    rw [List.getElem?_tail, Function.comp_apply]

/-- Reading call by call gives the lines of the stream in order, a line of at most `max` bytes as it
is and a longer one as too long, and then the end on every further call. The calls leave exactly the
lines that they have not read, and a line of `max` bytes is accepted with and without a newline. -/
theorem readTimes_streamLines (max count : Nat) (fills : Fills) :
    (readTimes max count fills).1 = ((List.range count).map fun index =>
        ((streamLines fills.flatten)[index]?.map (LineRead.ofLine max)).getD .ended) ∧
      streamLines (readTimes max count fills).2.flatten =
        (streamLines fills.flatten).drop count ∧
      readLines max fills = (streamLines fills.flatten).map (LineRead.ofLine max) ∧
      ∀ line, newline ∉ line → line.length = max →
        (∃ rest, fills.flatten = line ++ newline :: rest) ∨ (line ≠ [] ∧ fills.flatten = line) →
          (readLine max fills).1 = .line line := by
  obtain ⟨reads, left⟩ := readTimes_eq max count fills
  refine ⟨reads, left, readLines_eq_map max fills, ?_⟩
  intro line fresh length stream
  have accepted : LineRead.ofLine max line = .line line := by
    rw [LineRead.ofLine, if_pos (Nat.le_of_eq length)]
  rcases stream with ⟨rest, stream⟩ | ⟨some?, stream⟩
  · rw [(readLine_of_newline max fresh stream).1, accepted]
  · rw [← stream] at fresh some? accepted ⊢
    rw [(readLine_of_last max fresh some?).1, accepted]

end SpeechService.Server
