import SpeechService.Proofs.Text
import SpeechService.Text

/-!
Bytes in base 64 are read back, and nothing else is read: `decode?_eq_some_iff`. The digits of a
value are never the padding and never blank, so that the groups keep their form and trimming leaves
them alone.

`StandardForm` tells the same form by its bits. The bits of all bytes one after another, and as few
zero bits as it takes behind them, are regrouped by six; each group is a digit, and padding makes up
fours. Bytes have one standard form, and it is what is written: `standardForm_iff`.
-/

set_option autoImplicit false

namespace SpeechService.Base64

theorem value?_digit {value : Nat} (small : value < 64) : value? (digit value) = some value := by
  have all : ∀ value < 64, value? (digit value) = some value := by decide
  exact all value small

theorem value?_eq_some_iff {c : Char} {value : Nat} :
    value? c = some value ↔ value < 64 ∧ digit value = c := by
  constructor
  · intro h
    obtain ⟨small, same, -⟩ := List.idxOf?_eq_some_iff.1 h
    refine ⟨small, ?_⟩
    rw [digit, List.getD_eq_getElem?_getD, List.getElem?_eq_getElem small, same, Option.getD_some]
  · rintro ⟨small, rfl⟩
    exact value?_digit small

theorem digit_ne_padding {value : Nat} (small : value < 64) : digit value ≠ '=' := by
  have all : ∀ value < 64, digit value ≠ '=' := by decide
  exact all value small

theorem encodeOnto_eq : (bytes : Bytes) → (written : List Char) →
    encodeOnto written bytes = written.reverse ++ encodeOnto [] bytes
  | a :: b :: c :: rest, written => by
    have group (before : List Char) := encodeOnto_eq rest before
    rw [encodeOnto, encodeOnto, group, group [_, _, _, _]]
    simp only [List.reverse_cons, List.append_assoc, List.reverse_nil, List.nil_append]
  | [a, b], written => by
    simp only [encodeOnto, List.reverse_cons, List.append_assoc, List.reverse_nil, List.nil_append]
  | [a], written => by
    simp only [encodeOnto, List.reverse_cons, List.append_assoc, List.reverse_nil, List.nil_append]
  | [], written => (List.append_nil written.reverse).symm

theorem encode_cons_cons_cons (a b c : UInt8) (rest : Bytes) :
    let group := 65536 * a.toNat + 256 * b.toNat + c.toNat
    encode (a :: b :: c :: rest) =
      digit (group / 262144) :: digit (group / 4096 % 64) :: digit (group / 64 % 64) ::
        digit (group % 64) :: encode rest := by
  rw [encode, encodeOnto, encodeOnto_eq]
  rfl

theorem encode_pair (a b : UInt8) :
    let group := 1024 * a.toNat + 4 * b.toNat
    encode [a, b] = [digit (group / 4096), digit (group / 64 % 64), digit (group % 64), '='] := rfl

theorem encode_single (a : UInt8) :
    let group := 16 * a.toNat
    encode [a] = [digit (group / 64), digit (group % 64), '=', '='] := rfl

theorem decodeOnto_group (read : Bytes) (a b c : UInt8) (rest : List Char) :
    let group := 65536 * a.toNat + 256 * b.toNat + c.toNat
    decodeOnto read (digit (group / 262144) :: digit (group / 4096 % 64) ::
        digit (group / 64 % 64) :: digit (group % 64) :: rest) =
      decodeOnto (c :: b :: a :: read) rest := by
  intro group
  have bounds := And.intro a.toNat_lt (And.intro b.toNat_lt c.toNat_lt)
  have first := value?_digit (show group / 262144 < 64 by omega)
  have second := value?_digit (show group / 4096 % 64 < 64 by omega)
  have third := value?_digit (show group / 64 % 64 < 64 by omega)
  have fourth := value?_digit (show group % 64 < 64 by omega)
  have whole : 262144 * (group / 262144) + 4096 * (group / 4096 % 64) + 64 * (group / 64 % 64) +
      group % 64 = group := by omega
  have high : UInt8.ofNat (group / 65536) = a := by
    rw [show group / 65536 = a.toNat by omega, UInt8.ofNat_toNat]
  have middle : UInt8.ofNat (group / 256 % 256) = b := by
    rw [show group / 256 % 256 = b.toNat by omega, UInt8.ofNat_toNat]
  have low : UInt8.ofNat (group % 256) = c := by
    rw [show group % 256 = c.toNat by omega, UInt8.ofNat_toNat]
  rw [decodeOnto, if_neg (digit_ne_padding (by omega))]
  simp only [first, second, third, fourth, whole, high, middle, low, Option.bind_eq_bind,
    Option.bind_some]

theorem decodePadded?_pair (a b : UInt8) :
    let group := 1024 * a.toNat + 4 * b.toNat
    decodePadded? (digit (group / 4096)) (digit (group / 64 % 64)) (digit (group % 64)) =
      some [a, b] := by
  intro group
  have bounds := And.intro a.toNat_lt b.toNat_lt
  have first := value?_digit (show group / 4096 < 64 by omega)
  have second := value?_digit (show group / 64 % 64 < 64 by omega)
  have third := value?_digit (show group % 64 < 64 by omega)
  have whole : 4096 * (group / 4096) + 64 * (group / 64 % 64) + group % 64 = group := by omega
  have unused : group % 4 = 0 := by omega
  have high : UInt8.ofNat (group / 1024) = a := by
    rw [show group / 1024 = a.toNat by omega, UInt8.ofNat_toNat]
  have low : UInt8.ofNat (group / 4 % 256) = b := by
    rw [show group / 4 % 256 = b.toNat by omega, UInt8.ofNat_toNat]
  rw [decodePadded?, if_neg (digit_ne_padding (by omega))]
  simp only [first, second, third, whole, unused, high, low, Option.bind_eq_bind,
    Option.bind_some, if_true]

theorem decodePadded?_single (a : UInt8) :
    let group := 16 * a.toNat
    decodePadded? (digit (group / 64)) (digit (group % 64)) '=' = some [a] := by
  intro group
  have bound := a.toNat_lt
  have first := value?_digit (show group / 64 < 64 by omega)
  have second := value?_digit (show group % 64 < 64 by omega)
  have whole : 64 * (group / 64) + group % 64 = group := by omega
  have unused : group % 16 = 0 := by omega
  have byte : UInt8.ofNat (group / 16) = a := by
    rw [show group / 16 = a.toNat by omega, UInt8.ofNat_toNat]
  rw [decodePadded?, if_pos rfl]
  simp only [first, second, whole, unused, byte, Option.bind_eq_bind, Option.bind_some, if_true]

theorem decodeOnto_padded (read : Bytes) (a b c : Char) :
    decodeOnto read [a, b, c, '='] = (decodePadded? a b c).map (read.reverse ++ ·) := by
  rw [decodeOnto, if_pos rfl]
  rfl

theorem decodeOnto_encode (read : Bytes) : (bytes : Bytes) →
    decodeOnto read (encode bytes) = some (read.reverse ++ bytes)
  | a :: b :: c :: rest => by
    rw [encode_cons_cons_cons, decodeOnto_group, decodeOnto_encode _ rest]
    simp only [List.reverse_cons, List.append_assoc, List.cons_append, List.nil_append]
  | [a, b] => by
    rw [encode_pair, decodeOnto_padded, decodePadded?_pair, Option.map_some]
  | [a] => by
    rw [encode_single, decodeOnto_padded, decodePadded?_single, Option.map_some]
  | [] => congrArg some (List.append_nil read.reverse).symm

theorem encode_group {a b c d : Nat} (first : a < 64) (second : b < 64) (third : c < 64)
    (fourth : d < 64) (rest : Bytes) :
    let group := 262144 * a + 4096 * b + 64 * c + d
    encode (UInt8.ofNat (group / 65536) :: UInt8.ofNat (group / 256 % 256) ::
        UInt8.ofNat (group % 256) :: rest) =
      digit a :: digit b :: digit c :: digit d :: encode rest := by
  intro group
  have high : (UInt8.ofNat (group / 65536)).toNat = group / 65536 :=
    UInt8.toNat_ofNat_of_lt' (show group / 65536 < 256 by omega)
  have middle : (UInt8.ofNat (group / 256 % 256)).toNat = group / 256 % 256 :=
    UInt8.toNat_ofNat_of_lt' (show group / 256 % 256 < 256 by omega)
  have low : (UInt8.ofNat (group % 256)).toNat = group % 256 :=
    UInt8.toNat_ofNat_of_lt' (show group % 256 < 256 by omega)
  have whole : 65536 * (group / 65536) + 256 * (group / 256 % 256) + group % 256 = group := by
    omega
  rw [encode_cons_cons_cons, high, middle, low, whole, show group / 262144 = a by omega,
    show group / 4096 % 64 = b by omega, show group / 64 % 64 = c by omega,
    show group % 64 = d by omega]

theorem eq_encode_of_decodePadded? {a b c : Char} {bytes : Bytes}
    (h : decodePadded? a b c = some bytes) : [a, b, c, '='] = encode bytes := by
  rw [decodePadded?] at h
  split at h
  · rename_i padding
    simp only [Option.bind_eq_bind, Option.bind_eq_some_iff, value?_eq_some_iff] at h
    obtain ⟨first, ⟨small, rfl⟩, second, ⟨least, rfl⟩, read⟩ := h
    split at read
    · rename_i unused
      cases read
      have byte : (UInt8.ofNat ((64 * first + second) / 16)).toNat = (64 * first + second) / 16 :=
        UInt8.toNat_ofNat_of_lt' (show (64 * first + second) / 16 < 256 by omega)
      have whole : 16 * ((64 * first + second) / 16) = 64 * first + second := by omega
      rw [encode_single, byte, whole, padding, show (64 * first + second) / 64 = first by omega,
        show (64 * first + second) % 64 = second by omega]
    · cases read
  · simp only [Option.bind_eq_bind, Option.bind_eq_some_iff, value?_eq_some_iff] at h
    obtain ⟨first, ⟨small, rfl⟩, second, ⟨smaller, rfl⟩, third, ⟨least, rfl⟩, read⟩ := h
    let group := 4096 * first + 64 * second + third
    split at read
    · rename_i unused
      cases read
      have high : (UInt8.ofNat (group / 1024)).toNat = group / 1024 :=
        UInt8.toNat_ofNat_of_lt' (show group / 1024 < 256 by omega)
      have low : (UInt8.ofNat (group / 4 % 256)).toNat = group / 4 % 256 :=
        UInt8.toNat_ofNat_of_lt' (show group / 4 % 256 < 256 by omega)
      have whole : 1024 * (group / 1024) + 4 * (group / 4 % 256) = group := by omega
      rw [encode_pair, high, low, whole, show group / 4096 = first by omega,
        show group / 64 % 64 = second by omega, show group % 64 = third by omega]
    · cases read

theorem eq_encode_of_decodeOnto {read bytes : Bytes} {digits : List Char}
    (h : decodeOnto read digits = some bytes) :
    ∃ later, bytes = read.reverse ++ later ∧ digits = encode later := by
  -- along the groups of four; only the last one may be padded
  fun_induction decodeOnto read digits with
  | case1 read a b c rest last =>
    obtain ⟨later, padded, rfl⟩ := Option.map_eq_some_iff.1 h
    rw [List.isEmpty_iff.1 last]
    exact ⟨later, rfl, eq_encode_of_decodePadded? padded⟩
  | case2 => cases h
  | case3 read a b c d rest other ih =>
    simp only [Option.bind_eq_bind, Option.bind_eq_some_iff] at h
    obtain ⟨first, readFirst, second, readSecond, third, readThird, fourth, readFourth, h⟩ := h
    obtain ⟨later, rfl, rfl⟩ := ih first second third fourth h
    obtain ⟨small, rfl⟩ := value?_eq_some_iff.1 readFirst
    obtain ⟨smaller, rfl⟩ := value?_eq_some_iff.1 readSecond
    obtain ⟨lesser, rfl⟩ := value?_eq_some_iff.1 readThird
    obtain ⟨least, rfl⟩ := value?_eq_some_iff.1 readFourth
    refine ⟨_, ?_, (encode_group small smaller lesser least later).symm⟩
    simp only [List.reverse_cons, List.append_assoc, List.cons_append, List.nil_append]
  | case4 read =>
    cases h
    exact ⟨[], (List.append_nil _).symm, rfl⟩
  | case5 => cases h

/-- What is read are the digits of bytes, in their one form. -/
theorem decode?_eq_some_iff {digits : List Char} {bytes : Bytes} :
    decode? digits = some bytes ↔ digits = encode bytes := by
  constructor
  · intro h
    obtain ⟨later, rfl, same⟩ := eq_encode_of_decodeOnto h
    exact same
  · rintro rfl
    exact decodeOnto_encode [] bytes

theorem isBlank_digit {value : Nat} (small : value < 64) :
    Text.isBlank (digit value) = false := by
  have all : ∀ value < 64, Text.isBlank (digit value) = false := by decide
  exact all value small

theorem not_isBlank_of_mem_encode : (bytes : Bytes) → ∀ c ∈ encode bytes, Text.isBlank c = false
  | a :: b :: c :: rest => by
    have bounds := And.intro a.toNat_lt (And.intro b.toNat_lt c.toNat_lt)
    rw [encode_cons_cons_cons]
    simp only [List.forall_mem_cons]
    exact ⟨isBlank_digit (by omega), isBlank_digit (by omega), isBlank_digit (by omega),
      isBlank_digit (by omega), not_isBlank_of_mem_encode rest⟩
  | [a, b] => by
    have bounds := And.intro a.toNat_lt b.toNat_lt
    rw [encode_pair]
    simp only [List.forall_mem_cons, List.not_mem_nil]
    exact ⟨isBlank_digit (by omega), isBlank_digit (by omega), isBlank_digit (by omega),
      by decide, fun _ => False.elim⟩
  | [a] => by
    have bound := a.toNat_lt
    rw [encode_single]
    simp only [List.forall_mem_cons, List.not_mem_nil]
    exact ⟨isBlank_digit (by omega), isBlank_digit (by omega), by decide, by decide,
      fun _ => False.elim⟩
  | [] => fun c mem => nomatch mem

theorem ofText?_eq_some_iff {text : String} {bytes : Bytes} :
    ofText? text = some bytes ↔ Text.trimList text.toList = encode bytes :=
  decode?_eq_some_iff

theorem ofText?_encode (bytes : Bytes) :
    ofText? (String.ofList (encode bytes)) = some bytes := by
  have visible := not_isBlank_of_mem_encode bytes
  have trimmed : Text.trimList (encode bytes) = encode bytes := by
    apply Text.trimList_eq_self
    · intro c mem
      exact visible c (List.mem_of_mem_head? mem)
    · intro c mem
      exact visible c (List.mem_of_mem_getLast? mem)
  rw [ofText?_eq_some_iff, String.toList_ofList, trimmed]

def bits (width value : Nat) : List Bool := (List.range width).reverse.map value.testBit

/-- Digits of six bits each, and padding: the bits of bytes, filled up with zero bits. -/
inductive StandardForm (bytes : Bytes) (digits : List Char) : Prop
  | mk (values : List Nat) (filling padding : Nat) (small : ∀ value ∈ values, value < 64)
      (regrouped : values.flatMap (bits 6) =
        (bytes.map UInt8.toNat).flatMap (bits 8) ++ List.replicate filling false)
      (least : filling < 6) (whole : (values.length + padding) % 4 = 0) (fewest : padding < 4)
      (written : digits = values.map digit ++ List.replicate padding '=')

/-- What digits may have that those of bytes never have. -/
inductive Flawed (digits : List Char) : Prop
  | blank (c : Char) (mem : c ∈ digits) (blank : Text.isBlank c = true)
  | foreign (c : Char) (mem : c ∈ digits) (unpadding : c ≠ '=') (foreign : c ∉ alphabet)
  /-- Padding is missing, or there is more of it than it takes. -/
  | broken (length : digits.length % 4 ≠ 0)
  | surplus (many : 2 < digits.count '=')
  | inside (front back : List Char) (c : Char) (unpadding : c ≠ '=')
      (split : digits = front ++ '=' :: c :: back)
  /-- A bit that no byte takes is set. -/
  | unused (front : List Char) (value padding : Nat) (small : value < 64)
      (set : value % Nat.pow 2 (2 * padding) ≠ 0)
      (split : digits = front ++ digit value :: List.replicate padding '=')

theorem length_bits (width value : Nat) : (bits width value).length = width := by
  rw [bits, List.length_map, List.length_reverse, List.length_range]

theorem bits_append (high value : Nat) {low rest : Nat} (small : rest < Nat.pow 2 low) :
    bits high value ++ bits low rest = bits (high + low) (Nat.pow 2 low * value + rest) := by
  have bit (index : Nat) : (Nat.pow 2 low * value + rest).testBit index =
      if index < low then rest.testBit index else value.testBit (index - low) :=
    Nat.testBit_two_pow_mul_add value small index
  have upper : (Nat.pow 2 low * value + rest).testBit ∘ (low + ·) = value.testBit := by
    funext index
    rw [Function.comp_apply, bit, if_neg (by omega), Nat.add_sub_cancel_left]
  have lower : (List.range low).map (Nat.pow 2 low * value + rest).testBit =
      (List.range low).map rest.testBit := by
    refine List.map_inj_left.2 fun index mem => ?_
    rw [bit, if_pos (List.mem_range.1 mem)]
  rw [bits, bits, bits, Nat.add_comm high, List.range_add, List.reverse_append, List.map_append,
    List.map_reverse, List.map_reverse, List.map_reverse, List.map_reverse, List.map_map, lower,
    upper]

theorem bits_eq_append {width low : Nat} (short : low ≤ width) (value : Nat) :
    bits width value =
      bits (width - low) (value / Nat.pow 2 low) ++ bits low (value % Nat.pow 2 low) := by
  rw [bits_append _ _ (Nat.mod_lt value (Nat.two_pow_pos low)), Nat.sub_add_cancel short,
    Nat.div_add_mod]

theorem bits_zero (width : Nat) : bits width 0 = List.replicate width false := by
  refine List.eq_replicate_iff.2 ⟨length_bits width 0, fun bit mem => ?_⟩
  obtain ⟨index, -, rfl⟩ := List.mem_map.1 mem
  exact Nat.zero_testBit index

theorem exists_bits_eq (list : List Bool) :
    ∃ value, value < Nat.pow 2 list.length ∧ bits list.length value = list := by
  induction list with
  | nil => exact ⟨0, by decide, rfl⟩
  | cons bit list ih =>
    obtain ⟨value, small, same⟩ := ih
    have first : bits 1 bit.toNat = [bit] := by
      cases bit <;> rfl
    have joined := bits_append 1 bit.toNat small
    rw [first, same, Nat.add_comm] at joined
    refine ⟨_, ?_, joined.symm⟩
    have double : Nat.pow 2 (list.length + 1) = Nat.pow 2 list.length * 2 := rfl
    have least := bit.toNat_lt
    rw [List.length_cons, double]
    cases bit <;> simp only [Bool.toNat_false, Bool.toNat_true] <;> omega

theorem length_flatMap_bits (width : Nat) (values : List Nat) :
    (values.flatMap (bits width)).length = width * values.length := by
  induction values with
  | nil => rfl
  | cons value values ih =>
    rw [List.flatMap_cons, List.length_append, length_bits, ih, List.length_cons, Nat.mul_succ,
      Nat.add_comm]

theorem bits_inj {width value other : Nat} (small : value < Nat.pow 2 width)
    (smaller : other < Nat.pow 2 width) (same : bits width value = bits width other) :
    value = other := by
  refine Nat.eq_of_testBit_eq fun index => ?_
  by_cases inside : index < width
  · exact List.map_inj_left.1 same index (List.mem_reverse.2 (List.mem_range.2 inside))
  · have power : Nat.pow 2 width ≤ Nat.pow 2 index :=
      Nat.pow_le_pow_right (by decide) (Nat.le_of_not_lt inside)
    rw [Nat.testBit_lt_two_pow (Nat.lt_of_lt_of_le small power),
      Nat.testBit_lt_two_pow (Nat.lt_of_lt_of_le smaller power)]

theorem flatMap_bits_inj {width : Nat} {values others : List Nat}
    (small : ∀ value ∈ values, value < Nat.pow 2 width)
    (smaller : ∀ value ∈ others, value < Nat.pow 2 width) (length : values.length = others.length)
    (same : values.flatMap (bits width) = others.flatMap (bits width)) : values = others := by
  induction values generalizing others with
  | nil => exact (List.length_eq_zero_iff.1 length.symm).symm
  | cons value values ih =>
    cases others with
    | nil => cases length
    | cons other others =>
      obtain ⟨here, later⟩ := List.forall_mem_cons.1 small
      obtain ⟨there, after⟩ := List.forall_mem_cons.1 smaller
      rw [List.flatMap_cons, List.flatMap_cons] at same
      obtain ⟨first, rest⟩ := List.append_inj same ((length_bits _ _).trans (length_bits _ _).symm)
      rw [bits_inj here there first, ih later after (Nat.succ.inj length) rest]

/-- The number whose digits, of so many bits each, the values are. -/
def joined (width : Nat) (values : List Nat) : Nat :=
  values.foldl (fun number value => Nat.pow 2 width * number + value) 0

theorem flatMap_bits {width : Nat} {values : List Nat}
    (small : ∀ value ∈ values, value < Nat.pow 2 width) :
    values.flatMap (bits width) = bits (width * values.length) (joined width values) := by
  -- along the values, with the bits of what has been joined in front
  have general : ∀ (high number : Nat) (values : List Nat),
      (∀ value ∈ values, value < Nat.pow 2 width) →
      bits high number ++ values.flatMap (bits width) = bits (high + width * values.length)
        (values.foldl (fun number value => Nat.pow 2 width * number + value) number) := by
    intro high number values small
    induction values generalizing high number with
    | nil => exact List.append_nil _
    | cons value values ih =>
      obtain ⟨here, later⟩ := List.forall_mem_cons.1 small
      rw [List.flatMap_cons, ← List.append_assoc, bits_append high number here, ih _ _ later,
        List.length_cons, Nat.mul_succ, Nat.add_assoc, Nat.add_comm width]
      rfl
  have all := general 0 0 values small
  rw [Nat.zero_add] at all
  exact all

theorem flatMap_bits_eq_append {values numbers : List Nat} {filling : Nat}
    (small : ∀ value ∈ values, value < 64) (smaller : ∀ number ∈ numbers, number < 256)
    (width : 6 * values.length = 8 * numbers.length + filling)
    (same : joined 6 values = Nat.pow 2 filling * joined 8 numbers) :
    values.flatMap (bits 6) = numbers.flatMap (bits 8) ++ List.replicate filling false := by
  rw [flatMap_bits small, flatMap_bits smaller, ← bits_zero,
    bits_append _ _ (Nat.two_pow_pos filling), width, same, Nat.add_zero]

theorem exists_bytes_flatMap_bits {count : Nat} {list : List Bool}
    (length : list.length = 8 * count) :
    ∃ bytes : Bytes, bytes.length = count ∧ (bytes.map UInt8.toNat).flatMap (bits 8) = list := by
  induction count generalizing list with
  | zero => exact ⟨[], rfl, (List.length_eq_zero_iff.1 length).symm⟩
  | succ count ih =>
    have eight : (list.take 8).length = 8 := by
      rw [List.length_take]
      omega
    obtain ⟨value, small, first⟩ := exists_bits_eq (list.take 8)
    rw [eight] at small first
    have rest : (list.drop 8).length = 8 * count := by
      rw [List.length_drop]
      omega
    obtain ⟨bytes, counted, later⟩ := ih rest
    have byte : (UInt8.ofNat value).toNat = value := UInt8.toNat_ofNat_of_lt' small
    refine ⟨UInt8.ofNat value :: bytes, congrArg Nat.succ counted, ?_⟩
    rw [List.map_cons, List.flatMap_cons, byte, first, later, List.take_append_drop]

theorem StandardForm.cons_cons_cons {bytes : Bytes} {digits : List Char}
    (h : StandardForm bytes digits) (a b c : UInt8) :
    let group := 65536 * a.toNat + 256 * b.toNat + c.toNat
    StandardForm (a :: b :: c :: bytes)
      (digit (group / 262144) :: digit (group / 4096 % 64) :: digit (group / 64 % 64) ::
        digit (group % 64) :: digits) := by
  intro group
  have bounds := And.intro a.toNat_lt (And.intro b.toNat_lt c.toNat_lt)
  obtain ⟨values, filling, padding, small, regrouped, least, whole, fewest, rfl⟩ := h
  let first := [group / 262144, group / 4096 % 64, group / 64 % 64, group % 64]
  have smaller : ∀ value ∈ first, value < 64 := by
    simp only [first, List.forall_mem_cons]
    exact ⟨by omega, by omega, by omega, by omega, nofun⟩
  have here : first.flatMap (bits 6) =
      [a.toNat, b.toNat, c.toNat].flatMap (bits 8) ++ List.replicate 0 false := by
    refine flatMap_bits_eq_append smaller ?_ rfl ?_
    · simp only [List.forall_mem_cons]
      exact ⟨by omega, by omega, by omega, nofun⟩
    · change 64 * (64 * (64 * (64 * 0 + group / 262144) + group / 4096 % 64) + group / 64 % 64) +
        group % 64 = 1 * (256 * (256 * (256 * 0 + a.toNat) + b.toNat) + c.toNat)
      omega
  refine ⟨first ++ values, filling, padding, List.forall_mem_append.2 ⟨smaller, small⟩, ?_, least,
    ?_, fewest, rfl⟩
  · rw [List.flatMap_append, here, regrouped, List.replicate_zero, List.append_nil,
      ← List.append_assoc, ← List.flatMap_append]
    rfl
  · rw [List.length_append]
    change (4 + values.length + padding) % 4 = 0
    omega

theorem standardForm_pair (a b : UInt8) : StandardForm [a, b] (encode [a, b]) := by
  have bounds := And.intro a.toNat_lt b.toNat_lt
  let group := 1024 * a.toNat + 4 * b.toNat
  have small : ∀ value ∈ [group / 4096, group / 64 % 64, group % 64], value < 64 := by
    simp only [List.forall_mem_cons]
    exact ⟨by omega, by omega, by omega, nofun⟩
  refine ⟨_, 2, 1, small, flatMap_bits_eq_append small ?_ rfl ?_, by decide, Nat.mod_self 4,
    by decide, rfl⟩
  · simp only [List.map_cons, List.forall_mem_cons]
    exact ⟨by omega, by omega, nofun⟩
  · change 64 * (64 * (64 * 0 + group / 4096) + group / 64 % 64) + group % 64 =
      4 * (256 * (256 * 0 + a.toNat) + b.toNat)
    omega

theorem standardForm_single (a : UInt8) : StandardForm [a] (encode [a]) := by
  have bound := a.toNat_lt
  let group := 16 * a.toNat
  have small : ∀ value ∈ [group / 64, group % 64], value < 64 := by
    simp only [List.forall_mem_cons]
    exact ⟨by omega, by omega, nofun⟩
  refine ⟨_, 4, 2, small, flatMap_bits_eq_append small ?_ rfl ?_, by decide, Nat.mod_self 4,
    by decide, rfl⟩
  · simp only [List.map_cons, List.forall_mem_cons]
    exact ⟨by omega, nofun⟩
  · change 64 * (64 * 0 + group / 64) + group % 64 = 16 * (256 * 0 + a.toNat)
    omega

theorem standardForm_encode : (bytes : Bytes) → StandardForm bytes (encode bytes)
  | a :: b :: c :: rest => by
    rw [encode_cons_cons_cons]
    exact (standardForm_encode rest).cons_cons_cons a b c
  | [a, b] => standardForm_pair a b
  | [a] => standardForm_single a
  | [] => ⟨[], 0, 0, nofun, rfl, by decide, rfl, by decide, rfl⟩

theorem padding_eq {values : List Nat} {bytes : Bytes} {filling padding : Nat}
    (regrouped : values.flatMap (bits 6) =
      (bytes.map UInt8.toNat).flatMap (bits 8) ++ List.replicate filling false)
    (least : filling < 6) (whole : (values.length + padding) % 4 = 0) (fewest : padding < 4) :
    6 * values.length = 8 * bytes.length + filling ∧ filling = 2 * padding := by
  have length := congrArg List.length regrouped
  rw [List.length_append, length_flatMap_bits, length_flatMap_bits, List.length_map,
    List.length_replicate] at length
  omega

theorem StandardForm.unique {bytes : Bytes} {digits others : List Char}
    (h : StandardForm bytes digits) (other : StandardForm bytes others) : digits = others := by
  obtain ⟨values, filling, padding, small, regrouped, least, whole, fewest, rfl⟩ := h
  obtain ⟨values', filling', padding', small', regrouped', least', whole', fewest', rfl⟩ := other
  obtain ⟨length, filled⟩ := padding_eq regrouped least whole fewest
  obtain ⟨length', filled'⟩ := padding_eq regrouped' least' whole' fewest'
  have same : values.length = values'.length ∧ filling = filling' ∧ padding = padding' := by omega
  obtain ⟨count, rfl, rfl⟩ := same
  rw [flatMap_bits_inj small small' count (regrouped.trans regrouped'.symm)]

theorem standardForm_iff {bytes : Bytes} {digits : List Char} :
    StandardForm bytes digits ↔ digits = encode bytes := by
  constructor
  · intro h
    exact h.unique (standardForm_encode bytes)
  · rintro rfl
    exact standardForm_encode bytes

theorem digit_mem_alphabet {value : Nat} (small : value < 64) : digit value ∈ alphabet := by
  have all : ∀ value < 64, digit value ∈ alphabet := by decide
  exact all value small

theorem digit_inj {value other : Nat} (small : value < 64) (smaller : other < 64)
    (same : digit value = digit other) : value = other := by
  have read := congrArg value? same
  rwa [value?_digit small, value?_digit smaller, Option.some.injEq] at read

theorem rdropWhile_padding {body : List Char} (plain : ∀ c ∈ body.getLast?, c ≠ '=')
    (padding : Nat) : (body ++ List.replicate padding '=').rdropWhile (· == '=') = body := by
  induction padding with
  | zero =>
    rw [List.replicate_zero, List.append_nil, List.rdropWhile_eq_self_iff]
    intro some? padded
    exact plain _ (List.getLast?_eq_some_getLast some?) (beq_iff_eq.1 padded)
  | succ padding ih =>
    rw [List.replicate_succ', ← List.append_assoc, List.rdropWhile_concat_pos _ _ _ rfl, ih]

theorem not_mem_padding {values : List Nat} (small : ∀ value ∈ values, value < 64) :
    '=' ∉ values.map digit := by
  intro mem
  obtain ⟨value, among, same⟩ := List.mem_map.1 mem
  exact digit_ne_padding (small value among) same

theorem unused_eq_zero {values : List Nat} {bytes : Bytes} {padding value : Nat}
    (regrouped : (values ++ [value]).flatMap (bits 6) =
      (bytes.map UInt8.toNat).flatMap (bits 8) ++ List.replicate (2 * padding) false)
    (short : 2 * padding ≤ 6) : value % Nat.pow 2 (2 * padding) = 0 := by
  have power : 0 < Nat.pow 2 (2 * padding) := Nat.two_pow_pos _
  rw [List.flatMap_append, List.flatMap_singleton, bits_eq_append short, ← List.append_assoc]
    at regrouped
  have tail := List.append_inj_right' regrouped
    ((length_bits _ _).trans List.length_replicate.symm)
  rw [← bits_zero] at tail
  exact bits_inj (Nat.mod_lt value power) power tail

theorem StandardForm.not_flawed {bytes : Bytes} {digits : List Char}
    (h : StandardForm bytes digits) : ¬Flawed digits := by
  obtain ⟨values, filling, padding, small, regrouped, least, whole, fewest, rfl⟩ := h
  obtain ⟨-, rfl⟩ := padding_eq regrouped least whole fewest
  have plain := not_mem_padding small
  intro flawed
  cases flawed with
  | blank c mem blank =>
    have visible : Text.isBlank c = false := by
      rcases List.mem_append.1 mem with mem | mem
      · obtain ⟨value, among, rfl⟩ := List.mem_map.1 mem
        exact isBlank_digit (small value among)
      · rw [List.eq_of_mem_replicate mem]
        rfl
    rw [visible] at blank
    cases blank
  | foreign c mem unpadding foreign =>
    rcases List.mem_append.1 mem with mem | mem
    · obtain ⟨value, among, rfl⟩ := List.mem_map.1 mem
      exact foreign (digit_mem_alphabet (small value among))
    · exact unpadding (List.eq_of_mem_replicate mem)
  | broken length =>
    rw [List.length_append, List.length_map, List.length_replicate] at length
    exact length whole
  | surplus many =>
    rw [List.count_append, List.count_eq_zero_of_not_mem plain, List.count_replicate_self] at many
    omega
  | inside front back c unpadding split =>
    -- the padding inside stands among the digits or begins the padding
    rcases List.append_eq_append_iff.1 split with ⟨more, -, tail⟩ | ⟨more, first, tail⟩
    · have mem : c ∈ List.replicate padding '=' := by
        rw [tail]
        simp
      exact unpadding (List.eq_of_mem_replicate mem)
    · cases more with
      | nil =>
        have mem : c ∈ List.replicate padding '=' := by
          rw [List.nil_append] at tail
          rw [← tail]
          simp
        exact unpadding (List.eq_of_mem_replicate mem)
      | cons d more =>
        obtain ⟨rfl, -⟩ := List.cons.inj tail
        rw [first] at plain
        exact plain (by simp)
  | unused front value paddings lesser set split =>
    have last : ∀ c ∈ (front ++ [digit value]).getLast?, c ≠ '=' := by
      rw [List.getLast?_concat]
      rintro c ⟨rfl⟩
      exact digit_ne_padding lesser
    have body : values.map digit = front ++ [digit value] := by
      rw [List.append_cons] at split
      have dropped := congrArg (List.rdropWhile (· == '=')) split
      rwa [rdropWhile_padding fun c mem same => plain (same ▸ List.mem_of_mem_getLast? mem),
        rdropWhile_padding last] at dropped
    rw [body, List.append_cons] at split
    have count : padding = paddings := by
      simpa using congrArg List.length split
    obtain ⟨others, ends, rfl, -, single⟩ := List.map_eq_append_iff.1 body
    obtain ⟨other, rfl, same⟩ := List.map_eq_singleton_iff.1 single
    obtain rfl := digit_inj (small other (by simp)) lesser same
    rw [← count] at set
    exact set (unused_eq_zero regrouped (by omega))

section Sound

variable {body : List Char} {padding : Nat}
  (sound : ¬Flawed (body ++ List.replicate padding '='))

include sound

theorem not_mem_of_not_flawed (plain : ∀ c ∈ body.getLast?, c ≠ '=') : '=' ∉ body := by
  intro mem
  -- the last padding of the body, and what comes behind it
  obtain ⟨behind, before, split, fresh⟩ := List.eq_append_cons_of_mem (List.mem_reverse.2 mem)
  have whole : body = before.reverse ++ '=' :: behind.reverse := by
    rw [← List.reverse_reverse body, split]
    simp
  cases backwards : behind.reverse with
  | nil =>
    rw [backwards] at whole
    exact plain '=' (by simp [whole]) rfl
  | cons c rest =>
    have other : c ≠ '=' := by
      rintro rfl
      exact fresh (List.mem_reverse.1 (backwards ▸ List.mem_cons_self))
    refine sound (.inside before.reverse (rest ++ List.replicate padding '=') c other ?_)
    rw [whole, backwards, List.append_assoc, List.cons_append, List.cons_append]

theorem exists_values_of_not_flawed (fresh : '=' ∉ body) :
    ∃ values : List Nat, (∀ value ∈ values, value < 64) ∧ values.map digit = body := by
  have known : ∀ c ∈ body, alphabet.idxOf c < alphabet.length := by
    intro c mem
    rw [List.idxOf_lt_length_iff]
    by_contra foreign
    exact sound (.foreign c (List.mem_append_left _ mem) (fun same => fresh (same ▸ mem)) foreign)
  refine ⟨body.map alphabet.idxOf, ?_, ?_⟩
  · intro value mem
    obtain ⟨c, among, rfl⟩ := List.mem_map.1 mem
    exact known c among
  · have read : ∀ c ∈ body, (digit ∘ alphabet.idxOf) c = id c := by
      intro c mem
      rw [Function.comp_apply, digit, List.getD_eq_getElem?_getD,
        List.getElem?_eq_getElem (known c mem), Option.getD_some, List.getElem_idxOf, id]
    rw [List.map_map, List.map_congr_left read, List.map_id]

theorem exists_standardForm_append (plain : ∀ c ∈ body.getLast?, c ≠ '=') :
    ∃ bytes, StandardForm bytes (body ++ List.replicate padding '=') := by
  have fresh := not_mem_of_not_flawed sound plain
  obtain ⟨values, small, rfl⟩ := exists_values_of_not_flawed sound fresh
  have whole : (values.length + padding) % 4 = 0 := by
    by_contra broken
    refine sound (.broken ?_)
    rwa [List.length_append, List.length_map, List.length_replicate]
  have short : padding ≤ 2 := by
    by_contra many
    refine sound (.surplus ?_)
    rw [List.count_append, List.count_eq_zero_of_not_mem fresh, List.count_replicate_self]
    omega
  -- the bits that padding leaves unused are the last ones, and not set
  have filled : ∃ front, values.flatMap (bits 6) =
      front ++ List.replicate (2 * padding) false := by
    rcases List.eq_nil_or_concat values with rfl | ⟨others, value, rfl⟩
    · have none : padding = 0 := by
        rw [List.length_nil] at whole
        omega
      exact ⟨[], by rw [none]; rfl⟩
    · have zero : value % Nat.pow 2 (2 * padding) = 0 := by
        by_contra set
        refine sound (.unused (others.map digit) value padding (small value (by simp)) set ?_)
        simp
      refine ⟨others.flatMap (bits 6) ++ bits (6 - 2 * padding) (value / Nat.pow 2 (2 * padding)),
        ?_⟩
      rw [List.concat_eq_append, List.flatMap_append, List.flatMap_singleton,
        bits_eq_append (show 2 * padding ≤ 6 by omega) value, zero, bits_zero, List.append_assoc]
  obtain ⟨front, regrouped⟩ := filled
  have length := congrArg List.length regrouped
  rw [length_flatMap_bits, List.length_append, List.length_replicate] at length
  obtain ⟨bytes, -, rfl⟩ := exists_bytes_flatMap_bits (show front.length = 8 * (front.length / 8) by
    omega)
  exact ⟨bytes, values, 2 * padding, padding, small, regrouped, by omega, whole, by omega, rfl⟩

end Sound

/-- Digits without a flaw are those of bytes. -/
theorem exists_standardForm {digits : List Char} (sound : ¬Flawed digits) :
    ∃ bytes, StandardForm bytes digits := by
  have padding : digits.rtakeWhile (· == '=') =
      List.replicate (digits.rtakeWhile (· == '=')).length '=' :=
    List.eq_replicate_iff.2 ⟨rfl, fun _ mem =>
      beq_iff_eq.1 (List.mem_rtakeWhile_imp (p := (· == '=')) mem)⟩
  have split := List.rdropWhile_append_rtakeWhile (p := (· == '=')) (l := digits)
  rw [padding] at split
  have plain : ∀ c ∈ (digits.rdropWhile (· == '=')).getLast?, c ≠ '=' := by
    intro c mem
    obtain ⟨some?, rfl⟩ := List.mem_getLast?_eq_getLast mem
    exact fun same => List.rdropWhile_last_not _ _ some? (beq_iff_eq.2 same)
  rw [← split] at sound ⊢
  exact exists_standardForm_append sound plain

end SpeechService.Base64
