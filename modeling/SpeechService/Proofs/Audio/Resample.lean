import Mathlib.Algebra.Order.Group.Unbundled.Int
import Mathlib.Tactic.Linarith
import SpeechService.Audio.Resample
import SpeechService.Proofs.Audio.Pcm

/-!
Blocks brought to a target rate. A block that has no other rate is handed back untouched, with its
last byte where the number of bytes is odd; conversion drops such a byte.

`outputLength` is the quotient of the rates rounded half up, and no step of it leaves 128 bits;
interpolation gives as many samples and reads none that is missing. Of blocks converted one by one,
each is off by half a sample at most.
-/

set_option autoImplicit false

namespace SpeechService.Audio

/-- A block is not converted: it has no rate, or already the target rate. -/
def PassesOn (target rate : UInt32) : Prop := rate = 0 ∨ rate = target

instance (target rate : UInt32) : Decidable (PassesOn target rate) :=
  inferInstanceAs (Decidable (_ ∨ _))

theorem convert_of_passesOn {target : UInt32} {block : AudioBlock}
    (h : PassesOn target block.rate) : convert target block = block.pcm := by
  have passed : block.rate = 0 ∨ isPassthrough block.rate target = true := by
    rw [isPassthrough, beq_iff_eq]
    exact h
  rw [convert, if_pos passed]

theorem convert_of_not_passesOn {target : UInt32} {block : AudioBlock}
    (h : ¬PassesOn target block.rate) :
    convert target block = encode (resample (decode block.pcm) block.rate target) := by
  have converted : ¬(block.rate = 0 ∨ isPassthrough block.rate target = true) := by
    rw [isPassthrough, beq_iff_eq]
    exact h
  rw [convert, if_neg converted]

theorem resample_of_passesOn {target rate : UInt32} (h : PassesOn target rate)
    (samples : List Int16) : resample samples rate target = samples := by
  rw [resample, if_pos h.symm]

/-- A block at the target rate is its samples at that rate, followed by the odd byte of a block that
is handed back untouched. So both ways agree exactly on the blocks that are converted and on those
of whole samples, and exactly these leave the samples of later blocks in place. -/
theorem convert_eq_append (target : UInt32) (block : AudioBlock) :
    let converted := encode (resample (decode block.pcm) block.rate target)
    convert target block = converted ++
        (if PassesOn target block.rate then block.pcm.drop (2 * (block.pcm.length / 2)) else []) ∧
      (PassesOn target block.rate → convert target block = block.pcm) ∧
      (convert target block = converted ↔
        (PassesOn target block.rate → block.pcm.length % 2 = 0)) ∧
      ((∀ later, decode (convert target block ++ later) =
          decode (convert target block) ++ decode later) ↔
        (PassesOn target block.rate → block.pcm.length % 2 = 0)) := by
  intro converted
  rw [decode_append_iff]
  by_cases passed : PassesOn target block.rate
  · have samples : converted = encode (decode block.pcm) := by
      simp only [converted, resample_of_passesOn passed]
    rw [convert_of_passesOn passed, if_pos passed, samples]
    refine ⟨(encode_decode_append block.pcm).symm, fun _ => rfl, ?_,
      ⟨fun whole _ => whole, fun whole => whole passed⟩⟩
    constructor
    · intro same _
      have even := length_encode (decode block.pcm)
      rw [← same] at even
      omega
    · intro whole
      exact (encode_decode (whole passed)).symm
  · have same : convert target block = converted := convert_of_not_passesOn passed
    have even : converted.length % 2 = 0 := by
      have twice := length_encode (resample (decode block.pcm) block.rate target)
      simp only [converted]
      omega
    rw [same, if_neg passed, List.append_nil]
    refine ⟨rfl, fun other => absurd other passed, ?_, ?_⟩
    · exact iff_of_true rfl fun other => absurd other passed
    · exact iff_of_true even fun other => absurd other passed

/-- The odd byte of a block that is handed back stays, and the samples of the next block are read
from the wrong bytes. -/
theorem convert_odd_block :
    let odd : AudioBlock := ⟨[1, 2, 3], 16000⟩
    let next : AudioBlock := ⟨[4, 5], 16000⟩
    convert 16000 odd = [1, 2, 3] ∧
      encode (resample (decode odd.pcm) odd.rate 16000) = [1, 2] ∧
      convert 16000 odd ≠ encode (resample (decode odd.pcm) odd.rate 16000) ∧
      decode (convert 16000 odd ++ convert 16000 next) = [0x0201, 0x0403] ∧
      decode next.pcm = [0x0504] := by
  decide

/-- `quotient` is the whole number nearest to `numerator / denominator`, the greater one of two. -/
def RoundsHalfUp (numerator denominator quotient : Nat) : Prop :=
  (2 * (quotient : Int) - 1) * denominator ≤ 2 * numerator ∧
    2 * numerator < (2 * (quotient : Int) + 1) * denominator

theorem roundsHalfUp_iff {numerator denominator quotient : Nat} (positive : 0 < denominator) :
    RoundsHalfUp numerator denominator quotient ↔
      (2 * numerator + denominator) / (2 * denominator) = quotient := by
  have twice : quotient * (2 * denominator) = 2 * (quotient * denominator) :=
    Nat.mul_left_comm quotient 2 denominator
  have lower : (2 * (quotient : Int) - 1) * denominator =
      2 * ((quotient * denominator : Nat) : Int) - denominator := by
    rw [Nat.cast_mul, sub_mul, one_mul, mul_assoc]
  have upper : (2 * (quotient : Int) + 1) * denominator =
      2 * ((quotient * denominator : Nat) : Int) + denominator := by
    rw [Nat.cast_mul, add_mul, one_mul, mul_assoc]
  rw [Nat.div_eq_iff (by omega), RoundsHalfUp, twice, lower, upper]
  omega

theorem RoundsHalfUp.abs_sub_le {numerator denominator quotient : Nat}
    (h : RoundsHalfUp numerator denominator quotient) :
    |2 * ((denominator : Int) * quotient - numerator)| ≤ denominator := by
  obtain ⟨lower, upper⟩ := h
  rw [abs_le]
  constructor <;> linarith

/-- No step of the quotient leaves its word. -/
structure Unwrapped (count : Nat) (source target : UInt32) : Prop where
  product : (wide count).umulOverflow (wide target.toNat) = false
  twice : (wide 2).umulOverflow (wide count * wide target.toNat) = false
  dividend : (wide 2 * (wide count * wide target.toNat)).uaddOverflow (wide source.toNat) = false
  divisor : (wide 2).umulOverflow (wide source.toNat) = false

def Fits (count : Nat) (source target : UInt32) : Prop :=
  ∃ length < UInt64.size, RoundsHalfUp (count * target.toNat) source.toNat length

theorem toNat_wide {value : Nat} (small : value < UInt64.size) : (wide value).toNat = value := by
  rw [wide, BitVec.toNat_ofNat]
  exact Nat.mod_eq_of_lt (Nat.lt_trans small (by decide))

theorem umulOverflow_eq_false {left right : BitVec 128}
    (h : left.toNat * right.toNat < 2 ^ 128) : left.umulOverflow right = false :=
  decide_eq_false (Nat.not_le.2 h)

theorem toNat_mul_of_fits {left right : BitVec 128} (h : left.umulOverflow right = false) :
    (left * right).toNat = left.toNat * right.toNat :=
  BitVec.toNat_mul_of_not_umulOverflow (Bool.eq_false_iff.1 h)

theorem toNat_wide_rate (rate : UInt32) : (wide rate.toNat).toNat = rate.toNat :=
  toNat_wide (Nat.lt_trans rate.toNat_lt (by decide))

variable {count more : Nat} {source target : UInt32}

theorem unwrapped_toNat (small : count < UInt64.size) (source target : UInt32) :
    Unwrapped count source target ∧
      (wide 2 * (wide count * wide target.toNat) + wide source.toNat).toNat =
        2 * (count * target.toNat) + source.toNat ∧
      (wide 2 * wide source.toNat).toNat = 2 * source.toNat := by
  have two : (wide 2).toNat = 2 := rfl
  have below : count * target.toNat < UInt64.size * UInt32.size :=
    Nat.mul_lt_mul'' small target.toNat_lt
  have rate : source.toNat < UInt32.size := source.toNat_lt
  simp only [UInt64.size, UInt32.size] at below rate
  have product : (wide count).umulOverflow (wide target.toNat) = false := by
    apply umulOverflow_eq_false
    rw [toNat_wide small, toNat_wide_rate]
    omega
  have exact : (wide count * wide target.toNat).toNat = count * target.toNat := by
    rw [toNat_mul_of_fits product, toNat_wide small, toNat_wide_rate]
  have twice : (wide 2).umulOverflow (wide count * wide target.toNat) = false := by
    apply umulOverflow_eq_false
    rw [two, exact]
    omega
  have doubled :
      (wide 2 * (wide count * wide target.toNat)).toNat = 2 * (count * target.toNat) := by
    rw [toNat_mul_of_fits twice, two, exact]
  have dividend : (wide 2 * (wide count * wide target.toNat)).uaddOverflow
      (wide source.toNat) = false := by
    apply decide_eq_false
    rw [doubled, toNat_wide_rate]
    omega
  have divisor : (wide 2).umulOverflow (wide source.toNat) = false := by
    apply umulOverflow_eq_false
    rw [two, toNat_wide_rate]
    omega
  refine ⟨⟨product, twice, dividend, divisor⟩, ?_, ?_⟩
  · rw [BitVec.toNat_add_of_not_uaddOverflow (Bool.eq_false_iff.1 dividend), doubled,
      toNat_wide_rate]
  · rw [toNat_mul_of_fits divisor, two, toNat_wide_rate]

theorem rate_pos (rated : source ≠ 0) : 0 < source.toNat :=
  Nat.pos_of_ne_zero fun zero => rated (UInt32.toNat.inj zero)

theorem outputLength_eq (small : count < UInt64.size) (rated : source ≠ 0) :
    outputLength count source target =
      (2 * (count * target.toNat) + source.toNat) / (2 * source.toNat) % UInt64.size := by
  obtain ⟨-, dividend, divisor⟩ := unwrapped_toNat small source target
  rw [outputLength, if_neg rated]
  simp only [BitVec.toNat_udiv, dividend, divisor]

theorem outputLength_eq_iff (small : count < UInt64.size) (rated : source ≠ 0)
    (fits : Fits count source target) (length : Nat) :
    outputLength count source target = length ↔
      RoundsHalfUp (count * target.toNat) source.toNat length := by
  obtain ⟨exact, inside, rounds⟩ := fits
  rw [roundsHalfUp_iff (rate_pos rated)] at rounds ⊢
  rw [outputLength_eq small rated, rounds, Nat.mod_eq_of_lt inside]

theorem outputLength_mono (order : count ≤ more) (small : more < UInt64.size)
    (rated : source ≠ 0) (fits : Fits more source target) :
    outputLength count source target ≤ outputLength more source target := by
  obtain ⟨exact, inside, rounds⟩ := fits
  rw [roundsHalfUp_iff (rate_pos rated)] at rounds
  rw [outputLength_eq (Nat.lt_of_le_of_lt order small) rated, outputLength_eq small rated, rounds,
    Nat.mod_eq_of_lt inside, ← rounds]
  have products := Nat.mul_le_mul_right target.toNat order
  exact (Nat.mod_le _ _).trans (Nat.div_le_div_right (by omega))

theorem outputLength_of_passesOn (small : count < UInt64.size) (h : PassesOn target source) :
    outputLength count source target = count := by
  by_cases unrated : source = 0
  · rw [outputLength, if_pos unrated]
  · have same : source = target := h.resolve_left unrated
    have positive := rate_pos unrated
    have whole : RoundsHalfUp (count * target.toNat) source.toNat count := by
      subst same
      constructor
      · push_cast
        linarith
      · push_cast
        linarith
    exact (outputLength_eq_iff small unrated ⟨count, small, whole⟩ count).2 whole

theorem outputLength_zero (source target : UInt32) : outputLength 0 source target = 0 := by
  by_cases unrated : source = 0
  · rw [outputLength, if_pos unrated]
  · have nothing : RoundsHalfUp (0 * target.toNat) source.toNat 0 := by
      have positive := rate_pos unrated
      constructor <;> push_cast <;> linarith
    exact (outputLength_eq_iff (by decide) unrated ⟨0, by decide, nothing⟩ 0).2 nothing

section Reading

variable {size : Nat} {read other : Nat → Option Int16}

theorem interpolate?_congr (same : ∀ index < size, read index = other index) (some? : size ≠ 0)
    (position : Float) : interpolate? size read position = interpolate? size other position := by
  simp only [interpolate?]
  by_cases beyond : size ≤ position.floor.toUInt64.toNat + 1
  · rw [if_pos beyond, if_pos beyond, same _ (by omega)]
  · rw [if_neg beyond, if_neg beyond, same _ (by omega), same _ (by omega)]

theorem interpolateAll?_congr (same : ∀ index < size, read index = other index) :
    interpolateAll? size read source target = interpolateAll? size other source target := by
  by_cases nothing : size = 0 ∨ outputLength size source target = 0
  · rw [interpolateAll?, interpolateAll?, if_pos nothing, if_pos nothing]
  · have some? : size ≠ 0 := fun empty => nothing (.inl empty)
    simp only [interpolateAll?, if_neg nothing, interpolate?_congr same some?]

end Reading

theorem exists_interpolate? {samples : List Int16} (some? : samples.length ≠ 0)
    (position : Float) :
    ∃ value, interpolate? samples.length (samples[·]?) position = some value := by
  have given {index : Nat} (inside : index < samples.length) :
      samples[index]? = some samples[index] := List.getElem?_eq_getElem inside
  by_cases beyond : samples.length ≤ position.floor.toUInt64.toNat + 1
  · rw [interpolate?, if_pos beyond, given (by omega)]
    exact ⟨_, rfl⟩
  · rw [interpolate?, if_neg beyond, given (by omega), given (by omega)]
    exact ⟨_, rfl⟩

theorem exists_interpolateAll? (samples : List Int16) (source target : UInt32) :
    ∃ output : List Int16,
      interpolateAll? samples.length (samples[·]?) source target = some output ∧
        output.length = outputLength samples.length source target := by
  by_cases nothing : samples.length = 0 ∨ outputLength samples.length source target = 0
  · have none? : outputLength samples.length source target = 0 := by
      rcases nothing with empty | none?
      · rw [empty, outputLength_zero]
      · exact none?
    rw [interpolateAll?, if_pos nothing]
    exact ⟨[], rfl, none?.symm⟩
  · have some? : samples.length ≠ 0 := fun empty => nothing (.inl empty)
    choose value values using exists_interpolate? some?
    rw [interpolateAll?, if_neg nothing]
    simp only [values]
    exact ⟨_, List.mapM_pure, by rw [List.length_map, List.length_range]⟩

theorem resample_of_not_passesOn (h : ¬PassesOn target source) (samples : List Int16) :
    resample samples source target =
      (interpolateAll? samples.length (samples[·]?) source target).getD [] := by
  have table : (samples.toArray[·]?) = (samples[·]?) := funext fun _ => List.getElem?_toArray
  rw [resample, if_neg (h ∘ Or.symm)]
  simp only [List.size_toArray, table]

/-- A reader of samples that are there is all that conversion needs. -/
theorem interpolateAll?_eq_some {samples : List Int16} (h : ¬PassesOn target source)
    {read : Nat → Option Int16} (reads : ∀ index < samples.length, read index = samples[index]?) :
    interpolateAll? samples.length read source target = some (resample samples source target) := by
  obtain ⟨output, made, -⟩ := exists_interpolateAll? samples source target
  rw [interpolateAll?_congr reads, resample_of_not_passesOn h, made, Option.getD_some]

theorem length_resample {samples : List Int16} (small : samples.length < UInt64.size)
    (source target : UInt32) :
    (resample samples source target).length = outputLength samples.length source target := by
  by_cases passed : PassesOn target source
  · rw [resample_of_passesOn passed, outputLength_of_passesOn small passed]
  · obtain ⟨output, made, length⟩ := exists_interpolateAll? samples source target
    rw [resample_of_not_passesOn passed, made, Option.getD_some, length]

theorem abs_sum_outputLength_sub_le (rated : source ≠ 0) {counts : List Nat}
    (each : ∀ count ∈ counts, count < UInt64.size ∧ Fits count source target) :
    |2 * ((source.toNat : Int) * (counts.map (outputLength · source target)).sum -
        target.toNat * counts.sum)| ≤ counts.length * source.toNat := by
  induction counts with
  | nil => simp
  | cons count counts ih =>
    obtain ⟨⟨small, fits⟩, others⟩ := List.forall_mem_cons.1 each
    have rounds := (outputLength_eq_iff small rated fits _).1 rfl
    have first := rounds.abs_sub_le
    have later := ih others
    rw [abs_le] at first later ⊢
    simp only [List.map_cons, List.sum_cons, List.length_cons]
    push_cast at first later ⊢
    constructor <;> linarith

/-- The length of converted audio is the rounded quotient, whatever the rates and however long the
audio is, in words that hold every step; conversion gives it, and reads the samples given only. Over
blocks converted one by one the halves add up, and no more. -/
theorem outputLength_rounds (source target : UInt32) :
    (source ≠ 0 →
      (∀ count < UInt64.size, Unwrapped count source target ∧
        (Fits count source target → ∀ length, outputLength count source target = length ↔
          RoundsHalfUp (count * target.toNat) source.toNat length)) ∧
      (∀ count more, count ≤ more → more < UInt64.size → Fits more source target →
        outputLength count source target ≤ outputLength more source target) ∧
      ∀ counts : List Nat, (∀ count ∈ counts, count < UInt64.size ∧ Fits count source target) →
        |2 * ((source.toNat : Int) * (counts.map (outputLength · source target)).sum -
          target.toNat * counts.sum)| ≤ counts.length * source.toNat) ∧
    ∀ samples : List Int16, samples.length < UInt64.size →
      (resample samples source target).length = outputLength samples.length source target ∧
      (PassesOn target source → resample samples source target = samples) ∧
      (¬PassesOn target source → ∀ read : Nat → Option Int16,
        (∀ index < samples.length, read index = samples[index]?) →
        interpolateAll? samples.length read source target =
          some (resample samples source target)) := by
  constructor
  · intro rated
    refine ⟨?_, ?_, ?_⟩
    · intro count small
      exact ⟨(unwrapped_toNat small source target).1, outputLength_eq_iff small rated⟩
    · intro count more order small fits
      exact outputLength_mono order small rated fits
    · intro counts each
      exact abs_sum_outputLength_sub_le rated each
  · intro samples small
    refine ⟨length_resample small source target, ?_, ?_⟩
    · intro passed
      exact resample_of_passesOn passed samples
    · intro converted read reads
      exact interpolateAll?_eq_some converted reads

theorem outputLength_rounds_threeBlocks :
    let counts := [2205, 7, 1]
    let samples : List Int16 := [5, -6, 7]
    let read (index : Nat) : Option Int16 := some (samples.getD index 0)
    (22050 : UInt32) ≠ 0 ∧
      (∀ count ∈ counts, count < UInt64.size ∧ Fits count 22050 16000) ∧
      counts.map (outputLength · 22050 16000) = [1600, 5, 1] ∧
      |2 * ((22050 : Int) * 1606 - 16000 * 2213)| ≤ 3 * 22050 ∧
      ¬PassesOn 16000 22050 ∧ (∀ index < samples.length, read index = samples[index]?) ∧
      (resample samples 22050 16000).length = 2 ∧
      interpolateAll? 3 read 22050 16000 = some (resample samples 22050 16000) := by
  intro counts samples read
  have rated : (22050 : UInt32) ≠ 0 := by decide
  have converted : ¬PassesOn 16000 22050 := by decide
  have reads : ∀ index < samples.length, read index = samples[index]? := by decide
  have each : ∀ count ∈ counts, count < UInt64.size ∧ Fits count 22050 16000 := by
    simp only [counts, List.forall_mem_cons]
    refine ⟨⟨by decide, 1600, by decide, ?_⟩, ⟨by decide, 5, by decide, ?_⟩,
      ⟨by decide, 1, by decide, ?_⟩, List.forall_mem_nil _⟩ <;> constructor <;> decide
  obtain ⟨lengths, short⟩ := outputLength_rounds 22050 16000
  obtain ⟨-, -, drift⟩ := lengths rated
  obtain ⟨length, -, within⟩ := short samples (by decide)
  have made : counts.map (outputLength · 22050 16000) = [1600, 5, 1] := by decide
  have off := drift counts each
  rw [made] at off
  exact ⟨rated, each, made, off, converted, reads, length.trans (by decide),
    within converted read reads⟩

end SpeechService.Audio
