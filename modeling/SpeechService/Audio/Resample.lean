import SpeechService.Audio

/-!
Change of sample rate by linear interpolation. A converted list has `outputLength` samples: the
exact quotient of the rates rounded half up. `convert` brings a block to a target rate.
-/

set_option autoImplicit false

namespace SpeechService.Audio

def wide (value : Nat) : BitVec 128 := BitVec.ofNat 128 value

/-- Samples that `count` samples at rate `source` become at rate `target`: `count * target / source`
rounded half up, taken in words of 128 bits and given in one of 64. Without a source rate the count
stays. -/
def outputLength (count : Nat) (source target : UInt32) : Nat :=
  if source = 0 then count
  else
    let dividend := wide 2 * (wide count * wide target.toNat) + wide source.toNat
    (dividend / (wide 2 * wide source.toNat)).toNat % UInt64.size

/-- The value at a position between `size` samples: on the line between its neighbours, and the last
sample from the last index on. There is none if a sample is read that is missing. -/
def interpolate? (size : Nat) (read : Nat → Option Int16) (position : Float) : Option Float := do
  let index := position.floor.toUInt64.toNat
  if size ≤ index + 1 then
    let last ← read (size - 1)
    some last.toFloat
  else
    let left ← read index
    let right ← read (index + 1)
    some (left.toFloat +
      (right.toFloat - left.toFloat) * (position - index.toUInt64.toFloat))

/-- The position in the input at which output sample `index` of `count` is read. Positions are
equally spaced from the first to the last input index, and the final one is the last index itself.
-/
def queryPosition (last : Float) (count index : Nat) : Float :=
  if index + 1 = count ∧ 1 < count then last
  else
    let step := if 1 < count then last / (count - 1).toUInt64.toFloat else 0
    index.toUInt64.toFloat * step

/-- Interpolate `size` samples from one rate to another; each value is clipped to 16 bits and
truncated toward zero. There is no result if a sample is read that is missing. -/
def interpolateAll? (size : Nat) (read : Nat → Option Int16) (source target : UInt32) :
    Option (List Int16) :=
  let count := outputLength size source target
  if size = 0 ∨ count = 0 then some []
  else
    let last := (size - 1).toUInt64.toFloat
    (List.range count).mapM fun index => do
      let value ← interpolate? size read (queryPosition last count index)
      some value.toInt16

/-- Samples of one rate at another. Equal rates, or no source rate, give the samples back. -/
def resample (samples : List Int16) (source target : UInt32) : List Int16 :=
  if source = target ∨ source = 0 then samples
  else
    let table := samples.toArray
    (interpolateAll? table.size (table[·]?) source target).getD []

/-- Blocks at the target rate, or without a rate, are passed on as they are. -/
def isPassthrough (rate target : UInt32) : Bool := rate == target

def convert (target : UInt32) (block : AudioBlock) : Bytes :=
  if block.rate = 0 ∨ isPassthrough block.rate target then block.pcm
  else encode (resample (decode block.pcm) block.rate target)

end SpeechService.Audio
