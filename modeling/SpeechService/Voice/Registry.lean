import SpeechService.Audio
import SpeechService.Failure
import SpeechService.Language

/-!
Voices, and which of them speaks. A voice has an identifier, a native sample rate and a way to
render text block by block. The loaded voices are at least one, ascending by identifier, so that a
voice is found by halving them; of several voices with one identifier the first one given is kept. A
request names a voice and a language; a `VoiceMap` names a voice for each language and one for all
others. `resolve` always finds a voice.
-/

set_option autoImplicit false

namespace SpeechService

structure SynthesisParams where
  /-- Factor on the length of speech: below 1 is faster, above 1 slower. -/
  lengthScale : Float32

namespace SynthesisParams

def leastLengthScale : Float32 := 0.1

def greatestLengthScale : Float32 := 10

/-- Speech at `speed` times the normal rate, kept between a tenth and ten times the normal length. A
speed that is not a positive finite number means the normal rate. -/
def ofSpeed (speed : Float32) : SynthesisParams :=
  if 0 < speed ∧ speed.isFinite then
    let scale := 1 / speed
    if scale < leastLengthScale then ⟨leastLengthScale⟩
    else if greatestLengthScale < scale then ⟨greatestLengthScale⟩
    else ⟨scale⟩
  else ⟨1⟩

end SynthesisParams

/-- What a voice yields when it is asked for the next block: audio, or the failure that ends it. -/
abbrev BlockItem := Except Failure AudioBlock

/-- One call of a voice: the identifier of the voice, and what it is asked to render. -/
structure VoiceCall where
  voice : String
  text : String
  params : SynthesisParams

structure Synthesizer where
  /-- Rate at which blocks are rendered by default; each block names its own. -/
  nativeRate : UInt32
  /-- Start rendering a text; what comes of it may depend on the calls of voices before it, oldest
  first. -/
  render : List VoiceCall → String → SynthesisParams → Except Failure (List BlockItem)

structure Voice extends Synthesizer where
  id : String

def Ascending (voices : List Voice) : Prop :=
  voices.Pairwise fun left right => left.id < right.id

structure VoiceRegistry where
  first : Voice
  others : List Voice
  ascending : Ascending (first :: others)

namespace VoiceRegistry

/-- Where a search for an identifier ends. -/
inductive Place where
  /-- At the voice of that identifier. -/
  | taken (index : Nat)
  /-- Between the voices, where a voice of that identifier would have to stand. -/
  | free (index : Nat)
  deriving DecidableEq, Repr

def Place.behind (count : Nat) : Place → Place
  | .taken index => .taken (count + index)
  | .free index => .free (count + index)

/-- Search ascending voices for an identifier: compare it with the one in the middle, and go on in
the half that can hold it. -/
@[semireducible]
def search (id : String) (voices : List Voice) : Place :=
  let half := voices.length / 2
  match _rest : voices.drop half with
  | [] => .free 0
  | middle :: above =>
    if id = middle.id then .taken half
    else if id < middle.id then search id (voices.take half)
    else (search id above).behind (half + 1)
termination_by voices.length
decreasing_by
  all_goals
    have shorter := congrArg List.length _rest
    simp only [half, List.length_take, List.length_drop, List.length_cons] at shorter ⊢
    omega

/-- What is true of the place where a search in ascending voices ends. -/
inductive Place.Fits (id : String) (voices : List Voice) : Place → Prop
  | taken (index : Nat) (voice : Voice) (found : voices[index]? = some voice)
      (same : voice.id = id) : Fits id voices (.taken index)
  | free (below above : List Voice) (split : voices = below ++ above)
      (less : ∀ voice ∈ below, voice.id < id) (greater : ∀ voice ∈ above, id < voice.id) :
      Fits id voices (.free below.length)

private theorem Place.Fits.behind {id : String} {lower upper : List Voice} {place : Place}
    (h : place.Fits id upper) (lesser : ∀ voice ∈ lower, voice.id < id) :
    (place.behind lower.length).Fits id (lower ++ upper) := by
  cases h with
  | taken index voice found same =>
    refine .taken _ voice ?_ same
    rw [List.getElem?_append_right (Nat.le_add_right _ _), Nat.add_sub_cancel_left]
    exact found
  | free below above split less greater =>
    have all : ∀ voice ∈ lower ++ below, voice.id < id := by
      intro voice mem
      rcases List.mem_append.1 mem with first | later
      · exact lesser voice first
      · exact less voice later
    have fits := Place.Fits.free _ above rfl all greater
    rw [List.append_assoc, ← split, List.length_append] at fits
    exact fits

private theorem Place.Fits.before {id : String} {lower upper : List Voice} {place : Place}
    (h : place.Fits id lower) (beyond : ∀ voice ∈ upper, id < voice.id) :
    place.Fits id (lower ++ upper) := by
  cases h with
  | taken index voice found same =>
    obtain ⟨inside, -⟩ := List.getElem?_eq_some_iff.1 found
    exact .taken index voice ((List.getElem?_append_left inside).trans found) same
  | free below above split less greater =>
    subst split
    refine .free below (above ++ upper) (List.append_assoc _ _ _) less ?_
    intro voice mem
    rcases List.mem_append.1 mem with first | later
    · exact greater voice first
    · exact beyond voice later

/-- A search in ascending voices ends where it should. -/
theorem search_fits (id : String) (voices : List Voice) (ascending : Ascending voices) :
    (search id voices).Fits id voices := by
  fun_induction search id voices with
  | case1 voices half rest =>
    have short : voices.length ≤ voices.length / 2 := List.drop_eq_nil_iff.1 rest
    have nothing : voices = [] := List.length_eq_zero_iff.1 (by omega)
    subst nothing
    exact .free [] [] rfl nofun nofun
  | case2 voices half middle above rest same =>
    have here : voices[half]? = some middle := by
      rw [← List.head?_drop, rest]
      rfl
    exact .taken half middle here same.symm
  | case3 voices half middle above rest other less ih =>
    have split : voices = voices.take half ++ middle :: above := by
      rw [← rest, List.take_append_drop]
    have sorted : Ascending (voices.take half ++ middle :: above) := split ▸ ascending
    obtain ⟨lower, upper, -⟩ := List.pairwise_append.1 sorted
    have beyond : ∀ voice ∈ middle :: above, id < voice.id := by
      intro voice mem
      rcases List.mem_cons.1 mem with rfl | later
      · exact less
      · exact String.lt_trans less ((List.pairwise_cons.1 upper).1 voice later)
    have fits := (ih lower).before beyond
    rw [← split] at fits
    exact fits
  | case4 voices half middle above rest other notLess ih =>
    have split : voices = (voices.take half ++ [middle]) ++ above := by
      rw [List.append_assoc, List.singleton_append, ← rest, List.take_append_drop]
    have sorted : Ascending ((voices.take half ++ [middle]) ++ above) := split ▸ ascending
    obtain ⟨lower, upper, across⟩ := List.pairwise_append.1 sorted
    have greater : middle.id < id := by
      apply Decidable.byContradiction
      intro notGreater
      exact other (String.le_antisymm (String.not_lt.1 notGreater) (String.not_lt.1 notLess))
    have below : ∀ voice ∈ voices.take half ++ [middle], voice.id < id := by
      intro voice mem
      rcases List.mem_append.1 mem with earlier | last
      · have before := (List.pairwise_append.1 lower).2.2 voice earlier middle
          (List.mem_singleton.2 rfl)
        exact String.lt_trans before greater
      · rw [List.mem_singleton.1 last]
        exact greater
    have length : (voices.take half ++ [middle]).length = half + 1 := by
      have inside := congrArg List.length rest
      simp only [List.length_drop, List.length_cons] at inside
      simp only [List.length_append, List.length_take, List.length_singleton]
      omega
    have fits := (ih upper).behind below
    rw [length, ← split] at fits
    exact fits

/-- Put a voice at its place in ascending voices, unless they have one of its identifier. -/
def insert (voice : Voice) (sorted : List Voice) : List Voice :=
  match search voice.id sorted with
  | .taken _ => sorted
  | .free index => sorted.take index ++ voice :: sorted.drop index

inductive Inserted (voice : Voice) (sorted : List Voice) : List Voice → Prop
  | known (other : Voice) (mem : other ∈ sorted) (same : other.id = voice.id) :
      Inserted voice sorted sorted
  | added (below above : List Voice) (split : sorted = below ++ above)
      (less : ∀ other ∈ below, other.id < voice.id)
      (greater : ∀ other ∈ above, voice.id < other.id) :
      Inserted voice sorted (below ++ voice :: above)

theorem insert_inserted (voice : Voice) {sorted : List Voice} (ascending : Ascending sorted) :
    Inserted voice sorted (insert voice sorted) := by
  have fits := search_fits voice.id sorted ascending
  rw [insert]
  generalize search voice.id sorted = place at fits
  cases fits with
  | taken index other found same => exact .known other (List.mem_of_getElem? found) same
  | free below above split less greater =>
    subst split
    simp only [List.take_left, List.drop_left]
    exact .added below above rfl less greater

theorem insert_ascending (voice : Voice) {sorted : List Voice} (ascending : Ascending sorted) :
    Ascending (insert voice sorted) := by
  have inserted := insert_inserted voice ascending
  generalize insert voice sorted = result at inserted ⊢
  cases inserted with
  | known other mem same => exact ascending
  | added below above split less greater =>
    subst split
    obtain ⟨lower, upper, across⟩ := List.pairwise_append.1 ascending
    refine List.pairwise_append.2 ⟨lower, List.pairwise_cons.2 ⟨greater, upper⟩, ?_⟩
    intro left first right mem
    rcases List.mem_cons.1 mem with rfl | later
    · exact less left first
    · exact across left first right later

/-- Voices in ascending order, the first one given of each identifier. -/
def sort (voices : List Voice) : List Voice :=
  voices.foldl (fun sorted voice => insert voice sorted) []

theorem sort_ascending (voices : List Voice) : Ascending (sort voices) := by
  have general (sorted : List Voice) (ascending : Ascending sorted) :
      Ascending (voices.foldl (fun sorted voice => insert voice sorted) sorted) := by
    induction voices generalizing sorted with
    | nil => exact ascending
    | cons voice voices ih => exact ih _ (insert_ascending voice ascending)
  exact general [] .nil

def single (voice : Voice) : VoiceRegistry := ⟨voice, [], List.pairwise_singleton _ _⟩

def ofAscending : (voices : List Voice) → Ascending voices → Except Failure VoiceRegistry
  | [], _ => .error (.noVoicesLoaded "registry is empty")
  | first :: others, ascending => .ok ⟨first, others, ascending⟩

/-- The registry of a list of voices, which must not be empty. -/
def ofList (voices : List Voice) : Except Failure VoiceRegistry :=
  ofAscending (sort voices) (sort_ascending voices)

def voices (registry : VoiceRegistry) : List Voice := registry.first :: registry.others

def get? (registry : VoiceRegistry) (id : String) : Option Voice :=
  match search id registry.voices with
  | .taken index => registry.voices[index]?
  | .free _ => none

def contains (registry : VoiceRegistry) (id : String) : Bool := (registry.get? id).isSome

def ids (registry : VoiceRegistry) : List String := registry.voices.map Voice.id

def size (registry : VoiceRegistry) : Nat := registry.voices.length

theorem mem_of_get? {registry : VoiceRegistry} {id : String} {voice : Voice}
    (h : registry.get? id = some voice) : voice ∈ registry.voices := by
  rw [get?] at h
  split at h
  · exact List.mem_of_getElem? h
  · cases h

end VoiceRegistry

def anyVoice : String := "default"

structure VoiceMap where
  voices : TagTable
  /-- The voice of languages that have none of their own. -/
  defaultVoice : String
  deriving DecidableEq, Repr

namespace VoiceMap

def standard : VoiceMap where
  voices := .ofList [("en", "en_US-lessac-medium"), ("pt-BR", "pt_BR-faber-medium"),
    ("pt", "pt_BR-faber-medium"), ("es", "es_MX-ald-medium")]
  defaultVoice := "en_US-lessac-medium"

def voice? (map : VoiceMap) (tag : String) : Option String := map.voices.find? tag

def fields : List (Json.Field VoiceMap) :=
  [.of "voices" TagTable.read fun map voices => { map with voices := voices },
   .of "defaultVoice" Json.readText fun map voice => { map with defaultVoice := voice }]

/-- A voice map; absent fields are those of the standard one. -/
def read (input : Json.Input) : Except Json.Fault (VoiceMap × Json.Input) :=
  Json.readRecord fields standard input

end VoiceMap

/-- The voice that is asked for by name, unless the name stands for no particular voice. -/
def VoiceRegistry.requested? (registry : VoiceRegistry) (name : String) : Option Voice :=
  if name = anyVoice then none else registry.get? name

/-- The voice for a request: the one it names, else the one of its language, else the default voice,
each if it is loaded, else the first voice of the registry. -/
def VoiceRegistry.resolve (registry : VoiceRegistry) (map : VoiceMap) (name language : String) :
    Voice :=
  registry.requested? name
    |>.or ((map.voice? language).bind registry.get?)
    |>.or (registry.get? map.defaultVoice)
    |>.getD registry.first

end SpeechService
