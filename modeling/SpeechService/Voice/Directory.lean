import SpeechService.Failure
import SpeechService.Json.Record
import SpeechService.Text
import SpeechService.Voice.Registry

/-!
Voices on disk. A voice is an entry whose name ends in `.onnx` beside a file of the same name with
`.json` added, its configuration. Entries without a usable configuration are left out; a folder
without any voice is refused. `Tone` stands in for a speaking voice: a sine tone as long as the text
would take to say, with one block for each sentence, which goes on across blocks without a break.
-/

set_option autoImplicit false

namespace SpeechService

def isSentenceEnd (c : Char) : Bool := c == '.' || c == '!' || c == '?'

/-- A piece of text, trimmed, on top of the pieces before it unless it is blank. -/
def addPiece (piece : List Char) (pieces : List (List Char)) : List (List Char) :=
  let rest := Text.trimList piece
  if rest.isEmpty then pieces else rest :: pieces

/-- The sentences of the remaining text. The pieces and the characters since the last mark are
reversed. -/
def sentencesOnto (pieces : List (List Char)) (current : List Char) : List Char → List (List Char)
  | [] => (addPiece current.reverse pieces).reverse
  | c :: rest =>
    if isSentenceEnd c then sentencesOnto (addPiece (c :: current).reverse pieces) [] rest
    else sentencesOnto pieces (c :: current) rest

/-- The sentences of a text: each ends with the next mark, the last one with the text. They are
trimmed, and blank ones are left out. -/
def sentences (text : List Char) : List (List Char) := sentencesOnto [] [] text

structure Tone where
  rate : UInt32
  frequency : Float

namespace Tone

def standardFrequency : Float := 440

def amplitude : Float := 16000

def characterMillis : Float := 60

def longestBlock : Float := 60

def pi : Float := Float.ofBits 0x400921FB54442D18

def sample (tone : Tone) (index : Nat) : Int16 :=
  let seconds := index.toUInt64.toFloat / tone.rate.toFloat
  (amplitude * (2.0 * pi * tone.frequency * seconds).sin).toInt16

/-- The length scale that is used: 1 in place of one that is not a positive finite number. -/
def usableScale (scale : Float32) : Float :=
  if scale.isFinite ∧ 0 < scale then scale.toFloat else 1

def sentenceLength (tone : Tone) (scale : Float32) (characters : Nat) : Nat :=
  let rate := tone.rate.toFloat
  let wanted :=
    (characters.toUInt64.toFloat * characterMillis * usableScale scale * rate / 1000).round
  min wanted.toUInt64.toNat (longestBlock * rate).toUInt64.toNat

/-- The blocks of sentences of given numbers of samples, the first one from sample `start` on. -/
def blocksFrom (tone : Tone) (start : Nat) : List Nat → List AudioBlock
  | [] => []
  | length :: rest =>
    AudioBlock.ofSamples ((List.range' start length).map tone.sample) tone.rate ::
      blocksFrom tone (start + length) rest

def blocks (tone : Tone) (text : String) (params : SynthesisParams) : List AudioBlock :=
  tone.blocksFrom 0
    ((sentences text.toList).map fun sentence =>
      tone.sentenceLength params.lengthScale sentence.length)

def synthesizer (tone : Tone) : Synthesizer where
  nativeRate := tone.rate
  render := fun _ text params => .ok ((tone.blocks text params).map .ok)

def standard (rate : UInt32) : Tone := ⟨rate, standardFrequency⟩

end Tone

/-- What a voice configuration says; members that are not listed here are of no concern. -/
structure VoiceConfig where
  rate : UInt32
  deriving DecidableEq, Repr

namespace VoiceConfig

/-- The native rate of a voice whose configuration names none. -/
def defaultRate : UInt32 := 22050

def standard : VoiceConfig := ⟨defaultRate⟩

def audioFields : List (Json.Field VoiceConfig) :=
  [.of "sample_rate" (Json.readNatural (UInt32.size - 1)) fun _ rate => ⟨UInt32.ofNat rate⟩]

/-- The sections of a configuration. An audio section without a rate means the default rate. -/
def fields : List (Json.Field VoiceConfig) :=
  [.of "audio" (Json.readRecord audioFields standard) fun _ audio => audio]

def ofText (text : String) : Except Json.Fault VoiceConfig :=
  Json.readDocument (Json.readRecord fields standard) text

def ofFile (path : String) (content : Bytes) : Except Failure VoiceConfig :=
  match Text.ofBytes? content with
  | none => .error (.inputOutput "stream did not contain valid UTF-8")
  | some text => match ofText text with
    | .ok config => .ok config
    | .error fault => .error (.voiceConfig path fault.message)

end VoiceConfig

inductive FolderEntry where
  | file (content : Bytes)
  | folder
  deriving DecidableEq, Repr

/-- The entries of a folder by name, in the order in which they are listed. -/
abbrev Folder := List (String × FolderEntry)

def Folder.file? (folder : Folder) (name : String) : Option Bytes :=
  match folder.lookup name with
  | some (.file content) => some content
  | _ => none

structure DiscoveredVoice where
  id : String
  model : String
  configName : String
  configContent : Bytes
  deriving DecidableEq, Repr

def modelExtension : String := "onnx"

/-- The identifier of the voice whose model has this name: what precedes the extension, if that is
not empty. -/
def voiceId? (name : String) : Option String :=
  match Text.splitAtLast? '.' name with
  | some (id, extension) => if extension = modelExtension ∧ id ≠ "" then some id else none
  | none => none

namespace Folder

/-- The voice of an entry: its name is that of a model, and the configuration is a file. -/
def voiceOf? (folder : Folder) (name : String) : Option DiscoveredVoice := do
  let id ← voiceId? name
  let configName := name ++ ".json"
  let content ← folder.file? configName
  some ⟨id, name, configName, content⟩

def discover (folder : Folder) : List DiscoveredVoice :=
  (folder.filterMap fun entry => folder.voiceOf? entry.1).mergeSort
    fun left right => !decide (right.id < left.id)

end Folder

/-- The path of what lies in a folder under a name. An absolute path stays as it is. -/
def childPath (path name : String) : String :=
  if path.isEmpty || name.startsWith "/" then name
  else if path.endsWith "/" then path ++ name
  else path ++ "/" ++ name

/-- The configuration of a discovered voice in the folder at `path`. -/
def DiscoveredVoice.config (path : String) (voice : DiscoveredVoice) : Except Failure VoiceConfig :=
  VoiceConfig.ofFile (childPath path voice.configName) voice.configContent

def scanVoices (path : String) : Option Folder → Except Failure (List DiscoveredVoice)
  | none => .error (.modelNotFound path)
  | some folder => .ok folder.discover

/-- Turns an identifier, the path of a model and a configuration into a way to speak. -/
abbrev VoiceLoader := String → String → VoiceConfig → Except Failure Synthesizer

/-- Every voice renders the standard tone at its configured rate. -/
def toneLoader : VoiceLoader := fun _ _ config => .ok (Tone.standard config.rate).synthesizer

/-- The voice of a model, if its configuration can be read and the loader accepts it. -/
def DiscoveredVoice.load? (loader : VoiceLoader) (path : String) (voice : DiscoveredVoice) :
    Option Voice :=
  match voice.config path with
  | .error _ => none
  | .ok config => match loader voice.id (childPath path voice.model) config with
    | .error _ => none
    | .ok synthesizer => some ⟨synthesizer, voice.id⟩

def loadVoices (loader : VoiceLoader) (path : String) (folder : Option Folder) :
    Except Failure VoiceRegistry := do
  let discovered ← scanVoices path folder
  match discovered.filterMap (·.load? loader path) with
  | [] => .error (.noVoicesLoaded ("no usable voice in " ++ path))
  | voices => VoiceRegistry.ofList voices

end SpeechService
