import SpeechService.Audio
import SpeechService.Decimal
import SpeechService.Disk.Tree
import SpeechService.Engine.Stream
import SpeechService.Voice.Registry

/-!
The synthesis command: it speaks a text into a wave file of canonical audio. The file is created
only when the arguments are in order and voices are loaded.
-/

set_option autoImplicit false

namespace SpeechService.Command

structure Arguments where
  text : Option String := none
  voice : String := anyVoice
  language : String := "en"
  speed : Float32 := 1
  /-- The folder of voices; without one there is a single voice. -/
  models : Option String := none
  output : String := "out.wav"

inductive Parsed where
  | help
  | run (arguments : Arguments)
  | failed (failure : RunFailure)

def usage : String :=
  "Usage: whats-synth --text <text> [--voice <id>] [--language <tag>] \\\n  [--speed <x>] " ++
    "[--models <dir>] [--output <file.wav>]"

inductive ValueOption where
  | text
  | voice
  | language
  | speed
  | models
  | output
  deriving DecidableEq, Repr

namespace ValueOption

def all : List ValueOption := [.text, .voice, .language, .speed, .models, .output]

def name : ValueOption → String
  | .text => "--text"
  | .voice => "--voice"
  | .language => "--language"
  | .speed => "--speed"
  | .models => "--models"
  | .output => "--output"

def store (option : ValueOption) (value : String) (arguments : Arguments) :
    Except RunFailure Arguments :=
  match option with
  | .text => .ok { arguments with text := some value }
  | .voice => .ok { arguments with voice := value }
  | .language => .ok { arguments with language := value }
  | .speed => match Decimal.readSingle value with
    | .ok value => .ok { arguments with speed := value }
    | .error fault => .error ⟨"invalid value for --speed", some fault.message⟩
  | .models => .ok { arguments with models := some value }
  | .output => .ok { arguments with output := value }

end ValueOption

/-- Read the remaining arguments. A request for help is met before what follows it is looked at. -/
def parseOnto (arguments : Arguments) : List String → Parsed
  | [] => .run arguments
  | word :: rest =>
    match ValueOption.all.find? (·.name == word) with
    | some option => match rest with
      | [] => .failed (.plain ("missing value for " ++ word))
      | value :: rest => match option.store value arguments with
        | .ok arguments => parseOnto arguments rest
        | .error failure => .failed failure
    | none =>
      if word = "--help" ∨ word = "-h" then .help
      else .failed (.plain ("unknown argument: " ++ word))

def parse (words : List String) : Parsed := parseOnto {} words

structure RunResult where
  exitCode : UInt32
  output : String
  errors : String
  files : List (String × Bytes)
  deriving DecidableEq, Repr

def RunResult.ofFailure (failure : RunFailure) : RunResult := ⟨1, "", failure.report, []⟩

def soleVoice : Voice := ⟨(Tone.standard 22050).synthesizer, "tone"⟩

def voices (disk : Disk) : Option String → Except RunFailure VoiceRegistry
  | none => .ok (.single soleVoice)
  | some path => match loadVoices toneLoader path (disk.folder? path) with
    | .ok registry => .ok registry
    | .error failure => .error ⟨"loading voices from " ++ path, some failure.message⟩

def gather : List StreamItem → Except Failure (List Bytes)
  | [] => .ok []
  | .error failure :: _ => .error failure
  | .ok chunk :: rest => do
    let others ← gather rest
    .ok (chunk.data :: others)

def render (registry : VoiceRegistry) (request : SynthesisRequest) : Except Failure Bytes := do
  let stream ← (registry.speak .standard [] request).1
  let chunks ← gather stream.drain.1
  .ok (Audio.waveFile (chunks.flatMap Audio.decode))

def synthesize (disk : Disk) (arguments : Arguments) (text : String) : RunResult :=
  match voices disk arguments.models with
  | .error failure => .ofFailure failure
  | .ok registry => match disk.refusal? arguments.output with
    | some refusal => .ofFailure ⟨"creating " ++ arguments.output, some refusal⟩
    | none =>
      let request : SynthesisRequest := {
        text := text
        voice := arguments.voice
        speed := arguments.speed
        language := arguments.language }
      match render registry request with
      | .error failure => .ofFailure (.plain failure.message)
      | .ok file => ⟨0, "", "", [(arguments.output, file)]⟩

def run (disk : Disk) (words : List String) : RunResult :=
  match parse words with
  | .help => ⟨0, usage ++ "\n", "", []⟩
  | .failed failure => .ofFailure failure
  | .run arguments => match arguments.text with
    | none => .ofFailure (.plain "--text is required")
    | some text => synthesize disk arguments text

end SpeechService.Command
