import SpeechService.Engine.Basic
import SpeechService.Text

/-!
The settings of the server. They begin as the standard ones; a settings file, then the environment,
replace some of them; `normalize` brings the rest into range. `resolve` goes through these steps.
-/

set_option autoImplicit false

namespace SpeechService.Server

structure Settings where
  listenAddress : String
  workers : Nat
  modelsPath : String
  recognizerModel : String
  device : String
  translatorEnabled : Bool
  translateTimeout : Nat
  /-- Bytes of the longest accepted request line, its newline excluded. -/
  maxRequestBytes : Nat
  voiceMap : VoiceMap
  languageCodes : LanguageCodes
  deriving DecidableEq, Repr

abbrev Environment := List (String × String)

namespace Settings

def standard : Settings where
  listenAddress := "0.0.0.0:50051"
  workers := 2
  modelsPath := "/app/models"
  recognizerModel := "base"
  device := "cpu"
  translatorEnabled := true
  translateTimeout := 250
  maxRequestBytes := 16 * 1024 * 1024
  voiceMap := .standard
  languageCodes := .standard

def readWord : Json.Reader Nat := Json.readNatural (UInt64.size - 1)

def fields : List (Json.Field Settings) :=
  [.of "listenAddr" Json.readText fun settings value => { settings with listenAddress := value },
   .of "numWorkers" readWord fun settings value => { settings with workers := value },
   .of "modelsDir" Json.readText fun settings value => { settings with modelsPath := value },
   .of "recognizerModel" Json.readText fun settings value =>
     { settings with recognizerModel := value },
   .of "device" Json.readText fun settings value => { settings with device := value },
   .of "translatorEnabled" Json.readBool fun settings value =>
     { settings with translatorEnabled := value },
   .of "translateTimeoutMs" readWord fun settings value =>
     { settings with translateTimeout := value },
   .of "maxRequestBytes" readWord fun settings value => { settings with maxRequestBytes := value },
   .of "voiceMap" VoiceMap.read fun settings value => { settings with voiceMap := value },
   .of "languageCodes" TagTable.read fun settings value =>
     { settings with languageCodes := value }]

/-- The settings of a text; absent fields are the standard ones. -/
def ofText (text : String) : Except Json.Fault Settings :=
  Json.readDocument (Json.readRecord fields standard) text

/-- The settings of a file, before they are brought into range; none if it cannot be read. -/
def ofFile? (content : Bytes) : Option Settings :=
  (Text.ofBytes? content).bind fun text => (ofText text).toOption

def clamp (low high value : Nat) : Nat := max low (min high value)

/-- The name of a device: graphics processors have two, automatic choice one; anything else means
the central processor. -/
def deviceName (device : String) : String :=
  let name := Text.lowerAscii (Text.trim device)
  if name = "cuda" ∨ name = "gpu" then "cuda" else if name = "auto" then "auto" else "cpu"

def normalize (settings : Settings) : Settings :=
  { settings with
    workers := clamp 1 64 settings.workers
    translateTimeout := clamp 1 60000 settings.translateTimeout
    maxRequestBytes := clamp 1024 (256 * 1024 * 1024) settings.maxRequestBytes
    listenAddress := (Text.trimmed? settings.listenAddress).getD standard.listenAddress
    device := deviceName settings.device
    recognizerModel :=
      if Text.isBlankText settings.recognizerModel then standard.recognizerModel
      else settings.recognizerModel }

theorem normalize_workers_pos (settings : Settings) : 0 < settings.normalize.workers :=
  Nat.lt_of_lt_of_le Nat.zero_lt_one (Nat.le_max_left 1 _)

def anyHost : String := "0.0.0.0"

/-- Replace the port of an address, keeping what precedes its last colon if that is not empty. -/
def withPort (address : String) (port : Nat) : String :=
  let host := match Text.splitAtLast? ':' address with
    | some (host, _) => if host.isEmpty then anyHost else host
    | none => anyHost
  host ++ ":" ++ toString port

/-- A switch, by a word in any letter case and between blanks. -/
def flag? (text : String) : Option Bool :=
  let word := Text.lowerAscii (Text.trim text)
  if ["1", "true", "yes", "on"].contains word then some true
  else if ["0", "false", "no", "off"].contains word then some false
  else none

def number? (greatest : Nat) (text : String) : Option Nat := Text.natural? greatest (Text.trim text)

/-- Replace a setting if a variable is set and its value can be read. -/
def override {α : Type} (environment : Environment) (name : String) (read : String → Option α)
    (store : Settings → α → Settings) (settings : Settings) : Settings :=
  match (environment.lookup name).bind read with
  | some value => store settings value
  | none => settings

/-- Apply the variables that replace settings. Values that cannot be read are ignored. -/
def applyEnvironment (environment : Environment) (settings : Settings) : Settings :=
  settings
    |> override environment "WHATS_LISTEN_ADDR" some
      (fun settings value => { settings with listenAddress := value })
    |> override environment "GRPC_PORT" (number? (UInt16.size - 1))
      (fun settings port =>
        { settings with listenAddress := withPort settings.listenAddress port })
    |> override environment "NUM_WORKERS" (number? (UInt64.size - 1))
      (fun settings value => { settings with workers := value })
    |> override environment "TTS_MODELS_DIR" some
      (fun settings value => { settings with modelsPath := value })
    |> override environment "WHISPER_MODEL_SIZE" some
      (fun settings value => { settings with recognizerModel := value })
    |> override environment "WHATS_DEVICE" some
      (fun settings value => { settings with device := value })
    |> override environment "WHATS_TRANSLATOR" flag?
      (fun settings value => { settings with translatorEnabled := value })
    |> override environment "WHATS_TRANSLATE_TIMEOUT_MS" (number? (UInt64.size - 1))
      (fun settings value => { settings with translateTimeout := value })
    |> override environment "WHATS_MAX_REQUEST_BYTES" (number? (UInt64.size - 1))
      (fun settings value => { settings with maxRequestBytes := value })

/-- The settings of a file that may be absent. A file that cannot be read counts as absent. -/
def load (content : Option Bytes) : Settings := ((content.bind ofFile?).getD standard).normalize

def pathVariable : String := "WHATS_SETTINGS_PATH"

/-- The settings of an environment, the files being given by path. -/
def resolve (environment : Environment) (file? : String → Option Bytes) : Settings :=
  let settings := match environment.lookup pathVariable with
    | some path => load (file? path)
    | none => standard
  (settings.applyEnvironment environment).normalize

theorem resolve_workers_pos (environment : Environment) (file? : String → Option Bytes) :
    0 < (resolve environment file?).workers :=
  normalize_workers_pos _

def engineConfig (settings : Settings) : EngineConfig where
  translateTimeout := UInt64.ofNat settings.translateTimeout
  codes := settings.languageCodes
  voiceMap := settings.voiceMap

end Settings

end SpeechService.Server
