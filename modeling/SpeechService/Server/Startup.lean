import SpeechService.Disk.Tree
import SpeechService.Server.Service

/-!
Starting the server: settings, voices, warm-up, and only then the listening socket. A folder without
a usable voice, or an address that cannot be listened on, stops the start.
-/

set_option autoImplicit false

namespace SpeechService.Server

structure Host where
  canListen : Bool
  deriving DecidableEq, Repr

inductive BindFault where
  | noPort
  | invalidPort
  | unavailable
  deriving DecidableEq, Repr

def BindFault.message : BindFault → String
  | .noPort => "invalid socket address"
  | .invalidPort => "invalid port value"
  | .unavailable => "the host allows no listening socket"

def Host.bind (host : Host) (address : String) : Except BindFault Unit :=
  match Text.splitAtLast? ':' address with
  | none => .error .noPort
  | some (_, port) => match Text.natural? (UInt16.size - 1) port with
    | none => .error .invalidPort
    | some _ => if host.canListen then .ok () else .error .unavailable

inductive StartFailure where
  | noVoices (path : String) (failure : Failure)
  | warmUp (failure : Failure)
  | bind (address : String) (fault : BindFault)
  deriving DecidableEq, Repr

def StartFailure.runFailure : StartFailure → RunFailure
  | .noVoices path failure =>
    ⟨"refusing to start: no usable voices in " ++ path, some failure.message⟩
  | .warmUp failure => ⟨"model warm-up failed", some failure.message⟩
  | .bind address fault => ⟨"binding " ++ address, some fault.message⟩

/-- The engine of some settings and voices, with stand-ins for the recognizer and the translator. -/
def Settings.engine (settings : Settings) (voices : VoiceRegistry) : SpeechEngine where
  config := settings.engineConfig
  voices := voices
  recognizer := levelRecognizer
  translator := if settings.translatorEnabled then some echoTranslator else none

/-- Start the server: the service and its state before the first connection. -/
def start (host : Host) (environment : Environment) (disk : Disk) :
    Except StartFailure (Service × ServiceState) :=
  let settings := Settings.resolve environment disk.file?
  match loadVoices toneLoader settings.modelsPath (disk.folder? settings.modelsPath) with
  | .error failure => .error (.noVoices settings.modelsPath failure)
  | .ok voices =>
    let engine := settings.engine voices
    match engine.warmUp .fresh with
    | (.error failure, _) => .error (.warmUp failure)
    | (.ok _, activity) => match host.bind settings.listenAddress with
      | .error fault => .error (.bind settings.listenAddress fault)
      | .ok _ =>
        let service := Service.ofSettings engine settings
          (Settings.resolve_workers_pos environment disk.file?)
        .ok (service, .fresh service activity)

end SpeechService.Server
