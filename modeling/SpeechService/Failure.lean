/-! The ways in which the service fails, and their wording. -/

set_option autoImplicit false

namespace SpeechService

inductive Failure where
  | unsupportedSampleRate (expected actual : UInt32)
  | noVoicesLoaded (detail : String)
  | modelNotFound (path : String)
  | voiceConfig (path detail : String)
  | inference (detail : String)
  | synthesis (detail : String)
  | translation (detail : String)
  | protocol (detail : String)
  | inputOutput (detail : String)
  | json (detail : String)
  | other (detail : String)
  deriving DecidableEq, Repr

def Failure.message : Failure → String
  | .unsupportedSampleRate expected actual =>
    "unsupported sample rate: expected " ++ toString expected.toNat ++ " Hz, got " ++
      toString actual.toNat ++ " Hz"
  | .noVoicesLoaded detail => "no voices loaded (" ++ detail ++ ")"
  | .modelNotFound path => "model file not found: " ++ path
  | .voiceConfig path detail => "invalid voice config " ++ path ++ ": " ++ detail
  | .inference detail => "inference error: " ++ detail
  | .synthesis detail => "synthesis error: " ++ detail
  | .translation detail => "translation error: " ++ detail
  | .protocol detail => "protocol error: " ++ detail
  | .inputOutput detail => "IO error: " ++ detail
  | .json detail => "JSON error: " ++ detail
  | .other detail => detail

end SpeechService
