import SpeechService.Main
import SpeechService.Proofs.Audio.Resample
import SpeechService.Proofs.Command.Synth
import SpeechService.Proofs.Engine.OnDemand
import SpeechService.Proofs.Server.Isolation
import SpeechService.Proofs.Server.Settings
import SpeechService.Proofs.Voice.Tone
import SpeechService.Proofs.Wire.Meaning
import SpeechService.Server.Startup
