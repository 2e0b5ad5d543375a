import IsalesEngine.Guarantees.Splitting
import IsalesEngine.Guarantees.Finalization
import IsalesEngine.Guarantees.StorageFailures
import IsalesEngine.Guarantees.Cause
import IsalesEngine.Guarantees.Release
import IsalesEngine.Guarantees.Cancellation
import IsalesEngine.Guarantees.Hearing
import IsalesEngine.Guarantees.Interruption
import IsalesEngine.Guarantees.Reaping
import IsalesEngine.Guarantees.LosslessLane
import IsalesEngine.Guarantees.LossyLane
import IsalesEngine.Guarantees.InterruptionCount
import IsalesEngine.Guarantees.Conversation
import IsalesEngine.Guarantees.Coalescing
import IsalesEngine.Guarantees.Restructures
import IsalesEngine.Guarantees.SpeechAnchor
import IsalesEngine.Guarantees.ReadableSpeech
import IsalesEngine.Guarantees.FillerRounds
import IsalesEngine.Transport.ServerStream
import IsalesEngine.Transport.DingRtcSession
import IsalesEngine.Realtime.Dialing
import IsalesEngine.Guarantees.EdgeIsolation
import IsalesEngine.Guarantees.Playback
import IsalesEngine.Guarantees.FadeOut
import IsalesEngine.Guarantees.AmbientLoop
import IsalesEngine.Guarantees.PlayoutFrames
import IsalesEngine.Guarantees.NoiseGating
import IsalesEngine.Guarantees.PipelinedPlayback
import IsalesEngine.Guarantees.Replay
import IsalesEngine.Providers.TokenUsage
import IsalesEngine.Providers.Asr
import IsalesEngine.Providers.AsrReceive
import IsalesEngine.Guarantees.CachedSpeech
import IsalesEngine.Transport.RtcToken
import IsalesEngine.Transport.FrameRingBuffer
