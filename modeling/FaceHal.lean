import FaceHal.StoreRefinement
import FaceHal.KillAtomicity
import FaceHal.IoFailure
import FaceHal.Authenticity
import FaceHal.AutoClean
import FaceHal.OneEnd
import FaceHal.ChallengeBinding
import FaceHal.SessionIsolation
import FaceHal.UserSeparation
import FaceHal.TemplateFormat
import FaceHal.EncryptionRoundTrip
import FaceHal.ActiveOperation
import FaceHal.ReenrollmentPrompt
import FaceHal.RemovalReport
import FaceHal.EnrollmentRace
import FaceHal.CameraProgress
import FaceHal.ReaderLifetime
import FaceHal.StaleNotification
import FaceHal.ContextPolicy
import FaceHal.FailedStart
import FaceHal.ReasonInference
import FaceHal.CallbackQueue
import FaceHal.VisionServiceImpl
import FaceHal.DeletionScope
import FaceHal.EmbeddingRoundTrip
import FaceHal.PlaintextFallback
import FaceHal.KeyGeneration
import FaceHal.EnrollmentFrames
import FaceHal.ChecksumDetection
import FaceHal.EncryptionReplies
import FaceHal.StreamConfigurations
import FaceHal.FrameScaling
import FaceHal.FrameClaims
import FaceHal.SessionAgreement
import FaceHal.OpenedCamera
import FaceHal.StoreOverKeystore
import FaceHal.RemovalRace
import FaceHal.EngineRace
import FaceHal.ScreenContents
import FaceHal.KeyringRace
import FaceHal.CompletionReports
import FaceHal.SessionCameras
