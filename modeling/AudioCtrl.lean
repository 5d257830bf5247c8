import AudioCtrl.Foundations.PartialRun
import AudioCtrl.Foundations.InfiniteRun
import AudioCtrl.Foundations.Line
import AudioCtrl.Foundations.RefCount
import AudioCtrl.Foundations.Ownership
import AudioCtrl.Foundations.Outcome
import AudioCtrl.Foundations.Bookkeeping
import AudioCtrl.Foundations.GuardedValue
import AudioCtrl.Foundations.Exclusion
import AudioCtrl.Foundations.Registry
import AudioCtrl.Foundations.Activations
import AudioCtrl.Foundations.Damage
import AudioCtrl.Serial.Frame
import AudioCtrl.Serial.Host
import AudioCtrl.Serial.ReceiveLoop
import AudioCtrl.Serial.ReadSplits
import AudioCtrl.Serial.Grammar
import AudioCtrl.Serial.Resync
import AudioCtrl.Serial.ErrorAccount
import AudioCtrl.Serial.Link
import AudioCtrl.Serial.FlowControl
import AudioCtrl.Serial.Serving
import AudioCtrl.Serial.WholeReads
import AudioCtrl.Serial.StrayRequests
import AudioCtrl.Serial.Rounds
import AudioCtrl.Serial.Deadlock
import AudioCtrl.Serial.LossyLine
import AudioCtrl.Serial.TransmissionErrors
import AudioCtrl.Serial.MixedFrames
import AudioCtrl.Serial.Progress
import AudioCtrl.Serial.FairSchedules
import AudioCtrl.Serial.FairExchange
import AudioCtrl.Serial.NoisyReplies
import AudioCtrl.Audio.IUnknownW
import AudioCtrl.Audio.ReferenceCounts
import AudioCtrl.Audio.Assignment
import AudioCtrl.Audio.Interfaces
import AudioCtrl.Audio.DeviceTree
import AudioCtrl.Audio.TreeOutcomes
import AudioCtrl.Audio.MainVolume
import AudioCtrl.Audio.TreeReferences
import AudioCtrl.Audio.FailedReload
import AudioCtrl.Audio.CallSequences
import AudioCtrl.Audio.Handles
import AudioCtrl.Audio.Threads
import AudioCtrl.Audio.Uninterrupted
import AudioCtrl.Audio.Mutex
import AudioCtrl.Audio.Freshness
import AudioCtrl.Audio.Quiescence
import AudioCtrl.Audio.VolumeWalk
import AudioCtrl.Audio.VolumeCalls
import AudioCtrl.Audio.LastWalk
import AudioCtrl.Audio.Notifier
import AudioCtrl.Tray.SystemTray
import AudioCtrl.Tray.ContextMenu
import AudioCtrl.Tray.Registry
import AudioCtrl.Tray.TrayEvents
import AudioCtrl.Tray.MessageThread
import AudioCtrl.OpenHandles
import AudioCtrl.Program
import AudioCtrl.NoisyProgram
