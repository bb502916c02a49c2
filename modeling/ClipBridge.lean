import ClipBridge.Relay.Presence
import ClipBridge.Relay.History
import ClipBridge.Relay.Rendezvous
import ClipBridge.System.AtMostOnce
import ClipBridge.System.Rollback
import ClipBridge.System.DeliveryOrder
import ClipBridge.Core.Unreadable
import ClipBridge.Core.FileTransfer
import ClipBridge.Core.WindowsName
import ClipBridge.Lib.SharedDirectory
import ClipBridge.Core.ConcurrentWriters
import ClipBridge.Lan.Message
import ClipBridge.Lan.Frame
import ClipBridge.Lan.Completion
import ClipBridge.Lan.ChunkFrames
import ClipBridge.Lan.RunPeer
import ClipBridge.Lan.Oversize
import ClipBridge.Lan.HandshakeTime
import ClipBridge.Lan.Agreement
import ClipBridge.Client.CommandOrder
import ClipBridge.Client.Conservation
import ClipBridge.Client.Stop
import ClipBridge.Client.Suspend
import ClipBridge.Lan.OneSource
import ClipBridge.Lan.Suspended
import ClipBridge.Lan.WaitUntilFlag
import ClipBridge.Lan.Outbound
import ClipBridge.Relay.BlobStoreThreads
import ClipBridge.Relay.Eviction
import ClipBridge.Relay.Visibility
import ClipBridge.Client.Image
import ClipBridge.Lan.BlobStream
import ClipBridge.Lan.BlobCache
import ClipBridge.Lan.TransportStart
import ClipBridge.Lan.PeerRecords
import ClipBridge.Client.Probe
import ClipBridge.Client.RelayUrl
import ClipBridge.Client.OldRelay
import ClipBridge.Client.CandidateSets
import ClipBridge.Android.Standby
import ClipBridge.Android.RemoteImage
import ClipBridge.Android.TextChunks
import ClipBridge.Android.FileNames
import ClipBridge.Android.TransferHistory
import ClipBridge.Apple.RecentHashes
import ClipBridge.Windows.Clipboard
import ClipBridge.Windows.Echo
import ClipBridge.Windows.RememberHash
import ClipBridge.Windows.ImageSend
import ClipBridge.Windows.ImageHistory
import ClipBridge.Windows.Retry
import ClipBridge.Windows.Fingerprint
import ClipBridge.Windows.Poller
import ClipBridge.Core.WireJson
import ClipBridge.Lan.MessageJson
import ClipBridge.System.Fleet
import ClipBridge.System.Integrity
import ClipBridge.System.Images
import ClipBridge.Relay.BlobService
import ClipBridge.Lan.Tiebreak
import ClipBridge.Apple.Pasteboard
import ClipBridge.Client.Attempt
import ClipBridge.Client.Pacing
import ClipBridge.Client.Silence
