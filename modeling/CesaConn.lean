import CesaConn.Program.Duplex
import CesaConn.Daemon.PeerList
import CesaConn.Daemon.Windows
import CesaConn.Daemon.SaltOffer
import CesaConn.Daemon.Prompts
import CesaConn.Daemon.Answers
import CesaConn.Daemon.Bridge
import CesaConn.Daemon.Restart
import CesaConn.Daemon.Networking
import CesaConn.Clipboard.ClipWatch
import CesaConn.Clipboard.UpdateOrder
import CesaConn.Storage.Integrity
import CesaConn.Daemon.Damage
import CesaConn.Daemon.AutoLogin
import CesaConn.Daemon.ResetFinal
import CesaConn.Auth.Transcript
import CesaConn.Auth.Trust
import CesaConn.Auth.Agreement
import CesaConn.Network.SharedLimit
import CesaConn.Network.KeyChange
import CesaConn.Ipc.Response
import CesaConn.Network.DataPacket
import CesaConn.Auth.Pinning
import CesaConn.Peers.Addresses
import CesaConn.Daemon.FailedChange
import CesaConn.Storage.AtomicFile
import CesaConn.Daemon.UnlockSchedule
import CesaConn.Network.Outgoing
import CesaConn.Daemon.Search
import CesaConn.Daemon.SyncPrompts
import CesaConn.Tui.Passwords
import CesaConn.Tui.Questions
import CesaConn.Auth.PairingCode
import CesaConn.Clipboard.WatchHistory
import CesaConn.Clipboard.Switch
import CesaConn.Network.SaltAnswers
import CesaConn.Peers.ListCodec
import CesaConn.Daemon.Settings
import CesaConn.Daemon.Limits
import CesaConn.Auth.Capacity
import CesaConn.Ipc.Exchange
import CesaConn.Ipc.Start
import CesaConn.Daemon.Handle
import CesaConn.Daemon.Join
import CesaConn.Tui.Refreshes
import CesaConn.Tui.Requests
import CesaConn.Network.SaltService
import CesaConn.Network.GroupSalt
import CesaConn.Clipboard.Follow
