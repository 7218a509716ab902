import Tgvoip.Lib.Runs
import Tgvoip.Lib.Fallible
import Tgvoip.Lib.BitMask
import Tgvoip.Lib.Ring
import Tgvoip.Lib.ByteReader
import Tgvoip.Lib.ObjectParser
import Tgvoip.Lib.XorBytes
import Tgvoip.Lib.ByteStream
import Tgvoip.Lib.SlotTable
import Tgvoip.Lib.LastSeen
import Tgvoip.Lib.ListEntry
import Tgvoip.Lib.Derived
import Tgvoip.Lib.Odometer
import Tgvoip.Lib.RecentPeak
import Tgvoip.Lib.Extremum
import Tgvoip.Protocol.VersionInfo
import Tgvoip.Protocol.Interface
import Tgvoip.Protocol.Extra
import Tgvoip.Protocol.ExtraRoundTrip
import Tgvoip.Packets.Packet
import Tgvoip.Packets.Legacy
import Tgvoip.Packets.PacketRoundTrip
import Tgvoip.Packets.PacketSize
import Tgvoip.Packets.LegacyRoundTrip
import Tgvoip.Packets.OldestHeader
import Tgvoip.Packets.LegacyLists
import Tgvoip.Packets.Cascade
import Tgvoip.Packets.PacketManager
import Tgvoip.Packets.AckWindow
import Tgvoip.Packets.AckAgreement
import Tgvoip.Packets.SeqTranslation
import Tgvoip.Net.JitterArray
import Tgvoip.Net.JitterAdvance
import Tgvoip.Tools.HistoricBuffer
import Tgvoip.Net.CongestionControl
import Tgvoip.Net.TCPObfuscated
import Tgvoip.Net.Endpoint
import Tgvoip.Net.NetworkAddress
import Tgvoip.Net.NetworkSocketPosix
import Tgvoip.Net.NetworkSocketSOCKS5Proxy
import Tgvoip.Net.SOCKS5Handshake
import Tgvoip.Controller.Crypto
import Tgvoip.Controller.State
import Tgvoip.Controller.Send
import Tgvoip.Controller.Receive
import Tgvoip.Controller.Relays
import Tgvoip.Controller.MessageThread
import Tgvoip.Controller.SendRule
import Tgvoip.Controller.SendFrame
import Tgvoip.Controller.ExtraFrame
import Tgvoip.Controller.PacketFrame
import Tgvoip.Controller.HandlerRule
import Tgvoip.Controller.StreamTable
import Tgvoip.Controller.AckProgress
import Tgvoip.Controller.Bookkeeping
import Tgvoip.Controller.Retries
import Tgvoip.Controller.ExtraDedup
import Tgvoip.Controller.Handshake
import Tgvoip.Controller.Bearings
import Tgvoip.Controller.ThreadMoves
import Tgvoip.Controller.Lifecycle
import Tgvoip.Controller.EndpointTable
import Tgvoip.Controller.Established
import Tgvoip.Controller.LastSent
import Tgvoip.Controller.LegacySeqs
import Tgvoip.Controller.HeaderSeqs
import Tgvoip.Controller.Accounts
import Tgvoip.Controller.AcksTold
import Tgvoip.Controller.LossAccounts
import Tgvoip.Controller.LossRatio
import Tgvoip.Controller.Routing
import Tgvoip.Controller.ThreadRoutes
import Tgvoip.Controller.GoneEndpoints
import Tgvoip.Controller.PingMeasure
import Tgvoip.Controller.PendingFlags
import Tgvoip.Controller.ShownStreams
import Tgvoip.Controller.StreamStates
import Tgvoip.Controller.PendingUpdates
import Tgvoip.Audio.AudioPacketSender
import Tgvoip.Controller.IncomingLookup
import Tgvoip.Controller.DecryptedLength
import Tgvoip.Video.ParityFEC
import Tgvoip.Video.PacketReassembler
import Tgvoip.Video.FrameRecovery
import Tgvoip.Controller.AskingExtras
import Tgvoip.Controller.ReplyStorm
import Tgvoip.Video.ReassemblerCalls
import Tgvoip.Video.FrameNumbers
import Tgvoip.Video.ScreamCongestionController
import Tgvoip.Video.BytesInFlight
import Tgvoip.Tools.BufferInputStream
import Tgvoip.Tools.BufferOutputStream
import Tgvoip.Tools.BufferPool
import Tgvoip.Tools.Cancellation
import Tgvoip.Tools.Deliveries
import Tgvoip.Tools.Wakeups
import Tgvoip.Controller.TcpFallback
import Tgvoip.Packets.Residue
import Tgvoip.Tools.BlockingQueue
import Tgvoip.Tools.HistoricArray
import Tgvoip.Controller.Reflector
import Tgvoip.Audio.OpusDecoder
import Tgvoip.Net.InTimePackets
import Tgvoip.Net.JitterCount
import Tgvoip.Net.JitterDelay
import Tgvoip.Net.DelayFollows
import Tgvoip.Net.PlaysForward
import Tgvoip.Net.LossCount
import Tgvoip.Controller.RelayVariants
import Tgvoip.Controller.CleanIds
import Tgvoip.Controller.PacketSource
import Tgvoip.Controller.AudioBitrate
import Tgvoip.Audio.OpusEncoder
import Tgvoip.Audio.TimeStretch
import Tgvoip.Audio.Resampler
import Tgvoip.Lib.LogField
import Tgvoip.Lib.Elimination
import Tgvoip.Video.GF256
import Tgvoip.Video.GF256Mem
import Tgvoip.Video.CM256
import Tgvoip.Video.CM256Matrix
import Tgvoip.Video.CM256Sweeps
import Tgvoip.Video.CM256Rows
import Tgvoip.Video.CM256Decode
import Tgvoip.Controller.Datagrams
import Tgvoip.Controller.Sealing
import Tgvoip.Controller.Sounding
import Tgvoip.Controller.ByteCall
import Tgvoip.Lib.TextParser
import Tgvoip.Tools.Json11
import Tgvoip.Tools.Json11RoundTrip
import Tgvoip.Tools.Json11Accepted
import Tgvoip.Controller.PersistentState
import Tgvoip.Controller.PathChoice
