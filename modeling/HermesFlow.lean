import HermesFlow.EventRun
import HermesFlow.ActiveSessions
import HermesFlow.Custody
import HermesFlow.Session
import HermesFlow.SessionPause
import HermesFlow.SessionRegistry
import HermesFlow.SessionStop
import HermesFlow.PortRange
import HermesFlow.WebrtcPorts
import HermesFlow.SingleRunner
import HermesFlow.CounterMode
import HermesFlow.ByteOrder
import HermesFlow.Rollover
import HermesFlow.RTPPacketizer
import HermesFlow.RTPStreamer
import HermesFlow.IvAgreement
import HermesFlow.BufferOwnership
import HermesFlow.Node
import HermesFlow.FilePlayback
import HermesFlow.FrameDispatch
import HermesFlow.PacketRoundTrip
import HermesFlow.PacketRing
import HermesFlow.WebsocketRegistry
import HermesFlow.AssetComplete
import HermesFlow.GraphFaithful
import HermesFlow.PlaybackEnd
import HermesFlow.ClosedSource
import HermesFlow.CleanEpoch
import HermesFlow.WebSocketClose
import HermesFlow.WebSocketHandshake
import HermesFlow.CreateSession
import HermesFlow.SessionConfinement
import HermesFlow.EncryptionFailure
import HermesFlow.SessionStats
import HermesFlow.SessionNotification
import HermesFlow.HttpSession
import HermesFlow.HttpFraming
import HermesFlow.PacketNumbering
import HermesFlow.PacketAssembly
import HermesFlow.CheckedBuffer
import HermesFlow.InPlacePacket
import HermesFlow.BoundedReads
import HermesFlow.FunctionalGraph
import HermesFlow.LoopFlags
import HermesFlow.AudioChain
import HermesFlow.MixerSum
import HermesFlow.MixerEnd
import HermesFlow.MixerOverflow
import HermesFlow.Limiter
import HermesFlow.SoftClip
import HermesFlow.AlawRoundTrip
import HermesFlow.WavHeader
import HermesFlow.HttpStreamer
import HermesFlow.AwaitAll
import HermesFlow.ClientsList
import HermesFlow.FlowAcceptance
import HermesFlow.FlowText
import HermesFlow.OptionRange
import HermesFlow.PitchBounds
import HermesFlow.PitchOption
import HermesFlow.Config
import HermesFlow.Hex
import HermesFlow.HexToBytes
import HermesFlow.DownloadPath
import HermesFlow.FrameStream
import HermesFlow.StreamCounters
import HermesFlow.SecureStream
import HermesFlow.Timeline
import HermesFlow.SessionTimeline
import HermesFlow.LoopTimeline
import HermesFlow.EndToEnd
import HermesFlow.SessionPacing
import HermesFlow.AlawFidelity
import HermesFlow.LiveSession
import HermesFlow.LiveTimeline
import HermesFlow.LiveLoop
import HermesFlow.LiveObserver
import HermesFlow.WebSocketSessionObserver
import HermesFlow.ApplyEffects
import HermesFlow.FlowTimeline
import HermesFlow.AssetDownload
