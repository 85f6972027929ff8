import LmsPlayer.Library.BigEndian
import LmsPlayer.Library.ByteLayout
import LmsPlayer.Library.ByteCursor
import LmsPlayer.Library.Utf8
import LmsPlayer.Library.StreamSplitting
import LmsPlayer.Library.ReadUntil
import LmsPlayer.Library.TransitionSystem
import LmsPlayer.Library.Fifo
import LmsPlayer.Library.Channel
import LmsPlayer.Library.ThreadPool
import LmsPlayer.Library.Stages
import LmsPlayer.Library.TwoSlots
import LmsPlayer.Library.Iteration
import LmsPlayer.Library.InTurn
import LmsPlayer.Library.GrowVec
import LmsPlayer.LmsProto.Basic
import LmsPlayer.LmsProto.Status
import LmsPlayer.LmsProto.Messages.Client
import LmsPlayer.LmsProto.Messages.ClientWire
import LmsPlayer.LmsProto.Messages.Jiffies
import LmsPlayer.LmsProto.Messages.Server
import LmsPlayer.LmsProto.Messages.ServerWire
import LmsPlayer.LmsProto.Frames.Recv
import LmsPlayer.LmsProto.Frames.Reassembly
import LmsPlayer.LmsProto.Frames.Faults
import LmsPlayer.LmsProto.Frames.Send
import LmsPlayer.LmsProto.Connect
import LmsPlayer.LmsProto.Buffer.SlimBuffer
import LmsPlayer.LmsProto.Buffer.Conservation
import LmsPlayer.LmsProto.Buffer.Wakeups
import LmsPlayer.LmsProto.Buffer.Threshold
import LmsPlayer.LmsProto.Buffer.Counters
import LmsPlayer.LmsProto.Buffer.EndOfStream
import LmsPlayer.LmsProto.Buffer.Bounds
import LmsPlayer.LmsProto.Buffer.FillBuf
import LmsPlayer.LmsProto.Discovery.Tlv
import LmsPlayer.LmsProto.Discovery.Discover
import LmsPlayer.LmsProto.Addresses
import LmsPlayer.LmsProto.Capabilities
import LmsPlayer.LmsProto.Hello
import LmsPlayer.Vibe.Message
import LmsPlayer.Vibe.Pass
import LmsPlayer.Vibe.Process
import LmsPlayer.Vibe.Handling
import LmsPlayer.Vibe.Wiring
import LmsPlayer.Vibe.PulseOutput
import LmsPlayer.Vibe.PipewireOutput
import LmsPlayer.Vibe.PlayQueue
import LmsPlayer.Vibe.Redirect
import LmsPlayer.Vibe.Fallback
import LmsPlayer.Vibe.StaleDecoder
import LmsPlayer.Vibe.Clocks
import LmsPlayer.Vibe.TimedUnpause
import LmsPlayer.Vibe.HalfBroken
import LmsPlayer.Vibe.TrackStarted
import LmsPlayer.Vibe.StaleTimer
import LmsPlayer.Vibe.Reports
import LmsPlayer.Vibe.Fullness
import LmsPlayer.Vibe.Resolve
import LmsPlayer.Vibe.ServerAddr
import LmsPlayer.Vibe.MakeDecoder
import LmsPlayer.Vibe.HeaderLines
import LmsPlayer.Vibe.SkipHeaders
import LmsPlayer.Vibe.PlayerName
import LmsPlayer.Vibe.Decode
import LmsPlayer.Vibe.FillBuffers
import LmsPlayer.Vibe.Volume
import LmsPlayer.Vibe.Refill
import LmsPlayer.Vibe.Skip
import LmsPlayer.Vibe.SkipRounding
import LmsPlayer.Vibe.Callback
import LmsPlayer.Vibe.PulseStream
import LmsPlayer.Vibe.PipewireStream
import LmsPlayer.Vibe.PlayTime
import LmsPlayer.Vibe.RodioStream
import LmsPlayer.Vibe.RodioOutput
import LmsPlayer.Vibe.Backends
import LmsPlayer.Vibe.AudioLoop
import LmsPlayer.Vibe.PulseEnqueue
import LmsPlayer.Vibe.FullChannel
import LmsPlayer.Vibe.Delivery
import LmsPlayer.Vibe.Answers
import LmsPlayer.Vibe.Handshake
import LmsPlayer.Vibe.Greeting
import LmsPlayer.Vibe.Echo
import LmsPlayer.Vibe.Conversation
import LmsPlayer.Vibe.Arrival
