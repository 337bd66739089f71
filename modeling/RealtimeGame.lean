import RealtimeGame.Gateway.LoginLaws
import RealtimeGame.Room.ResultAgreement
import RealtimeGame.Room.Outcome
import RealtimeGame.Room.Reconnect
import RealtimeGame.Room.Inputs
import RealtimeGame.Room.Newest
import RealtimeGame.Room.Drain
import RealtimeGame.Match.Waiting
import RealtimeGame.Match.SameRoom
import RealtimeGame.Match.Reentry
import RealtimeGame.Match.SaveRestore
import RealtimeGame.Gateway.DeadPeer
import RealtimeGame.Gateway.Backfill
import RealtimeGame.Gateway.Presence
import RealtimeGame.Gateway.FirstPush
import RealtimeGame.Gateway.Converge
import RealtimeGame.Match.Fifo
import RealtimeGame.Match.FailedRound
import RealtimeGame.Match.Limits
import RealtimeGame.Match.RedisMatchQueueStore
import RealtimeGame.Gateway.GapFree
import RealtimeGame.Gateway.StreamDrain
import RealtimeGame.Gateway.Accounting
import RealtimeGame.Room.FrameClock
import RealtimeGame.Room.Validator
import RealtimeGame.Room.BoundedLoss
import RealtimeGame.Room.Disposal
import RealtimeGame.Room.TwoPlayers
import RealtimeGame.Library.Framing
import RealtimeGame.Library.Numeral
import RealtimeGame.Library.Utf8
import RealtimeGame.Gateway.SseRoundTrip
import RealtimeGame.Room.Batching
import RealtimeGame.Room.Symmetry
import RealtimeGame.Match.SnapshotCodec
import RealtimeGame.Match.UpToDate
import RealtimeGame.Room.TotalFrames
import RealtimeGame.Gateway.BrpcRoomClient
import RealtimeGame.Gateway.Signature
import RealtimeGame.Web.Chunking
import RealtimeGame.Web.GameSession
import RealtimeGame.Web.ReconnectLaws
import RealtimeGame.Common.LogLine
import RealtimeGame.Common.Exposition
import RealtimeGame.Gateway.Seats
import RealtimeGame.Gateway.Lifecycle
import RealtimeGame.Match.Joinable
import RealtimeGame.Match.BrpcRoomAllocator
import RealtimeGame.Gateway.Deployment
