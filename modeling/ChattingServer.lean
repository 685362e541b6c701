import ChattingServer.Framing
import ChattingServer.ChatContent
import ChattingServer.StaleIds
import ChattingServer.PacketConservation
import ChattingServer.SendOrder
import ChattingServer.SlotConservation
import ChattingServer.RingRefinement
import ChattingServer.FreeListReservation
import ChattingServer.Audience
import ChattingServer.AccountTable
import ChattingServer.PlayerLifetime
import ChattingServer.PublishedIdentity
import ChattingServer.AccountSoundness
import ChattingServer.MovingAudience
import ChattingServer.ZeroCopyReceive
import ChattingServer.PacketQueue
import ChattingServer.SingleBitDamage
import ChattingServer.SessionIds
import ChattingServer.Rejection
import ChattingServer.LoginJobs
import ChattingServer.LoginVerdict
import ChattingServer.LoginNames
import ChattingServer.SendFailure
import ChattingServer.RecvFailure
import ChattingServer.DeadlockFreedom
import ChattingServer.RingResize
import ChattingServer.Profiler
import ChattingServer.BigNumberStr
import ChattingServer.SlotStack
import ChattingServer.RecvRoom
import ChattingServer.PlacementNew
import ChattingServer.ReceiveTurn
import ChattingServer.Delivery
import ChattingServer.Attendance
import ChattingServer.PacketContents
import ChattingServer.FreeListStack
import ChattingServer.SectorIndex
import ChattingServer.Exchange
import ChattingServer.RoomHistories
import ChattingServer.BoundedWork
import ChattingServer.Settling
import ChattingServer.FreeListTeardown
