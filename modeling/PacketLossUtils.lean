import PacketLossUtils.Batch
import PacketLossUtils.Bursts
import PacketLossUtils.ClientClock
import PacketLossUtils.ClientSilence
import PacketLossUtils.DatagramLoop
import PacketLossUtils.DeadClients
import PacketLossUtils.Deployment
import PacketLossUtils.ExpectedCounter
import PacketLossUtils.Handshake
import PacketLossUtils.Isolation
import PacketLossUtils.Lifecycle
import PacketLossUtils.MessageCanonical
import PacketLossUtils.Pacing
import PacketLossUtils.Peer
import PacketLossUtils.PunctualServer
import PacketLossUtils.ReceivedStats
import PacketLossUtils.Rejection
import PacketLossUtils.ServerClock
import PacketLossUtils.ServerProcess
import PacketLossUtils.ServerSilence
import PacketLossUtils.ServerTimers
import PacketLossUtils.Snapshot
import PacketLossUtils.StatsReport
import PacketLossUtils.StatsText
import PacketLossUtils.SweepVisits
import PacketLossUtils.UnheardClients
import PacketLossUtils.Uplink
