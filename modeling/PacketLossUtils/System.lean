import Mathlib.Logic.Relation
import PacketLossUtils.ClientRun
import PacketLossUtils.ServerRun

/-! One client, the server, and a network that loses, delays, reorders and duplicates their
datagrams but neither forges nor alters them. -/
namespace PacketLossUtils

open Effect Relation

/-- The client sends from `clientAddress` and `clientPort`. What was logged stays in the
network; the accepted pings are kept beside the states and steer nothing. -/
structure System (Address : Type) where
  clientAddress : Address
  clientPort : UInt16
  client : Client Address
  server : Server Address
  clientLog : List (Effect Address)
  serverLog : List (Effect Address)
  acceptedByClient : List PingMessage
  acceptedByServer : List PingMessage

namespace System

variable {Address : Type}

def start (clientAddress : Address) (clientPort : UInt16) (client : Client Address) :
    System Address where
  clientAddress := clientAddress
  clientPort := clientPort
  client := client
  server := .new
  clientLog := []
  serverLog := []
  acceptedByClient := []
  acceptedByServer := []

def uniqueId (s : System Address) : UInt64 := s.client.uniqueId

/-- The server's record of the client. -/
def record (s : System Address) : Option (ClientInfo Address) := s.server.clientInfos[s.uniqueId]?

def serverStep (e : Server.Event Address) (s : System Address) : System Address :=
  { s with
    server := (s.server.step e).1
    serverLog := s.serverLog ++ (s.server.step e).2
    acceptedByServer := s.acceptedByServer ++ s.server.accepted s.uniqueId e }

/-- The record as one side of the exchange; before the registration there is none. -/
def serverParty (s : System Address) : Party := (s.record.map ClientInfo.party).getD .fresh

/-- What holds in every state of the system. -/
structure Sound (s : System Address) : Prop where
  clientRun : Party.Run (fun _ payload => payload.Encodable) s.uniqueId .fresh s.clientLog
    s.acceptedByClient s.client.party
  serverRun : Party.Run Eq s.uniqueId .fresh (about s.uniqueId s.serverLog) s.acceptedByServer
    s.serverParty
  otherStats : s.client.otherStats.Encodable
  clientWrites : ∀ m address port, .writeDatagram m address port ∈ s.clientLog →
    m.Built ∧ m.getUniqueId = s.uniqueId
  endpoint : ∀ id c, s.server.clientInfos[id]? = some c →
    c.address = s.clientAddress → c.port = s.clientPort → id = s.uniqueId
  serverPings : ∀ m, .writeDatagram (.ping m) s.clientAddress s.clientPort ∈ s.serverLog →
    m.uniqueId = s.uniqueId

variable {s : System Address}

theorem sound_start (clientAddress : Address) (clientPort : UInt16) (serverAddress : Address)
    (serverPort : UInt16) (interval : UInt32) (uniqueId : UInt64) :
    Sound (start clientAddress clientPort
      (.new serverAddress serverPort interval uniqueId)) where
  clientRun := .refl
  serverRun := .refl
  otherStats := PingStats.represents_initialized.encodable
  clientWrites := by simp [start]
  endpoint := by simp [start, Server.new]
  serverPings := by simp [start]

/-- The statistics in a ping of the server are those of the record when it was built. -/
theorem Sound.snapshot (hs : Sound s) {m : PingMessage} (hid : m.uniqueId = s.uniqueId)
    {before later : List (Effect Address)} {address : Address} {port : UInt16}
    (hlog : s.serverLog = before ++ .writeDatagram (.ping m) address port :: later) :
    m.pingStats = PingStats.replay (calls s.uniqueId before) := by
  have habout : about s.uniqueId s.serverLog = about s.uniqueId before ++
      .writeDatagram (.ping m) address port :: about s.uniqueId later := by
    rw [hlog, about_append]
    simp [about, peer, Message.getUniqueId, hid]
  have hcarries := hs.serverRun.carries habout rfl
  rw [calls_about] at hcarries
  exact hcarries.symm

theorem Sound.encodable (hs : Sound s) {m : PingMessage} (hid : m.uniqueId = s.uniqueId)
    {address : Address} {port : UInt16}
    (hm : .writeDatagram (.ping m) address port ∈ s.serverLog) : m.pingStats.Encodable := by
  obtain ⟨before, later, hlog⟩ := List.append_of_mem hm
  rw [hs.snapshot hid hlog]
  exact (PingStats.represents_replay _).encodable

variable [HostAddress Address]

def clientStep (e : Client.Event Address) (s : System Address) : System Address :=
  { s with
    client := (s.client.step e).1
    clientLog := s.clientLog ++ (s.client.step e).2
    acceptedByClient := s.acceptedByClient ++ s.client.accepted e }

/-- Timers and signals come at any time, and so does any datagram ever sent to an endpoint. The
receiver handles what `parseIncomingMessage` makes of its bytes. Other parties send from other
endpoints, and to the server under other ids. -/
inductive Step (qt : QtText) (s : System Address) : System Address → Prop
  | client (e : Client.Event Address) (he : ∀ now address port m, e ≠ .message now address port m) :
      Step qt s (s.clientStep e)
  | server (e : Server.Event Address)
      (he : ∀ now now' address port m, e ≠ .message now now' address port m) :
      Step qt s (s.serverStep e)
  | toServer {sent received : Message} (now now' : ℤ)
      (hsent : .writeDatagram sent s.client.serverHostAddress s.client.serverPort ∈ s.clientLog)
      (hparse : NetworkCore.parseIncomingMessage qt sent.getData = .ok (some received)) :
      Step qt s (s.serverStep (.message now now' s.clientAddress s.clientPort received))
  | toClient {sent received : Message} (now : ℤ) (address : Address) (port : UInt16)
      (hsent : .writeDatagram sent s.clientAddress s.clientPort ∈ s.serverLog)
      (hparse : NetworkCore.parseIncomingMessage qt sent.getData = .ok (some received)) :
      Step qt s (s.clientStep (.message now address port received))
  | otherToServer (now now' : ℤ) {address : Address} {port : UInt16} {m : Message}
      (hendpoint : ¬ (address = s.clientAddress ∧ port = s.clientPort))
      (hid : m.getUniqueId ≠ s.uniqueId) :
      Step qt s (s.serverStep (.message now now' address port m))
  | otherToClient (now : ℤ) {address : Address} {port : UInt16} (m : Message)
      (hendpoint : HostAddress.isEqual address s.client.serverHostAddress = false ∨
        port ≠ s.client.serverPort) :
      Step qt s (s.clientStep (.message now address port m))

/-- A step within one registration: the record, once it is there, is not removed. -/
def Next (qt : QtText) (s s' : System Address) : Prop :=
  Step qt s s' ∧ (s.record.isSome → s'.record.isSome)

/-- Nothing that was logged or accepted is forgotten. -/
structure Extends (s s' : System Address) : Prop where
  uniqueId : s'.uniqueId = s.uniqueId
  clientAddress : s'.clientAddress = s.clientAddress
  clientPort : s'.clientPort = s.clientPort
  clientLog : s.clientLog <+: s'.clientLog
  serverLog : s.serverLog <+: s'.serverLog
  acceptedByClient : s.acceptedByClient <+: s'.acceptedByClient
  acceptedByServer : s.acceptedByServer <+: s'.acceptedByServer

def Reachable (qt : QtText) (s : System Address) : Prop :=
  ∃ clientAddress clientPort serverAddress serverPort interval uniqueId,
    ReflTransGen (Next qt)
      (start clientAddress clientPort (.new serverAddress serverPort interval uniqueId)) s

end System

end PacketLossUtils
