import Mathlib.Data.List.Nodup
import PacketLossUtils.Accounting
import PacketLossUtils.SystemLinks

/-! What is counted as received was sent, and is counted once. -/
namespace PacketLossUtils

open Effect PingStats Relation

variable {Address : Type}

namespace Party

variable {Carries : PingStats → PingStats → Prop} {uniqueId : UInt64} {p : Party}
  {log : List (Effect Address)} {accepted : List PingMessage}

theorem Run.packetsReceived (h : Run Carries uniqueId fresh log accepted p)
    (hlt : (results (calls uniqueId log)).length < 2 ^ 64) :
    p.reception.pingStats.packetsReceived.toNat = accepted.length := by
  rw [(h.accounted hlt).received, List.length_map]

theorem Run.packetsSent (h : Run Carries uniqueId fresh log accepted p)
    (hlt : (built uniqueId log).length < 2 ^ 64) :
    p.reception.pingStats.packetsSent.toNat = (written uniqueId log).length := by
  have hle := (written_sublist_built uniqueId log).length_le
  rw [h.reception, show (fresh.reception.after (calls uniqueId log)).pingStats =
    replay (calls uniqueId log) from rfl, packetsSent_replay, h.count_sent]
  exact UInt64.toNat_ofNat_of_lt' (hle.trans_lt hlt)

end Party

namespace System

/-- Of the pings `sent`, which are all different, the `n` accepted ones are counted, in the order
sent and each of them once; none of them was skipped. -/
structure CountedOnce (n : UInt64) (accepted sent skipped : List PingMessage) : Prop where
  count : n.toNat = accepted.length
  sublist : accepted.Sublist sent
  distinct : (sent.map PingMessage.counter).Nodup
  notSkipped : ∀ m ∈ accepted, ∀ m' ∈ skipped, m.counter ≠ m'.counter

theorem CountedOnce.of_sound {l : NumberedLink PingMessage} {n : UInt64}
    {skipped : List PingMessage} (hl : l.Sound PingMessage.number)
    (hskipped : l.skipped = skipped.map PingMessage.number) (hn : n.toNat = l.accepted.length) :
    CountedOnce n l.accepted l.sent skipped where
  count := hn
  sublist := hl.sublist
  distinct := by
    apply List.Nodup.of_map UInt64.toNat
    rw [List.map_map]
    exact hl.nodup
  notSkipped := by
    intro m hm m' hm' heq
    apply hl.accepted_not_skipped hm
    rw [hskipped, PingMessage.number, heq]
    exact List.mem_map_of_mem hm'

variable [HostAddress Address] {s : System Address} {qt : QtText} {c : ClientInfo Address}

/-- The counters of both sides are the numbers of pings built and of results recorded there. -/
theorem counters (hreach : Reachable qt s) (hwrap : s.NoWrap) (hc : s.record = some c) :
    s.client.messageCounter.toNat = (built s.uniqueId s.clientLog).length ∧
      c.messageCounter.toNat = (built s.uniqueId s.serverLog).length ∧
      s.client.messageCounterOtherNextExpected.toNat =
        (results (calls s.uniqueId s.clientLog)).length ∧
      c.messageCounterOtherNextExpected.toNat =
        (results (calls s.uniqueId s.serverLog)).length := by
  have hs : Sound s := .of_reachable hreach
  obtain ⟨h₁, h₂, h₃, h₄⟩ := hwrap
  have hserver := hs.serverRun
  rw [serverParty, hc] at hserver
  have hnumbered := hserver.numbered
  have haccounted := hserver.accounted (by rw [calls_about]; omega)
  rw [built_about] at hnumbered
  rw [calls_about] at haccounted
  exact ⟨hs.clientRun.numbered.toNat_next (by omega), hnumbered.toNat_next (by omega),
    (hs.clientRun.accounted (by omega)).expected, haccounted.expected⟩

/-- The statistics of both sides count the pings that were accepted and written there. -/
theorem packetCounts (hreach : Reachable qt s) (hwrap : s.NoWrap) (hc : s.record = some c) :
    c.pingStats.packetsReceived.toNat = s.acceptedByServer.length ∧
      c.pingStats.packetsSent.toNat = (written s.uniqueId s.serverLog).length ∧
      s.client.clientStats.packetsReceived.toNat = s.acceptedByClient.length ∧
      s.client.clientStats.packetsSent.toNat = (written s.uniqueId s.clientLog).length := by
  have hs : Sound s := .of_reachable hreach
  obtain ⟨h₁, h₂, h₃, h₄⟩ := hwrap
  have hserver := hs.serverRun
  rw [serverParty, hc] at hserver
  have hsent : c.pingStats.packetsSent.toNat = _ :=
    hserver.packetsSent (by rw [built_about]; omega)
  rw [written_about] at hsent
  exact ⟨hserver.packetsReceived (by rw [calls_about]; omega), hsent,
    hs.clientRun.packetsReceived (by omega), hs.clientRun.packetsSent (by omega)⟩

/-- What one side has received the other one has sent. -/
theorem received_le (hreach : Reachable qt s) (hwrap : s.NoWrap) (hc : s.record = some c) :
    c.pingStats.packetsReceived.toNat ≤ s.client.clientStats.packetsSent.toNat ∧
      s.client.clientStats.packetsReceived.toNat ≤ c.pingStats.packetsSent.toNat := by
  obtain ⟨hin, hout⟩ := links_sound hreach hwrap
  obtain ⟨hserverReceived, hserverSent, hclientReceived, hclientSent⟩ :=
    packetCounts hreach hwrap hc
  rw [hserverReceived, hclientSent, hclientReceived, hserverSent]
  exact ⟨hin.length_le, hout.length_le⟩

/-- At no moment has one side counted more pings as received than the other one counted as
sent, and what it counted it counted once. -/
theorem conservation (hreach : Reachable qt s) (hwrap : s.NoWrap) (hc : s.record = some c) :
    c.pingStats.packetsReceived ≤ s.client.clientStats.packetsSent ∧
      s.client.clientStats.packetsReceived ≤ c.pingStats.packetsSent ∧
      CountedOnce c.pingStats.packetsReceived s.acceptedByServer
        (written s.uniqueId s.clientLog) (skipped s.uniqueId s.clientLog) ∧
      CountedOnce s.client.clientStats.packetsReceived s.acceptedByClient
        (written s.uniqueId s.serverLog) (skipped s.uniqueId s.serverLog) := by
  obtain ⟨hin, hout⟩ := links_sound hreach hwrap
  obtain ⟨hserverReceived, -, hclientReceived, -⟩ := packetCounts hreach hwrap hc
  obtain ⟨hserverLe, hclientLe⟩ := received_le hreach hwrap hc
  exact ⟨UInt64.le_iff_toNat_le.mpr hserverLe, UInt64.le_iff_toNat_le.mpr hclientLe,
    .of_sound hin rfl hserverReceived, .of_sound hout rfl hclientReceived⟩

/-! ### A first exchange of pings -/

def firstPing : PingMessage := ⟨7, 0, .initialized⟩

def registered : System ℕ :=
  ((start 2 5000 (.new 1 9000 250 7)).clientStep (.connect (fun _ => some 1) 0 0)).serverStep
    (.message 0 0 2 5000 (.welcome (.new 7 250)))

def pingToClient : System ℕ :=
  (registered.serverStep (.pingTimer 250)).clientStep (.message 250 1 9000 (.ping firstPing))

def pingToServer : System ℕ :=
  (pingToClient.clientStep (.pingTimer 250)).serverStep
    (.message 250 250 2 5000 (.ping firstPing))

theorem reachable_registered : Reachable .ascii registered := by
  refine ⟨2, 5000, 1, 9000, 250, 7, ?_⟩
  have hwelcome := NetworkCore.parseIncomingMessage_getData .ascii
    (m := .welcome (.new 7 250)) rfl
  have hsent : .writeDatagram (.welcome (.new 7 250)) 1 9000 ∈
      ((start 2 5000 (.new 1 9000 250 7)).clientStep
        (.connect (fun _ => some 1) 0 0)).clientLog := List.mem_singleton.mpr rfl
  exact (ReflTransGen.single ⟨.client (.connect (fun _ => some 1) 0 0) (by simp),
    by decide⟩).tail ⟨.toServer 0 0 hsent hwelcome, by decide⟩

theorem reachable_pingToServer : Reachable .ascii pingToServer := by
  obtain ⟨_, _, _, _, _, _, h⟩ := reachable_registered
  have hping := NetworkCore.parseIncomingMessage_getData .ascii
    (m := .ping firstPing) represents_initialized.encodable
  have hout : .writeDatagram (.ping firstPing) 2 5000 ∈
      (registered.serverStep (.pingTimer 250)).serverLog :=
    List.mem_append_right _ (List.mem_of_getElem? (i := 0) rfl)
  have hback : .writeDatagram (.ping firstPing) 1 9000 ∈
      (pingToClient.clientStep (.pingTimer 250)).clientLog :=
    List.mem_append_right _ (List.mem_of_getElem? (i := 0) rfl)
  have h₁ := h.tail ⟨.server (.pingTimer 250) (by simp), by decide⟩
  have h₂ := h₁.tail ⟨.toClient 250 1 9000 hout hping, by decide⟩
  have h₃ := h₂.tail ⟨.client (.pingTimer 250) (by simp), by decide⟩
  have h₄ := h₃.tail ⟨.toServer 250 250 hback hping, by decide +kernel⟩
  exact ⟨_, _, _, _, _, _, h₄⟩

theorem noWrap_pingToServer : pingToServer.NoWrap :=
  ⟨by decide +kernel, by decide +kernel, by decide +kernel, by decide +kernel⟩

theorem conservation_first_exchange : ∃ c, pingToServer.record = some c ∧
    c.pingStats.packetsReceived ≤ pingToServer.client.clientStats.packetsSent := by
  obtain ⟨c, hc⟩ : ∃ c, pingToServer.record = some c :=
    Option.isSome_iff_exists.mp (by decide +kernel)
  exact ⟨c, hc, (conservation reachable_pingToServer noWrap_pingToServer hc).1⟩

end System

end PacketLossUtils
