import PacketLossUtils.PartyLink
import PacketLossUtils.SystemInvariant

/-! Every run of the system is a run of one numbered link in each direction. -/
namespace PacketLossUtils.System

open Effect PingStats Relation

variable {Address : Type} {s s' s'' : System Address} {qt : QtText}

/-- The pings of the client on their way to the server. -/
def toServer (s : System Address) : NumberedLink PingMessage :=
  link s.uniqueId s.clientLog s.serverLog s.acceptedByServer

/-- The pings of the server on their way to the client. -/
def toClient (s : System Address) : NumberedLink PingMessage :=
  link s.uniqueId s.serverLog s.clientLog s.acceptedByClient

/-- No message counter has reached the largest number: neither the pings built on either side
nor the results recorded there are as many. -/
structure NoWrap (s : System Address) : Prop where
  clientCounter : (built s.uniqueId s.clientLog).length < 2 ^ 64 - 1
  serverCounter : (built s.uniqueId s.serverLog).length < 2 ^ 64 - 1
  clientExpected : (results (calls s.uniqueId s.clientLog)).length < 2 ^ 64 - 1
  serverExpected : (results (calls s.uniqueId s.serverLog)).length < 2 ^ 64 - 1

theorem Extends.trans (h : Extends s s') (h' : Extends s' s'') :
    Extends s s'' :=
  ⟨h'.1.trans h.1, h'.2.trans h.2, h'.3.trans h.3, h.4.trans h'.4, h.5.trans h'.5, h.6.trans h'.6,
    h.7.trans h'.7⟩

theorem NoWrap.of_extends (hwrap : s'.NoWrap) (h : Extends s s') : s.NoWrap := by
  obtain ⟨hid, _, _, ⟨clientLog, hclient⟩, ⟨serverLog, hserver⟩, _, _⟩ := h
  obtain ⟨h₁, h₂, h₃, h₄⟩ := hwrap
  rw [hid, ← hclient] at h₁ h₃
  rw [hid, ← hserver] at h₂ h₄
  simp only [built_append, calls_append, results_append, List.length_append] at h₁ h₂ h₃ h₄
  exact ⟨by omega, by omega, by omega, by omega⟩

theorem Sound.links_serverStep (hs : Sound s) (e : Server.Event Address)
    (hstays : s.record.isSome → (s.serverStep e).record.isSome)
    (haccepted : ∀ m ∈ s.server.accepted s.uniqueId e, m ∈ written s.uniqueId s.clientLog)
    (hwrap : (s.serverStep e).NoWrap) :
    ReflTransGen (NumberedLink.Step PingMessage.number) s.toServer (s.serverStep e).toServer ∧
      ReflTransGen (NumberedLink.Step PingMessage.number) s.toClient
        (s.serverStep e).toClient := by
  have hrun := serverStep_run e hstays
  have hcounter : (built s.uniqueId (s.serverLog ++ (s.server.step e).2)).length < 2 ^ 64 - 1 :=
    hwrap.serverCounter
  have hexpected : (results (calls s.uniqueId
    (s.serverLog ++ (s.server.step e).2))).length < 2 ^ 64 - 1 := hwrap.serverExpected
  have hsends := hs.serverRun.sends s.clientLog s.acceptedByClient hrun
    (by rw [← about_append, built_about]; omega)
  have hreceives := hs.serverRun.receives s.clientLog hrun
    (by rw [← about_append, calls_about]; omega) haccepted
  rw [← about_append, link_about_sender, link_about_sender] at hsends
  rw [← about_append, link_about_receiver, link_about_receiver] at hreceives
  exact ⟨hreceives, hsends⟩

variable [HostAddress Address]

theorem uniqueId_clientStep (e : Client.Event Address) (s : System Address) :
    (s.clientStep e).uniqueId = s.uniqueId :=
  (Client.step_setup e s.client).uniqueId

theorem Sound.links_clientStep (hs : Sound s) (e : Client.Event Address)
    (haccepted : ∀ m ∈ s.client.accepted e, m ∈ written s.uniqueId s.serverLog)
    (hwrap : (s.clientStep e).NoWrap) :
    ReflTransGen (NumberedLink.Step PingMessage.number) s.toServer (s.clientStep e).toServer ∧
      ReflTransGen (NumberedLink.Step PingMessage.number) s.toClient
        (s.clientStep e).toClient := by
  have hrun := Client.step_run e hs.otherStats
  have hcounter := hwrap.clientCounter
  have hexpected := hwrap.clientExpected
  rw [uniqueId_clientStep] at hcounter hexpected
  rw [toServer, toServer, toClient, toClient, uniqueId_clientStep]
  exact ⟨hs.clientRun.sends _ _ hrun (hcounter.trans (by decide)),
    hs.clientRun.receives _ hrun (hexpected.trans (by decide)) haccepted⟩

/-- The system refines the numbered link, in both directions. -/
theorem Sound.links (hs : Sound s) (h : Next qt s s') (hwrap : s'.NoWrap) :
    ReflTransGen (NumberedLink.Step PingMessage.number) s.toServer s'.toServer ∧
      ReflTransGen (NumberedLink.Step PingMessage.number) s.toClient s'.toClient := by
  rcases hs.next_cases h with ⟨e, rfl, haccepted⟩ | ⟨e, rfl, hstays, haccepted, _⟩
  · exact hs.links_clientStep e haccepted hwrap
  · exact hs.links_serverStep e hstays haccepted hwrap

theorem Step.extends (h : Step qt s s') : Extends s s' := by
  have hserver : ∀ e, Extends s (s.serverStep e) := fun e =>
    ⟨rfl, rfl, rfl, List.prefix_refl _, List.prefix_append .., List.prefix_refl _,
      List.prefix_append ..⟩
  have hclient : ∀ e, Extends s (s.clientStep e) := fun e =>
    ⟨uniqueId_clientStep e s, rfl, rfl, List.prefix_append .., List.prefix_refl _,
      List.prefix_append .., List.prefix_refl _⟩
  cases h with
  | client e he => exact hclient e
  | server e he => exact hserver e
  | toServer now now' hsent hparse => exact hserver _
  | toClient now address port hsent hparse => exact hclient _
  | otherToServer now now' hendpoint hid => exact hserver _
  | otherToClient now m hendpoint => exact hclient _

theorem extends_of_run (h : ReflTransGen (Next qt) s s') : Extends s s' := by
  induction h with
  | refl =>
    exact ⟨rfl, rfl, rfl, List.prefix_refl _, List.prefix_refl _, List.prefix_refl _,
      List.prefix_refl _⟩
  | tail _ hnext ih => exact ih.trans hnext.1.extends

/-- Each direction of a run of the system is a run of the link. -/
theorem links_of_reachable (h : Reachable qt s) (hwrap : s.NoWrap) :
    ReflTransGen (NumberedLink.Step PingMessage.number) .initial s.toServer ∧
      ReflTransGen (NumberedLink.Step PingMessage.number) .initial s.toClient := by
  obtain ⟨clientAddress, clientPort, serverAddress, serverPort, interval, uniqueId, h⟩ := h
  induction h with
  | refl => exact ⟨.refl, .refl⟩
  | tail h hnext ih =>
    have hs : Sound _ := .of_reachable ⟨_, _, _, _, _, _, h⟩
    obtain ⟨hserver, hclient⟩ := ih (hwrap.of_extends hnext.1.extends)
    obtain ⟨hserver', hclient'⟩ := hs.links hnext hwrap
    exact ⟨hserver.trans hserver', hclient.trans hclient'⟩

theorem links_sound (h : Reachable qt s) (hwrap : s.NoWrap) :
    s.toServer.Sound PingMessage.number ∧ s.toClient.Sound PingMessage.number := by
  obtain ⟨htoServer, htoClient⟩ := links_of_reachable h hwrap
  exact ⟨.of_reachable htoServer, .of_reachable htoClient⟩

end PacketLossUtils.System
