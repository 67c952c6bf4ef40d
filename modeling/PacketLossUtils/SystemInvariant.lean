import PacketLossUtils.System

/-! Every run of the system is sound. -/
namespace PacketLossUtils.System

open Effect PingStats Relation

variable {Address : Type} {s s' : System Address} {qt : QtText}

/-! ### The server's side -/

theorem record_serverStep (e : Server.Event Address) (s : System Address) :
    (s.serverStep e).record = (s.server.step e).1.clientInfos[s.uniqueId]? := rfl

theorem serverStep_run (e : Server.Event Address)
    (hstays : s.record.isSome → (s.serverStep e).record.isSome) :
    Party.Run Eq s.uniqueId s.serverParty (about s.uniqueId (s.server.step e).2)
      (s.server.accepted s.uniqueId e) (s.serverStep e).serverParty := by
  cases hc : s.record with
  | some c =>
    rw [hc, record_serverStep] at hstays
    obtain ⟨c', hc'⟩ := Option.isSome_iff_exists.mp (hstays rfl)
    rw [serverParty, serverParty, record_serverStep, hc, hc']
    exact (Server.step_run hc hc').1
  | none =>
    obtain ⟨hquiet, haccepted, hregister⟩ := Server.step_unknown (e := e) hc
    have hparty : (s.serverStep e).serverParty = .fresh := by
      rw [serverParty, record_serverStep]
      cases hc' : (s.server.step e).1.clientInfos[s.uniqueId]? with
      | none => rfl
      | some c' =>
        obtain ⟨now, now', m, _, _, hrecord⟩ := hregister c' hc'
        rw [hrecord]
        rfl
    rw [hparty, haccepted, serverParty, hc]
    exact Party.Run.quiet hquiet

theorem Sound.serverStep (hs : Sound s) (e : Server.Event Address)
    (hstays : s.record.isSome → (s.serverStep e).record.isSome)
    (hwelcome : ∀ now now' m, e = .message now now' s.clientAddress s.clientPort (.welcome m) →
      m.uniqueId = s.uniqueId) : Sound (s.serverStep e) where
  clientRun := hs.clientRun
  serverRun := by
    have hrun := hs.serverRun.trans (serverStep_run e hstays)
    rw [← about_append] at hrun
    exact hrun
  otherStats := hs.otherStats
  clientWrites := hs.clientWrites
  endpoint := by
    intro id c' hc' haddress hport
    rcases Server.step_origin hc' with ⟨c, hc, haddress', hport'⟩ | ⟨now, now', m, he, hid⟩
    · exact hs.endpoint id c hc (haddress'.trans haddress) (hport'.trans hport)
    · rw [haddress, hport] at he
      exact hid.symm.trans (hwelcome now now' m he)
  serverPings := by
    intro m hm
    rcases List.mem_append.mp hm with hm | hm
    · exact hs.serverPings m hm
    · obtain ⟨c, hc, haddress, hport⟩ := Server.step_destination hm
      exact hs.endpoint m.uniqueId c hc haddress hport

theorem accepted_ping {now now' : ℤ} {address : Address} {port : UInt16} {m m' : PingMessage}
    (hm : m' ∈ s.server.accepted s.uniqueId (.message now now' address port (.ping m))) :
    m' = m := by
  simp only [Server.accepted] at hm
  split at hm
  · cases hc : s.server.clientInfos[s.uniqueId]? with
    | none => simp [hc] at hm
    | some c =>
      simp only [hc, Option.map_some, Option.getD_some, ClientInfo.accepted] at hm
      split at hm <;> simp at hm
      exact hm
  · simp at hm

theorem Sound.accepted_toServer (hs : Sound s) {sent : Message} {now now' : ℤ}
    (hsent : .writeDatagram sent s.client.serverHostAddress s.client.serverPort ∈ s.clientLog) :
    ∀ m ∈ s.server.accepted s.uniqueId
        (.message now now' s.clientAddress s.clientPort sent),
      m ∈ written s.uniqueId s.clientLog := by
  have hid := (hs.clientWrites _ _ _ hsent).2
  cases sent with
  | ping m =>
    intro m' hm'
    rw [accepted_ping hm']
    exact mem_written hid hsent
  | welcome => simp [Server.accepted]
  | close => simp [Server.accepted]

/-! ### The client's side -/

variable [HostAddress Address]

theorem Sound.clientStep (hs : Sound s) (e : Client.Event Address)
    (haccepted : ∀ m ∈ s.client.accepted e, m ∈ written s.uniqueId s.serverLog) :
    Sound (s.clientStep e) := by
  have hid : (s.clientStep e).uniqueId = s.uniqueId := (Client.step_setup e s.client).uniqueId
  have hencodable : ∀ m ∈ s.client.accepted e, m.pingStats.Encodable := by
    intro m hm
    obtain ⟨huid, address, port, hmem⟩ := exists_of_mem_written (haccepted m hm)
    exact hs.encodable huid hmem
  refine ⟨?_, ?_, ?_, ?_, ?_, ?_⟩
  · rw [hid]
    exact hs.clientRun.trans (Client.step_run e hs.otherStats)
  · have hrecord : (s.clientStep e).serverParty = s.serverParty := by
      rw [serverParty, record, hid]
      rfl
    rw [hid, hrecord]
    exact hs.serverRun
  · rcases Client.step_otherStats e s.client with ⟨_, hsame⟩ | ⟨_, _, _, m, _, hacc, hother⟩
    · rw [System.clientStep, hsame]
      exact hs.otherStats
    · rw [System.clientStep, hother]
      exact hencodable m (by simp [hacc])
  · intro m address port hm
    rw [hid]
    rcases List.mem_append.mp hm with hm | hm
    · exact hs.clientWrites m address port hm
    · exact Client.step_writes e hs.otherStats m address port hm
  · rw [hid]
    exact hs.endpoint
  · rw [hid]
    exact hs.serverPings

/-! ### Deliveries -/

/-- The client accepts nothing but pings that the server wrote for it. -/
theorem Sound.accepted_toClient (hs : Sound s) {sent received : Message} {now : ℤ}
    {address : Address} {port : UInt16}
    (hsent : .writeDatagram sent s.clientAddress s.clientPort ∈ s.serverLog)
    (hparse : NetworkCore.parseIncomingMessage qt sent.getData = .ok (some received)) :
    ∀ m ∈ s.client.accepted (.message now address port received),
      m ∈ written s.uniqueId s.serverLog := by
  cases received with
  | ping m =>
    obtain ⟨m', rfl⟩ := NetworkCore.parse_eq_ping hparse
    have hid := hs.serverPings m' hsent
    rw [NetworkCore.parseIncomingMessage_getData qt (m := .ping m') (hs.encodable hid hsent)]
      at hparse
    obtain rfl : m' = m := by simpa using hparse
    intro m hm
    simp only [Client.accepted] at hm
    split at hm <;> [simp at hm; split at hm] <;> simp at hm
    rw [hm]
    exact mem_written hid hsent
  | welcome => simp [Client.accepted]
  | close => simp [Client.accepted]

/-- Whatever happens, one of the two takes a step, and it accepts nothing but pings that the
other one wrote. -/
theorem Sound.next_cases (hs : Sound s) (h : Next qt s s') :
    (∃ e, s' = s.clientStep e ∧
      ∀ m ∈ s.client.accepted e, m ∈ written s.uniqueId s.serverLog) ∨
    ∃ e, s' = s.serverStep e ∧ (s.record.isSome → (s.serverStep e).record.isSome) ∧
      (∀ m ∈ s.server.accepted s.uniqueId e, m ∈ written s.uniqueId s.clientLog) ∧
      ∀ now now' m, e = .message now now' s.clientAddress s.clientPort (.welcome m) →
        m.uniqueId = s.uniqueId := by
  obtain ⟨hstep, hstays⟩ := h
  cases hstep with
  | client e he => exact .inl ⟨e, rfl, by simp [Client.accepted_of_ne he]⟩
  | server e he =>
    exact .inr ⟨e, rfl, hstays, by simp [Server.accepted_of_ne he],
      fun _ _ _ hm => (he _ _ _ _ _ hm).elim⟩
  | @toServer sent received now now' hsent hparse =>
    obtain ⟨hbuilt, hid⟩ := hs.clientWrites _ _ _ hsent
    rw [NetworkCore.parseIncomingMessage_getData qt hbuilt] at hparse
    obtain rfl : sent = received := by simpa using hparse
    refine .inr ⟨_, rfl, hstays, hs.accepted_toServer hsent, fun _ _ m hm => ?_⟩
    cases hm
    exact hid
  | toClient now address port hsent hparse =>
    exact .inl ⟨_, rfl, hs.accepted_toClient hsent hparse⟩
  | otherToServer now now' hendpoint hid =>
    refine .inr ⟨_, rfl, hstays, by simp [Server.accepted_other hid], fun _ _ m hm => ?_⟩
    cases hm
    exact (hendpoint ⟨rfl, rfl⟩).elim
  | otherToClient now m hendpoint =>
    exact .inl ⟨_, rfl, by simp [Client.accepted_of_stranger hendpoint]⟩

theorem Sound.next (hs : Sound s) (h : Next qt s s') : Sound s' := by
  rcases hs.next_cases h with ⟨e, rfl, haccepted⟩ | ⟨e, rfl, hstays, _, hwelcome⟩
  · exact hs.clientStep e haccepted
  · exact hs.serverStep e hstays hwelcome

theorem Sound.of_reachable (h : Reachable qt s) : Sound s := by
  obtain ⟨clientAddress, clientPort, serverAddress, serverPort, interval, uniqueId, h⟩ := h
  induction h with
  | refl => exact sound_start ..
  | tail _ hnext ih => exact ih.next hnext

end PacketLossUtils.System
