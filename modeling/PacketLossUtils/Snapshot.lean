import PacketLossUtils.Conservation

/-! The client's copy of the server's statistics: always a genuine state of them, and never
an older one than before. -/
namespace PacketLossUtils

open Effect PingStats Relation

variable {Address : Type}

namespace Party

variable {messageCounter uniqueId : UInt64} {m m' : PingMessage}
  {log before before' later later' : List (Effect Address)}

/-- The counter of a ping is the number of pings built before it. -/
theorem Numbered.number_eq {xs ys : List PingMessage}
    (h : Numbered messageCounter (xs ++ m :: ys)) (hlt : (xs ++ m :: ys).length < 2 ^ 64) :
    m.number = xs.length := by
  have hget := congrArg (·[xs.length]?) h.counters
  have hxs : xs.length < (xs ++ m :: ys).length := by simp
  simp only [List.getElem?_map, List.getElem?_append_right le_rfl, Nat.sub_self,
    List.getElem?_cons_zero, List.getElem?_range hxs, Option.map_some, Option.some.injEq] at hget
  rw [PingMessage.number, hget]
  exact UInt64.toNat_ofNat_of_lt' (hxs.trans hlt)

theorem Numbered.number_eq_length (h : Numbered messageCounter (built uniqueId log))
    (hlt : (built uniqueId log).length < 2 ^ 64) (hid : m.uniqueId = uniqueId)
    {address : Address} {port : UInt16}
    (hlog : log = before ++ .writeDatagram (.ping m) address port :: later) :
    m.number = (built uniqueId before).length := by
  subst hid
  rw [hlog, built_append, built_cons_write] at h hlt
  exact h.number_eq hlt

/-- The ping with the larger counter was built later. -/
theorem Numbered.before_prefix (h : Numbered messageCounter (built uniqueId log))
    (hlt : (built uniqueId log).length < 2 ^ 64) (hid : m.uniqueId = uniqueId)
    (hid' : m'.uniqueId = uniqueId) {address address' : Address} {port port' : UInt16}
    (hlog : log = before ++ .writeDatagram (.ping m) address port :: later)
    (hlog' : log = before' ++ .writeDatagram (.ping m') address' port' :: later')
    (hle : m.number ≤ m'.number) : before <+: before' := by
  rw [h.number_eq_length hlt hid hlog, h.number_eq_length hlt hid' hlog'] at hle
  rcases List.append_eq_append_iff.mp (hlog.symm.trans hlog') with
    ⟨mid, rfl, _⟩ | ⟨mid, rfl, hmid⟩
  · exact List.prefix_append ..
  · rcases List.cons_eq_append_iff.mp hmid with ⟨rfl, _⟩ | ⟨rest, rfl, _⟩
    · simp
    · subst hid'
      rw [built_append, built_cons_write, List.length_append, List.length_cons] at hle
      omega

end Party

namespace System

section

variable {s : System Address} {m m' : PingMessage}

/-- A ping the client accepted, where the server logged it. -/
theorem written_of_accepted (hl : s.toClient.Sound PingMessage.number)
    (hm : m ∈ s.acceptedByClient) : m.uniqueId = s.uniqueId ∧ ∃ address port before later,
      s.serverLog = before ++ .writeDatagram (.ping m) address port :: later := by
  obtain ⟨hid, address, port, hmem⟩ := exists_of_mem_written (hl.sublist.subset hm)
  obtain ⟨before, later, hlog⟩ := List.append_of_mem hmem
  exact ⟨hid, address, port, before, later, hlog⟩

/-- The calls on the record up to some moment are few enough to be counted. -/
theorem count_calls_lt (hs : Sound s) (hwrap : s.NoWrap) {before : List (Effect Address)}
    (hpre : before <+: s.serverLog) :
    (calls s.uniqueId before).count .addPacketSent < 2 ^ 64 ∧
      (calls s.uniqueId before).count .addPacketReceived < 2 ^ 64 := by
  obtain ⟨_, h₂, _, h₄⟩ := hwrap
  have hsub : (calls s.uniqueId before).Sublist (calls s.uniqueId s.serverLog) := by
    obtain ⟨later, hlog⟩ := hpre
    rw [← hlog, calls_append]
    exact List.sublist_append_left ..
  have hsent := hs.serverRun.count_sent
  rw [calls_about, written_about] at hsent
  have haccounts := hs.serverRun.accounts (by rw [calls_about]; omega)
  rw [calls_about] at haccounts
  have hwritten := (written_sublist_built s.uniqueId s.serverLog).length_le
  have hreceived := haccounts.count_received
  have hresults := haccounts.length_le
  have hcountSent := hsub.count_le .addPacketSent
  have hcountReceived := hsub.count_le .addPacketReceived
  exact ⟨by omega, by omega⟩

theorem notAfter_of_number_le (hs : Sound s) (hwrap : s.NoWrap)
    (hl : s.toClient.Sound PingMessage.number) (hm : m ∈ s.acceptedByClient)
    (hm' : m' ∈ s.acceptedByClient) (hle : m.number ≤ m'.number) :
    NotAfter m.pingStats m'.pingStats := by
  obtain ⟨hid, _, _, before, later, hlog⟩ := written_of_accepted hl hm
  obtain ⟨hid', _, _, before', later', hlog'⟩ := written_of_accepted hl hm'
  have hnumbered := hs.serverRun.numbered
  rw [built_about] at hnumbered
  have hcounter := hwrap.serverCounter
  obtain ⟨mid, hmid⟩ := hnumbered.before_prefix (by omega) hid hid' hlog hlog' hle
  obtain ⟨hsent, hreceived⟩ := count_calls_lt hs hwrap ⟨_, hlog'.symm⟩
  rw [hs.snapshot hid hlog, hs.snapshot hid' hlog']
  refine notAfter_replay ?_ hsent hreceived
  rw [← hmid, calls_append]
  exact List.prefix_append ..

end

variable [HostAddress Address] {s s' : System Address} {qt : QtText}

/-- The client shows the statistics of the ping it accepted last. -/
theorem otherStats_eq (h : Reachable qt s) :
    s.client.otherStats =
      (s.acceptedByClient.getLast?.map PingMessage.pingStats).getD .initialized := by
  obtain ⟨clientAddress, clientPort, serverAddress, serverPort, interval, uniqueId, h⟩ := h
  induction h with
  | refl => rfl
  | @tail s s' h hnext ih =>
    have hs : Sound s := .of_reachable ⟨_, _, _, _, _, _, h⟩
    rcases hs.next_cases hnext with ⟨e, rfl, _⟩ | ⟨e, rfl, _⟩
    · rcases Client.step_otherStats e s.client with ⟨hnone, hsame⟩ | ⟨_, _, _, m, _, hm, hother⟩
      · simp only [System.clientStep, hnone, hsame, List.append_nil]
        exact ih
      · simp [System.clientStep, hm, hother]
    · exact ih

/-- Whatever is accepted later, the copy does not go back. -/
theorem otherStats_notAfter (h : Reachable qt s) (hrun : ReflTransGen (Next qt) s s')
    (hwrap : s'.NoWrap) : NotAfter s.client.otherStats s'.client.otherStats := by
  have h' : Reachable qt s' := by
    obtain ⟨_, _, _, _, _, _, h⟩ := h
    exact ⟨_, _, _, _, _, _, h.trans hrun⟩
  have hl := (links_sound h' hwrap).2
  have hpre := (extends_of_run hrun).acceptedByClient
  rw [otherStats_eq h, otherStats_eq h']
  cases hm : s.acceptedByClient.getLast? with
  | none =>
    cases hm' : s'.acceptedByClient.getLast? with
    | none => exact ⟨UInt64.le_refl _, UInt64.le_refl _, le_rfl⟩
    | some m' =>
      obtain ⟨hid', _, _, before', later', hlog'⟩ :=
        written_of_accepted hl (List.mem_of_getLast? hm')
      obtain ⟨hsent, hreceived⟩ := count_calls_lt (.of_reachable h') hwrap ⟨_, hlog'.symm⟩
      have hsnapshot := (Sound.of_reachable h').snapshot hid' hlog'
      rw [Option.map_none, Option.getD_none, Option.map_some, Option.getD_some, hsnapshot]
      exact notAfter_replay (List.nil_prefix) hsent hreceived
  | some m =>
    have hmem := hpre.subset (List.mem_of_getLast? hm)
    cases hm' : s'.acceptedByClient.getLast? with
    | none =>
      rw [List.getLast?_eq_none_iff.mp hm'] at hmem
      simp at hmem
    | some m' =>
      exact notAfter_of_number_le (.of_reachable h') hwrap hl hmem (List.mem_of_getLast? hm')
        (hl.le_last hm' m hmem)

/-- The copy is what `initialize()` gives until a ping is accepted. From then on it is the state
of the server's statistics when the ping with the largest counter accepted so far was built. Its
counts never decrease. -/
theorem otherStats_snapshot (h : Reachable qt s) (hwrap : s.NoWrap) :
    ((s.acceptedByClient = [] ∧ s.client.otherStats = .initialized) ∨
      ∃ m address port before later, m ∈ s.acceptedByClient ∧
        (∀ a ∈ s.acceptedByClient, a.counter ≤ m.counter) ∧
        s.serverLog = before ++ .writeDatagram (.ping m) address port :: later ∧
        s.client.otherStats = m.pingStats ∧ m.pingStats = replay (calls s.uniqueId before)) ∧
      (∀ c, s.record = some c → c.pingStats = replay (calls s.uniqueId s.serverLog)) ∧
      ∀ s', ReflTransGen (Next qt) s s' → s'.NoWrap →
        NotAfter s.client.otherStats s'.client.otherStats := by
  have hs : Sound s := .of_reachable h
  have hl := (links_sound h hwrap).2
  refine ⟨?_, ?_, fun s' hrun hwrap' => otherStats_notAfter h hrun hwrap'⟩
  · have hother := otherStats_eq h
    cases hm : s.acceptedByClient.getLast? with
    | none =>
      rw [hm] at hother
      exact .inl ⟨List.getLast?_eq_none_iff.mp hm, hother⟩
    | some m =>
      rw [hm] at hother
      obtain ⟨hid, address, port, before, later, hlog⟩ :=
        written_of_accepted hl (List.mem_of_getLast? hm)
      exact .inr ⟨m, address, port, before, later, List.mem_of_getLast? hm,
        fun a ha => UInt64.le_iff_toNat_le.mpr (hl.le_last hm a ha), hlog, hother,
        hs.snapshot hid hlog⟩
  · intro c hc
    have hreception := hs.serverRun.reception
    rw [serverParty, hc, calls_about] at hreception
    exact congrArg Reception.pingStats hreception

theorem otherStats_snapshot_first_exchange : ∃ m ∈ pingToServer.acceptedByClient,
    pingToServer.client.otherStats = m.pingStats := by
  have haccepted : pingToServer.acceptedByClient = [firstPing] := rfl
  rcases (otherStats_snapshot reachable_pingToServer noWrap_pingToServer).1 with
    ⟨hnone, _⟩ | ⟨m, _, _, _, _, hm, _, _, hother, _⟩
  · simp [haccepted] at hnone
  · exact ⟨m, hm, hother⟩

end System

end PacketLossUtils
