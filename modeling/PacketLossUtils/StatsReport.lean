import PacketLossUtils.Snapshot

/-! What the report of the client says about the pings that got through. -/
namespace PacketLossUtils

open Effect PingStats Relation

/-- The percentage that was accepted of the last `w` pings before number `n`, as far as results of
them are kept. -/
def deliveredShare (accepted : List PingMessage) (n : ℕ) (w : ℤ) : ℚ :=
  let k := min (min (n : ℤ) maxBitCount) w
  if k ≤ 0 then 0
  else
    let delivered := (List.range' (n - k.toNat) k.toNat).countP fun i =>
      accepted.any fun m => m.number == i
    100 * (delivered : ℚ) / k

namespace PingStats

variable {t : PingStats} {h : List Bool} {accepted : List PingMessage}

/-- The results of the last `k` pings are those of their numbers. -/
theorem count_drop (hresult : ∀ i < h.length,
      (h[i]? = some true ↔ ∃ m ∈ accepted, m.number = i)) {k : ℕ} (hk : k ≤ h.length) :
    (h.drop (h.length - k)).count true = (List.range' (h.length - k) k).countP fun i =>
      accepted.any fun m => m.number == i := by
  have hgetD : ∀ i (hi : i < h.length), h.getD i false = h[i] := by
    intro i hi
    rw [List.getD_eq_getElem?_getD, List.getElem?_eq_getElem hi, Option.getD_some]
  have hlast : h.drop (h.length - k) = (List.range' (h.length - k) k).map (h.getD · false) := by
    apply List.ext_getElem
    · simp
      omega
    · intro i hi _
      rw [List.length_drop] at hi
      rw [List.getElem_drop, List.getElem_map, List.getElem_range', Nat.one_mul,
        hgetD _ (by omega)]
  rw [hlast, List.count, List.countP_map]
  apply List.countP_congr
  intro i hi
  obtain ⟨hlo, hhi⟩ := List.mem_range'_1.mp hi
  have hget : h.getD i false = true ↔ h[i]? = some true := by
    rw [hgetD i (by omega), List.getElem?_eq_getElem (by omega), Option.some.injEq]
  simp only [Function.comp_apply, beq_iff_eq, hget, hresult i (by omega), List.any_eq_true]

/-- Statistics whose results say which pings were accepted answer with the share of these. -/
theorem Represents.share (hr : Represents t h) (hresult : ∀ i < h.length,
      (h[i]? = some true ↔ ∃ m ∈ accepted, m.number = i)) (w : ℤ) :
    t.getPercentReceivedOverTime w = deliveredShare accepted h.length w := by
  rw [hr.getPercentReceivedOverTime, deliveredShare]
  dsimp only
  split
  · rfl
  · rw [count_drop hresult (by omega)]

end PingStats

variable {Address : Type}

/-- Over a run whose expected counter has not wrapped, the results say which pings were accepted. -/
theorem Party.Run.result_iff {Carries : PingStats → PingStats → Prop} {uniqueId : UInt64}
    {log : List (Effect Address)} {accepted : List PingMessage} {q : Party}
    (h : Run Carries uniqueId fresh log accepted q)
    (hlt : (results (calls uniqueId log)).length < 2 ^ 64) (i : ℕ) :
    (results (calls uniqueId log))[i]? = some true ↔ ∃ m ∈ accepted, m.number = i := by
  rw [(h.accounts hlt).result_iff]
  simp [PingMessage.number]

namespace System

variable {s : System Address} {qt : QtText}

/-- What the server had done when it built the last ping that the client accepted. -/
def LastHeard (s : System Address) (before : List (Effect Address)) : Prop :=
  match s.acceptedByClient.getLast? with
  | none => before = []
  | some m => ∃ address port later,
      s.serverLog = before ++ .writeDatagram (.ping m) address port :: later

theorem LastHeard.prefix {before : List (Effect Address)} (h : LastHeard s before) :
    before <+: s.serverLog := by
  rw [LastHeard] at h
  split at h
  · rw [h]
    exact List.nil_prefix
  · obtain ⟨_, _, _, hlog⟩ := h
    exact ⟨_, hlog.symm⟩

variable [HostAddress Address]

theorem exists_lastHeard (h : Reachable qt s) (hwrap : s.NoWrap) :
    ∃ before, LastHeard s before ∧ s.client.otherStats = replay (calls s.uniqueId before) := by
  have hs : Sound s := .of_reachable h
  have hl := (links_sound h hwrap).2
  have hother := otherStats_eq h
  cases hm : s.acceptedByClient.getLast? with
  | none =>
    rw [hm] at hother
    exact ⟨[], by rw [LastHeard, hm], hother⟩
  | some m =>
    rw [hm] at hother
    obtain ⟨hid, address, port, before, later, hlog⟩ :=
      written_of_accepted hl (List.mem_of_getLast? hm)
    refine ⟨before, ?_, hother.trans (hs.snapshot hid hlog)⟩
    rw [LastHeard, hm]
    exact ⟨address, port, later, hlog⟩

/-- Which of the client's pings the server had accepted by then. -/
theorem result_before (h : Reachable qt s) (hwrap : s.NoWrap) {before : List (Effect Address)}
    (hbefore : before <+: s.serverLog) :
    ∀ i < (results (calls s.uniqueId before)).length,
      ((results (calls s.uniqueId before))[i]? = some true ↔
        ∃ m ∈ s.acceptedByServer, m.number = i) := by
  intro i hi
  have hs : Sound s := .of_reachable h
  have hall := hs.serverRun.result_iff
    (by rw [calls_about]; exact hwrap.serverExpected.trans (by decide)) i
  rw [calls_about] at hall
  obtain ⟨later, hlog⟩ := hbefore
  rw [← hlog, calls_append, results_append, List.getElem?_append_left hi] at hall
  exact hall

/-- The report is true in every state of the system. Its incoming rates are the shares of the
server's pings that the client accepted, its outgoing rates those of the client's pings that the
server had accepted when it built the last ping that came through, and the dump decodes to the
server's statistics of that moment. -/
theorem onStatsTimer_reports (h : Reachable qt s) (hwrap : s.NoWrap) (debug : Bool) :
    ∃ before, LastHeard s before ∧
      let report := (s.client.setDebugPingStats debug).onStatsTimer
      let expected := (results (calls s.uniqueId before)).length
      report.1 = s.client.statsWindows.map (deliveredShare s.acceptedByClient
        s.client.messageCounterOtherNextExpected.toNat) ∧
      report.2.1 = s.client.statsWindows.map (deliveredShare s.acceptedByServer expected) ∧
      report.2.2.isSome = debug ∧
      ∀ text bytes, report.2.2 = some (text, bytes) →
        fromDataStream bytes = (replay (calls s.uniqueId before), []) := by
  have hs : Sound s := .of_reachable h
  obtain ⟨before, hbefore, hother⟩ := exists_lastHeard h hwrap
  have hlt : (results (calls s.uniqueId s.clientLog)).length < 2 ^ 64 :=
    hwrap.clientExpected.trans (by decide)
  have hclient := hs.clientRun.accounted hlt
  have hin : Represents s.client.clientStats (results (calls s.uniqueId s.clientLog)) := by
    have hreplayed : s.client.clientStats = _ := hclient.replayed
    rw [hreplayed]
    exact represents_replay _
  have hout : Represents s.client.otherStats (results (calls s.uniqueId before)) := by
    rw [hother]
    exact represents_replay _
  have hexpected : s.client.messageCounterOtherNextExpected.toNat = _ := hclient.expected
  have hwindows : (s.client.setDebugPingStats debug).statsWindows = s.client.statsWindows := rfl
  refine ⟨before, hbefore, ?_, ?_, ?_, ?_⟩
  · rw [Client.onStatsTimer, hwindows, hexpected]
    apply List.map_congr_left
    intro w _
    exact hin.share (fun i _ => hs.clientRun.result_iff hlt i) w
  · rw [Client.onStatsTimer, hwindows]
    apply List.map_congr_left
    intro w _
    exact hout.share (result_before h hwrap hbefore.prefix) w
  · cases debug <;> rfl
  · intro text bytes hdump
    cases debug with
    | false => cases hdump
    | true =>
      obtain ⟨-, rfl⟩ := Prod.mk.inj (Option.some.inj hdump)
      have hdecodes := fromDataStream_toDataStream hout.encodable []
      rw [List.append_nil, hother] at hdecodes
      rw [← hdecodes, ← hother]
      rfl

/-- Both sides have had one ping of the other. -/
theorem onStatsTimer_reports_first_exchange : ∃ before, LastHeard pingToServer before ∧
    (pingToServer.client.setDebugPingStats true).onStatsTimer.2.1 =
      pingToServer.client.statsWindows.map (deliveredShare pingToServer.acceptedByServer
        (results (calls pingToServer.uniqueId before)).length) := by
  obtain ⟨before, hbefore, -, houtgoing, -⟩ :=
    onStatsTimer_reports reachable_pingToServer noWrap_pingToServer true
  exact ⟨before, hbefore, houtgoing⟩

end System

end PacketLossUtils
