import PacketLossUtils.ClientRun
import PacketLossUtils.ServerRun

/-! The account a receiver keeps over a whole run: which results it recorded, and where. -/
namespace PacketLossUtils

open Effect PingStats

variable {Address : Type}

/-- The effects of a server and the pings of one client it accepts, from the step that
registers the client for as long as it stays registered. -/
inductive Server.Recorded (uniqueId : UInt64) :
    Server Address → List (Effect Address) → List PingMessage → Prop
  | registered {s : Server Address} (e : Event Address) (hnew : uniqueId ∉ s.clientInfos)
      (hregistered : uniqueId ∈ (s.step e).1.clientInfos) : Recorded uniqueId (s.step e).1 [] []
  | step {s : Server Address} {log : List (Effect Address)} {accepted : List PingMessage}
      (e : Event Address) (h : Recorded uniqueId s log accepted)
      (hstays : uniqueId ∈ (s.step e).1.clientInfos) :
      Recorded uniqueId (s.step e).1 (log ++ (s.step e).2) (accepted ++ s.accepted uniqueId e)

/-- The effects of a client and the pings it accepts, since it was constructed. -/
inductive Client.Recorded [HostAddress Address] :
    Client Address → List (Effect Address) → List PingMessage → Prop
  | new (address : Address) (port : UInt16) (interval : UInt32) (uniqueId : UInt64) :
      Recorded (.new address port interval uniqueId) [] []
  | step {c : Client Address} {log : List (Effect Address)} {accepted : List PingMessage}
      (e : Event Address) (h : Recorded c log accepted) :
      Recorded (c.step e).1 (log ++ (c.step e).2) (accepted ++ c.accepted e)

/-- The expected counter `n` and the statistics `t` are what the calls made and the counters
accepted say. -/
structure Accounted (n : UInt64) (t : PingStats) (calls : List Call) (accepted : List UInt64) :
    Prop where
  replayed : t = replay calls
  expected : n.toNat = (results calls).length
  stored : t.storedBitCount = (min n.toNat maxBitCount : ℕ)
  position : t.currentPosition =
    if n.toNat = 0 then -1 else (((n.toNat - 1) % maxBitCount : ℕ) : ℤ)
  bits : ∀ i, n.toNat - min n.toNat maxBitCount ≤ i → i < n.toNat →
    (QBitArray.testBit t.bitArray (i % maxBitCount : ℕ) = true ↔
      ∃ counter ∈ accepted, counter.toNat = i)
  received : t.packetsReceived.toNat = accepted.length
  once : accepted.Nodup
  result : ∀ i : ℕ, (results calls)[i]? = some true ↔ ∃ counter ∈ accepted, counter.toNat = i

variable {calls calls' : List Call} {accepted : List UInt64} {pings : List PingMessage}

theorem PingStats.Represents.testBit {t : PingStats} {h : List Bool} (hr : Represents t h) {i : ℕ}
    (hlo : h.length - min h.length maxBitCount ≤ i) (hhi : i < h.length) :
    QBitArray.testBit t.bitArray (i % maxBitCount : ℕ) = true ↔ h[i]? = some true := by
  have hcell := hr.holds i hhi (by rw [hr.size]; omega)
  rw [hr.size] at hcell
  rw [QBitArray.testBit, Int.toNat_natCast, List.getD_eq_getElem?_getD, hcell,
    List.getElem?_eq_getElem hhi]
  simp only [Int.natCast_nonneg, decide_true, Bool.true_and, Option.getD_some,
    Option.some.injEq]

theorem Accounts.accounted (ha : Accounts calls accepted)
    (hlt : (results calls).length < 2 ^ 64) :
    Accounted (Reception.fresh.after calls).messageCounterOtherNextExpected
      (Reception.fresh.after calls).pingStats calls accepted := by
  have hr := represents_replay calls
  have hexpected := Reception.expected_fresh_after hlt
  refine ⟨rfl, hexpected, ?_, ?_, ?_, ?_, ha.nodup, ha.result_iff⟩
  · rw [hexpected]
    exact hr.stored
  · rw [hexpected]
    exact hr.position
  · rw [hexpected]
    intro i hlo hhi
    rw [Reception.pingStats_fresh_after, hr.testBit hlo hhi]
    exact ha.result_iff i
  · rw [Reception.pingStats_fresh_after, packetsReceived_replay, ha.count_received]
    exact UInt64.toNat_ofNat_of_lt' (ha.length_le.trans_lt hlt)

namespace Accounted

variable {n n' : UInt64} {t t' : PingStats}

/-- The last result being that of an accepted ping, nobody who accepted it expects less. -/
theorem le_of_last (h : Accounted n t calls accepted) (h' : Accounted n' t' calls' accepted)
    (hlast : (results calls).getLast? = some true) :
    (results calls).length ≤ (results calls').length := by
  rw [List.getLast?_eq_getElem?, h.result, ← h'.result] at hlast
  obtain ⟨hlt, _⟩ := List.getElem?_eq_some_iff.mp hlast
  omega

/-- Who accepted the same pings and recorded nothing after the last of them expects the same
counter and has the same statistics, the packets sent apart. -/
theorem unique (h : Accounted n t calls accepted) (h' : Accounted n' t' calls' accepted)
    (hlast : (results calls).getLast? = some true)
    (hlast' : (results calls').getLast? = some true) :
    n = n' ∧ t' = { t with packetsSent := t'.packetsSent } := by
  have hlen : (results calls).length = (results calls').length :=
    le_antisymm (h.le_of_last h' hlast) (h'.le_of_last h hlast')
  have hresults : results calls = results calls' := by
    apply List.ext_getElem hlen
    intro i hi hi'
    have hiff := (h.result i).trans (h'.result i).symm
    rw [List.getElem?_eq_getElem hi, List.getElem?_eq_getElem hi', Option.some.injEq,
      Option.some.injEq] at hiff
    exact Bool.eq_iff_iff.mpr hiff
  refine ⟨?_, ?_⟩
  · rw [← UInt64.toNat_inj, h.expected, h'.expected, hlen]
  · have hreceived : t'.packetsReceived = t.packetsReceived := by
      rw [← UInt64.toNat_inj, h.received, h'.received]
    have ht := h.replayed.trans (replay_eq calls)
    have ht' := h'.replayed.trans (replay_eq calls')
    rw [← hresults] at ht'
    generalize replay _ = ring at ht ht'
    subst ht ht'
    simpa using hreceived

end Accounted

theorem Party.Run.accounted {Carries : PingStats → PingStats → Prop} {uniqueId : UInt64}
    {log : List (Effect Address)} {q : Party} (h : Run Carries uniqueId fresh log pings q)
    (hlt : (results (Effect.calls uniqueId log)).length < 2 ^ 64) :
    Accounted q.reception.messageCounterOtherNextExpected q.reception.pingStats
      (Effect.calls uniqueId log) (pings.map PingMessage.counter) := by
  rw [h.reception]
  exact (h.accounts hlt).accounted hlt

namespace Server.Recorded

variable {uniqueId : UInt64} {s : Server Address} {log : List (Effect Address)}

theorem mem (h : Recorded uniqueId s log pings) : uniqueId ∈ s.clientInfos := by
  cases h <;> assumption

theorem run (h : Recorded uniqueId s log pings) {c : ClientInfo Address}
    (hc : s.clientInfos[uniqueId]? = some c) :
    Party.Run Eq uniqueId .fresh (about uniqueId log) pings c.party := by
  induction h generalizing c with
  | @registered s e hnew =>
    obtain ⟨_, _, hregister⟩ := step_unknown (e := e) (Std.ExtTreeMap.getElem?_eq_none hnew)
    obtain ⟨now, _, m, _, _, hrecord⟩ := hregister c hc
    rw [hrecord]
    exact .refl
  | step e h _ ih =>
    obtain ⟨c₀, hc₀⟩ := TreeMap.mem_iff_exists.mp h.mem
    rw [about_append]
    exact (ih hc₀).trans (step_run hc₀ hc).1

end Server.Recorded

variable [HostAddress Address]

theorem Client.Recorded.run {c : Client Address} {log : List (Effect Address)}
    (h : Recorded c log pings) :
    Party.Run (fun _ _ => True) c.uniqueId .fresh log pings c.party := by
  induction h with
  | new => exact .refl
  | @step c log pings e h ih =>
    rw [(step_setup e c).uniqueId]
    exact ih.trans (step_run (P := fun _ => True) e trivial)

/-- Over every run the receivers keep exact accounts, as long as the expected counter does not
wrap; which of the two paths marked a missing message leaves no trace in them. -/
theorem reception_accounting :
    (∀ (uniqueId : UInt64) (s : Server Address) (log : List (Effect Address))
        (accepted : List PingMessage) (c : ClientInfo Address),
      Server.Recorded uniqueId s log accepted → s.clientInfos[uniqueId]? = some c →
      (results (Effect.calls uniqueId log)).length < 2 ^ 64 →
      Accounted c.messageCounterOtherNextExpected c.pingStats (Effect.calls uniqueId log)
        (accepted.map PingMessage.counter)) ∧
    (∀ (c : Client Address) (log : List (Effect Address)) (accepted : List PingMessage),
      Client.Recorded c log accepted →
      (results (Effect.calls c.uniqueId log)).length < 2 ^ 64 →
      Accounted c.messageCounterOtherNextExpected c.clientStats (Effect.calls c.uniqueId log)
        (accepted.map PingMessage.counter)) ∧
    (∀ (n n' : UInt64) (t t' : PingStats) (calls calls' : List Call) (accepted : List UInt64),
      Accounted n t calls accepted → Accounted n' t' calls' accepted →
      (results calls).getLast? = some true → (results calls').getLast? = some true →
      n = n' ∧ t' = { t with packetsSent := t'.packetsSent }) := by
  refine ⟨?_, ?_, fun _ _ _ _ _ _ _ h h' => h.unique h'⟩
  · intro uniqueId s log accepted c h hc hlt
    rw [← calls_about] at hlt ⊢
    exact (h.run hc).accounted hlt
  · intro c log accepted h hlt
    exact h.run.accounted hlt

/-- A registration, and a first ping with counter 2. -/
theorem reception_accounting_gap :
    ∃ (s : Server ℕ) (log : List (Effect ℕ)) (c : ClientInfo ℕ),
      Server.Recorded 7 s log [⟨7, 2, .initialized⟩] ∧ s.clientInfos[(7 : UInt64)]? = some c ∧
        Accounted c.messageCounterOtherNextExpected c.pingStats (Effect.calls 7 log) [2] := by
  let registration : Server.Event ℕ := .message 0 0 1 9 (.welcome (.new 7 250))
  let ping : Server.Event ℕ := .message 10 10 1 9 (.ping ⟨7, 2, .initialized⟩)
  have hstays : 7 ∈ ((Server.new.step registration).1.step ping).1.clientInfos := by
    decide +kernel
  have hrecorded : Server.Recorded 7 _ _ [⟨7, 2, .initialized⟩] :=
    .step ping (.registered registration (by decide) (by decide)) hstays
  obtain ⟨c, hc⟩ := TreeMap.mem_iff_exists.mp hstays
  exact ⟨_, _, c, hrecorded, hc,
    reception_accounting.1 7 _ _ _ c hrecorded hc (by decide +kernel)⟩

end PacketLossUtils
