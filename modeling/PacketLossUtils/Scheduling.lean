import PacketLossUtils.Conservation
import PacketLossUtils.Ticks
import PacketLossUtils.TimeoutSweep

/-! The pings of a registered client against the number of base ticks since it registered. -/
namespace PacketLossUtils

open Effect

variable {Address : Type} {uniqueId : UInt64} {m K : ℕ} {c c' : ClientInfo Address}

namespace ClientInfo

/-- What only a base tick changes in a record. -/
structure SamePhase (c c' : ClientInfo Address) : Prop where
  interval : c'.interval = c.interval
  intervalCounter : c'.intervalCounter = c.intervalCounter

theorem SamePhase.trans {c'' : ClientInfo Address} (h : SamePhase c c') (h' : SamePhase c' c'') :
    SamePhase c c'' :=
  ⟨h'.interval.trans h.interval, h'.intervalCounter.trans h.intervalCounter⟩

theorem step_samePhase {e : Event} (he : ∀ skipMessage, e ≠ .pingTick skipMessage)
    (c : ClientInfo Address) : SamePhase c (c.step uniqueId e).1 := by
  cases e with
  | pingTick skipMessage => exact absurd rfl (he skipMessage)
  | timeoutTick now =>
    have hkept := timeoutTick_kept now uniqueId c
    exact ⟨hkept.interval, hkept.intervalCounter⟩
  | receivedPing now now' counter =>
    rw [step, receivedPing]
    split <;> exact ⟨rfl, rfl⟩

theorem pingTick_interval (skipMessage : Bool) (uniqueId : UInt64) (c : ClientInfo Address) :
    (c.pingTick skipMessage uniqueId).1.interval = c.interval := by
  simp only [pingTick]
  split <;> [split; skip] <;> rfl

theorem step_interval (uniqueId : UInt64) (e : Event) (c : ClientInfo Address) :
    (c.step uniqueId e).1.interval = c.interval := by
  by_cases he : ∃ skipMessage, e = .pingTick skipMessage
  · obtain ⟨skipMessage, rfl⟩ := he
    exact pingTick_interval skipMessage uniqueId c
  · have hsame : SamePhase c (c.step uniqueId e).1 :=
      step_samePhase (fun skipMessage h => he ⟨skipMessage, h⟩) c
    exact hsame.interval

theorem Ticking.samePhase (h : Ticking m c) (hsame : SamePhase c c') : Ticking m c' where
  interval := by rw [hsame.interval, h.interval]
  intervalCounter := by rw [hsame.intervalCounter]; exact h.intervalCounter

end ClientInfo

namespace Server

variable {s : Server Address} {e : Event Address} {log : List (Effect Address)}

/-- The rounds a firing of the ping timer makes up for. -/
def baseTicks (e : Event Address) (s : Server Address) : ℕ :=
  match e with
  | .pingTimer now => numPingsMissed now s.nextPingTime
  | _ => 0

/-- The base ticks and the effects of a run, from the step that registers the client for as long
as it stays registered. -/
inductive Ticked (uniqueId : UInt64) : Server Address → ℕ → List (Effect Address) → Prop
  | registered {s : Server Address} (e : Event Address) (hnew : uniqueId ∉ s.clientInfos)
      (hregistered : uniqueId ∈ (s.step e).1.clientInfos) : Ticked uniqueId (s.step e).1 0 []
  | step {s : Server Address} {K : ℕ} {log : List (Effect Address)} (e : Event Address)
      (h : Ticked uniqueId s K log) (hstays : uniqueId ∈ (s.step e).1.clientInfos) :
      Ticked uniqueId (s.step e).1 (K + baseTicks e s) (log ++ (s.step e).2)

theorem Ticked.recorded (h : Ticked uniqueId s K log) :
    ∃ accepted, Recorded uniqueId s log accepted := by
  induction h with
  | registered e hnew hregistered => exact ⟨[], .registered e hnew hregistered⟩
  | step e _ hstays ih =>
    obtain ⟨accepted, hrecorded⟩ := ih
    exact ⟨_, hrecorded.step e hstays⟩

theorem step_samePhase (he : ∀ now, e ≠ .pingTimer now) (hc : s.clientInfos[uniqueId]? = some c)
    (hc' : (s.step e).1.clientInfos[uniqueId]? = some c') : c.SamePhase c' := by
  apply step_keeps (P := c.SamePhase) hc hc' ⟨rfl, rfl⟩
  intro events hhandles x hx c₁ hsame
  refine hsame.trans (ClientInfo.step_samePhase ?_ c₁)
  rintro skipMessage rfl
  obtain ⟨now, _, htimer, _⟩ | ⟨_, _, _, _, hx⟩ | ⟨_, _, _, _, _, _, _, hx⟩ := hhandles.of_mem hx
  · exact he now htimer
  · cases hx
  · cases hx

theorem step_interval (hc : s.clientInfos[uniqueId]? = some c)
    (hc' : (s.step e).1.clientInfos[uniqueId]? = some c') : c'.interval = c.interval := by
  apply step_keeps (P := fun c' => c'.interval = c.interval) hc hc' rfl
  intro events _ x _ c₁ hsame
  exact (ClientInfo.step_interval uniqueId x c₁).trans hsame

/-- The phase of a client: `K` base ticks have completed as many intervals as pings were built,
and `intervalCounter` counts those of the interval under way. -/
structure Phase (uniqueId : UInt64) (m K : ℕ) (log : List (Effect Address))
    (c : ClientInfo Address) : Prop where
  ticking : c.Ticking m
  ticks : c.intervalCounter.toNat + m * (built uniqueId log).length = K

theorem Phase.step (h : Phase uniqueId m K log c) (hc : s.clientInfos[uniqueId]? = some c)
    (hc' : (s.step e).1.clientInfos[uniqueId]? = some c') :
    Phase uniqueId m (K + baseTicks e s) (log ++ (s.step e).2) c' := by
  by_cases he : ∃ now, e = .pingTimer now
  · obtain ⟨now, rfl⟩ := he
    obtain ⟨c₁, b, hc₁, hadvances⟩ := onPingTimer_advances now hc h.ticking
    obtain rfl := Option.some.inj (hc₁.symm.trans hc')
    have hbuilt : (built uniqueId (s.onPingTimer now).2).length = b := by
      rw [← length_fates, hadvances.fates, List.length_replicate]
    refine ⟨hadvances.ticking, ?_⟩
    have hticks := h.ticks
    have hcounter := hadvances.intervalCounter
    rw [built_append, List.length_append, Nat.mul_add, baseTicks, Server.step, hbuilt]
    omega
  · have hother : ∀ now, e ≠ .pingTimer now := fun now hnow => he ⟨now, hnow⟩
    have hsame := step_samePhase hother hc hc'
    have hnone : baseTicks e s = 0 := by
      cases e with
      | pingTimer now => exact absurd rfl (hother now)
      | _ => rfl
    refine ⟨h.ticking.samePhase hsame, ?_⟩
    rw [built_append, built_eq_nil (no_ping_step hother), List.append_nil, hnone,
      hsame.intervalCounter]
    exact h.ticks

theorem Ticked.phase (h : Ticked uniqueId s K log) (hc : s.clientInfos[uniqueId]? = some c)
    (hinterval : c.interval.toNat = 250 * m) (hm : 1 ≤ m) : Phase uniqueId m K log c := by
  induction h generalizing c with
  | @registered s e hnew =>
    obtain ⟨_, _, hregister⟩ := step_unknown (e := e) (Std.ExtTreeMap.getElem?_eq_none hnew)
    obtain ⟨now, _, welcome, _, _, hrecord⟩ := hregister c hc
    have hcounter : c.intervalCounter = 0 := by rw [hrecord]; rfl
    refine ⟨⟨hinterval, ?_⟩, ?_⟩
    · rw [hcounter]
      exact hm
    · rw [hcounter]
      rfl
  | @step s K log e h _ ih =>
    obtain ⟨_, hrecorded⟩ := h.recorded
    obtain ⟨c₀, hc₀⟩ := TreeMap.mem_iff_exists.mp hrecorded.mem
    exact (ih hc₀ (by rw [← step_interval hc₀ hc, hinterval])).step hc₀ hc

/-- After `K` base ticks a client with an interval of `m` of them is where it should be. -/
structure OnSchedule (uniqueId : UInt64) (m K : ℕ) (s : Server Address)
    (log : List (Effect Address)) (c : ClientInfo Address) : Prop where
  messageCounter : c.messageCounter.toNat = K / m
  intervalCounter : c.intervalCounter.toNat = K % m
  /-- No round of a firing computes a product that wraps. -/
  noWrap : ∀ (now : ℤ) (late : Bool) (rounds : List ℕ) (c' : ClientInfo Address),
    (Trace.run (fun _ => pingRound now late) rounds s).1.clientInfos[uniqueId]? = some c' →
      (c'.intervalCounter.toNat + 1) * baseTimerInterval.toNat < 2 ^ 32
  /-- Each number below the counter has been used by one ping. -/
  used : ((written uniqueId log ++ skipped uniqueId log).map fun p => p.counter.toNat).Perm
    (List.range (K / m))
  increasing : ((written uniqueId log).map fun p => p.counter.toNat).Pairwise (· < ·)
  packetsSent : c.pingStats.packetsSent.toNat = (written uniqueId log).length

theorem Phase.noWrap (h : Phase uniqueId m K log c) (hc : s.clientInfos[uniqueId]? = some c)
    (now : ℤ) (late : Bool) (rounds : List ℕ)
    (hc' : (Trace.run (fun _ => pingRound now late) rounds s).1.clientInfos[uniqueId]? =
      some c') : (c'.intervalCounter.toNat + 1) * baseTimerInterval.toNat < 2 ^ 32 := by
  have hentry := (run_pingRound now late rounds hc).1
  rw [List.map_const'] at hentry
  obtain rfl := Option.some.inj (hentry.symm.trans hc')
  obtain ⟨_, hadvances⟩ := h.ticking.pingTicks late uniqueId rounds.length
  obtain ⟨hinterval, hcounter⟩ := hadvances.ticking
  have hbound := UInt32.toNat_lt (Trace.run (ClientInfo.step uniqueId)
    (List.replicate rounds.length (.pingTick late)) c).1.interval
  rw [show baseTimerInterval.toNat = 250 from rfl]
  omega

/-- The number of base ticks decides which pings a client has got, whatever the clock readings,
the other clients and the rest of the traffic. -/
theorem pings_onSchedule {s : Server Address} (h : Ticked uniqueId s K log)
    (hc : s.clientInfos[uniqueId]? = some c) (hinterval : c.interval.toNat = 250 * m)
    (hm : 1 ≤ m) (hK : K < 2 ^ 64) : OnSchedule uniqueId m K s log c := by
  have hphase := h.phase hc hinterval hm
  obtain ⟨accepted, hrecorded⟩ := h.recorded
  have hrun := hrecorded.run hc
  have hnumbered := hrun.numbered
  rw [built_about] at hnumbered
  obtain ⟨hquotient, hremainder⟩ := (Nat.div_mod_unique hm).mpr
    ⟨hphase.ticks, hphase.ticking.intervalCounter⟩
  have hlt : (built uniqueId log).length < 2 ^ 64 := by
    rw [← hquotient]
    exact (Nat.div_le_self K m).trans_lt hK
  have hcounters := hnumbered.toNat_counters hlt
  have hsent := hrun.packetsSent (by rwa [built_about])
  rw [written_about] at hsent
  refine ⟨?_, hremainder.symm, ?_, ?_, ?_, hsent⟩
  · rw [hquotient]
    exact hnumbered.toNat_next hlt
  · intro now late rounds c' hc'
    exact hphase.noWrap hc now late rounds hc'
  · rw [hquotient, ← hcounters]
    exact (written_append_skipped_perm uniqueId log).map _
  · have hsublist := (written_sublist_built uniqueId log).map fun p => p.counter.toNat
    rw [hcounters] at hsublist
    exact List.pairwise_lt_range.sublist hsublist

/-- An interval of two base ticks, and a firing three ticks late: one ping is skipped. -/
theorem pings_onSchedule_late :
    ∃ (s : Server ℕ) (log : List (Effect ℕ)) (c : ClientInfo ℕ),
      Ticked 7 s 3 log ∧ s.clientInfos[(7 : UInt64)]? = some c ∧
        OnSchedule 7 2 3 s log c := by
  let registration : Event ℕ := .message 0 0 1 9 (.welcome (.new 7 500))
  let s : Server ℕ := ((Server.new.step registration).1.step (.pingTimer 750)).1
  have hregistered : Ticked (7 : UInt64) (Server.new.step registration).1 0 [] :=
    .registered registration (by decide) (by decide)
  have hstays : (7 : UInt64) ∈ s.clientInfos := by decide +kernel
  have hinterval : s.clientInfos[(7 : UInt64)]?.map (fun c => c.interval.toNat) = some 500 := by
    decide +kernel
  obtain ⟨c, hc⟩ := TreeMap.mem_iff_exists.mp hstays
  rw [hc] at hinterval
  have hticks : baseTicks (.pingTimer 750) (Server.new.step registration).1 = 3 := by
    decide +kernel
  have hticked := hregistered.step (.pingTimer 750) hstays
  rw [hticks] at hticked
  exact ⟨s, _, c, hticked, hc,
    pings_onSchedule hticked hc (Option.some.inj hinterval) (by decide) (by decide)⟩

end Server

end PacketLossUtils
