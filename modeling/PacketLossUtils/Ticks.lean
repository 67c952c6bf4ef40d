import PacketLossUtils.ServerRecord

/-! The pings a client gets from one firing of the server's base timer. -/
namespace PacketLossUtils

open Effect

variable {Address : Type} {uniqueId : UInt64} {k n n' b b' : ℕ} {skipMessage : Bool}
  {c c' c'' : ClientInfo Address} {log log' : List (Effect Address)}

namespace ClientInfo

/-- A record with an interval of `k` base ticks, of which `intervalCounter` have passed. -/
structure Ticking (k : ℕ) (c : ClientInfo Address) : Prop where
  interval : c.interval.toNat = 250 * k
  intervalCounter : c.intervalCounter.toNat < k

/-- `n` base ticks with one answer to whether the timer was late: `b` intervals are completed,
and a ping is built for each. -/
structure Advances (k : ℕ) (skipMessage : Bool) (uniqueId : UInt64) (n b : ℕ)
    (c c' : ClientInfo Address) (log : List (Effect Address)) : Prop where
  ticking : Ticking k c'
  intervalCounter : c'.intervalCounter.toNat + k * b = c.intervalCounter.toNat + n
  messageCounter : c'.messageCounter = c.messageCounter + UInt64.ofNat b
  fates : fates uniqueId log = List.replicate b (!skipMessage)
  written : (written uniqueId log).map PingMessage.counter =
    if skipMessage then [] else (List.range b).map fun j => c.messageCounter + UInt64.ofNat j

theorem Ticking.advances_refl (h : Ticking k c) : Advances k skipMessage uniqueId 0 0 c c [] where
  ticking := h
  intervalCounter := by simp
  messageCounter := by simp
  fates := rfl
  written := by simp

theorem Advances.trans (h : Advances k skipMessage uniqueId n b c c' log)
    (h' : Advances k skipMessage uniqueId n' b' c' c'' log') :
    Advances k skipMessage uniqueId (n + n') (b + b') c c'' (log ++ log') where
  ticking := h'.ticking
  intervalCounter := by
    have h₁ := h.intervalCounter
    have h₂ := h'.intervalCounter
    rw [Nat.mul_add]
    omega
  messageCounter := by
    rw [h'.messageCounter, h.messageCounter, UInt64.ofNat_add, UInt64.add_assoc]
  fates := by rw [fates_append, h.fates, h'.fates, List.replicate_append_replicate]
  written := by
    rw [written_append, List.map_append, h.written, h'.written, h.messageCounter]
    split
    · rfl
    · rw [List.range_add, List.map_append, List.map_map]
      simp [Function.comp_def, UInt64.ofNat_add, UInt64.add_assoc]

/-- The product of the comparison does not wrap, as it is at most the interval. -/
theorem Ticking.tick_complete (h : Ticking k c) :
    (c.intervalCounter + 1) * Server.baseTimerInterval ≥ c.interval ↔
      c.intervalCounter.toNat + 1 = k := by
  have hinterval := h.interval
  have hcounter := h.intervalCounter
  have hbound := c.interval.toNat_lt
  rw [ge_iff_le, UInt32.le_iff_toNat_le, hinterval, UInt32.toNat_mul, UInt32.toNat_add,
    Server.baseTimerInterval]
  simp only [UInt32.reduceToNat]
  rw [Nat.mod_eq_of_lt (a := c.intervalCounter.toNat + 1) (by omega), Nat.mod_eq_of_lt (by omega)]
  omega

theorem Ticking.pingTick (h : Ticking k c) (skipMessage : Bool) (uniqueId : UInt64) :
    ∃ b, Advances k skipMessage uniqueId 1 b c (c.pingTick skipMessage uniqueId).1
      (c.pingTick skipMessage uniqueId).2 := by
  have hinterval := h.interval
  have hcounter := h.intervalCounter
  have hbound := c.interval.toNat_lt
  have hnext : (c.intervalCounter + 1).toNat = c.intervalCounter.toNat + 1 := by
    simp only [UInt32.toNat_add, UInt32.reduceToNat]
    omega
  by_cases hfull : c.intervalCounter.toNat + 1 = k
  · have hif := h.tick_complete.mpr hfull
    refine ⟨1, ?_⟩
    cases skipMessage with
    | true =>
      simp only [ClientInfo.pingTick, if_pos hif]
      exact ⟨⟨hinterval, by simp; omega⟩, by simp; omega, rfl, by simp, by simp⟩
    | false =>
      simp only [ClientInfo.pingTick, if_pos hif]
      exact ⟨⟨hinterval, by simp; omega⟩, by simp; omega, rfl, by simp, by simp⟩
  · have hif := h.tick_complete.not.mpr hfull
    refine ⟨0, ?_⟩
    simp only [ClientInfo.pingTick, if_neg hif]
    exact ⟨⟨hinterval, by simp only [hnext]; omega⟩, by simp only [hnext]; omega, by simp, rfl,
      by simp⟩

theorem Ticking.pingTicks (h : Ticking k c) (skipMessage : Bool) (uniqueId : UInt64) (n : ℕ) :
    let out := Trace.run (step uniqueId) (List.replicate n (.pingTick skipMessage)) c
    ∃ b, Advances k skipMessage uniqueId n b c out.1 out.2 := by
  induction n generalizing c with
  | zero => exact ⟨0, h.advances_refl⟩
  | succ n ih =>
    obtain ⟨b, hfirst⟩ := h.pingTick skipMessage uniqueId
    obtain ⟨b', hrest⟩ := ih hfirst.ticking
    rw [List.replicate_succ, Trace.run_cons, Nat.add_comm n 1]
    exact ⟨b + b', hfirst.trans hrest⟩

end ClientInfo

namespace Server

variable {s : Server Address}

theorem nextPingTime_onPingTimer (now : ℤ) (s : Server Address) :
    (s.onPingTimer now).1.nextPingTime = now + 250 := by
  have hrounds : ∀ (late : Bool) (rounds : List ℕ) (s : Server Address),
      s.nextPingTime = now + 250 →
        (Trace.run (fun _ => pingRound now late) rounds s).1.nextPingTime = now + 250 := by
    intro late rounds
    induction rounds with
    | nil => exact fun s h => h
    | cons i rounds ih => exact fun s _ => ih _ rfl
  rw [onPingTimer, numPingsMissed, List.range_succ_eq_map, Trace.run_cons]
  exact hrounds _ _ (pingRound now _ s).1 rfl

/-- What one firing does for a registered client. -/
theorem onPingTimer_advances (now : ℤ) (hc : s.clientInfos[uniqueId]? = some c)
    (h : ClientInfo.Ticking k c) :
    ∃ c' b, (s.onPingTimer now).1.clientInfos[uniqueId]? = some c' ∧
      ClientInfo.Advances k (Server.skipMessage now s.nextPingTime) uniqueId
        (numPingsMissed now s.nextPingTime) b c c' (s.onPingTimer now).2 := by
  obtain ⟨hentry, habout⟩ := onPingTimer_entry now hc
  obtain ⟨b, hadvances⟩ := h.pingTicks (Server.skipMessage now s.nextPingTime) uniqueId
    (numPingsMissed now s.nextPingTime)
  refine ⟨_, b, hentry, { hadvances with fates := ?_, written := ?_ }⟩
  · rw [← fates_about, habout]
    exact hadvances.fates
  · rw [← written_about, habout]
    exact hadvances.written

end Server

end PacketLossUtils
