import PacketLossUtils.EffectLog
import PacketLossUtils.ReceptionHistory

/-! One side of the exchange, client or server alike: it numbers the pings it builds and
keeps account of those it receives. -/
namespace PacketLossUtils

open Effect PingStats

structure Party where
  messageCounter : UInt64
  reception : Reception

namespace Party

variable {Address : Type}

def fresh : Party := ⟨0, .fresh⟩

/-- What a party can do in one go, with the effects and the pings it accepts. The statistics
a ping carries are tied to its own by `Carries`. -/
inductive Step (Carries : PingStats → PingStats → Prop) (uniqueId : UInt64) :
    Party → List (Effect Address) → List PingMessage → Party → Prop
  | written (n : UInt64) (r : Reception) {payload : PingStats} (address : Address)
      (port : UInt16) (hcarries : Carries r.pingStats payload) :
      Step Carries uniqueId ⟨n, r⟩
        [.writeDatagram (.ping ⟨uniqueId, n, payload⟩) address port,
          .pingStats uniqueId .addPacketSent] []
        ⟨n + 1, r.messageCounterOtherNextExpected, r.pingStats.addPacketSent⟩
  | skipped (n : UInt64) (r : Reception) {payload : PingStats}
      (hcarries : Carries r.pingStats payload) :
      Step Carries uniqueId ⟨n, r⟩ [.skipPing ⟨uniqueId, n, payload⟩] [] ⟨n + 1, r⟩
  | lost (n : UInt64) (r : Reception) :
      Step Carries uniqueId ⟨n, r⟩ (r.markLost.2.map (.pingStats uniqueId)) []
        ⟨n, r.markLost.1⟩
  | seen (n : UInt64) (r : Reception) {m : PingMessage}
      (hseen : ¬ r.messageCounterOtherNextExpected > m.counter) :
      Step Carries uniqueId ⟨n, r⟩ ((r.markSeen m.counter).2.map (.pingStats uniqueId)) [m]
        ⟨n, (r.markSeen m.counter).1⟩
  | other (p : Party) {e : Effect Address} (hbuilt : e.builtPing = none) (hcall : e.call = none) :
      Step Carries uniqueId p [e] [] p

/-- Any number of steps. -/
inductive Run (Carries : PingStats → PingStats → Prop) (uniqueId : UInt64) (p : Party) :
    List (Effect Address) → List PingMessage → Party → Prop
  | refl : Run Carries uniqueId p [] [] p
  | tail {q r : Party} {log log' : List (Effect Address)} {accepted accepted' : List PingMessage} :
      Run Carries uniqueId p log accepted q → Step Carries uniqueId q log' accepted' r →
      Run Carries uniqueId p (log ++ log') (accepted ++ accepted') r

variable {Carries : PingStats → PingStats → Prop} {uniqueId : UInt64} {p q r : Party}
  {log log' : List (Effect Address)} {accepted accepted' : List PingMessage}

theorem Step.run (h : Step Carries uniqueId p log accepted q) :
    Run Carries uniqueId p log accepted q := by
  simpa using Run.refl.tail h

theorem Run.trans (h : Run Carries uniqueId p log accepted q)
    (h' : Run Carries uniqueId q log' accepted' r) :
    Run Carries uniqueId p (log ++ log') (accepted ++ accepted') r := by
  induction h' with
  | refl => simpa using h
  | tail _ hstep ih => simpa only [List.append_assoc] using ih.tail hstep

theorem Run.quiet (hquiet : ∀ e ∈ log, e.builtPing = none ∧ e.call = none) :
    Run Carries uniqueId p log [] p := by
  induction log with
  | nil => exact .refl
  | cons e log ih =>
    obtain ⟨hbuilt, hcall⟩ := hquiet e (by simp)
    exact (Step.other p hbuilt hcall).run.trans (ih fun x hx => hquiet x (by simp [hx]))

/-! ### The reception -/

theorem Step.reception (h : Step Carries uniqueId p log accepted q) :
    q.reception = p.reception.after (calls uniqueId log) := by
  cases h with
  | written n r address port => simp [Reception.after, apply]
  | skipped n r => simp
  | lost n r => simp only [calls_map_pingStats, Reception.markLost_after]
  | seen n r => simp only [calls_map_pingStats, Reception.markSeen_after]
  | other p hbuilt hcall =>
    rw [calls_eq_nil (List.forall_mem_singleton.mpr hcall), Reception.after_nil]

theorem Run.reception (h : Run Carries uniqueId p log accepted q) :
    q.reception = p.reception.after (calls uniqueId log) := by
  induction h with
  | refl => simp
  | tail _ hstep ih => rw [hstep.reception, ih, calls_append, Reception.after_append]

/-- With a counter that has not wrapped, every step is one of the account. -/
theorem Step.accounts (h : Step Carries uniqueId p log' accepted' q) {calls : List Call}
    (ha : Accounts calls (accepted.map PingMessage.counter))
    (hp : p.reception = Reception.fresh.after calls) (hlt : (results calls).length < 2 ^ 64) :
    Accounts (calls ++ Effect.calls uniqueId log')
      ((accepted ++ accepted').map PingMessage.counter) := by
  cases h with
  | written n r address port => simpa using ha.sent
  | skipped n r => simpa using ha
  | lost n r =>
    rw [calls_map_pingStats, List.append_nil]
    exact ha.lost
  | @seen n r m hseen =>
    obtain rfl : r = Reception.fresh.after calls := hp
    have hexpected := Reception.expected_fresh_after hlt
    have hle := UInt64.le_iff_toNat_le.mp (UInt64.not_lt.mp hseen)
    rw [hexpected] at hle
    have hmark := Reception.markSeen_calls m.counter (Reception.fresh.after calls)
    rw [hexpected] at hmark
    rw [calls_map_pingStats, hmark, List.map_append]
    exact ha.seen hle
  | other p hbuilt hcall => simpa [calls_eq_nil (List.forall_mem_singleton.mpr hcall)] using ha

theorem Run.accounts (h : Run Carries uniqueId fresh log accepted q)
    (hlt : (results (calls uniqueId log)).length < 2 ^ 64) :
    Accounts (calls uniqueId log) (accepted.map PingMessage.counter) := by
  induction h with
  | refl => exact .start
  | tail hrun hstep ih =>
    rw [calls_append, results_append, List.length_append] at hlt
    rw [calls_append]
    exact hstep.accounts (ih (by omega)) hrun.reception (by omega)

/-! ### The pings -/

/-- The pings a party builds carry consecutive numbers, and its counter the next one. -/
structure Numbered (messageCounter : UInt64) (pings : List PingMessage) : Prop where
  next : messageCounter = UInt64.ofNat pings.length
  counters : pings.map PingMessage.counter = (List.range pings.length).map UInt64.ofNat

theorem Numbered.push {n : UInt64} {pings : List PingMessage} {payload : PingStats}
    (h : Numbered n pings) : Numbered (n + 1) (pings ++ [⟨uniqueId, n, payload⟩]) where
  next := by
    rw [h.next]
    simp [UInt64.ofNat_add]
  counters := by
    rw [List.map_append, h.counters, List.length_append, List.length_singleton, List.range_succ,
      List.map_append, h.next]
    rfl

theorem Step.numbered (h : Step Carries uniqueId p log' accepted' q) {pings : List PingMessage}
    (hp : Numbered p.messageCounter pings) :
    Numbered q.messageCounter (pings ++ built uniqueId log') := by
  cases h with
  | written n r address port => simpa using hp.push
  | skipped n r => simpa using hp.push
  | lost n r => simpa using hp
  | seen n r => simpa using hp
  | other p hbuilt => simpa [built_eq_nil (List.forall_mem_singleton.mpr hbuilt)] using hp

theorem Run.numbered (h : Run Carries uniqueId fresh log accepted q) :
    Numbered q.messageCounter (built uniqueId log) := by
  induction h with
  | refl => exact ⟨rfl, rfl⟩
  | tail _ hstep ih =>
    rw [built_append]
    exact hstep.numbered ih

/-- Every ping written is counted as sent. -/
theorem Run.count_sent (h : Run Carries uniqueId p log accepted q) :
    (calls uniqueId log).count .addPacketSent = (written uniqueId log).length := by
  induction h with
  | refl => rfl
  | tail _ hstep ih =>
    rw [calls_append, List.count_append, ih, written_append, List.length_append]
    congr 1
    cases hstep with
    | written n r address port => simp
    | skipped n r => simp
    | lost n r => simp [Reception.markLost]
    | seen n r =>
      rw [calls_map_pingStats, written_map_pingStats, Reception.markSeen_calls]
      simp [List.count_replicate]
    | other p hbuilt hcall =>
      rw [calls_eq_nil (List.forall_mem_singleton.mpr hcall),
        written_eq_nil (List.forall_mem_singleton.mpr hbuilt)]
      rfl

/-- A ping is built from the statistics as they stand before the step. -/
theorem Step.carries (h : Step Carries uniqueId p log accepted q)
    {before later : List (Effect Address)} {e : Effect Address} {m : PingMessage}
    (hlog : log = before ++ e :: later) (he : e.builtPing = some m) :
    calls uniqueId before = [] ∧ Carries p.reception.pingStats m.pingStats := by
  have hcalls : ∀ cs : List Call,
      cs.map (pingStats uniqueId : Call → Effect Address) ≠ before ++ e :: later := by
    intro cs hcs
    have hmem : e ∈ cs.map (pingStats uniqueId : Call → Effect Address) := by simp [hcs]
    obtain ⟨c, _, rfl⟩ := List.mem_map.mp hmem
    simp [builtPing] at he
  cases h with
  | written n r address port hcarries =>
    rcases List.cons_eq_append_iff.mp hlog with ⟨rfl, hcons⟩ | ⟨rest, rfl, hrest⟩
    · obtain ⟨rfl, _⟩ := List.cons.inj hcons
      obtain rfl := Option.some.inj he
      exact ⟨rfl, hcarries⟩
    · obtain ⟨rfl, hcons⟩ | ⟨rest', rfl, hrest'⟩ := List.cons_eq_append_iff.mp hrest
      · obtain ⟨rfl, _⟩ := List.cons.inj hcons
        simp [builtPing] at he
      · simp at hrest'
  | skipped n r hcarries =>
    rcases List.cons_eq_append_iff.mp hlog with ⟨rfl, hcons⟩ | ⟨rest, rfl, hrest⟩
    · obtain ⟨rfl, _⟩ := List.cons.inj hcons
      obtain rfl := Option.some.inj he
      exact ⟨rfl, hcarries⟩
    · simp at hrest
  | lost n r => exact (hcalls _ hlog).elim
  | seen n r => exact (hcalls _ hlog).elim
  | other p hbuilt =>
    rcases List.cons_eq_append_iff.mp hlog with ⟨rfl, hcons⟩ | ⟨rest, rfl, hrest⟩
    · obtain ⟨rfl, _⟩ := List.cons.inj hcons
      simp [hbuilt] at he
    · simp at hrest

/-- Whenever a ping was built, it carries what `Carries` ties to the statistics replayed up to
that moment. -/
theorem Run.carries (h : Run Carries uniqueId fresh log accepted q)
    {before later : List (Effect Address)} {e : Effect Address} {m : PingMessage}
    (hlog : log = before ++ e :: later) (he : e.builtPing = some m) :
    Carries (replay (calls uniqueId before)) m.pingStats := by
  induction h generalizing later with
  | refl => simp at hlog
  | tail hrun hstep ih =>
    rcases List.append_eq_append_iff.mp hlog with ⟨mid, rfl, hmid⟩ | ⟨mid, rfl, hmid⟩
    · obtain ⟨hnone, hcarries⟩ := hstep.carries hmid he
      rw [hrun.reception] at hcarries
      rw [calls_append, hnone, List.append_nil]
      exact hcarries
    · rcases List.cons_eq_append_iff.mp hmid with ⟨rfl, hcons⟩ | ⟨rest, rfl, _⟩
      · obtain ⟨_, hcarries⟩ := hstep.carries (hcons.trans (List.nil_append _).symm) he
        rw [hrun.reception, List.append_nil] at hcarries
        exact hcarries
      · exact ih rfl

end Party

end PacketLossUtils
