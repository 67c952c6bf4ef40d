import PacketLossUtils.ExpectedCounter
import PacketLossUtils.TimeoutSweep

/-! Clients that ping in time, and the limit after which the server takes a client for dead. -/
namespace PacketLossUtils

open NetworkCore Server

variable {Address : Type} {uniqueId : UInt64} {p : UInt32} {since next limit : ℤ}
  {c c' : ClientInfo Address}

/-! ### The time of the last real message -/

namespace ClientInfo

theorem step_lastReal {e : Event} (he : ∀ now now' counter, e ≠ .receivedPing now now' counter)
    (uniqueId : UInt64) (c : ClientInfo Address) :
    (c.step uniqueId e).1.timeOfLastRealMessageFromOther = c.timeOfLastRealMessageFromOther := by
  cases e with
  | pingTick skipMessage =>
    simp only [step, pingTick]
    split <;> [split; skip] <;> rfl
  | timeoutTick now => exact (timeoutTick_kept now uniqueId c).timeOfLastRealMessageFromOther
  | receivedPing now now' counter => exact absurd rfl (he now now' counter)

end ClientInfo

namespace Server

variable {s : Server Address} {e : Event Address} {events : List (Event Address)}

theorem step_lastReal (hping : NoPing uniqueId e) (hc : s.clientInfos[uniqueId]? = some c)
    (hc' : (s.step e).1.clientInfos[uniqueId]? = some c') :
    c'.timeOfLastRealMessageFromOther = c.timeOfLastRealMessageFromOther := by
  apply step_keeps (P := fun c' => c'.timeOfLastRealMessageFromOther =
    c.timeOfLastRealMessageFromOther) hc hc' rfl
  intro events hhandles x hx c₁ hsame
  rw [← hsame]
  apply ClientInfo.step_lastReal
  rintro now now' counter rfl
  exact hhandles.no_ping hping now now' counter hx

/-- A firing before the limit does not remove the client. -/
theorem stays_of_firesBy {now : ℕ → ℤ} {nowStart : ℤ} (hc : s.clientInfos[uniqueId]? = some c)
    (hfires : ∀ i, now i ≤ limit)
    (hlimit : limit < c.timeOfLastRealMessageFromOther + clientTimeoutMs) :
    uniqueId ∈ (s.step (.timeoutTimer now nowStart)).1.clientInfos := by
  by_contra hgone
  obtain ⟨⟨i, hdead⟩, -⟩ :=
    onTimeoutTimer_gone now nowStart hc (Std.ExtTreeMap.getElem?_eq_none hgone)
  rw [ClientInfo.Dead] at hdead
  have := hfires i
  omega

/-! ### Pings in time -/

/-- The events of a client with the interval `p` that is heard in time: the last of its pings, or
its registration, was at `since`, the next one comes at `next`, and at the end `next` is the time
of the last one. The timeout timer may fire at any time up to the next ping. -/
inductive Punctual (uniqueId : UInt64) (p : UInt32) : ℤ → ℤ → List (Event Address) → Prop
  | done (since : ℤ) : Punctual uniqueId p since since []
  | other {since next : ℤ} {e : Event Address} {rest : List (Event Address)}
      (hping : NoPing uniqueId e) (hfires : FiresBy next e)
      (h : Punctual uniqueId p since next rest) : Punctual uniqueId p since next (e :: rest)
  | ping {since arrival next now now' : ℤ} {address : Address} {port : UInt16} {m : PingMessage}
      {rest : List (Event Address)} (hid : m.uniqueId = uniqueId) (harrival : arrival ≤ now')
      (hnext : next ≤ arrival + p.toNat + maxTimeLateMs)
      (h : Punctual uniqueId p arrival next rest) :
      Punctual uniqueId p since arrival (.message now now' address port (.ping m) :: rest)

theorem Punctual.not_removed (h : Punctual uniqueId p since next events)
    (hp : p.toNat + maxTimeLateMs < clientTimeoutMs)
    (hnext : next ≤ since + p.toNat + maxTimeLateMs) (hc : s.clientInfos[uniqueId]? = some c)
    (hreal : since ≤ c.timeOfLastRealMessageFromOther) {before after : List (Event Address)}
    {now : ℕ → ℤ} {nowStart : ℤ} (hsplit : events = before ++ .timeoutTimer now nowStart :: after)
    (hstays : Stays uniqueId before s) :
    uniqueId ∈
      ((Trace.run step before s).1.step (.timeoutTimer now nowStart)).1.clientInfos := by
  induction h generalizing s c before with
  | done => simp at hsplit
  | @other since next e rest hping hfires h ih =>
    cases before with
    | nil =>
      obtain ⟨rfl, -⟩ := List.cons.inj hsplit
      exact stays_of_firesBy hc hfires (by omega)
    | cons e' before =>
      obtain ⟨rfl, hrest⟩ := List.cons.inj hsplit
      obtain ⟨c', hc'⟩ := TreeMap.mem_iff_exists.mp hstays.1
      have hsame := step_lastReal hping hc hc'
      exact ih hnext hc' (hsame ▸ hreal) hrest hstays.2
  | @ping since arrival next now₁ now' address port m rest hid harrival hnext' h ih =>
    subst hid
    cases before with
    | nil => cases (List.cons.inj hsplit).1
    | cons e' before =>
      obtain ⟨rfl, hrest⟩ := List.cons.inj hsplit
      exact ih hnext' (step_ping _ _ _ _ hc) (harrival.trans_eq (by simp)) hrest hstays.2

/-! ### Registration -/

/-- However a client at this endpoint with the interval `p` registers, and whatever else happens:
while it pings in time, no firing of the timeout timer removes it. -/
def NeverDeclaredDead (address : Address) (port : UInt16) (p : UInt32) : Prop :=
  ∀ (s : Server Address) (now now' next : ℤ) (m : WelcomeMessage) (events : List (Event Address)),
    m.uniqueId ∉ s.clientInfos → m.pingIntervalInMs = p →
    next ≤ now + p.toNat + maxTimeLateMs → Punctual m.uniqueId p now next events →
    ∀ (before after : List (Event Address)) (readings : ℕ → ℤ) (nowStart : ℤ),
      events = before ++ .timeoutTimer readings nowStart :: after →
      Stays m.uniqueId before (s.step (.message now now' address port (.welcome m))).1 →
        m.uniqueId ∈ ((Trace.run step before
          (s.step (.message now now' address port (.welcome m))).1).1.step
            (.timeoutTimer readings nowStart)).1.clientInfos

/-- A firing and a ping, both at the limit. -/
theorem not_neverDeclaredDead (address : Address) (port : UInt16)
    (haccepted : p % baseTimerInterval = 0) (hlong : clientTimeoutMs ≤ p.toNat + maxTimeLateMs) :
    ¬ NeverDeclaredDead address port p := by
  intro h
  have hreg := step_welcome 0 0 address port (s := .new) (m := .new 7 p) (by simp [Server.new])
    haccepted
  have hpunctual : Punctual 7 p 0 clientTimeoutMs
      [.timeoutTimer (fun _ => clientTimeoutMs) 0,
        .message clientTimeoutMs clientTimeoutMs address port (.ping ⟨7, 0, .initialized⟩)] := by
    have htolerance : (0 : ℤ) ≤ maxTimeLateMs := by decide
    refine .other (by simp [NoPing]) (fun _ => le_rfl) (.ping rfl le_rfl ?_ (.done _))
    omega
  have hstays := h .new 0 0 clientTimeoutMs (.new 7 p) _ (by simp [Server.new]) rfl (by omega)
    hpunctual [] _ _ _ rfl trivial
  have halive := alive_of_stays hreg hstays
  exact halive (le_refl clientTimeoutMs)

/-- Every interval that the server accepts is safe, up to the limit less the tolerance. -/
theorem neverDeclaredDead_iff (address : Address) (port : UInt16)
    (haccepted : p % baseTimerInterval = 0) :
    NeverDeclaredDead address port p ↔ p.toNat + maxTimeLateMs < clientTimeoutMs := by
  constructor
  · intro h
    by_contra hlong
    exact not_neverDeclaredDead address port haccepted (not_lt.mp hlong) h
  · intro hp s now now' next m events hnew hinterval hnext hpunctual before after readings nowStart
      hsplit hstays
    subst hinterval
    have hreg := step_welcome now now' address port hnew haccepted
    exact hpunctual.not_removed hp hnext hreg le_rfl hsplit hstays

/-- The least interval there is. -/
theorem neverDeclaredDead_iff_baseTimerInterval :
    NeverDeclaredDead (1 : ℕ) 9 250 ↔
      ((250 : UInt32).toNat : ℤ) + maxTimeLateMs < clientTimeoutMs :=
  neverDeclaredDead_iff 1 9 (by decide)

/-- One minute is accepted as an interval, and a client that pings once a minute is removed. -/
theorem not_neverDeclaredDead_minute : ¬ NeverDeclaredDead (1 : ℕ) 9 60000 :=
  not_neverDeclaredDead 1 9 (by decide) (by decide)

end Server

end PacketLossUtils
