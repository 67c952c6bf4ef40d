import PacketLossUtils.Downlink

/-! A server whose timer may be late, and a lossless network: which pings the client accepts. -/
namespace PacketLossUtils.Downlink

open Effect NetworkCore PingStats Relation Watchdog

variable {Address : Type} [HostAddress Address] {u v : Downlink Address} {k lost : ℕ}
  {delay now a : ℤ} {outcome outcome' : List Bool} {c : ClientInfo Address} {m : PingMessage}
  {rest : List (PingMessage × ℤ)} {Admits : Downlink Address → ℤ → Prop}

/-- Whatever state a run has reached, the next ping comes without a loss. -/
def KeepsAll (Admits : Downlink Address → ℤ → Prop) (delay : ℤ) (u : Downlink Address) : Prop :=
  ∀ v, ReflTransGen (Step Admits delay) u v → ∀ m arrival rest,
    v.inFlight = (m, arrival) :: rest → v.clock ≤ arrival → v.Lossless m arrival rest

theorem keepsAll_of_inTime (h : Start u) (hin : ∀ u now, Admits u now → u.InTime delay now) :
    KeepsAll Admits delay u := by
  intro v hrun m arrival rest hflight hclock
  obtain ⟨k, c, hk, -, hinv⟩ := h.inv
  obtain ⟨outcome, outcome', c, hinv⟩ := hinv.of_run hin hk hrun
  exact (hinv.deliver hk hflight hclock).1

/-! ### Pings after the deadline -/

/-- A client that looks for timeouts often enough marks as lost whatever is due. -/
theorem misses (Admits : Downlink Address → ℤ → Prop) (delay : ℤ) (d : ℕ)
    (hsince : u.since = some a) (hclock : u.clock ≤ now)
    (hlast : u.client.timeOfLastMessageFromOther = a + u.client.interval.toNat * lost)
    (hresults : results u.calls = outcome ++ List.replicate lost false)
    (hlate : 0 < d → a + u.client.interval.toNat * (lost + d) + maxTimeLateMs < now) :
    ∃ v, ReflTransGen (Step Admits delay) u v ∧ v.inFlight = u.inFlight ∧ v.fates = u.fates ∧
      v.clock ≤ now ∧ results v.calls = outcome ++ List.replicate (lost + d) false := by
  induction d generalizing u lost with
  | zero => exact ⟨u, .refl, rfl, rfl, hclock, hresults⟩
  | succ d ih =>
    have hdue : a + u.client.interval.toNat * (lost + (d + 1 : ℕ)) + maxTimeLateMs < now :=
      hlate (Nat.succ_pos d)
    have hmore : (u.client.interval.toNat : ℤ) * (lost + 1) ≤
        u.client.interval.toNat * (lost + (d + 1 : ℕ)) := by
      apply Int.mul_le_mul_of_nonneg_left
      · push_cast
        omega
      · exact Int.natCast_nonneg _
    have hover : now > u.client.timeOfLastMessageFromOther + u.client.interval.toNat +
        maxTimeLateMs := by
      rw [hlast]
      linarith
    have hmark : u.client.onTimeoutTimer now =
        ({ u.client.setReception u.client.reception.markLost.1 with
            timeOfLastMessageFromOther :=
              u.client.timeOfLastMessageFromOther + u.client.interval.toNat },
          u.client.reception.markLost.2.map (.pingStats u.client.uniqueId)) := if_pos hover
    have hclient : (u.timeout now).client.interval = u.client.interval := by
      simp [Downlink.timeout, hmark, Client.setReception]
    have hlast' : (u.timeout now).client.timeOfLastMessageFromOther =
        a + (u.timeout now).client.interval.toNat * (lost + 1 : ℕ) := by
      rw [hclient]
      simp only [Downlink.timeout, hmark, hlast]
      push_cast
      ring
    have hresults' : results (u.timeout now).calls =
        outcome ++ List.replicate (lost + 1) false := by
      have hcall : results u.client.reception.markLost.2 = [false] := rfl
      simp only [calls_timeout, hmark, calls_map_pingStats, results_append]
      rw [hresults, hcall, List.append_assoc, List.replicate_succ']
    obtain ⟨v, hrun, hflight, hfates, hclock', hall⟩ := ih (u := u.timeout now) hsince le_rfl
      hlast' hresults' (fun _ => by
        rw [hclient]
        push_cast at hdue ⊢
        linarith)
    refine ⟨v, .head (.timeout now hclock (by simp [hsince])) hrun, hflight,
      hfates.trans (fates_timeout now u), hclock', ?_⟩
    rw [hall]
    congr 2
    omega

/-- After a firing that writes too late, the client may have given up the first of its pings when
it comes. -/
theorem Inv.overdue (h : Inv k outcome outcome' c u) (hidle : u.inFlight = [])
    (hfiring : u.firing ≤ now) (hadmits : Admits u now) (hwrites : u.Writes now)
    (hclock : u.clock ≤ now + delay) (ha : a ∈ u.lastWritten)
    (hlate : u.deadline a < now + delay) :
    ∃ v m rest lost j, ReflTransGen (Step Admits delay) u v ∧
      v.inFlight = (m, now + delay) :: rest ∧ v.clock ≤ now + delay ∧
      v.fates = outcome ++ List.replicate u.skipped false ++ List.replicate (j + 1) true ∧
      u.skipped < lost ∧ results v.calls = outcome ++ List.replicate lost false := by
  obtain ⟨rfl, hsince⟩ := h.idle hidle
  obtain ⟨j, hfates⟩ := h.fates_writes delay hwrites
  obtain ⟨m, ms, hpings⟩ := h.pings_cons hwrites
  have hflight : (u.fire delay now).inFlight =
      (m, now + delay) :: ms.map fun m => (m, now + delay) := by
    simp [Downlink.fire, hidle, hpings]
  rw [Option.mem_def.mp ha] at hsince
  have hwatching := h.watching
  rw [hsince] at hwatching
  obtain ⟨lost, hfollows⟩ := hwatching.tracks
  have hinterval : (u.client.interval.toNat : ℤ) = 250 * k := by exact_mod_cast h.watching.interval
  have hlast : u.client.timeOfLastMessageFromOther = a + u.client.interval.toNat * lost := by
    rw [hfollows.last, hinterval]
  have hmisses : ∃ d, u.skipped < lost + d ∧ (0 < d →
      a + u.client.interval.toNat * (lost + d) + maxTimeLateMs < now + delay) := by
    rcases Nat.lt_or_ge u.skipped lost with henough | hfew
    · exact ⟨0, henough, fun h => absurd h (lt_irrefl 0)⟩
    · refine ⟨u.skipped + 1 - lost, by omega, fun _ => ?_⟩
      have hcast : (lost : ℤ) + (u.skipped + 1 - lost : ℕ) = u.skipped + 1 := by omega
      rw [hcast]
      exact hlate
  obtain ⟨d, hmany, hdue⟩ := hmisses
  obtain ⟨v, hrun, hflight', hfates', hclock', hall⟩ :=
    misses (u := u.fire delay now) Admits delay d hsince hclock hlast
      hfollows.results hdue
  exact ⟨v, m, _, lost + d, j, .head (.fire now hfiring hadmits) hrun, hflight'.trans hflight,
    hclock', hfates'.trans hfates, hmany, hall⟩

/-- What the client has given up is not taken back. -/
theorem not_lossless {j skipped : ℕ} {arrival : ℤ}
    (hfates : u.fates = outcome ++ List.replicate skipped false ++ List.replicate (j + 1) true)
    (hmany : skipped < lost) (hresults : results u.calls = outcome ++ List.replicate lost false) :
    ¬ u.Lossless m arrival rest := by
  rintro ⟨-, n, -, -, hall⟩
  obtain ⟨-, -, hcalls⟩ := deliver_client m arrival rest u
  have hpre : outcome ++ List.replicate lost false <+: u.fates := by
    have htake := List.take_prefix (n + 1) u.fates
    rw [← hall, hcalls, results_append, hresults] at htake
    exact (List.prefix_append _ _).trans htake
  obtain ⟨d, rfl⟩ : ∃ d, lost = skipped + (d + 1) := ⟨lost - skipped - 1, by omega⟩
  rw [hfates, List.append_assoc, List.prefix_append_right_inj, ← List.replicate_append_replicate,
    List.prefix_append_right_inj] at hpre
  simp [List.replicate_succ] at hpre

theorem Inv.not_keepsAll (h : Inv k outcome outcome' c u) (hidle : u.inFlight = [])
    (hfiring : u.firing ≤ now) (hadmits : Admits u now) (hwrites : u.Writes now)
    (hclock : u.clock ≤ now + delay) (ha : a ∈ u.lastWritten)
    (hlate : u.deadline a < now + delay) : ¬ KeepsAll Admits delay u := by
  intro hkeeps
  obtain ⟨v, m, rest, lost, j, hrun, hflight, hclock', hfates, hmany, hresults⟩ :=
    h.overdue hidle hfiring hadmits hwrites hclock ha hlate
  exact not_lossless hfates hmany hresults (hkeeps v hrun m _ rest hflight hclock')

/-- If all firings are in time, the client accepts every ping and marks as lost exactly the
skipped ones. A firing that writes after the deadline can have its first ping dropped. -/
theorem keepsAll_inTime (delay : ℤ) (h : Start u) :
    KeepsAll (InTime delay) delay u ∧
      ∀ (v : Downlink Address) (now a : ℤ) (Admits : Downlink Address → ℤ → Prop),
        ReflTransGen (Step (InTime delay) delay) u v → v.inFlight = [] → v.firing ≤ now →
        v.clock ≤ now + delay → v.Writes now → a ∈ v.lastWritten → v.deadline a < now + delay →
        Admits v now → ¬ KeepsAll Admits delay v := by
  constructor
  · exact keepsAll_of_inTime h fun _ _ hin => hin
  · intro v now a Admits hrun hidle hfiring hclock hwrites ha hlate hadmits
    obtain ⟨k, c, hk, -, hinv⟩ := h.inv
    obtain ⟨outcome, outcome', c, hinv⟩ := hinv.of_run (fun _ _ hin => hin) hk hrun
    exact hinv.not_keepsAll hidle hfiring hadmits hwrites hclock ha hlate

/-! ### A delayed firing -/

/-- A client that registered and connected at the time 0, with a base tick as its interval. -/
def connected : Downlink ℕ where
  server := (Server.receivedMessage 0 0 2 5000 (.welcome (.new 7 250)) .new).1
  client := ((Client.new 1 9000 250 7).connect (fun _ => some 1) 0 0).1.1
  serverLog := []
  clientLog := []
  inFlight := []
  firing := 0
  clock := 0
  since := some 0
  lastWritten := some 0
  skipped := 0

theorem start_connected : Start connected where
  multiple := by decide
  least := by decide
  record := ⟨2, 5000, 0, rfl⟩
  expected := rfl
  serverLog := rfl
  clientLog := rfl
  inFlight := rfl
  firing := by decide
  since := by
    rintro a ⟨⟩
    rfl
  lastWritten := rfl
  skipped := rfl

/-- The first ping is written and heard. The second firing is 101 ms late and skips a ping, which
the client gives up; the third firing comes when the timer would have fired anyway. -/
def caughtUp : Downlink ℕ :=
  ((((connected.fire 0 250).deliver ⟨7, 0, .initialized⟩ 250 []).fire 0 601).timeout 650).fire 0 750

theorem keepsAll_inTime_connected :
    caughtUp.Lossless ⟨7, 2, { PingStats.initialized with packetsSent := 1 }⟩ 750 [] := by
  have h₁ : ReflTransGen (Step (InTime 0) 0) connected (connected.fire 0 250) :=
    .single (.fire 250 (by decide) fun _ => ⟨by decide +kernel, by decide +kernel⟩)
  have hfirst : (connected.fire 0 250).inFlight = [(⟨7, 0, .initialized⟩, 250)] := rfl
  have h₂ := h₁.tail (.deliver hfirst (by decide))
  have h₃ := h₂.tail (.fire 601 (by decide) fun hwrites => absurd hwrites (by decide +kernel))
  have h₄ := h₃.tail (.timeout 650 (by decide) rfl)
  have h₅ := h₄.tail (.fire 750 (by decide) fun _ => ⟨by decide +kernel, by decide +kernel⟩)
  exact (keepsAll_inTime 0 start_connected).1 caughtUp h₅ _ _ _ (by decide +kernel)
    (by decide +kernel)

/-- The first ping and what the client does until the next one, which is 200 ms late. -/
def heardOnce : Downlink ℕ :=
  ((connected.fire 0 250).deliver ⟨7, 0, .initialized⟩ 250 []).timeout 650

/-- The third firing is on time again. -/
def heardTwice : Downlink ℕ := (((heardOnce.fire 0 700).timeout 900).fire 0 950)

theorem not_keepsAll_connected : ¬ KeepsAll (fun _ _ => True) 0 connected := by
  intro h
  have h₁ : ReflTransGen (Step (fun _ _ => True) 0) connected heardOnce :=
    .tail (.tail (.single (.fire 250 (by decide) trivial)) (.deliver rfl (by decide)))
      (.timeout 650 (by decide) rfl)
  have h₂ : ReflTransGen (Step (fun _ _ => True) 0) connected heardTwice :=
    .tail (.tail (.tail h₁ (.fire 700 (by decide) trivial)) (.timeout 900 (by decide) rfl))
      (.fire 950 (by decide) trivial)
  have hflight : heardTwice.inFlight =
      [(⟨7, 2, { PingStats.initialized with packetsSent := 1 }⟩, 950)] := by
    decide +kernel
  have hlossless := h heardTwice h₂ _ _ _ hflight (by decide)
  exact hlossless.accepted (by decide +kernel)

end PacketLossUtils.Downlink
