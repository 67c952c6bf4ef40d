import PacketLossUtils.LateSender

/-! A server whose timer is never treated as delayed: whether the client records a loss. -/
namespace PacketLossUtils.Downlink

open Effect NetworkCore PingStats Relation Watchdog

variable {Address : Type} {u v : Downlink Address} {k i : ℕ} {delay now next : ℤ}
  {outcome outcome' : List Bool} {c : ClientInfo Address} {last : Option ℤ} {m : PingMessage}
  {arrival : ℤ} {rest : List (PingMessage × ℤ)} {Admits : Downlink Address → ℤ → Prop}

theorem Inv.skipped_eq_zero (h : Inv k outcome outcome' c u) (hall : false ∉ u.fates) :
    u.skipped = 0 := by
  by_contra hne
  apply hall
  rw [h.fates]
  simp [hne]

theorem fates_fire_punctual (delay : ℤ) (hc : u.record = some c) (ht : c.Ticking k)
    (hpunctual : u.Punctual now) (hall : false ∉ u.fates) : false ∉ (u.fire delay now).fates := by
  have hskip : Server.skipMessage now u.server.nextPingTime = false := hpunctual
  rw [fates_fire delay now hc ht, hskip]
  simp [hall]

section

variable [HostAddress Address]

/-- The ping is not dropped, and then the client has recorded no loss. -/
structure NoLoss (u : Downlink Address) (m : PingMessage) (arrival : ℤ)
    (rest : List (PingMessage × ℤ)) : Prop where
  accepted : ¬ u.client.messageCounterOtherNextExpected > m.counter
  results : ∃ n, m.counter = UInt64.ofNat n ∧
    results (u.deliver m arrival rest).calls = List.replicate (n + 1) true

/-- Whatever state a run has reached, the next ping comes without a loss before it. -/
def SeesNoLoss (Admits : Downlink Address → ℤ → Prop) (delay : ℤ) (u : Downlink Address) : Prop :=
  ∀ v, ReflTransGen (Step Admits delay) u v → ∀ m arrival rest,
    v.inFlight = (m, arrival) :: rest → v.clock ≤ arrival → v.NoLoss m arrival rest

theorem Lossless.noLoss (h : u.Lossless m arrival rest) (hall : false ∉ u.fates) :
    u.NoLoss m arrival rest := by
  obtain ⟨n, hcounter, hn, hresults⟩ := h.results
  refine ⟨h.accepted, n, hcounter, ?_⟩
  rw [hresults, List.eq_replicate_iff]
  constructor
  · simp only [List.length_take]
    omega
  · intro b hb
    cases b with
    | true => rfl
    | false => exact (hall (List.mem_of_mem_take hb)).elim

/-- Without a delayed firing nothing is skipped. -/
theorem Inv.of_run_punctual (hin : ∀ u now, Admits u now → u.InTime delay now)
    (hpunctual : ∀ u now, Admits u now → u.Punctual now) (hk : 0 < k)
    (h : Inv k outcome outcome' c u) (hall : false ∉ u.fates)
    (hrun : ReflTransGen (Step Admits delay) u v) : false ∉ v.fates := by
  induction hrun with
  | refl => exact hall
  | tail hrun hstep ih =>
    obtain ⟨_, _, c, hinv⟩ := h.of_run hin hk hrun
    cases hstep with
    | fire now hfiring hadmits =>
      exact fates_fire_punctual delay hinv.record hinv.ticking (hpunctual _ _ hadmits) ih
    | timeout now hclock hsince =>
      rw [fates_timeout]
      exact ih
    | deliver hflight hclock =>
      rw [fates_deliver]
      exact ih

end

/-! ### An interval of one base tick -/

/-- The next base tick is due one interval after the last ping. -/
def Prompt (delay : ℤ) (u : Downlink Address) : Prop :=
  ∀ a ∈ u.lastWritten, u.server.nextPingTime + delay ≤ a + 250

theorem Inv.inTime_of_prompt (h : Inv 1 outcome outcome' c u) (hprompt : Prompt delay u)
    (hall : false ∉ u.fates) (hpunctual : u.Punctual now) : u.InTime delay now := by
  have hontime : now ≤ u.server.nextPingTime + maxTimeLateMs := by
    simpa [Punctual, Server.skipMessage] using hpunctual
  have hinterval := h.watching.interval
  have hskipped := h.skipped_eq_zero hall
  intro _
  constructor
  · intro a ha
    have hnext := hprompt a ha
    rw [deadline, hskipped, hinterval]
    push_cast
    linarith
  · intro c _
    rw [hskipped]
    exact Nat.zero_le _

/-- With an interval of one base tick, every punctual firing writes. -/
theorem Inv.prompt_fire (h : Inv 1 outcome outcome' c u) (hpunctual : u.Punctual now) :
    Prompt delay (u.fire delay now) := by
  obtain ⟨c', -, hadvances⟩ := fire_record delay now h.record h.ticking
  have hticks := hadvances.intervalCounter
  have hrest := hadvances.ticking.intervalCounter
  have hmissed : 0 < Server.numPingsMissed now u.server.nextPingTime := Nat.succ_pos _
  have hpos : 0 < u.completed now := by omega
  have hwrites : u.Writes now := ⟨hpunctual, hpos⟩
  intro a ha
  have hlast : (u.fire delay now).lastWritten = some (now + delay) := if_pos hwrites
  obtain rfl := Option.some.inj (hlast.symm.trans ha)
  simp only [Downlink.fire, Server.nextPingTime_onPingTimer]
  omega

/-! ### Longer intervals -/

/-- Nothing is under way, and `i` base ticks have passed since the last ping. -/
structure Idle (k i : ℕ) (delay : ℤ) (last : Option ℤ) (next : ℤ) (u : Downlink Address) :
    Prop where
  inv : ∃ outcome c, Inv k outcome outcome c u ∧ c.intervalCounter.toNat = i
  inFlight : u.inFlight = []
  lastWritten : u.lastWritten = last
  nextPingTime : u.server.nextPingTime = next
  firing : u.firing ≤ next
  clock : u.clock ≤ next + delay
  fates : false ∉ u.fates

/-- A firing as late as a punctual one can be passes one base tick. -/
theorem Idle.late (h : Idle k i delay last next u) :
    u.Punctual (next + 100) ∧ ∃ outcome c c', Inv k outcome outcome c u ∧
      (u.fire delay (next + 100)).record = some c' ∧
      c'.intervalCounter.toNat + k * u.completed (next + 100) = i + 1 ∧
      c'.intervalCounter.toNat < k := by
  obtain ⟨outcome, c, hinv, hcounter⟩ := h.inv
  obtain ⟨c', hc', hadvances⟩ := fire_record delay (next + 100) hinv.record hinv.ticking
  have hmissed : Server.numPingsMissed (next + 100) u.server.nextPingTime = 1 := by
    simp [Server.numPingsMissed, h.nextPingTime, Server.baseTimerInterval]
  have hticks := hadvances.intervalCounter
  rw [hmissed, hcounter] at hticks
  refine ⟨?_, outcome, c, c', hinv, hc', hticks, hadvances.ticking.intervalCounter⟩
  simp [Punctual, Server.skipMessage, h.nextPingTime, maxTimeLateMs]

/-- The base tick that completes an interval. -/
theorem Idle.completes (h : Idle k i delay last next u) (hi : i + 1 = k) :
    u.completed (next + 100) = 1 ∧ u.Writes (next + 100) ∧ ∃ outcome c c',
      Inv k outcome outcome c u ∧ (u.fire delay (next + 100)).record = some c' ∧
      c'.intervalCounter.toNat = 0 := by
  obtain ⟨hpunctual, outcome, c, c', hinv, hc', hticks, hrest⟩ := h.late
  rw [hi] at hticks
  have hone : u.completed (next + 100) = 1 := by
    have hdiv := congrArg (· / k) hticks
    have hk : 0 < k := by omega
    simpa [Nat.add_mul_div_left _ _ hk, Nat.div_eq_of_lt hrest, Nat.div_self hk] using hdiv
  rw [hone, Nat.mul_one] at hticks
  exact ⟨hone, ⟨hpunctual, by omega⟩, outcome, c, c', hinv, hc', by omega⟩

variable [HostAddress Address]

theorem Idle.tick (h : Idle k i delay last next u) (hi : i + 1 < k) :
    Step Punctual delay u (u.fire delay (next + 100)) ∧
      Idle k (i + 1) delay last (next + 350) (u.fire delay (next + 100)) := by
  obtain ⟨hpunctual, outcome, c, c', hinv, hc', hticks, hrest⟩ := h.late
  have hfiring := h.firing
  have hclock := h.clock
  have hzero : u.completed (next + 100) = 0 := by
    apply Nat.eq_zero_of_not_pos
    intro hpos
    have := Nat.le_mul_of_pos_right k hpos
    omega
  have hwrites : ¬ u.Writes (next + 100) := not_writes_iff.mpr (.inr hzero)
  obtain ⟨c'', hinv'⟩ := hinv.fire_silent delay hwrites
  obtain rfl := Option.some.inj (hc'.symm.trans hinv'.record)
  rw [hzero, Nat.mul_zero, Nat.add_zero] at hticks
  constructor
  · exact .fire _ (by omega) hpunctual
  · refine ⟨⟨outcome, c', hinv', hticks⟩, ?_, ?_, ?_, ?_, ?_, ?_⟩
    · simp [Downlink.fire, h.inFlight, hinv.pings_nil hwrites]
    · simp [Downlink.fire, hwrites, h.lastWritten]
    · simp only [Downlink.fire, Server.nextPingTime_onPingTimer]
      omega
    · simp only [Downlink.fire]
      omega
    · simp only [Downlink.fire]
      omega
    · exact fates_fire_punctual delay hinv.record hinv.ticking hpunctual h.fates

theorem Idle.ticks (h : Idle k i delay last next u) (j : ℕ) (hi : i + j < k) :
    ∃ v, ReflTransGen (Step Punctual delay) u v ∧
      Idle k (i + j) delay last (next + 350 * j) v := by
  induction j with
  | zero => exact ⟨u, .refl, by simpa using h⟩
  | succ j ih =>
    obtain ⟨v, hrun, hidle⟩ := ih (by omega)
    obtain ⟨hstep, hidle'⟩ := hidle.tick (by omega)
    refine ⟨_, hrun.tail hstep, ?_⟩
    have hnext : next + 350 * (j : ℤ) + 350 = next + 350 * ((j + 1 : ℕ) : ℤ) := by
      push_cast
      ring
    rwa [hnext] at hidle'

/-- The first ping, and its delivery. -/
theorem Idle.ping (h : Idle k i delay none next u) (hi : i + 1 = k) :
    ∃ v, ReflTransGen (Step Punctual delay) u v ∧
      Idle k 0 delay (some (next + 100 + delay)) (next + 350) v := by
  obtain ⟨hone, hwrites, outcome, c, c', hinv, hc', hcounter⟩ := h.completes hi
  have hfiring := h.firing
  have hclock := h.clock
  have htime : u.InTime delay (next + 100) := by
    intro _
    constructor
    · simp [h.lastWritten]
    · simp [hinv.skipped_eq_zero h.fates]
  obtain ⟨outcome', c'', hinv'⟩ := hinv.fire_writes hwrites htime
  obtain rfl := Option.some.inj (hc'.symm.trans hinv'.record)
  have hlength := length_pings (next + 100) hinv.record hinv.ticking
  rw [hwrites.1, if_neg (by simp), hone] at hlength
  obtain ⟨m, hm⟩ := List.length_eq_one_iff.mp hlength
  have hflight : (u.fire delay (next + 100)).inFlight = [(m, next + 100 + delay)] := by
    simp [Downlink.fire, h.inFlight, hm]
  have hclock' : (u.fire delay (next + 100)).clock ≤ next + 100 + delay := by
    simp only [Downlink.fire]
    omega
  obtain ⟨-, outcome'', hinv''⟩ := hinv'.deliver (by omega) hflight hclock'
  obtain ⟨rfl, -⟩ := hinv''.idle rfl
  refine ⟨_, .tail (.single (.fire _ (by omega) hwrites.1)) (.deliver hflight hclock'),
    ⟨outcome'', c', hinv'', hcounter⟩, rfl, ?_, ?_, ?_, ?_, ?_⟩
  · simp [Downlink.deliver, Downlink.fire, hwrites]
  · simp only [Downlink.deliver, Downlink.fire, Server.nextPingTime_onPingTimer]
    omega
  · simp only [Downlink.deliver, Downlink.fire]
    omega
  · simp only [Downlink.deliver]
    omega
  · rw [fates_deliver]
    exact fates_fire_punctual delay hinv.record hinv.ticking hwrites.1 h.fates

/-! ### Losses -/

theorem Inv.of_run_prompt (h : Inv 1 outcome outcome' c u) (hall : false ∉ u.fates)
    (hprompt : Prompt delay u) (hrun : ReflTransGen (Step Punctual delay) u v) :
    (∃ outcome outcome' c, Inv 1 outcome outcome' c v) ∧ false ∉ v.fates ∧ Prompt delay v := by
  induction hrun with
  | refl => exact ⟨⟨_, _, c, h⟩, hall, hprompt⟩
  | tail _ hstep ih =>
    obtain ⟨⟨outcome, outcome', c, hinv⟩, hall, hprompt⟩ := ih
    cases hstep with
    | fire now hfiring hpunctual =>
      have htime := hinv.inTime_of_prompt hprompt hall hpunctual
      exact ⟨⟨outcome, hinv.fire htime⟩,
        fates_fire_punctual delay hinv.record hinv.ticking hpunctual hall,
        hinv.prompt_fire hpunctual⟩
    | timeout now hclock hsince =>
      rw [fates_timeout]
      exact ⟨⟨_, _, c, hinv.timeout hclock hsince⟩, hall, hprompt⟩
    | deliver hflight hclock =>
      obtain ⟨_, outcome'', hinv'⟩ := hinv.deliver Nat.one_pos hflight hclock
      rw [fates_deliver]
      exact ⟨⟨_, _, c, hinv'⟩, hall, hprompt⟩

theorem not_noLoss {lost : ℕ} (hlost : 0 < lost)
    (hresults : results u.calls = outcome ++ List.replicate lost false) :
    ¬ u.NoLoss m arrival rest := by
  rintro ⟨-, n, -, hall⟩
  obtain ⟨-, -, hcalls⟩ := deliver_client m arrival rest u
  have hmem : false ∈ results (u.deliver m arrival rest).calls := by
    rw [hcalls, results_append, hresults]
    simp [Nat.ne_of_gt hlost]
  rw [hall] at hmem
  simp at hmem

theorem Inv.not_seesNoLoss {a : ℤ} (h : Inv k outcome outcome' c u) (hidle : u.inFlight = [])
    (hfiring : u.firing ≤ now) (hadmits : Admits u now) (hwrites : u.Writes now)
    (hclock : u.clock ≤ now + delay) (ha : a ∈ u.lastWritten)
    (hlate : u.deadline a < now + delay) : ¬ SeesNoLoss Admits delay u := by
  intro hsees
  obtain ⟨v, m, rest, lost, j, hrun, hflight, hclock', -, hmany, hresults⟩ :=
    h.overdue hidle hfiring hadmits hwrites hclock ha hlate
  exact not_noLoss (by omega) hresults (hsees v hrun m _ rest hflight hclock')

/-- Every base tick of a longer interval may be as late as the client allows the whole interval
to be. -/
theorem Start.not_seesNoLoss (h : Start u) (hsince : u.since = none)
    (hclock : u.clock ≤ u.server.nextPingTime + delay) (hinterval : u.client.interval ≠ 250) :
    ¬ SeesNoLoss Punctual delay u := by
  obtain ⟨k, c, hk, hcounter, hinv⟩ := h.inv
  have hlonger : 2 ≤ k := by
    have hk' := hinv.watching.interval
    by_contra hle
    obtain rfl : k = 1 := by omega
    exact hinterval (UInt32.toNat_inj.mp hk')
  have hidle : Idle k 0 delay none u.server.nextPingTime u :=
    ⟨⟨[], c, hinv, by simp [hcounter]⟩, h.inFlight, h.lastWritten.trans hsince, rfl, h.firing,
      hclock, by simp [Downlink.fates, h.serverLog]⟩
  obtain ⟨v₁, hrun₁, hidle₁⟩ := hidle.ticks (k - 1) (by omega)
  obtain ⟨v₂, hrun₂, hidle₂⟩ := hidle₁.ping (by omega)
  obtain ⟨v₃, hrun₃, hidle₃⟩ := hidle₂.ticks (k - 1) (by omega)
  obtain ⟨-, hwrites, outcome, c, c', hinv₃, -⟩ := hidle₃.completes (by omega)
  have hfiring₃ := hidle₃.firing
  have hclock₃ := hidle₃.clock
  have hlate : v₃.deadline (u.server.nextPingTime + 350 * (k - 1 : ℕ) + 100 + delay) <
      u.server.nextPingTime + 350 * (k - 1 : ℕ) + 350 + 350 * (k - 1 : ℕ) + 100 + delay := by
    rw [deadline, hinv₃.skipped_eq_zero hidle₃.fates, hinv₃.watching.interval, maxTimeLateMs]
    push_cast
    omega
  intro hsees
  refine hinv₃.not_seesNoLoss hidle₃.inFlight (by omega) hwrites.1 hwrites (by omega)
    hidle₃.lastWritten hlate ?_
  intro v hrun
  exact hsees v (((hrun₁.trans hrun₂).trans hrun₃).trans hrun)

/-- In a punctual run whose firings are also in time the client sees no loss, and a firing that
writes after the deadline can make it see one. All punctual runs are without loss for an interval of
one base tick, and for no longer one. -/
theorem seesNoLoss_punctual (delay : ℤ) (h : Start u) (hsince : u.since = none) :
    SeesNoLoss (fun u now => u.Punctual now ∧ u.InTime delay now) delay u ∧
      (∀ (v : Downlink Address) (now a : ℤ),
        ReflTransGen (Step (fun u now => u.Punctual now ∧ u.InTime delay now) delay) u v →
        v.inFlight = [] → v.firing ≤ now → v.clock ≤ now + delay → v.Writes now →
        a ∈ v.lastWritten → v.deadline a < now + delay → ¬ SeesNoLoss Punctual delay v) ∧
      (u.clock ≤ u.server.nextPingTime + delay →
        (SeesNoLoss Punctual delay u ↔ u.client.interval = 250)) := by
  obtain ⟨k, c, hk, hcounter, hinv⟩ := h.inv
  have hall : false ∉ u.fates := by simp [Downlink.fates, h.serverLog]
  refine ⟨?_, ?_, fun hclock => ⟨?_, ?_⟩⟩
  · intro v hrun m arrival rest hflight hclock
    have hfates := hinv.of_run_punctual (fun _ _ hin => hin.2) (fun _ _ hin => hin.1) hk hall hrun
    obtain ⟨_, _, c, hinv⟩ := hinv.of_run (fun _ _ hin => hin.2) hk hrun
    exact (hinv.deliver hk hflight hclock).1.noLoss hfates
  · intro v now a hrun hidle hfiring hclock hwrites ha hlate
    obtain ⟨_, _, c, hinv⟩ := hinv.of_run (fun _ _ hin => hin.2) hk hrun
    exact hinv.not_seesNoLoss hidle hfiring hwrites.1 hwrites hclock ha hlate
  · intro hsees
    by_contra hinterval
    exact h.not_seesNoLoss hsince hclock hinterval hsees
  · intro hinterval v hrun m arrival rest hflight hclock
    obtain rfl : k = 1 := by
      have hk' := hinv.watching.interval
      rw [hinterval] at hk'
      simp only [UInt32.reduceToNat] at hk'
      omega
    have hprompt : Prompt delay u := by
      intro a ha
      simp [h.lastWritten, hsince] at ha
    obtain ⟨⟨_, _, c, hinv⟩, hfates, -⟩ := hinv.of_run_prompt hall hprompt hrun
    exact (hinv.deliver Nat.one_pos hflight hclock).1.noLoss hfates

/-! ### One and two base ticks -/

/-- A client that registered at the time 0 and waits for its first ping. -/
def awaiting (interval : UInt32) : Downlink ℕ where
  server := (Server.receivedMessage 0 0 2 5000 (.welcome (.new 7 interval)) .new).1
  client := .new 1 9000 interval 7
  serverLog := []
  clientLog := []
  inFlight := []
  firing := 0
  clock := 0
  since := none
  lastWritten := none
  skipped := 0

theorem start_awaiting {interval : UInt32} (hinterval : interval = 250 ∨ interval = 500) :
    Start (awaiting interval) where
  multiple := by rcases hinterval with rfl | rfl <;> decide
  least := by rcases hinterval with rfl | rfl <;> decide
  record := by
    refine ⟨2, 5000, 0, ?_⟩
    rcases hinterval with rfl | rfl <;> rfl
  expected := rfl
  serverLog := rfl
  clientLog := rfl
  inFlight := rfl
  firing := by rcases hinterval with rfl | rfl <;> decide
  since := by simp [awaiting]
  lastWritten := rfl
  skipped := rfl

theorem seesNoLoss_punctual_first_ping :
    ((awaiting 250).fire 0 250).NoLoss ⟨7, 0, .initialized⟩ 250 [] :=
  ((seesNoLoss_punctual 0 (start_awaiting (.inl rfl)) rfl).2.2 (by decide)).mpr rfl _
    (.single (.fire 250 (by decide) rfl)) _ _ _ rfl (by decide)

theorem not_seesNoLoss_awaiting : ¬ SeesNoLoss Punctual 0 (awaiting 500) :=
  (start_awaiting (.inr rfl)).not_seesNoLoss rfl (by decide) (by decide)

end PacketLossUtils.Downlink
