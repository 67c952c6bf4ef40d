import PacketLossUtils.ExpectedCounter
import PacketLossUtils.Lib.Arrears

/-! What the timeout timer of the client records while nothing comes from the server. -/
namespace PacketLossUtils.Client

open Arrears Effect NetworkCore PingStats

variable {Address : Type} {c₀ c c' : Client Address} {since now last : ℤ} {n : ℕ}
  {log log' : List (Effect Address)}

/-! ### One firing -/

/-- The lost results that `c₀` owes when the clock shows `now`. -/
noncomputable def owed (c₀ : Client Address) (now : ℤ) : ℕ :=
  due c₀.interval.toNat maxTimeLateMs c₀.timeOfLastMessageFromOther now

/-- The client `c₀` after `n` lost results, and no other results. -/
structure Charged (c₀ : Client Address) (n : ℕ) (c : Client Address)
    (log : List (Effect Address)) : Prop where
  setup : SameSetup c₀ c
  timeOfLastMessageFromOther :
    c.timeOfLastMessageFromOther = c₀.timeOfLastMessageFromOther + n * c₀.interval.toNat
  losses : results (calls c₀.uniqueId log) = List.replicate n false

theorem charged_start (c : Client Address) : Charged c 0 c [] where
  setup := ⟨rfl, rfl, rfl, rfl⟩
  timeOfLastMessageFromOther := by simp
  losses := rfl

theorem owed_pos (h : 0 < c₀.interval) : (0 : ℤ) < c₀.interval.toNat :=
  mod_cast UInt32.lt_iff_toNat_lt.mp h

/-- The comparison of the source, in terms of the client when it last heard the server. -/
theorem Charged.overdue_iff (h : Charged c₀ n c log) :
    now > c.timeOfLastMessageFromOther + c.interval.toNat + maxTimeLateMs ↔
      c₀.timeOfLastMessageFromOther + (n + 1) * c₀.interval.toNat + maxTimeLateMs < now := by
  have hnext : c.timeOfLastMessageFromOther + c.interval.toNat =
      c₀.timeOfLastMessageFromOther + (n + 1) * c₀.interval.toNat := by
    rw [h.timeOfLastMessageFromOther, h.setup.interval]
    ring
  rw [hnext]

/-- A firing is one look at the clock. -/
theorem Charged.timeout (h : Charged c₀ n c log) (now : ℤ) :
    Charged c₀ (charge c₀.interval.toNat maxTimeLateMs c₀.timeOfLastMessageFromOther now n)
      (c.onTimeoutTimer now).1 (log ++ (c.onTimeoutTimer now).2) := by
  rw [charge]
  split
  · rename_i hover
    rw [onTimeoutTimer, if_pos (h.overdue_iff.mpr hover)]
    refine ⟨h.setup.trans ⟨rfl, rfl, rfl, rfl⟩, ?_, ?_⟩
    · simp only [h.timeOfLastMessageFromOther, h.setup.interval]
      push_cast
      ring
    · rw [calls_append, results_append, h.losses, h.setup.uniqueId, calls_map_pingStats,
        List.replicate_succ']
      rfl
  · rename_i hover
    rw [onTimeoutTimer, if_neg (h.overdue_iff.not.mpr hover), List.append_nil]
    exact h

theorem Charged.onTimeoutTimer_eq (h : Charged c₀ n c log) (hinterval : 0 < c₀.interval)
    (hn : owed c₀ now ≤ n) : c.onTimeoutTimer now = (c, []) := by
  rw [onTimeoutTimer, if_neg]
  rw [h.overdue_iff, ← lt_due_iff (owed_pos hinterval)]
  exact not_lt.mpr hn

/-! ### Firings while the clock stands still -/

variable [HostAddress Address] {events : List (Event Address)} {e : Event Address}

theorem Charged.stalled (h : Charged c₀ n c log) (hinterval : 0 < c₀.interval) (now : ℤ) (m : ℕ) :
    Charged c₀ (n + min m (owed c₀ now - n))
      (Trace.run step (List.replicate m (.timeoutTimer now)) c).1
      (log ++ (Trace.run step (List.replicate m (.timeoutTimer now)) c).2) := by
  rw [owed, ← charge_iterate (owed_pos hinterval)]
  induction m generalizing n c log with
  | zero => simpa using h
  | succ m ih =>
    rw [List.replicate_succ, Trace.run_cons, Function.iterate_succ_apply, ← List.append_assoc]
    exact ih (h.timeout now)

theorem Charged.stalled_eq (h : Charged c₀ n c log) (hinterval : 0 < c₀.interval)
    (hn : owed c₀ now ≤ n) (m : ℕ) :
    Trace.run step (List.replicate m (.timeoutTimer now)) c = (c, []) := by
  induction m with
  | zero => rfl
  | succ m ih =>
    rw [List.replicate_succ, Trace.run_cons, step, h.onTimeoutTimer_eq hinterval hn, ih]
    rfl

/-! ### A silence -/

/-- No message comes, and there is no new connection. -/
def Silent (e : Event Address) : Prop :=
  match e with
  | .connect _ _ _ => False
  | .message _ _ _ _ => False
  | _ => True

/-- The clock readings of the timeout timer. -/
def timeouts (events : List (Event Address)) : List ℤ :=
  events.filterMap fun
    | .timeoutTimer now => some now
    | _ => none

omit [HostAddress Address] in
theorem Charged.pingRounds (h : Charged c₀ n c log) (now : ℤ) (skipMessage : Bool)
    (rounds : List ℕ) :
    Charged c₀ n (Trace.run (fun _ => pingRound now skipMessage) rounds c).1
      (log ++ (Trace.run (fun _ => pingRound now skipMessage) rounds c).2) := by
  apply Trace.run_invariant (I := fun (c' : Client Address) log' => Charged c₀ n c' (log ++ log'))
  · rwa [List.append_nil]
  · intro i _ c' log' h
    have hid := h.setup.uniqueId
    rw [← List.append_assoc]
    refine ⟨h.setup.trans (pingRound_frame now skipMessage c').1, ?_, ?_⟩
    · rw [← h.timeOfLastMessageFromOther]
      simp only [pingRound]
      split <;> rfl
    · rw [calls_append, results_append, h.losses, ← hid]
      simp only [pingRound, write]
      split <;> simp

theorem Charged.step (h : Charged c₀ n c log) (hinterval : 0 < c₀.interval)
    (hsilent : Silent e) (hlast : ∀ t ∈ Client.timeouts [e], t ≤ last) (hn : n ≤ owed c₀ last) :
    ∃ n' ≤ owed c₀ last, Charged c₀ n' (c.step e).1 (log ++ (c.step e).2) := by
  cases e with
  | connect pending now now' => exact absurd hsilent id
  | pingTimer now => exact ⟨n, hn, h.pingRounds now _ _⟩
  | timeoutTimer now =>
    have hnow : now ≤ last := hlast now List.mem_cons_self
    exact ⟨_, charge_le (owed_pos hinterval) hnow hn, h.timeout now⟩
  | sigInt =>
    refine ⟨n, hn, ?_⟩
    simp only [Client.step, onSigIntReceived]
    split
    · refine ⟨h.setup.trans ⟨rfl, rfl, rfl, rfl⟩, h.timeOfLastMessageFromOther, ?_⟩
      simp [write, h.losses]
    · rwa [List.append_nil]
  | message now address port m => exact absurd hsilent id

theorem charged_run (hinterval : 0 < c₀.interval) (hsilent : ∀ e ∈ events, Silent e)
    (hlast : ∀ t ∈ timeouts events, t ≤ last) :
    ∃ n ≤ owed c₀ last,
      Charged c₀ n (Trace.run Client.step events c₀).1 (Trace.run Client.step events c₀).2 := by
  apply Trace.run_invariant (I := fun c log => ∃ n ≤ owed c₀ last, Charged c₀ n c log)
  · exact ⟨0, Nat.zero_le _, charged_start c₀⟩
  · rintro e he c log ⟨n, hn, h⟩
    apply h.step hinterval (hsilent e he) _ hn
    intro t ht
    apply hlast
    obtain ⟨e', he', htime⟩ := List.mem_filterMap.mp ht
    rw [List.mem_singleton.mp he'] at htime
    exact List.mem_filterMap.mpr ⟨e, he, htime⟩

/-! ### The account -/

/-- The event sets the time of the last message to `since`: a connection is made, or the server
pings. -/
def Hears (since : ℤ) (e : Event Address) (c : Client Address) : Prop :=
  match e with
  | .connect pending now now' => now = since ∧ (c.connect pending now now').2 = true
  | .message now address port (.ping _) => now = since ∧ FromServer address port c
  | _ => False

theorem Hears.timeOfLastMessageFromOther (h : Hears since e c) :
    (c.step e).1.timeOfLastMessageFromOther = since := by
  cases e with
  | connect pending now now' =>
    obtain ⟨rfl, hconnects⟩ := h
    revert hconnects
    simp only [Client.step, connect]
    split <;> [skip; split] <;> simp
  | pingTimer now => exact absurd h id
  | timeoutTimer now => exact absurd h id
  | sigInt => exact absurd h id
  | message now address port m =>
    cases m with
    | ping m =>
      obtain ⟨rfl, hserver⟩ := h
      rw [Client.step, receivedMessage_ping hserver.1 hserver.2, receivedPing]
      split <;> rfl
    | welcome m => exact absurd h id
    | close m => exact absurd h id

/-- The account of a silence: `c` has heard the server at `since`, the timeout timer fires for the
last time at `last`, and `j` results are lost on the way to `out`. -/
structure Accounted (since last : ℤ) (c : Client Address)
    (out : Client Address × List (Effect Address)) (j : ℕ) : Prop where
  losses : results (calls c.uniqueId out.2) = List.replicate j false
  /-- The statistics are those before, with these results and what else is recorded. -/
  clientStats : out.1.clientStats = (calls c.uniqueId out.2).foldl apply c.clientStats
  timeOfLastMessageFromOther :
    out.1.timeOfLastMessageFromOther = since + j * c.interval.toNat
  messageCounterOtherNextExpected :
    out.1.messageCounterOtherNextExpected = c.messageCounterOtherNextExpected + UInt64.ofNat j
  le_due : j ≤ due c.interval.toNat maxTimeLateMs since last
  le_last : out.1.timeOfLastMessageFromOther ≤ last
  /-- Further firings at `last` catch up with what is due, -/
  stalled : ∀ m : ℕ,
    results (calls c.uniqueId
      (Trace.run Client.step (List.replicate m (.timeoutTimer last)) out.1).2) =
        List.replicate (min m (due c.interval.toNat maxTimeLateMs since last - j)) false
  /-- and then change nothing. -/
  settled : ∀ m : ℕ, due c.interval.toNat maxTimeLateMs since last - j ≤ m →
    Trace.run Client.step [.timeoutTimer last]
        (Trace.run Client.step (List.replicate m (.timeoutTimer last)) out.1).1 =
      ((Trace.run Client.step (List.replicate m (.timeoutTimer last)) out.1).1, [])

theorem Charged.accounted {out : Client Address × List (Effect Address)} {j : ℕ}
    (h : Charged c₀ j out.1 out.2)
    (hreception : out.1.reception = c₀.reception.after (calls c₀.uniqueId out.2))
    (hsince : c₀.timeOfLastMessageFromOther = since)
    (hinterval : 0 < c₀.interval) (hle : since ≤ last) (hj : j ≤ owed c₀ last) :
    Accounted since last c₀ out j := by
  subst hsince
  have hexpected : out.1.messageCounterOtherNextExpected = _ :=
    congrArg Reception.messageCounterOtherNextExpected hreception
  rw [Reception.after, h.losses, List.length_replicate] at hexpected
  refine ⟨h.losses, congrArg Reception.pingStats hreception, h.timeOfLastMessageFromOther,
    hexpected, hj, ?_, ?_, ?_⟩
  · rw [h.timeOfLastMessageFromOther]
    -- the tolerance of the last interval charged is over as well
    rcases Nat.eq_zero_or_pos j with rfl | hpos
    · simpa using hle
    · have hbefore := charged_before (owed_pos hinterval) hj hpos
      have htolerance : (0 : ℤ) ≤ maxTimeLateMs := by decide
      omega
  · intro m
    have hall := (h.stalled hinterval last m).losses
    rw [calls_append, results_append, h.losses, ← List.replicate_append_replicate] at hall
    exact List.append_cancel_left hall
  · intro m hm
    have hrest := h.stalled hinterval last m
    apply hrest.stalled_eq hinterval _ 1
    rw [owed] at hj ⊢
    omega

/-- However the firings are spread over a silence, and whatever other timers fire in between. -/
theorem timeouts_accounted (e : Event Address) (c : Client Address)
    (hinterval : 0 < c.interval) (hheard : Hears since e c) (hsilent : ∀ x ∈ events, Silent x)
    (hsince : ∀ t ∈ timeouts events, since ≤ t) (hsorted : (timeouts events).Pairwise (· ≤ ·))
    (hlast : (timeouts events).getLast? = some last) :
    ∃ j, Accounted since last (c.step e).1 (Trace.run Client.step events (c.step e).1) j := by
  have hsetup := step_setup e c
  have hinterval' : 0 < (c.step e).1.interval := by rwa [hsetup.interval]
  have hne : timeouts events ≠ [] := by
    intro hnil
    rw [hnil] at hlast
    cases hlast
  obtain rfl := Option.some.inj ((List.getLast?_eq_some_getLast hne).symm.trans hlast)
  have hle : ∀ t ∈ timeouts events, t ≤ (timeouts events).getLast hne :=
    fun t ht => hsorted.rel_getLast ht
  obtain ⟨j, hj, hcharged⟩ := charged_run hinterval' hsilent hle
  exact ⟨j, hcharged.accounted (run_reception events _) hheard.timeOfLastMessageFromOther
    hinterval' (hsince _ (List.getLast_mem hne)) hj⟩

/-- Connected at 100, and two firings: one as soon as a loss is due, and one after a stall. -/
theorem timeouts_accounted_stall :
    ∃ j, Accounted 100 1200 ((Client.new 1 9 250 7 : Client ℕ).step
        (.connect (fun _ => some 20) 100 100)).1
      (Trace.run Client.step [.timeoutTimer 451, .pingTimer 460, .timeoutTimer 1200]
        ((Client.new 1 9 250 7 : Client ℕ).step (.connect (fun _ => some 20) 100 100)).1) j := by
  apply timeouts_accounted
  · decide
  · exact ⟨rfl, by decide⟩
  · simp [Silent]
  · simp [timeouts]
  · simp [timeouts]
  · rfl

end PacketLossUtils.Client
