import PacketLossUtils.Lib.TreeMap
import PacketLossUtils.Party
import PacketLossUtils.Server

/-! What each handler of the server does to one record, whatever other records exist. -/
namespace PacketLossUtils

variable {Address : Type}

namespace ClientInfo

/-- What can happen to one record. -/
inductive Event
  | pingTick (skipMessage : Bool)
  | timeoutTick (now : ℤ)
  | receivedPing (now now' : ℤ) (counter : UInt64)

def step (uniqueId : UInt64) (e : Event) (c : ClientInfo Address) :
    ClientInfo Address × List (Effect Address) :=
  match e with
  | .pingTick skipMessage => c.pingTick skipMessage uniqueId
  | .timeoutTick now => c.timeoutTick now uniqueId
  | .receivedPing now now' counter => c.receivedPing now now' uniqueId counter

theorem peer_pingTick (skipMessage : Bool) (uniqueId : UInt64) (c : ClientInfo Address) :
    ∀ x ∈ (c.pingTick skipMessage uniqueId).2, x.peer = uniqueId := by
  simp only [pingTick]
  split <;> [skip; simp]
  split <;> simp [Effect.peer, Message.getUniqueId]

theorem peer_timeoutTick (now : ℤ) (uniqueId : UInt64) (c : ClientInfo Address) :
    ∀ x ∈ (c.timeoutTick now uniqueId).2, x.peer = uniqueId := by
  simp only [timeoutTick]
  split <;> simp [Effect.peer]

theorem peer_receivedPing (now now' : ℤ) (uniqueId counter : UInt64) (c : ClientInfo Address) :
    ∀ x ∈ (c.receivedPing now now' uniqueId counter).2, x.peer = uniqueId := by
  simp only [receivedPing]
  split <;> simp [Effect.peer]

/-- The record as one side of the exchange. -/
def party (c : ClientInfo Address) : Party := ⟨c.messageCounter, c.reception⟩

/-- The ping itself if it is accepted, and nothing if it is dropped. -/
def accepted (m : PingMessage) (c : ClientInfo Address) : List PingMessage :=
  if c.messageCounterOtherNextExpected > m.counter then [] else [m]

theorem pingTick_run (skipMessage : Bool) (uniqueId : UInt64) (c : ClientInfo Address) :
    Party.Run Eq uniqueId c.party (c.pingTick skipMessage uniqueId).2 []
      (c.pingTick skipMessage uniqueId).1.party := by
  simp only [pingTick]
  split
  · split
    · exact (Party.Step.written c.messageCounter c.reception c.address c.port rfl).run
    · exact (Party.Step.skipped c.messageCounter c.reception rfl).run
  · exact .refl

theorem timeoutTick_run (now : ℤ) (uniqueId : UInt64) (c : ClientInfo Address) :
    Party.Run Eq uniqueId c.party (c.timeoutTick now uniqueId).2 []
      (c.timeoutTick now uniqueId).1.party := by
  simp only [timeoutTick]
  split
  · exact (Party.Step.lost c.messageCounter c.reception).run
  · exact .refl

theorem receivedPing_run (now now' : ℤ) (uniqueId : UInt64) (m : PingMessage)
    (c : ClientInfo Address) :
    Party.Run Eq uniqueId c.party (c.receivedPing now now' uniqueId m.counter).2
      (c.accepted m) (c.receivedPing now now' uniqueId m.counter).1.party := by
  simp only [receivedPing, accepted]
  split
  · exact .refl
  · rename_i hseen
    exact (Party.Step.seen c.messageCounter c.reception hseen).run

@[simp] theorem receivedPing_lastReal (now now' : ℤ) (uniqueId counter : UInt64)
    (c : ClientInfo Address) :
    (c.receivedPing now now' uniqueId counter).1.timeOfLastRealMessageFromOther = now' := by
  rw [receivedPing]
  split <;> rfl

/-- No handler changes where a record sends to. -/
theorem step_endpoint (uniqueId : UInt64) (e : Event) (c : ClientInfo Address) :
    (c.step uniqueId e).1.address = c.address ∧ (c.step uniqueId e).1.port = c.port := by
  cases e with
  | pingTick skipMessage =>
    simp only [step, pingTick]
    split <;> [split; skip] <;> exact ⟨rfl, rfl⟩
  | timeoutTick now =>
    simp only [step, timeoutTick]
    split <;> exact ⟨rfl, rfl⟩
  | receivedPing now now' counter =>
    simp only [step, receivedPing]
    split <;> exact ⟨rfl, rfl⟩

end ClientInfo

namespace Effect

theorem about_eq_self {uniqueId : UInt64} {log : List (Effect Address)}
    (h : ∀ x ∈ log, x.peer = uniqueId) : about uniqueId log = log := by
  rw [about, List.filter_eq_self]
  simpa using h

theorem about_eq_nil {uniqueId other : UInt64} {log : List (Effect Address)}
    (h : ∀ x ∈ log, x.peer = other) (hne : other ≠ uniqueId) : about uniqueId log = [] := by
  rw [about, List.filter_eq_nil_iff]
  intro x hx
  simpa [h x hx] using hne

end Effect

namespace Server

open Effect

variable {s : Server Address} {uniqueId : UInt64} {c : ClientInfo Address}

@[simp] theorem clientInfos_startOrStopTimersIfNeeded (now : ℤ) (s : Server Address) :
    (startOrStopTimersIfNeeded now s).clientInfos = s.clientInfos := by
  unfold startOrStopTimersIfNeeded
  split <;> [split; skip] <;> rfl

/-! ### Pings -/

theorem getElem?_pingRound (now : ℤ) (skipMessage : Bool) (s : Server Address)
    (uniqueId : UInt64) :
    (pingRound now skipMessage s).1.clientInfos[uniqueId]? =
      s.clientInfos[uniqueId]?.map fun c => (c.pingTick skipMessage uniqueId).1 :=
  Std.ExtTreeMap.getElem?_map

theorem about_pingRound (now : ℤ) (skipMessage : Bool) (s : Server Address)
    (uniqueId : UInt64) :
    about uniqueId (pingRound now skipMessage s).2 =
      (s.clientInfos[uniqueId]?.map fun c => (c.pingTick skipMessage uniqueId).2).getD [] :=
  TreeMap.filter_flatMap_toList s.clientInfos uniqueId
    fun e => ClientInfo.peer_pingTick skipMessage e.1 e.2

theorem run_pingRound (now : ℤ) (skipMessage : Bool) (rounds : List ℕ)
    (hc : s.clientInfos[uniqueId]? = some c) :
    let out := Trace.run (fun _ => pingRound now skipMessage) rounds s
    let entry := Trace.run (ClientInfo.step uniqueId)
      (rounds.map fun _ => .pingTick skipMessage) c
    out.1.clientInfos[uniqueId]? = some entry.1 ∧ about uniqueId out.2 = entry.2 := by
  induction rounds generalizing s c with
  | nil => exact ⟨hc, rfl⟩
  | cons i rounds ih =>
    have hnext := getElem?_pingRound now skipMessage s uniqueId
    have habout := about_pingRound now skipMessage s uniqueId
    rw [hc] at hnext habout
    obtain ⟨h1, h2⟩ := ih hnext
    simp only [Trace.run_cons, List.map_cons, about_append, h1, h2, habout]
    exact ⟨rfl, rfl⟩

theorem run_pingRound_none (now : ℤ) (skipMessage : Bool) (rounds : List ℕ)
    (hc : s.clientInfos[uniqueId]? = none) :
    let out := Trace.run (fun _ => pingRound now skipMessage) rounds s
    out.1.clientInfos[uniqueId]? = none ∧ about uniqueId out.2 = [] := by
  induction rounds generalizing s with
  | nil => exact ⟨hc, rfl⟩
  | cons i rounds ih =>
    have hnext := getElem?_pingRound now skipMessage s uniqueId
    have habout := about_pingRound now skipMessage s uniqueId
    rw [hc] at hnext habout
    obtain ⟨h1, h2⟩ := ih hnext
    simp only [Trace.run_cons, about_append, h1, h2, habout]
    exact ⟨trivial, rfl⟩

/-- The record events of one firing of the ping timer. -/
def pingTicks (now nextPingTime : ℤ) : List ClientInfo.Event :=
  List.replicate (numPingsMissed now nextPingTime) (.pingTick (skipMessage now nextPingTime))

theorem onPingTimer_entry (now : ℤ) (hc : s.clientInfos[uniqueId]? = some c) :
    let entry := Trace.run (ClientInfo.step uniqueId) (pingTicks now s.nextPingTime) c
    (s.onPingTimer now).1.clientInfos[uniqueId]? = some entry.1 ∧
      about uniqueId (s.onPingTimer now).2 = entry.2 := by
  have h := run_pingRound now (skipMessage now s.nextPingTime)
    (List.range (numPingsMissed now s.nextPingTime)) hc
  rwa [List.map_const', List.length_range] at h

theorem onPingTimer_none (now : ℤ) (hc : s.clientInfos[uniqueId]? = none) :
    (s.onPingTimer now).1.clientInfos[uniqueId]? = none ∧
      about uniqueId (s.onPingTimer now).2 = [] :=
  run_pingRound_none now _ _ hc

/-! ### Timeouts -/

/-- The Close a record gets when it is assumed dead. -/
def timeoutClose (uniqueId : UInt64) (c : ClientInfo Address) : Effect Address :=
  .writeDatagram (.close ⟨uniqueId, CloseMessage.reasonTimeout⟩) c.address c.port

theorem peer_timeoutClose (uniqueId : UInt64) (c : ClientInfo Address) :
    (timeoutClose uniqueId c).peer = uniqueId := rfl

section Loop

variable {restart restart' : Server Address → Server Address × List (Effect Address)}
  {now nowStart : ℤ} {k : UInt64}

/-- A dead client is removed, and the rest of the loop is left to the restart. -/
theorem timeoutLoop_dead (hdead : (c.timeoutTick now k).1.Dead now)
    (rest : List (UInt64 × ClientInfo Address)) (s : Server Address) :
    let restarted := restart { s with clientInfos := s.clientInfos.erase k }
    timeoutLoop restart now nowStart ((k, c) :: rest) s =
      (startOrStopTimersIfNeeded nowStart restarted.1,
        (c.timeoutTick now k).2 ++ timeoutClose k c :: restarted.2) := by
  simp only [timeoutLoop, if_pos hdead, TreeMap.erase_insert_self, timeoutClose]

theorem timeoutLoop_alive (halive : ¬ (c.timeoutTick now k).1.Dead now)
    (rest : List (UInt64 × ClientInfo Address)) (s : Server Address) :
    let done := timeoutLoop restart now nowStart rest
      { s with clientInfos := s.clientInfos.insert k (c.timeoutTick now k).1 }
    timeoutLoop restart now nowStart ((k, c) :: rest) s =
      (done.1, (c.timeoutTick now k).2 ++ done.2) := by
  simp only [timeoutLoop, if_neg halive]

/-- The loop only restarts with a client less than it was given. -/
theorem timeoutLoop_congr
    (hrestart : ∀ s', s'.clientInfos.size < s.clientInfos.size → restart s' = restart' s')
    (rest : List (UInt64 × ClientInfo Address)) (hrest : ∀ e ∈ rest, e.1 ∈ s.clientInfos) :
    timeoutLoop restart now nowStart rest s = timeoutLoop restart' now nowStart rest s := by
  induction rest generalizing s with
  | nil => rfl
  | cons e rest ih =>
    obtain ⟨k, c⟩ := e
    have hk : k ∈ s.clientInfos := hrest (k, c) List.mem_cons_self
    by_cases hdead : (c.timeoutTick now k).1.Dead now
    · rw [timeoutLoop_dead hdead, timeoutLoop_dead hdead]
      rw [hrestart _ (TreeMap.size_erase_lt hk)]
    · have hsize := TreeMap.size_insert_of_mem (v := (c.timeoutTick now k).1) hk
      rw [timeoutLoop_alive hdead, timeoutLoop_alive hdead]
      rw [ih (fun s' hs' => hrestart s' (hs'.trans_eq hsize))]
      intro e he
      exact Std.ExtTreeMap.mem_insert.mpr (.inr (hrest e (List.mem_cons_of_mem _ he)))

end Loop

/-- Any two bounds above the number of clients agree. -/
theorem timeoutSweep_eq {depth depth' : ℕ} (now : ℕ → ℤ) (nowStart : ℤ) (s : Server Address)
    (h : s.clientInfos.size < depth) (h' : s.clientInfos.size < depth') :
    timeoutSweep depth now nowStart s = timeoutSweep depth' now nowStart s := by
  induction depth generalizing depth' now s with
  | zero => exact absurd h (Nat.not_lt_zero _)
  | succ depth ih =>
    cases depth' with
    | zero => exact absurd h' (Nat.not_lt_zero _)
    | succ depth' =>
      apply timeoutLoop_congr
      · intro s' hless
        exact ih (fun i => now (i + 1)) s' (by omega) (by omega)
      · intro e he
        exact TreeMap.mem_of_mem_toList he

/-- The recursion of the source: the bound on the nested calls is never reached. -/
theorem onTimeoutTimer_eq (now : ℕ → ℤ) (nowStart : ℤ) (s : Server Address) :
    s.onTimeoutTimer now nowStart =
      timeoutLoop (onTimeoutTimer (fun i => now (i + 1)) nowStart) (now 0) nowStart
        s.clientInfos.toList s := by
  apply timeoutLoop_congr
  · intro s' hless
    exact timeoutSweep_eq _ nowStart s' hless (Nat.lt_succ_self _)
  · intro e he
    exact TreeMap.mem_of_mem_toList he

/-- What a sweep does to one record: some timeout ticks at readings in `R`, and then, if the
record is dead at the last of them, a Close and the removal. -/
inductive Swept (uniqueId : UInt64) (R : ℤ → Prop) :
    Option (ClientInfo Address) → Option (ClientInfo Address) → List (Effect Address) → Prop
  | refl (c : Option (ClientInfo Address)) : Swept uniqueId R c c []
  | dead {now : ℤ} {c : ClientInfo Address} (hnow : R now)
      (hdead : (c.timeoutTick now uniqueId).1.Dead now) :
      Swept uniqueId R (some c) none
        ((c.timeoutTick now uniqueId).2 ++ [timeoutClose uniqueId c])
  | tick {now : ℤ} {c : ClientInfo Address} {after : Option (ClientInfo Address)}
      {log : List (Effect Address)} (hnow : R now)
      (h : Swept uniqueId R (some (c.timeoutTick now uniqueId).1) after log) :
      Swept uniqueId R (some c) after ((c.timeoutTick now uniqueId).2 ++ log)

theorem Swept.mono {R Q : ℤ → Prop} {before after : Option (ClientInfo Address)}
    {log : List (Effect Address)} (h : Swept uniqueId R before after log)
    (hle : ∀ t, R t → Q t) : Swept uniqueId Q before after log := by
  induction h with
  | refl c => exact .refl c
  | dead hnow hdead => exact .dead (hle _ hnow) hdead
  | tick hnow _ ih => exact .tick (hle _ hnow) ih

/-- A swept record has handled timeout ticks, and then it is still there, or it is dead. -/
theorem Swept.run {R : ℤ → Prop} {c : ClientInfo Address} {after : Option (ClientInfo Address)}
    {log : List (Effect Address)} (h : Swept uniqueId R (some c) after log) :
    ∃ events c' log', (∀ x ∈ events, ∃ t, R t ∧ x = .timeoutTick t) ∧
      Trace.run (ClientInfo.step uniqueId) events c = (c', log') ∧
        (after = some c' ∧ log = log' ∨
          after = none ∧ (∃ t, R t ∧ c'.Dead t) ∧ log = log' ++ [timeoutClose uniqueId c']) := by
  generalize hb : some c = before at h
  induction h generalizing c with
  | refl =>
    subst hb
    exact ⟨[], c, [], by simp, rfl, .inl ⟨rfl, rfl⟩⟩
  | @dead now c₀ hnow hdead =>
    obtain rfl := Option.some.inj hb
    obtain ⟨haddress, hport⟩ := ClientInfo.step_endpoint uniqueId (.timeoutTick now) c
    have hclose : timeoutClose uniqueId (c.timeoutTick now uniqueId).1 = timeoutClose uniqueId c :=
      congrArg₂ (Effect.writeDatagram _) haddress hport
    refine ⟨[.timeoutTick now], _, _, List.forall_mem_singleton.mpr ⟨now, hnow, rfl⟩, rfl,
      .inr ⟨rfl, ⟨now, hnow, hdead⟩, ?_⟩⟩
    rw [Trace.run_nil, List.append_nil, ClientInfo.step, hclose]
  | @tick now c₀ after log hnow h ih =>
    obtain rfl := Option.some.inj hb
    obtain ⟨events, c', log', hevents, hrun, hend⟩ := ih rfl
    refine ⟨.timeoutTick now :: events, c', (c.timeoutTick now uniqueId).2 ++ log',
      List.forall_mem_cons.mpr ⟨⟨now, hnow, rfl⟩, hevents⟩, ?_, ?_⟩
    · rw [Trace.run_cons, ClientInfo.step, hrun]
    · rcases hend with ⟨hafter, hlog⟩ | ⟨hafter, hdead, hlog⟩
      · exact .inl ⟨hafter, by rw [hlog]⟩
      · exact .inr ⟨hafter, hdead, by rw [hlog, List.append_assoc]⟩

/-- The loop meets each record once, as the copy of the map shows it. -/
theorem swept_timeoutLoop {R : ℤ → Prop} {now nowStart : ℤ}
    {restart : Server Address → Server Address × List (Effect Address)} (hnow : R now)
    (hrestart : ∀ s, Swept uniqueId R s.clientInfos[uniqueId]?
      (restart s).1.clientInfos[uniqueId]? (about uniqueId (restart s).2))
    (rest : List (UInt64 × ClientInfo Address))
    (hdistinct : rest.Pairwise fun a b => a.1 ≠ b.1) (s : Server Address)
    (hrest : ∀ c, (uniqueId, c) ∈ rest → s.clientInfos[uniqueId]? = some c) :
    Swept uniqueId R s.clientInfos[uniqueId]?
      (timeoutLoop restart now nowStart rest s).1.clientInfos[uniqueId]?
      (about uniqueId (timeoutLoop restart now nowStart rest s).2) := by
  induction rest generalizing s with
  | nil => exact .refl _
  | cons entry rest ih =>
    obtain ⟨k, c⟩ := entry
    obtain ⟨hk_rest, hdistinct⟩ := List.pairwise_cons.mp hdistinct
    by_cases hk : k = uniqueId
    · subst hk
      have hself := about_eq_self (ClientInfo.peer_timeoutTick now k c)
      rw [hrest c List.mem_cons_self]
      by_cases hdead : (c.timeoutTick now k).1.Dead now
      · have hgone := hrestart { s with clientInfos := s.clientInfos.erase k }
        rw [timeoutLoop_dead hdead, about_append, hself, about_cons_of_peer (peer_timeoutClose k c),
          clientInfos_startOrStopTimersIfNeeded]
        -- nothing is left for the restart to do
        generalize restart _ = out at hgone ⊢
        rw [Std.ExtTreeMap.getElem?_erase_self] at hgone
        generalize about k out.2 = log at hgone ⊢
        generalize out.1.clientInfos[k]? = after at hgone ⊢
        cases hgone
        exact .dead hnow hdead
      · have hnext := ih hdistinct
          { s with clientInfos := s.clientInfos.insert k (c.timeoutTick now k).1 }
          fun c' hmem => (hk_rest _ hmem rfl).elim
        rw [Std.ExtTreeMap.getElem?_insert_self] at hnext
        rw [timeoutLoop_alive hdead, about_append, hself]
        exact .tick hnow hnext
    · have hother := about_eq_nil (ClientInfo.peer_timeoutTick now k c) hk
      by_cases hdead : (c.timeoutTick now k).1.Dead now
      · have hnext := hrestart { s with clientInfos := s.clientInfos.erase k }
        have hclose : (timeoutClose k c).peer ≠ uniqueId := hk
        rw [TreeMap.getElem?_erase, if_neg hk] at hnext
        rw [timeoutLoop_dead hdead, about_append, hother, about_cons_of_ne hclose,
          clientInfos_startOrStopTimersIfNeeded]
        exact hnext
      · have hkept : (s.clientInfos.insert k (c.timeoutTick now k).1)[uniqueId]? =
            s.clientInfos[uniqueId]? := by
          rw [TreeMap.getElem?_insert, if_neg hk]
        have hnext := ih hdistinct
          { s with clientInfos := s.clientInfos.insert k (c.timeoutTick now k).1 }
          fun c' hmem => hkept.trans (hrest c' (List.mem_cons_of_mem _ hmem))
        rw [hkept] at hnext
        rw [timeoutLoop_alive hdead, about_append, hother]
        exact hnext

theorem swept_timeoutSweep (depth : ℕ) (now : ℕ → ℤ) (nowStart : ℤ) (s : Server Address)
    (uniqueId : UInt64) :
    Swept uniqueId (fun t => ∃ i, t = now i) s.clientInfos[uniqueId]?
      (timeoutSweep depth now nowStart s).1.clientInfos[uniqueId]?
      (about uniqueId (timeoutSweep depth now nowStart s).2) := by
  induction depth generalizing now s with
  | zero => exact .refl _
  | succ depth ih =>
    apply swept_timeoutLoop ⟨0, rfl⟩ _ _ (TreeMap.distinct_toList _)
    · intro c hmem
      exact Std.ExtTreeMap.mem_toList_iff_getElem?_eq_some.mp hmem
    · intro s
      exact (ih _ s).mono fun t ⟨i, ht⟩ => ⟨i + 1, ht⟩

theorem onTimeoutTimer_entry (now : ℕ → ℤ) (nowStart : ℤ) (s : Server Address)
    (uniqueId : UInt64) :
    Swept uniqueId (fun t => ∃ i, t = now i) s.clientInfos[uniqueId]?
      (s.onTimeoutTimer now nowStart).1.clientInfos[uniqueId]?
      (about uniqueId (s.onTimeoutTimer now nowStart).2) :=
  swept_timeoutSweep _ now nowStart s uniqueId

/-! ### Messages -/

theorem receivedMessage_ping {now now' : ℤ} {address : Address} {port : UInt16}
    {m : PingMessage} (hc : s.clientInfos[m.uniqueId]? = some c) :
    let received := c.receivedPing now now' m.uniqueId m.counter
    s.receivedMessage now now' address port (.ping m) =
      ({ s with clientInfos := s.clientInfos.insert m.uniqueId received.1 }, received.2) := by
  simp only [receivedMessage, hc]

theorem receivedMessage_ping_none {now now' : ℤ} {address : Address} {port : UInt16}
    {m : PingMessage} (hc : s.clientInfos[m.uniqueId]? = none) :
    s.receivedMessage now now' address port (.ping m) =
      (s, [.writeDatagram (.close ⟨m.uniqueId, CloseMessage.reasonUnsolicited⟩)
        address port]) := by
  simp only [receivedMessage, hc]

/-- A Welcome is ignored, or it registers a client that was not known. -/
theorem receivedMessage_welcome_cases (now now' : ℤ) (address : Address) (port : UInt16)
    (m : WelcomeMessage) (s : Server Address) :
    ((m.uniqueId ∈ s.clientInfos ∨ m.pingIntervalInMs % baseTimerInterval ≠ 0) ∧
        s.receivedMessage now now' address port (.welcome m) = (s, [])) ∨
      (m.uniqueId ∉ s.clientInfos ∧ m.pingIntervalInMs % baseTimerInterval = 0 ∧
        s.receivedMessage now now' address port (.welcome m) =
          (startOrStopTimersIfNeeded now'
              { s with
                clientInfos := s.clientInfos.insert m.uniqueId
                  (.new address port m.pingIntervalInMs now) },
            [.writeDatagram (.welcome m) address port])) := by
  simp only [receivedMessage]
  by_cases hknown : m.uniqueId ∈ s.clientInfos
  · simp [hknown]
  · by_cases hinterval : m.pingIntervalInMs % baseTimerInterval = 0
    · simp [hknown, hinterval]
    · simp [hknown, hinterval]

/-- A Close of a client that is not known removes nothing either. -/
theorem receivedMessage_close (now now' : ℤ) (address : Address) (port : UInt16)
    (m : CloseMessage) (s : Server Address) :
    s.receivedMessage now now' address port (.close m) =
      ({ s with clientInfos := s.clientInfos.erase m.uniqueId }, []) := by
  simp only [receivedMessage]
  split
  · rename_i hunknown
    rw [TreeMap.erase_of_not_mem hunknown]
  · rfl

/-- A message of another client is not noticed. -/
theorem receivedMessage_other (now now' : ℤ) (address : Address) (port : UInt16)
    {m : Message} (hne : m.getUniqueId ≠ uniqueId) (s : Server Address) :
    (s.receivedMessage now now' address port m).1.clientInfos[uniqueId]? =
        s.clientInfos[uniqueId]? ∧
      about uniqueId (s.receivedMessage now now' address port m).2 = [] := by
  have hreply : ∀ m' : Message, m'.getUniqueId = m.getUniqueId →
      about uniqueId [writeDatagram m' address port] = [] := by
    intro m' hm'
    exact about_eq_nil (List.forall_mem_singleton.mpr hm') hne
  cases m with
  | ping m =>
    cases hc : s.clientInfos[m.uniqueId]? with
    | some c =>
      rw [receivedMessage_ping hc]
      refine ⟨?_, about_eq_nil (ClientInfo.peer_receivedPing now now' m.uniqueId m.counter c) hne⟩
      rw [TreeMap.getElem?_insert]
      exact if_neg hne
    | none =>
      rw [receivedMessage_ping_none hc]
      exact ⟨rfl, hreply _ rfl⟩
  | welcome m =>
    rcases receivedMessage_welcome_cases now now' address port m s with
      ⟨-, hignored⟩ | ⟨-, -, hregistered⟩
    · rw [hignored]
      exact ⟨rfl, rfl⟩
    · rw [hregistered, clientInfos_startOrStopTimersIfNeeded, TreeMap.getElem?_insert]
      exact ⟨if_neg hne, hreply _ rfl⟩
  | close m =>
    rw [receivedMessage_close, TreeMap.getElem?_erase]
    exact ⟨if_neg hne, rfl⟩

end Server

end PacketLossUtils
