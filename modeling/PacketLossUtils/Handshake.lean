import PacketLossUtils.Answers
import PacketLossUtils.Scheduling
import PacketLossUtils.System

/-! The client's `connect()` while the server and the network go on. -/
namespace PacketLossUtils

open Effect Relation

variable {Address : Type}

/-! ### What is written about an id -/

namespace Server

variable {s : Server Address} {e : Event Address} {uniqueId : UInt64} {c' : ClientInfo Address}

/-- A message about the id that is no answer to an unsolicited ping. -/
def Solicited (uniqueId : UInt64) (m : Message) : Prop :=
  m.getUniqueId = uniqueId ∧ m ≠ .close ⟨uniqueId, CloseMessage.reasonUnsolicited⟩

theorem Shows.solicited {before after : Option (Address × UInt16)}
    {ds : List (Message × Address × UInt16)} (h : Shows uniqueId e before ds after)
    {d : Message × Address × UInt16} (hd : d ∈ ds) (hsolicited : Solicited uniqueId d.1) :
    before.isSome ∨ after.isSome := by
  cases h with
  | quiet => cases hd
  | pings => exact .inl rfl
  | timedOut => exact .inl rfl
  | interrupted => exact .inl rfl
  | unsolicited =>
    rw [List.mem_singleton.mp hd] at hsolicited
    exact absurd rfl hsolicited.2
  | registered => exact .inr rfl
  | closed => cases hd

/-- The server writes to a client that it knows, or that it comes to know. -/
theorem step_solicited {m : Message} {address : Address} {port : UInt16}
    (h : .writeDatagram m address port ∈ (s.step e).2) (hsolicited : Solicited uniqueId m) :
    s.clientInfos[uniqueId]?.isSome ∨ (s.step e).1.clientInfos[uniqueId]?.isSome := by
  have hd : (m, address, port) ∈ datagrams uniqueId (s.step e).2 :=
    mem_datagrams.mpr ⟨h, hsolicited.1⟩
  have hshows := (step_shows uniqueId e s).solicited hd hsolicited
  simpa only [endpoint, Option.isSome_map] using hshows

/-- The interval of a record is that of its Welcome. -/
theorem step_originInterval (hc' : (s.step e).1.clientInfos[uniqueId]? = some c') :
    (∃ c, s.clientInfos[uniqueId]? = some c ∧ c'.interval = c.interval) ∨
      ∃ now now' address port m, e = .message now now' address port (.welcome m) ∧
        m.uniqueId = uniqueId ∧ c'.interval = m.pingIntervalInMs := by
  cases hc : s.clientInfos[uniqueId]? with
  | some c => exact .inl ⟨c, rfl, step_interval hc hc'⟩
  | none =>
    obtain ⟨-, -, hregister⟩ := step_unknown (e := e) hc
    obtain ⟨now, now', m, he, hid, hnew⟩ := hregister c' hc'
    refine .inr ⟨now, now', c'.address, c'.port, m, he, hid, ?_⟩
    rw [hnew]
    rfl

end Server

namespace Client

theorem pingRounds_no_welcome (now : ℤ) (skipMessage : Bool) (rounds : List ℕ)
    (c : Client Address) (m : WelcomeMessage) (address : Address) (port : UInt16) :
    .writeDatagram (.welcome m) address port ∉
      (Trace.run (fun (_ : ℕ) => pingRound now skipMessage) rounds c).2 := by
  induction rounds generalizing c with
  | nil => simp
  | cons i rounds ih =>
    rw [Trace.run_cons, List.mem_append, not_or]
    refine ⟨?_, ih _⟩
    simp only [pingRound, write]
    split <;> simp

/-- Any datagram that is not empty will do as a reply. -/
theorem connect_returns_iff (pending : ℕ → Option ℕ) (now now' : ℤ) (c : Client Address) :
    (c.connect pending now now').2 = true ↔
      c.isConnected = false ∧ ∃ i < 10, 0 < (pending i).getD 0 := by
  cases hconnected : c.isConnected with
  | true => simp [connect, hconnected]
  | false =>
    by_cases hreply : ∃ i < 10, 0 < (pending i).getD 0
    · have hany : (List.range 10).any (fun i => decide ((pending i).getD 0 > 0)) = true := by
        simpa [List.any_eq_true] using hreply
      simp only [connect, hconnected, hany]
      simpa using hreply
    · have hany : (List.range 10).any (fun i => decide ((pending i).getD 0 > 0)) = false := by
        simpa [List.any_eq_false] using hreply
      simp only [connect, hconnected, hany]
      simpa using hreply

theorem isConnected_connect (pending : ℕ → Option ℕ) (now now' : ℤ) (c : Client Address)
    (h : (c.connect pending now now').1.1.isConnected = true) :
    c.isConnected = true ∨ (c.connect pending now now').2 = true := by
  revert h
  simp only [connect]
  split <;> [skip; split] <;> simp_all

/-- A Welcome of the client has its id and its interval. -/
theorem step_welcomes [HostAddress Address] {c : Client Address} {e : Event Address}
    {m : WelcomeMessage} {address : Address} {port : UInt16}
    (h : .writeDatagram (.welcome m) address port ∈ (c.step e).2) :
    m = .new c.uniqueId c.interval := by
  cases e with
  | connect pending now now' =>
    simp only [step, connect, write] at h
    split at h <;> [skip; split at h] <;> simp at h
    · exact h.1
    · exact h.1
  | pingTimer now => exact absurd h (pingRounds_no_welcome now _ _ c m address port)
  | timeoutTimer now =>
    simp only [step, onTimeoutTimer] at h
    split at h <;> simp at h
  | sigInt =>
    simp only [step, onSigIntReceived, write] at h
    split at h <;> simp at h
  | message now address' port' message =>
    simp only [step, receivedMessage] at h
    split at h
    · simp at h
    cases message with
    | ping ping =>
      simp only [receivedPing] at h
      split at h <;> simp at h
    | close close =>
      dsimp only at h
      split at h <;> simp at h
    | welcome welcome => simp at h

end Client

/-! ### The handshake -/

/-- The server has a record of the client, with the client's interval. -/
def System.knowsClient (s : System Address) : Bool :=
  s.record.any fun c => c.interval = s.client.interval

theorem System.knowsClient_of_record {s : System Address} {c : ClientInfo Address}
    (hc : s.record = some c) (hinterval : c.interval = s.client.interval) :
    s.knowsClient = true := by
  simp [knowsClient, hc, hinterval]

/-- While `connect()` runs, `polls` is what it has found pending so far. The flag `registered`
says whether the server has known the client at any time, and steers nothing. -/
structure Handshake (Address : Type) where
  system : System Address
  polls : Option (List (Option QByteArray))
  registered : Bool

namespace Handshake

def start (clientAddress : Address) (clientPort : UInt16) (client : Client Address) :
    Handshake Address where
  system := .start clientAddress clientPort client
  polls := none
  registered := false

def become (s : System Address) (polls : Option (List (Option QByteArray)))
    (h : Handshake Address) : Handshake Address where
  system := s
  polls := polls
  registered := h.registered || s.knowsClient

theorem registered_become {h : Handshake Address} (s : System Address)
    (polls : Option (List (Option QByteArray))) (hreg : h.registered = true) :
    (h.become s polls).registered = true := by
  simp [become, hreg]

/-- The Welcome goes out and the polling begins. -/
def beginConnect (s : System Address) : System Address :=
  { s with
    clientLog := s.clientLog ++ [s.client.write (.welcome (.new s.uniqueId s.client.interval))] }

/-- The size of what poll number `i` has found. -/
def pendingSize (polls : List (Option QByteArray)) (i : ℕ) : Option ℕ :=
  polls[i]?.join.map List.length

/-- The polling is over; `now` and `now'` are the clock readings after a reply. -/
def endConnect (polls : List (Option QByteArray)) (now now' : ℤ) (s : System Address) :
    System Address :=
  { s with client := (s.client.connect (pendingSize polls) now now').1.1 }

/-- A poll that ends the polling. -/
def Reply (polls : List (Option QByteArray)) : Prop :=
  ∃ data, some data ∈ polls ∧ 0 < data.length

/-- What the server has written to the client about its registration: the answer to its Welcome, a
ping, or a Close that ends the session. -/
def Answer (s : System Address) (data : QByteArray) : Prop :=
  ∃ m, Server.Solicited s.uniqueId m ∧ data = m.getData ∧
    .writeDatagram m s.clientAddress s.clientPort ∈ s.serverLog

variable [HostAddress Address]

/-- The steps of the system go on during the polling, those of the client excepted. A poll finds
nothing, an empty datagram, or one that `Admits` allows. -/
inductive Step (qt : QtText) (Admits : System Address → QByteArray → Prop)
    (h : Handshake Address) : Handshake Address → Prop
  | network {s : System Address} (hstep : System.Step qt h.system s)
      (hclient : s.client = h.system.client ∧ s.clientLog = h.system.clientLog) :
      Step qt Admits h (h.become s h.polls)
  | client {s : System Address} (hstep : System.Step qt h.system s) (hidle : h.polls = none)
      (hconnect : s.client.isConnected = true → h.system.client.isConnected = true) :
      Step qt Admits h (h.become s none)
  | connect (hidle : h.polls = none) (hnot : h.system.client.isConnected = false) :
      Step qt Admits h (h.become (beginConnect h.system) (some []))
  | poll {polls : List (Option QByteArray)} (hpolls : h.polls = some polls)
      (hmore : polls.length < 10) (hwaiting : ¬ Reply polls) (found : Option QByteArray)
      (hfound : ∀ data, found = some data → 0 < data.length → Admits h.system data) :
      Step qt Admits h (h.become h.system (some (polls ++ [found])))
  | done {polls : List (Option QByteArray)} (hpolls : h.polls = some polls)
      (hdone : polls.length = 10 ∨ Reply polls) (now now' : ℤ) :
      Step qt Admits h (h.become (endConnect polls now now' h.system) none)

def Reachable (qt : QtText) (Admits : System Address → QByteArray → Prop)
    (h : Handshake Address) : Prop :=
  ∃ clientAddress clientPort serverAddress serverPort interval uniqueId,
    ReflTransGen (Step qt Admits)
      (start clientAddress clientPort (.new serverAddress serverPort interval uniqueId)) h

/-! ### Agreement -/

/-- What the logs, the record and the polls say about the registration. -/
structure Inv (h : Handshake Address) : Prop where
  welcomes : ∀ m address port, .writeDatagram (.welcome m) address port ∈ h.system.clientLog →
    m = .new h.system.uniqueId h.system.client.interval
  records : ∀ c, h.system.record = some c → c.interval = h.system.client.interval
  known : ∀ c, h.system.record = some c → h.registered = true
  answers : ∀ m address port, .writeDatagram m address port ∈ h.system.serverLog →
    Server.Solicited h.system.uniqueId m → h.registered = true
  polled : ∀ polls, h.polls = some polls → Reply polls → h.registered = true
  connected : h.system.client.isConnected = true → h.registered = true

variable {qt : QtText} {h h' : Handshake Address} {s s' : System Address}

/-- What a step of the system does to the Welcomes of the client and to its record. The client's
Welcomes carry its id and interval, and what the server writes about that id shows that it knows
the client. -/
structure Answering (s s' : System Address) : Prop where
  uniqueId : s'.uniqueId = s.uniqueId
  interval : s'.client.interval = s.client.interval
  welcomes : ∀ m address port, .writeDatagram (.welcome m) address port ∈ s'.clientLog →
    m = .new s.uniqueId s.client.interval
  records : (∀ c, s.record = some c → c.interval = s.client.interval) →
    ∀ c, s'.record = some c → c.interval = s.client.interval
  answers : ∀ m address port, .writeDatagram m address port ∈ s'.serverLog →
    Server.Solicited s.uniqueId m →
      .writeDatagram m address port ∈ s.serverLog ∨ s.record.isSome ∨ s'.record.isSome

theorem clientStep_answering (e : Client.Event Address)
    (hwelcomes : ∀ m address port, .writeDatagram (.welcome m) address port ∈ s.clientLog →
      m = .new s.uniqueId s.client.interval) : Answering s (s.clientStep e) := by
  have hsetup := Client.step_setup e s.client
  refine ⟨hsetup.uniqueId, hsetup.interval, ?_, ?_, fun m address port hm _ => .inl hm⟩
  · intro m address port hm
    rcases List.mem_append.mp hm with hm | hm
    · exact hwelcomes m address port hm
    · exact Client.step_welcomes hm
  · intro hrecords c hc
    have hsame : (s.clientStep e).uniqueId = s.uniqueId := hsetup.uniqueId
    rw [System.record, hsame] at hc
    exact hrecords c hc

omit [HostAddress Address] in
/-- A Welcome under the client's id is one of its own. -/
theorem serverStep_answering (e : Server.Event Address)
    (hwelcomes : ∀ m address port, .writeDatagram (.welcome m) address port ∈ s.clientLog →
      m = .new s.uniqueId s.client.interval)
    (he : ∀ now now' address port m, e = .message now now' address port (.welcome m) →
      m.uniqueId = s.uniqueId → m.pingIntervalInMs = s.client.interval) :
    Answering s (s.serverStep e) := by
  refine ⟨rfl, rfl, hwelcomes, ?_, ?_⟩
  · intro hrecords c hc
    rcases Server.step_originInterval hc with
      ⟨c₀, hc₀, hinterval⟩ | ⟨now, now', address, port, m, rfl, hid, hinterval⟩
    · exact hinterval.trans (hrecords c₀ hc₀)
    · exact hinterval.trans (he now now' address port m rfl hid)
  · intro m address port hm hsolicited
    rcases List.mem_append.mp hm with hm | hm
    · exact .inl hm
    · exact .inr (Server.step_solicited hm hsolicited)

theorem system_step (hstep : System.Step qt s s')
    (hwelcomes : ∀ m address port, .writeDatagram (.welcome m) address port ∈ s.clientLog →
      m = .new s.uniqueId s.client.interval) : Answering s s' := by
  cases hstep with
  | client e he => exact clientStep_answering e hwelcomes
  | server e he =>
    exact serverStep_answering e hwelcomes fun _ _ _ _ _ hm => (he _ _ _ _ _ hm).elim
  | @toServer sent received now now' hsent hparse =>
    apply serverStep_answering _ hwelcomes
    intro _ _ _ _ m hm hid
    cases hm
    obtain ⟨m', rfl⟩ := NetworkCore.parse_eq_welcome hparse
    obtain rfl := hwelcomes m' _ _ hsent
    rw [NetworkCore.parseIncomingMessage_getData qt
      (m := .welcome (.new s.uniqueId s.client.interval)) rfl] at hparse
    cases hparse
    rfl
  | toClient now address port hsent hparse => exact clientStep_answering _ hwelcomes
  | otherToServer now now' hendpoint hid =>
    apply serverStep_answering _ hwelcomes
    intro _ _ _ _ m hm hid'
    cases hm
    exact absurd hid' hid
  | otherToClient now m hendpoint => exact clientStep_answering _ hwelcomes

theorem Inv.system {polls : Option (List (Option QByteArray))} (hinv : Inv h)
    (hstep : System.Step qt h.system s)
    (hpolls : ∀ seen, polls = some seen → h.polls = some seen)
    (hconnect : s.client.isConnected = true → h.system.client.isConnected = true) :
    Inv (h.become s polls) := by
  obtain ⟨hid, hinterval, hwelcomes, hrecords, hanswers⟩ := system_step hstep hinv.welcomes
  have hrecords' : ∀ c, s.record = some c → c.interval = s.client.interval := by
    intro c hc
    exact (hrecords hinv.records c hc).trans hinterval.symm
  have hknown : ∀ c, s.record = some c → (h.become s polls).registered = true := by
    intro c hc
    simp [become, System.knowsClient_of_record hc (hrecords' c hc)]
  refine ⟨?_, hrecords', hknown, ?_, ?_, ?_⟩
  · intro m address port hm
    rw [hwelcomes m address port hm]
    simp only [become, hid, hinterval]
  · intro m address port hm hsolicited
    have hsolicited' : Server.Solicited h.system.uniqueId m := hid ▸ hsolicited
    rcases hanswers m address port hm hsolicited' with hold | hbefore | hafter
    · exact registered_become s polls (hinv.answers m address port hold hsolicited')
    · obtain ⟨c, hc⟩ := Option.isSome_iff_exists.mp hbefore
      exact registered_become s polls (hinv.known c hc)
    · obtain ⟨c, hc⟩ := Option.isSome_iff_exists.mp hafter
      exact hknown c hc
  · intro seen hseen hreply
    exact registered_become s polls (hinv.polled seen (hpolls seen hseen) hreply)
  · intro hconnected
    exact registered_become s polls (hinv.connected (hconnect hconnected))

/-- A poll with a non-empty datagram is what it takes for `connect()` to return true. -/
theorem reply_of_pendingSize {polls : List (Option QByteArray)} {i : ℕ}
    (hi : 0 < (pendingSize polls i).getD 0) : Reply polls := by
  rw [pendingSize] at hi
  cases hfound : polls[i]? with
  | none => simp [hfound] at hi
  | some found =>
    cases found with
    | none => simp [hfound] at hi
    | some data => exact ⟨data, List.mem_of_getElem? hfound, by simpa [hfound] using hi⟩

omit [HostAddress Address] in
theorem Inv.connect (hinv : Inv h) : Inv (h.become (beginConnect h.system) (some [])) := by
  refine ⟨?_, hinv.records, fun c hc => registered_become _ _ (hinv.known c hc), ?_, ?_, ?_⟩
  · intro m address port hm
    rcases List.mem_append.mp hm with hm | hm
    · exact hinv.welcomes m address port hm
    · cases List.mem_singleton.mp hm
      rfl
  · intro m address port hm hid
    exact registered_become _ _ (hinv.answers m address port hm hid)
  · intro polls hpolls hreply
    cases hpolls
    obtain ⟨data, hdata, _⟩ := hreply
    cases hdata
  · intro hconnected
    exact registered_become _ _ (hinv.connected hconnected)

omit [HostAddress Address] in
/-- A poll that ends the polling has found what the server wrote to a client it knew. -/
theorem Inv.poll (hinv : Inv h) {polls : List (Option QByteArray)} (hwaiting : ¬ Reply polls)
    {found : Option QByteArray}
    (hfound : ∀ data, found = some data → 0 < data.length → Answer h.system data) :
    Inv (h.become h.system (some (polls ++ [found]))) := by
  refine ⟨hinv.welcomes, hinv.records, fun c hc => registered_become _ _ (hinv.known c hc), ?_, ?_,
    ?_⟩
  · intro m address port hm hsolicited
    exact registered_become _ _ (hinv.answers m address port hm hsolicited)
  · intro seen hseen hreply
    cases hseen
    obtain ⟨data, hdata, hsize⟩ := hreply
    rcases List.mem_append.mp hdata with hdata | hdata
    · exact absurd ⟨data, hdata, hsize⟩ hwaiting
    · obtain ⟨m, hsolicited, -, hm⟩ := hfound data (List.mem_singleton.mp hdata).symm hsize
      exact registered_become _ _ (hinv.answers m _ _ hm hsolicited)
  · intro hconnected
    exact registered_become _ _ (hinv.connected hconnected)

theorem Inv.done (hinv : Inv h) {polls : List (Option QByteArray)} (hpolls : h.polls = some polls)
    (now now' : ℤ) : Inv (h.become (endConnect polls now now' h.system) none) := by
  have hsetup := Client.step_setup (.connect (pendingSize polls) now now') h.system.client
  have hrecord : (endConnect polls now now' h.system).record = h.system.record :=
    congrArg (h.system.server.clientInfos[·]?) hsetup.uniqueId
  refine ⟨?_, ?_, ?_, ?_, ?_, ?_⟩
  · intro m address port hm
    rw [hinv.welcomes m address port hm]
    exact congrArg₂ WelcomeMessage.new hsetup.uniqueId.symm hsetup.interval.symm
  · intro c hc
    exact (hinv.records c (hrecord ▸ hc)).trans hsetup.interval.symm
  · intro c hc
    exact registered_become _ _ (hinv.known c (hrecord ▸ hc))
  · intro m address port hm hsolicited
    have hid : (endConnect polls now now' h.system).uniqueId = h.system.uniqueId := hsetup.uniqueId
    exact registered_become _ _ (hinv.answers m address port hm (hid ▸ hsolicited))
  · intro seen hseen
    cases hseen
  · intro hconnected
    apply registered_become
    rcases Client.isConnected_connect _ now now' h.system.client hconnected with hbefore | hreturned
    · exact hinv.connected hbefore
    · obtain ⟨_, i, _, hi⟩ := (Client.connect_returns_iff _ now now' _).mp hreturned
      exact hinv.polled polls hpolls (reply_of_pendingSize hi)

theorem Inv.step (hinv : Inv h) (hstep : Step qt Answer h h') : Inv h' := by
  cases hstep with
  | network hstep hclient =>
    apply hinv.system hstep (fun _ hseen => hseen)
    rw [hclient.1]
    exact id
  | client hstep hidle hconnect => exact hinv.system hstep (fun _ hseen => by cases hseen) hconnect
  | connect hidle hnot => exact hinv.connect
  | poll hpolls hmore hwaiting found hfound => exact hinv.poll hwaiting hfound
  | done hpolls hdone now now' => exact hinv.done hpolls now now'

theorem Inv.of_reachable (hreach : Reachable qt Answer h) : Inv h := by
  obtain ⟨clientAddress, clientPort, serverAddress, serverPort, interval, uniqueId, hsteps⟩ :=
    hreach
  induction hsteps with
  | refl =>
    have hnone : ∀ c, (start clientAddress clientPort
        (.new serverAddress serverPort interval uniqueId)).system.record ≠ some c := by
      simp [start, System.start, System.record, Server.new]
    refine ⟨?_, fun c hc => absurd hc (hnone c), fun c hc => absurd hc (hnone c), ?_, ?_, ?_⟩
    · simp [start, System.start]
    · simp [start, System.start]
    · simp [start]
    · simp [start, System.start, Client.new]
  | tail _ hstep ih => exact ih.step hstep

/-- If the polls find no other datagrams than those the server has written to the client about its
registration, a client that is connected has been registered with its interval. But `connect()`
returns true for every datagram that is not empty. -/
theorem agreement (qt : QtText) :
    (∀ h : Handshake Address, Reachable qt Answer h → h.system.client.isConnected = true →
      h.registered = true) ∧
    (∀ (pending : ℕ → Option ℕ) (now now' : ℤ) (c : Client Address),
      (c.connect pending now now').2 = true ↔
        c.isConnected = false ∧ ∃ i < 10, 0 < (pending i).getD 0) := by
  refine ⟨?_, Client.connect_returns_iff⟩
  intro h hreach hconnected
  exact (Inv.of_reachable hreach).connected hconnected

/-- The Welcome reaches the server, and the first poll finds the answer. -/
theorem agreement_answered :
    ∃ h : Handshake ℕ, Reachable QtText.ascii Answer h ∧ h.system.client.isConnected = true ∧
      h.registered = true := by
  let welcome : Message := .welcome (.new 7 250)
  let h₀ : Handshake ℕ := start 5 6 (.new 1 9 250 7)
  let h₁ : Handshake ℕ := h₀.become (beginConnect h₀.system) (some [])
  let h₂ : Handshake ℕ := h₁.become (h₁.system.serverStep (.message 10 10 5 6 welcome)) (some [])
  let h₃ : Handshake ℕ := h₂.become h₂.system (some [some welcome.getData])
  let h₄ : Handshake ℕ := h₃.become (endConnect [some welcome.getData] 100 100 h₃.system) none
  have hsize : 0 < welcome.getData.length := by decide
  have hconnect : Step QtText.ascii Answer h₀ h₁ := .connect rfl rfl
  have hparse : NetworkCore.parseIncomingMessage QtText.ascii welcome.getData =
      .ok (some welcome) := NetworkCore.parseIncomingMessage_getData _ (m := welcome) rfl
  have hserver : Step QtText.ascii Answer h₁ h₂ :=
    .network (.toServer 10 10 (List.mem_singleton.mpr rfl) hparse) ⟨rfl, rfl⟩
  have hanswered : .writeDatagram welcome 5 6 ∈
      ((Server.new : Server ℕ).step (.message 10 10 5 6 welcome)).2 := by
    rcases Server.receivedMessage_welcome_cases 10 10 5 6 (.new 7 250) (.new : Server ℕ) with
      ⟨hreason, -⟩ | ⟨-, -, hregistered⟩
    · exact absurd hreason (by decide)
    · have hlog : ((Server.new : Server ℕ).step (.message 10 10 5 6 welcome)).2 =
          [.writeDatagram welcome 5 6] := congrArg Prod.snd hregistered
      rw [hlog]
      exact List.mem_singleton.mpr rfl
  have hanswer : Answer h₂.system welcome.getData :=
    ⟨welcome, ⟨rfl, nofun⟩, rfl, List.mem_append_right [] hanswered⟩
  have hpoll : Step QtText.ascii Answer h₂ h₃ := by
    refine Step.poll (h := h₂) rfl (by decide) ?_ (some welcome.getData) ?_
    · rintro ⟨_, hdata, _⟩
      cases hdata
    · intro data hdata _
      cases hdata
      exact hanswer
  have hdone : Step QtText.ascii Answer h₃ h₄ :=
    .done rfl (.inr ⟨welcome.getData, List.mem_singleton.mpr rfl, hsize⟩) 100 100
  have hreach : Reachable QtText.ascii Answer h₄ :=
    ⟨5, 6, 1, 9, 250, 7, (((ReflTransGen.single hconnect).tail hserver).tail hpoll).tail hdone⟩
  have hconnected : h₄.system.client.isConnected = true := by decide +kernel
  exact ⟨h₄, hreach, hconnected, (agreement QtText.ascii).1 h₄ hreach hconnected⟩

/-- One byte from anywhere, before the Welcome has reached the server. -/
theorem not_agreement_foreign_datagram :
    ¬ ∀ h : Handshake ℕ, Reachable QtText.ascii (fun _ _ => True) h →
      h.system.client.isConnected = true → h.registered = true := by
  intro hagree
  let h₀ : Handshake ℕ := start 5 6 (.new 1 9 250 7)
  let h₁ : Handshake ℕ := h₀.become (beginConnect h₀.system) (some [])
  let h₂ : Handshake ℕ := h₁.become h₁.system (some [some [0]])
  let h₃ : Handshake ℕ := h₂.become (endConnect [some [0]] 100 100 h₂.system) none
  have hconnect : Step QtText.ascii (fun _ _ => True) h₀ h₁ := .connect rfl rfl
  have hpoll : Step QtText.ascii (fun _ _ => True) h₁ h₂ := by
    refine Step.poll (h := h₁) rfl (by decide) ?_ (some [0]) (fun _ _ _ => trivial)
    rintro ⟨_, hdata, _⟩
    cases hdata
  have hdone : Step QtText.ascii (fun _ _ => True) h₂ h₃ :=
    .done rfl (.inr ⟨[0], List.mem_singleton.mpr rfl, by decide⟩) 100 100
  have hregistered := hagree h₃
    ⟨5, 6, 1, 9, 250, 7, ((ReflTransGen.single hconnect).tail hpoll).tail hdone⟩
    (by decide +kernel)
  revert hregistered
  decide +kernel

end Handshake

end PacketLossUtils
