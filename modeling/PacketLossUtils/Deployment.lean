import Mathlib.Algebra.BigOperators.Group.Finset.Basic
import Mathlib.Algebra.Order.BigOperators.Group.Finset
import PacketLossUtils.Conservation

/-! Any number of clients of one server, each of which sees a system of two. -/
namespace PacketLossUtils

open Effect Relation

/-- A client, where it sends from, and what is kept beside it. -/
structure Seat (Address : Type) where
  address : Address
  port : UInt16
  client : Client Address
  log : List (Effect Address)
  acceptedByClient : List PingMessage
  acceptedByServer : List PingMessage

structure Deployment (ι Address : Type) where
  server : Server Address
  serverLog : List (Effect Address)
  seat : ι → Seat Address

namespace Deployment

variable {ι Address : Type} {d d' : Deployment ι Address} {i j : ι} {qt : QtText}

def start (seat : ι → Seat Address) : Deployment ι Address := ⟨.new, [], seat⟩

/-- What one client and the server are to each other. -/
def view (d : Deployment ι Address) (i : ι) : System Address where
  clientAddress := (d.seat i).address
  clientPort := (d.seat i).port
  client := (d.seat i).client
  server := d.server
  clientLog := (d.seat i).log
  serverLog := d.serverLog
  acceptedByClient := (d.seat i).acceptedByClient
  acceptedByServer := (d.seat i).acceptedByServer

def serverStep (e : Server.Event Address) (d : Deployment ι Address) : Deployment ι Address where
  server := (d.server.step e).1
  serverLog := d.serverLog ++ (d.server.step e).2
  seat i := { d.seat i with
    acceptedByServer := (d.seat i).acceptedByServer ++
      d.server.accepted (d.seat i).client.uniqueId e }

/-- No two clients have an endpoint or an id in common. -/
def Distinct (d : Deployment ι Address) : Prop :=
  ∀ i j, i ≠ j → ¬ ((d.seat i).address = (d.seat j).address ∧ (d.seat i).port = (d.seat j).port) ∧
    (d.seat i).client.uniqueId ≠ (d.seat j).client.uniqueId

/-- A client that has just been constructed. -/
def Fresh (seat : Seat Address) : Prop :=
  ∃ serverAddress serverPort interval uniqueId,
    seat.client = .new serverAddress serverPort interval uniqueId ∧ seat.log = [] ∧
      seat.acceptedByClient = [] ∧ seat.acceptedByServer = []

variable [HostAddress Address] [DecidableEq ι]

def clientStep (i : ι) (e : Client.Event Address) (d : Deployment ι Address) :
    Deployment ι Address :=
  { d with
    seat := Function.update d.seat i { d.seat i with
      client := ((d.seat i).client.step e).1
      log := (d.seat i).log ++ ((d.seat i).client.step e).2
      acceptedByClient := (d.seat i).acceptedByClient ++ (d.seat i).client.accepted e } }

theorem view_clientStep_self (i : ι) (e : Client.Event Address) (d : Deployment ι Address) :
    (d.clientStep i e).view i = (d.view i).clientStep e := by
  simp only [view, clientStep, Function.update_self]
  rfl

theorem view_clientStep_other (e : Client.Event Address) (d : Deployment ι Address)
    (hne : j ≠ i) : (d.clientStep i e).view j = d.view j := by
  simp only [view, clientStep, Function.update_of_ne hne]

/-- As in a system of two, for every client: timers and signals come at any time, and so does any
datagram ever sent to an endpoint. Others send from other endpoints, and to the server under other
ids. -/
inductive Step (qt : QtText) (d : Deployment ι Address) : Deployment ι Address → Prop
  | client (i : ι) (e : Client.Event Address)
      (he : ∀ now address port m, e ≠ .message now address port m) : Step qt d (d.clientStep i e)
  | server (e : Server.Event Address)
      (he : ∀ now now' address port m, e ≠ .message now now' address port m) :
      Step qt d (d.serverStep e)
  | toServer (i : ι) {sent received : Message} (now now' : ℤ)
      (hsent : .writeDatagram sent (d.seat i).client.serverHostAddress
        (d.seat i).client.serverPort ∈ (d.seat i).log)
      (hparse : NetworkCore.parseIncomingMessage qt sent.getData = .ok (some received)) :
      Step qt d (d.serverStep (.message now now' (d.seat i).address (d.seat i).port received))
  | toClient (i : ι) {sent received : Message} (now : ℤ) (address : Address) (port : UInt16)
      (hsent : .writeDatagram sent (d.seat i).address (d.seat i).port ∈ d.serverLog)
      (hparse : NetworkCore.parseIncomingMessage qt sent.getData = .ok (some received)) :
      Step qt d (d.clientStep i (.message now address port received))
  | otherToServer (now now' : ℤ) {address : Address} {port : UInt16} {m : Message}
      (hendpoint : ∀ i, ¬ (address = (d.seat i).address ∧ port = (d.seat i).port))
      (hid : ∀ i, m.getUniqueId ≠ (d.seat i).client.uniqueId) :
      Step qt d (d.serverStep (.message now now' address port m))
  | otherToClient (i : ι) (now : ℤ) {address : Address} {port : UInt16} (m : Message)
      (hendpoint : HostAddress.isEqual address (d.seat i).client.serverHostAddress = false ∨
        port ≠ (d.seat i).client.serverPort) :
      Step qt d (d.clientStep i (.message now address port m))

/-- A step within the registrations: no record of a client, once it is there, is removed. -/
def Next (qt : QtText) (d d' : Deployment ι Address) : Prop :=
  Step qt d d' ∧ ∀ i, (d.view i).record.isSome → (d'.view i).record.isSome

/-- The deployments reached from clients just constructed. -/
def Reachable (qt : QtText) (d : Deployment ι Address) : Prop :=
  ∃ seat : ι → Seat Address, (∀ i, Fresh (seat i)) ∧ Distinct (start seat) ∧
    ReflTransGen (Next qt) (start seat) d

theorem distinct_step (h : Distinct d) (hstep : Step qt d d') : Distinct d' := by
  have hserver : ∀ e, Distinct (d.serverStep e) := fun _ => h
  have hclient : ∀ i e, Distinct (d.clientStep i e) := by
    intro i e
    have hsame : ∀ j, ((d.clientStep i e).seat j).address = (d.seat j).address ∧
        ((d.clientStep i e).seat j).port = (d.seat j).port ∧
          ((d.clientStep i e).seat j).client.uniqueId = (d.seat j).client.uniqueId := by
      intro j
      by_cases hj : j = i
      · subst hj
        simp only [clientStep, Function.update_self]
        exact ⟨trivial, trivial, (Client.step_setup e _).uniqueId⟩
      · simp only [clientStep, Function.update_of_ne hj]
        exact ⟨trivial, trivial, trivial⟩
    intro j k hne
    rw [(hsame j).1, (hsame j).2.1, (hsame j).2.2, (hsame k).1, (hsame k).2.1, (hsame k).2.2]
    exact h j k hne
  cases hstep with
  | client i e he => exact hclient i e
  | server e he => exact hserver e
  | toServer => exact hserver _
  | toClient => exact hclient _ _
  | otherToServer => exact hserver _
  | otherToClient => exact hclient _ _

/-- To a client, the others are other parties. -/
theorem step_view (hdistinct : Distinct d) (hsound : ∀ i, (d.view i).Sound)
    (hstep : Step qt d d') (j : ι) :
    d'.view j = d.view j ∨ System.Step qt (d.view j) (d'.view j) := by
  cases hstep with
  | client i e he =>
    by_cases hj : j = i
    · subst hj
      rw [view_clientStep_self]
      exact .inr (.client e he)
    · exact .inl (view_clientStep_other e d hj)
  | server e he => exact .inr (.server e he)
  | @toServer i sent received now now' hsent hparse =>
    by_cases hj : j = i
    · subst hj
      exact .inr (.toServer now now' hsent hparse)
    · obtain ⟨hendpoint, hid⟩ := hdistinct i j (Ne.symm hj)
      obtain ⟨hbuilt, hown⟩ := (hsound i).clientWrites _ _ _ hsent
      rw [NetworkCore.parseIncomingMessage_getData qt hbuilt] at hparse
      obtain rfl : sent = received := by simpa using hparse
      refine .inr (.otherToServer now now' hendpoint ?_)
      rw [hown]
      exact hid
  | toClient i now address port hsent hparse =>
    by_cases hj : j = i
    · subst hj
      rw [view_clientStep_self]
      exact .inr (.toClient now address port hsent hparse)
    · exact .inl (view_clientStep_other _ d hj)
  | otherToServer now now' hendpoint hid =>
    exact .inr (.otherToServer now now' (hendpoint j) (hid j))
  | otherToClient i now m hendpoint =>
    by_cases hj : j = i
    · subst hj
      rw [view_clientStep_self]
      exact .inr (.otherToClient now m hendpoint)
    · exact .inl (view_clientStep_other _ d hj)

omit [DecidableEq ι] in
theorem reachable_start {seat : ι → Seat Address} (hfresh : ∀ i, Fresh (seat i)) (i : ι) :
    System.Reachable qt ((start seat).view i) := by
  obtain ⟨serverAddress, serverPort, interval, uniqueId, hclient, hlog, hbyClient, hbyServer⟩ :=
    hfresh i
  refine ⟨(seat i).address, (seat i).port, serverAddress, serverPort, interval, uniqueId, ?_⟩
  rw [view, start, hclient, hlog, hbyClient, hbyServer]
  exact .refl

/-- Whatever all the others do, every client and the server are a system of two. -/
theorem reachable_view (h : Reachable qt d) (i : ι) : System.Reachable qt (d.view i) := by
  obtain ⟨seat, hfresh, hdistinct, hrun⟩ := h
  suffices hall : Distinct d ∧ ∀ i, System.Reachable qt (d.view i) from hall.2 i
  clear i
  induction hrun with
  | refl => exact ⟨hdistinct, reachable_start hfresh⟩
  | tail _ hnext ih =>
    obtain ⟨hdistinct, hreach⟩ := ih
    obtain ⟨hstep, hstays⟩ := hnext
    refine ⟨distinct_step hdistinct hstep, fun i => ?_⟩
    have hsound : ∀ i, System.Sound _ := fun i => .of_reachable (hreach i)
    rcases step_view hdistinct hsound hstep i with hsame | hmove
    · rw [hsame]
      exact hreach i
    · obtain ⟨_, _, _, _, _, _, hrun⟩ := hreach i
      exact ⟨_, _, _, _, _, _, hrun.tail ⟨hmove, hstays i⟩⟩

/-- Every client of a deployment is in a system of two with the server, so that over any clients
together no more was received than the other side sent. -/
theorem totals (h : Reachable qt d) :
    (∀ i, System.Reachable qt (d.view i)) ∧
      ∀ (clients : Finset ι) (record : ι → ClientInfo Address),
        (∀ i ∈ clients, (d.view i).NoWrap ∧ (d.view i).record = some (record i)) →
          ∑ i ∈ clients, (record i).pingStats.packetsReceived.toNat ≤
              ∑ i ∈ clients, (d.seat i).client.clientStats.packetsSent.toNat ∧
            ∑ i ∈ clients, (d.seat i).client.clientStats.packetsReceived.toNat ≤
              ∑ i ∈ clients, (record i).pingStats.packetsSent.toNat := by
  refine ⟨reachable_view h, ?_⟩
  intro clients record hrecord
  have hle : ∀ i ∈ clients, _ := fun i hi =>
    System.received_le (reachable_view h i) (hrecord i hi).1 (hrecord i hi).2
  exact ⟨Finset.sum_le_sum fun i hi => (hle i hi).1, Finset.sum_le_sum fun i hi => (hle i hi).2⟩

/-! ### Two clients -/

/-- The clients 7 and 8, from different addresses. -/
def seats (second : Bool) : Seat ℕ where
  address := if second then 3 else 2
  port := 5000
  client := .new 1 9000 250 (if second then 8 else 7)
  log := []
  acceptedByClient := []
  acceptedByServer := []

def register (second : Bool) (d : Deployment Bool ℕ) : Deployment Bool ℕ :=
  (d.clientStep second (.connect (fun _ => some 1) 0 0)).serverStep
    (.message 0 0 (seats second).address 5000
      (.welcome (.new (seats second).client.uniqueId 250)))

def bothRegistered : Deployment Bool ℕ := register true (register false (start seats))

theorem reachable_bothRegistered : Reachable .ascii bothRegistered := by
  have hdistinct : Distinct (start seats) := by
    unfold Distinct
    decide
  refine ⟨seats, fun second => ⟨1, 9000, 250, _, rfl, rfl, rfl, rfl⟩, hdistinct, ?_⟩
  have hparse : ∀ uniqueId, NetworkCore.parseIncomingMessage .ascii
      (Message.welcome (.new uniqueId 250)).getData = .ok (some (.welcome (.new uniqueId 250))) :=
    fun uniqueId => NetworkCore.parseIncomingMessage_getData .ascii rfl
  have h₁ : ReflTransGen (Next .ascii) (start seats) ((start seats).clientStep false
      (.connect (fun _ => some 1) 0 0)) :=
    .single ⟨.client false _ (by simp), by decide⟩
  have h₂ := h₁.tail ⟨.toServer false 0 0 (List.mem_singleton.mpr rfl) (hparse 7), by decide⟩
  have h₃ := h₂.tail ⟨.client true (.connect (fun _ => some 1) 0 0) (by simp),
    by decide +kernel⟩
  exact h₃.tail ⟨.toServer true 0 0 (List.mem_singleton.mpr rfl) (hparse 8), by decide +kernel⟩

def firstPing (second : Bool) : PingMessage := ⟨(seats second).client.uniqueId, 0, .initialized⟩

/-- The ping of the server comes to a client, and then one of that client to the server. -/
def exchange (second : Bool) (d : Deployment Bool ℕ) : Deployment Bool ℕ :=
  ((d.clientStep second (.message 250 1 9000 (.ping (firstPing second)))).clientStep second
    (.pingTimer 250)).serverStep
      (.message 250 250 (seats second).address 5000 (.ping (firstPing second)))

def bothPinged : Deployment Bool ℕ := bothRegistered.serverStep (.pingTimer 250)

def bothHeard : Deployment Bool ℕ := exchange true (exchange false bothPinged)

theorem reachable_bothHeard : Reachable .ascii bothHeard := by
  obtain ⟨seat, hfresh, hdistinct, h⟩ := reachable_bothRegistered
  have hparse : ∀ second, NetworkCore.parseIncomingMessage .ascii
      (Message.ping (firstPing second)).getData = .ok (some (.ping (firstPing second))) :=
    fun second => NetworkCore.parseIncomingMessage_getData .ascii
      PingStats.represents_initialized.encodable
  have h₁ := h.tail ⟨.server (.pingTimer 250) (by simp), by decide +kernel⟩
  have h₂ := h₁.tail ⟨.toClient false 250 1 9000 (List.mem_of_getElem? (i := 2) rfl)
    (hparse false), by decide +kernel⟩
  have h₃ := h₂.tail ⟨.client false (.pingTimer 250) (by simp), by decide +kernel⟩
  have h₄ := h₃.tail ⟨.toServer false 250 250
    (List.mem_append_right _ (List.mem_of_getElem? (i := 0) rfl)) (hparse false),
    by decide +kernel⟩
  have h₅ := h₄.tail ⟨.toClient true 250 1 9000 (List.mem_of_getElem? (i := 4) rfl)
    (hparse true), by decide +kernel⟩
  have h₆ := h₅.tail ⟨.client true (.pingTimer 250) (by simp), by decide +kernel⟩
  have h₇ := h₆.tail ⟨.toServer true 250 250
    (List.mem_append_right _ (List.mem_of_getElem? (i := 0) rfl)) (hparse true),
    by decide +kernel⟩
  exact ⟨seat, hfresh, hdistinct, h₇⟩

theorem totals_two_clients : ∃ record : Bool → ClientInfo ℕ,
    (∀ i, (bothHeard.view i).record = some (record i)) ∧
      (∀ i, (record i).pingStats.packetsReceived = 1) ∧
      ∑ i, (record i).pingStats.packetsReceived.toNat ≤
        ∑ i, (bothHeard.seat i).client.clientStats.packetsSent.toNat ∧
      ∑ i, (bothHeard.seat i).client.clientStats.packetsReceived.toNat ≤
        ∑ i, (record i).pingStats.packetsSent.toNat := by
  have hrecords : ∀ i, ∃ c, (bothHeard.view i).record = some c :=
    fun i => Option.isSome_iff_exists.mp (by revert i; decide +kernel)
  choose record hrecord using hrecords
  have hwrap : ∀ i, (bothHeard.view i).NoWrap := by
    intro i
    cases i <;> exact ⟨by decide +kernel, by decide +kernel, by decide +kernel, by decide +kernel⟩
  have hreceived : ∀ i, (record i).pingStats.packetsReceived = 1 := by
    intro i
    have hcount : ((bothHeard.view i).record.map fun c => c.pingStats.packetsReceived) =
        some 1 := by
      revert i
      decide +kernel
    rw [hrecord i] at hcount
    exact Option.some.inj hcount
  exact ⟨record, hrecord, hreceived, (totals reachable_bothHeard).2 Finset.univ record
    fun i _ => ⟨hwrap i, hrecord i⟩⟩

end Deployment

end PacketLossUtils
