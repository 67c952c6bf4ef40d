import PacketLossUtils.Answers
import PacketLossUtils.ClientProcess

/-! A client that the server does not know. -/
namespace PacketLossUtils

open Effect Trace

variable {Address : Type} {c : Client Address}

theorem Server.mem_rejections {uniqueId : UInt64} {events : List (Server.Event Address)}
    {d : Message × Address × UInt16} (hd : d ∈ rejections uniqueId events) :
    d.1 = .close ⟨uniqueId, CloseMessage.reasonUnsolicited⟩ := by
  obtain ⟨e, -, he⟩ := List.mem_filterMap.mp hd
  cases e with
  | message now now' address port m =>
    cases m with
    | ping m =>
      dsimp only at he
      split at he
      · rw [← Option.some.inj he]
      · cases he
    | _ => cases he
  | _ => cases he

variable [HostAddress Address] {sender : Address} {events : List (Client.Event Address)}

/-- What a Close of the server leaves. -/
structure Client.Dismissed (events : List (Client.Event Address)) (c : Client Address) : Prop where
  disconnected : (run step events c).1.isConnected = false
  timerPingActive : (run step events c).1.timerPingActive = false
  timerTimeoutActive : (run step events c).1.timerTimeoutActive = false
  timerStatsActive : (run step events c).1.timerStatsActive = false
  datagrams : ((run step events c).2 ++ (run step events c).1.destruct).filterMap datagram = []

/-- A Close of the server silences the client until it connects again. -/
theorem Client.dismissed_of_close (hfollow : TimersFollow c)
    (hsender : HostAddress.isEqual sender c.serverHostAddress = true) (now : ℤ) (reason : UInt32)
    (hloop : ∀ e ∈ events, InLoop e)
    (hfires : Along step Fires
      (.message now sender c.serverPort (.close ⟨c.uniqueId, reason⟩) :: events) c) :
    Dismissed (.message now sender c.serverPort (.close ⟨c.uniqueId, reason⟩) :: events) c := by
  obtain ⟨-, hrest⟩ := hfires
  generalize he : Event.message now sender c.serverPort
    (.close ⟨c.uniqueId, reason⟩ : Message) = e at hrest ⊢
  have hin : InLoop e := by subst he; trivial
  have hends : c.ends e = true := by subst he; simp [ends, hsender]
  have hidle : (c.step e).1.isConnected = false := by
    rw [isConnected_step hin, hends, Bool.not_true, Bool.and_false]
  have hfirst : (c.step e).2.filterMap datagram = [] := by
    cases hconnected : c.isConnected with
    | true =>
      rw [datagrams_of_ends hconnected hends, ← he]
      rfl
    | false => exact datagrams_idle hconnected hfollow hin (by subst he; trivial)
  have hnext := timersFollow_step hfollow e
  have hdisconnected := isConnected_run hidle hloop
  have hend : TimersFollow (run step events (c.step e).1).1 := by
    apply run_invariant (I := fun c' _ => TimersFollow c') hnext
    intro e _ c' _ h
    exact timersFollow_step h e
  refine ⟨hdisconnected, ?_, ?_, ?_, ?_⟩
  · exact hend.timerPingActive.trans hdisconnected
  · exact hend.timerTimeoutActive.trans hdisconnected
  · exact hend.timerStatsActive.trans hdisconnected
  · rw [run_cons, List.append_assoc, List.filterMap_append, hfirst, List.nil_append]
    exact datagrams_run_idle hidle hnext hloop hrest

/-- As long as no Welcome registers the client, the server answers each of its pings with a Close
and writes nothing else about it, and the first of these answers that arrives silences the client,
whatever else comes. -/
theorem turned_away {s : Server Address} {asked : List (Server.Event Address)}
    (hunknown : c.uniqueId ∉ s.clientInfos)
    (hnever : ∀ e ∈ asked, ¬ Server.Registers c.uniqueId e) :
    let answers := datagrams c.uniqueId (run Server.step asked s).2
    answers = Server.rejections c.uniqueId asked ∧
      ∀ answer ∈ answers, ∀ (now : ℤ) (sender : Address) (events : List (Client.Event Address)),
        let all := .message now sender c.serverPort answer.1 :: events
        HostAddress.isEqual sender c.serverHostAddress = true → c.TimersFollow →
          (∀ e ∈ events, Client.InLoop e) → Along Client.step Client.Fires all c →
            Client.Dismissed all c := by
  intro answers
  have hnone := Server.endpoint_of_none (Std.ExtTreeMap.getElem?_eq_none hunknown)
  have hanswers : answers = _ := (Server.rejections_run asked hnone hnever).1
  refine ⟨hanswers, ?_⟩
  intro answer hanswer now sender events all hsender hfollow hloop hfires
  rw [hanswers] at hanswer
  have hclose := Server.mem_rejections hanswer
  simp only [all, hclose] at hfires ⊢
  exact Client.dismissed_of_close hfollow hsender now _ hloop hfires

/-- A connected client pings a server that has just started, and is interrupted later. -/
theorem turned_away_restarted :
    let c : Client ℕ := ((Client.new 1 9 250 7).step (.connect (fun _ => some 1) 0 0)).1
    let asked : List (Server.Event ℕ) := [.message 0 0 2 5000 (.ping ⟨7, 0, .initialized⟩)]
    let answer : Message := .close ⟨7, CloseMessage.reasonUnsolicited⟩
    datagrams 7 (run Server.step asked .new).2 = [(answer, 2, 5000)] ∧
      Client.Dismissed [.message 400 1 9 answer, .sigInt] c := by
  intro c asked answer
  have hnever : ∀ e ∈ asked, ¬ Server.Registers 7 e := by
    rintro e he ⟨_, _, _, _, _, rfl, _⟩
    simp [asked] at he
  have hanswers := turned_away (c := c) (s := .new) (by decide) hnever
  refine ⟨hanswers.1, hanswers.2 (answer, 2, 5000) ?_ 400 1 [.sigInt] rfl ⟨rfl, rfl, rfl⟩ ?_
    ⟨trivial, trivial, trivial⟩⟩
  · rw [hanswers.1]
    exact List.mem_singleton.mpr rfl
  · exact List.forall_mem_singleton.mpr trivial

end PacketLossUtils
