import PacketLossUtils.Lib.NumberedLink
import PacketLossUtils.Party

/-! Two parties and the datagrams between them form a numbered link in each direction. -/
namespace PacketLossUtils

open Effect PingStats Relation

variable {Address : Type}

def PingMessage.number (m : PingMessage) : ℕ := m.counter.toNat

/-- The link from the party that logged `senderLog` to the party that logged `receiverLog` and
accepted `accepted`. -/
def link (uniqueId : UInt64) (senderLog receiverLog : List (Effect Address))
    (accepted : List PingMessage) : NumberedLink PingMessage where
  next := (built uniqueId senderLog).length
  sent := written uniqueId senderLog
  skipped := (skipped uniqueId senderLog).map PingMessage.number
  expected := (results (calls uniqueId receiverLog)).length
  accepted := accepted

@[simp] theorem link_about_sender (uniqueId : UInt64) (log other : List (Effect Address))
    (accepted : List PingMessage) :
    link uniqueId (about uniqueId log) other accepted = link uniqueId log other accepted := by
  simp [link]

@[simp] theorem link_about_receiver (uniqueId : UInt64) (log other : List (Effect Address))
    (accepted : List PingMessage) :
    link uniqueId other (about uniqueId log) accepted = link uniqueId other log accepted := by
  simp [link]

namespace Party

variable {Carries : PingStats → PingStats → Prop} {uniqueId : UInt64} {p q : Party}
  {log log' other : List (Effect Address)} {accepted accepted' pings : List PingMessage}

theorem Numbered.toNat_next {n : UInt64} (h : Numbered n pings) (hlt : pings.length < 2 ^ 64) :
    n.toNat = pings.length := by
  rw [h.next]
  exact UInt64.toNat_ofNat_of_lt' hlt

theorem Numbered.toNat_counters {n : UInt64} (h : Numbered n pings)
    (hlt : pings.length < 2 ^ 64) :
    (pings.map fun m => m.counter.toNat) = List.range pings.length := by
  have hmap : (pings.map fun m => m.counter.toNat) =
      (pings.map PingMessage.counter).map UInt64.toNat := by
    rw [List.map_map]
    rfl
  rw [hmap, h.counters, List.map_map]
  refine (List.map_congr_left ?_).trans (List.map_id _)
  intro i hi
  exact UInt64.toNat_ofNat_of_lt' ((List.mem_range.mp hi).trans hlt)

/-- What a party builds is sent or skipped on its outgoing link. -/
theorem Step.sends (h : Step Carries uniqueId p log' accepted' q)
    (hp : Numbered p.messageCounter (built uniqueId log))
    (hlt : (built uniqueId log).length < 2 ^ 64) :
    ReflTransGen (NumberedLink.Step PingMessage.number) (link uniqueId log other pings)
      (link uniqueId (log ++ log') other pings) := by
  have hnumber := hp.toNat_next hlt
  cases h with
  | @written n r payload address port =>
    have hsend := NumberedLink.Step.send (link uniqueId log other pings)
      (show PingMessage.number ⟨uniqueId, n, payload⟩ = _ from hnumber)
    apply ReflTransGen.single
    simpa [link] using hsend
  | @skipped n r payload =>
    have hskip : NumberedLink.Step PingMessage.number _ _ :=
      .skip (link uniqueId log other pings)
    apply ReflTransGen.single
    simpa [link, PingMessage.number, hnumber] using hskip
  | lost n r => simpa [link] using ReflTransGen.refl
  | seen n r => simpa [link] using ReflTransGen.refl
  | @other p e hbuilt =>
    have hsingle : ∀ x ∈ [e], x.builtPing = none := List.forall_mem_singleton.mpr hbuilt
    simpa [link, built_eq_nil hsingle, written_eq_nil hsingle, skipped_eq_nil hsingle]
      using ReflTransGen.refl

/-- What a party marks lost or accepts is given up or accepted on its incoming link. -/
theorem Step.receives (h : Step Carries uniqueId p log' accepted' q)
    (hp : p.reception = Reception.fresh.after (calls uniqueId log))
    (hlt : (results (calls uniqueId log)).length < 2 ^ 64)
    (hsent : ∀ m ∈ accepted', m ∈ Effect.written uniqueId other) :
    ReflTransGen (NumberedLink.Step PingMessage.number) (link uniqueId other log accepted)
      (link uniqueId other (log ++ log') (accepted ++ accepted')) := by
  have hexpected := Reception.expected_fresh_after hlt
  cases h with
  | written n r => simpa [link] using ReflTransGen.refl
  | skipped n r => simpa [link] using ReflTransGen.refl
  | lost n r =>
    have hgiveUp : NumberedLink.Step PingMessage.number _ _ :=
      .giveUp (link uniqueId other log accepted)
    apply ReflTransGen.single
    simpa [link, Reception.markLost] using hgiveUp
  | @seen n r m hseen =>
    obtain rfl : r = Reception.fresh.after (calls uniqueId log) := hp
    have hle := UInt64.le_iff_toNat_le.mp (UInt64.not_lt.mp hseen)
    rw [hexpected] at hle
    have haccept : NumberedLink.Step PingMessage.number _ _ :=
      .accept (link uniqueId other log accepted) (hsent m (by simp)) hle
    have hcount : (results (calls uniqueId (log ++ ((Reception.fresh.after
        (calls uniqueId log)).markSeen m.counter).2.map (.pingStats uniqueId)))).length =
          m.number + 1 := by
      rw [calls_append, calls_map_pingStats, Reception.markSeen_calls, hexpected,
        Accounts.results_seen]
      simp only [List.length_append, List.length_replicate, List.length_singleton,
        PingMessage.number]
      omega
    apply ReflTransGen.single
    rw [← hcount] at haccept
    exact haccept
  | other p hbuilt hcall =>
    simpa [link, calls_eq_nil (List.forall_mem_singleton.mpr hcall)] using ReflTransGen.refl

/-- A run of the sender, after an earlier run, as steps of its outgoing link. -/
theorem Run.sends (other : List (Effect Address)) (pings : List PingMessage)
    (h₀ : Run Carries uniqueId fresh log accepted p)
    (h : Run Carries uniqueId p log' accepted' q)
    (hlt : (built uniqueId (log ++ log')).length < 2 ^ 64) :
    ReflTransGen (NumberedLink.Step PingMessage.number) (link uniqueId log other pings)
      (link uniqueId (log ++ log') other pings) := by
  induction h with
  | refl => simpa using ReflTransGen.refl
  | tail h hstep ih =>
    rw [← List.append_assoc] at hlt ⊢
    have hlt' := hlt
    rw [built_append, List.length_append] at hlt'
    exact (ih (by omega)).trans (hstep.sends (h₀.trans h).numbered (by omega))

/-- A run of the receiver, after an earlier run, as steps of its incoming link. -/
theorem Run.receives (other : List (Effect Address))
    (h₀ : Run Carries uniqueId fresh log accepted p)
    (h : Run Carries uniqueId p log' accepted' q)
    (hlt : (results (calls uniqueId (log ++ log'))).length < 2 ^ 64)
    (hsent : ∀ m ∈ accepted', m ∈ Effect.written uniqueId other) :
    ReflTransGen (NumberedLink.Step PingMessage.number) (link uniqueId other log accepted)
      (link uniqueId other (log ++ log') (accepted ++ accepted')) := by
  induction h with
  | refl => simpa using ReflTransGen.refl
  | tail h hstep ih =>
    rw [← List.append_assoc] at hlt ⊢
    rw [← List.append_assoc]
    have hlt' := hlt
    rw [calls_append, results_append, List.length_append] at hlt'
    have hreception := (h₀.trans h).reception
    exact (ih (by omega) fun m hm => hsent m (List.mem_append_left _ hm)).trans
      (hstep.receives hreception (by omega) fun m hm => hsent m (List.mem_append_right _ hm))

end Party

end PacketLossUtils
