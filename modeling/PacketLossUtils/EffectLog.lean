import PacketLossUtils.NetworkCore

/-! What a log of effects says about one client. -/
namespace PacketLossUtils.Effect

variable {Address : Type}

/-- The client an effect is about. -/
def peer : Effect Address → UInt64
  | writeDatagram message _ _ => message.getUniqueId
  | skipPing message => message.uniqueId
  | pingStats uniqueId _ => uniqueId

def about (uniqueId : UInt64) (log : List (Effect Address)) : List (Effect Address) :=
  log.filter fun e => e.peer = uniqueId

/-- The ping an effect builds, written or skipped. -/
def builtPing : Effect Address → Option PingMessage
  | writeDatagram (.ping message) _ _ => some message
  | skipPing message => some message
  | _ => none

/-- The ping an effect puts on the wire. -/
def writtenPing : Effect Address → Option PingMessage
  | writeDatagram (.ping message) _ _ => some message
  | _ => none

def skippedPing : Effect Address → Option PingMessage
  | skipPing message => some message
  | _ => none

/-- Whether a ping that is built is also written. -/
def fate : Effect Address → Option Bool
  | writeDatagram (.ping _) _ _ => some true
  | skipPing _ => some false
  | _ => none

def call : Effect Address → Option PingStats.Call
  | pingStats _ call => some call
  | _ => none

/-- The calls on the statistics kept for the client. -/
def calls (uniqueId : UInt64) (log : List (Effect Address)) : List PingStats.Call :=
  (about uniqueId log).filterMap call

/-- The number of lost results recorded for the client. -/
def losses (uniqueId : UInt64) (log : List (Effect Address)) : ℕ :=
  (PingStats.results (calls uniqueId log)).count false

def built (uniqueId : UInt64) (log : List (Effect Address)) : List PingMessage :=
  (about uniqueId log).filterMap builtPing

def written (uniqueId : UInt64) (log : List (Effect Address)) : List PingMessage :=
  (about uniqueId log).filterMap writtenPing

def skipped (uniqueId : UInt64) (log : List (Effect Address)) : List PingMessage :=
  (about uniqueId log).filterMap skippedPing

/-- The fates of all pings built, in the order of their numbers. -/
def fates (uniqueId : UInt64) (log : List (Effect Address)) : List Bool :=
  (about uniqueId log).filterMap fate

/-- The datagram an effect puts on the wire, and where it goes. -/
def datagram : Effect Address → Option (Message × Address × UInt16)
  | writeDatagram message address port => some (message, address, port)
  | _ => none

/-- The datagrams about a client, in the order they are written. -/
def datagrams (uniqueId : UInt64) (log : List (Effect Address)) :
    List (Message × Address × UInt16) :=
  (about uniqueId log).filterMap datagram

variable {uniqueId : UInt64} {xs ys : List (Effect Address)}

@[simp] theorem about_nil : about uniqueId ([] : List (Effect Address)) = [] := rfl

@[simp] theorem about_append :
    about uniqueId (xs ++ ys) = about uniqueId xs ++ about uniqueId ys :=
  List.filter_append ..

theorem about_cons_of_peer {e : Effect Address} (h : e.peer = uniqueId) :
    about uniqueId (e :: xs) = e :: about uniqueId xs :=
  List.filter_cons_of_pos (decide_eq_true h)

theorem about_cons_of_ne {e : Effect Address} (h : e.peer ≠ uniqueId) :
    about uniqueId (e :: xs) = about uniqueId xs :=
  List.filter_cons_of_neg (by simpa using h)

@[simp] theorem about_about : about uniqueId (about uniqueId xs) = about uniqueId xs := by
  simp [about]

theorem filterMap_about_eq_nil {α : Type} {f : Effect Address → Option α}
    (h : ∀ e ∈ xs, f e = none) : (about uniqueId xs).filterMap f = [] := by
  rw [List.filterMap_eq_nil_iff]
  intro e he
  exact h e (List.mem_filter.mp he).1

@[simp] theorem calls_nil : calls uniqueId ([] : List (Effect Address)) = [] := rfl

@[simp] theorem calls_append :
    calls uniqueId (xs ++ ys) = calls uniqueId xs ++ calls uniqueId ys := by
  simp [calls]

@[simp] theorem calls_about : calls uniqueId (about uniqueId xs) = calls uniqueId xs := by
  simp [calls]

@[simp] theorem calls_map_pingStats (cs : List PingStats.Call) :
    calls uniqueId (cs.map (pingStats uniqueId : PingStats.Call → Effect Address)) = cs := by
  have habout : about uniqueId (cs.map (pingStats uniqueId : PingStats.Call → Effect Address)) =
      cs.map (pingStats uniqueId) := by
    simp [about, peer]
  rw [calls, habout, List.filterMap_map]
  simp [Function.comp_def, call]

@[simp] theorem losses_nil : losses uniqueId ([] : List (Effect Address)) = 0 := rfl

@[simp] theorem losses_append :
    losses uniqueId (xs ++ ys) = losses uniqueId xs + losses uniqueId ys := by
  simp [losses, PingStats.results]

@[simp] theorem losses_about : losses uniqueId (about uniqueId xs) = losses uniqueId xs := by
  rw [losses, calls_about, losses]

@[simp] theorem built_nil : built uniqueId ([] : List (Effect Address)) = [] := rfl

@[simp] theorem built_append :
    built uniqueId (xs ++ ys) = built uniqueId xs ++ built uniqueId ys := by
  simp [built]

@[simp] theorem built_about : built uniqueId (about uniqueId xs) = built uniqueId xs := by
  simp [built]

@[simp] theorem built_map_pingStats (cs : List PingStats.Call) :
    built uniqueId (cs.map (pingStats uniqueId : PingStats.Call → Effect Address)) = [] :=
  filterMap_about_eq_nil (by simp [builtPing])

variable {n : UInt64} {payload : PingStats} {address : Address} {port : UInt16}

@[simp] theorem calls_cons_write (m : Message) :
    calls uniqueId (writeDatagram m address port :: xs) = calls uniqueId xs := by
  simp only [calls, about, List.filter_cons]
  split <;> rfl

@[simp] theorem calls_cons_skip (m : PingMessage) :
    calls uniqueId (skipPing m :: xs) = calls uniqueId xs := by
  simp only [calls, about, List.filter_cons]
  split <;> rfl

@[simp] theorem calls_cons_call (c : PingStats.Call) :
    calls uniqueId (pingStats uniqueId c :: xs) = c :: calls uniqueId xs := by
  simp [calls, about, peer, call]

@[simp] theorem built_cons_write :
    built uniqueId (writeDatagram (.ping ⟨uniqueId, n, payload⟩) address port :: xs) =
      ⟨uniqueId, n, payload⟩ :: built uniqueId xs := by
  simp [built, about, peer, Message.getUniqueId, builtPing]

@[simp] theorem built_cons_skip :
    built uniqueId (skipPing ⟨uniqueId, n, payload⟩ :: xs) =
      ⟨uniqueId, n, payload⟩ :: built uniqueId xs := by
  simp [built, about, peer, builtPing]

@[simp] theorem built_cons_call (c : PingStats.Call) :
    built uniqueId (pingStats uniqueId c :: xs) = built uniqueId xs := by
  simp [built, about, peer, List.filterMap_cons, builtPing]

@[simp] theorem written_nil : written uniqueId ([] : List (Effect Address)) = [] := rfl

@[simp] theorem written_append :
    written uniqueId (xs ++ ys) = written uniqueId xs ++ written uniqueId ys := by
  simp [written]

@[simp] theorem written_map_pingStats (cs : List PingStats.Call) :
    written uniqueId (cs.map (pingStats uniqueId : PingStats.Call → Effect Address)) = [] :=
  filterMap_about_eq_nil (by simp [writtenPing])

@[simp] theorem written_cons_write :
    written uniqueId (writeDatagram (.ping ⟨uniqueId, n, payload⟩) address port :: xs) =
      ⟨uniqueId, n, payload⟩ :: written uniqueId xs := by
  simp [written, about, peer, Message.getUniqueId, writtenPing]

@[simp] theorem written_cons_skip (m : PingMessage) :
    written uniqueId (skipPing m :: xs) = written uniqueId xs := by
  simp only [written, about, List.filter_cons]
  split <;> rfl

@[simp] theorem written_cons_call (c : PingStats.Call) :
    written uniqueId (pingStats uniqueId c :: xs) = written uniqueId xs := by
  simp [written, about, peer, List.filterMap_cons, writtenPing]

@[simp] theorem written_about : written uniqueId (about uniqueId xs) = written uniqueId xs := by
  simp [written]

@[simp] theorem skipped_append :
    skipped uniqueId (xs ++ ys) = skipped uniqueId xs ++ skipped uniqueId ys := by
  simp [skipped]

@[simp] theorem skipped_about : skipped uniqueId (about uniqueId xs) = skipped uniqueId xs := by
  simp [skipped]

@[simp] theorem skipped_map_pingStats (cs : List PingStats.Call) :
    skipped uniqueId (cs.map (pingStats uniqueId : PingStats.Call → Effect Address)) = [] :=
  filterMap_about_eq_nil (by simp [skippedPing])

@[simp] theorem skipped_nil : skipped uniqueId ([] : List (Effect Address)) = [] := rfl

@[simp] theorem skipped_cons_write (m : Message) :
    skipped uniqueId (writeDatagram m address port :: xs) = skipped uniqueId xs := by
  simp only [skipped, about, List.filter_cons]
  split <;> rfl

@[simp] theorem skipped_cons_skip :
    skipped uniqueId (skipPing ⟨uniqueId, n, payload⟩ :: xs) =
      ⟨uniqueId, n, payload⟩ :: skipped uniqueId xs := by
  simp [skipped, about, peer, skippedPing]

@[simp] theorem skipped_cons_call (c : PingStats.Call) :
    skipped uniqueId (pingStats uniqueId c :: xs) = skipped uniqueId xs := by
  simp [skipped, about, peer, List.filterMap_cons, skippedPing]

@[simp] theorem fates_nil : fates uniqueId ([] : List (Effect Address)) = [] := rfl

@[simp] theorem fates_append :
    fates uniqueId (xs ++ ys) = fates uniqueId xs ++ fates uniqueId ys := by
  simp [fates]

@[simp] theorem fates_about : fates uniqueId (about uniqueId xs) = fates uniqueId xs := by
  simp [fates]

@[simp] theorem fates_cons_write :
    fates uniqueId (writeDatagram (.ping ⟨uniqueId, n, payload⟩) address port :: xs) =
      true :: fates uniqueId xs := by
  simp [fates, about, peer, Message.getUniqueId, fate]

@[simp] theorem fates_cons_skip :
    fates uniqueId (skipPing ⟨uniqueId, n, payload⟩ :: xs) = false :: fates uniqueId xs := by
  simp [fates, about, peer, fate]

@[simp] theorem fates_cons_call (c : PingStats.Call) :
    fates uniqueId (pingStats uniqueId c :: xs) = fates uniqueId xs := by
  simp [fates, about, peer, List.filterMap_cons, fate]

@[simp] theorem datagrams_nil : datagrams uniqueId ([] : List (Effect Address)) = [] := rfl

@[simp] theorem datagrams_append :
    datagrams uniqueId (xs ++ ys) = datagrams uniqueId xs ++ datagrams uniqueId ys := by
  simp [datagrams]

@[simp] theorem datagrams_about :
    datagrams uniqueId (about uniqueId xs) = datagrams uniqueId xs := by
  simp [datagrams]

@[simp] theorem datagrams_map_pingStats (cs : List PingStats.Call) :
    datagrams uniqueId (cs.map (pingStats uniqueId : PingStats.Call → Effect Address)) = [] :=
  filterMap_about_eq_nil (by simp [datagram])

theorem datagrams_cons_write {m : Message} (h : m.getUniqueId = uniqueId) :
    datagrams uniqueId (writeDatagram m address port :: xs) =
      (m, address, port) :: datagrams uniqueId xs := by
  have hpeer : (writeDatagram m address port).peer = uniqueId := h
  rw [datagrams, about_cons_of_peer hpeer]
  rfl

theorem mem_datagrams {d : Message × Address × UInt16} :
    d ∈ datagrams uniqueId xs ↔
      writeDatagram d.1 d.2.1 d.2.2 ∈ xs ∧ d.1.getUniqueId = uniqueId := by
  rw [datagrams, List.mem_filterMap]
  constructor
  · rintro ⟨e, he, hd⟩
    obtain ⟨hmem, hpeer⟩ := List.mem_filter.mp he
    cases e with
    | writeDatagram m address port =>
      obtain rfl := Option.some.inj hd
      exact ⟨hmem, of_decide_eq_true hpeer⟩
    | skipPing => cases hd
    | pingStats => cases hd
  · rintro ⟨hmem, hid⟩
    exact ⟨_, List.mem_filter.mpr ⟨hmem, decide_eq_true hid⟩, rfl⟩

theorem calls_eq_nil (h : ∀ e ∈ xs, e.call = none) : calls uniqueId xs = [] :=
  filterMap_about_eq_nil h

theorem built_eq_nil (h : ∀ e ∈ xs, e.builtPing = none) : built uniqueId xs = [] :=
  filterMap_about_eq_nil h

theorem writtenPing_eq_none {e : Effect Address} (h : e.builtPing = none) :
    e.writtenPing = none := by
  cases e with
  | writeDatagram m => cases m <;> simp_all [builtPing, writtenPing]
  | skipPing => rfl
  | pingStats => rfl

theorem skippedPing_eq_none {e : Effect Address} (h : e.builtPing = none) :
    e.skippedPing = none := by
  cases e with
  | writeDatagram => rfl
  | skipPing => simp [builtPing] at h
  | pingStats => rfl

theorem skipped_eq_nil (h : ∀ e ∈ xs, e.builtPing = none) : skipped uniqueId xs = [] :=
  filterMap_about_eq_nil fun e he => skippedPing_eq_none (h e he)

theorem written_eq_nil (h : ∀ e ∈ xs, e.builtPing = none) : written uniqueId xs = [] :=
  filterMap_about_eq_nil fun e he => writtenPing_eq_none (h e he)

theorem written_sublist_built (uniqueId : UInt64) (log : List (Effect Address)) :
    (written uniqueId log).Sublist (built uniqueId log) := by
  rw [written, built]
  induction about uniqueId log with
  | nil => exact List.Sublist.slnil
  | cons e log ih =>
    rw [List.filterMap_cons, List.filterMap_cons]
    cases e with
    | writeDatagram m =>
      cases m with
      | ping m => exact ih.cons_cons m
      | welcome => exact ih
      | close => exact ih
    | skipPing m => exact ih.cons m
    | pingStats => exact ih

/-- A ping that is built is either written or skipped. -/
theorem written_append_skipped_perm (uniqueId : UInt64) (log : List (Effect Address)) :
    (written uniqueId log ++ skipped uniqueId log).Perm (built uniqueId log) := by
  rw [written, skipped, built]
  induction about uniqueId log with
  | nil => exact .nil
  | cons e log ih =>
    rw [List.filterMap_cons, List.filterMap_cons, List.filterMap_cons]
    cases e with
    | writeDatagram m =>
      cases m with
      | ping m => exact ih.cons m
      | welcome => exact ih
      | close => exact ih
    | skipPing m => exact List.perm_middle.trans (ih.cons m)
    | pingStats => exact ih

theorem length_fates (uniqueId : UInt64) (log : List (Effect Address)) :
    (fates uniqueId log).length = (built uniqueId log).length := by
  rw [fates, built, List.length_filterMap_eq_countP, List.length_filterMap_eq_countP]
  apply List.countP_congr
  intro e _
  cases e with
  | writeDatagram m => cases m <;> simp [fate, builtPing]
  | skipPing => simp [fate, builtPing]
  | pingStats => simp [fate, builtPing]

theorem mem_written {m : PingMessage} (hid : m.uniqueId = uniqueId)
    (hm : .writeDatagram (.ping m) address port ∈ xs) : m ∈ written uniqueId xs := by
  exact List.mem_filterMap.mpr ⟨_, List.mem_filter.mpr ⟨hm, decide_eq_true hid⟩, rfl⟩

theorem exists_of_mem_written {m : PingMessage} (hm : m ∈ written uniqueId xs) :
    m.uniqueId = uniqueId ∧ ∃ address port, .writeDatagram (.ping m) address port ∈ xs := by
  obtain ⟨e, he, hping⟩ := List.mem_filterMap.mp hm
  obtain ⟨hmem, hpeer⟩ := List.mem_filter.mp he
  cases e with
  | writeDatagram message address port =>
    cases message with
    | ping m' =>
      obtain rfl := Option.some.inj hping
      exact ⟨of_decide_eq_true hpeer, address, port, hmem⟩
    | welcome => simp [writtenPing] at hping
    | close => simp [writtenPing] at hping
  | skipPing => simp [writtenPing] at hping
  | pingStats => simp [writtenPing] at hping

end PacketLossUtils.Effect
