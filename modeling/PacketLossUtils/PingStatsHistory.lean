import Mathlib.Algebra.Field.Rat
import Mathlib.Data.List.Induction
import Mathlib.Tactic.Ring
import PacketLossUtils.PingStats
import PacketLossUtils.Lib.Circular

/-! The statistics as a bounded view of the unbounded list of results. -/
namespace PacketLossUtils.PingStats

variable {t : PingStats} {h : List Bool} {calls : List Call}

/-- The array, position and fill level `t` keeps for the results `h`, oldest first. -/
structure Represents (t : PingStats) (h : List Bool) : Prop where
  size : t.bitArray.length = maxBitCount
  holds : Circular.Holds t.bitArray h
  position : t.currentPosition = 
    if h.length = 0 then -1 else (((h.length - 1) % maxBitCount : ℕ) : ℤ)
  stored : t.storedBitCount = (min h.length maxBitCount : ℕ)

@[simp] theorem results_nil : results [] = [] := rfl

@[simp] theorem results_addResult (didArrive : Bool) (calls : List Call) :
    results (.addResult didArrive :: calls) = didArrive :: results calls := rfl

@[simp] theorem results_addPacketSent (calls : List Call) :
    results (.addPacketSent :: calls) = results calls := rfl

@[simp] theorem results_addPacketReceived (calls : List Call) :
    results (.addPacketReceived :: calls) = results calls := rfl

@[simp] theorem results_append (xs ys : List Call) :
    results (xs ++ ys) = results xs ++ results ys :=
  List.filterMap_append

theorem represents_initialized : Represents initialized [] where
  size := List.length_replicate
  holds := Circular.holds_nil _
  position := rfl
  stored := rfl

theorem Represents.nextPosition (hr : Represents t h) :
    t.nextPosition = (h.length % maxBitCount : ℕ) := by
  unfold PingStats.nextPosition
  rw [hr.position]
  simp only [maxBitCount]
  split
  · simp_all
  · rw [Int.tmod_eq_emod_of_nonneg (by omega)]
    omega

theorem Represents.addResult (hr : Represents t h) (didArrive : Bool) :
    Represents (t.addResult didArrive) (h ++ [didArrive]) := by
  have hnext := hr.nextPosition
  have hset : (t.addResult didArrive).bitArray =
      t.bitArray.set (h.length % t.bitArray.length) didArrive := by
    simp only [PingStats.addResult, QBitArray.setBit, hnext, hr.size, Int.natCast_nonneg,
      if_true, Int.toNat_natCast]
  refine ⟨?_, ?_, ?_, ?_⟩
  · rw [hset, List.length_set, hr.size]
  · rw [hset]
    exact hr.holds.push (by rw [hr.size]; decide)
  · simp [PingStats.addResult, hnext]
  · have hs := hr.stored
    simp only [PingStats.addResult, List.length_append, List.length_singleton, hs, maxBitCount]
    split <;> omega

theorem Represents.apply (hr : Represents t h) (call : Call) :
    Represents (t.apply call) (h ++ results [call]) := by
  cases call with
  | addResult didArrive => exact hr.addResult didArrive
  | addPacketSent =>
    rw [results_addPacketSent, results_nil, List.append_nil]
    exact ⟨hr.size, hr.holds, hr.position, hr.stored⟩
  | addPacketReceived =>
    rw [results_addPacketReceived, results_nil, List.append_nil]
    exact ⟨hr.size, hr.holds, hr.position, hr.stored⟩

theorem replay_append_singleton (calls : List Call) (call : Call) :
    replay (calls ++ [call]) = (replay calls).apply call := by
  simp [replay]

theorem represents_replay (calls : List Call) : Represents (replay calls) (results calls) := by
  induction calls using List.reverseRecOn with
  | nil => exact represents_initialized
  | append_singleton calls call ih =>
    rw [replay_append_singleton, results_append]
    exact ih.apply call

/-- The ring depends on the results alone, and the two counters on the other calls. -/
theorem replay_eq (calls : List Call) :
    replay calls = { replay ((results calls).map .addResult) with
      packetsSent := UInt64.ofNat (calls.count .addPacketSent)
      packetsReceived := UInt64.ofNat (calls.count .addPacketReceived) } := by
  induction calls using List.reverseRecOn with
  | nil => rfl
  | append_singleton calls call ih =>
    rw [replay_append_singleton, ih, results_append]
    cases call with
    | addResult didArrive =>
      simp [PingStats.apply, PingStats.addResult, PingStats.nextPosition,
        replay_append_singleton]
    | addPacketSent =>
      simp [PingStats.apply, PingStats.addPacketSent, UInt64.ofNat_add]
    | addPacketReceived =>
      simp [PingStats.apply, PingStats.addPacketReceived, UInt64.ofNat_add]

theorem packetsSent_replay (calls : List Call) :
    (replay calls).packetsSent = UInt64.ofNat (calls.count .addPacketSent) :=
  congrArg packetsSent (replay_eq calls)

theorem packetsReceived_replay (calls : List Call) :
    (replay calls).packetsReceived = UInt64.ofNat (calls.count .addPacketReceived) :=
  congrArg packetsReceived (replay_eq calls)

/-- No count of `t` exceeds that of `t'`. -/
structure NotAfter (t t' : PingStats) : Prop where
  packetsSent : t.packetsSent ≤ t'.packetsSent
  packetsReceived : t.packetsReceived ≤ t'.packetsReceived
  storedBitCount : t.storedBitCount ≤ t'.storedBitCount

theorem ofNat_le_ofNat {m n : ℕ} (hle : m ≤ n) (hn : n < 2 ^ 64) :
    UInt64.ofNat m ≤ UInt64.ofNat n := by
  rw [UInt64.le_iff_toNat_le, UInt64.toNat_ofNat_of_lt' hn,
    UInt64.toNat_ofNat_of_lt' (Nat.lt_of_le_of_lt hle hn)]
  exact hle

theorem notAfter_replay {xs ys : List Call} (hpre : xs <+: ys)
    (hsent : ys.count .addPacketSent < 2 ^ 64)
    (hreceived : ys.count .addPacketReceived < 2 ^ 64) : NotAfter (replay xs) (replay ys) where
  packetsSent := by
    rw [packetsSent_replay, packetsSent_replay]
    exact ofNat_le_ofNat (hpre.sublist.count_le _) hsent
  packetsReceived := by
    rw [packetsReceived_replay, packetsReceived_replay]
    exact ofNat_le_ofNat (hpre.sublist.count_le _) hreceived
  storedBitCount := by
    obtain ⟨zs, rfl⟩ := hpre
    rw [(represents_replay xs).stored, (represents_replay (xs ++ zs)).stored, results_append,
      List.length_append]
    omega

/-! ### Reading -/

/-- The indices of a read loop, in order. -/
def positionsRead : ℕ → ℤ → List ℤ
  | 0, _ => []
  | iterations + 1, pos =>
    pos :: positionsRead iterations (if pos - 1 < 0 then pos - 1 + maxBitCount else pos - 1)

@[simp] theorem tested_readLoop {α : Type} (bits : QBitArray) (body : ℕ → Bool → α → α)
    (iterations i : ℕ) (pos : ℤ) (result : α) :
    (readLoop bits body iterations i pos result).tested = positionsRead iterations pos := by
  induction iterations generalizing i pos result with
  | zero => rfl
  | succ iterations ih => rw [readLoop, positionsRead, ih]

theorem readLoop_countBit (bits : QBitArray) (iterations i : ℕ) (pos : ℤ) (received : ℕ) :
    (readLoop bits countBit iterations i pos received).result =
      received + (positionsRead iterations pos).countP (QBitArray.testBit bits) := by
  induction iterations generalizing i pos received with
  | zero => rfl
  | succ iterations ih =>
    rw [readLoop, positionsRead, List.countP_cons, ih, countBit]
    split <;> omega

/-- `getPercentReceivedOverTime` passes these indices to `testBit`. -/
theorem tested_readPercent (t : PingStats) (k : ℤ) :
    (t.readPercent k).tested = positionsRead (t.bitsToLookAt k).toNat t.currentPosition := by
  rw [readPercent]
  split
  · rename_i hnone
    rw [Int.toNat_of_nonpos hnone]
    rfl
  · exact tested_readLoop ..

/-- The read loops walk the array as the circular buffer does. -/
theorem positionsRead_natCast (w : ℕ) {p : ℕ} (hp : p < maxBitCount) :
    positionsRead w p = (Circular.back maxBitCount w p).map Nat.cast := by
  induction w generalizing p with
  | zero => rfl
  | succ w ih =>
    have hprev : (if (p : ℤ) - 1 < 0 then (p : ℤ) - 1 + maxBitCount else (p : ℤ) - 1) =
        ((if p = 0 then maxBitCount - 1 else p - 1 : ℕ) : ℤ) := by
      simp only [maxBitCount]
      split <;> split <;> omega
    rw [positionsRead, Circular.back, List.map_cons, hprev, ih]
    simp only [maxBitCount] at hp ⊢
    split <;> omega

theorem Represents.positionsRead (hr : Represents t h) {w : ℕ} (hw : w ≤ h.length) :
    positionsRead w t.currentPosition =
      (Circular.back maxBitCount w ((h.length - 1) % maxBitCount)).map Nat.cast := by
  have hlt : (h.length - 1) % maxBitCount < maxBitCount := Nat.mod_lt _ (by decide)
  rcases Nat.eq_zero_or_pos h.length with h0 | hpos
  · obtain rfl : w = 0 := by omega
    rfl
  · rw [hr.position, if_neg (by omega), positionsRead_natCast w hlt]

/-- Every index the read loops use lies in the array. -/
theorem Represents.position_lt (hr : Represents t h) {w : ℕ} (hw : w ≤ h.length) :
    ∀ pos ∈ PingStats.positionsRead w t.currentPosition, 0 ≤ pos ∧ pos < maxBitCount := by
  intro pos hpos
  rw [hr.positionsRead hw] at hpos
  obtain ⟨q, hq, rfl⟩ := List.mem_map.mp hpos
  have hlt := Circular.back_lt (by decide) (Nat.mod_lt (h.length - 1) (by decide)) q hq
  omega

/-- The bits read are the latest results, newest first. -/
theorem Represents.bitsRead (hr : Represents t h) {w : ℕ} (hw : w ≤ min h.length maxBitCount) :
    (PingStats.positionsRead w t.currentPosition).map (QBitArray.testBit t.bitArray) =
      h.reverse.take w := by
  have hread := hr.holds.read_back (by rw [hr.size]; decide) (w := w) (by omega)
    (by rw [hr.size]; omega)
  rw [hr.size] at hread
  rw [hr.positionsRead (by omega), List.map_map]
  have hbits := congrArg (List.map fun b : Option Bool => b.getD false) hread
  rw [List.map_map, List.map_map] at hbits
  simpa [Function.comp_def, QBitArray.testBit, List.getD_eq_getElem?_getD] using hbits

theorem Represents.bitsToLookAt (hr : Represents t h) (k : ℤ) :
    t.bitsToLookAt k = min (min (h.length : ℤ) maxBitCount) k := by
  rw [PingStats.bitsToLookAt, hr.stored]
  omega

theorem Represents.toNat_bitsToLookAt_le (hr : Represents t h) (k : ℤ) :
    (t.bitsToLookAt k).toNat ≤ min h.length maxBitCount := by
  rw [hr.bitsToLookAt]
  omega

theorem Represents.getPercentReceivedOverTime (hr : Represents t h) (k : ℤ) :
    t.getPercentReceivedOverTime k =
      let w := min (min (h.length : ℤ) maxBitCount) k
      if w ≤ 0 then 0 else 100 * ((h.drop (h.length - w.toNat)).count true : ℚ) / w := by
  have hw := hr.toNat_bitsToLookAt_le k
  have hcount : (readLoop t.bitArray countBit (t.bitsToLookAt k).toNat 0 t.currentPosition
      0).result = (h.drop (h.length - (t.bitsToLookAt k).toNat)).count true := by
    have hbits := congrArg (List.count true) (hr.bitsRead hw)
    rw [List.take_reverse, List.count_reverse, List.count, List.countP_map] at hbits
    rw [readLoop_countBit, Nat.zero_add, List.count, ← hbits]
    apply List.countP_congr
    simp
  rw [PingStats.getPercentReceivedOverTime, readPercent]
  simp only [hr.bitsToLookAt] at hcount ⊢
  split
  · rfl
  · rw [hcount]
    ring

/-! ### The text -/

/-- The digits at the indices, from round `i` on, the blanks between their groups included. -/
def appendDigits (bits : QBitArray) : ℕ → List ℤ → QString
  | _, [] => []
  | i, pos :: rest =>
    (if 0 < i ∧ i % 5 = 0 then [' '] else []) ++
      (if QBitArray.testBit bits pos then ['1'] else ['0']) ++ appendDigits bits (i + 1) rest

theorem readLoop_appendDigit (bits : QBitArray) (iterations i : ℕ) (pos : ℤ) (result : QString) :
    (readLoop bits appendDigit iterations i pos result).result =
      result ++ appendDigits bits i (positionsRead iterations pos) := by
  induction iterations generalizing i pos result with
  | zero => exact (List.append_nil result).symm
  | succ iterations ih =>
    rw [readLoop, positionsRead, appendDigits, ih, appendDigit]
    simp only [List.append_assoc]

def digits (t : PingStats) : QString :=
  appendDigits t.bitArray 0 (positionsRead t.storedBitCount.toNat t.currentPosition)

/-- `toString` passes these indices to `testBit`. -/
theorem tested_readText (t : PingStats) :
    t.readText.tested = positionsRead t.storedBitCount.toNat t.currentPosition :=
  tested_readLoop ..

theorem toString_eq (t : PingStats) : t.toString =
    "PingStats(".toList ++ t.digits ++
      ", currentPosition = ".toList ++ QString.number t.currentPosition ++
      ", storedBitCount = ".toList ++ QString.number t.storedBitCount ++
      ", packetsSent = ".toList ++ QString.number t.packetsSent.toNat ++
      ", packetsReceived = ".toList ++ QString.number t.packetsReceived.toNat ++
      ")".toList := by
  rw [PingStats.toString, readText, readLoop_appendDigit]
  rfl

/-- What the text of statistics shows between its opening bracket and its first comma. -/
def shownDigits (text : QString) : QString :=
  ((text.dropWhile (· ≠ '(')).drop 1).takeWhile (· ≠ ',')

theorem comma_not_mem_appendDigits (bits : QBitArray) (i : ℕ) (ps : List ℤ) :
    ',' ∉ appendDigits bits i ps := by
  induction ps generalizing i with
  | nil => exact List.not_mem_nil
  | cons p ps ih =>
    simp only [appendDigits, List.mem_append, not_or]
    refine ⟨⟨?_, ?_⟩, ih (i + 1)⟩
    · split <;> decide
    · split <;> decide

theorem shownDigits_toString (t : PingStats) : shownDigits t.toString = t.digits := by
  have hopen : ∀ rest : QString,
      (("PingStats(".toList ++ rest).dropWhile (· ≠ '(')).drop 1 = rest := fun _ => rfl
  have hdigits : ∀ c ∈ t.digits, decide (c ≠ ',') = true := by
    intro c hc
    exact decide_eq_true fun heq => comma_not_mem_appendDigits _ _ _ (heq ▸ hc)
  rw [shownDigits, toString_eq]
  simp only [List.append_assoc]
  rw [hopen, List.takeWhile_append_of_pos hdigits]
  exact List.append_nil t.digits

theorem appendDigits_filter (bits : QBitArray) (i : ℕ) (ps : List ℤ) :
    (appendDigits bits i ps).filter (· ≠ ' ') =
      (ps.map (QBitArray.testBit bits)).map fun b => if b then '1' else '0' := by
  induction ps generalizing i with
  | nil => rfl
  | cons p ps ih =>
    simp only [appendDigits, List.filter_append, ih, List.map_cons]
    split <;> split <;> simp_all

theorem Represents.digits (hr : Represents t h) :
    t.digits.filter (· ≠ ' ') =
      (h.reverse.take (min h.length maxBitCount)).map fun b => if b then '1' else '0' := by
  rw [PingStats.digits, appendDigits_filter, hr.stored, Int.toNat_natCast, hr.bitsRead le_rfl]

theorem Represents.shownDigits (hr : Represents t h) :
    (PingStats.shownDigits t.toString).filter (· ≠ ' ') =
      (h.reverse.take (min h.length maxBitCount)).map fun b => if b then '1' else '0' := by
  rw [shownDigits_toString, hr.digits]

/-- Whatever is called, and in whatever order, the statistics answer as the list of all
results would. -/
theorem replay_refines_history (calls : List Call) :
    let t := replay calls
    let h := results calls
    (∀ k : ℤ, t.getPercentReceivedOverTime k =
      let w := min (min (h.length : ℤ) maxBitCount) k
      if w ≤ 0 then 0 else 100 * ((h.drop (h.length - w.toNat)).count true : ℚ) / w) ∧
    (∀ earlier didArrive later, calls = earlier ++ .addResult didArrive :: later →
      ((replay earlier).addResult didArrive).bitArray =
        (replay earlier).bitArray.setBit (replay earlier).nextPosition didArrive ∧
      0 ≤ (replay earlier).nextPosition ∧ (replay earlier).nextPosition < maxBitCount) ∧
    (∀ k : ℤ,
      (t.readPercent k).tested = positionsRead (t.bitsToLookAt k).toNat t.currentPosition ∧
      ∀ pos ∈ (t.readPercent k).tested, 0 ≤ pos ∧ pos < maxBitCount) ∧
    (t.readText.tested = positionsRead t.storedBitCount.toNat t.currentPosition ∧
      ∀ pos ∈ t.readText.tested, 0 ≤ pos ∧ pos < maxBitCount) ∧
    (PingStats.shownDigits t.toString).filter (· ≠ ' ') =
      (h.reverse.take (min h.length maxBitCount)).map fun b => if b then '1' else '0' := by
  have hr := represents_replay calls
  refine ⟨hr.getPercentReceivedOverTime, ?_, ?_, ⟨tested_readText _, ?_⟩, hr.shownDigits⟩
  · intro earlier didArrive later _
    refine ⟨rfl, ?_⟩
    rw [(represents_replay earlier).nextPosition]
    have := Nat.mod_lt (results earlier).length (show 0 < maxBitCount by decide)
    omega
  · intro k
    refine ⟨tested_readPercent _ k, ?_⟩
    rw [tested_readPercent]
    exact hr.position_lt ((hr.toNat_bitsToLookAt_le k).trans (min_le_left _ _))
  · rw [tested_readText, hr.stored, Int.toNat_natCast]
    exact hr.position_lt (min_le_left _ _)

end PacketLossUtils.PingStats
