import AxisEngine.Mtp.Channel
import Mathlib.Algebra.Order.Field.Rat
import Mathlib.Tactic.Linarith
import Mathlib.Tactic.NormNum

/-!
# WindowSize — the window that `UpdateTimers` chooses once a second

`Channel::UpdateTimers` (`network/mtp/impl.cpp`).  Times and rates are exact numbers, the counters
are those of the source.

* `TimedChannel.updateTimers` — one call, with the rates that it averages every ten seconds;
* `prescribed` — the window that the thresholds ask for at a ratio of lost packets;
* `windowSize_prescribed_iff` — when the two agree: the ratio is a quotient of whole numbers, so
  that the code knows no loss and total loss only.
-/

namespace AxisEngine
namespace Mtp

/-- The rates of one direction: `cur_kbps`, `max_kbps` and `avg_kbps`. -/
structure Rate where
  cur : ℚ := 0
  max : ℚ := 0
  avg : ℚ := 0

structure TimedChannel extends Channel where
  bpmCounter : ℚ := 0
  packetLossCounter : ℚ := 0
  currentPacketLoss : UInt32 := 0
  currentPacketTooLate : UInt32 := 0
  currentPacketSuccessful : UInt32 := 0
  currentBytesTransfered : UInt32 := 0
  currentBytesLost : UInt32 := 0
  currentBytesReceived : UInt32 := 0
  transfered : Rate := {}
  lost : Rate := {}
  incoming : Rate := {}
  rateSamples : ℕ := 0

/-- The rate after another ten seconds, of which there are `samples` now. -/
def Rate.sample (rate : Rate) (bytes : UInt32) (seconds : ℚ) (samples : ℕ) : Rate :=
  let cur := bytes.toNat / seconds / 1024
  let oldFraction : ℚ := (samples - 1) / samples
  { cur := cur
    max := if cur > rate.max then cur else rate.max
    avg := rate.avg * oldFraction + cur * (1 - oldFraction) }

/-- `std::min` of two `unsigned int`. -/
def least (a b : UInt32) : UInt32 := if b < a then b else a

namespace TimedChannel

variable (c : TimedChannel)

def setWindowSize (size : ℤ) : TimedChannel :=
  { c with toChannel := c.toChannel.setWindowSize size }

/-- `reasonable_amount_of_data_transmitted`: "has half the window even been used?" -/
def halfUsed : Bool :=
  decide (c.currentBytesTransfered.toNat > c.windowSize.toNat * 512 / 2)

/-- The steps of the window at a ratio of lost packets. -/
def adjust (used : Bool) (successfulToLostRatio : ℚ) : TimedChannel :=
  if successfulToLostRatio < 1 / 100 then
    if used then c.setWindowSize (c.windowSize.toNat * 2) else c
  else if successfulToLostRatio < 5 / 100 then
    if used then c.setWindowSize (c.windowSize.toNat + 50) else c
  else if successfulToLostRatio > 15 / 100 then c.setWindowSize (c.windowSize.toNat - 100)
  else if successfulToLostRatio > 1 / 10 then c.setWindowSize (c.windowSize.toNat - 50)
  else c

/-- What happens when `packet_loss_counter` expires. -/
def expire : TimedChannel :=
  let packetsSuccessful := c.currentPacketSuccessful
  let used := c.halfUsed
  let packetLoss := least (c.currentPacketLoss + c.currentPacketTooLate) packetsSuccessful
  let c := { c with
    packetLossCounter := c.packetLossCounter - 1
    currentPacketLoss := 0, currentPacketTooLate := 0, currentPacketSuccessful := 0 }
  if packetsSuccessful > 0 then
    -- a quotient of two `unsigned int`, which becomes a `float` only then
    c.adjust used ((packetLoss / packetsSuccessful).toNat : ℚ)
  else if packetLoss > 0 then c.setWindowSize (c.windowSize.toNat - 10)
  else c.adjust used 0

/-- The rates of the last ten seconds. -/
def sampleRates : TimedChannel :=
  let samples := min (c.rateSamples + 1) 10
  { c with
    transfered := c.transfered.sample c.currentBytesTransfered c.bpmCounter samples
    lost := c.lost.sample c.currentBytesLost c.bpmCounter samples
    incoming := c.incoming.sample c.currentBytesReceived c.bpmCounter samples
    rateSamples := samples
    currentBytesTransfered := 0, currentBytesLost := 0, currentBytesReceived := 0
    bpmCounter := 0 }

def updateTimers (dtime : ℚ) : TimedChannel :=
  let c := { c with
    bpmCounter := c.bpmCounter + dtime, packetLossCounter := c.packetLossCounter + dtime }
  let c := if c.packetLossCounter > 1 then c.expire else c
  if c.bpmCounter > 10 then c.sampleRates else c

/-- The packets that count as lost, and the ratio that the thresholds are meant for. -/
def lostRatio : ℚ :=
  (min (c.currentPacketLoss.toNat + c.currentPacketTooLate.toNat) c.currentPacketSuccessful.toNat :
    ℕ) / c.currentPacketSuccessful.toNat

end TimedChannel

/-! ## What the thresholds ask for -/

/-- The next window, before its limits, for `w` and the real ratio of lost packets. -/
def step (ratio : ℚ) (used : Bool) (w : ℤ) : ℤ :=
  if ratio < 1 / 100 then if used then w * 2 else w
  else if ratio < 5 / 100 then if used then w + 50 else w
  else if ratio > 15 / 100 then w - 100
  else if ratio > 1 / 10 then w - 50
  else w

/-- The limits of the window. -/
def limited (size : ℤ) : ℤ := max 32 (min 2048 size)

def prescribed (ratio : ℚ) (used : Bool) (w : ℤ) : ℤ := limited (step ratio used w)

theorem limited_spec (size : ℤ) : (size < 32 → limited size = 32) ∧
    (2048 < size → limited size = 2048) ∧ (32 ≤ size → size ≤ 2048 → limited size = size) := by
  rw [limited]
  omega

/-- The ratios and windows for which whole numbers of lost packets do no harm: no loss to speak of,
total loss, or a window that the wrong step leaves at the same limit. -/
def RightSteps (c : TimedChannel) : Prop :=
  c.lostRatio < 1 / 100 ∨
  c.currentPacketSuccessful ≤ c.currentPacketLoss + c.currentPacketTooLate ∨
  (c.lostRatio < 5 / 100 ∧
    (c.halfUsed = false ∨ c.windowSize.toNat = 50 ∨ 1998 ≤ c.windowSize.toNat)) ∨
  (c.lostRatio ≤ 1 / 10 ∧ (c.halfUsed = false ∨ c.windowSize.toNat = 2048)) ∨
  (c.halfUsed = false ∧ c.windowSize.toNat = 32)

/-! ## One expiry -/

section Expiry

variable {c : TimedChannel}

theorem toNat_setWindowSize (size : ℤ) :
    ((c.setWindowSize size).windowSize.toNat : ℤ) = limited size := by
  have hlimited : max minReliableWindowSize (min maxReliableWindowSizeSend size.toNat) < 2 ^ 16 := by
    simp only [minReliableWindowSize, maxReliableWindowSizeSend]
    omega
  have hsize : (c.setWindowSize size).windowSize.toNat =
      max minReliableWindowSize (min maxReliableWindowSizeSend size.toNat) :=
    UInt16.toNat_ofNat_of_lt' hlimited
  rw [hsize, limited]
  simp only [minReliableWindowSize, maxReliableWindowSizeSend]
  omega

/-- The quotient is one when all packets count as lost, and zero otherwise. -/
theorem toNat_quotient {lost successful : UInt32} (h : 0 < successful) :
    (least lost successful / successful).toNat = if successful ≤ lost then 1 else 0 := by
  have hpos : 0 < successful.toNat := h
  have hleast : (least lost successful).toNat = min lost.toNat successful.toNat := by
    rw [least]
    split
    · next hlt => exact (min_eq_right (UInt32.lt_iff_toNat_lt.1 hlt).le).symm
    · next hnot => exact (min_eq_left (Nat.le_of_not_lt fun hlt => hnot hlt)).symm
  rw [UInt32.toNat_div, hleast]
  by_cases hle : successful.toNat ≤ lost.toNat
  · rw [if_pos (UInt32.le_iff_toNat_le.2 hle), min_eq_right hle, Nat.div_self hpos]
  · rw [if_neg fun h => hle (UInt32.le_iff_toNat_le.1 h), min_eq_left (not_le.1 hle).le]
    exact Nat.div_eq_of_lt (not_le.1 hle)

theorem adjust_zero (used : Bool) :
    c.adjust used 0 = if used then c.setWindowSize (c.windowSize.toNat * 2) else c := by
  rw [TimedChannel.adjust, if_pos (by norm_num)]

theorem adjust_one (used : Bool) :
    c.adjust used 1 = c.setWindowSize (c.windowSize.toNat - 100) := by
  rw [TimedChannel.adjust, if_neg (by norm_num), if_neg (by norm_num), if_pos (by norm_num)]

theorem windowSize_sampleRates : c.sampleRates.windowSize = c.windowSize := rfl

theorem windowSize_updateTimers {dtime : ℚ} (hexpiry : 1 < c.packetLossCounter + dtime)
    (hpos : 0 < c.currentPacketSuccessful) :
    ((c.updateTimers dtime).windowSize.toNat : ℤ) =
      if c.currentPacketSuccessful ≤ c.currentPacketLoss + c.currentPacketTooLate then
        limited ((c.windowSize.toNat : ℤ) - 100)
      else if c.halfUsed then limited ((c.windowSize.toNat : ℤ) * 2)
      else c.windowSize.toNat := by
  let c₁ : TimedChannel := { c with
    bpmCounter := c.bpmCounter + dtime, packetLossCounter := c.packetLossCounter + dtime }
  have hsame : (c.updateTimers dtime).windowSize = c₁.expire.windowSize := by
    rw [TimedChannel.updateTimers]
    dsimp only
    rw [if_pos hexpiry]
    split
    · exact windowSize_sampleRates
    · rfl
  rw [hsame, TimedChannel.expire]
  dsimp only
  rw [if_pos hpos, toNat_quotient hpos]
  split
  · rw [Nat.cast_one, adjust_one]
    exact toNat_setWindowSize _
  · rw [Nat.cast_zero, adjust_zero]
    by_cases hused : c.halfUsed = true
    · rw [if_pos hused]
      have hused₁ : c₁.halfUsed = true := hused
      rw [if_pos hused₁]
      exact toNat_setWindowSize _
    · have hused₁ : ¬ c₁.halfUsed = true := hused
      rw [if_neg hused, if_neg hused₁]

theorem lostRatio_eq_one (hpos : 0 < c.currentPacketSuccessful)
    (hall : c.currentPacketSuccessful ≤ c.currentPacketLoss + c.currentPacketTooLate) :
    c.lostRatio = 1 := by
  have hpos' : (0 : ℚ) < c.currentPacketSuccessful.toNat := Nat.cast_pos.2 hpos
  have hsum : (c.currentPacketLoss + c.currentPacketTooLate).toNat ≤
      c.currentPacketLoss.toNat + c.currentPacketTooLate.toNat := by
    rw [UInt32.toNat_add]
    exact Nat.mod_le _ _
  rw [TimedChannel.lostRatio, min_eq_right ((UInt32.le_iff_toNat_le.1 hall).trans hsum)]
  exact div_self hpos'.ne'

/-- The code follows its thresholds exactly at the right steps. -/
theorem windowSize_prescribed_iff (c : TimedChannel) (dtime : ℚ)
    (hexpiry : 1 < c.packetLossCounter + dtime) (hpos : 0 < c.currentPacketSuccessful)
    (hwindow : 32 ≤ c.windowSize.toNat ∧ c.windowSize.toNat ≤ 2048) :
    ((c.updateTimers dtime).windowSize.toNat : ℤ) =
      prescribed c.lostRatio c.halfUsed c.windowSize.toNat ↔ RightSteps c := by
  rw [windowSize_updateTimers hexpiry hpos]
  by_cases hall : c.currentPacketSuccessful ≤ c.currentPacketLoss + c.currentPacketTooLate
  · have hone := lostRatio_eq_one hpos hall
    rw [if_pos hall, hone, prescribed, step, if_neg (by norm_num), if_neg (by norm_num),
      if_pos (by norm_num)]
    exact iff_of_true rfl (.inr (.inl hall))
  · rw [if_neg hall, prescribed, step, RightSteps]
    generalize c.lostRatio = r
    generalize c.windowSize.toNat = w at hwindow
    have hstay := limited_spec w
    have hdouble := limited_spec (w * 2)
    have hmore := limited_spec (w + 50)
    have hless := limited_spec (w - 50)
    have hmuchLess := limited_spec (w - 100)
    -- the code doubles or stays; the cases are the steps that the ratio asks for
    by_cases hsmall : r < 1 / 100
    · refine iff_of_true ?_ (.inl hsmall)
      rw [if_pos hsmall]
      cases c.halfUsed <;> simp only [if_true, if_false, Bool.false_eq_true] <;> omega
    · by_cases hfew : r < 5 / 100
      · have htenth : r ≤ 1 / 10 := by linarith
        rw [if_neg hsmall, if_pos hfew]
        cases c.halfUsed <;> simp only [hsmall, hall, hfew, htenth, if_true, if_false, true_and,
          true_or, or_true, iff_true, false_and, or_false, false_or, Bool.false_eq_true,
          Bool.true_eq_false] <;> omega
      · rw [if_neg hsmall, if_neg hfew]
        by_cases htenth : r ≤ 1 / 10
        · have hmany : ¬ r > 15 / 100 := by linarith
          rw [if_neg hmany, if_neg (not_lt.2 htenth)]
          cases c.halfUsed <;> simp only [hsmall, hall, hfew, htenth, if_true, if_false, true_and,
            true_or, or_true, iff_true, false_and, or_false, false_or, Bool.false_eq_true,
            Bool.true_eq_false] <;> omega
        · rw [if_pos (not_le.1 htenth)]
          by_cases hmany : r > 15 / 100
          · rw [if_pos hmany]
            cases c.halfUsed <;> simp only [hsmall, hall, hfew, htenth, if_true, if_false,
              true_and, false_and, or_false, false_or, iff_false, Bool.false_eq_true,
              Bool.true_eq_false] <;> omega
          · rw [if_neg hmany]
            cases c.halfUsed <;> simp only [hsmall, hall, hfew, htenth, if_true, if_false,
              true_and, false_and, or_false, false_or, iff_false, Bool.false_eq_true,
              Bool.true_eq_false] <;> omega

/-- A second in which one packet of two hundred was lost. -/
theorem windowSize_prescribed_iff_fewLost :
    let c : TimedChannel :=
      { windowSize := 256, currentPacketLoss := 1, currentPacketSuccessful := 200
        currentBytesTransfered := 100000, packetLossCounter := 1 }
    ((c.updateTimers (1 / 20)).windowSize.toNat : ℤ) = prescribed c.lostRatio c.halfUsed 256 :=
  (windowSize_prescribed_iff _ _ (by norm_num) (by decide) (by decide)).2 (.inl (by decide +kernel))

/-- A second in which a tenth of the packets was lost: the window grows twofold, and not at all by
the thresholds. -/
theorem window_grows_under_loss :
    let c : TimedChannel :=
      { windowSize := 256, currentPacketLoss := 20, currentPacketSuccessful := 200
        currentBytesTransfered := 100000, packetLossCounter := 1 }
    (c.updateTimers (1 / 20)).windowSize = 512 ∧
      prescribed c.lostRatio c.halfUsed c.windowSize.toNat = 256 := by
  refine ⟨by decide +kernel, by decide +kernel⟩

end Expiry

end Mtp
end AxisEngine
