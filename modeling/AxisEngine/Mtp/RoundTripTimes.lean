import Mathlib.Algebra.Order.Field.Rat
import Mathlib.Tactic.FieldSimp
import Mathlib.Tactic.Linarith
import Mathlib.Tactic.NormNum
import Mathlib.Tactic.Ring

/-!
# RoundTripTimes — the average of the reported times, and the resend timeout

`Peer::RTTStatistics` and `UDPPeer::reportRTT` (`network/mtp/impl.cpp`), with exact numbers for the
`float`s and the quotients of `unsigned int`s as they are.

* `RttPeer.reportRTT` — one report;
* `weighted` — the mean with the weight of `num_samples` that the average is meant to be;
* `averages_iff` — a run of reports is averaged in this way only when the reports never change.
-/

namespace AxisEngine
namespace Mtp

/-- `FLT_MAX`. -/
def fltMax : ℚ := (2 ^ 24 - 1) * 2 ^ 104

/-- `rttstats`. -/
structure RttStats where
  jitterMin : ℚ := fltMax
  jitterMax : ℚ := 0
  jitterAvg : ℚ := -1
  minRtt : ℚ := fltMax
  maxRtt : ℚ := 0
  avgRtt : ℚ := -1

structure RttPeer where
  rtt : RttStats := {}
  lastRtt : ℚ := -1
  resendTimeout : ℚ := 1 / 2

/-- `MAX_RELIABLE_WINDOW_SIZE*10`. -/
def numSamples : ℕ := 0x8000 * 10

/-- The update of `avg_rtt` and of `jitter_avg`. -/
def average (numSamples : ℕ) (avg value : ℚ) : ℚ :=
  if avg < 0 then value
  else avg * (numSamples / (numSamples - 1) : ℕ) + value * (1 / numSamples : ℕ)

namespace RttPeer

def rttStatistics (peer : RttPeer) (rtt : ℚ) (numSamples : ℕ) : RttPeer :=
  if peer.lastRtt > 0 then
    let jitter := if rtt > peer.lastRtt then rtt - peer.lastRtt else peer.lastRtt - rtt
    { peer with
      rtt :=
        { minRtt := if rtt < peer.rtt.minRtt then rtt else peer.rtt.minRtt
          maxRtt := if rtt ≥ peer.rtt.maxRtt then rtt else peer.rtt.maxRtt
          avgRtt := average numSamples peer.rtt.avgRtt rtt
          jitterMin := if jitter < peer.rtt.jitterMin then jitter else peer.rtt.jitterMin
          jitterMax := if jitter ≥ peer.rtt.jitterMax then jitter else peer.rtt.jitterMax
          jitterAvg := average numSamples peer.rtt.jitterAvg jitter }
      lastRtt := rtt }
  else { peer with lastRtt := rtt }

/-- The timeout for an average: twice the average, within its limits. -/
def timeoutFor (avg : ℚ) : ℚ :=
  let timeout := avg * 2
  let timeout := if timeout < 1 / 10 then 1 / 10 else timeout
  if timeout > 2 then 2 else timeout

def reportRTT (peer : RttPeer) (rtt : ℚ) : RttPeer :=
  if rtt < 0 then peer
  else
    let peer := peer.rttStatistics rtt numSamples
    if peer.rtt.avgRtt < 0 then peer
    else { peer with resendTimeout := timeoutFor peer.rtt.avgRtt }

/-- A new peer after some reports. -/
def after (reports : List ℚ) : RttPeer := reports.foldl reportRTT {}

end RttPeer

open RttPeer

/-! ## What the average is meant to be -/

def weighted (avg value : ℚ) : ℚ :=
  avg * (numSamples - 1) / numSamples + value / numSamples

/-- One more report is averaged: `avg_rtt` becomes the weighted mean, comes closer to the report,
stays within the reports, and the resend timeout follows it. -/
structure Averages (reports : List ℚ) (rtt : ℚ) : Prop where
  mean : (after (reports ++ [rtt])).rtt.avgRtt = weighted (after reports).rtt.avgRtt rtt
  closer : rtt ≠ (after reports).rtt.avgRtt →
    |rtt - (after (reports ++ [rtt])).rtt.avgRtt| < |rtt - (after reports).rtt.avgRtt|
  above : ∃ least ∈ reports ++ [rtt], least ≤ (after (reports ++ [rtt])).rtt.avgRtt
  below : ∃ most ∈ reports ++ [rtt], (after (reports ++ [rtt])).rtt.avgRtt ≤ most
  timeout : (after (reports ++ [rtt])).resendTimeout =
    timeoutFor (after (reports ++ [rtt])).rtt.avgRtt

/-! ## One report -/

section Report

variable {peer : RttPeer} {rtt : ℚ}

/-- Both quotients are whole: the old average counts in full and the report not at all. -/
theorem average_of_nonneg {avg value : ℚ} (h : 0 ≤ avg) : average numSamples avg value = avg := by
  have hold : numSamples / (numSamples - 1) = 1 := by decide
  have hnew : 1 / numSamples = 0 := by decide
  rw [average, if_neg (not_lt.2 h), hold, hnew, Nat.cast_one, Nat.cast_zero, mul_one, mul_zero,
    add_zero]

theorem avgRtt_rttStatistics (rtt : ℚ) (h : 0 ≤ peer.rtt.avgRtt) :
    (peer.rttStatistics rtt numSamples).rtt.avgRtt = peer.rtt.avgRtt := by
  rw [rttStatistics]
  split
  · exact average_of_nonneg h
  · rfl

theorem avgRtt_reportRTT (rtt : ℚ) (h : 0 ≤ peer.rtt.avgRtt) :
    (peer.reportRTT rtt).rtt.avgRtt = peer.rtt.avgRtt := by
  rw [reportRTT]
  split
  · rfl
  · dsimp only
    split <;> exact avgRtt_rttStatistics rtt h

theorem resendTimeout_reportRTT (peer : RttPeer) (hrtt : 0 ≤ rtt) (h : 0 ≤ peer.rtt.avgRtt) :
    (peer.reportRTT rtt).resendTimeout = timeoutFor peer.rtt.avgRtt := by
  have havg := avgRtt_rttStatistics rtt h
  rw [reportRTT, if_neg (not_lt.2 hrtt)]
  dsimp only
  rw [havg, if_neg (not_lt.2 h)]

theorem avgRtt_foldl (h : 0 ≤ peer.rtt.avgRtt) (reports : List ℚ) :
    (reports.foldl reportRTT peer).rtt.avgRtt = peer.rtt.avgRtt := by
  induction reports generalizing peer with
  | nil => rfl
  | cons rtt reports ih =>
    have hone := avgRtt_reportRTT rtt h
    exact (ih (hone.symm ▸ h)).trans hone

end Report

/-! ## Runs of reports -/

theorem weighted_eq_self_iff {avg value : ℚ} : avg = weighted avg value ↔ value = avg := by
  have hsamples : (numSamples : ℚ) = 327680 := by norm_num [numSamples]
  rw [weighted, hsamples]
  constructor
  · intro h
    linarith
  · rintro rfl
    ring

theorem after_snoc (reports : List ℚ) (rtt : ℚ) :
    after (reports ++ [rtt]) = (after reports).reportRTT rtt := by
  rw [after, List.foldl_append]
  rfl

variable {first second : ℚ}

theorem after_one (hfirst : 0 ≤ first) : after [first] = { lastRtt := first } := by
  have hstart : ¬ (({} : RttPeer).lastRtt > 0) := by norm_num
  have hunset : ((-1 : ℚ) < 0) := by norm_num
  show ({} : RttPeer).reportRTT first = _
  rw [reportRTT, if_neg (not_lt.2 hfirst), rttStatistics, if_neg hstart]
  exact if_pos hunset

/-- The second one is the first average, unless the first was zero. -/
theorem avgRtt_two (hfirst : 0 ≤ first) (hsecond : 0 ≤ second) :
    (after [first, second]).rtt.avgRtt = if 0 < first then second else -1 := by
  have hunset : ((-1 : ℚ) < 0) := by norm_num
  have htwo : after [first, second] = ({ lastRtt := first } : RttPeer).reportRTT second := by
    rw [← after_one hfirst]
    exact after_snoc [first] second
  rw [htwo, reportRTT, if_neg (not_lt.2 hsecond), rttStatistics]
  by_cases hpos : 0 < first
  · have havg : average numSamples (-1) second = second := if_pos hunset
    rw [if_pos hpos, if_pos hpos]
    dsimp only
    rw [havg, if_neg (not_lt.2 hsecond)]
  · rw [if_neg hpos, if_neg hpos]
    dsimp only
    rw [if_pos hunset]

theorem avgRtt_after (hfirst : 0 < first) (hsecond : 0 ≤ second) (reports : List ℚ) :
    (after (first :: second :: reports)).rtt.avgRtt = second := by
  have htwo : (after [first, second]).rtt.avgRtt = second := by
    rw [avgRtt_two hfirst.le hsecond, if_pos hfirst]
  exact (avgRtt_foldl (htwo.symm ▸ hsecond) reports).trans htwo

theorem averages_same (hfirst : 0 < first) (hsecond : 0 ≤ second) (reports : List ℚ) :
    Averages (first :: second :: reports) second := by
  have hbefore := avgRtt_after hfirst hsecond reports
  have hnow := avgRtt_after hfirst hsecond (reports ++ [second])
  have hmem : second ∈ first :: second :: (reports ++ [second]) :=
    List.mem_cons_of_mem _ (List.mem_cons_self ..)
  refine ⟨?_, ?_, ⟨second, hmem, hnow.ge⟩, ⟨second, hmem, hnow.le⟩, ?_⟩
  · rw [hbefore]
    exact hnow.trans (weighted_eq_self_iff.2 rfl)
  · intro hne
    exact absurd hbefore.symm hne
  · have hlast := resendTimeout_reportRTT (after (first :: second :: reports))
      hsecond (hbefore.symm ▸ hsecond)
    rw [after_snoc, hlast, ← after_snoc, hbefore]
    exact congrArg timeoutFor hnow.symm

/-- As long as there is no average, a report becomes the average or leaves none. -/
theorem avgRtt_reportRTT_of_unset {peer : RttPeer} (rtt : ℚ) (h : peer.rtt.avgRtt = -1) :
    (peer.reportRTT rtt).rtt.avgRtt = -1 ∨ (peer.reportRTT rtt).rtt.avgRtt = rtt := by
  have hstatistics : (peer.rttStatistics rtt numSamples).rtt.avgRtt = -1 ∨
      (peer.rttStatistics rtt numSamples).rtt.avgRtt = rtt := by
    rw [rttStatistics]
    split
    · right
      show average numSamples peer.rtt.avgRtt rtt = rtt
      rw [h]
      exact if_pos (by norm_num)
    · exact .inl h
  rw [reportRTT]
  split
  · exact .inl h
  · dsimp only
    split <;> exact hstatistics

/-- A first report of zero leaves the average unset, so that the third one is not averaged. -/
theorem not_averages_of_zero (hsecond : 0 ≤ second) {third : ℚ} (hthird : 0 ≤ third) :
    ¬ Averages [0, second] third := by
  intro h
  have hbefore : (after [0, second]).rtt.avgRtt = -1 := by
    rw [avgRtt_two le_rfl hsecond, if_neg (lt_irrefl 0)]
  have hsamples : (numSamples : ℚ) = 327680 := by norm_num [numSamples]
  have hmean := h.mean
  rw [hbefore, weighted, hsamples] at hmean
  have hnow : after ([0, second] ++ [third]) = (after [0, second]).reportRTT third :=
    after_snoc [0, second] third
  rw [hnow] at hmean
  rcases avgRtt_reportRTT_of_unset third hbefore with hunset | hset
  · rw [hunset] at hmean
    linarith
  · rw [hset] at hmean
    linarith

/-- A run is averaged as meant exactly when no report changes anything: there are two at most, or
the first is positive and all others are the same. -/
theorem averages_iff (first second : ℚ) (reports : List ℚ) (hfirst : 0 ≤ first)
    (hsecond : 0 ≤ second) (hreports : ∀ rtt ∈ reports, 0 ≤ rtt) :
    (∀ earlier rtt later, reports = earlier ++ rtt :: later →
      Averages (first :: second :: earlier) rtt) ↔
      reports = [] ∨ (0 < first ∧ ∀ rtt ∈ reports, rtt = second) := by
  constructor
  · intro h
    by_cases hpos : 0 < first
    · refine .inr ⟨hpos, fun rtt hrtt => ?_⟩
      rcases List.append_of_mem hrtt with ⟨earlier, later, hsplit⟩
      have hmean := (h earlier rtt later hsplit).mean
      rw [avgRtt_after hpos hsecond] at hmean
      have hnow := avgRtt_after hpos hsecond (earlier ++ [rtt])
      exact weighted_eq_self_iff.1 (hnow.symm.trans hmean)
    · have hzero : first = 0 := le_antisymm (not_lt.1 hpos) hfirst
      subst hzero
      cases reports with
      | nil => exact .inl rfl
      | cons third reports =>
        have hthird : 0 ≤ third := hreports third (List.mem_cons_self ..)
        exact absurd (h [] third reports rfl) (not_averages_of_zero hsecond hthird)
  · rintro (rfl | ⟨hpos, hsame⟩) earlier rtt later hsplit
    · exact absurd hsplit (by simp)
    · have hrtt : rtt = second := hsame rtt (by simp [hsplit])
      rw [hrtt]
      exact averages_same hpos hsecond earlier

theorem averages_iff_steady : Averages [1 / 10, 1 / 10, 1 / 10] (1 / 10) :=
  (averages_iff (1 / 10) (1 / 10) [1 / 10, 1 / 10] (by norm_num) (by norm_num)
    (by norm_num)).2 (.inr ⟨by norm_num, by norm_num⟩) [1 / 10] (1 / 10) [] rfl

/-- The link becomes ten times slower, and neither the average nor the timeout ever follows. -/
theorem average_stays :
    (after [1 / 10, 1 / 10, 1]).rtt.avgRtt = 1 / 10 ∧ weighted (1 / 10) 1 ≠ 1 / 10 ∧
      (after [1 / 10, 1 / 10, 1]).resendTimeout = 1 / 5 := by
  refine ⟨by decide +kernel, by decide +kernel, by decide +kernel⟩

end Mtp
end AxisEngine
