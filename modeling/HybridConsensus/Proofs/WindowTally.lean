import HybridConsensus.Proofs.ProductRange

/-!
# Adding up a window

A solve time counts for at most six spacings, so after `n` samples the weighted solve times come to
at most `6 * T * (1 + ... + n)`, and the shares of the targets to at most `n / count` of the largest
target. While this holds no step of the tally faults, and a step keeps it.
-/

namespace HybridConsensus.WeightedAverage

open Signed64

/-- The largest sum of weighted solve times fits. -/
def Fits (size spacing : Int) : Prop :=
  3 * (size * (size + 1) * spacing) ≤ largest

instance (size spacing : Int) : Decidable (Fits size spacing) :=
  inferInstanceAs (Decidable (_ ≤ _))

theorem Fits.of_le {lower upper spacing : Int} (hfits : Fits upper spacing) (hspacing : 1 ≤ spacing)
    (hlower : 0 ≤ lower) (hle : lower ≤ upper) : Fits lower spacing := by
  unfold Fits at *
  have hpairs : lower * (lower + 1) ≤ upper * (upper + 1) :=
    Int.mul_le_mul hle (by omega) (by omega) (by omega)
  have hseconds : lower * (lower + 1) * spacing ≤ upper * (upper + 1) * spacing :=
    Int.mul_le_mul_of_nonneg_right hpairs (by omega)
  omega

/-- A window that fits has room for its own size and for the longest solve time. -/
theorem Fits.bounds {size spacing : Int} (hfits : Fits size spacing) (hspacing : 1 ≤ spacing)
    (hsize : 1 ≤ size) : size + 1 ≤ largest ∧ longestSolve * spacing ≤ largest := by
  have hone := hfits.of_le hspacing (by decide : (0 : Int) ≤ 1) hsize
  have hpairs : size + 1 ≤ size * (size + 1) := le_mul_of_one_le_left (by omega) hsize
  have hseconds : size * (size + 1) ≤ size * (size + 1) * spacing :=
    le_mul_of_one_le_right (by omega) hspacing
  unfold Fits at *
  unfold longestSolve
  omega

namespace Tally

variable {spacing : Int} {count divisor added : Nat} {tally : Tally} {block : BlockRecord}

def time (tally : Tally) (block : BlockRecord) : Int :=
  if tally.clock < block.time.toInt then block.time.toInt else clamp (tally.clock + 1)

def solveTime (spacing : Int) (tally : Tally) (block : BlockRecord) : Int :=
  min (longestSolve * spacing) (clamp (tally.time block - tally.clock))

def share (count divisor : Nat) (block : BlockRecord) : Target :=
  (block.bits.target.div count).div divisor

def next (spacing : Int) (count divisor : Nat) (tally : Tally) (block : BlockRecord) : Tally where
  clock := tally.time block
  weight := tally.weight + 1
  solveTimes := tally.solveTimes + tally.solveTime spacing block * (tally.weight + 1)
  average := tally.average.add (share count divisor block)

structure Within (spacing : Int) (count divisor added : Nat) (tally : Tally) : Prop where
  clock : InRange tally.clock
  weight : tally.weight = added
  solveTimes_nonneg : 0 ≤ tally.solveTimes
  solveTimes_le : tally.solveTimes ≤ 3 * (added * (added + 1) * spacing)
  average_le : tally.average.value ≤ added * (Target.maximum.value / count / divisor)

theorem within_start (oldest : BlockRecord) : (start oldest).Within spacing count divisor 0 where
  clock := toInt_inRange oldest.time
  weight := rfl
  solveTimes_nonneg := Int.le_refl 0
  solveTimes_le := by simp [start]
  average_le := by simp [start, Target.zero]

theorem time_inRange (tally : Tally) (block : BlockRecord) : InRange (tally.time block) := by
  unfold time
  split
  · exact toInt_inRange _
  · exact clamp_inRange _

theorem clock_le_time (h : InRange tally.clock) (block : BlockRecord) :
    tally.clock ≤ tally.time block := by
  unfold time
  split
  · omega
  · simp only [InRange, clamp, smallest, largest] at *
    omega

theorem solveTime_nonneg (h : InRange tally.clock) (hspacing : 1 ≤ spacing) (block : BlockRecord) :
    0 ≤ tally.solveTime spacing block := by
  have htime := clock_le_time h block
  simp only [solveTime, longestSolve, clamp, smallest, largest]
  omega

theorem solveTime_le (tally : Tally) (spacing : Int) (block : BlockRecord) :
    tally.solveTime spacing block ≤ 6 * spacing :=
  Int.min_le_left _ _

theorem share_le (count divisor : Nat) (block : BlockRecord) :
    (share count divisor block).value ≤ Target.maximum.value / count / divisor := by
  have hmaximum : block.bits.target.value ≤ Target.maximum.value :=
    Nat.le_pred_of_lt block.bits.target.bounded
  exact Nat.div_le_div_right (Nat.div_le_div_right hmaximum)

theorem sum_share_le (divisor : Nat) (h : added ≤ count) :
    added * (Target.maximum.value / count / divisor) ≤ Target.maximum.value := by
  calc added * (Target.maximum.value / count / divisor)
      ≤ count * (Target.maximum.value / count) := Nat.mul_le_mul h (Nat.div_le_self _ _)
    _ ≤ Target.maximum.value := Nat.mul_div_le _ _

theorem Within.next (h : tally.Within spacing count divisor added) (hspacing : 1 ≤ spacing)
    (block : BlockRecord) :
    (tally.next spacing count divisor block).Within spacing count divisor (added + 1) where
  clock := tally.time_inRange block
  weight := by simp [Tally.next, h.weight]
  solveTimes_nonneg := by
    have hsolve := solveTime_nonneg h.clock hspacing block
    have hweighted := Int.mul_nonneg hsolve (by omega : (0 : Int) ≤ added + 1)
    have hsum := h.solveTimes_nonneg
    simp only [Tally.next, h.weight]
    omega
  solveTimes_le := by
    have hweighted : tally.solveTime spacing block * (added + 1) ≤ 6 * spacing * (added + 1) :=
      Int.mul_le_mul_of_nonneg_right (tally.solveTime_le spacing block) (by omega)
    simp only [Tally.next, h.weight]
    calc tally.solveTimes + tally.solveTime spacing block * (added + 1)
        ≤ 3 * (added * (added + 1) * spacing) + 6 * spacing * (added + 1) :=
          Int.add_le_add h.solveTimes_le hweighted
      _ = 3 * ((added + 1 : Nat) * ((added + 1 : Nat) + 1) * spacing) := by
          push_cast
          ring
  average_le := by
    have hshare := share_le count divisor block
    calc (tally.average.add (share count divisor block)).value
        ≤ tally.average.value + (share count divisor block).value := Target.value_saturate_le _
      _ ≤ added * (Target.maximum.value / count / divisor) +
            Target.maximum.value / count / divisor := Nat.add_le_add h.average_le hshare
      _ = (added + 1) * (Target.maximum.value / count / divisor) := (Nat.succ_mul _ _).symm

theorem addAverage_eq_ok {sum share : Target} (h : sum.value + share.value < 1 <<< 256) :
    addAverage sum share = .ok (sum.add share) := by
  unfold addAverage
  rw [dif_pos h]
  congr 1
  exact Target.ext (Target.value_saturate_of_lt h).symm

theorem Within.average_add_share_lt (h : tally.Within spacing count divisor added)
    (hmore : added + 1 ≤ count) (block : BlockRecord) :
    tally.average.value + (share count divisor block).value < 1 <<< 256 := by
  have hshare := share_le count divisor block
  have hshares := sum_share_le divisor hmore
  rw [Nat.succ_mul] at hshares
  have holder := h.average_le
  have hmaximum := Target.maximum.bounded
  omega

theorem Within.add_eq_ok (h : tally.Within spacing count divisor added) (hspacing : 1 ≤ spacing)
    (hmore : added + 1 ≤ count) (hfits : Fits count spacing) (block : BlockRecord) :
    tally.add spacing count divisor block = .ok (tally.next spacing count divisor block) := by
  have hnext := h.next hspacing block
  have hsolve := solveTime_nonneg h.clock hspacing block
  have hbounds := hfits.bounds hspacing (by omega)
  have hpart := hfits.of_le hspacing (by omega : (0 : Int) ≤ (added + 1 : Nat)) (by omega)
  have hlonger : check (longestSolve * spacing) = .ok (longestSolve * spacing) :=
    check_of_nonneg (by unfold longestSolve; omega) hbounds.2
  have hweight : check (tally.weight + 1) = .ok (tally.weight + 1) := by
    rw [h.weight]
    exact check_of_nonneg (by omega) (by omega)
  have hweighted := Int.mul_nonneg hsolve (by omega : (0 : Int) ≤ added + 1)
  rw [← h.weight] at hweighted
  have hsum : tally.solveTimes + tally.solveTime spacing block * (tally.weight + 1) ≤ largest :=
    Int.le_trans hnext.solveTimes_le hpart
  have hold := h.solveTimes_nonneg
  have haverage := h.average_add_share_lt hmore block
  have htime : (if tally.clock < block.time.toInt then block.time.toInt
      else clamp (tally.clock + 1)) = tally.time block := rfl
  have hcapped : min (longestSolve * spacing) (clamp (tally.time block - tally.clock)) =
      tally.solveTime spacing block := rfl
  unfold add
  simp only [htime, hlonger, bind, Except.bind, hcapped, hweight]
  rw [check_of_nonneg hweighted (by omega)]
  simp only
  rw [check_of_nonneg (by omega) hsum]
  have hadded : addAverage tally.average ((block.bits.target.div count).div divisor) =
      .ok (tally.average.add (share count divisor block)) := addAverage_eq_ok haverage
  simp only [hadded]
  rfl

/-- So it adds all samples that are left, and still is within its bounds. -/
theorem Within.foldlM_add_eq_ok (hspacing : 1 ≤ spacing) (hfits : Fits count spacing)
    (samples : List BlockRecord) :
    ∀ (tally : Tally) (added : Nat), tally.Within spacing count divisor added →
      added + samples.length ≤ count →
      samples.foldlM (Tally.add spacing count divisor) tally =
          .ok (samples.foldl (Tally.next spacing count divisor) tally) ∧
        (samples.foldl (Tally.next spacing count divisor) tally).Within spacing count divisor
          (added + samples.length) := by
  induction samples with
  | nil =>
    intro tally added h _
    exact ⟨rfl, h⟩
  | cons block samples ih =>
    intro tally added h hroom
    rw [List.length_cons] at hroom
    have hstep := h.add_eq_ok hspacing (by omega) hfits block
    obtain ⟨hrest, hwithin⟩ := ih _ _ (h.next hspacing block) (by omega)
    rw [List.foldlM_cons, hstep, List.foldl_cons, List.length_cons]
    refine ⟨hrest, ?_⟩
    rwa [Nat.add_comm samples.length 1, ← Nat.add_assoc]

end Tally

variable {size spacing : Int}

theorem divisor_eq_ok (hsize : 1 ≤ size) (hspacing : 1 ≤ spacing) (hfits : Fits size spacing) :
    divisor size spacing = .ok (size * (size + 1) * spacing / 2).toNat := by
  have hbounds := hfits.bounds hspacing hsize
  have hpairs : 2 ≤ size * (size + 1) := by nlinarith
  have hseconds : size * (size + 1) ≤ size * (size + 1) * spacing :=
    le_mul_of_one_le_right (by omega) hspacing
  unfold Fits at hfits
  have hhalf : max ((size * (size + 1) * spacing).tdiv 2) 1 = size * (size + 1) * spacing / 2 := by
    rw [Int.tdiv_eq_ediv_of_nonneg (by omega)]
    omega
  unfold divisor
  simp only [bind, Except.bind, check_of_nonneg (by omega : 0 ≤ size + 1) hbounds.1,
    check_of_nonneg (by omega : 0 ≤ size * (size + 1)) (by omega),
    check_of_nonneg (by omega : 0 ≤ size * (size + 1) * spacing) (by omega), hhalf]
  rfl

/-- The tally of a full window without checks. -/
def tallied (size spacing : Int) (oldest : BlockRecord) (samples : List BlockRecord) : Tally :=
  samples.foldl (Tally.next spacing size.toNat (size * (size + 1) * spacing / 2).toNat)
    (Tally.start oldest)

theorem ofSamples_eq_ok (hsize : 1 ≤ size) (hspacing : 1 ≤ spacing) (hfits : Fits size spacing)
    (oldest : BlockRecord) {samples : List BlockRecord} (hroom : samples.length ≤ size) :
    ofSamples size spacing (oldest :: samples) =
      .ok (some (tallied size spacing oldest samples).target) := by
  have hcount : (size.toNat : Int) = size := Int.toNat_of_nonneg (by omega)
  have hstart : (Tally.start oldest).Within spacing size.toNat
      (size * (size + 1) * spacing / 2).toNat 0 := Tally.within_start oldest
  have hfold := Tally.Within.foldlM_add_eq_ok hspacing (hcount.symm ▸ hfits) samples _ 0 hstart
    (by omega)
  unfold ofSamples
  simp only [divisor_eq_ok hsize hspacing hfits, bind, Except.bind, hfold.1]
  rfl

end HybridConsensus.WeightedAverage
