import HybridConsensus.Proofs.ClampedBits
import HybridConsensus.Proofs.Descent
import HybridConsensus.Proofs.ProductRange

/-!
# Gaps between two stake blocks

The longer the gap between the newest two stake blocks, the easier a single step makes the next one.
The cap, the product, the quotient, the clamp and the bits all keep that order, but for the target
of zero, in whose place the clamp hands out the limit. A gap below zero is read as one second, which
is enough to leave something of a target of at least one spacing. A gap of zero is read as it is and
leaves nothing. So two blocks of one time lead to the easiest target there is, and a second more
between them to one of the hardest.
-/

namespace HybridConsensus.ExponentialAverage

open Signed64

variable {target : Target} {observed near far spacing interval : Int}

theorem countedSpacing_eq_zero_iff {instead longest : Int} (hinstead : 1 ≤ instead)
    (hlongest : 1 ≤ longest) : countedSpacing observed instead longest = 0 ↔ observed = 0 := by
  unfold countedSpacing
  split <;> omega

theorem countedSpacing_mono {instead longest : Int} (hnear : 0 ≤ near) (horder : near ≤ far) :
    countedSpacing near instead longest ≤ countedSpacing far instead longest := by
  unfold countedSpacing
  rw [if_neg (by omega), if_neg (by omega)]
  omega

theorem blended_mono (horder : near ≤ far) :
    blended target near spacing interval ≤ blended target far spacing interval :=
  Nat.div_le_div_right (Target.saturate_mono (Nat.mul_le_mul_left _ (by omega)))

/-- With an interval of one, a target of at least one spacing is blended to nothing only by a gap of
zero: one second leaves it one part in as many as a spacing has seconds. -/
theorem blended_one_eq_zero_iff (hspacing : 1 ≤ spacing) (hdouble : 20 * spacing ≤ largest)
    (hlarge : spacing ≤ target.value) (hobserved : 0 ≤ observed) :
    (blended target observed spacing 1).value = 0 ↔ observed = 0 := by
  have hfactor : (max ((1 - 1) * spacing + 2 * observed) 0).toNat = 2 * observed.toNat := by omega
  rw [value_blended, hfactor, Nat.div_eq_zero_iff]
  constructor
  · intro hsmall
    by_contra hpositive
    have hproduct : target.value * 2 ≤ target.value * (2 * observed.toNat) :=
      Nat.mul_le_mul_left _ (by omega)
    simp only [largest] at hdouble
    omega
  · rintro rfl
    rw [Int.toNat_zero, Nat.mul_zero]
    omega

/-- The target that a step leads to, before the limit. -/
def stepped (target : Target) (observed spacing : Int) : Target :=
  blended target (countedSpacing observed 1 (spacing * 10)) spacing 1

theorem stepped_mono (hnear : 0 ≤ near) (horder : near ≤ far) :
    stepped target near spacing ≤ stepped target far spacing :=
  blended_mono (countedSpacing_mono hnear horder)

theorem stepped_eq_zero_iff (hspacing : 1 ≤ spacing) (hdouble : 20 * spacing ≤ largest)
    (hlarge : spacing ≤ target.value) :
    (stepped target observed spacing).value = 0 ↔ observed = 0 := by
  have hcounted : 0 ≤ countedSpacing observed 1 (spacing * 10) :=
    countedSpacing_nonneg (by omega) (by omega)
  rw [stepped, blended_one_eq_zero_iff hspacing hdouble hlarge hcounted,
    countedSpacing_eq_zero_iff (by omega) (by omega)]

/-- **When a shorter gap makes the next stake block no easier.** A step from a target of at least
one spacing ends without a fault, and two blocks of one time lead to the limit. Of two gaps that are
not below zero the shorter one leads to a target that is not above the other, unless the shorter one
alone is zero. Then it does so only if the other leads to the limit too. -/
theorem step_le_step_iff (previous : BlockRecord) (nearTime farTime : Int64) (spacing : Int)
    (limit : Target) (hspacing : 1 ≤ spacing) (hdouble : 20 * spacing ≤ largest)
    (hlarge : spacing ≤ previous.bits.target.value) :
    let gap (earlierTime : Int64) := clamp (previous.time.toInt - earlierTime.toInt)
    0 ≤ gap nearTime → gap nearTime ≤ gap farTime →
      ∃ nearBits farBits, step previous nearTime spacing limit = .ok nearBits ∧
        step previous farTime spacing limit = .ok farBits ∧
        (gap nearTime = 0 → nearBits = limit.toCompact) ∧
        (nearBits.target ≤ farBits.target ↔
          (gap nearTime = 0 → gap farTime = 0 ∨ farBits = limit.toCompact)) := by
  intro gap hnear horder
  have hbits (earlierTime : Int64) : step previous earlierTime spacing limit =
      .ok ((stepped previous.bits.target (gap earlierTime) spacing).clampedBits limit) :=
    step_eq_ok previous earlierTime limit hspacing hdouble
  have htogether (earlierTime : Int64) (hgap : gap earlierTime = 0) :
      (stepped previous.bits.target (gap earlierTime) spacing).clampedBits limit =
        limit.toCompact :=
    Target.clampedBits_of_zero ((stepped_eq_zero_iff hspacing hdouble hlarge).mpr hgap)
  refine ⟨_, _, hbits nearTime, hbits farTime, htogether nearTime, ?_⟩
  by_cases hgap : gap nearTime = 0
  · rw [htogether nearTime hgap, Target.limit_le_clampedBits_iff]
    constructor
    · exact fun hlimit _ => .inr hlimit
    · exact fun hcases => (hcases hgap).elim (htogether farTime) id
  · have hnonzero := (stepped_eq_zero_iff hspacing hdouble hlarge).not.mpr hgap
    exact iff_of_true
      (Target.target_clampedBits_mono (stepped_mono hnear horder) hnonzero limit)
      fun hzero => absurd hzero hgap

/-- A gap of one second and one of a whole spacing. -/
theorem step_le_step_iff_of_one_second :
    let previous : BlockRecord := { ChainStore.numbered 3 .stake 1000 0x1c0fffff with
      id := 3, height := 3, parent := some 2 }
    ∃ nearBits farBits,
      step previous 999 150 ConsensusParams.main.stakeLimit = .ok nearBits ∧
      step previous 850 150 ConsensusParams.main.stakeLimit = .ok farBits ∧
      nearBits.target ≤ farBits.target := by
  intro previous
  obtain ⟨nearBits, farBits, hnear, hfar, -, horder⟩ :=
    step_le_step_iff previous 999 850 150 ConsensusParams.main.stakeLimit (by decide) (by decide)
      (by decide +kernel) (by decide) (by decide)
  exact ⟨nearBits, farBits, hnear, hfar, horder.mpr fun hzero => absurd hzero (by decide)⟩

/-- Two stake blocks of one time lead to the limit, and one second between them to a far harder
target. -/
theorem step_of_equal_times_above_step_of_one_second :
    let previous : BlockRecord := { ChainStore.numbered 3 .stake 1000 0x1c0fffff with
      id := 3, height := 3, parent := some 2 }
    let limit := ConsensusParams.main.stakeLimit
    10 * 150 ≤ previous.bits.target.value ∧ previous.bits.target ≤ limit ∧
      previous.bits.target.value * (20 * 150) < 1 <<< 256 ∧
      step previous 1000 150 limit = .ok 0x1d00ffff ∧
      step previous 999 150 limit = .ok 0x1b1b4e80 ∧
      CompactBits.target 0x1b1b4e80 < CompactBits.target 0x1d00ffff := by
  intro previous limit
  exact ⟨by decide +kernel, by decide +kernel, by decide +kernel, by decide +kernel,
    by decide +kernel, by decide +kernel⟩

end HybridConsensus.ExponentialAverage
