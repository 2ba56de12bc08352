import HybridConsensus.Proofs.InheritedBits
import HybridConsensus.Proofs.ScheduledLimit

/-!
# Arithmetic that no chain can overflow

Times and bits come from the network, and a retarget multiplies what it reads. A fault would end it
without bits, so no block may lead to one. Each rule is taken apart here into the numbers it forms,
and ends without a fault exactly if they all fit. They do whatever the blocks say if the window, the
spacings and the timespans are moderate: no time counts for more than a number of spacings, a
timespan holds its interval of spacings at most once, and a window adds up no more shares of the
targets than it has divided them into.
-/

namespace HybridConsensus

open Signed64

/-! ### The numbers of a window -/

namespace WeightedAverage

/-- The numbers on the way to the divisor of the shares. -/
structure DivisorFits (size spacing : Int) : Prop where
  longer : InRange (size + 1)
  pairs : InRange (size * (size + 1))
  seconds : InRange (size * (size + 1) * spacing)

theorem divisor_eq_ok_iff {size spacing : Int} {value : Nat} :
    divisor size spacing = .ok value ↔
      DivisorFits size spacing ∧ (max ((size * (size + 1) * spacing).tdiv 2) 1).toNat = value := by
  unfold divisor
  simp only [check_bind_eq_ok_iff]
  constructor
  · rintro ⟨hlonger, hpairs, hseconds, hvalue⟩
    exact ⟨⟨hlonger, hpairs, hseconds⟩, Except.ok.inj hvalue⟩
  · rintro ⟨hfits, rfl⟩
    exact ⟨hfits.longer, hfits.pairs, hfits.seconds, rfl⟩

namespace Tally

variable {spacing : Int} {count divisor added : Nat} {tally result : Tally} {block : BlockRecord}

/-- The numbers that the tally forms when it adds a block. The averages add up without a stop at the
largest target, so their sum has to be one. -/
structure AddFits (spacing : Int) (count divisor : Nat) (tally : Tally) (block : BlockRecord) :
    Prop where
  longest : InRange (longestSolve * spacing)
  weight : InRange (tally.weight + 1)
  weighted : InRange (tally.solveTime spacing block * (tally.weight + 1))
  solveTimes : InRange (tally.solveTimes + tally.solveTime spacing block * (tally.weight + 1))
  average : tally.average.value + (share count divisor block).value < 1 <<< 256

theorem addAverage_bind_eq_ok_iff {α : Type} {sum share : Target} {rest : Target → Except Fault α}
    {value : α} :
    addAverage sum share >>= rest = .ok value ↔
      sum.value + share.value < 1 <<< 256 ∧ rest (sum.add share) = .ok value := by
  by_cases h : sum.value + share.value < 1 <<< 256
  · rw [addAverage_eq_ok h]
    exact (and_iff_right h).symm
  · rw [addAverage, dif_neg h]
    exact ⟨nofun, fun hsum => absurd hsum.1 h⟩

theorem add_eq_ok_iff :
    tally.add spacing count divisor block = .ok result ↔
      tally.AddFits spacing count divisor block ∧
        tally.next spacing count divisor block = result := by
  unfold add
  simp only [check_bind_eq_ok_iff, addAverage_bind_eq_ok_iff]
  constructor
  · rintro ⟨hlongest, hweight, hweighted, hsolveTimes, haverage, hresult⟩
    exact ⟨⟨hlongest, hweight, hweighted, hsolveTimes, haverage⟩, Except.ok.inj hresult⟩
  · rintro ⟨hfits, rfl⟩
    exact ⟨hfits.longest, hfits.weight, hfits.weighted, hfits.solveTimes, hfits.average, rfl⟩

/-- The samples before any place are added up without a fault, to solve times that can be read
without a sign, and so is the sample at that place. -/
def RunFits (spacing : Int) (count divisor : Nat) (oldest : BlockRecord)
    (samples : List BlockRecord) : Prop :=
  ∀ older newer, samples = older ++ newer → ∃ tally,
    older.foldlM (Tally.add spacing count divisor) (start oldest) = .ok tally ∧
      0 ≤ tally.solveTimes ∧ InRange tally.solveTimes ∧
      ∀ block ∈ newer.head?, tally.AddFits spacing count divisor block

theorem runFits (hspacing : 1 ≤ spacing) (hfits : Fits count spacing) (divisor : Nat)
    (oldest : BlockRecord) {samples : List BlockRecord} (hroom : samples.length ≤ count) :
    RunFits spacing count divisor oldest samples := by
  intro older newer hsamples
  rw [hsamples, List.length_append] at hroom
  have hstart : (start oldest).Within spacing count divisor 0 := within_start oldest
  obtain ⟨htally, hwithin⟩ :=
    Within.foldlM_add_eq_ok hspacing hfits older _ 0 hstart (by omega)
  rw [Nat.zero_add] at hwithin
  have hpart := hfits.of_le hspacing (by omega : (0 : Int) ≤ older.length) (by omega)
  have hnonneg := hwithin.solveTimes_nonneg
  have hhigh := Int.le_trans hwithin.solveTimes_le hpart
  refine ⟨_, htally, hnonneg, ⟨Int.le_trans (by decide) hnonneg, hhigh⟩, fun block hblock => ?_⟩
  have hmore := List.length_pos_of_mem (List.mem_of_mem_head? hblock)
  exact (add_eq_ok_iff.mp (hwithin.add_eq_ok hspacing (by omega) hfits block)).1

end Tally

/-- The numbers of a window. Each target is divided by the count of the samples and by the divisor.
-/
structure WindowFits (size spacing : Int) (oldest : BlockRecord) (samples : List BlockRecord) :
    Prop where
  size_pos : 1 ≤ size
  divisor : DivisorFits size spacing
  run : ∃ value, WeightedAverage.divisor size spacing = .ok value ∧ 1 ≤ value ∧
    Tally.RunFits spacing size.toNat value oldest samples

theorem windowFits {size spacing : Int} (hsize : 1 ≤ size) (hspacing : 1 ≤ spacing)
    (hfits : Fits size spacing) (oldest : BlockRecord) {samples : List BlockRecord}
    (hroom : samples.length ≤ size) : WindowFits size spacing oldest samples := by
  have hcount : (size.toNat : Int) = size := Int.toNat_of_nonneg (by omega)
  have hvalue := divisor_eq_ok hsize hspacing hfits
  obtain ⟨hdivisor, hpositive⟩ := divisor_eq_ok_iff.mp hvalue
  exact ⟨hsize, hdivisor, _, hvalue, by omega,
    Tally.runFits hspacing (hcount.symm ▸ hfits) _ oldest (by omega)⟩

end WeightedAverage

/-! ### The numbers of one move -/

namespace ExponentialAverage

variable {observed spacing interval granularity : Int} {target result : Target}

/-- The numerator may be below zero, and then counts as zero. -/
structure BlendFits (observed spacing interval : Int) : Prop where
  older : InRange (interval - 1)
  past : InRange ((interval - 1) * spacing)
  recent : InRange (2 * observed)
  numerator : InRange ((interval - 1) * spacing + 2 * observed)
  span : InRange (interval + 1)
  denominator : InRange ((interval + 1) * spacing)

theorem blend_eq_ok_iff :
    blend target observed spacing interval = .ok result ↔
      BlendFits observed spacing interval ∧
        (target.mul (max ((interval - 1) * spacing + 2 * observed) 0).toNat).div
          (max ((interval + 1) * spacing) 1).toNat = result := by
  unfold blend
  simp only [check_bind_eq_ok_iff]
  constructor
  · rintro ⟨holder, hpast, hrecent, hnumerator, hspan, hdenominator, hresult⟩
    exact ⟨⟨holder, hpast, hrecent, hnumerator, hspan, hdenominator⟩, Except.ok.inj hresult⟩
  · rintro ⟨hfits, rfl⟩
    exact ⟨hfits.older, hfits.past, hfits.recent, hfits.numerator, hfits.span, hfits.denominator,
      rfl⟩

structure LinearFits (observed spacing interval : Int) : Prop where
  longest : InRange (spacing * 10)
  blend : BlendFits (min observed (spacing * 10)) spacing interval

theorem exists_linearTarget_eq_ok_iff :
    (∃ result, linearTarget target observed spacing interval = .ok result) ↔
      LinearFits observed spacing interval := by
  simp only [linearTarget, check_bind_eq_ok_iff, blend_eq_ok_iff]
  constructor
  · rintro ⟨result, hlongest, hblend, -⟩
    exact ⟨hlongest, hblend⟩
  · rintro ⟨hlongest, hblend⟩
    exact ⟨_, hlongest, hblend, rfl⟩

theorem linearFits (hspacing : 1 ≤ spacing) (hinterval : 0 ≤ interval) (hobserved : 0 ≤ observed)
    (hdouble : 20 * spacing ≤ largest) (hsum : (interval + 19) * spacing ≤ largest) :
    LinearFits observed spacing interval :=
  exists_linearTarget_eq_ok_iff.mp
    ⟨_, linearTarget_eq_ok .zero hspacing hinterval hobserved hdouble hsum⟩

structure ExponentialFits (observed spacing interval granularity : Int) : Prop where
  longest : InRange (spacing * 20)
  excess : InRange (min observed (spacing * 20) - spacing)
  doubled : InRange (2 * (min observed (spacing * 20) - spacing))
  granularity_ne_zero : granularity ≠ 0
  exponent : InRange ((2 * (min observed (spacing * 20) - spacing)).tdiv granularity)
  span : InRange (interval + 1)
  weight : InRange ((interval + 1) * spacing)
  steps : InRange (((interval + 1) * spacing).tdiv granularity)

theorem exists_exponentialTarget_eq_ok_iff :
    (∃ result, exponentialTarget target observed spacing interval granularity = .ok result) ↔
      ExponentialFits observed spacing interval granularity := by
  simp only [exponentialTarget, check_bind_eq_ok_iff, divide_bind_eq_ok_iff]
  constructor
  · rintro ⟨result, hlongest, hexcess, hdoubled, ⟨hgranularity, hexponent⟩, hspan, hweight,
      ⟨-, hsteps⟩, -⟩
    exact ⟨hlongest, hexcess, hdoubled, hgranularity, hexponent, hspan, hweight, hsteps⟩
  · intro h
    exact ⟨_, h.longest, h.excess, h.doubled, ⟨h.granularity_ne_zero, h.exponent⟩, h.span, h.weight,
      ⟨h.granularity_ne_zero, h.steps⟩, rfl⟩

theorem exponentialFits (hspacing : 1 ≤ spacing) (hinterval : 0 ≤ interval)
    (hgranularity : 1 ≤ granularity) (hobserved : 0 ≤ observed) (hdouble : 38 * spacing ≤ largest)
    (hspan : (interval + 1) * spacing ≤ largest) :
    ExponentialFits observed spacing interval granularity :=
  exists_exponentialTarget_eq_ok_iff.mp
    ⟨_, exponentialTarget_eq_ok .zero hspacing hinterval hgranularity hobserved hdouble hspan⟩

end ExponentialAverage

/-! ### Moderate parameters -/

open WeightedAverage ExponentialAverage

namespace ConsensusParams

structure Moderate (params : ConsensusParams) : Prop where
  window : params.averagingWindow.toInt ≤ 0x10000
  spacing : params.spacing.toInt ≤ 0x1000000
  fastSpacing : params.fastSpacing.toInt ≤ 0x1000000
  timespan : params.timespan.toInt ≤ 0x10000000000
  qip9Timespan : params.qip9Timespan.toInt ≤ 0x10000000000
  fastTimespan : params.fastTimespan.toInt ≤ 0x10000000000

/-- The numbers that the rules form, whatever times and bits the blocks have: for a window, for a
step of a young stake side, for the moves at each height before and after the first switch, and for
the wait of a late block. -/
structure ArithmeticFits (params : ConsensusParams) : Prop where
  window : ∀ oldest samples, (samples.length : Int) ≤ params.averagingWindow.toInt →
    WindowFits params.averagingWindow.toInt params.spacing.toInt oldest samples
  step : ∀ observed : Int,
    LinearFits (if observed < 0 then 1 else observed) params.spacing.toInt 1
  spacing_ne_zero : ∀ height, params.spacingAt height ≠ 0
  interval : ∀ height,
    params.intervalAt height = .ok ((params.timespanAt height).tdiv (params.spacingAt height))
  linear : ∀ height, ∀ observed : Int,
    LinearFits (if observed < 0 then params.spacingAt height else observed)
      (params.spacingAt height) ((params.timespanAt height).tdiv (params.spacingAt height))
  exponential : ∀ height, ∀ observed : Int,
    ExponentialFits (if observed < 0 then params.spacingAt height else observed)
      (params.spacingAt height) ((params.timespanAt height).tdiv (params.spacingAt height))
      ((params.stakeTimeMaskAt height).toNat + 1)
  wait : ∀ height, InRange (params.spacingAt height * 2)

variable {params : ConsensusParams}

theorem Moderate.spacingAt_le (h : params.Moderate) (height : Nat) :
    params.spacingAt height ≤ 0x1000000 := by
  unfold spacingAt
  split
  · exact h.spacing
  · exact h.fastSpacing

theorem Moderate.timespanAt_le (h : params.Moderate) (height : Nat) :
    params.timespanAt height ≤ 0x10000000000 := by
  unfold timespanAt
  split
  · exact h.timespan
  split
  · exact h.qip9Timespan
  · exact h.fastTimespan

theorem Moderate.fits (h : params.Moderate) (hvalid : params.Valid) :
    Fits params.averagingWindow.toInt params.spacing.toInt := by
  have hspacing := h.spacing
  have hwidest : Fits 0x10000 params.spacing.toInt := by
    simp only [Fits, largest]
    omega
  have hwindow := hvalid.window
  exact hwidest.of_le hvalid.spacing (by omega) h.window

/-- The largest products of a move at any height, with room to spare. -/
theorem Moderate.products (h : params.Moderate) (hvalid : params.Valid) (height : Nat) :
    38 * params.spacingAt height ≤ largest ∧
      ((params.timespanAt height).tdiv (params.spacingAt height) + 19) * params.spacingAt height ≤
        largest := by
  have hspacing := h.spacingAt_le height
  have htimespan := h.timespanAt_le height
  have hinterval := hvalid.interval_mul_spacing_le height
  rw [Int.add_mul]
  unfold largest
  omega

theorem Moderate.arithmeticFits (h : params.Moderate) (hvalid : params.Valid) :
    params.ArithmeticFits where
  window oldest _ hroom :=
    windowFits hvalid.window hvalid.spacing (h.fits hvalid) oldest hroom
  step observed := by
    have hspacing := hvalid.spacing
    have hmoderate := h.spacing
    exact linearFits hspacing (by decide) (by split <;> omega) (by unfold largest; omega)
      (by unfold largest; omega)
  spacing_ne_zero height := by
    have hspacing := hvalid.spacingAt_pos height
    omega
  interval := intervalAt_eq_ok hvalid
  linear height observed := by
    have hspacing := hvalid.spacingAt_pos height
    obtain ⟨hmove, hsum⟩ := h.products hvalid height
    exact linearFits hspacing (hvalid.interval_nonneg height) (by split <;> omega) (by omega) hsum
  exponential height observed := by
    have hspacing := hvalid.spacingAt_pos height
    obtain ⟨hmove, hsum⟩ := h.products hvalid height
    rw [Int.add_mul] at hsum
    exact exponentialFits hspacing (hvalid.interval_nonneg height) (by omega) (by split <;> omega)
      hmove (by rw [Int.add_mul]; omega)
  wait height := by
    have hspacing := hvalid.spacingAt_pos height
    have hproducts := (h.products hvalid height).1
    exact ⟨by unfold smallest; omega, by omega⟩

theorem Moderate.fitsKind (h : params.Moderate) (hvalid : params.Valid) (kind : ProofKind) :
    FitsKind params kind := by
  have hspacing := h.spacing
  exact ⟨h.fits hvalid, fun _ => by unfold largest; omega⟩

theorem Moderate.fitsAt (h : params.Moderate) (hvalid : params.Valid) (height : Nat) :
    FitsAt params height := by
  have hspacing := hvalid.spacingAt_pos height
  obtain ⟨hmove, hsum⟩ := h.products hvalid height
  have hspan : ((params.timespanAt height).tdiv (params.spacingAt height) + 1) *
      params.spacingAt height ≤ largest := by
    rw [Int.add_mul] at *
    omega
  unfold FitsAt
  split
  · exact ⟨by omega, hsum⟩
  · exact ⟨hmove, hspan⟩

end ConsensusParams

/-! ### Runs on a chain -/

theorem ExponentialAverage.exists_nextBits_eq_ok {params : ConsensusParams} (h : params.Valid)
    (last : BlockRecord) (earlierTime : Int64) (kind : ProofKind)
    (hfits : FitsAt params (nextHeight last.height)) :
    ∃ bits, nextBits last earlierTime params kind = .ok bits := by
  cases hfixed : params.isFixed kind with
  | false => exact ⟨_, nextBits_eq_ok h hfixed last earlierTime hfits⟩
  | true =>
    unfold nextBits
    rw [if_pos hfixed]
    exact ⟨last.bits, rfl⟩

namespace ChainStore

variable {store : ChainStore} {last : BlockRecord} {params : ConsensusParams} {kind : ProofKind}

/-- On top of `last` no rule ends in a fault. -/
structure Retargets (store : ChainStore) (last : BlockRecord) (params : ConsensusParams)
    (kind : ProofKind) : Prop where
  weighted : ∃ bits, store.weightedBits last params kind = .ok bits
  step : ∀ earlierTime limit, ∃ bits,
    ExponentialAverage.step last earlierTime params.spacing.toInt limit = .ok bits
  next : ∀ earlierTime, ∃ bits, nextBits last earlierTime params kind = .ok bits
  minimumDifficulty : ∀ time height limitBits, ∃ bits,
    store.minimumDifficultyBits last time height limitBits params = .ok bits
  required : ∀ time, ∃ bits, store.requiredBits (some last) time params kind = .ok bits

theorem WellFormed.exists_weightedBits_eq_ok (h : store.WellFormed) (hlast : last ∈ store.records)
    (hparams : params.Valid) (hfits : FitsKind params kind) :
    ∃ bits, store.weightedBits last params kind = .ok bits := by
  rw [h.weightedBits_eq hlast]
  split
  · exact ⟨_, rfl⟩
  · exact exists_bitsOfHistory_eq_ok hparams hfits _ _

theorem WellFormed.exists_minimumDifficultyBits_eq_ok (h : store.WellFormed)
    (hlast : last ∈ store.records) (hparams : params.Valid) (hmoderate : params.Moderate)
    (time : Int64) (height : Nat) (limitBits : CompactBits) :
    ∃ bits, store.minimumDifficultyBits last time height limitBits params = .ok bits := by
  have hwait := (hmoderate.arithmeticFits hparams).wait height
  exact ⟨_, (h.minimumDifficultyBits_eq_ok_iff hlast hparams).mpr ⟨hwait.2, rfl⟩⟩

theorem WellFormed.retargets (h : store.WellFormed) (hlast : last ∈ store.records)
    (hparams : params.Valid) (hmoderate : params.Moderate) (kind : ProofKind) :
    store.Retargets last params kind where
  weighted := h.exists_weightedBits_eq_ok hlast hparams (hmoderate.fitsKind hparams kind)
  step earlierTime limit :=
    ⟨_, step_eq_ok last earlierTime limit hparams.spacing
      ((hmoderate.fitsKind hparams .stake).2 rfl)⟩
  next earlierTime :=
    exists_nextBits_eq_ok hparams last earlierTime kind (hmoderate.fitsAt hparams _)
  minimumDifficulty := h.exists_minimumDifficultyBits_eq_ok hlast hparams hmoderate
  required time := by
    rw [h.requiredBits_eq hlast]
    split
    case h_2 => exact ⟨_, rfl⟩
    case h_1 newest earlier rest hblocks =>
      have hnewest := h.mem_of_mem_blocksOfKind hlast (hblocks ▸ List.mem_cons_self)
      split
      · exact h.exists_minimumDifficultyBits_eq_ok hlast hparams hmoderate _ _ _
      cases params.algorithm with
      | weighted =>
        exact h.exists_weightedBits_eq_ok hnewest hparams (hmoderate.fitsKind hparams kind)
      | exponential =>
        exact exists_nextBits_eq_ok hparams newest earlier.time kind (hmoderate.fitsAt hparams _)

/-- **No chain overflows a retarget.** With moderate parameters that pass the check all numbers that
the rules form fit, whatever times and bits the blocks have, and no divisor is zero. So on top of
every block of every chain each rule ends without a fault. -/
theorem retarget_arithmetic_fits (hparams : params.validate = .ok ())
    (hmoderate : params.Moderate) :
    params.ArithmeticFits ∧ ∀ store : ChainStore, store.Reachable → ∀ last ∈ store.records,
      ∀ kind, store.Retargets last params kind := by
  rw [ConsensusParams.validate_eq_ok_iff] at hparams
  exact ⟨hmoderate.arithmeticFits hparams, fun store hstore last hlast kind =>
    hstore.wellFormed.retargets hlast hparams hmoderate kind⟩

/-- The largest spacings and timespans, times that jump between both ends, and targets near the
largest there is. -/
theorem retarget_arithmetic_fits_of_extreme_times :
    let params := { ConsensusParams.main with
      averagingWindow := 2, spacing := 0x1000000, fastSpacing := 0x1000000,
      timespan := 0x10000000000, qip9Timespan := 0x10000000000, fastTimespan := 0x10000000000 }
    let store := (ofGenesis (numbered 0 .work 0 0x1f00ffff)).run [
      .push (numbered 1 .work (-0x8000000000000000) 0x2100ffff),
      .push (numbered 2 .work 0x7fffffffffffffff 0x2100ffff),
      .push (numbered 3 .work (-0x8000000000000000) 0x2100ffff)]
    params.ArithmeticFits ∧ (store.sampleWindow store.tip 3 .work).size = 3 ∧
      store.Retargets store.tip params .work := by
  intro params store
  have hstore : store.Reachable := ⟨_, _, rfl⟩
  have htip : store.tip ∈ store.records := by decide +kernel
  have hvalid : params.validate = .ok () := by decide
  have hmoderate : params.Moderate := by constructor <;> decide
  obtain ⟨hfits, hruns⟩ := retarget_arithmetic_fits hvalid hmoderate
  exact ⟨hfits, by decide +kernel, hruns store hstore store.tip htip .work⟩

end ChainStore

end HybridConsensus
