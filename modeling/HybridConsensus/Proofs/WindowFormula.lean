import HybridConsensus.Proofs.WindowTally
import Mathlib.Algebra.BigOperators.Intervals
import Mathlib.Algebra.Order.BigOperators.Group.Finset

/-!
# The weighted average in closed form

The tally reads the samples one by one and keeps a clock that never stands still: a block that is
not later than the one before counts as one second later, until the seconds run out. So after any
number of samples the clock shows the latest time that some sample so far would have led to if each
sample after it had taken one second, and the solve times are the steps of that clock, capped. The
rest are two sums. The quotients of the targets may be taken at once by the product of both
divisors.
-/

namespace HybridConsensus

open Signed64

namespace WeightedAverage

/-- The samples of a full window, oldest first. The oldest only starts the clock. -/
def windowOf (size : Nat) (sample : Nat → BlockRecord) : List BlockRecord :=
  (List.range (size + 1)).map sample

section Formula

variable (size : Nat) (spacing : Int) (sample : Nat → BlockRecord)

/-- The time that the sample at `place` counts for. -/
def clockAt (place : Nat) : Int :=
  min largest ((Finset.range (place + 1)).sup' Finset.nonempty_range_add_one fun older =>
    (sample older).time.toInt + (place - older))

def solveTimeAt (place : Nat) : Int :=
  min (6 * spacing) (clockAt sample place - clockAt sample (place - 1))

def solveTimeSum : Int :=
  ∑ place ∈ Finset.Icc 1 size, place * solveTimeAt spacing sample place

/-- What the weighted solve times come to if each is one spacing. -/
def steadySum : Int :=
  size * (size + 1) * spacing / 2

def shareSum : Nat :=
  ∑ place ∈ Finset.Icc 1 size,
    (sample place).bits.target.value / (size * (steadySum size spacing).toNat)

def windowTarget : Target :=
  .saturate (solveTimeSum size spacing sample * shareSum size spacing sample).toNat

end Formula

variable {size place : Nat} {spacing : Int} {sample : Nat → BlockRecord}

theorem getElem?_reverse_windowOf {age : Nat} (hage : age ≤ size) :
    (windowOf size sample).reverse[age]? = some (sample (size - age)) := by
  have hplace : size + 1 - 1 - age < size + 1 := by omega
  rw [windowOf, List.getElem?_reverse (by simpa using Nat.lt_succ_of_le hage), List.length_map,
    List.length_range, List.getElem?_map, List.getElem?_range hplace]
  rfl

/-! ### The clock -/

theorem clockAt_zero (sample : Nat → BlockRecord) : clockAt sample 0 = (sample 0).time.toInt := by
  have hrange := (toInt_inRange (sample 0).time).2
  simp [clockAt, hrange]

theorem clockAt_succ (sample : Nat → BlockRecord) (place : Nat) :
    clockAt sample (place + 1) =
      max (sample (place + 1)).time.toInt (min largest (clockAt sample place + 1)) := by
  have hrange := (toInt_inRange (sample (place + 1)).time).2
  have hshift : (Finset.range (place + 1 + 1)).sup' Finset.nonempty_range_add_one
      (fun older => (sample older).time.toInt + ((place + 1 : Nat) - older : Int)) =
      max (sample (place + 1)).time.toInt
        ((Finset.range (place + 1)).sup' Finset.nonempty_range_add_one
          (fun older => (sample older).time.toInt + (place - older : Int)) + 1) := by
    refine eq_of_forall_ge_iff fun bound => ?_
    rw [Finset.sup'_le_iff, max_le_iff, ← le_sub_iff_add_le, Finset.sup'_le_iff,
      Finset.range_add_one, Finset.forall_mem_insert]
    refine and_congr (by simp) (forall₂_congr fun older _ => ?_)
    push_cast
    omega
  unfold clockAt
  rw [hshift]
  omega

theorem clockAt_inRange (sample : Nat → BlockRecord) (place : Nat) :
    InRange (clockAt sample place) := by
  induction place with
  | zero =>
    rw [clockAt_zero]
    exact toInt_inRange _
  | succ place ih =>
    have hrange := toInt_inRange (sample (place + 1)).time
    rw [clockAt_succ]
    simp only [InRange] at *
    omega

/-! ### The tally along a window -/

namespace Tally

/-- The tally has added up the samples up to `place`. -/
structure Sums (spacing : Int) (count divisor : Nat) (sample : Nat → BlockRecord) (place : Nat)
    (tally : Tally) : Prop where
  clock : tally.clock = clockAt sample place
  solveTimes : tally.solveTimes =
    ∑ older ∈ Finset.Icc 1 place, older * solveTimeAt spacing sample older
  average : tally.average.value =
    ∑ older ∈ Finset.Icc 1 place, (sample older).bits.target.value / (count * divisor)

variable {count divisor : Nat} {tally : Tally}

theorem sums_start (sample : Nat → BlockRecord) :
    (start (sample 0)).Sums spacing count divisor sample 0 where
  clock := (clockAt_zero sample).symm
  solveTimes := rfl
  average := rfl

theorem Sums.time_eq (h : tally.Sums spacing count divisor sample place) :
    tally.time (sample (place + 1)) = clockAt sample (place + 1) := by
  have hrange := clockAt_inRange sample place
  rw [time, clockAt_succ, h.clock]
  simp only [InRange, clamp, smallest, largest] at *
  split <;> omega

/-- The cap is below the largest number, so it does not matter that the difference stops there. -/
theorem Sums.solveTime_eq (h : tally.Sums spacing count divisor sample place)
    (hlongest : longestSolve * spacing ≤ largest) :
    tally.solveTime spacing (sample (place + 1)) = solveTimeAt spacing sample (place + 1) := by
  have hclock : InRange tally.clock := h.clock ▸ clockAt_inRange sample place
  have hlater := clock_le_time hclock (sample (place + 1))
  rw [h.time_eq, h.clock] at hlater
  rw [solveTime, h.time_eq, h.clock, solveTimeAt, Nat.add_sub_cancel]
  simp only [longestSolve, clamp, smallest, largest] at *
  omega

theorem Sums.next (h : tally.Sums spacing count divisor sample place)
    (hwithin : tally.Within spacing count divisor place) (hmore : place + 1 ≤ count)
    (hlongest : longestSolve * spacing ≤ largest) :
    (tally.next spacing count divisor (sample (place + 1))).Sums spacing count divisor sample
      (place + 1) where
  clock := h.time_eq
  solveTimes := by
    rw [Finset.sum_Icc_succ_top (by omega), ← h.solveTimes, ← h.solveTime_eq hlongest]
    simp only [Tally.next, hwithin.weight]
    push_cast
    ring
  average := by
    have hfits := hwithin.average_add_share_lt hmore (sample (place + 1))
    rw [Finset.sum_Icc_succ_top (by omega), ← h.average, ← Nat.div_div_eq_div_mul]
    exact Target.value_saturate_of_lt hfits

theorem sums_foldl_next (hspacing : 1 ≤ spacing) (hlongest : longestSolve * spacing ≤ largest)
    (sample : Nat → BlockRecord) (hplace : place ≤ count) :
    let tally := ((List.range place).map fun older => sample (older + 1)).foldl
      (Tally.next spacing count divisor) (start (sample 0))
    tally.Sums spacing count divisor sample place ∧ tally.Within spacing count divisor place := by
  induction place with
  | zero => exact ⟨sums_start sample, within_start (sample 0)⟩
  | succ place ih =>
    obtain ⟨hsums, hwithin⟩ := ih (by omega)
    rw [List.range_succ, List.map_append, List.foldl_append]
    exact ⟨hsums.next hwithin hplace hlongest, hwithin.next hspacing _⟩

end Tally

theorem windowOf_eq_cons (size : Nat) (sample : Nat → BlockRecord) :
    windowOf size sample = sample 0 :: (List.range size).map fun older => sample (older + 1) := by
  rw [windowOf, List.range_succ_eq_map, List.map_cons, List.map_map]
  rfl

/-- The tally of a full window. -/
def tallyOf (size : Nat) (spacing : Int) (sample : Nat → BlockRecord) : Tally :=
  tallied size spacing (sample 0) ((List.range size).map fun older => sample (older + 1))

/-- The checks of the tally all pass. -/
theorem foldlM_add_windowOf (hspacing : 1 ≤ spacing) (hfits : Fits size spacing)
    (sample : Nat → BlockRecord) :
    (windowOf size sample).tail.foldlM (Tally.add spacing size (steadySum size spacing).toNat)
      (Tally.start (sample 0)) = .ok (tallyOf size spacing sample) := by
  rw [windowOf_eq_cons, List.tail_cons]
  exact (Tally.Within.foldlM_add_eq_ok hspacing hfits _ _ 0 (Tally.within_start (sample 0))
    (by simp)).1

/-- The checks of the tally all pass, and the average is that of the tally without them. -/
theorem ofSamples_windowOf (hsize : 1 ≤ size) (hspacing : 1 ≤ spacing) (hfits : Fits size spacing)
    (sample : Nat → BlockRecord) :
    ofSamples size spacing (windowOf size sample) =
      .ok (some (tallyOf size spacing sample).target) := by
  rw [windowOf_eq_cons]
  exact ofSamples_eq_ok (by omega) hspacing hfits (sample 0) (by simp)

theorem tallyOf_sums (hsize : 1 ≤ size) (hspacing : 1 ≤ spacing) (hfits : Fits size spacing)
    (sample : Nat → BlockRecord) :
    (tallyOf size spacing sample).Sums spacing size (steadySum size spacing).toNat sample size ∧
      (tallyOf size spacing sample).Within spacing size (steadySum size spacing).toNat size :=
  Tally.sums_foldl_next hspacing (hfits.bounds hspacing (by omega)).2 sample (Nat.le_refl size)

theorem solveTimes_tallyOf (hsize : 1 ≤ size) (hspacing : 1 ≤ spacing) (hfits : Fits size spacing)
    (sample : Nat → BlockRecord) :
    (tallyOf size spacing sample).solveTimes = solveTimeSum size spacing sample :=
  (tallyOf_sums hsize hspacing hfits sample).1.solveTimes

theorem target_tallyOf (hsize : 1 ≤ size) (hspacing : 1 ≤ spacing) (hfits : Fits size spacing)
    (sample : Nat → BlockRecord) :
    (tallyOf size spacing sample).target = windowTarget size spacing sample := by
  obtain ⟨hsums, hwithin⟩ := tallyOf_sums hsize hspacing hfits sample
  have hnonneg := hwithin.solveTimes_nonneg
  have hle : (tallyOf size spacing sample).solveTimes ≤ largest :=
    Int.le_trans hwithin.solveTimes_le hfits
  have hunsigned : unsigned (tallyOf size spacing sample).solveTimes =
      (solveTimeSum size spacing sample).toNat := by
    rw [unsigned_eq_toNat hnonneg hle, solveTimes_tallyOf hsize hspacing hfits]
  have hproduct : (solveTimeSum size spacing sample * shareSum size spacing sample).toNat =
      shareSum size spacing sample * (solveTimeSum size spacing sample).toNat := by
    rw [solveTimes_tallyOf hsize hspacing hfits] at hnonneg
    rw [Int.toNat_mul hnonneg (by omega), Int.toNat_natCast, mul_comm]
  unfold Tally.target Target.mul windowTarget
  rw [hunsigned, hsums.average, hproduct]
  rfl

end WeightedAverage

/-! ### Windows of a chain -/

def ConsensusParams.windowSize (params : ConsensusParams) : Nat :=
  params.averagingWindow.toInt.toNat

theorem ConsensusParams.Valid.cast_windowSize {params : ConsensusParams} (h : params.Valid) :
    (params.windowSize : Int) = params.averagingWindow.toInt := by
  have hwindow := h.window
  exact Int.toNat_of_nonneg (by omega)

theorem ConsensusParams.Valid.windowSize_pos {params : ConsensusParams} (h : params.Valid) :
    1 ≤ params.windowSize := by
  have hwindow := h.window
  have hcast := h.cast_windowSize
  omega

namespace ChainStore

open WeightedAverage

variable {store : ChainStore} {last : BlockRecord} {kind : ProofKind} {params : ConsensusParams}
  {size : Nat} {sample : Nat → BlockRecord}

/-- The newest blocks of `kind` up to `last` are, from the newest down, `sample size` to
`sample 0`. -/
def IsWindow (store : ChainStore) (last : BlockRecord) (kind : ProofKind) (size : Nat)
    (sample : Nat → BlockRecord) : Prop :=
  ∀ age ≤ size, (store.blocksOfKind last kind)[age]? = some (sample (size - age))

instance (store : ChainStore) (last : BlockRecord) (kind : ProofKind) (size : Nat)
    (sample : Nat → BlockRecord) : Decidable (store.IsWindow last kind size sample) :=
  inferInstanceAs (Decidable (∀ age ≤ size, _))

theorem IsWindow.lt_length (h : store.IsWindow last kind size sample) :
    size < (store.blocksOfKind last kind).length :=
  (List.getElem?_eq_some_iff.mp (h size (Nat.le_refl size))).1

theorem IsWindow.reverse_take_eq (h : store.IsWindow last kind size sample) :
    ((store.blocksOfKind last kind).take (size + 1)).reverse = windowOf size sample := by
  rw [List.reverse_eq_iff]
  refine List.ext_getElem? fun age => ?_
  rw [List.getElem?_take]
  rcases Nat.lt_or_ge age (size + 1) with hlt | hge
  · rw [if_pos hlt, h age (by omega), getElem?_reverse_windowOf (by omega)]
  · rw [if_neg (by omega), List.getElem?_eq_none (by simpa [windowOf] using hge)]

/-- A window whose samples are all found is averaged over them. -/
theorem weightedTarget_of_samples {window : ProofWindow}
    (hfound : ∀ place ≤ size,
      store.sampled? last window (size + 1 - place) = some (sample place)) (spacing : Int) :
    store.weightedTarget last window size spacing =
      ofSamples size spacing (windowOf size sample) := by
  rw [← List.reverse_reverse (windowOf size sample)]
  refine weightedTarget_of_found (by simp [windowOf]) (fun age hage => ?_) spacing
  rw [getElem?_reverse_windowOf hage, ← hfound (size - age) (by omega),
    show size + 1 - (size - age) = age + 1 by omega]

theorem WellFormed.weightedBits_of_isWindow (h : store.WellFormed) (hlast : last ∈ store.records)
    (hparams : params.Valid) (hfixed : params.isFixed kind = false)
    (hfits : Fits params.averagingWindow.toInt params.spacing.toInt)
    (hwindow : store.IsWindow last kind params.windowSize sample) :
    store.weightedBits last params kind =
      .ok ((windowTarget params.windowSize params.spacing.toInt sample).clampedBits
        (params.limit kind)) := by
  have hsize := hparams.cast_windowSize.symm
  have hpositive := hparams.windowSize_pos
  have hbounds := hfits.bounds hparams.spacing hparams.window
  rw [hsize] at hfits
  have hneeded : check ((params.windowSize : Int) + 1) = .ok ((params.windowSize : Int) + 1) :=
    check_of_nonneg (by omega) (by omega)
  have hlength := hwindow.lt_length
  have hheight := h.length_blocksOfKind_le hlast kind
  have hfixed' : ¬params.isFixed kind = true := by simp [hfixed]
  rw [h.weightedBits_eq hlast, if_neg hfixed']
  unfold bitsOfHistory
  simp only [hsize, hneeded, bind, Except.bind]
  rw [if_neg (by omega), if_neg (by omega), if_neg (by omega),
    show ((params.windowSize : Int) + 1).toNat = params.windowSize + 1 by omega,
    hwindow.reverse_take_eq, ofSamples_windowOf hpositive hparams.spacing hfits,
    target_tallyOf hpositive hparams.spacing hfits]
  rfl

theorem clampedBits_eq_ite (target limit : Target) :
    target.clampedBits limit =
      if 1 ≤ target.value ∧ target ≤ limit then target.toCompact else limit.toCompact := by
  have hclamp : (target.isZero = true ∨ limit < target) ↔ ¬(1 ≤ target.value ∧ target ≤ limit) := by
    rw [Target.isZero_iff, Target.lt_iff, Target.le_iff]
    omega
  unfold Target.clampedBits
  rw [if_congr hclamp rfl rfl, ite_not]

/-- **The weighted average in closed form.** On top of a block with a full window below it, the bits
are those of the product of the two sums of the window, if that is at least one and within the limit
of the kind, and those of the limit otherwise. -/
theorem weightedBits_eq_windowTarget (hstore : store.Reachable) (hlast : last ∈ store.records)
    (hparams : params.validate = .ok ()) (hfixed : params.isFixed kind = false)
    (hfits : Fits params.averagingWindow.toInt params.spacing.toInt)
    (hwindow : store.IsWindow last kind params.windowSize sample) :
    let target := windowTarget params.windowSize params.spacing.toInt sample
    store.weightedBits last params kind =
      .ok (if 1 ≤ target.value ∧ target ≤ params.limit kind then target.toCompact
        else (params.limit kind).toCompact) := by
  intro target
  rw [ConsensusParams.validate_eq_ok_iff] at hparams
  rw [hstore.wellFormed.weightedBits_of_isWindow hlast hparams hfixed hfits hwindow,
    clampedBits_eq_ite]

/-- A block earlier than the one before it counts for one second, and one in the far future for six
spacings. -/
theorem weightedBits_eq_windowTarget_of_backward_time :
    let params := { ConsensusParams.main with averagingWindow := 2 }
    let store := (ofGenesis (numbered 0 .work 0 0x1f00ffff)).run [
      .push (numbered 1 .work 1000 0x1c00ffff), .push (numbered 2 .stake 1100 0x1b00ffff),
      .push (numbered 3 .work 900 0x1c00ffff),
      .push (numbered 4 .work 9000000000000000000 0x1c00ffff)]
    let sample := fun place => (store.blocksOfKind store.tip .work).getD (2 - place) store.genesis
    store.IsWindow store.tip .work params.windowSize sample ∧
      solveTimeSum 2 150 sample = 1 * 1 + 2 * 900 ∧
      store.weightedBits store.tip params .work = .ok 0x1c04008d ∧
      store.weightedBits store.tip params .work = .ok (windowTarget 2 150 sample).toCompact := by
  intro params store sample
  have hstore : store.Reachable := ⟨_, _, rfl⟩
  have htip : store.tip ∈ store.records := by decide +kernel
  have hvalid : params.validate = .ok () := by decide
  have hfits : Fits params.averagingWindow.toInt params.spacing.toInt := by decide
  have hwindow : store.IsWindow store.tip .work params.windowSize sample := by decide +kernel
  have hwithin : 1 ≤ (windowTarget 2 150 sample).value ∧
      windowTarget 2 150 sample ≤ params.limit .work := by decide +kernel
  have hbits := weightedBits_eq_windowTarget hstore htip hvalid rfl hfits hwindow
  refine ⟨hwindow, by decide +kernel, by decide +kernel, hbits.trans ?_⟩
  exact congrArg Except.ok (if_pos hwithin)

end ChainStore

end HybridConsensus
