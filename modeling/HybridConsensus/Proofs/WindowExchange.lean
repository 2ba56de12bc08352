import HybridConsensus.Proofs.WindowOrder

/-!
# Recent solve times weigh more

While times grow, and by no more than what counts, the clock shows the time of each sample and the
solve times are the plain gaps between neighbours. To exchange two gaps moves every time between
them, but it leaves all other gaps alone. So of the weighted sum only two terms change, and what
they gain together is the distance of the two places times the difference of the two gaps.

The targets enter by their sum of quotients, which does not know their order. It does know which of
them it leaves out: the oldest sample starts the clock and its target is not read, so to exchange
that target for another is no rearrangement of what is averaged.
-/

namespace HybridConsensus

open Signed64

namespace WeightedAverage

variable {size place former latter : Nat} {spacing : Int} {sample other : Nat → BlockRecord}

/-- The seconds from the sample before to the one at `place`. -/
def gap (sample : Nat → BlockRecord) (place : Nat) : Int :=
  (sample place).time.toInt - (sample (place - 1)).time.toInt

/-- The times of a window grow, and no gap is longer than what counts. -/
def Paced (size : Nat) (spacing : Int) (sample : Nat → BlockRecord) : Prop :=
  ∀ place ∈ Finset.Icc 1 size, 1 ≤ gap sample place ∧ gap sample place ≤ 6 * spacing

instance (size : Nat) (spacing : Int) (sample : Nat → BlockRecord) :
    Decidable (Paced size spacing sample) :=
  inferInstanceAs (Decidable (∀ place ∈ Finset.Icc 1 size, _ ∧ _))

/-- The second window has the gaps of the first, but for two that have changed places so that the
longer comes later. -/
structure Exchanges (size former latter : Nat) (sample other : Nat → BlockRecord) : Prop where
  former_pos : 1 ≤ former
  former_lt : former < latter
  latter_le : latter ≤ size
  gap_le : gap sample latter ≤ gap sample former
  gap_former : gap other former = gap sample latter
  gap_latter : gap other latter = gap sample former
  gap_eq : ∀ place ∈ Finset.Icc 1 size, place ≠ former → place ≠ latter →
    gap other place = gap sample place

/-- The places whose gaps stay. -/
def untouched (size former latter : Nat) : Finset Nat :=
  ((Finset.Icc 1 size).erase former).erase latter

/-! ### Solve times at a steady clock -/

theorem Paced.clockAt_eq (h : Paced size spacing sample) (hplace : place ≤ size) :
    clockAt sample place = (sample place).time.toInt := by
  induction place with
  | zero => exact clockAt_zero sample
  | succ place ih =>
    obtain ⟨hlater, -⟩ := h (place + 1) (Finset.mem_Icc.mpr ⟨by omega, hplace⟩)
    have hrange := (toInt_inRange (sample (place + 1)).time).2
    rw [gap, Nat.add_sub_cancel] at hlater
    rw [clockAt_succ, ih (by omega)]
    omega

theorem Paced.solveTimeAt_eq (h : Paced size spacing sample) (hplace : place ∈ Finset.Icc 1 size) :
    solveTimeAt spacing sample place = gap sample place := by
  obtain ⟨hlow, hhigh⟩ := Finset.mem_Icc.mp hplace
  rw [solveTimeAt, h.clockAt_eq hhigh, h.clockAt_eq (by omega)]
  exact min_eq_right (h place hplace).2

theorem Paced.solveTimeSum_eq (h : Paced size spacing sample) :
    solveTimeSum size spacing sample = ∑ place ∈ Finset.Icc 1 size, place * gap sample place :=
  Finset.sum_congr rfl fun _ hplace => by rw [h.solveTimeAt_eq hplace]

/-! ### The exchange -/

namespace Exchanges

theorem former_mem (h : Exchanges size former latter sample other) :
    former ∈ Finset.Icc 1 size := by
  have hlt := h.former_lt
  have hle := h.latter_le
  exact Finset.mem_Icc.mpr ⟨h.former_pos, by omega⟩

theorem latter_mem (h : Exchanges size former latter sample other) :
    latter ∈ Finset.Icc 1 size := by
  have hpos := h.former_pos
  have hlt := h.former_lt
  exact Finset.mem_Icc.mpr ⟨by omega, h.latter_le⟩

theorem paced (h : Exchanges size former latter sample other) (hpaced : Paced size spacing sample) :
    Paced size spacing other := by
  intro place hplace
  by_cases hformer : place = former
  · rw [hformer, h.gap_former]
    exact hpaced latter h.latter_mem
  by_cases hlatter : place = latter
  · rw [hlatter, h.gap_latter]
    exact hpaced former h.former_mem
  rw [h.gap_eq place hplace hformer hlatter]
  exact hpaced place hplace

theorem sum_eq_add_untouched (h : Exchanges size former latter sample other)
    (term : Nat → Int) :
    ∑ place ∈ Finset.Icc 1 size, term place =
      term former + (term latter + ∑ place ∈ untouched size former latter, term place) := by
  have hlatter : latter ∈ (Finset.Icc 1 size).erase former :=
    Finset.mem_erase.mpr ⟨Nat.ne_of_gt h.former_lt, h.latter_mem⟩
  rw [untouched, Finset.add_sum_erase _ term hlatter, Finset.add_sum_erase _ term h.former_mem]

theorem sum_untouched_eq (h : Exchanges size former latter sample other) :
    ∑ place ∈ untouched size former latter, place * gap other place =
      ∑ place ∈ untouched size former latter, place * gap sample place := by
  refine Finset.sum_congr rfl fun place hplace => ?_
  obtain ⟨hnotLatter, hplace⟩ := Finset.mem_erase.mp hplace
  obtain ⟨hnotFormer, hplace⟩ := Finset.mem_erase.mp hplace
  rw [h.gap_eq place hplace hnotFormer hnotLatter]

/-- Two terms of the weighted sum change, and all others stay. -/
theorem sum_gap_eq (h : Exchanges size former latter sample other) :
    ∑ place ∈ Finset.Icc 1 size, place * gap other place =
      ∑ place ∈ Finset.Icc 1 size, place * gap sample place +
        (latter - former) * (gap sample former - gap sample latter) := by
  calc ∑ place ∈ Finset.Icc 1 size, place * gap other place
      = former * gap other former + (latter * gap other latter +
          ∑ place ∈ untouched size former latter, place * gap other place) :=
        h.sum_eq_add_untouched _
    _ = former * gap sample latter + (latter * gap sample former +
          ∑ place ∈ untouched size former latter, place * gap sample place) := by
        rw [h.gap_former, h.gap_latter, h.sum_untouched_eq]
    _ = former * gap sample former + (latter * gap sample latter +
          ∑ place ∈ untouched size former latter, place * gap sample place) +
          (latter - former) * (gap sample former - gap sample latter) := by ring
    _ = ∑ place ∈ Finset.Icc 1 size, place * gap sample place +
          (latter - former) * (gap sample former - gap sample latter) := by
        rw [h.sum_eq_add_untouched fun place => place * gap sample place]

theorem solveTimeSum_eq (h : Exchanges size former latter sample other)
    (hpaced : Paced size spacing sample) :
    solveTimeSum size spacing other = solveTimeSum size spacing sample +
      (latter - former) * (gap sample former - gap sample latter) := by
  rw [(h.paced hpaced).solveTimeSum_eq, hpaced.solveTimeSum_eq, h.sum_gap_eq]

theorem solveTimeSum_le (h : Exchanges size former latter sample other)
    (hpaced : Paced size spacing sample) :
    solveTimeSum size spacing sample ≤ solveTimeSum size spacing other := by
  have hlt := h.former_lt
  have hle := h.gap_le
  have hgain : 0 ≤ ((latter : Int) - former) * (gap sample former - gap sample latter) :=
    Int.mul_nonneg (by omega) (by omega)
  rw [h.solveTimeSum_eq hpaced]
  omega

end Exchanges

/-! ### Rearranged targets -/

/-- The targets that a window averages: all but the oldest. -/
def averagedTargets (size : Nat) (sample : Nat → BlockRecord) : List Target :=
  (windowOf size sample).tail.map (·.bits.target)

theorem sum_averagedTargets (share : Target → Nat) (size : Nat) (sample : Nat → BlockRecord) :
    ((averagedTargets size sample).map share).sum =
      ∑ place ∈ Finset.Icc 1 size, share (sample place).bits.target := by
  unfold averagedTargets
  rw [windowOf_eq_cons, List.tail_cons, List.map_map, List.map_map]
  induction size with
  | zero => rfl
  | succ size ih =>
    rw [List.range_succ, List.map_append, List.sum_append, ih, Finset.sum_Icc_succ_top (by omega)]
    simp

theorem shareSum_eq_of_perm
    (htargets : (averagedTargets size other).Perm (averagedTargets size sample)) (spacing : Int) :
    shareSum size spacing other = shareSum size spacing sample := by
  have hsum := (htargets.map (·.value / (size * (steadySum size spacing).toNat))).sum_eq
  rwa [sum_averagedTargets, sum_averagedTargets] at hsum

namespace Exchanges

theorem windowTarget_le (h : Exchanges size former latter sample other) (hspacing : 1 ≤ spacing)
    (hpaced : Paced size spacing sample)
    (htargets : (averagedTargets size other).Perm (averagedTargets size sample)) :
    windowTarget size spacing sample ≤ windowTarget size spacing other := by
  have hnonneg := solveTimeSum_nonneg hspacing size sample
  have hsolve := h.solveTimeSum_le hpaced
  have hproduct : solveTimeSum size spacing sample * shareSum size spacing sample ≤
      solveTimeSum size spacing other * shareSum size spacing sample :=
    Int.mul_le_mul_of_nonneg_right hsolve (by omega)
  unfold windowTarget
  rw [shareSum_eq_of_perm htargets]
  exact Target.saturate_mono (Int.toNat_le_toNat hproduct)

/-- Solve times of at least one second never add up to zero, so only targets too small to count
make the average zero, and they are the same in both windows. -/
theorem windowTarget_eq_zero (h : Exchanges size former latter sample other)
    (hspacing : 1 ≤ spacing) (hpaced : Paced size spacing sample)
    (htargets : (averagedTargets size other).Perm (averagedTargets size sample))
    (hzero : (windowTarget size spacing sample).value = 0) :
    (windowTarget size spacing other).value = 0 := by
  obtain ⟨hlow, hhigh⟩ := Finset.mem_Icc.mp h.former_mem
  have hsize : 1 ≤ size := hlow.trans hhigh
  have hmoves : solveTimeSum size spacing sample ≠ 0 := by
    intro hstopped
    rw [solveTimeSum_eq_zero_iff hsize hspacing, clockAt_zero] at hstopped
    obtain ⟨hfirst, -⟩ := hpaced 1 (Finset.mem_Icc.mpr ⟨Nat.le_refl 1, hsize⟩)
    have hrange := (toInt_inRange (sample 1).time).2
    rw [gap, Nat.sub_self] at hfirst
    omega
  rw [windowTarget_eq_zero_iff hspacing] at hzero ⊢
  rw [shareSum_eq_of_perm htargets]
  exact .inr (hzero.resolve_left hmoves)

theorem target_clampedBits_le (h : Exchanges size former latter sample other)
    (hspacing : 1 ≤ spacing) (hpaced : Paced size spacing sample)
    (htargets : (averagedTargets size other).Perm (averagedTargets size sample)) (limit : Target) :
    ((windowTarget size spacing sample).clampedBits limit).target ≤
      ((windowTarget size spacing other).clampedBits limit).target :=
  Target.target_clampedBits_mono_of_zero (h.windowTarget_le hspacing hpaced htargets)
    (h.windowTarget_eq_zero hspacing hpaced htargets) limit

end Exchanges

end WeightedAverage

namespace ChainStore

open WeightedAverage

variable {store branch : ChainStore} {last newest : BlockRecord} {kind : ProofKind}
  {params : ConsensusParams} {sample other : Nat → BlockRecord} {former latter : Nat}

/-- **Recent solve times weigh more.** Of two full windows whose times grow by no more than what
counts, let the second have the gaps of the first but for two, exchanged so that the longer comes
later. Then its weighted solve times come to more by the distance of the two places times the
difference of the two gaps, and if it averages the same targets in any order, its bits ask for no
smaller a target. -/
theorem weightedBits_le_of_exchange (hstore : store.Reachable) (hbranch : branch.Reachable)
    (hlast : last ∈ store.records) (hnewest : newest ∈ branch.records)
    (hparams : params.validate = .ok ()) (hfixed : params.isFixed kind = false)
    (hfits : Fits params.averagingWindow.toInt params.spacing.toInt)
    (hsample : store.IsWindow last kind params.windowSize sample)
    (hother : branch.IsWindow newest kind params.windowSize other)
    (hpaced : Paced params.windowSize params.spacing.toInt sample)
    (hexchanges : Exchanges params.windowSize former latter sample other) :
    let size := params.windowSize
    let spacing := params.spacing.toInt
    let tally := fun window : Nat → BlockRecord => (windowOf size window).tail.foldlM
      (Tally.add spacing size (steadySum size spacing).toNat) (Tally.start (window 0))
    ∃ (first second : Tally) (bits otherBits : CompactBits),
      tally sample = .ok first ∧ tally other = .ok second ∧
      second.solveTimes = first.solveTimes +
        (latter - former) * (gap sample former - gap sample latter) ∧
      store.weightedBits last params kind = .ok bits ∧
      branch.weightedBits newest params kind = .ok otherBits ∧
      ((averagedTargets size other).Perm (averagedTargets size sample) →
        bits.target ≤ otherBits.target) := by
  intro size spacing tally
  rw [ConsensusParams.validate_eq_ok_iff] at hparams
  have hsize := hparams.windowSize_pos
  have hspacing := hparams.spacing
  have hfitsSize : Fits size spacing := hparams.cast_windowSize ▸ hfits
  refine ⟨tallyOf size spacing sample, tallyOf size spacing other, _, _,
    foldlM_add_windowOf hspacing hfitsSize sample, foldlM_add_windowOf hspacing hfitsSize other, ?_,
    hstore.wellFormed.weightedBits_of_isWindow hlast hparams hfixed hfits hsample,
    hbranch.wellFormed.weightedBits_of_isWindow hnewest hparams hfixed hfits hother, ?_⟩
  · rw [solveTimes_tallyOf hsize hspacing hfitsSize, solveTimes_tallyOf hsize hspacing hfitsSize]
    exact hexchanges.solveTimeSum_eq hpaced
  · intro htargets
    exact hexchanges.target_clampedBits_le hspacing hpaced htargets _

/-- The first gap and the last change places, around one that stays, and all targets move. -/
theorem weightedBits_le_of_exchange_of_outer_gaps :
    let params := { ConsensusParams.main with averagingWindow := 3 }
    let store := (ofGenesis (numbered 0 .work 0 0x1f00ffff)).run [
      .push (numbered 1 .work 1000 0x1c00ffff), .push (numbered 2 .work 1300 0x1c01fffe),
      .push (numbered 3 .stake 1350 0x1b00ffff), .push (numbered 4 .work 1400 0x1c00ffff),
      .push (numbered 5 .work 1600 0x1b7fffff),
      .insert (numbered 0 .work 0 0).hash (numbered 6 .work 5000 0x1c00ffff),
      .insert (numbered 6 .work 0 0).hash (numbered 7 .work 5200 0x1b7fffff),
      .insert (numbered 7 .work 0 0).hash (numbered 8 .stake 0 0x1b00ffff),
      .insert (numbered 8 .work 0 0).hash (numbered 9 .work 5300 0x1c01fffe),
      .insert (numbered 9 .work 0 0).hash (numbered 10 .work 5600 0x1c00ffff)]
    ∃ last ∈ store.records, ∃ newest ∈ store.records, ∃ sample other : Nat → BlockRecord,
      store.IsWindow last .work 3 sample ∧ store.IsWindow newest .work 3 other ∧
      Exchanges 3 1 3 sample other ∧
      solveTimeSum 3 150 other = solveTimeSum 3 150 sample + 2 * 100 ∧
      ∃ bits otherBits : CompactBits, store.weightedBits last params .work = .ok bits ∧
        store.weightedBits newest params .work = .ok otherBits ∧
        bits.target ≤ otherBits.target := by
  intro params store
  have hstore : store.Reachable := ⟨_, _, rfl⟩
  have hvalid : params.validate = .ok () := by decide
  have hfits : Fits params.averagingWindow.toInt params.spacing.toInt := by decide
  let last : BlockRecord := ⟨numbered 5 .work 1600 0x1b7fffff, 5, 5, some 4⟩
  let newest : BlockRecord := ⟨numbered 10 .work 5600 0x1c00ffff, 10, 5, some 9⟩
  let sample : Nat → BlockRecord := ([⟨numbered 1 .work 1000 0x1c00ffff, 1, 1, some 0⟩,
    ⟨numbered 2 .work 1300 0x1c01fffe, 2, 2, some 1⟩,
    ⟨numbered 4 .work 1400 0x1c00ffff, 4, 4, some 3⟩].getD · last)
  let other : Nat → BlockRecord := ([⟨numbered 6 .work 5000 0x1c00ffff, 6, 1, some 0⟩,
    ⟨numbered 7 .work 5200 0x1b7fffff, 7, 2, some 6⟩,
    ⟨numbered 9 .work 5300 0x1c01fffe, 9, 4, some 8⟩].getD · newest)
  have hwindows : last ∈ store.records ∧ newest ∈ store.records ∧
      store.IsWindow last .work params.windowSize sample ∧
      store.IsWindow newest .work params.windowSize other := by
    decide +kernel
  obtain ⟨hlast, hnewest, hsample, hother⟩ := hwindows
  have hpaced : Paced params.windowSize params.spacing.toInt sample := by decide +kernel
  have hexchanges : Exchanges params.windowSize 1 3 sample other :=
    ⟨by decide, by decide, by decide, by decide, by decide, by decide, by decide⟩
  obtain ⟨-, -, bits, otherBits, -, -, -, hbits, hotherBits, hle⟩ :=
    weightedBits_le_of_exchange hstore hstore hlast hnewest hvalid rfl hfits hsample hother hpaced
      hexchanges
  exact ⟨last, hlast, newest, hnewest, sample, other, hsample, hother, hexchanges,
    by decide +kernel, bits, otherBits, hbits, hotherBits, hle (by decide +kernel)⟩

/-- With the oldest target among those rearranged, the average loses the easy target that the oldest
sample now has. -/
theorem weightedBits_not_le_of_rearranged_oldest :
    let params := { ConsensusParams.main with averagingWindow := 2 }
    let store := (ofGenesis (numbered 0 .work 0 0x1f00ffff)).run [
      .push (numbered 1 .work 1000 0x1b00ffff), .push (numbered 2 .work 1200 0x1c00ffff),
      .push (numbered 3 .work 1300 0x1c00ffff),
      .insert (numbered 0 .work 0 0).hash (numbered 4 .work 1000 0x1c00ffff),
      .insert (numbered 4 .work 0 0).hash (numbered 5 .work 1100 0x1c00ffff),
      .insert (numbered 5 .work 0 0).hash (numbered 6 .work 1300 0x1b00ffff)]
    store.Reachable ∧ params.validate = .ok () ∧ params.isFixed .work = false ∧
      Fits params.averagingWindow.toInt params.spacing.toInt ∧
      ∃ last ∈ store.records, ∃ newest ∈ store.records, ∃ sample other : Nat → BlockRecord,
        store.IsWindow last .work 2 sample ∧ store.IsWindow newest .work 2 other ∧
        Paced 2 150 sample ∧ Exchanges 2 1 2 sample other ∧
        ((windowOf 2 other).map (·.bits.target)).Perm ((windowOf 2 sample).map (·.bits.target)) ∧
        store.weightedBits last params .work = .ok 0x1c00e38d ∧
        store.weightedBits newest params .work = .ok 0x1c008ec6 ∧
        CompactBits.target 0x1c008ec6 < CompactBits.target 0x1c00e38d := by
  intro params store
  let last : BlockRecord := ⟨numbered 3 .work 1300 0x1c00ffff, 3, 3, some 2⟩
  let newest : BlockRecord := ⟨numbered 6 .work 1300 0x1b00ffff, 6, 3, some 5⟩
  let sample : Nat → BlockRecord := ([⟨numbered 1 .work 1000 0x1b00ffff, 1, 1, some 0⟩,
    ⟨numbered 2 .work 1200 0x1c00ffff, 2, 2, some 1⟩].getD · last)
  let other : Nat → BlockRecord := ([⟨numbered 4 .work 1000 0x1c00ffff, 4, 1, some 0⟩,
    ⟨numbered 5 .work 1100 0x1c00ffff, 5, 2, some 4⟩].getD · newest)
  have hwindows : last ∈ store.records ∧ newest ∈ store.records ∧
      store.IsWindow last .work 2 sample ∧ store.IsWindow newest .work 2 other ∧
      store.weightedBits last params .work = .ok 0x1c00e38d ∧
      store.weightedBits newest params .work = .ok 0x1c008ec6 := by
    decide +kernel
  obtain ⟨hlast, hnewest, hsample, hother, hbits, hotherBits⟩ := hwindows
  have hexchanges : Exchanges 2 1 2 sample other :=
    ⟨by decide, by decide, by decide, by decide, by decide, by decide, by decide⟩
  exact ⟨⟨_, _, rfl⟩, by decide, rfl, by decide, last, hlast, newest, hnewest, sample, other,
    hsample, hother, by decide +kernel, hexchanges, by decide +kernel, hbits, hotherBits,
    by decide +kernel⟩

end ChainStore

end HybridConsensus
