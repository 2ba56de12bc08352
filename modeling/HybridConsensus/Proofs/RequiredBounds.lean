import HybridConsensus.Proofs.CompactRounding
import HybridConsensus.Proofs.FirstFailure
import HybridConsensus.Proofs.WindowTally
import HybridConsensus.ProofCheck

/-!
# Required bits bound a proof

Who builds a block writes the required bits into it, and who checks it decodes them again and holds
the hash against the target. Both have to speak of the same target. Every rule ends with a limit or
with a target that is neither zero nor above it, and both come out of the compact form as they went
in but for being rounded down, whatever bits and times the blocks before have.
-/

namespace HybridConsensus

open Signed64

/-- Bits in the form in which all nodes write them, of a target that can bound a proof and is not
above `limit`. -/
structure CompactBits.Bounds (bits : CompactBits) (limit : Target) : Prop where
  canonical : bits.target.toCompact = bits
  valid : bits.decode.isValid = true
  le_limit : bits.target ≤ limit

theorem Target.bounds_toCompact {target limit : Target} (hnonzero : target.value ≠ 0)
    (hle : target ≤ limit) : target.toCompact.Bounds limit where
  canonical := target.toCompact_target_toCompact
  valid := isValid_toCompact hnonzero
  le_limit := Nat.le_trans target.target_toCompact_le hle

theorem Target.bounds_toCompact_self {limit : Target} (hnonzero : limit.value ≠ 0) :
    limit.toCompact.Bounds limit :=
  bounds_toCompact hnonzero (Nat.le_refl _)

theorem Target.bounds_clampedBits (target : Target) {limit : Target} (hlimit : limit.value ≠ 0) :
    (target.clampedBits limit).Bounds limit := by
  unfold clampedBits
  split
  case isTrue => exact bounds_toCompact_self hlimit
  case isFalse hclamp =>
    rw [not_or, isZero_iff] at hclamp
    exact bounds_toCompact hclamp.1 (Nat.le_of_not_lt hclamp.2)

theorem CompactBits.Bounds.meets_iff {bits : CompactBits} {params : ConsensusParams}
    (h : bits.Bounds params.workLimit) (hash : BlockHash) :
    hash.meets bits params = true ↔ hash.toTarget ≤ bits.target := by
  have hvalid := h.valid
  have hlimit : bits.decode.target ≤ params.workLimit := h.le_limit
  unfold BlockHash.meets
  simp [hvalid, hlimit, CompactBits.target]

namespace ExponentialAverage

variable {params : ConsensusParams} {kind : ProofKind} {bits : CompactBits}

theorem step_bounds {previous : BlockRecord} {earlierTime : Int64} {spacing : Int} {limit : Target}
    (hlimit : limit.value ≠ 0) (h : step previous earlierTime spacing limit = .ok bits) :
    bits.Bounds limit := by
  unfold step at h
  obtain ⟨longest, -, h⟩ := bind_eq_ok_iff.mp h
  obtain ⟨target, -, h⟩ := bind_eq_ok_iff.mp h
  cases h
  exact target.bounds_clampedBits hlimit

theorem nextBits_bounds {last : BlockRecord} {earlierTime : Int64} (hparams : params.Valid)
    (hfixed : params.isFixed kind = false)
    (h : nextBits last earlierTime params kind = .ok bits) :
    bits.Bounds (params.limitAt kind (nextHeight last.height)) := by
  unfold nextBits at h
  rw [hfixed, if_neg Bool.false_ne_true] at h
  obtain ⟨interval, -, h⟩ := bind_eq_ok_iff.mp h
  simp only at h
  split at h
  all_goals
    obtain ⟨target, -, h⟩ := bind_eq_ok_iff.mp h
    cases h
    exact target.bounds_clampedBits (hparams.limitAt_ne_zero kind _)

end ExponentialAverage

namespace WeightedAverage

variable {params : ConsensusParams} {kind : ProofKind} {bits : CompactBits} {height : Nat}
  {blocks : List BlockRecord}

theorem bitsOfFew_bounds (hparams : params.Valid) (h : bitsOfFew params kind blocks = .ok bits) :
    bits.Bounds (params.limit kind) := by
  unfold bitsOfFew at h
  split at h
  case h_1 => exact ExponentialAverage.step_bounds hparams.stakeLimit h
  case h_2 =>
    cases h
    exact Target.bounds_toCompact_self (hparams.limit_ne_zero _)

theorem bitsOfHistory_bounds (hparams : params.Valid)
    (h : bitsOfHistory params kind height blocks = .ok bits) : bits.Bounds (params.limit kind) := by
  have hlimit := Target.bounds_toCompact_self (hparams.limit_ne_zero kind)
  have hwindow := hparams.window
  unfold bitsOfHistory at h
  obtain ⟨needed, -, h⟩ := bind_eq_ok_iff.mp h
  split at h
  · cases h
    exact hlimit
  rw [if_neg (by omega)] at h
  simp only at h
  split at h
  · exact bitsOfFew_bounds hparams h
  obtain ⟨average, -, h⟩ := bind_eq_ok_iff.mp h
  cases average with
  | none =>
    cases h
    exact hlimit
  | some target =>
    cases h
    exact target.bounds_clampedBits (hparams.limit_ne_zero kind)

/-- The products of a kind's weighted average fit, and those of single steps if the kind takes them.
-/
def FitsKind (params : ConsensusParams) (kind : ProofKind) : Prop :=
  Fits params.averagingWindow.toInt params.spacing.toInt ∧
    (kind = .stake → 20 * params.spacing.toInt ≤ largest)

theorem exists_ofSamples_eq_ok {size spacing : Int} (hsize : 1 ≤ size) (hspacing : 1 ≤ spacing)
    (hfits : Fits size spacing) (hroom : blocks.length ≤ size + 1) :
    ∃ average, ofSamples size spacing blocks = .ok average := by
  cases blocks with
  | nil => exact ⟨none, rfl⟩
  | cons oldest samples =>
    rw [List.length_cons] at hroom
    exact ⟨_, ofSamples_eq_ok hsize hspacing hfits oldest (by omega)⟩

theorem exists_bitsOfFew_eq_ok (hparams : params.Valid)
    (hsteps : kind = .stake → 20 * params.spacing.toInt ≤ largest) (blocks : List BlockRecord) :
    ∃ bits, bitsOfFew params kind blocks = .ok bits := by
  unfold bitsOfFew
  split
  case h_1 => exact ⟨_, ExponentialAverage.step_eq_ok _ _ _ hparams.spacing (hsteps rfl)⟩
  case h_2 => exact ⟨_, rfl⟩

theorem exists_bitsOfHistory_eq_ok (hparams : params.Valid) (hfits : FitsKind params kind)
    (height : Nat) (blocks : List BlockRecord) :
    ∃ bits, bitsOfHistory params kind height blocks = .ok bits := by
  have hwindow := hparams.window
  have hbounds := hfits.1.bounds hparams.spacing hwindow
  have hneeded :
      check (params.averagingWindow.toInt + 1) = .ok (params.averagingWindow.toInt + 1) :=
    check_of_nonneg (by omega) hbounds.1
  have hroom : (blocks.take (params.averagingWindow.toInt + 1).toNat).reverse.length ≤
      params.averagingWindow.toInt + 1 := by
    rw [List.length_reverse, List.length_take]
    omega
  obtain ⟨average, haverage⟩ := exists_ofSamples_eq_ok hwindow hparams.spacing hfits.1 hroom
  unfold bitsOfHistory
  have hcount : ¬ params.averagingWindow.toInt < 0 := by omega
  simp only [hneeded, bind, Except.bind, haverage, if_neg hcount]
  split
  · exact ⟨_, rfl⟩
  split
  · exact exists_bitsOfFew_eq_ok hparams hfits.2 blocks
  · cases average <;> exact ⟨_, rfl⟩

end WeightedAverage

/-- No times of blocks lead the rules for a kind to a product that does not fit. -/
def ConsensusParams.ProductsFit (params : ConsensusParams) (kind : ProofKind) : Prop :=
  match params.algorithm with
  | .weighted => WeightedAverage.FitsKind params kind
  | .exponential => ∀ height, ExponentialAverage.FitsAt params height

/-- No switch height tells the last height from the one that would follow it. -/
theorem nextHeight_lt_iff (height : Nat) (switch : UInt32) :
    nextHeight height < switch.toNat ↔ height + 1 < switch.toNat := by
  have hswitch := switch.toNat_lt
  unfold nextHeight maxHeight
  omega

theorem ConsensusParams.limitAt_nextHeight (params : ConsensusParams) (kind : ProofKind)
    (height : Nat) :
    params.limitAt kind (nextHeight height) = params.limitAt kind (height + 1) := by
  cases kind with
  | work => rfl
  | stake => simp only [limitAt, nextHeight_lt_iff]

theorem ConsensusParams.spacingAt_nextHeight (params : ConsensusParams) (height : Nat) :
    params.spacingAt (nextHeight height) = params.spacingAt (height + 1) := by
  simp only [spacingAt, nextHeight_lt_iff]

namespace ChainStore

variable {store : ChainStore} {last : BlockRecord} {params : ConsensusParams} {kind : ProofKind}
  {bits : CompactBits}

theorem WellFormed.exists_requiredBits_eq_ok (h : store.WellFormed) (hmem : last ∈ store.records)
    (hparams : params.Valid) (hrule : params.allowsMinimumDifficulty = false)
    (hfixed : params.isFixed kind = false) (hfits : params.ProductsFit kind) (time : Int64) :
    ∃ bits, store.requiredBits (some last) time params kind = .ok bits := by
  rw [h.requiredBits_eq hmem]
  unfold ConsensusParams.ProductsFit at hfits
  split
  case h_1 newest earlier rest hblocks =>
    have hnewest := h.mem_of_mem_blocksOfKind hmem (hblocks ▸ List.mem_cons_self)
    rw [if_neg (by simp [hrule])]
    cases halgorithm : params.algorithm with
    | weighted =>
      simp only [halgorithm] at hfits ⊢
      rw [h.weightedBits_eq hnewest, if_neg (by simp [hfixed])]
      exact WeightedAverage.exists_bitsOfHistory_eq_ok hparams hfits _ _
    | exponential =>
      simp only [halgorithm] at hfits ⊢
      exact ⟨_, ExponentialAverage.nextBits_eq_ok hparams hfixed newest earlier.time (hfits _)⟩
  case h_2 => exact ⟨_, rfl⟩

/-- The required bits bound proofs by one of three limits: that of the new height, that of the
height above the newest block of the kind, and that before any era. -/
theorem WellFormed.requiredBits_bounds (h : store.WellFormed) (hmem : last ∈ store.records)
    (hparams : params.Valid) (hrule : params.allowsMinimumDifficulty = false)
    (hfixed : params.isFixed kind = false) {time : Int64}
    (hbits : store.requiredBits (some last) time params kind = .ok bits) :
    bits.Bounds (params.limitAt kind (last.height + 1)) ∨
      params.algorithm = .weighted ∧ bits.Bounds (params.limit kind) ∨
      params.algorithm = .exponential ∧ ∃ newest ∈ store.blocksOfKind last kind,
        bits.Bounds (params.limitAt kind (newest.height + 1)) := by
  rw [h.requiredBits_eq hmem] at hbits
  split at hbits
  case h_1 newest earlier rest hblocks =>
    have hnewest := h.mem_of_mem_blocksOfKind hmem (hblocks ▸ List.mem_cons_self)
    rw [if_neg (by simp [hrule])] at hbits
    cases halgorithm : params.algorithm with
    | weighted =>
      simp only [halgorithm] at hbits
      rw [h.weightedBits_eq hnewest, if_neg (by simp [hfixed])] at hbits
      exact .inr (.inl ⟨rfl, WeightedAverage.bitsOfHistory_bounds hparams hbits⟩)
    | exponential =>
      simp only [halgorithm] at hbits
      have hbounds := ExponentialAverage.nextBits_bounds hparams hfixed hbits
      rw [params.limitAt_nextHeight] at hbounds
      exact .inr (.inr ⟨rfl, newest, hblocks ▸ List.mem_cons_self, hbounds⟩)
  case h_2 =>
    cases hbits
    rw [params.limitAt_nextHeight]
    exact .inl (Target.bounds_toCompact_self (hparams.limitAt_ne_zero kind _))

theorem WellFormed.exists_limit_of_requiredBits {last : Option BlockRecord} (h : store.WellFormed)
    (hlast : ∀ block ∈ last, block ∈ store.records) (hparams : params.Valid)
    (hrule : params.allowsMinimumDifficulty = false) (hfixed : params.isFixed kind = false)
    {time : Int64} (hbits : store.requiredBits last time params kind = .ok bits) :
    ∃ limit, bits.Bounds limit ∧ (kind = .work → limit = params.workLimit) ∧
      (kind = .stake → params.algorithm = .weighted →
        limit.value ≤ max params.stakeLimit.value
          (params.limitAt .stake (last.elim 0 (·.height + 1))).value) := by
  cases last with
  | none =>
    cases hbits
    refine ⟨_, Target.bounds_toCompact_self (hparams.limitAt_ne_zero kind 0), ?_, ?_⟩
    · rintro rfl
      rfl
    · rintro rfl _
      exact Nat.le_max_right _ _
  | some last =>
    rcases h.requiredBits_bounds (hlast last rfl) hparams hrule hfixed hbits with
      hbounds | ⟨_, hbounds⟩ | ⟨halgorithm, newest, _, hbounds⟩
    · refine ⟨_, hbounds, ?_, ?_⟩
      · rintro rfl
        rfl
      · rintro rfl _
        exact Nat.le_max_right _ _
    · refine ⟨_, hbounds, ?_, ?_⟩
      · rintro rfl
        rfl
      · rintro rfl _
        exact Nat.le_max_left _ _
    · refine ⟨_, hbounds, ?_, ?_⟩
      · rintro rfl
        rfl
      · intro _ hweighted
        rw [halgorithm] at hweighted
        cases hweighted

/-- **Builder and checker agree on the required bits.** Where the rule for late blocks is off and
the kind is retargeted, there are required bits if the products fit, and they are canonical and
bound a proof. For work their target is within the work limit, so that a hash meets them just when
it is at most that target. For stake by weighted averages it is within the limit before any era or
that of the new height. -/
theorem requiredBits_bound_proofs {last : Option BlockRecord} (hstore : store.Reachable)
    (hlast : ∀ block ∈ last, block ∈ store.records) (hparams : params.validate = .ok ())
    (hrule : params.allowsMinimumDifficulty = false) (hfixed : params.isFixed kind = false)
    (time : Int64) :
    (params.ProductsFit kind → ∃ bits, store.requiredBits last time params kind = .ok bits) ∧
    ∀ bits, store.requiredBits last time params kind = .ok bits →
      bits.target.toCompact = bits ∧ bits.decode.negative = false ∧ bits.decode.overflow = false ∧
        bits.target.isZero = false ∧
      (kind = .work → bits.target ≤ params.workLimit ∧
        ∀ hash : BlockHash, hash.meets bits params = true ↔ hash.toTarget ≤ bits.target) ∧
      (kind = .stake → params.algorithm = .weighted →
        bits.target.value ≤ max params.stakeLimit.value
          (params.limitAt .stake (last.elim 0 (·.height + 1))).value) := by
  have hwell := hstore.wellFormed
  rw [ConsensusParams.validate_eq_ok_iff] at hparams
  constructor
  · intro hfits
    cases last with
    | none => exact ⟨_, rfl⟩
    | some last =>
      exact hwell.exists_requiredBits_eq_ok (hlast last rfl) hparams hrule hfixed hfits time
  · intro bits hbits
    obtain ⟨limit, hbounds, hwork, hstake⟩ :=
      hwell.exists_limit_of_requiredBits hlast hparams hrule hfixed hbits
    obtain ⟨hnegative, hoverflow, hzero⟩ := CompactBits.isValid_iff.mp hbounds.valid
    refine ⟨hbounds.canonical, hnegative, hoverflow, hzero, ?_, ?_⟩
    · intro hkind
      rw [hwork hkind] at hbounds
      exact ⟨hbounds.le_limit, hbounds.meets_iff⟩
    · intro hkind hweighted
      exact Nat.le_trans hbounds.le_limit (hstake hkind hweighted)

theorem requiredBits_bound_proofs_of_malformed :
    let params := { ConsensusParams.main with averagingWindow := 1 }
    let store := (ofGenesis (numbered 0 .work 0 0x1f00ffff)).run [
      .push (numbered 1 .work 150 0xff800001), .push (numbered 2 .work 290 0xff7fffff),
      .push (numbered 3 .work 100 0x1c923456), .push (numbered 4 .stake 310 0x00ffffff),
      .push (numbered 5 .stake 250 0x1b8fffff)]
    (∃ bits, store.requiredBits (some store.tip) 400 params .work = .ok bits ∧
      bits.target.toCompact = bits ∧
      ∀ hash : BlockHash, hash.meets bits params = true ↔ hash.toTarget ≤ bits.target) ∧
    ∃ bits, store.requiredBits (some store.tip) 400 params .stake = .ok bits ∧
      bits.target.isZero = false ∧
      bits.target.value ≤ max params.stakeLimit.value (params.limitAt .stake 6).value := by
  intro params store
  have hstore : store.Reachable := ⟨_, _, rfl⟩
  have htip : ∀ block ∈ some store.tip, block ∈ store.records := by
    intro block hblock
    rw [Option.mem_some_iff.mp hblock.symm]
    decide +kernel
  have hheight : store.tip.height = 5 := by decide +kernel
  have hvalid : params.validate = .ok () := by
    rw [ConsensusParams.validate_eq_ok_iff]
    constructor <;> decide
  have hfits : ∀ kind, params.ProductsFit kind := by
    intro kind
    refine ⟨?_, fun _ => by decide⟩
    unfold WeightedAverage.Fits
    decide
  have hfixed : ∀ kind, params.isFixed kind = false := fun kind => by cases kind <;> rfl
  have hagree := fun kind => requiredBits_bound_proofs hstore htip hvalid rfl (hfixed kind) 400
  constructor
  · obtain ⟨bits, hbits⟩ := (hagree .work).1 (hfits .work)
    obtain ⟨hcanonical, _, _, _, hwork, _⟩ := (hagree .work).2 bits hbits
    exact ⟨bits, hbits, hcanonical, (hwork rfl).2⟩
  · obtain ⟨bits, hbits⟩ := (hagree .stake).1 (hfits .stake)
    obtain ⟨_, _, _, hnonzero, _, hstake⟩ := (hagree .stake).2 bits hbits
    have hwithin := hstake rfl rfl
    rw [Option.elim_some, hheight] at hwithin
    exact ⟨bits, hbits, hnonzero, hwithin⟩

end ChainStore

end HybridConsensus
