import HybridConsensus.Proofs.RequiredBounds

/-!
# Inherited bits

Where minimum-difficulty blocks are allowed, a block that is not late takes over the bits of the
newest block below it that is no exception. An exception is known by the bits of the limit, and the
limit is that of the new block: the walk asks neither for the kind of a block it passes nor for the
limit that held at its height. So it stops at an exception of the other kind, or of another era, and
hands its bits on. The bits of a new block are within its limit exactly if those it inherits are,
and those are within the limit of the block they come from.
-/

namespace HybridConsensus

open Signed64

/-- Genesis, a block at a multiple of the interval, and a block without the bits of the limit. -/
def isOrdinary (params : ConsensusParams) (limitBits : CompactBits) (block : BlockRecord) : Bool :=
  let interval := (params.timespanAt block.height).tdiv (params.spacingAt block.height)
  block.isGenesis || block.height % (max interval 1).toNat == 0 || block.bits != limitBits

theorem isOrdinary_eq {params : ConsensusParams} (h : params.Valid) (limitBits : CompactBits) :
    isOrdinary params limitBits =
      fun block => block.isGenesis || isRegular params limitBits block := by
  funext block
  unfold isOrdinary isRegular
  rw [ExponentialAverage.intervalAt_eq_ok h, Bool.or_assoc]

/-- A time is never above the largest, so the bound on it needs no clamp. -/
theorem clamp_lt_toInt_iff {value : Int} (hlow : smallest ≤ value) (time : Int64) :
    clamp value < time.toInt ↔ value < time.toInt := by
  have hhigh := (toInt_inRange time).2
  unfold clamp
  omega

namespace ChainStore

/-- The block that a block of `kind` at `time` on top of `last` takes its bits from. The first two
of a kind and late blocks take the limit. -/
def inherited? (store : ChainStore) (last : BlockRecord) (time : Int64) (params : ConsensusParams)
    (kind : ProofKind) : Option BlockRecord :=
  let height := nextHeight last.height
  if 2 ≤ (store.blocksOfKind last kind).length ∧
      time.toInt ≤ last.time.toInt + params.spacingAt height * 2 then
    (store.lineage last).find? (isOrdinary params (params.limitAt kind height).toCompact)
  else none

variable {store : ChainStore} {last block : BlockRecord} {params : ConsensusParams}
  {kind : ProofKind} {bits limitBits : CompactBits} {time : Int64}

/-- A walk that stops nowhere before ends at genesis. -/
theorem WellFormed.find?_isGenesis_or (h : store.WellFormed) (hmem : last ∈ store.records)
    (stop : BlockRecord → Bool) :
    (store.lineage last).find? (fun block => block.isGenesis || stop block) =
      some (store.descendTo stop last) := by
  induction last, hmem using h.rooted.descent with
  | genesis block hmem hnone =>
    have hgenesis := (h.rooted.predecessor?_eq_none_iff hmem).mp hnone
    rw [lineage_of_predecessor_none hnone, List.find?_cons_of_pos (by simp [hgenesis]),
      descendTo_eq_find, lineage_of_predecessor_none hnone]
    by_cases hstop : stop block = true <;> simp [hstop]
  | step block hmem older holder hsome ih =>
    have hgenesis : block.isGenesis = false := by
      rw [Bool.eq_false_iff, Ne, ← h.rooted.predecessor?_eq_none_iff hmem, hsome]
      simp
    rw [lineage_of_predecessor_some hsome]
    unfold descendTo
    by_cases hstop : stop block = true
    · rw [List.find?_cons_of_pos (by simp [hstop]), if_pos hstop]
    · rw [List.find?_cons_of_neg (by simp [hgenesis, hstop]), if_neg hstop, ih]
      split <;> simp_all

theorem WellFormed.regularBits_eq (h : store.WellFormed) (hmem : last ∈ store.records)
    (hparams : params.Valid) (limitBits : CompactBits) :
    ∃ block ∈ store.lineage last,
      (store.lineage last).find? (isOrdinary params limitBits) = some block ∧
        store.regularBits last limitBits params = .ok block.bits := by
  refine ⟨store.descendTo (isRegular params limitBits) last, store.descendTo_mem_lineage last _,
    ?_, ?_⟩
  · rw [isOrdinary_eq hparams]
    exact h.find?_isGenesis_or hmem _
  · unfold regularBits
    simp only [ExponentialAverage.intervalAt_eq_ok hparams]
    split <;> rfl

theorem WellFormed.minimumDifficultyBits_eq_ok_iff (h : store.WellFormed)
    (hmem : last ∈ store.records) (hparams : params.Valid) {height : Nat} :
    store.minimumDifficultyBits last time height limitBits params = .ok bits ↔
      params.spacingAt height * 2 ≤ largest ∧
        bits = if time.toInt ≤ last.time.toInt + params.spacingAt height * 2 then
          (((store.lineage last).find? (isOrdinary params limitBits)).map (·.bits)).getD limitBits
        else limitBits := by
  obtain ⟨block, -, hfound, hregular⟩ := h.regularBits_eq hmem hparams limitBits
  have hspacing := hparams.spacingAt_pos height
  have htime := (toInt_inRange last.time).1
  have hlate : clamp (last.time.toInt + params.spacingAt height * 2) < time.toInt ↔
      ¬ time.toInt ≤ last.time.toInt + params.spacingAt height * 2 := by
    rw [clamp_lt_toInt_iff (by omega)]
    omega
  unfold minimumDifficultyBits
  by_cases hfits : params.spacingAt height * 2 ≤ largest
  · rw [check_of_nonneg (by omega) hfits, hfound, hregular]
    simp only [bind, Except.bind, hlate, hfits, true_and]
    by_cases hontime : time.toInt ≤ last.time.toInt + params.spacingAt height * 2
    · simp [hontime, eq_comm]
    · simp [hontime, eq_comm, pure, Except.pure]
  · have hover : check (params.spacingAt height * 2) = .error .overflow :=
      if_neg fun hrange => hfits hrange.2
    simp [hover, hfits, bind, Except.bind]

theorem WellFormed.requiredBits_of_minimumDifficulty (h : store.WellFormed)
    (hmem : last ∈ store.records) (hparams : params.Valid)
    (hrule : params.allowsMinimumDifficulty = true) :
    (params.spacingAt (nextHeight last.height) * 2 ≤ largest →
      ∃ bits, store.requiredBits (some last) time params kind = .ok bits) ∧
    ∀ bits, store.requiredBits (some last) time params kind = .ok bits →
      bits = ((store.inherited? last time params kind).map (·.bits)).getD
        (params.limitAt kind (nextHeight last.height)).toCompact := by
  rw [h.requiredBits_eq hmem]
  unfold inherited?
  rcases store.blocksOfKind last kind with _ | ⟨newest, _ | ⟨earlier, rest⟩⟩
  case cons.cons =>
    have hcount : 2 ≤ (newest :: earlier :: rest).length := by simp
    simp only [hrule, hcount, ↓reduceIte, true_and]
    constructor
    · intro hfits
      exact ⟨_, (h.minimumDifficultyBits_eq_ok_iff hmem hparams).mpr ⟨hfits, rfl⟩⟩
    · intro bits hbits
      rw [((h.minimumDifficultyBits_eq_ok_iff hmem hparams).mp hbits).2]
      split <;> rfl
  all_goals
    refine ⟨fun _ => ⟨_, rfl⟩, fun bits hbits => ?_⟩
    cases hbits
    simp

theorem mem_lineage_of_inherited (hblock : block ∈ store.inherited? last time params kind) :
    block ∈ store.lineage last := by
  unfold inherited? at hblock
  rw [Option.mem_def, Option.ite_none_right_eq_some] at hblock
  exact List.mem_of_find?_eq_some hblock.2

/-- **When inherited bits stay within the limit.** Let all stored blocks have bits that can bound a
proof and are within the limit of their own kind and height. Then the bits of the next block can
bound a proof too. They are within the limit of its kind and height exactly if it inherits none, or
inherits bits that are, which is so whenever no block on its branch had a higher limit. -/
theorem requiredBits_within_limit_iff (hstore : store.Reachable) (hlast : last ∈ store.records)
    (hparams : params.validate = .ok ()) (hrule : params.allowsMinimumDifficulty = true)
    (hstored : ∀ block ∈ store.records, block.bits.decode.isValid = true ∧
      block.bits.target ≤ params.limitAt block.proof block.height)
    (time : Int64) (kind : ProofKind) :
    (params.spacingAt (nextHeight last.height) * 2 ≤ largest →
      ∃ bits, store.requiredBits (some last) time params kind = .ok bits) ∧
    ∀ bits, store.requiredBits (some last) time params kind = .ok bits →
      bits.decode.isValid = true ∧
      (bits.target ≤ params.limitAt kind (last.height + 1) ↔
        ∀ block ∈ store.inherited? last time params kind,
          block.bits.target ≤ params.limitAt kind (last.height + 1)) ∧
      ((∀ block ∈ store.lineage last,
          params.limitAt block.proof block.height ≤ params.limitAt kind (last.height + 1)) →
        bits.target ≤ params.limitAt kind (last.height + 1)) := by
  have hwell := hstore.wellFormed
  rw [ConsensusParams.validate_eq_ok_iff] at hparams
  obtain ⟨hsome, hvalues⟩ := hwell.requiredBits_of_minimumDifficulty hlast hparams hrule
  refine ⟨hsome, fun bits hbits => ?_⟩
  have hvalue := hvalues bits hbits
  rw [params.limitAt_nextHeight] at hvalue
  cases hinherited : store.inherited? last time params kind with
  | none =>
    rw [hinherited, Option.map_none, Option.getD_none] at hvalue
    have hlimit := Target.bounds_toCompact_self (hparams.limitAt_ne_zero kind (last.height + 1))
    rw [← hvalue] at hlimit
    exact ⟨hlimit.valid, iff_of_true hlimit.le_limit (by simp), fun _ => hlimit.le_limit⟩
  | some block =>
    rw [hinherited, Option.map_some, Option.getD_some] at hvalue
    have holder : block ∈ store.lineage last := mem_lineage_of_inherited hinherited
    obtain ⟨hvalid, hwithin⟩ := hstored block (hwell.rooted.mem_of_mem_lineage hlast _ holder).1
    rw [hvalue]
    refine ⟨hvalid, by simp, fun hlimits => ?_⟩
    exact Nat.le_trans hwithin (hlimits block holder)

/-- Two blocks of each kind within their limits, and a work block that came late and took the
limit. -/
def withLateWork : ChainStore :=
  (ofGenesis (numbered 0 .work 0 0x1f00ffff)).run [
    .push (numbered 1 .work 150 0x1f00ffff), .push (numbered 2 .work 300 0x1f00ffff),
    .push (numbered 3 .stake 450 0x1a00ffff), .push (numbered 4 .stake 600 0x1a00ffff),
    .push (numbered 5 .work 1000 0x1f00ffff)]

/-- A work block passes the exception and takes the bits of a stake block, which has the lower
limit. -/
theorem requiredBits_within_limit_iff_of_lower_limit :
    let tip := withLateWork.tip
    withLateWork.inherited? tip 1100 .test .work = withLateWork.atHeight? 4 ∧
      ∃ bits, withLateWork.requiredBits (some tip) 1100 .test .work = .ok bits ∧
        bits.decode.isValid = true ∧
        bits.target ≤ ConsensusParams.test.limitAt .work (tip.height + 1) := by
  intro tip
  have hstore : withLateWork.Reachable := ⟨_, _, rfl⟩
  have htip : tip ∈ withLateWork.records := by decide +kernel
  have hvalid : ConsensusParams.test.validate = .ok () := by decide
  have hstored : ∀ block ∈ withLateWork.records, block.bits.decode.isValid = true ∧
      block.bits.target ≤ ConsensusParams.test.limitAt block.proof block.height := by
    decide +kernel
  obtain ⟨hsome, hbounds⟩ :=
    requiredBits_within_limit_iff hstore htip hvalid rfl hstored 1100 .work
  obtain ⟨bits, hbits⟩ := hsome (by decide +kernel)
  obtain ⟨hbitsValid, -, hwithin⟩ := hbounds bits hbits
  exact ⟨by decide +kernel, bits, hbits, hbitsValid, hwithin (by decide +kernel)⟩

/-- A stake block takes the bits of the late work block, which is an exception but not by the limit
of stake. -/
theorem requiredBits_above_limit_of_late_work :
    let tip := withLateWork.tip
    ConsensusParams.test.validate = .ok () ∧ withLateWork.Reachable ∧
      tip ∈ withLateWork.records ∧
      (∀ block ∈ withLateWork.records, block.bits.decode.isValid = true ∧
        block.bits.target ≤ ConsensusParams.test.limitAt block.proof block.height) ∧
      withLateWork.requiredBits (some tip) 1100 .test .stake = .ok 0x1f00ffff ∧
      ConsensusParams.test.limitAt .stake (tip.height + 1) < CompactBits.target 0x1f00ffff := by
  intro tip
  have hbits : withLateWork.requiredBits (some tip) 1100 .test .stake = .ok 0x1f00ffff := by
    decide +kernel
  exact ⟨by decide, ⟨_, _, rfl⟩, by decide +kernel, by decide +kernel, hbits, by decide +kernel⟩

end ChainStore

end HybridConsensus
