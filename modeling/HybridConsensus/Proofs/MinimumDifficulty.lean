import HybridConsensus.Proofs.InheritedBits
import HybridConsensus.Proofs.WindowSamples

/-!
# Exceptions are undone

A block of minimum difficulty is an exception for itself alone. The first block after it that comes
in time goes back over it, and over as many exceptions as there are in a row, to the bits that held
before them. Only a block at a multiple of the interval is taken as it is, so exceptions there are
not undone. Which interval counts is up to the height of the block that the walk has reached, and
which bits make an exception is up to the height of the new one.
-/

namespace HybridConsensus

open Signed64

variable {params : ConsensusParams} {block : BlockRecord} {limitBits : CompactBits}

/-- A block at a multiple of the interval, which counts as one block if it is empty. -/
def AtBoundary (params : ConsensusParams) (block : BlockRecord) : Prop :=
  ∃ interval, params.intervalAt block.height = .ok interval ∧
    max 1 interval ∣ (block.height : Int)

instance (params : ConsensusParams) (block : BlockRecord) : Decidable (AtBoundary params block) :=
  match h : params.intervalAt block.height with
  | .ok interval =>
    decidable_of_iff (max 1 interval ∣ (block.height : Int)) (by simp [AtBoundary, h])
  | .error _ => isFalse (by simp [AtBoundary, h])

/-- A block that is passed over. -/
structure IsException (params : ConsensusParams) (limitBits : CompactBits) (block : BlockRecord) :
    Prop where
  not_genesis : block.isGenesis = false
  bits_eq : block.bits = limitBits
  not_boundary : ¬ AtBoundary params block

theorem atBoundary_iff (h : params.Valid) :
    AtBoundary params block ↔
      block.height % (max ((params.timespanAt block.height).tdiv
        (params.spacingAt block.height)) 1).toNat = 0 := by
  unfold AtBoundary
  rw [ExponentialAverage.intervalAt_eq_ok h, ← Nat.dvd_iff_mod_eq_zero, ← Int.natCast_dvd_natCast,
    Int.toNat_of_nonneg (by omega), max_comm]
  constructor
  · rintro ⟨interval, hinterval, hdivides⟩
    cases hinterval
    exact hdivides
  · exact fun hdivides => ⟨_, rfl, hdivides⟩

theorem isOrdinary_iff (h : params.Valid) :
    isOrdinary params limitBits block = true ↔ ¬ IsException params limitBits block := by
  have hordinary : isOrdinary params limitBits block = true ↔
      (block.isGenesis = true ∨ AtBoundary params block) ∨ block.bits ≠ limitBits := by
    rw [atBoundary_iff h]
    simp [isOrdinary]
  rw [hordinary]
  constructor
  · rintro ((hgenesis | hboundary) | hbits) hexception
    · rw [hexception.not_genesis] at hgenesis
      cases hgenesis
    · exact hexception.not_boundary hboundary
    · exact hbits hexception.bits_eq
  · intro hnone
    by_contra hcases
    rw [not_or, not_or, not_not, Bool.not_eq_true] at hcases
    exact hnone ⟨hcases.1.1, hcases.2, hcases.1.2⟩

namespace ChainStore

variable {store : ChainStore} {last : BlockRecord} {kind : ProofKind}

theorem WellFormed.requiredBits_eq_inherited (h : store.WellFormed) (hlast : last ∈ store.records)
    (hparams : params.Valid) (hrule : params.allowsMinimumDifficulty = true)
    (hfits : params.spacingAt (last.height + 1) * 2 ≤ largest) (time : Int64) :
    store.requiredBits (some last) time params kind =
      .ok (((store.inherited? last time params kind).map (·.bits)).getD
        (params.limitAt kind (last.height + 1)).toCompact) := by
  obtain ⟨hsome, hvalue⟩ := h.requiredBits_of_minimumDifficulty hlast hparams hrule
  rw [params.spacingAt_nextHeight] at hsome
  obtain ⟨bits, hbits⟩ := hsome hfits
  rw [hbits, hvalue bits hbits, params.limitAt_nextHeight]

theorem inherited?_eq (store : ChainStore) (last : BlockRecord) (time : Int64)
    (params : ConsensusParams) (kind : ProofKind) :
    store.inherited? last time params kind =
      if 2 ≤ (store.blocksOfKind last kind).length ∧
          time.toInt ≤ last.time.toInt + params.spacingAt (last.height + 1) * 2 then
        (store.lineage last).find?
          (isOrdinary params (params.limitAt kind (last.height + 1)).toCompact)
      else none := by
  simp only [inherited?, params.spacingAt_nextHeight, params.limitAt_nextHeight]

/-- What is passed over lies above what is found. -/
theorem find?_isOrdinary_eq_some_iff (hparams : params.Valid) :
    (store.lineage last).find? (isOrdinary params limitBits) = some block ↔
      ¬ IsException params limitBits block ∧ ∃ exceptions older,
        store.lineage last = exceptions ++ block :: older ∧
          ∀ exception ∈ exceptions, IsException params limitBits exception := by
  rw [List.find?_eq_some_iff_append, isOrdinary_iff hparams]
  simp only [Bool.not_eq_true', ← Bool.not_eq_true, isOrdinary_iff hparams, not_not]

/-- Genesis has nothing below it. -/
theorem Rooted.not_genesis_of_above (h : Rooted store.records) (hlast : last ∈ store.records)
    {newer older : List BlockRecord} {base : BlockRecord}
    (hlineage : store.lineage last = newer ++ base :: older) (hblock : block ∈ newer) :
    block.isGenesis = false := by
  have hpairs := h.pairwise_lineage hlast
  rw [hlineage] at hpairs
  have hhigher := (List.pairwise_append.mp hpairs).2.2 block hblock base List.mem_cons_self
  have hstored : block ∈ store.records := by
    refine (h.mem_of_mem_lineage hlast block ?_).1
    rw [hlineage]
    exact List.mem_append_left _ hblock
  rw [Bool.eq_false_iff, Ne, h.isGenesis_iff_height hstored]
  omega

/-- **Exceptions are undone by the next block in time.** Where minimum-difficulty blocks are allowed
and two spacings fit, let there be two blocks of a kind besides genesis. A block of that kind more
than two spacings after the last block has to carry the bits of the limit; no block is late where
that sum is above the largest time. A block in time has to carry the bits of the newest block on its
branch that is genesis or has other bits or is at a multiple of the interval at its height. So after
any number of blocks with the bits of the limit, none of them at such a height, these are the bits
of the block below them. -/
theorem requiredBits_undoes_exceptions (hstore : store.Reachable) (hlast : last ∈ store.records)
    (hparams : params.validate = .ok ()) (hrule : params.allowsMinimumDifficulty = true)
    (hfits : params.spacingAt (last.height + 1) * 2 ≤ largest)
    (htwo : 2 ≤ ((store.lineage last).filter fun block =>
      !block.isGenesis && block.proof == kind).length) (time : Int64) :
    let limitBits := (params.limitAt kind (last.height + 1)).toCompact
    let latest := min largest (last.time.toInt + params.spacingAt (last.height + 1) * 2)
    (latest < time.toInt →
      store.requiredBits (some last) time params kind = .ok limitBits) ∧
    (time.toInt ≤ latest →
      (∃ exceptions block older, store.lineage last = exceptions ++ block :: older ∧
        (∀ exception ∈ exceptions, IsException params limitBits exception) ∧
        ¬ IsException params limitBits block ∧
        store.requiredBits (some last) time params kind = .ok block.bits) ∧
      ∀ exceptions base older, store.lineage last = exceptions ++ base :: older →
        base.bits ≠ limitBits →
        (∀ exception ∈ exceptions, exception.bits = limitBits ∧ ¬ AtBoundary params exception) →
        store.requiredBits (some last) time params kind = .ok base.bits) := by
  intro limitBits latest
  have hwell := hstore.wellFormed
  have htime := (toInt_inRange time).2
  rw [ConsensusParams.validate_eq_ok_iff] at hparams
  rw [hwell.rooted.filter_lineage hlast] at htwo
  rw [hwell.requiredBits_eq_inherited hlast hparams hrule hfits]
  constructor
  · intro hlate
    rw [inherited?_eq, if_neg (by omega)]
    rfl
  intro hontime
  rw [inherited?_eq, if_pos ⟨htwo, by omega⟩]
  constructor
  · obtain ⟨block, -, hfound, -⟩ := hwell.regularBits_eq hlast hparams limitBits
    obtain ⟨hordinary, exceptions, older, hlineage, hpassed⟩ :=
      (find?_isOrdinary_eq_some_iff hparams).mp hfound
    exact ⟨exceptions, block, older, hlineage, hpassed, hordinary, by rw [hfound]; rfl⟩
  · intro exceptions base older hlineage hbase hpassed
    have hfound : (store.lineage last).find? (isOrdinary params limitBits) = some base := by
      rw [find?_isOrdinary_eq_some_iff hparams]
      refine ⟨fun hexception => hbase hexception.bits_eq, exceptions, older, hlineage, ?_⟩
      intro exception hmember
      obtain ⟨hbits, hboundary⟩ := hpassed exception hmember
      exact ⟨hwell.rooted.not_genesis_of_above hlast hlineage hmember, hbits, hboundary⟩
    rw [hfound]
    rfl

/-- Three late work blocks in a row, left behind by another branch. -/
theorem requiredBits_undoes_exceptions_of_late_blocks :
    let store := (ofGenesis (numbered 0 .work 0 0x1f00ffff)).run [
      .push (numbered 1 .work 150 0x1e00ffff), .push (numbered 2 .work 300 0x1d00ffff),
      .push (numbered 3 .work 1000 0x1f00ffff), .push (numbered 4 .work 2000 0x1f00ffff),
      .push (numbered 5 .work 3000 0x1f00ffff),
      .insert (numbered 2 .work 0 0).hash (numbered 6 .stake 450 0x1d00ffff),
      .activate (numbered 6 .work 0 0).hash]
    ∃ last ∈ store.records, store.isActive last = false ∧
      store.requiredBits (some last) 3300 .test .work = .ok 0x1d00ffff ∧
      store.requiredBits (some last) 3301 .test .work = .ok 0x1f00ffff := by
  intro store
  have hstore : store.Reachable := ⟨_, _, rfl⟩
  have hvalid : ConsensusParams.test.validate = .ok () := by decide
  let last : BlockRecord := { numbered 5 .work 3000 0x1f00ffff with
    id := 5, height := 5, parent := some 4 }
  let base : BlockRecord := { numbered 2 .work 300 0x1d00ffff with
    id := 2, height := 2, parent := some 1 }
  have hchain : last ∈ store.records ∧ store.isActive last = false ∧
      2 ≤ ((store.lineage last).filter fun block =>
        !block.isGenesis && block.proof == .work).length ∧
      store.lineage last =
        (store.lineage last).take 3 ++ base :: (store.lineage last).drop 4 ∧
      ∀ exception ∈ (store.lineage last).take 3,
        exception.bits = (ConsensusParams.test.limitAt .work (last.height + 1)).toCompact ∧
          ¬ AtBoundary .test exception := by
    decide +kernel
  obtain ⟨hlast, hinactive, htwo, hlineage, hpassed⟩ := hchain
  obtain ⟨-, hontime⟩ :=
    requiredBits_undoes_exceptions hstore hlast hvalid rfl (by decide) htwo 3300
  obtain ⟨hlate, -⟩ :=
    requiredBits_undoes_exceptions hstore hlast hvalid rfl (by decide) htwo 3301
  have hlimit : (ConsensusParams.test.limitAt .work (last.height + 1)).toCompact = 0x1f00ffff := by
    decide +kernel
  refine ⟨last, hlast, hinactive, ?_, ?_⟩
  · exact (hontime (by decide)).2 _ base _ hlineage (by rw [hlimit]; decide) hpassed
  · rw [hlate (by decide), hlimit]

end ChainStore

end HybridConsensus
