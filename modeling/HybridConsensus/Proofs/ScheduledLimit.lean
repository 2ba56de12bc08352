import HybridConsensus.Proofs.ClampedBits
import HybridConsensus.Proofs.RequiredBounds

/-!
# The limit of which height

By exponential averages the next block of a kind is retargeted from the newest of that kind, and the
rule for it takes the height above that block for the new height. In a branch that mixes both kinds
the two differ as soon as a block of the other kind lies on top. The limit on stake changes with the
height, so the limit that bounds the target can be that of an era that has ended. The bits are
always within that older limit. Whether they are within the limit of the new height too depends on
the two limits and, if the limit has fallen, on how far the target has moved.
-/

namespace HybridConsensus

namespace Signed64

variable {α : Type} {value divisor : Int} {rest : Int → Except Fault α} {result : α}

theorem check_bind_eq_ok_iff :
    check value >>= rest = .ok result ↔ InRange value ∧ rest value = .ok result := by
  by_cases h : InRange value
  · rw [check_eq_ok h]
    exact (and_iff_right h).symm
  · rw [check, if_neg h]
    exact ⟨nofun, fun hrange => absurd hrange.1 h⟩

theorem divide_bind_eq_ok_iff :
    divide value divisor >>= rest = .ok result ↔
      (divisor ≠ 0 ∧ InRange (value.tdiv divisor)) ∧ rest (value.tdiv divisor) = .ok result := by
  by_cases h : divisor = 0
  · rw [divide, if_pos h]
    exact ⟨nofun, fun hdivides => absurd h hdivides.1.1⟩
  · rw [divide, if_neg h, check_bind_eq_ok_iff, and_iff_right h]

end Signed64

open Signed64

/-! ### What a move has computed

A move that ends without a fault has computed the target that it computes where all products are
known to fit. -/

namespace ExponentialAverage

variable {observed spacing interval granularity : Int} {target result : Target}

theorem blend_of_eq_ok (hspacing : 1 ≤ spacing) (hinterval : 0 ≤ interval)
    (h : blend target observed spacing interval = .ok result) :
    result = blended target observed spacing interval := by
  have hspan : 1 ≤ (interval + 1) * spacing := by
    calc (1 : Int) ≤ spacing := hspacing
      _ ≤ (interval + 1) * spacing := le_mul_of_one_le_left (by omega) (by omega)
  simp only [blend, check_bind_eq_ok_iff] at h
  obtain ⟨-, -, -, -, -, -, h⟩ := h
  cases h
  rw [blended, max_eq_left hspan]

theorem linearTarget_of_eq_ok (hspacing : 1 ≤ spacing) (hinterval : 0 ≤ interval)
    (h : linearTarget target observed spacing interval = .ok result) :
    result = blended target (min observed (spacing * 10)) spacing interval := by
  rw [linearTarget, check_bind_eq_ok_iff] at h
  exact blend_of_eq_ok hspacing hinterval h.2

theorem exponentialTarget_of_eq_ok
    (h : exponentialTarget target observed spacing interval granularity = .ok result) :
    result = target.mulExp ((2 * (min observed (spacing * 20) - spacing)).tdiv granularity)
      (((interval + 1) * spacing).tdiv granularity) := by
  simp only [exponentialTarget, check_bind_eq_ok_iff, divide_bind_eq_ok_iff] at h
  obtain ⟨-, -, -, -, -, -, -, h⟩ := h
  cases h
  rfl

variable {params : ConsensusParams} {kind : ProofKind} {bits : CompactBits}

theorem nextBits_of_eq_ok (h : params.Valid) (hfixed : params.isFixed kind = false)
    {last : BlockRecord} {earlierTime : Int64}
    (hbits : nextBits last earlierTime params kind = .ok bits) :
    bits = (moved last.bits.target (clamp (last.time.toInt - earlierTime.toInt)) params
      (nextHeight last.height)).clampedBits (params.limitAt kind (nextHeight last.height)) := by
  have hspacing := h.spacingAt_pos (nextHeight last.height)
  have hinterval := h.interval_nonneg (nextHeight last.height)
  unfold nextBits at hbits
  rw [hfixed, if_neg Bool.false_ne_true] at hbits
  simp only [intervalAt_eq_ok h, bind, Except.bind] at hbits
  unfold moved
  split at hbits
  case isTrue hbefore =>
    obtain ⟨target, htarget, hbits⟩ := bind_eq_ok_iff.mp hbits
    cases hbits
    rw [linearTarget_of_eq_ok hspacing hinterval htarget, if_pos hbefore]
  case isFalse hafter =>
    obtain ⟨target, htarget, hbits⟩ := bind_eq_ok_iff.mp hbits
    cases hbits
    rw [exponentialTarget_of_eq_ok htarget, if_neg hafter]

/-- The target that the newest two blocks of a kind lead to, before any limit. -/
def movedBy (newest earlier : BlockRecord) (params : ConsensusParams) : Target :=
  moved newest.bits.target (clamp (newest.time.toInt - earlier.time.toInt)) params
    (nextHeight newest.height)

end ExponentialAverage

namespace ChainStore

open ExponentialAverage

variable {store : ChainStore} {last : BlockRecord} {params : ConsensusParams} {kind : ProofKind}
  {bits : CompactBits}

theorem WellFormed.requiredBits_exponential (h : store.WellFormed) (hlast : last ∈ store.records)
    (hparams : params.Valid) (halgorithm : params.algorithm = .exponential)
    (hrule : params.allowsMinimumDifficulty = false) (hfixed : params.isFixed kind = false)
    {time : Int64} (hbits : store.requiredBits (some last) time params kind = .ok bits) :
    bits = match store.blocksOfKind last kind with
      | newest :: earlier :: _ =>
        (movedBy newest earlier params).clampedBits (params.limitAt kind (newest.height + 1))
      | _ => (params.limitAt kind (last.height + 1)).toCompact := by
  rw [h.requiredBits_eq hlast] at hbits
  revert hbits
  rcases store.blocksOfKind last kind with _ | ⟨newest, _ | ⟨earlier, rest⟩⟩ <;> intro hbits
  case cons.cons =>
    simp only [hrule, halgorithm, Bool.false_eq_true, ↓reduceIte] at hbits
    rw [nextBits_of_eq_ok hparams hfixed hbits, params.limitAt_nextHeight]
    rfl
  all_goals
    cases hbits
    rw [params.limitAt_nextHeight]

/-- **When the limit of the new height is kept.** By exponential averages there are required bits if
the products fit, and they can bound a proof. They are within the limit of the kind at the new
height exactly if there are not two blocks of the kind yet, or the limit above the newest of them is
within it as bits, or the target it leads to is. So they are unless the limit has fallen since. -/
theorem requiredBits_within_new_limit_iff (hstore : store.Reachable) (hlast : last ∈ store.records)
    (hparams : params.validate = .ok ()) (halgorithm : params.algorithm = .exponential)
    (hrule : params.allowsMinimumDifficulty = false) (hfixed : params.isFixed kind = false)
    (time : Int64) :
    (params.ProductsFit kind →
      ∃ bits, store.requiredBits (some last) time params kind = .ok bits) ∧
    ∀ bits, store.requiredBits (some last) time params kind = .ok bits →
      bits.decode.isValid = true ∧
      (bits.target ≤ params.limitAt kind (last.height + 1) ↔
        ∀ newest earlier rest, store.blocksOfKind last kind = newest :: earlier :: rest →
          (params.limitAt kind (newest.height + 1)).toCompact.target ≤
              params.limitAt kind (last.height + 1) ∨
            (movedBy newest earlier params).value ≠ 0 ∧
              (movedBy newest earlier params).toCompact.target ≤
                params.limitAt kind (last.height + 1)) ∧
      ((∀ newest ∈ (store.blocksOfKind last kind).head?,
          params.limitAt kind (newest.height + 1) ≤ params.limitAt kind (last.height + 1)) →
        bits.target ≤ params.limitAt kind (last.height + 1)) := by
  have hwell := hstore.wellFormed
  rw [ConsensusParams.validate_eq_ok_iff] at hparams
  refine ⟨fun hfits =>
    hwell.exists_requiredBits_eq_ok hlast hparams hrule hfixed hfits time, fun bits hbits => ?_⟩
  have hvalue := hwell.requiredBits_exponential hlast hparams halgorithm hrule hfixed hbits
  split at hvalue
  case h_1 newest earlier rest hblocks =>
    have hbounds := (movedBy newest earlier params).bounds_clampedBits
      (hparams.limitAt_ne_zero kind (newest.height + 1))
    rw [← hvalue] at hbounds
    refine ⟨hbounds.valid, ?_, fun hlimits => ?_⟩
    · rw [hvalue, Target.target_clampedBits_le_iff]
      constructor
      · rintro hwithin _ _ _ hsame
        cases hblocks.symm.trans hsame
        exact hwithin
      · exact fun hwithin => hwithin newest earlier rest hblocks
    · exact Nat.le_trans hbounds.le_limit (hlimits newest (by rw [hblocks]; rfl))
  case h_2 hfew =>
    have hbounds := Target.bounds_toCompact_self (hparams.limitAt_ne_zero kind (last.height + 1))
    rw [← hvalue] at hbounds
    refine ⟨hbounds.valid, iff_of_true hbounds.le_limit ?_, fun _ => hbounds.le_limit⟩
    intro newest earlier rest hblocks
    exact absurd hblocks (hfew newest earlier rest)

/-- Two stake blocks before the limit on stake falls, and two work blocks up to where it has. -/
def acrossTheSwitch (stakeBits : CompactBits) : ChainStore :=
  (ofGenesis (numbered 0 .work 0 0x1f00ffff)).run [
    .push (numbered 1 .stake 150 stakeBits), .push (numbered 2 .stake 300 stakeBits),
    .push (numbered 3 .work 450 0x1f00ffff), .push (numbered 4 .work 600 0x1f00ffff)]

/-- The limit has fallen, but the target was below it and has not moved far. -/
theorem requiredBits_within_new_limit_iff_of_low_target :
    let params := { ConsensusParams.main with algorithm := .exponential, qip9Height := 5 }
    let store := acrossTheSwitch 0x1a00ffff
    params.limitAt .stake 5 < params.limitAt .stake 3 ∧
      ∃ bits, store.requiredBits (some store.tip) 700 params .stake = .ok bits ∧
        bits.decode.isValid = true ∧
        bits.target ≤ params.limitAt .stake (store.tip.height + 1) := by
  intro params store
  have hstore : store.Reachable := ⟨_, _, rfl⟩
  have htip : store.tip ∈ store.records := by decide +kernel
  have hvalid : params.validate = .ok () := by decide
  have hfits : params.ProductsFit .stake := by
    intro height
    have hspacing : params.spacingAt height = 150 := ite_self _
    have htimespan : params.timespanAt height = 960 ∨ params.timespanAt height = 4000 := by
      by_cases hfirst : height < params.qip9Height.toNat
      · exact .inl (if_pos hfirst)
      · exact .inr ((if_neg hfirst).trans (ite_self _))
    unfold FitsAt
    rcases htimespan with htimespan | htimespan
    all_goals
      simp only [hspacing, htimespan]
      split <;> decide
  have hfixed : params.isFixed .stake = false := rfl
  obtain ⟨hsome, hbounds⟩ :=
    requiredBits_within_new_limit_iff hstore htip hvalid rfl rfl hfixed 700
  obtain ⟨bits, hbits⟩ := hsome hfits
  obtain ⟨hbitsValid, hexact, -⟩ := hbounds bits hbits
  refine ⟨by decide, bits, hbits, hbitsValid, hexact.mpr ?_⟩
  intro newest earlier rest hblocks
  have hpair : store.blocksOfKind store.tip .stake =
      [(store.atHeight? 2).getD store.genesis, (store.atHeight? 1).getD store.genesis] := by
    decide +kernel
  cases hpair.symm.trans hblocks
  exact .inr ⟨by decide +kernel, by decide +kernel⟩

/-- The target of the last two stake blocks is far above the limit that has held since. -/
theorem requiredBits_above_new_limit_of_old_target :
    let params := { ConsensusParams.main with algorithm := .exponential, qip9Height := 5 }
    let store := acrossTheSwitch 0x1d00ffff
    params.validate = .ok () ∧ params.allowsMinimumDifficulty = false ∧
      params.isFixed .stake = false ∧ store.Reachable ∧ store.tip ∈ store.records ∧
      store.requiredBits (some store.tip) 700 params .stake = .ok 0x1d00ffff ∧
      params.limitAt .stake (store.tip.height + 1) < CompactBits.target 0x1d00ffff := by
  intro params store
  have hbits : store.requiredBits (some store.tip) 700 params .stake = .ok 0x1d00ffff := by
    decide +kernel
  exact ⟨by decide, rfl, rfl, ⟨_, _, rfl⟩, by decide +kernel, hbits, by decide +kernel⟩

end ChainStore

end HybridConsensus
