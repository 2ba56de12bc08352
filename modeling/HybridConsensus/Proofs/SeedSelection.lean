import HybridConsensus.Seed
import HybridConsensus.Proofs.Descent

/-!
# Remembered seeds

What a selector remembers is found again by its anchor, although the seed was taken from a height.
That is sound because the anchor alone gives the height, also where there is no anchor and zero
stands in for it. So under the policy that looks at the block, a selector that remembers a seed
gives the one it would select now.
-/

namespace HybridConsensus

theorem SeedSchedule.seedBlockHeight_eq (schedule : SeedSchedule) (height : Nat) :
    schedule.seedBlockHeight height =
      (schedule.anchorHeight? height).getD 0 - schedule.seedHeight := by
  unfold seedBlockHeight
  cases schedule.anchorHeight? height with
  | none => exact (Nat.zero_sub _).symm
  | some anchor => rfl

namespace SeedSelector

variable {selector other : SeedSelector} {store : ChainStore} {height : Nat}

/-- The remembered seed was taken from the height that its anchor gives. -/
def Placed (selector : SeedSelector) : Prop :=
  ∀ cached ∈ selector.cached, cached.height = cached.anchor - selector.schedule.seedHeight

theorem placed_ofParams (params : ConsensusParams) (policy : SeedCachePolicy) :
    (ofParams params policy).Placed :=
  fun _ hnone => nomatch hnone

theorem placed_forget (selector : SeedSelector) : selector.forget.Placed :=
  fun _ hnone => nomatch hnone

/-- A seed is given from memory or selected, and what is selected is remembered. -/
theorem seedFor_cases (selector : SeedSelector) (store : ChainStore) (height : Nat) :
    (∃ cached, selector.cached = some cached ∧
      cached.anchor = (selector.select store height).anchor ∧ selector.trusts store cached = true ∧
      selector.seedFor store height = (cached.hash, selector)) ∨
    selector.seedFor store height = ((selector.select store height).hash,
      { selector with cached := some (selector.select store height) }) := by
  unfold seedFor
  cases hcached : selector.cached with
  | none => exact .inr rfl
  | some cached =>
    by_cases htrusted : cached.anchor = (selector.select store height).anchor ∧
        selector.trusts store cached = true
    · exact .inl ⟨cached, rfl, htrusted.1, htrusted.2, if_pos htrusted⟩
    · exact .inr (if_neg htrusted)

@[simp]
theorem seedFor_schedule (selector : SeedSelector) (store : ChainStore) (height : Nat) :
    (selector.seedFor store height).2.schedule = selector.schedule := by
  rcases selector.seedFor_cases store height with ⟨cached, -, -, -, hseed⟩ | hseed <;> rw [hseed]

@[simp]
theorem seedFor_policy (selector : SeedSelector) (store : ChainStore) (height : Nat) :
    (selector.seedFor store height).2.policy = selector.policy := by
  rcases selector.seedFor_cases store height with ⟨cached, -, -, -, hseed⟩ | hseed <;> rw [hseed]

theorem Placed.seedFor (h : selector.Placed) (store : ChainStore) (height : Nat) :
    (selector.seedFor store height).2.Placed := by
  rcases selector.seedFor_cases store height with ⟨cached, -, -, -, hseed⟩ | hseed
  · rwa [hseed]
  · rw [hseed]
    rintro _ ⟨⟩
    exact selector.schedule.seedBlockHeight_eq height

/-- A remembered seed with the anchor of `height` was taken from the height that seeds `height`. -/
theorem Placed.height_eq (h : selector.Placed) {cached : CachedSeed}
    (hcached : selector.cached = some cached)
    (hanchor : cached.anchor = (selector.select store height).anchor) :
    cached.height = selector.schedule.seedBlockHeight height := by
  rw [h cached hcached, hanchor, SeedSchedule.seedBlockHeight_eq]
  rfl

theorem trusts_blockIdentity (hpolicy : selector.policy = .blockIdentity) {cached : CachedSeed} :
    selector.trusts store cached = true ↔
      (store.atHeight? cached.height).map (·.hash) = some cached.hash := by
  simp only [trusts, hpolicy, beq_iff_eq]

/-- **A selector gives the seed of the active branch.** Under the policy that looks at the block, it
does so from memory as well. -/
theorem Placed.seedFor_eq (h : selector.Placed) (hpolicy : selector.policy = .blockIdentity)
    (store : ChainStore) (height : Nat) :
    (selector.seedFor store height).1 = (selector.select store height).hash := by
  rcases selector.seedFor_cases store height with ⟨cached, hcached, hanchor, htrusts, hseed⟩ | hseed
  · -- What is trusted is the active hash at the height it was taken from, which is this seed's.
    rw [trusts_blockIdentity hpolicy, h.height_eq hcached hanchor] at htrusts
    obtain ⟨block, hblock, hhash⟩ := Option.map_eq_some_iff.mp htrusts
    rw [hseed, select]
    simp only [hblock, Option.getD_some]
    exact hhash.symm
  · rw [hseed]

/-- Only the schedule decides what is selected. -/
theorem select_congr (hschedule : selector.schedule = other.schedule) (store : ChainStore)
    (height : Nat) : selector.select store height = other.select store height := by
  unfold select
  rw [hschedule]

theorem hash_select (selector : SeedSelector) (store : ChainStore) (height : Nat) :
    (selector.select store height).hash =
      ((store.atHeight? (selector.schedule.seedBlockHeight height)).map (·.hash)).getD
        store.genesis.hash :=
  (Option.getD_map (fun block : BlockRecord => block.hash) _ _).symm

end SeedSelector

end HybridConsensus
