import HybridConsensus.SeededChain
import HybridConsensus.Proofs.Forks
import HybridConsensus.Proofs.SeedWindows

/-!
# Seeds and shallow reorganisations

A seed block lies so far below the height it seeds that a reorganisation has to be deep to replace
it. How deep follows from the window alone: unless genesis is the seed block, it lies at least the
seed height and the switch offset and one block further down. A selector that has been asked before
gives the same seed, whatever it remembers, because a remembered seed is only trusted while its
block is active. That also holds of the hash of genesis remembered in place of a seed block that had
not been there yet.
-/

namespace HybridConsensus

theorem SeedSchedule.interval_ofParams_pos (params : ConsensusParams) :
    0 < (SeedSchedule.ofParams params).interval :=
  Nat.lt_of_lt_of_le Nat.zero_lt_one (Nat.le_max_right _ _)

/-- How far a seed block lies below the height it seeds. -/
theorem SeedSchedule.seedBlockHeight_below (schedule : SeedSchedule) (hpos : 0 < schedule.interval)
    (height : Nat) :
    schedule.seedBlockHeight height = 0 ∨
      schedule.seedBlockHeight height + schedule.seedHeight + schedule.switchOffset + 1 ≤
        height := by
  rw [seedBlockHeight_eq_windowBelow hpos]
  by_cases habove : schedule.switchOffset < height
  · have hbelow := windowBelow_lt habove
    omega
  · simp [windowBelow, Nat.sub_eq_zero_of_le (Nat.not_lt.mp habove)]

namespace SeededChain

variable {params : ConsensusParams} {policy : SeedCachePolicy} {chain : SeededChain}

/-- What no command changes of a selector, and what each keeps of its memory. -/
structure Kept (params : ConsensusParams) (policy : SeedCachePolicy) (selector : SeedSelector) :
    Prop where
  schedule : selector.schedule = .ofParams params
  policy : selector.policy = policy
  placed : selector.Placed

theorem kept_start (params : ConsensusParams) (policy : SeedCachePolicy) (genesis : BlockHeader) :
    Kept params policy (start params policy genesis).selector :=
  ⟨rfl, rfl, SeedSelector.placed_ofParams params policy⟩

theorem Kept.seedFor {selector : SeedSelector} (h : Kept params policy selector)
    (store : ChainStore) (height : Nat) : Kept params policy (selector.seedFor store height).2 :=
  ⟨(selector.seedFor_schedule store height).trans h.schedule,
    (selector.seedFor_policy store height).trans h.policy, h.placed.seedFor store height⟩

theorem Kept.apply (h : Kept params policy chain.selector) (command : SeedCommand) :
    Kept params policy (chain.apply command).selector := by
  cases command with
  | chain command => exact h
  | lookUp height => exact h.seedFor chain.store height
  | forget => exact ⟨h.schedule, h.policy, SeedSelector.placed_forget chain.selector⟩

theorem Kept.run (h : Kept params policy chain.selector) (commands : List SeedCommand) :
    Kept params policy (chain.run commands).selector := by
  induction commands generalizing chain with
  | nil => exact h
  | cons command commands ih => exact ih (h.apply command)

/-- Where the seed block is there, its hash is the answer, whatever is remembered. -/
theorem Kept.seedFor_eq_hash {selector : SeedSelector} {store : ChainStore} {seed : BlockRecord}
    {height : Nat} (h : Kept params .blockIdentity selector)
    (hseed : store.atHeight? ((SeedSchedule.ofParams params).seedBlockHeight height) = some seed) :
    (selector.seedFor store height).1 = seed.hash := by
  rw [h.placed.seedFor_eq h.policy, SeedSelector.hash_select, h.schedule, hseed]
  rfl

/-- **A shallow reorganisation leaves the seed.** The two branches have a fork. Where it lies no
further below a height than its seed block can at the least, the same seed block is active before
and after, and every selector gives its hash: one that has been used in any way before, on this
chain or another, and one that has been asked for this seed right before the reorganisation. -/
theorem seedFor_eq_of_shallow_reorg (params : ConsensusParams) (genesis : BlockHeader)
    (commands : List SeedCommand) {store : ChainStore} (hreachable : store.Reachable)
    {block : BlockRecord} (hmem : block ∈ store.records) (height : Nat) :
    let selector := ((start params .blockIdentity genesis).run commands).selector
    let schedule := SeedSchedule.ofParams params
    let moved := (store.activate block.hash).1
    (∃ fork, store.IsFork store.tip block fork) ∧
      ∀ fork, store.IsFork store.tip block fork →
        (height : Int) - schedule.seedHeight - schedule.switchOffset - 1 ≤ fork.height →
          ∃ seed, store.atHeight? (schedule.seedBlockHeight height) = some seed ∧
            moved.atHeight? (schedule.seedBlockHeight height) = some seed ∧
            (selector.seedFor store height).1 = seed.hash ∧
            (selector.seedFor moved height).1 = seed.hash ∧
            ((selector.seedFor store height).2.seedFor moved height).1 = seed.hash := by
  intro selector schedule moved
  have hwell := hreachable.wellFormed
  have hkept : Kept params .blockIdentity selector :=
    (kept_start params .blockIdentity genesis).run commands
  refine ⟨hwell.rooted.exists_isFork hwell.tip_mem_and_isActive.1 hmem, ?_⟩
  intro fork hfork hshallow
  have hle : schedule.seedBlockHeight height ≤ fork.height := by
    have hpos := SeedSchedule.interval_ofParams_pos params
    rcases schedule.seedBlockHeight_below hpos height with hzero | hbelow <;> omega
  obtain ⟨seed, hbefore, hafter⟩ := hwell.atHeight?_activate hmem hfork hle
  exact ⟨seed, hbefore, hafter, hkept.seedFor_eq_hash hbefore, hkept.seedFor_eq_hash hafter,
    (hkept.seedFor store height).seedFor_eq_hash hafter⟩

/-- Three blocks on genesis, and one beside the last of them. -/
def besideTheTip : List ChainCommand := [
  .push (ChainStore.numbered 1 .work 150 0x1f00ffff),
  .push (ChainStore.numbered 2 .work 300 0x1f00ffff),
  .push (ChainStore.numbered 3 .work 450 0x1f00ffff),
  .insert (ChainStore.numbered 2 .work 0 0).hash (ChainStore.numbered 4 .stake 460 0x1d00ffff)]

/-- The fork is as deep as it may be, and the hash of genesis is remembered for a seed block that
came later. -/
theorem seedFor_eq_of_shallow_reorg_of_fallback :
    let params := { ConsensusParams.main with seedHeight := 2, seedInterval := 4 }
    let genesis := ChainStore.numbered 0 .work 0 0x1f00ffff
    let selector := ((start params .blockIdentity genesis).run
      [.chain (.push (ChainStore.numbered 1 .work 150 0x1f00ffff)), .lookUp 7]).selector
    let store := (ChainStore.ofGenesis genesis).run besideTheTip
    let moved := (store.activate (ChainStore.numbered 4 .work 0 0).hash).1
    selector.cached = some { anchor := 4, height := 2, hash := genesis.hash } ∧
      store.tip.height = 3 ∧ moved.tip.height = 3 ∧ store.tip.hash ≠ moved.tip.hash ∧
      (selector.seedFor store 7).1 = (ChainStore.numbered 2 .work 0 0).hash ∧
      (selector.seedFor moved 7).1 = (ChainStore.numbered 2 .work 0 0).hash := by
  intro params genesis selector store moved
  have hreachable : store.Reachable := ⟨genesis, besideTheTip, rfl⟩
  let fork : BlockRecord := { ChainStore.numbered 2 .work 300 0x1f00ffff with
    id := 2, height := 2, parent := some 1 }
  let block : BlockRecord := { ChainStore.numbered 4 .stake 460 0x1d00ffff with
    id := 4, height := 3, parent := some 2 }
  have hmem : block ∈ store.records := by decide +kernel
  have hfork : store.IsFork store.tip block fork :=
    ⟨by decide +kernel, by decide +kernel, by decide +kernel⟩
  have hseed : store.atHeight? ((SeedSchedule.ofParams params).seedBlockHeight 7) = some fork := by
    decide +kernel
  obtain ⟨-, hsame⟩ := seedFor_eq_of_shallow_reorg params genesis
    [.chain (.push (ChainStore.numbered 1 .work 150 0x1f00ffff)), .lookUp 7] hreachable hmem 7
  obtain ⟨seed, hbefore, -, hfirst, hsecond, -⟩ := hsame fork hfork (by decide +kernel)
  have heq : seed = fork := Option.some.inj (hbefore.symm.trans hseed)
  rw [heq] at hfirst hsecond
  exact ⟨by decide +kernel, by decide +kernel, by decide +kernel, by decide +kernel, hfirst,
    hsecond⟩

end SeededChain

end HybridConsensus
