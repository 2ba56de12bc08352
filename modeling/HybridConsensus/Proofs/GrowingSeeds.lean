import HybridConsensus.Proofs.BranchGrowth
import HybridConsensus.Proofs.ShallowReorg
import Mathlib.Data.List.Induction

/-!
# Seeds of a growing chain

The policy that trusts a remembered seed by its anchor alone accepts that a reorganisation replaces
the seed block behind its back. A chain that only grows replaces no block, and yet a remembered seed
can be wrong on it. Where the seed block was not there when its window was first asked for, the hash
of genesis was remembered in its place, and it is kept when the block comes. There is no other way:
a remembered seed is stale exactly if its window was asked for too early. The heights that the next
blocks can have are never too early.
-/

namespace HybridConsensus

/-! ### Windows -/

/-- What a remembered seed is found by: the anchor, or zero where there is none. -/
def SeedSchedule.key (schedule : SeedSchedule) (height : Nat) : Nat :=
  (schedule.anchorHeight? height).getD 0

/-- Heights that share a remembered seed have the same seed block. -/
theorem SeedSchedule.seedBlockHeight_congr {schedule : SeedSchedule} {one two : Nat}
    (hkey : schedule.key one = schedule.key two) :
    schedule.seedBlockHeight one = schedule.seedBlockHeight two := by
  rw [seedBlockHeight_eq, seedBlockHeight_eq]
  exact congrArg (· - schedule.seedHeight) hkey

namespace SeedSelector

variable {selector : SeedSelector} {store : ChainStore} {height : Nat} {cached : CachedSeed}

theorem seedFor_of_remembered (hpolicy : selector.policy = .heightWindow)
    (hcached : selector.cached = some cached)
    (hkey : cached.anchor = selector.schedule.key height) :
    selector.seedFor store height = (cached.hash, selector) := by
  have htrusts : selector.trusts store cached = true := by
    unfold trusts
    rw [hpolicy]
  unfold seedFor
  rw [hcached]
  exact if_pos ⟨hkey, htrusts⟩

/-- A selector that has been asked remembers a seed for what it was asked for. -/
theorem exists_cached_seedFor (selector : SeedSelector) (store : ChainStore) (height : Nat) :
    ∃ cached, (selector.seedFor store height).2.cached = some cached ∧
      cached.anchor = selector.schedule.key height := by
  rcases selector.seedFor_cases store height with ⟨cached, hcached, hkey, -, hseed⟩ | hseed
  · exact ⟨cached, by rw [hseed, hcached], hkey⟩
  · exact ⟨_, by rw [hseed], rfl⟩

/-- One seed is selected for all heights that share a remembered one. -/
theorem hash_select_of_key_eq (selector : SeedSelector) (store : ChainStore) {one two : Nat}
    (hkey : selector.schedule.key one = selector.schedule.key two) :
    (selector.select store one).hash = (selector.select store two).hash := by
  rw [hash_select, hash_select, SeedSchedule.seedBlockHeight_congr hkey]

/-! Where the seed block is not active, genesis is selected, and its hash is no other block's. -/

theorem hash_select_of_lt (hwell : store.WellFormed) (selector : SeedSelector)
    (hlt : store.tip.height < selector.schedule.seedBlockHeight height) :
    (selector.select store height).hash = store.genesis.hash := by
  have hnone : store.atHeight? (selector.schedule.seedBlockHeight height) = none :=
    ChainStore.atHeight?_eq_none (by rw [hwell.active_size]; omega)
  rw [hash_select, hnone]
  rfl

theorem exists_hash_select_of_le (hwell : store.WellFormed) (selector : SeedSelector)
    (hle : selector.schedule.seedBlockHeight height ≤ store.tip.height) :
    ∃ seed ∈ store.records, store.atHeight? (selector.schedule.seedBlockHeight height) = some seed ∧
      seed.height = selector.schedule.seedBlockHeight height ∧
      (selector.select store height).hash = seed.hash := by
  have hlt : selector.schedule.seedBlockHeight height < store.active.size := by
    rw [hwell.active_size]
    omega
  obtain ⟨seed, hmem, hseed, hheight, -⟩ := hwell.exists_atHeight? hlt
  refine ⟨seed, hmem, hseed, hheight, ?_⟩
  rw [hash_select, hseed]
  rfl

/-- Growth changes what is selected only where it brings the seed block. -/
theorem hash_select_eq_of_grows {older newer : ChainStore} (holder : older.WellFormed)
    (hnewer : newer.WellFormed) (hgrows : older.Grows newer) (selector : SeedSelector)
    (hsame : selector.schedule.seedBlockHeight height ≤ older.tip.height ∨
      newer.tip.height < selector.schedule.seedBlockHeight height) :
    (selector.select older height).hash = (selector.select newer height).hash := by
  rcases hsame with hle | hlt
  · obtain ⟨seed, -, hseed, -, hhash⟩ := exists_hash_select_of_le holder selector hle
    rw [hhash, hash_select, hgrows _ _ hseed]
    rfl
  · have hlower := hgrows.tip_height_le holder hnewer
    rw [hash_select_of_lt hnewer selector hlt, hash_select_of_lt holder selector (by omega),
      hgrows.genesis_eq holder hnewer]

/-- A seed block that is active and not genesis has not the hash of genesis. -/
theorem hash_select_ne_genesis (hwell : store.WellFormed) (selector : SeedSelector)
    (hpos : 0 < selector.schedule.seedBlockHeight height)
    (hle : selector.schedule.seedBlockHeight height ≤ store.tip.height) :
    (selector.select store height).hash ≠ store.genesis.hash := by
  obtain ⟨seed, hmem, -, hheight, hhash⟩ := exists_hash_select_of_le hwell selector hle
  intro hsame
  have hgenesis := ChainStore.mem_of_getElem?_id store.getElem?_zero
  have heq := hwell.eq_of_hash_eq hmem hgenesis (hhash.symm.trans hsame)
  rw [hwell.rooted.eq_genesis_iff hmem] at heq
  omega

end SeedSelector

/-- Whether a command puts a block on the tip, takes one in elsewhere, or asks for a seed. -/
def SeedCommand.grows : SeedCommand → Bool
  | .chain (.insert _ _) | .chain (.push _) | .lookUp _ => true
  | .chain (.activate _) | .forget => false

namespace SeededChain

variable {params : ConsensusParams} {policy : SeedCachePolicy} {genesis : BlockHeader}
  {chain : SeededChain} {command : SeedCommand} {commands earlier later : List SeedCommand}
  {cached : CachedSeed} {height : Nat}

/-! ### Runs -/

theorem run_append (chain : SeededChain) (earlier later : List SeedCommand) :
    chain.run (earlier ++ later) = (chain.run earlier).run later :=
  List.foldl_append

theorem wellFormed_apply (h : chain.store.WellFormed) (command : SeedCommand) :
    (chain.apply command).store.WellFormed := by
  cases command with
  | chain command => exact h.apply command
  | lookUp height => exact h
  | forget => exact h

theorem wellFormed_run (h : chain.store.WellFormed) (commands : List SeedCommand) :
    (chain.run commands).store.WellFormed := by
  induction commands generalizing chain with
  | nil => exact h
  | cons command commands ih => exact ih (wellFormed_apply h command)

theorem grows_apply (h : chain.store.WellFormed) (hgrows : command.grows = true) :
    chain.store.Grows (chain.apply command).store := by
  cases command with
  | chain command =>
    cases command with
    | insert parent header => exact chain.store.grows_insert parent header
    | push header => exact h.grows_push header
    | activate hash => cases hgrows
  | lookUp height => exact ChainStore.Grows.refl chain.store
  | forget => exact ChainStore.Grows.refl chain.store

theorem grows_run (h : chain.store.WellFormed)
    (hgrows : ∀ command ∈ commands, command.grows = true) :
    chain.store.Grows (chain.run commands).store := by
  induction commands generalizing chain with
  | nil => exact ChainStore.Grows.refl chain.store
  | cons command commands ih =>
    have hfirst := grows_apply h (hgrows command List.mem_cons_self)
    refine hfirst.trans (ih (wellFormed_apply h command) ?_)
    intro other hother
    exact hgrows other (List.mem_cons_of_mem _ hother)

/-! ### What is remembered

A remembered seed was selected at some lookup, and since then only its window has been asked for. -/

theorem exists_lookUp_of_cached (params : ConsensusParams) (policy : SeedCachePolicy)
    (genesis : BlockHeader)
    (hcached : ((start params policy genesis).run commands).selector.cached = some cached) :
    ∃ earlier asked later, commands = earlier ++ .lookUp asked :: later ∧
      cached = (SeedSelector.ofParams params policy).select
        ((start params policy genesis).run earlier).store asked ∧
      ∀ other, .lookUp other ∈ later →
        (SeedSchedule.ofParams params).key other = cached.anchor := by
  induction commands using List.reverseRecOn with
  | nil => cases hcached
  | append_singleton commands command ih =>
    have hkept := (kept_start params policy genesis).run commands
    rw [run_append] at hcached
    cases command with
    | chain command =>
      obtain ⟨earlier, asked, later, rfl, hselected, hlater⟩ := ih hcached
      refine ⟨earlier, asked, later ++ [.chain command], by simp, hselected, ?_⟩
      intro other hother
      exact hlater other (by simpa using hother)
    | lookUp height =>
      have hschedule : ((start params policy genesis).run commands).selector.schedule =
          (SeedSelector.ofParams params policy).schedule := hkept.schedule
      change (SeedSelector.seedFor _ _ height).2.cached = some cached at hcached
      rcases SeedSelector.seedFor_cases ((start params policy genesis).run commands).selector
          ((start params policy genesis).run commands).store height with
        ⟨found, hfound, hkey, -, hseed⟩ | hseed
      · rw [hseed, hfound] at hcached
        cases hcached
        obtain ⟨earlier, asked, later, rfl, hselected, hlater⟩ := ih hfound
        refine ⟨earlier, asked, later ++ [.lookUp height], by simp, hselected, ?_⟩
        intro other hother
        rw [List.mem_append, List.mem_singleton] at hother
        rcases hother with hother | hother
        · exact hlater other hother
        · cases hother
          rw [hkey, SeedSelector.select_congr hschedule]
          rfl
      · rw [hseed, Option.some.injEq] at hcached
        refine ⟨commands, height, [], rfl, ?_, fun _ hnone => nomatch hnone⟩
        rw [← hcached, SeedSelector.select_congr hschedule]
    | forget => cases hcached

/-- While only its window is asked for, a remembered seed is kept. -/
theorem Kept.cached_run (h : Kept params .heightWindow chain.selector)
    (hgrows : ∀ command ∈ commands, command.grows = true)
    (hcached : chain.selector.cached = some cached)
    (hwindow : ∀ other, .lookUp other ∈ commands →
      (SeedSchedule.ofParams params).key other = cached.anchor) :
    (chain.run commands).selector.cached = some cached := by
  induction commands generalizing chain with
  | nil => exact hcached
  | cons command commands ih =>
    refine ih (h.apply command)
      (fun other hother => hgrows other (List.mem_cons_of_mem _ hother)) ?_
      (fun other hother => hwindow other (List.mem_cons_of_mem _ hother))
    cases command with
    | chain command => exact hcached
    | lookUp height =>
      have hkey : cached.anchor = chain.selector.schedule.key height := by
        rw [h.schedule]
        exact (hwindow height List.mem_cons_self).symm
      change (chain.selector.seedFor chain.store height).2.cached = some cached
      rw [SeedSelector.seedFor_of_remembered h.policy hcached hkey, hcached]
    | forget => cases hgrows .forget List.mem_cons_self

/-! ### Stale seeds -/

/-- The window of `height` was asked for before its seed block was active, no other window has been
asked for since, and by now the seed block is there. -/
def AskedTooEarly (params : ConsensusParams) (genesis : BlockHeader) (commands : List SeedCommand)
    (height : Nat) : Prop :=
  let schedule := SeedSchedule.ofParams params
  let origin := start params .heightWindow genesis
  ∃ earlier asked later, commands = earlier ++ .lookUp asked :: later ∧
    schedule.key asked = schedule.key height ∧
    (∀ other, .lookUp other ∈ later → schedule.key other = schedule.key height) ∧
    (origin.run earlier).store.tip.height < schedule.seedBlockHeight height ∧
    schedule.seedBlockHeight height ≤ (origin.run commands).store.tip.height

section Growing

variable (hgrows : ∀ command ∈ commands, command.grows = true)

include hgrows

theorem grows_of_eq_append (params : ConsensusParams) (policy : SeedCachePolicy)
    (genesis : BlockHeader) (hsplit : commands = earlier ++ later) :
    ((start params policy genesis).run earlier).store.Grows
      ((start params policy genesis).run commands).store := by
  rw [hsplit, run_append]
  refine grows_run (wellFormed_run (ChainStore.wellFormed_ofGenesis genesis) earlier) ?_
  intro command hcommand
  exact hgrows command (hsplit ▸ List.mem_append_right _ hcommand)

theorem genesis_hash_run (params : ConsensusParams) (policy : SeedCachePolicy)
    (genesis : BlockHeader) :
    ((start params policy genesis).run commands).store.genesis.hash = genesis.hash := by
  have hwell := ChainStore.wellFormed_ofGenesis genesis
  have hkept := grows_of_eq_append hgrows params policy genesis (List.nil_append commands).symm
  have hsame := hkept.genesis_eq hwell (wellFormed_run hwell commands)
  rw [hsame]
  rfl

/-- Where no window was asked for too early, what is remembered is what would be selected. -/
theorem seedFor_eq_anew (params : ConsensusParams) (genesis : BlockHeader)
    (hfound : ¬AskedTooEarly params genesis commands height) :
    let chain := (start params .heightWindow genesis).run commands
    (chain.selector.seedFor chain.store height).1 =
      ((SeedSelector.ofParams params .heightWindow).select chain.store height).hash := by
  intro chain
  have hkept : Kept params .heightWindow chain.selector :=
    (kept_start params .heightWindow genesis).run commands
  have hschedule : chain.selector.schedule =
      (SeedSelector.ofParams params .heightWindow).schedule := hkept.schedule
  rcases chain.selector.seedFor_cases chain.store height with
    ⟨cached, hcached, hkey, -, hseed⟩ | hseed
  · obtain ⟨earlier, asked, later, hsplit, hselected, hlater⟩ :=
      exists_lookUp_of_cached params .heightWindow genesis hcached
    rw [SeedSelector.select_congr hschedule] at hkey
    have hasked : (SeedSchedule.ofParams params).key asked =
        (SeedSchedule.ofParams params).key height := by
      rw [hselected] at hkey
      exact hkey
    have hblock := SeedSchedule.seedBlockHeight_congr hasked
    -- The lookup that the seed was selected at either found the block, or there is none yet.
    have hsame : (SeedSchedule.ofParams params).seedBlockHeight asked ≤
          ((start params .heightWindow genesis).run earlier).store.tip.height ∨
        chain.store.tip.height < (SeedSchedule.ofParams params).seedBlockHeight asked := by
      by_contra hboth
      rw [not_or, Nat.not_le, Nat.not_lt, hblock] at hboth
      exact hfound ⟨earlier, asked, later, hsplit, hasked,
        fun other hother => (hlater other hother).trans hkey, hboth⟩
    have hwell := ChainStore.wellFormed_ofGenesis genesis
    rw [hseed, hselected]
    calc ((SeedSelector.ofParams params .heightWindow).select
            ((start params .heightWindow genesis).run earlier).store asked).hash
        = ((SeedSelector.ofParams params .heightWindow).select chain.store asked).hash :=
          SeedSelector.hash_select_eq_of_grows (wellFormed_run hwell earlier)
            (wellFormed_run hwell commands)
            (grows_of_eq_append hgrows params .heightWindow genesis hsplit) _ hsame
      _ = ((SeedSelector.ofParams params .heightWindow).select chain.store height).hash :=
          SeedSelector.hash_select_of_key_eq _ _ hasked
  · rw [hseed, SeedSelector.select_congr hschedule]

/-- What is remembered while the seed block is not there is the hash of genesis. -/
theorem hash_eq_genesis_of_cached
    (hcached : ((start params policy genesis).run commands).selector.cached = some cached)
    (hkey : cached.anchor = (SeedSchedule.ofParams params).key height)
    (hlt : ((start params policy genesis).run commands).store.tip.height <
      (SeedSchedule.ofParams params).seedBlockHeight height) : cached.hash = genesis.hash := by
  obtain ⟨earlier, asked, later, hsplit, rfl, -⟩ :=
    exists_lookUp_of_cached params policy genesis hcached
  have hwell := ChainStore.wellFormed_ofGenesis genesis
  have hearlier : ((start params policy genesis).run earlier).store.WellFormed :=
    wellFormed_run hwell earlier
  have hgrown := grows_of_eq_append hgrows params policy genesis hsplit
  have hlower := hgrown.tip_height_le hearlier (wellFormed_run hwell commands)
  have hblock : (SeedSchedule.ofParams params).seedBlockHeight asked =
      (SeedSchedule.ofParams params).seedBlockHeight height :=
    SeedSchedule.seedBlockHeight_congr hkey
  have hhash := SeedSelector.hash_select_of_lt hearlier (SeedSelector.ofParams params policy)
    (Nat.lt_of_le_of_lt hlower (hblock ▸ hlt))
  rw [hhash, ← hgrown.genesis_eq hearlier (wellFormed_run hwell commands),
    genesis_hash_run hgrows]

/-- Where a window was asked for too early, the hash of genesis is given. -/
theorem seedFor_eq_genesis (hearly : AskedTooEarly params genesis commands height) :
    let chain := (start params .heightWindow genesis).run commands
    (chain.selector.seedFor chain.store height).1 = genesis.hash := by
  intro chain
  obtain ⟨earlier, asked, later, rfl, hasked, hlater, hbelow, -⟩ := hearly
  have hpast : Kept params .heightWindow
      ((start params .heightWindow genesis).run earlier).selector :=
    (kept_start params .heightWindow genesis).run earlier
  have hsplit : (start params .heightWindow genesis).run (earlier ++ [.lookUp asked]) =
      ((start params .heightWindow genesis).run earlier).apply (.lookUp asked) :=
    run_append _ _ _
  have hrest : chain =
      (((start params .heightWindow genesis).run earlier).apply (.lookUp asked)).run later :=
    run_append _ _ _
  obtain ⟨cached, hcached, hkey⟩ := SeedSelector.exists_cached_seedFor
    ((start params .heightWindow genesis).run earlier).selector
    ((start params .heightWindow genesis).run earlier).store asked
  rw [hpast.schedule, hasked] at hkey
  have hgrowsPast : ∀ command ∈ earlier ++ [.lookUp asked], command.grows = true := by
    intro command hcommand
    rw [List.mem_append, List.mem_singleton] at hcommand
    rcases hcommand with hcommand | rfl
    · exact hgrows command (List.mem_append_left _ hcommand)
    · rfl
  have hgenesis : cached.hash = genesis.hash :=
    hash_eq_genesis_of_cached hgrowsPast (by rwa [hsplit]) hkey (by rwa [hsplit])
  -- Since then only this window has been asked for.
  have hnow : chain.selector.cached = some cached := by
    rw [hrest]
    refine (hpast.apply (.lookUp asked)).cached_run ?_ hcached ?_
    · exact fun command hcommand => hgrows command (by simp [hcommand])
    · exact fun other hother => (hlater other hother).trans hkey.symm
  have hkept : Kept params .heightWindow chain.selector :=
    (kept_start params .heightWindow genesis).run _
  rw [SeedSelector.seedFor_of_remembered hkept.policy hnow (by rw [hkept.schedule, hkey]), hgenesis]

end Growing

/-- **When a seed is stale on a growing chain.** While blocks are only taken in and put on the tip,
a selector that trusts a remembered seed by its anchor gives the seed a new one would give, unless
the window was asked for too early: then it gives the hash of genesis, which is another. -/
theorem seedFor_eq_anew_iff (params : ConsensusParams) (genesis : BlockHeader)
    (commands : List SeedCommand) (hgrows : ∀ command ∈ commands, command.grows = true)
    (height : Nat) :
    let chain := (start params .heightWindow genesis).run commands
    let fresh := SeedSelector.ofParams params .heightWindow
    ((chain.selector.seedFor chain.store height).1 = (fresh.seedFor chain.store height).1 ↔
      ¬AskedTooEarly params genesis commands height) ∧
    (AskedTooEarly params genesis commands height →
      (chain.selector.seedFor chain.store height).1 = genesis.hash) := by
  intro chain fresh
  have hanew : (fresh.seedFor chain.store height).1 = (fresh.select chain.store height).hash := rfl
  refine ⟨⟨?_, ?_⟩, seedFor_eq_genesis hgrows⟩
  · intro hsame hearly
    have hwell : chain.store.WellFormed :=
      wellFormed_run (ChainStore.wellFormed_ofGenesis genesis) commands
    obtain ⟨earlier, asked, later, -, -, -, hbelow, hthere⟩ := id hearly
    have hother := SeedSelector.hash_select_ne_genesis hwell fresh (Nat.zero_lt_of_lt hbelow) hthere
    rw [genesis_hash_run hgrows, ← hanew, ← hsame] at hother
    exact hother (seedFor_eq_genesis hgrows hearly)
  · intro hfound
    rw [hanew]
    exact seedFor_eq_anew hgrows params genesis hfound

/-- Seed blocks lie two blocks below the start of a window of four. -/
def nearSeeds : ConsensusParams :=
  { ConsensusParams.main with seedHeight := 2, seedInterval := 4 }

/-- The window is asked for once its seed block is there, and again, for a later height, when the
chain has grown. -/
theorem seedFor_eq_anew_iff_of_late_lookUp :
    let genesis := ChainStore.numbered 0 .work 0 0x1f00ffff
    let commands := [.chain (.push (ChainStore.numbered 1 .work 150 0x1f00ffff)),
      .chain (.push (ChainStore.numbered 2 .work 300 0x1f00ffff)), .lookUp 7,
      .chain (.push (ChainStore.numbered 3 .work 450 0x1f00ffff))]
    let chain := (start nearSeeds .heightWindow genesis).run commands
    (∀ command ∈ commands, command.grows = true) ∧
      chain.selector.cached.map (·.height) = some 2 ∧
      (chain.selector.seedFor chain.store 10).1 =
        ((SeedSelector.ofParams nearSeeds .heightWindow).seedFor chain.store 10).1 := by
  intro genesis commands chain
  have hgrows : ∀ command ∈ commands, command.grows = true := by decide
  refine ⟨hgrows, by decide +kernel, ?_⟩
  refine (seedFor_eq_anew_iff nearSeeds genesis commands hgrows 10).1.mpr ?_
  rintro ⟨earlier, asked, later, hsplit, -, -, hbelow, -⟩
  -- There is one lookup in the run.
  have hearlier : earlier = commands.take 2 := by
    rcases earlier with _ | ⟨first, _ | ⟨second, _ | ⟨third, _ | ⟨fourth, rest⟩⟩⟩⟩ <;>
      simp_all [commands]
  rw [hearlier] at hbelow
  exact absurd hbelow (by decide +kernel)

/-- The seed block is pushed right after its window was asked for, and genesis is given for it. -/
theorem seedFor_stale_of_early_lookUp :
    let genesis := ChainStore.numbered 0 .work 0 0x1f00ffff
    let second := ChainStore.numbered 2 .work 300 0x1f00ffff
    let commands := [.chain (.push (ChainStore.numbered 1 .work 150 0x1f00ffff)), .lookUp 7,
      .chain (.push second)]
    let chain := (start nearSeeds .heightWindow genesis).run commands
    (∀ command ∈ commands, command.grows = true) ∧ chain.store.tip.height = 2 ∧
      (chain.selector.seedFor chain.store 7).1 = genesis.hash ∧
      ((SeedSelector.ofParams nearSeeds .heightWindow).seedFor chain.store 7).1 = second.hash ∧
      genesis.hash ≠ second.hash := by
  intro genesis second commands chain
  exact ⟨by decide, by decide +kernel, by decide +kernel, by decide +kernel, by decide +kernel⟩

/-- A selector that is only asked for heights that the next blocks can have, or little further
ahead, is never stale. -/
theorem seedFor_eq_anew_of_near_lookUps (params : ConsensusParams) (genesis : BlockHeader)
    (commands : List SeedCommand) (hgrows : ∀ command ∈ commands, command.grows = true)
    (hnear : ∀ earlier asked later, commands = earlier ++ .lookUp asked :: later →
      asked ≤ ((start params .heightWindow genesis).run earlier).store.tip.height +
        (SeedSchedule.ofParams params).seedHeight + (SeedSchedule.ofParams params).switchOffset + 1)
    (height : Nat) :
    let chain := (start params .heightWindow genesis).run commands
    (chain.selector.seedFor chain.store height).1 =
      ((SeedSelector.ofParams params .heightWindow).select chain.store height).hash := by
  refine seedFor_eq_anew hgrows params genesis ?_
  rintro ⟨earlier, asked, later, hsplit, hasked, -, hbelow, -⟩
  have hlimit := hnear earlier asked later hsplit
  have hpos := SeedSchedule.interval_ofParams_pos params
  rw [← SeedSchedule.seedBlockHeight_congr hasked] at hbelow
  have hblock := (SeedSchedule.ofParams params).seedBlockHeight_below hpos asked
  rcases hblock with hzero | hdeep <;> omega

end SeededChain

end HybridConsensus
