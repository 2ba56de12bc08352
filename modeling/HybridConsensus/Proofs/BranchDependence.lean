import HybridConsensus.Proofs.KindIndependence

/-!
# The branch below a block decides what it asks for

Two nodes can hold the same branch under other places, beside other branches and with another tip.
The required bits on top of a block must not show it. Each rule reads the lineage of the block, and
of a block in it only its kind, time and bits, its height, and whether it is genesis, which is what
remains when a record forgets the names it has in its own store.
-/

namespace HybridConsensus

/-- The block without its hash and without its place and that of its parent. -/
def BlockRecord.nameless (block : BlockRecord) : BlockRecord :=
  { block with hash := .zero, id := 0, parent := block.parent.map fun _ => 0 }

theorem BlockRecord.isGenesis_nameless (block : BlockRecord) :
    block.nameless.isGenesis = block.isGenesis := by
  cases hparent : block.parent <;> simp [nameless, isGenesis, hparent]

theorem BlockRecord.of_nameless_eq {first second : BlockRecord}
    (h : first.nameless = second.nameless) :
    first.proof = second.proof ∧ first.time = second.time ∧ first.bits = second.bits ∧
      first.height = second.height := by
  simp only [nameless, BlockRecord.mk.injEq, BlockHeader.mk.injEq] at h
  exact ⟨h.1.2.1, h.1.2.2.1, h.1.2.2.2, h.2.2.1⟩

namespace ChainStore

def trace (store : ChainStore) (block : BlockRecord) : List (ProofKind × Int64 × CompactBits) :=
  (store.lineage block).reverse.map fun block => (block.proof, block.time, block.bits)

variable {left right : ChainStore} {first second : BlockRecord} {params : ConsensusParams}

theorem trace_eq_iff :
    left.trace first = right.trace second ↔
      (left.lineage first).map (fun block => (block.proof, block.time, block.bits)) =
        (right.lineage second).map fun block => (block.proof, block.time, block.bits) := by
  rw [trace, trace, List.map_reverse, List.map_reverse, List.reverse_inj]

theorem WellFormed.height_eq_of_trace (hleft : left.WellFormed) (hright : right.WellFormed)
    (hfirst : first ∈ left.records) (hsecond : second ∈ right.records)
    (htrace : left.trace first = right.trace second) : first.height = second.height := by
  have hlength := congrArg List.length htrace
  simp only [trace, List.length_map, List.length_reverse, hleft.rooted.length_lineage hfirst,
    hright.rooted.length_lineage hsecond] at hlength
  omega

theorem WellFormed.nameless_eq (hleft : left.WellFormed) (hright : right.WellFormed)
    (hfirst : first ∈ left.records) (hsecond : second ∈ right.records)
    (hheight : first.height = second.height)
    (hfacts : (first.proof, first.time, first.bits) = (second.proof, second.time, second.bits)) :
    first.nameless = second.nameless := by
  have hgenesis : first.parent = none ↔ second.parent = none := by
    rw [← isGenesis_iff, ← isGenesis_iff, hleft.rooted.isGenesis_iff_height hfirst,
      hright.rooted.isGenesis_iff_height hsecond, hheight]
  have hparent : first.parent.map (fun _ => 0) = second.parent.map fun _ => 0 := by
    cases hone : first.parent <;> cases hother : second.parent <;> simp [hone, hother] at hgenesis ⊢
  simp only [Prod.mk.injEq] at hfacts
  obtain ⟨hproof, htime, hbits⟩ := hfacts
  simp only [BlockRecord.nameless, hproof, htime, hbits, hheight, hparent]

/-- A trace determines the lineage but for the names. Heights need no look: a lineage is as long as
its block is high. -/
theorem WellFormed.nameless_lineage_eq (hleft : left.WellFormed) (hright : right.WellFormed)
    (hfirst : first ∈ left.records) (hsecond : second ∈ right.records)
    (htrace : left.trace first = right.trace second) :
    (left.lineage first).map (·.nameless) = (right.lineage second).map (·.nameless) := by
  induction first, hfirst using hleft.rooted.descent generalizing second with
  | genesis first hfirst hnone =>
    have hheight := hleft.height_eq_of_trace hright hfirst hsecond htrace
    have hgenesis : second.isGenesis = true := by
      rw [hright.rooted.isGenesis_iff_height hsecond, ← hheight,
        ← hleft.rooted.isGenesis_iff_height hfirst, ← hleft.rooted.predecessor?_eq_none_iff hfirst]
      exact hnone
    rw [trace_eq_iff, lineage_of_predecessor_none hnone,
      lineage_of_predecessor_none (predecessor?_of_isGenesis hgenesis)] at htrace
    rw [lineage_of_predecessor_none hnone,
      lineage_of_predecessor_none (predecessor?_of_isGenesis hgenesis)]
    simp only [List.map_cons, List.map_nil, List.cons.injEq, and_true] at htrace ⊢
    exact hleft.nameless_eq hright hfirst hsecond hheight htrace
  | step first hfirst older holder hsome ih =>
    have hheight := hleft.height_eq_of_trace hright hfirst hsecond htrace
    have hlower := (hleft.rooted.of_predecessor? hfirst hsome).2.2
    obtain ⟨under, hunder, hmemUnder, -⟩ := hright.rooted.exists_predecessor? hsecond (by omega)
    rw [trace_eq_iff, lineage_of_predecessor_some hsome,
      lineage_of_predecessor_some hunder] at htrace
    rw [lineage_of_predecessor_some hsome, lineage_of_predecessor_some hunder]
    simp only [List.map_cons, List.cons.injEq] at htrace ⊢
    exact ⟨hleft.nameless_eq hright hfirst hsecond hheight htrace.1,
      ih hmemUnder (trace_eq_iff.mpr htrace.2)⟩

/-! ### What the rules read -/

section Readings

variable (hlineage :
  (left.lineage first).map (·.nameless) = (right.lineage second).map (·.nameless))

include hlineage

theorem nameless_eq_of_lineage : first.nameless = second.nameless := by
  rw [lineage, lineage] at hlineage
  exact (List.cons.inj hlineage).1

theorem nameless_blocksOfKind_eq (kind : ProofKind) :
    (left.blocksOfKind first kind).map (·.nameless) =
      (right.blocksOfKind second kind).map (·.nameless) := by
  have hread : ∀ (store : ChainStore) (block : BlockRecord),
      (store.blocksOfKind block kind).map (·.nameless) =
        (((store.lineage block).map (·.nameless)).takeWhile (!·.isGenesis)).filter
          (·.proof == kind) := by
    intro store block
    rw [List.takeWhile_map, List.filter_map, blocksOfKind]
    simp only [Function.comp_def, BlockRecord.isGenesis_nameless]
    rfl
  rw [hread, hread, hlineage]

theorem nameless_descendTo_eq {stop : BlockRecord → Bool}
    (hstop : ∀ block : BlockRecord, stop block.nameless = stop block) :
    (left.descendTo stop first).nameless = (right.descendTo stop second).nameless := by
  have hread : ∀ (store : ChainStore) (block : BlockRecord),
      (store.descendTo stop block).nameless =
        (((store.lineage block).map (·.nameless)).find? stop).getD
          (((store.lineage block).map (·.nameless)).getLastD block.nameless) := by
    intro store block
    have hcomp : (stop ∘ fun block : BlockRecord => block.nameless) = stop := by
      funext block
      exact hstop block
    rw [descendTo_eq_find, List.find?_map, hcomp]
    cases (store.lineage block).find? stop with
    | some found => rfl
    | none => simp [List.getLastD_eq_getLast?, Option.getD_map]
  rw [hread, hread, hlineage, nameless_eq_of_lineage hlineage]

theorem regularBits_eq (limitBits : CompactBits) (params : ConsensusParams) :
    left.regularBits first limitBits params = right.regularBits second limitBits params := by
  have hstop : ∀ block : BlockRecord,
      isRegular params limitBits block.nameless = isRegular params limitBits block := fun _ => rfl
  have hblock := nameless_descendTo_eq hlineage hstop
  have hread : ∀ (store : ChainStore) (block : BlockRecord),
      store.regularBits block limitBits params =
        (do
          let found := (store.descendTo (isRegular params limitBits) block).nameless
          if !found.isGenesis then
            let _ ← params.intervalAt found.height
          return found.bits) := by
    intro store block
    simp only [regularBits, BlockRecord.isGenesis_nameless]
    rfl
  rw [hread, hread, hblock]

end Readings

theorem WellFormed.weightedBits_eq_of_nameless (hleft : left.WellFormed) (hright : right.WellFormed)
    (hfirst : first ∈ left.records) (hsecond : second ∈ right.records) {kind : ProofKind}
    (hproof : first.proof = kind) (hblock : first.nameless = second.nameless)
    (hblocks : (left.blocksOfKind first kind).map (·.nameless) =
      (right.blocksOfKind second kind).map (·.nameless)) :
    left.weightedBits first params kind = right.weightedBits second params kind := by
  obtain ⟨hkind, -, hbits, hheight⟩ := BlockRecord.of_nameless_eq hblock
  have hother : second.proof = kind := hkind.symm.trans hproof
  have hsamples : (left.blocksOfKind first kind).map (·.sample) =
      (right.blocksOfKind second kind).map (·.sample) := by
    have hmap := congrArg (List.map (·.sample)) hblocks
    rwa [List.map_map, List.map_map] at hmap
  rw [hleft.weightedBits_eq hfirst, hright.weightedBits_eq hsecond,
    left.lastOfKind_of_proof hproof, right.lastOfKind_of_proof hother, hbits, hheight,
    WeightedAverage.bitsOfHistory_congr hsamples]

theorem WellFormed.requiredBits_eq_of_trace (hleft : left.WellFormed) (hright : right.WellFormed)
    (hfirst : first ∈ left.records) (hsecond : second ∈ right.records)
    (htrace : left.trace first = right.trace second) (time : Int64) (params : ConsensusParams)
    (kind : ProofKind) :
    left.requiredBits (some first) time params kind =
      right.requiredBits (some second) time params kind := by
  have hlineage := hleft.nameless_lineage_eq hright hfirst hsecond htrace
  obtain ⟨-, htime, -, hheight⟩ := BlockRecord.of_nameless_eq (nameless_eq_of_lineage hlineage)
  have hblocks := nameless_blocksOfKind_eq hlineage kind
  rw [hleft.requiredBits_eq hfirst, hright.requiredBits_eq hsecond]
  rcases hone : left.blocksOfKind first kind with _ | ⟨newest, _ | ⟨earlier, rest⟩⟩ <;>
    rcases hother : right.blocksOfKind second kind with _ | ⟨other, _ | ⟨under, tail⟩⟩ <;>
    simp only [hone, hother, List.map_cons, List.map_nil, List.cons.injEq, reduceCtorEq,
      and_false] at hblocks
  case nil.nil => rw [hheight]
  case cons.nil.cons.nil => rw [hheight]
  case cons.cons.cons.cons =>
    obtain ⟨hnewest, hearlier, hrest⟩ := hblocks
    have hrule : ∀ height limitBits, left.minimumDifficultyBits first time height limitBits params =
        right.minimumDifficultyBits second time height limitBits params := by
      intro height limitBits
      rw [minimumDifficultyBits, minimumDifficultyBits, htime, regularBits_eq hlineage]
    have hweighted :
        left.weightedBits newest params kind = right.weightedBits other params kind := by
      have hmemNewest := hleft.mem_of_mem_blocksOfKind hfirst (hone ▸ List.mem_cons_self)
      have hmemOther := hright.mem_of_mem_blocksOfKind hsecond (hother ▸ List.mem_cons_self)
      have hproof : newest.proof = kind := proof_of_mem_blocksOfKind (hone ▸ List.mem_cons_self)
      refine hleft.weightedBits_eq_of_nameless hright hmemNewest hmemOther hproof hnewest ?_
      rw [(hleft.blocksOfKind_head hfirst hone).1, (hright.blocksOfKind_head hsecond hother).1]
      simp only [List.map_cons, hnewest, hearlier, hrest]
    have hexponential : ExponentialAverage.nextBits newest earlier.time params kind =
        ExponentialAverage.nextBits other under.time params kind := by
      change ExponentialAverage.nextBits newest.nameless earlier.nameless.time params kind =
        ExponentialAverage.nextBits other.nameless under.nameless.time params kind
      rw [hnewest, hearlier]
    simp only [hrule, hheight, hweighted, hexponential]

/-- **A block asks for what its own branch decides.** Stored blocks with the same trace ask for the
same bits in any two stores, and what a block asks for stays the same whatever its store takes in,
pushes or activates later. -/
theorem requiredBits_eq_of_trace_eq (hleft : left.Reachable) (hfirst : first ∈ left.records)
    (time : Int64) (params : ConsensusParams) (kind : ProofKind) :
    (∀ (right : ChainStore) (second : BlockRecord), right.Reachable → second ∈ right.records →
      left.trace first = right.trace second →
      left.requiredBits (some first) time params kind =
        right.requiredBits (some second) time params kind) ∧
    ∀ commands, first ∈ (left.run commands).records ∧
      (left.run commands).requiredBits (some first) time params kind =
        left.requiredBits (some first) time params kind := by
  have hwell := hleft.wellFormed
  constructor
  · intro right second hright hsecond htrace
    exact hwell.requiredBits_eq_of_trace hright.wellFormed hfirst hsecond htrace time params kind
  · intro commands
    have hlater := (hleft.run commands).wellFormed
    have hextends := left.extends_run commands
    have hkept := mem_of_getElem?_id (hextends _ _ (hwell.rooted.getElem?_id hfirst))
    have hsame := hwell.rooted.lineage_eq_of_extends hlater.rooted hextends hfirst
    have htrace : (left.run commands).trace first = left.trace first := by
      rw [trace, trace, hsame]
    exact ⟨hkept, hlater.requiredBits_eq_of_trace hwell hkept hfirst htrace time params kind⟩

theorem requiredBits_eq_of_trace_eq_of_side_branch :
    let params := { ConsensusParams.main with averagingWindow := 1 }
    let left := (ofGenesis (numbered 0 .work 0 0x1f00ffff)).run [
      .push (numbered 1 .work 150 0x1c00ffff), .push (numbered 2 .work 290 0x1c00ffff)]
    let right := (ofGenesis (numbered 10 .work 0 0x1f00ffff)).run [
      .push (numbered 11 .work 150 0x1c00ffff), .push (numbered 12 .stake 160 0x1b00ffff),
      .insert (numbered 11 .work 0 0).hash (numbered 13 .work 290 0x1c00ffff)]
    ∃ side ∈ right.records, right.isActive side = false ∧
      left.trace left.tip = right.trace side ∧
      left.requiredBits (some left.tip) 400 params .work =
        right.requiredBits (some side) 400 params .work := by
  intro params left right
  have hleft : left.Reachable := ⟨_, _, rfl⟩
  have hright : right.Reachable := ⟨_, _, rfl⟩
  have hfirst : left.tip ∈ left.records := by decide +kernel
  have hside : right.records.back (by decide +kernel) ∈ right.records := Array.back_mem _
  have htrace : left.trace left.tip = right.trace (right.records.back (by decide +kernel)) := by
    decide +kernel
  exact ⟨_, hside, by decide +kernel, htrace,
    (requiredBits_eq_of_trace_eq hleft hfirst 400 params .work).1 _ _ hright hside htrace⟩

end ChainStore

end HybridConsensus
