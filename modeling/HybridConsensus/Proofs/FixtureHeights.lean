import HybridConsensus.Proofs.FixtureEntries
import HybridConsensus.Proofs.HexReaders

/-!
# Fixtures as high as blocks can be

A fixture lists any number of blocks, and each can lie on the one before it, but a height has only
so many bits. The blocks of a column lie one on top of the other with a hash of their own each, so
that nothing else is wrong with them. A column can be as high as a block can be, and one block more
is too high.
-/

namespace HybridConsensus.Fixture

variable {digest : List UInt8 → Digest} {height number : Nat}

def numberedHash (number : Nat) : BlockHash :=
  .ofTarget (.saturate number)

def columnEntry (height : Nat) : BlockEntry where
  time := 0
  bits := "1f00ffff"
  proof := .work
  hash := some (numberedHash height).toHex
  parent := none

def columnRecord (height : Nat) : BlockRecord where
  hash := numberedHash height
  proof := .work
  time := 0
  bits := 0x1f00ffff
  id := height
  height
  parent := if height = 0 then none else some (height - 1)

/-- Blocks up to `height`, each on the one before it. -/
def column (height : Nat) : ChainFixture where
  genesis := columnEntry 0
  blocks := (List.range height).map fun below => columnEntry (below + 1)
  tip := none

/-- Below the next height all numbers are those of different targets. -/
theorem numberedHash_ne {other : Nat} (hnumber : number ≤ maxHeight + 1) (hother : other < number) :
    numberedHash other ≠ numberedHash number := by
  intro hsame
  have hbound : maxHeight + 1 < 1 <<< 256 := by decide
  have htarget := congrArg (fun hash => hash.toTarget.value) hsame
  simp only [numberedHash, BlockHash.toTarget_ofTarget] at htarget
  rw [Target.value_saturate_of_lt (by omega), Target.value_saturate_of_lt (by omega)] at htarget
  omega

theorem gives_columnEntry (parent : Option BlockHash) (above : Nat) :
    Gives digest (columnEntry number) parent above (columnRecord number).toBlockHeader where
  time_eq := rfl
  proof_eq := rfl
  bits_eq := by
    change CompactBits.ofHex? "1f00ffff" = some 0x1f00ffff
    decide
  hash_of_text text htext := by
    cases htext
    exact BlockHash.ofHex_toHex _
  hash_of_contents := nofun

theorem blocks_column_succ (height : Nat) :
    (column (height + 1)).blocks = (column height).blocks ++ [columnEntry (height + 1)] := by
  simp only [column, List.range_succ, List.map_append, List.map_singleton]

/-- The records of a column, in the order of their heights. -/
def columnRecords (height : Nat) : List BlockRecord :=
  (List.range (height + 1)).map columnRecord

theorem columnRecords_succ (height : Nat) :
    columnRecords (height + 1) = columnRecords height ++ [columnRecord (height + 1)] := by
  simp only [columnRecords, List.range_succ (n := height + 1), List.map_append, List.map_singleton]

theorem names_columnRecord (height : Nat) :
    Names none (columnRecords height) (columnRecord height) := by
  rw [Names, columnRecords, List.range_succ, List.map_append, List.map_singleton,
    List.getLast?_concat]

theorem fresh_columnRecord (hheight : height ≤ maxHeight) :
    ∀ older ∈ columnRecords height, older.hash ≠ (columnRecord (height + 1)).hash := by
  intro older holder
  obtain ⟨lower, hlower, rfl⟩ := List.mem_map.mp holder
  exact numberedHash_ne (by omega) (List.mem_range.mp hlower)

/-- A column is stored block by block, as high as a block can be. -/
theorem describes_column (hheight : height ≤ maxHeight) :
    Describes digest (columnEntry 0) (column height).blocks (columnRecords height) := by
  induction height with
  | zero => exact describes_nil_iff.mpr ⟨_, rfl, rfl, rfl, rfl, gives_columnEntry none 0⟩
  | succ height ih =>
    rw [blocks_column_succ, columnRecords_succ]
    refine describes_append_iff.mpr ⟨ih (by omega), ?_⟩
    exact {
      id_eq := by simp [columnRecords, columnRecord]
      fresh := fresh_columnRecord (by omega)
      height_le := hheight
      linked := ⟨columnRecord height, names_columnRecord height, rfl, rfl,
        gives_columnEntry _ _⟩ }

theorem tooHigh_column (hheight : height = maxHeight) : TooHigh digest (column (height + 1)) :=
  .block (blocks_column_succ height) (describes_column hheight.le) (names_columnRecord height)
    hheight (gives_columnEntry _ _) (fresh_columnRecord hheight.le)

/-- No entry of a fixture and no tip is at fault for a lack of heights. -/
theorem not_firstFailure_heightOverflow (fixture : ChainFixture) :
    ¬FirstFailure digest fixture (.chain .heightOverflow) := by
  intro hfailure
  cases hfailure with
  | genesis h => cases h
  | block _ _ h =>
    cases h with
    | parent h => cases h
    | header _ h => cases h
  | tip _ h => cases h

end HybridConsensus.Fixture
