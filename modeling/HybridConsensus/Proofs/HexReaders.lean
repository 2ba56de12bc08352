import HybridConsensus.Block
import HybridConsensus.Proofs.HexDigits

/-!
# Reading targets and hashes

A target is read highest digit first and may have fewer than sixty-four, a hash needs all of them
and is kept the other way round. Both read what a text spells behind its one marker, so that a text
which names a hash names the target that the hash stands for, and what either prints is read back.
-/

namespace HybridConsensus

open Hex

/-! ### Targets -/

theorem bigEndian_eq_ofDigits_halves (bytes : List UInt8) :
    bigEndian bytes = Nat.ofDigits 16 (bytes.flatMap halves).reverse := by
  rw [bigEndian, littleEndian_eq_ofDigits_halves, List.reverse_reverse]

namespace Target

/-- The digits with a zero in front of an odd count of bytes. -/
def padded (digits : List Char) : List Char :=
  if (utf8Bytes digits).length % 2 = 1 then '0' :: digits else digits

theorem exists_spells_of_padded {digits : List Char} {bytes : List UInt8}
    (h : Spells (padded digits) (bytes.flatMap halves)) :
    ∃ values, Spells digits values ∧ values.length ≤ 2 * bytes.length ∧
      bigEndian bytes = Nat.ofDigits 16 values.reverse := by
  have hcount := length_flatMap_halves bytes
  rw [bigEndian_eq_ofDigits_halves]
  unfold padded at h
  split at h
  · obtain ⟨values, hvalues, hspells⟩ := spells_zero_cons_iff.mp h
    rw [hvalues, List.length_cons] at hcount
    exact ⟨values, hspells, by omega, by rw [hvalues, Nat.ofDigits_reverse_zero_cons]⟩
  · exact ⟨_, h, hcount.le, rfl⟩

theorem exists_padded_of_spells {digits : List Char} {values : List Nat}
    (h : Spells digits values) :
    ∃ bytes : List UInt8, Spells (padded digits) (bytes.flatMap halves) ∧
      2 * bytes.length ≤ values.length + 1 ∧
      bigEndian bytes = Nat.ofDigits 16 values.reverse := by
  by_cases hodd : values.length % 2 = 1
  · have hpadded : Spells (padded digits) (0 :: values) := by
      rw [padded, h.length_utf8Bytes, if_pos hodd]
      exact spells_zero_cons_iff.mpr ⟨values, rfl, h⟩
    obtain ⟨bytes, hbytes⟩ := exists_flatMap_halves hpadded.1 (by rw [List.length_cons]; omega)
    have hcount := length_flatMap_halves bytes
    rw [hbytes, List.length_cons] at hcount
    refine ⟨bytes, hbytes ▸ hpadded, by omega, ?_⟩
    rw [bigEndian_eq_ofDigits_halves, hbytes, Nat.ofDigits_reverse_zero_cons]
  · obtain ⟨bytes, hbytes⟩ := exists_flatMap_halves h.1 (by omega)
    have hcount := length_flatMap_halves bytes
    rw [hbytes] at hcount
    refine ⟨bytes, ?_, by omega, by rw [bigEndian_eq_ofDigits_halves, hbytes]⟩
    rw [padded, h.length_utf8Bytes, if_neg hodd, hbytes]
    exact h

theorem ofHex_eq_ok_iff {text : String} {target : Target} :
    ofHex text = .ok target ↔ ∃ values, Spells (dropMarker text.toList) values ∧
      values.length ≤ 64 ∧ target.value = Nat.ofDigits 16 values.reverse := by
  have hread : ofHex text = .ok target ↔ ∃ bytes,
      toBytes (padded (dropMarker text.toList)) = .ok bytes ∧ bytes.length ≤ 32 ∧
        target.value = bigEndian bytes := by
    rw [ofHex, bind_eq_ok_iff]
    refine exists_congr fun bytes => and_congr_right fun _ => ?_
    split
    · next hfits =>
      refine ⟨fun h => ⟨hfits, ?_⟩, fun h => congrArg Except.ok (Target.ext h.2.symm)⟩
      rw [← Except.ok.inj h]
    · next hlong =>
      refine iff_of_false ?_ fun h => hlong h.1
      rintro ⟨⟩
  rw [hread]
  constructor
  · rintro ⟨bytes, hbytes, hcount, hvalue⟩
    obtain ⟨values, hspells, hlength, hdigits⟩ :=
      exists_spells_of_padded (toBytes_eq_ok_iff.mp hbytes)
    exact ⟨values, hspells, by omega, hvalue.trans hdigits⟩
  · rintro ⟨values, hspells, hlength, hvalue⟩
    obtain ⟨bytes, hpadded, hcount, hdigits⟩ := exists_padded_of_spells hspells
    exact ⟨bytes, toBytes_eq_ok_iff.mpr hpadded, by omega, hvalue.trans hdigits.symm⟩

theorem exists_ofHex_of_spells {text : String} {values : List Nat}
    (h : Spells (dropMarker text.toList) values) (hcount : values.length ≤ 64) :
    ∃ target, ofHex text = .ok target ∧ target.value = Nat.ofDigits 16 values.reverse := by
  have hbound : Nat.ofDigits 16 values.reverse < 1 <<< 256 := by
    calc Nat.ofDigits 16 values.reverse
        < 16 ^ values.reverse.length :=
          Nat.ofDigits_lt_base_pow_length (by decide) fun value hvalue =>
            h.1 value (List.mem_reverse.mp hvalue)
      _ ≤ 16 ^ 64 := by
          rw [List.length_reverse]
          exact Nat.pow_le_pow_right (by decide) hcount
      _ = 1 <<< 256 := by decide
  exact ⟨⟨_, hbound⟩, ofHex_eq_ok_iff.mpr ⟨values, h, hcount, rfl⟩, rfl⟩

end Target

/-! ### Hashes -/

namespace BlockHash

/-- The values of the digits that show a hash. -/
def values (block : BlockHash) : List Nat :=
  block.bytes.toList.reverse.flatMap halves

theorem length_values (block : BlockHash) : block.values.length = 64 := by
  rw [values, length_flatMap_halves, List.length_reverse, Vector.length_toList]

theorem toList_toHex (block : BlockHash) :
    block.toHex.toList = block.values.map Nat.digitChar := by
  rw [toHex, ofBytes, String.toList_ofList, flatMap_ofByte]
  rfl

theorem value_toTarget (block : BlockHash) :
    block.toTarget.value = Nat.ofDigits 16 block.values.reverse :=
  littleEndian_eq_ofDigits_halves _

theorem exists_values_eq {values : List Nat} (hvalues : ∀ value ∈ values, value < 16)
    (hcount : values.length = 64) : ∃ block : BlockHash, block.values = values := by
  obtain ⟨bytes, rfl⟩ := exists_flatMap_halves hvalues (by omega)
  rw [length_flatMap_halves] at hcount
  refine ⟨⟨⟨bytes.reverse.toArray, by simp; omega⟩⟩, ?_⟩
  rw [BlockHash.values]
  simp

theorem ofHex_eq_ok_iff {text : String} {block : BlockHash} :
    ofHex text = .ok block ↔ Spells (dropMarker text.toList) block.values := by
  constructor
  · intro h
    unfold ofHex at h
    simp only at h
    split at h
    · cases h
    split at h
    · cases h
    obtain ⟨bytes, hbytes, h⟩ := bind_eq_ok_iff.mp h
    split at h
    · rw [← Except.ok.inj h, values]
      simpa using toBytes_eq_ok_iff.mp hbytes
    · cases h
  · intro h
    have hsize := h.length_utf8Bytes
    rw [length_values] at hsize
    unfold ofHex
    simp only [hsize]
    rw [if_neg (by decide), if_neg (by decide), bind_eq_ok_iff]
    refine ⟨block.bytes.toList.reverse, toBytes_eq_ok_iff.mpr h, ?_⟩
    rw [dif_pos (by simp)]
    refine congrArg (fun bytes => Except.ok (mk bytes)) (Vector.toList_inj.mp ?_)
    simp

/-- A target and the hash that stands for it are shown alike. -/
theorem toHex_ofTarget (target : Target) : (ofTarget target).toHex = target.toHex := by
  rw [toHex, ofBytes, ofTarget, Target.toHex, ofNat, digits_eq 32]
  rfl

theorem toTarget_ofTarget (target : Target) : (ofTarget target).toTarget = target := by
  apply Target.ext
  rw [toTarget, ofTarget]
  simp only [Vector.toList_mk]
  rw [littleEndian_littleEndianBytes, Nat.mod_eq_of_lt target.bounded]

theorem ofTarget_toTarget (block : BlockHash) : ofTarget block.toTarget = block :=
  toTarget_injective (toTarget_ofTarget _)

/-- A hash is shown as it was written, but for the marker and capitals. -/
theorem toList_toHex_of_ofHex {text : String} {block : BlockHash} (h : ofHex text = .ok block) :
    block.toHex.toList = (dropMarker text.toList).map Char.toLower := by
  rw [toList_toHex]
  exact (ofHex_eq_ok_iff.mp h).2.symm

/-- What names a hash names its target. -/
theorem target_ofHex_of_ofHex {text : String} {block : BlockHash} (h : ofHex text = .ok block) :
    Target.ofHex text = .ok block.toTarget :=
  Target.ofHex_eq_ok_iff.mpr
    ⟨block.values, ofHex_eq_ok_iff.mp h, block.length_values.le, block.value_toTarget⟩

theorem ofHex_toHex (block : BlockHash) : ofHex block.toHex = .ok block := by
  have hspells : Spells (block.values.map Nat.digitChar) block.values :=
    spells_map_digitChar flatMap_halves_lt
  rw [ofHex_eq_ok_iff, toList_toHex, dropMarker_of_spells hspells]
  exact hspells

theorem toHex_eq_toHex_toTarget (block : BlockHash) : block.toHex = block.toTarget.toHex := by
  rw [← toHex_ofTarget, ofTarget_toTarget]

end BlockHash

/-- What a target prints is what its hash prints, and that names the target too. -/
theorem Target.ofHex_toHex (target : Target) : Target.ofHex target.toHex = .ok target := by
  have hblock := BlockHash.target_ofHex_of_ofHex (BlockHash.ofHex_toHex (.ofTarget target))
  rwa [BlockHash.toHex_ofTarget, BlockHash.toTarget_ofTarget] at hblock

theorem isOk_iff {ε α : Type} {result : Except ε α} :
    result.isOk ↔ ∃ value, result = .ok value := by
  cases result <;> simp [Except.isOk, Except.toBool]

/-- Both read the digits behind one marker: a target from at most sixty-four of them, in either case
and in any count, and a hash from exactly sixty-four. -/
theorem hex_readers_agree :
    (∀ text : String,
      ((Target.ofHex text).isOk ↔
        ∃ values, Spells (dropMarker text.toList) values ∧ values.length ≤ 64) ∧
      (∀ values, Spells (dropMarker text.toList) values → values.length ≤ 64 →
        (Target.ofHex text).map Target.value = .ok (Nat.ofDigits 16 values.reverse)) ∧
      ((BlockHash.ofHex text).isOk ↔
        ∃ values, Spells (dropMarker text.toList) values ∧ values.length = 64) ∧
      ∀ block, BlockHash.ofHex text = .ok block →
        Target.ofHex text = .ok block.toTarget ∧
        block.toHex.toList = (dropMarker text.toList).map Char.toLower) ∧
    (∀ target : Target,
      Target.ofHex target.toHex = .ok target ∧ (BlockHash.ofTarget target).toTarget = target) ∧
    ∀ block : BlockHash,
      BlockHash.ofHex block.toHex = .ok block ∧ BlockHash.ofTarget block.toTarget = block ∧
      block.toHex = block.toTarget.toHex := by
  refine ⟨fun text => ⟨?_, ?_, ?_, ?_⟩, fun target => ⟨?_, ?_⟩, fun block => ⟨?_, ?_, ?_⟩⟩
  · rw [isOk_iff]
    constructor
    · rintro ⟨target, htarget⟩
      obtain ⟨values, hspells, hcount, -⟩ := Target.ofHex_eq_ok_iff.mp htarget
      exact ⟨values, hspells, hcount⟩
    · rintro ⟨values, hspells, hcount⟩
      obtain ⟨target, htarget, -⟩ := Target.exists_ofHex_of_spells hspells hcount
      exact ⟨target, htarget⟩
  · intro values hspells hcount
    obtain ⟨target, htarget, hvalue⟩ := Target.exists_ofHex_of_spells hspells hcount
    rw [htarget, ← hvalue]
    rfl
  · rw [isOk_iff]
    constructor
    · rintro ⟨block, hblock⟩
      exact ⟨block.values, BlockHash.ofHex_eq_ok_iff.mp hblock, block.length_values⟩
    · rintro ⟨values, hspells, hcount⟩
      obtain ⟨block, rfl⟩ := BlockHash.exists_values_eq hspells.1 hcount
      exact ⟨block, BlockHash.ofHex_eq_ok_iff.mpr hspells⟩
  · intro block hblock
    exact ⟨BlockHash.target_ofHex_of_ofHex hblock, BlockHash.toList_toHex_of_ofHex hblock⟩
  · exact Target.ofHex_toHex target
  · exact BlockHash.toTarget_ofTarget target
  · exact BlockHash.ofHex_toHex block
  · exact BlockHash.ofTarget_toTarget block
  · exact BlockHash.toHex_eq_toHex_toTarget block

end HybridConsensus
