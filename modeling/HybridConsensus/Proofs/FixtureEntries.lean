import HybridConsensus.Fixture.Basic
import HybridConsensus.Proofs.FirstFailure
import Mathlib.Tactic.Common

/-!
# What a fixture says

The entries of a fixture tell which records there are to be, one for each entry and in their order,
or which of them is the first that cannot be stored and why. None of this speaks of the store, or of
the hash and height that are carried from one entry to the next while it is filled.
-/

namespace HybridConsensus.Fixture

variable (digest : List UInt8 → Digest)

/-! ### One entry -/

def Unreadable (text : String) : Prop :=
  ∀ hash, BlockHash.ofHex text ≠ .ok hash

/-- The header that an entry stands for on `parent`, at `height`. A hash that is not given is made
from the bytes of the parent's or zeros, from height, time and bits, lowest byte first, and from a
byte that tells stake from work. -/
structure Gives (entry : BlockEntry) (parent : Option BlockHash) (height : Nat)
    (header : BlockHeader) : Prop where
  time_eq : header.time = entry.time
  proof_eq : header.proof = entry.proof
  bits_eq : CompactBits.ofHex? entry.bits = some header.bits
  hash_of_text : ∀ text, entry.hash = some text → BlockHash.ofHex text = .ok header.hash
  hash_of_contents : entry.hash = none → header.hash.bytes =
    digest (parent.elim (List.replicate 32 0) (·.bytes.toList) ++ littleEndianBytes 4 height ++
      littleEndianBytes 8 entry.time.toUInt64.toNat ++ littleEndianBytes 4 header.bits.toNat ++
      [if entry.proof = .stake then 1 else 0])

/-- Why an entry stands for no header. -/
inductive HeaderFails (entry : BlockEntry) : FixtureError → Prop
  | bits (h : CompactBits.ofHex? entry.bits = none) : HeaderFails entry (.invalidBits entry.bits)
  | hash {text : String} (hbits : CompactBits.ofHex? entry.bits ≠ none)
      (hhash : entry.hash = some text) (h : Unreadable text) :
      HeaderFails entry (.invalidHash text)

theorem parseHash_eq_ok_iff {text : String} {hash : BlockHash} :
    parseHash text = .ok hash ↔ BlockHash.ofHex text = .ok hash := by
  unfold parseHash
  cases BlockHash.ofHex text <;> simp

theorem parseHash_eq_error_iff {text : String} {error : FixtureError} :
    parseHash text = .error error ↔ Unreadable text ∧ error = .invalidHash text := by
  unfold parseHash Unreadable
  cases BlockHash.ofHex text <;> simp [eq_comm]

theorem parseBits_eq_ok_iff {text : String} {bits : CompactBits} :
    parseBits text = .ok bits ↔ CompactBits.ofHex? text = some bits := by
  unfold parseBits
  cases CompactBits.ofHex? text <;> simp

theorem parseBits_eq_error_iff {text : String} {error : FixtureError} :
    parseBits text = .error error ↔
      CompactBits.ofHex? text = none ∧ error = .invalidBits text := by
  unfold parseBits
  cases CompactBits.ofHex? text <;> simp [eq_comm]

/-- The given hash of an entry, or the one that is made. -/
def hashOn (entry : BlockEntry) (parent : Option BlockHash) (height : Nat) (bits : CompactBits) :
    Except FixtureError BlockHash :=
  match entry.hash with
  | some text => parseHash text
  | none => .ok ⟨digest (contents parent height entry.time bits entry.proof)⟩

variable {digest} {entry : BlockEntry} {parent : Option BlockHash} {height : Nat}
  {bits : CompactBits} {header : BlockHeader} {error : FixtureError}

theorem header_eq_hashOn :
    entry.header digest parent height =
      parseBits entry.bits >>= fun bits => hashOn digest entry parent height bits >>= fun hash =>
        .ok { hash, proof := entry.proof, time := entry.time, bits } := by
  unfold BlockEntry.header hashOn
  cases entry.hash <;> rfl

theorem contents_eq (time : Int64) (bits : CompactBits) (proof : ProofKind) :
    contents parent height time bits proof =
      parent.elim (List.replicate 32 0) (·.bytes.toList) ++ littleEndianBytes 4 height ++
        littleEndianBytes 8 time.toUInt64.toNat ++ littleEndianBytes 4 bits.toNat ++
        [if proof = .stake then 1 else 0] := by
  cases parent <;> rfl

theorem hashOn_eq_ok_iff {hash : BlockHash} :
    hashOn digest entry parent height bits = .ok hash ↔
      (∀ text, entry.hash = some text → BlockHash.ofHex text = .ok hash) ∧
      (entry.hash = none → hash.bytes =
        digest (parent.elim (List.replicate 32 0) (·.bytes.toList) ++ littleEndianBytes 4 height ++
          littleEndianBytes 8 entry.time.toUInt64.toNat ++ littleEndianBytes 4 bits.toNat ++
          [if entry.proof = .stake then 1 else 0])) := by
  unfold hashOn
  cases entry.hash with
  | some text => simp [parseHash_eq_ok_iff]
  | none =>
    rw [← contents_eq]
    cases hash
    simp [eq_comm]

theorem hashOn_eq_error_iff :
    hashOn digest entry parent height bits = .error error ↔
      ∃ text, entry.hash = some text ∧ Unreadable text ∧ error = .invalidHash text := by
  unfold hashOn
  cases entry.hash with
  | some text => simp [parseHash_eq_error_iff]
  | none => simp

theorem header_eq_ok_iff :
    entry.header digest parent height = .ok header ↔ Gives digest entry parent height header := by
  simp only [header_eq_hashOn, bind_eq_ok_iff, parseBits_eq_ok_iff, hashOn_eq_ok_iff]
  constructor
  · rintro ⟨bits, hbits, hash, ⟨htext, hcontents⟩, ⟨⟩⟩
    exact ⟨rfl, rfl, hbits, htext, hcontents⟩
  · intro ⟨htime, hproof, hbits, htext, hcontents⟩
    refine ⟨header.bits, hbits, header.hash, ⟨htext, hcontents⟩, ?_⟩
    rw [← htime, ← hproof]

theorem header_eq_error_iff :
    entry.header digest parent height = .error error ↔ HeaderFails entry error := by
  simp only [header_eq_hashOn, bind_eq_error_iff, parseBits_eq_error_iff, parseBits_eq_ok_iff,
    hashOn_eq_error_iff]
  constructor
  · rintro (⟨hbits, rfl⟩ | ⟨bits, hbits, ⟨text, htext, hunreadable, rfl⟩ | ⟨_, _, ⟨⟩⟩⟩)
    · exact .bits hbits
    · exact .hash (by simp [hbits]) htext hunreadable
  · intro h
    cases h with
    | bits hbits => exact .inl ⟨hbits, rfl⟩
    | hash hbits htext hunreadable =>
      obtain ⟨bits, hbits⟩ := Option.ne_none_iff_exists'.mp hbits
      exact .inr ⟨bits, hbits, .inl ⟨_, htext, hunreadable, rfl⟩⟩

/-! ### Records -/

/-- The record that a text names. Without a text it is the last one. -/
def Names (name : Option String) (records : List BlockRecord) (block : BlockRecord) : Prop :=
  match name with
  | none => records.getLast? = some block
  | some text => block ∈ records ∧ BlockHash.ofHex text = .ok block.hash

/-- Why a text names no record, where `missing` says of a hash that none has it. -/
inductive NameFails (missing : BlockHash → ChainError) (name : Option String)
    (records : List BlockRecord) : FixtureError → Prop
  | text {text : String} (hname : name = some text) (h : Unreadable text) :
      NameFails missing name records (.invalidHash text)
  | hash {text : String} {hash : BlockHash} (hname : name = some text)
      (hhash : BlockHash.ofHex text = .ok hash) (h : ∀ block ∈ records, block.hash ≠ hash) :
      NameFails missing name records (.chain (missing hash))

/-- What is stored for an entry that comes after `earlier`. -/
structure StoredAs (digest : List UInt8 → Digest) (entry : BlockEntry) (earlier : List BlockRecord)
    (record : BlockRecord) : Prop where
  id_eq : record.id = earlier.length
  fresh : ∀ older ∈ earlier, older.hash ≠ record.hash
  height_le : record.height ≤ maxHeight
  linked : ∃ below, Names entry.parent earlier below ∧ record.parent = some below.id ∧
    record.height = below.height + 1 ∧
    Gives digest entry (some below.hash) record.height record.toBlockHeader

/-- The records of all entries, that of the genesis entry first. -/
structure Describes (digest : List UInt8 → Digest) (genesis : BlockEntry) (blocks : List BlockEntry)
    (records : List BlockRecord) : Prop where
  length_eq : records.length = blocks.length + 1
  genesis : ∀ record, records[0]? = some record → record.id = 0 ∧ record.height = 0 ∧
    record.parent = none ∧ Gives digest genesis none 0 record.toBlockHeader
  block : ∀ place entry record, blocks[place]? = some entry → records[place + 1]? = some record →
    StoredAs digest entry (records.take (place + 1)) record

theorem describes_nil_iff {genesis : BlockEntry} {records : List BlockRecord} :
    Describes digest genesis [] records ↔ ∃ record, records = [record] ∧ record.id = 0 ∧
      record.height = 0 ∧ record.parent = none ∧
      Gives digest genesis none 0 record.toBlockHeader := by
  constructor
  · intro h
    obtain ⟨record, rfl⟩ := List.length_eq_one_iff.mp h.length_eq
    exact ⟨record, rfl, h.genesis record rfl⟩
  · rintro ⟨record, rfl, hrecord⟩
    refine ⟨rfl, fun other hother => ?_, nofun⟩
    cases hother
    exact hrecord

/-- One entry more is one record more, and changes nothing about those before it. -/
theorem describes_append_iff {genesis : BlockEntry} {blocks : List BlockEntry}
    {records : List BlockRecord} {record : BlockRecord} :
    Describes digest genesis (blocks ++ [entry]) (records ++ [record]) ↔
      Describes digest genesis blocks records ∧ StoredAs digest entry records record := by
  constructor
  · intro h
    have hlength : records.length = blocks.length + 1 := by
      have hboth := h.length_eq
      simp only [List.length_append, List.length_singleton] at hboth
      omega
    refine ⟨⟨hlength, ?_, ?_⟩, ?_⟩
    · intro first hfirst
      exact h.genesis first (by rwa [List.getElem?_append_left (by omega)])
    · intro place older found holder hfound
      have hplace : place < blocks.length := (List.getElem?_eq_some_iff.mp holder).1
      rw [← List.take_append_of_le_length (by omega)]
      exact h.block place older found (by rwa [List.getElem?_append_left hplace])
        (by rwa [List.getElem?_append_left (by omega)])
    · have hstored := h.block blocks.length entry record (by simp) (by simp [← hlength])
      rwa [← hlength, List.take_left' rfl] at hstored
  · rintro ⟨h, hstored⟩
    have hlength := h.length_eq
    refine ⟨by simp [hlength], ?_, ?_⟩
    · intro first hfirst
      rw [List.getElem?_append_left (by omega)] at hfirst
      exact h.genesis first hfirst
    · intro place older found holder hfound
      rcases Nat.lt_or_ge place blocks.length with hplace | hplace
      · rw [List.getElem?_append_left hplace] at holder
        rw [List.getElem?_append_left (by omega)] at hfound
        rw [List.take_append_of_le_length (by omega)]
        exact h.block place older found holder hfound
      · obtain rfl : place = blocks.length := by
          have hlast := (List.getElem?_eq_some_iff.mp holder).1
          simp only [List.length_append, List.length_singleton] at hlast
          omega
        rw [List.getElem?_concat_length] at holder
        rw [← hlength, List.getElem?_concat_length] at hfound
        cases holder
        cases hfound
        rwa [← hlength, List.take_left' rfl]

theorem exists_of_describes_append {genesis : BlockEntry} {blocks : List BlockEntry}
    {records : List BlockRecord} (h : Describes digest genesis (blocks ++ [entry]) records) :
    ∃ earlier record, records = earlier ++ [record] ∧ Describes digest genesis blocks earlier ∧
      StoredAs digest entry earlier record := by
  have hne : records ≠ [] := by
    rintro rfl
    simpa using h.length_eq
  rw [← List.dropLast_concat_getLast hne] at h
  exact ⟨_, _, (List.dropLast_concat_getLast hne).symm, describes_append_iff.mp h⟩

/-- Why an entry is not stored after `records`. -/
inductive EntryFails (digest : List UInt8 → Digest) (records : List BlockRecord)
    (entry : BlockEntry) : FixtureError → Prop
  | parent {error : FixtureError} (h : NameFails .unknownParent entry.parent records error) :
      EntryFails digest records entry error
  | header {below : BlockRecord} {error : FixtureError}
      (hparent : Names entry.parent records below) (h : HeaderFails entry error) :
      EntryFails digest records entry error
  | duplicate {below older : BlockRecord} {header : BlockHeader}
      (hparent : Names entry.parent records below)
      (hheader : Gives digest entry (some below.hash) (below.height + 1) header)
      (holder : older ∈ records) (h : older.hash = header.hash) :
      EntryFails digest records entry (.chain (.duplicate header.hash))

/-- The first thing that is wrong with a fixture. -/
inductive FirstFailure (digest : List UInt8 → Digest) (fixture : ChainFixture) :
    FixtureError → Prop
  | genesis {error : FixtureError} (h : HeaderFails fixture.genesis error) :
      FirstFailure digest fixture error
  | block {earlier later : List BlockEntry} {entry : BlockEntry} {records : List BlockRecord}
      {error : FixtureError} (hblocks : fixture.blocks = earlier ++ entry :: later)
      (hearlier : Describes digest fixture.genesis earlier records)
      (h : EntryFails digest records entry error) : FirstFailure digest fixture error
  | tip {records : List BlockRecord} {error : FixtureError}
      (hblocks : Describes digest fixture.genesis fixture.blocks records)
      (h : NameFails .unknownBlock fixture.tip records error) : FirstFailure digest fixture error

/-- A block that nothing is wrong with but that its parent is as high as a block can be. -/
inductive TooHigh (digest : List UInt8 → Digest) (fixture : ChainFixture) : Prop
  | block {earlier later : List BlockEntry} {entry : BlockEntry} {records : List BlockRecord}
      {below : BlockRecord} {header : BlockHeader}
      (hblocks : fixture.blocks = earlier ++ entry :: later)
      (hearlier : Describes digest fixture.genesis earlier records)
      (hparent : Names entry.parent records below) (hfull : below.height = maxHeight)
      (hheader : Gives digest entry (some below.hash) (below.height + 1) header)
      (hfresh : ∀ older ∈ records, older.hash ≠ header.hash) : TooHigh digest fixture

end HybridConsensus.Fixture
