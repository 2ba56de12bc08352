import HybridConsensus.Config.Format
import HybridConsensus.Fixture.Format
import HybridConsensus.Proofs.HexReaders
import HybridConsensus.Proofs.JsonLayout
import HybridConsensus.Proofs.ProductRange

/-!
# Records in JSON

A record is written with each field once and under its own name, so that each is found again
whatever the order in which the fields are looked up. What is left is one fact for each type of
field.
-/

namespace HybridConsensus

namespace Json

variable {α : Type} {encode : α → Json} {decode : Json → Option α}

/-- What is written for a value has a text, and it is decoded to the value. -/
structure Lossless (encode : α → Json) (decode : Json → Option α) : Prop where
  wellFormed : ∀ value, (encode value).WellFormed
  decode_encode : ∀ value, decode (encode value) = some value

namespace Lossless

theorem read?_print (h : Lossless encode decode) (value : α) :
    (read? (print (encode value))).bind decode = some value := by
  rw [(h.wellFormed value).read?_print, Option.bind_some, h.decode_encode]

theorem read?_printPretty (h : Lossless encode decode) (value : α) :
    (read? (printPretty (encode value))).bind decode = some value := by
  rw [(h.wellFormed value).read?_printPretty, Option.bind_some, h.decode_encode]

/-! ### Single values -/

theorem bool : Lossless Json.bool asBool? :=
  ⟨.bool, fun _ => rfl⟩

theorem text : Lossless ofText asText? :=
  ⟨fun text => .string text, fun _ => rfl⟩

theorem asInt?_ofInt (value : Int) : (ofInt value).asInt? = some value := by
  cases value with
  | ofNat magnitude => rfl
  | negSucc magnitude =>
    rw [ofInt, decide_eq_true (Int.negSucc_lt_zero magnitude), Int.natAbs_negSucc]
    exact congrArg some (Int.neg_ofNat_succ magnitude)

theorem asInt64?_ofInt (value : Int64) : asInt64? (ofInt value.toInt) = some value := by
  simp only [asInt64?, asInt?_ofInt, Option.bind_eq_bind, Option.bind_some]
  rw [if_pos (Signed64.toInt_inRange value), Int64.ofInt_toInt]

theorem int64 : Lossless (fun value : Int64 => ofInt value.toInt) asInt64? :=
  ⟨fun _ => .integer _ _, asInt64?_ofInt⟩

theorem asUInt32?_ofNat (value : UInt32) : asUInt32? (ofNat value.toNat) = some value := by
  have hint : asInt? (ofNat value.toNat) = some (value.toNat : Int) := rfl
  have hrange : (0 : Int) ≤ value.toNat ∧ (value.toNat : Int) < UInt32.size :=
    ⟨Int.natCast_nonneg _, Int.ofNat_lt.mpr value.toNat_lt_size⟩
  rw [asUInt32?, hint, Option.bind_eq_bind, Option.bind_some, if_pos hrange]
  exact congrArg some UInt32.ofNat_toNat

theorem uint32 : Lossless (fun value : UInt32 => ofNat value.toNat) asUInt32? :=
  ⟨fun _ => .integer _ _, asUInt32?_ofNat⟩

theorem list (h : Lossless encode decode) :
    Lossless (fun values : List α => .array (values.map encode)) (asList? decode) where
  wellFormed values := .array <| List.forall_mem_map.mpr fun value _ => h.wellFormed value
  decode_encode values := by
    rw [asList?]
    induction values with
    | nil => rfl
    | cons value values ih =>
      rw [List.map_cons, List.mapM_cons, h.decode_encode, ih]
      rfl

theorem wellFormed_getD (h : Lossless encode decode) (value : Option α) :
    ((value.map encode).getD .null).WellFormed := by
  cases value with
  | none => exact .null
  | some value => exact h.wellFormed value

end Lossless

theorem ofTextOrNull_eq (text : Option String) :
    ofTextOrNull text = (text.map ofText).getD .null := by
  cases text <;> rfl

/-! ### Fields of a record -/

namespace Fields

variable {names : List String} {members : List (String × Json)}

theorem lookup_eq_none_iff {name : String} :
    members.lookup name = none ↔ name ∉ members.map Prod.fst := by
  simp only [List.lookup_eq_none_iff, List.mem_map, not_exists, not_and, bne_iff_ne]
  exact forall₂_congr fun _ _ => ne_comm

/-- A record gives each of its fields, and no other is unknown. -/
theorem ofMembers?_record (unknown : UnknownMembers)
    (hnames : ∀ name ∈ members.map Prod.fst, name ∈ names) (hnodup : (members.map Prod.fst).Nodup) :
    ofMembers? names unknown (members.map fun (name, value) => (some name, value)) =
      some ⟨members⟩ := by
  induction members with
  | nil => rfl
  | cons member members ih =>
    obtain ⟨name, value⟩ := member
    rw [List.map_cons, List.nodup_cons] at hnodup
    rw [List.map_cons, List.forall_mem_cons] at hnames
    have hfresh : (Fields.mk members).get? name = none := lookup_eq_none_iff.mpr hnodup.1
    rw [List.map_cons, ofMembers?, ih hnames.2 hnodup.2]
    simp [hnames.1, hfresh]

theorem ofJson?_ofRecord (unknown : UnknownMembers) (hnames : members.map Prod.fst = names)
    (hnodup : names.Nodup) : ofJson? names unknown (ofRecord members) = some ⟨members⟩ := by
  subst hnames
  exact ofMembers?_record unknown (fun _ => id) hnodup

variable {β : Type} {fields : Fields} {name : String} {json : Json}

theorem required_eq (hget : fields.get? name = some json) :
    fields.required name decode = decode json := by
  rw [required, hget]
  rfl

theorem withDefault_eq (hget : fields.get? name = some json) (default : α) :
    fields.withDefault name default decode = decode json := by
  rw [withDefault, hget]

theorem required_bind (hget : fields.get? name = some json) {value : α}
    (hvalue : decode json = some value) (next : α → Option β) :
    (fields.required name decode >>= next) = next value := by
  rw [required_eq hget, hvalue]
  rfl

theorem withDefault_bind (hget : fields.get? name = some json) {value : α}
    (hvalue : decode json = some value) (default : α) (next : α → Option β) :
    (fields.withDefault name default decode >>= next) = next value := by
  rw [withDefault_eq hget, hvalue]
  rfl

/-- A missing value is written as null, which nothing else may be. -/
theorem optional_bind {value : Option α}
    (hget : fields.get? name = some ((value.map encode).getD .null))
    (h : Lossless encode decode) (hnull : decode .null = none) (next : Option α → Option β) :
    (fields.optional name decode >>= next) = next value := by
  suffices hvalue : fields.optional name decode = some value by rw [hvalue]; rfl
  unfold optional
  cases value with
  | none => rw [hget]; rfl
  | some value =>
    have hvalue := h.decode_encode value
    rw [Option.map_some, Option.getD_some] at hget
    split
    · next hgiven =>
      rw [hget] at hgiven
      rw [Option.some.inj hgiven, hnull] at hvalue
      cases hvalue
    · next json hgiven =>
      rw [hget] at hgiven
      rw [← Option.some.inj hgiven, hvalue]
      rfl
    · next hmissing =>
      rw [hget] at hmissing
      cases hmissing

end Fields

theorem wellFormed_ofRecord {members : List (String × Json)}
    (h : ∀ member ∈ members, member.2.WellFormed) : (ofRecord members).WellFormed :=
  .object <| List.forall_mem_map.mpr h

end Json

open Json

/-! ### Parameters -/

theorem Target.lossless : Lossless toJson ofJson? where
  wellFormed target := .string target.toHex
  decode_encode target := by
    rw [toJson, ofJson?]
    simp [asText?, ofText, Target.ofHex_toHex, Except.toOption]

theorem Network.lossless : Lossless toJson ofJson? where
  wellFormed network := .string network.name
  decode_encode network := by cases network <;> rfl

theorem RetargetAlgorithm.lossless : Lossless toJson ofJson? where
  wellFormed algorithm := .string algorithm.name
  decode_encode algorithm := by cases algorithm <;> rfl

theorem ConsensusParams.lossless : Lossless toJson ofJson? where
  wellFormed params := by
    apply wellFormed_ofRecord
    simp [Target.lossless.wellFormed, RetargetAlgorithm.lossless.wellFormed,
      Lossless.bool.wellFormed, Lossless.int64.wellFormed, Lossless.uint32.wellFormed]
  decode_encode params := by
    have hfields : Fields.ofJson? fieldNames .ignored params.toJson = some ⟨_⟩ :=
      Fields.ofJson?_ofRecord .ignored rfl (by decide)
    rw [ofJson?, hfields]
    refine (Option.bind_some _ _).trans ?_
    iterate 4 refine (Fields.required_bind rfl (Target.lossless.decode_encode _) _).trans ?_
    iterate 3 refine (Fields.required_bind rfl (Lossless.bool.decode_encode _) _).trans ?_
    iterate 5 refine (Fields.required_bind rfl (Lossless.int64.decode_encode _) _).trans ?_
    iterate 4 refine (Fields.required_bind rfl (Lossless.uint32.decode_encode _) _).trans ?_
    refine (Fields.required_bind rfl (Lossless.int64.decode_encode _) _).trans ?_
    refine (Fields.required_bind rfl (RetargetAlgorithm.lossless.decode_encode _) _).trans ?_
    iterate 2 refine (Fields.required_bind rfl (Lossless.uint32.decode_encode _) _).trans ?_
    rfl

/-! ### Configurations -/

theorem SeedCachePolicy.lossless : Lossless toJson ofJson? where
  wellFormed policy := .string policy.name
  decode_encode policy := by cases policy <;> rfl

theorem ParamsOverrides.lossless : Lossless toJson ofJson? where
  wellFormed overrides := by
    apply wellFormed_ofRecord
    simp [ofTextOrNull_eq, Lossless.text.wellFormed_getD, Lossless.bool.wellFormed_getD,
      Lossless.int64.wellFormed_getD, Lossless.uint32.wellFormed_getD,
      RetargetAlgorithm.lossless.wellFormed_getD]
  decode_encode overrides := by
    have hfields : Fields.ofJson? fieldNames .refused overrides.toJson = some ⟨_⟩ :=
      Fields.ofJson?_ofRecord .refused rfl (by decide)
    rw [ofJson?, hfields]
    refine (Option.bind_some _ _).trans ?_
    simp only [ofTextOrNull_eq]
    iterate 2 refine (Fields.optional_bind rfl Lossless.text rfl _).trans ?_
    iterate 3 refine (Fields.optional_bind rfl Lossless.bool rfl _).trans ?_
    iterate 2 refine (Fields.optional_bind rfl Lossless.int64 rfl _).trans ?_
    refine (Fields.optional_bind rfl RetargetAlgorithm.lossless rfl _).trans ?_
    iterate 4 refine (Fields.optional_bind rfl Lossless.uint32 rfl _).trans ?_
    rfl

theorem NodeConfig.lossless : Lossless toJson ofJson? where
  wellFormed config := by
    apply wellFormed_ofRecord
    simp [ofTextOrNull_eq, Network.lossless.wellFormed, ParamsOverrides.lossless.wellFormed,
      Lossless.text.wellFormed_getD, Lossless.bool.wellFormed, SeedCachePolicy.lossless.wellFormed]
  decode_encode config := by
    have hfields : Fields.ofJson? fieldNames .refused config.toJson = some ⟨_⟩ :=
      Fields.ofJson?_ofRecord .refused rfl (by decide)
    rw [ofJson?, hfields]
    refine (Option.bind_some _ _).trans ?_
    simp only [ofTextOrNull_eq]
    refine (Fields.withDefault_bind rfl (Network.lossless.decode_encode _) _ _).trans ?_
    refine (Fields.withDefault_bind rfl (ParamsOverrides.lossless.decode_encode _) _ _).trans ?_
    refine (Fields.optional_bind rfl Lossless.text rfl _).trans ?_
    refine (Fields.withDefault_bind rfl (Lossless.bool.decode_encode _) _ _).trans ?_
    refine (Fields.withDefault_bind rfl (SeedCachePolicy.lossless.decode_encode _) _ _).trans ?_
    rfl

/-! ### Fixtures -/

theorem ProofKind.lossless : Lossless toJson ofJson? where
  wellFormed kind := by cases kind <;> exact .string _
  decode_encode kind := by cases kind <;> rfl

theorem BlockEntry.lossless : Lossless toJson ofJson? where
  wellFormed entry := by
    apply wellFormed_ofRecord
    simp [ofTextOrNull_eq, Lossless.int64.wellFormed, Lossless.text.wellFormed,
      ProofKind.lossless.wellFormed, Lossless.text.wellFormed_getD]
  decode_encode entry := by
    have hfields : Fields.ofJson? fieldNames .refused entry.toJson = some ⟨_⟩ :=
      Fields.ofJson?_ofRecord .refused rfl (by decide)
    rw [ofJson?, hfields]
    refine (Option.bind_some _ _).trans ?_
    simp only [ofTextOrNull_eq]
    refine (Fields.required_bind rfl (Lossless.int64.decode_encode _) _).trans ?_
    refine (Fields.required_bind rfl (Lossless.text.decode_encode _) _).trans ?_
    refine (Fields.withDefault_bind rfl (ProofKind.lossless.decode_encode _) _ _).trans ?_
    iterate 2 refine (Fields.optional_bind rfl Lossless.text rfl _).trans ?_
    rfl

theorem ChainFixture.lossless : Lossless toJson ofJson? where
  wellFormed fixture := by
    apply wellFormed_ofRecord
    simp [ofTextOrNull_eq, BlockEntry.lossless.wellFormed, BlockEntry.lossless.list.wellFormed,
      Lossless.text.wellFormed_getD]
  decode_encode fixture := by
    have hfields : Fields.ofJson? fieldNames .refused fixture.toJson = some ⟨_⟩ :=
      Fields.ofJson?_ofRecord .refused rfl (by decide)
    rw [ofJson?, hfields]
    refine (Option.bind_some _ _).trans ?_
    simp only [ofTextOrNull_eq]
    refine (Fields.required_bind rfl (BlockEntry.lossless.decode_encode _) _).trans ?_
    refine (Fields.withDefault_bind rfl (BlockEntry.lossless.list.decode_encode _) _ _).trans ?_
    refine (Fields.optional_bind rfl Lossless.text rfl _).trans ?_
    rfl

end HybridConsensus
