import HybridConsensus.CommandLine.Run
import HybridConsensus.Proofs.JsonRecords

/-!
# What the JSON forms promise

Every form is read back. Parameters pass over members that are no fields, so that such a member
changes nothing wherever it stands. Configurations and fixtures refuse one, and so do the records
inside them.
-/

namespace HybridConsensus

namespace Json

/-- A value without items and members. -/
inductive IsScalar : Json → Prop
  | null : IsScalar .null
  | bool (value : Bool) : IsScalar (.bool value)
  | integer (negative : Bool) (magnitude : Nat) : IsScalar (.integer negative magnitude)
  | decimal {literal : String} (h : IsDecimal literal) : IsScalar (.decimal literal)
  | string (text : Option String) : IsScalar (.string text)

theorem IsScalar.wellFormed {json : Json} (h : json.IsScalar) : json.WellFormed := by
  cases h with
  | null => exact .null
  | bool value => exact .bool value
  | integer negative magnitude => exact .integer negative magnitude
  | decimal h => exact .decimal h
  | string text => exact .string text

/-- The second list has the members of the first in their order, and scalars under other names
anywhere between them. -/
inductive Interspersed (names : List String) :
    List (Option String × Json) → List (Option String × Json) → Prop
  | nil : Interspersed names [] []
  | keep (member : Option String × Json) {members longer : List (Option String × Json)}
    (h : Interspersed names members longer) :
    Interspersed names (member :: members) (member :: longer)
  | add {name : String} (hname : name ∉ names) {value : Json} (hvalue : value.IsScalar)
    {members longer : List (Option String × Json)} (h : Interspersed names members longer) :
    Interspersed names members ((some name, value) :: longer)

/-- One object is the other with members added that are no fields. -/
def Gains (names : List String) (json longer : Json) : Prop :=
  ∃ members others, Interspersed names members others ∧ json = .object members ∧
    longer = .object others

/-- A member of the object is no field. -/
def HasUnknown (names : List String) (json : Json) : Prop :=
  ∃ members, json = .object members ∧ ∃ member ∈ members, ∀ name ∈ names, member.1 ≠ some name

/-- The record has the value for a field. -/
inductive HasField (names : List String) (name : String) (value : Json) : Json → Prop
  | member {members : List (Option String × Json)} (h : (some name, value) ∈ members) :
    HasField names name value (.object members)
  | item {items : List Json} (h : (name, value) ∈ names.zip items) :
    HasField names name value (.array items)

/-! ### Members that are passed over -/

section Gained

variable {names : List String} {members longer : List (Option String × Json)}

theorem Interspersed.refl (names : List String) :
    ∀ members : List (Option String × Json), Interspersed names members members
  | [] => .nil
  | member :: members => .keep member (.refl names members)

theorem Interspersed.ofMembers?_eq (h : Interspersed names members longer) :
    Fields.ofMembers? names .ignored longer = Fields.ofMembers? names .ignored members := by
  induction h with
  | nil => rfl
  | keep member h ih =>
    obtain ⟨name, value⟩ := member
    cases name with
    | none => rfl
    | some name => rw [Fields.ofMembers?, Fields.ofMembers?, ih]
  | add hname hvalue h ih =>
    rw [Fields.ofMembers?, ih]
    simp only [if_neg hname, if_pos]
    exact Option.bind_fun_some _

theorem Interspersed.forall_wellFormed (h : Interspersed names members longer)
    (hmembers : ∀ member ∈ members, member.2.WellFormed) :
    ∀ member ∈ longer, member.2.WellFormed := by
  induction h with
  | nil => exact hmembers
  | keep member h ih =>
    rw [List.forall_mem_cons] at hmembers ⊢
    exact ⟨hmembers.1, ih hmembers.2⟩
  | add hname hvalue h ih => exact List.forall_mem_cons.mpr ⟨hvalue.wellFormed, ih hmembers⟩

theorem Gains.wellFormed {json longer : Json} (h : Gains names json longer)
    (hjson : json.WellFormed) : longer.WellFormed := by
  obtain ⟨members, others, hothers, rfl, rfl⟩ := h
  cases hjson with
  | object hmembers => exact .object (hothers.forall_wellFormed hmembers)

theorem Gains.ofJson?_eq {json longer : Json} (h : Gains names json longer) :
    Fields.ofJson? names .ignored longer = Fields.ofJson? names .ignored json := by
  obtain ⟨members, others, hothers, rfl, rfl⟩ := h
  exact hothers.ofMembers?_eq

end Gained

/-! ### Members that are refused -/

namespace Fields

variable {α : Type} {names : List String} {unknown : UnknownMembers} {fields : Fields}
  {name : String} {value json : Json} {decode : Json → Option α}

/-- A known name must be new, and an unknown one is passed over or refused. -/
theorem ofMembers?_cons_eq_some_iff {members : List (Option String × Json)} :
    ofMembers? names unknown ((some name, value) :: members) = some fields ↔
      ∃ rest, ofMembers? names unknown members = some rest ∧
        (name ∈ names ∧ rest.get? name = none ∧ fields = ⟨(name, value) :: rest.given⟩ ∨
          name ∉ names ∧ unknown = .ignored ∧ fields = rest) := by
  rw [ofMembers?, Option.bind_eq_bind, Option.bind_eq_some_iff]
  refine exists_congr fun rest => and_congr_right fun _ => ?_
  by_cases hname : name ∈ names <;> simp [hname, @eq_comm _ fields]

theorem ofMembers?_refused {members : List (Option String × Json)}
    (h : ∃ member ∈ members, ∀ name ∈ names, member.1 ≠ some name) :
    ofMembers? names .refused members = none := by
  induction members with
  | nil => simp at h
  | cons member members ih =>
    obtain ⟨name, value⟩ := member
    cases name with
    | none => rfl
    | some name =>
      rw [Option.eq_none_iff_forall_ne_some]
      intro fields hfields
      obtain ⟨rest, hrest, ⟨hname, -⟩ | ⟨-, hignored, -⟩⟩ := ofMembers?_cons_eq_some_iff.mp hfields
      · obtain hhead | htail := (List.exists_mem_cons_iff _ _ _).mp h
        · exact hhead name hname rfl
        · rw [ih htail] at hrest
          cases hrest
      · cases hignored

theorem ofJson?_refused (h : HasUnknown names json) : ofJson? names .refused json = none := by
  obtain ⟨members, rfl, hunknown⟩ := h
  exact ofMembers?_refused hunknown

theorem get?_of_ofMembers? {members : List (Option String × Json)}
    (h : ofMembers? names unknown members = some fields) (hname : name ∈ names)
    (hmember : (some name, value) ∈ members) : fields.get? name = some value := by
  induction members generalizing fields with
  | nil => cases hmember
  | cons member members ih =>
    obtain ⟨given, other⟩ := member
    cases given with
    | none => cases h
    | some given =>
      obtain ⟨rest, hrest, ⟨-, hfresh, rfl⟩ | ⟨hgiven, -, rfl⟩⟩ :=
        ofMembers?_cons_eq_some_iff.mp h
      · rcases List.mem_cons.mp hmember with hhead | htail
        · obtain ⟨hsame, rfl⟩ := Prod.mk.inj hhead
          rw [Option.some.inj hsame]
          exact List.lookup_cons_self
        · have hget := ih hrest htail
          have hne : name ≠ given := by
            rintro rfl
            rw [hget] at hfresh
            cases hfresh
          rw [get?, List.lookup_cons, beq_false_of_ne hne]
          exact hget
      · rcases List.mem_cons.mp hmember with hhead | htail
        · rw [Option.some.inj (Prod.mk.inj hhead).1] at hname
          exact absurd hname hgiven
        · exact ih hrest htail

theorem nodup_map_fst_zip (hnodup : names.Nodup) (items : List Json) :
    ((names.zip items).map Prod.fst).Nodup := by
  induction names generalizing items with
  | nil => simp
  | cons name names ih =>
    rw [List.nodup_cons] at hnodup
    cases items with
    | nil => simp
    | cons item items =>
      rw [List.zip_cons_cons, List.map_cons, List.nodup_cons]
      refine ⟨fun hmem => ?_, ih hnodup.2 items⟩
      obtain ⟨⟨_, _⟩, hzip, rfl⟩ := List.mem_map.mp hmem
      exact hnodup.1 (List.of_mem_zip hzip).1

theorem lookup_of_mem {given : List (String × Json)} (hnodup : (given.map Prod.fst).Nodup)
    (hmem : (name, value) ∈ given) : given.lookup name = some value := by
  obtain ⟨before, after, rfl⟩ := List.append_of_mem hmem
  refine List.lookup_eq_some_iff.mpr ⟨before, after, rfl, fun member hmember => ?_⟩
  rw [List.map_append, List.map_cons, List.nodup_append] at hnodup
  rw [bne_iff_ne]
  exact (hnodup.2.2 _ (List.mem_map_of_mem hmember) _ List.mem_cons_self).symm

theorem get?_of_hasField (h : ofJson? names unknown json = some fields) (hnodup : names.Nodup)
    (hname : name ∈ names) (hfield : HasField names name value json) :
    fields.get? name = some value := by
  cases hfield with
  | member hmember => exact get?_of_ofMembers? h hname hmember
  | item hitem =>
    rw [ofJson?] at h
    split at h
    · rw [← Option.some.inj h]
      exact lookup_of_mem (nodup_map_fst_zip hnodup _) hitem
    · cases h

end Fields

theorem asList?_eq_some {α : Type} {decode : Json → Option α} {items : List Json} {values : List α}
    (h : asList? decode (.array items) = some values) {item : Json} (hitem : item ∈ items) :
    ∃ value, decode item = some value := by
  rw [asList?] at h
  induction items generalizing values with
  | nil => cases hitem
  | cons first items ih =>
    rw [List.mapM_cons] at h
    obtain ⟨value, hfirst, h⟩ := Option.bind_eq_some_iff.mp h
    obtain ⟨others, hothers, -⟩ := Option.bind_eq_some_iff.mp h
    rcases List.mem_cons.mp hitem with rfl | htail
    · exact ⟨value, hfirst⟩
    · exact ih hothers htail

end Json

open Json

theorem ConsensusParams.ofJson?_of_gains {json longer : Json} (h : Gains fieldNames json longer) :
    ofJson? longer = ofJson? json := by
  rw [ofJson?, ofJson?, h.ofJson?_eq]

theorem ParamsOverrides.ofJson?_refused {json : Json} (h : HasUnknown fieldNames json) :
    ofJson? json = .none := by
  rw [ofJson?, Fields.ofJson?_refused h]
  rfl

theorem BlockEntry.ofJson?_refused {json : Json} (h : HasUnknown fieldNames json) :
    ofJson? json = none := by
  rw [ofJson?, Fields.ofJson?_refused h]
  rfl

namespace NodeConfig

/-- A member of the configuration or of its parameters is no field. -/
def HasUnknown (json : Json) : Prop :=
  Json.HasUnknown fieldNames json ∨
    ∃ params, HasField fieldNames "params" params json ∧
      Json.HasUnknown ParamsOverrides.fieldNames params

theorem ofJson?_refused {json : Json} (h : HasUnknown json) : ofJson? json = none := by
  rw [Option.eq_none_iff_forall_ne_some]
  intro config hconfig
  obtain ⟨fields, hfields, hconfig⟩ := Option.bind_eq_some_iff.mp hconfig
  rcases h with hunknown | ⟨params, hparams, hunknown⟩
  · rw [Fields.ofJson?_refused hunknown] at hfields
    cases hfields
  · obtain ⟨_, _, hconfig⟩ := Option.bind_eq_some_iff.mp hconfig
    obtain ⟨_, hdecoded, _⟩ := Option.bind_eq_some_iff.mp hconfig
    have hget := Fields.get?_of_hasField hfields (by decide) (by decide) hparams
    rw [Fields.withDefault_eq hget, ParamsOverrides.ofJson?_refused hunknown] at hdecoded
    cases hdecoded

theorem ofText_print (config : NodeConfig) : ofText config.toJson.print = .ok config := by
  rw [ofText, lossless.read?_print]

theorem ofText_refused {text : String} {json : Json} (hread : read? text = some json)
    (h : HasUnknown json) : ofText text = .error .invalidFormat := by
  rw [ofText, hread, Option.bind_some, ofJson?_refused h]

end NodeConfig

namespace ChainFixture

/-- A member of the fixture or of one of its entries is no field. -/
def HasUnknown (json : Json) : Prop :=
  Json.HasUnknown fieldNames json ∨
    (∃ entry, HasField fieldNames "genesis" entry json ∧
      Json.HasUnknown BlockEntry.fieldNames entry) ∨
    ∃ entries, HasField fieldNames "blocks" (.array entries) json ∧
      ∃ entry ∈ entries, Json.HasUnknown BlockEntry.fieldNames entry

theorem ofJson?_refused {json : Json} (h : HasUnknown json) : ofJson? json = none := by
  rw [Option.eq_none_iff_forall_ne_some]
  intro fixture hfixture
  obtain ⟨fields, hfields, hfixture⟩ := Option.bind_eq_some_iff.mp hfixture
  rcases h with hunknown | hentry
  · rw [Fields.ofJson?_refused hunknown] at hfields
    cases hfields
  obtain ⟨_, hgenesis, hfixture⟩ := Option.bind_eq_some_iff.mp hfixture
  obtain ⟨_, hblocks, -⟩ := Option.bind_eq_some_iff.mp hfixture
  rcases hentry with ⟨entry, hentry, hunknown⟩ | ⟨entries, hentries, entry, hentry, hunknown⟩
  · have hget := Fields.get?_of_hasField hfields (by decide) (by decide) hentry
    rw [Fields.required_eq hget, BlockEntry.ofJson?_refused hunknown] at hgenesis
    cases hgenesis
  · have hget := Fields.get?_of_hasField hfields (by decide) (by decide) hentries
    rw [Fields.withDefault_eq hget] at hblocks
    obtain ⟨_, hdecoded⟩ := asList?_eq_some hblocks hentry
    rw [BlockEntry.ofJson?_refused hunknown] at hdecoded
    cases hdecoded

theorem ofText_print (fixture : ChainFixture) : ofText fixture.toJson.print = .ok fixture := by
  rw [ofText, lossless.read?_print]

theorem ofText_refused {text : String} {json : Json} (hread : read? text = some json)
    (h : HasUnknown json) : ofText text = .error .invalidFormat := by
  rw [ofText, hread, Option.bind_some, ofJson?_refused h]

end ChainFixture

/-! ### What the command shows -/

theorem flatMap_cutAt (separator : Char) (text : List Char) :
    (cutAt separator text).flatMap (· ++ [separator]) = text ++ [separator] := by
  induction text with
  | nil => rfl
  | cons character text ih =>
    rw [cutAt]
    split
    · next hseparator => rw [List.flatMap_cons, ih, hseparator]; rfl
    · cases hparts : cutAt separator text with
      | nil => simp [hparts] at ih
      | cons part parts =>
        rw [hparts] at ih
        simpa using ih

namespace CommandLine

/-- The text of lines that each end with a line break. -/
def printed (lines : List String) : String :=
  String.join (lines.map (· ++ "\n"))

theorem toList_printed_cutAt (text : List Char) :
    (printed ((cutAt '\n' text).map String.ofList)).toList = text ++ ['\n'] := by
  rw [← flatMap_cutAt, printed, String.toList_join, List.flatMap_map, List.flatMap_map]
  refine congrArg (List.flatMap · _) (funext fun line => ?_)
  rw [String.toList_append, String.toList_ofList]
  rfl

end CommandLine

theorem ConsensusParams.exists_lines_read (params : ConsensusParams) (surroundings config) :
    ∃ lines, CommandLine.runCommand surroundings config params (.params true) =
        .ok (CommandLine.textLines lines, none) ∧
      (read? (CommandLine.printed lines)).bind ofJson? = some params := by
  have htext := CommandLine.toList_printed_cutAt (params.toJson.writePretty 0 [])
  refine ⟨_, rfl, ?_⟩
  rw [writePretty_eq, List.append_nil] at htext
  have hread := (lossless.wellFormed params).read?_of_toList_eq (by simp [isBlank]) htext
  rw [writePretty_eq, List.append_nil, if_pos rfl, hread, Option.bind_some, lossless.decode_encode]

/-- Each form is read back as the value that it was printed for. Parameters stay the same when
scalars under other names are added; a configuration or a fixture with such a member anywhere is
refused. -/
theorem json_forms_lossless :
    (∀ params : ConsensusParams,
      (read? params.toJson.print).bind ConsensusParams.ofJson? = some params ∧
      (read? params.toJson.printPretty).bind ConsensusParams.ofJson? = some params ∧
      (∀ surroundings config, ∃ lines,
        CommandLine.runCommand surroundings config params (.params true) =
          .ok (CommandLine.textLines lines, none) ∧
        (read? (CommandLine.printed lines)).bind ConsensusParams.ofJson? = some params) ∧
      ∀ longer, Gains ConsensusParams.fieldNames params.toJson longer →
        (read? longer.print).bind ConsensusParams.ofJson? = some params ∧
        (read? longer.printPretty).bind ConsensusParams.ofJson? = some params) ∧
    (∀ text json longerText longer, read? text = some json → read? longerText = some longer →
      Gains ConsensusParams.fieldNames json longer →
      (read? longerText).bind ConsensusParams.ofJson? =
        (read? text).bind ConsensusParams.ofJson?) ∧
    (∀ config : NodeConfig, NodeConfig.ofText config.toJson.print = .ok config) ∧
    (∀ text json, read? text = some json → NodeConfig.HasUnknown json →
      NodeConfig.ofText text = .error .invalidFormat) ∧
    (∀ fixture : ChainFixture, ChainFixture.ofText fixture.toJson.print = .ok fixture) ∧
    ∀ text json, read? text = some json → ChainFixture.HasUnknown json →
      ChainFixture.ofText text = .error .invalidFormat := by
  refine ⟨fun params => ⟨?_, ?_, ?_, fun longer hlonger => ?_⟩, ?_, ?_, ?_, ?_, ?_⟩
  · exact ConsensusParams.lossless.read?_print params
  · exact ConsensusParams.lossless.read?_printPretty params
  · exact params.exists_lines_read
  · have hwellFormed := hlonger.wellFormed (ConsensusParams.lossless.wellFormed params)
    have hsame := (ConsensusParams.ofJson?_of_gains hlonger).trans
      (ConsensusParams.lossless.decode_encode params)
    rw [hwellFormed.read?_print, hwellFormed.read?_printPretty]
    exact ⟨hsame, hsame⟩
  · intro text json longerText longer htext hlongerText hlonger
    rw [htext, hlongerText]
    exact ConsensusParams.ofJson?_of_gains hlonger
  · exact NodeConfig.ofText_print
  · exact fun text json => NodeConfig.ofText_refused
  · exact ChainFixture.ofText_print
  · exact fun text json => ChainFixture.ofText_refused

/-- A name with an escape is the same name, and one letter more makes it an unknown one. -/
example :
    (NodeConfig.ofText "\x7b\"hash\\u005fmemo\": true\x7d").map NodeConfig.hashMemo = .ok true ∧
    NodeConfig.ofText "\x7b\"hash_memos\": true\x7d" = .error .invalidFormat := by
  decide +kernel

theorem isDecimal_1e400 : IsDecimal "1e400" :=
  ⟨false, ['1'], [], ['e', '4', '0', '0'], by simp [IsWhole, IsDigits], .inl rfl,
    by simp [IsExponent, IsDigits], by simp, rfl⟩

/-- The only member is a field of no record, and its value fits no type of number. -/
def commented : Json :=
  .object [(some "comment", .decimal "1e400")]

theorem wellFormed_commented : commented.WellFormed :=
  .object <| List.forall_mem_singleton.mpr <| .decimal isDecimal_1e400

theorem hasUnknown_commented {names : List String} (hnames : "comment" ∉ names) :
    HasUnknown names commented := by
  refine ⟨_, rfl, _, List.mem_singleton_self _, fun name hname hcomment => ?_⟩
  rw [← Option.some.inj hcomment] at hname
  exact hnames hname

theorem json_forms_lossless_commented :
    ∃ members, ConsensusParams.main.toJson = .object members ∧
      (read? (Json.object ((some "comment", .decimal "1e400") :: members)).printPretty).bind
        ConsensusParams.ofJson? = some .main ∧
      (read? (Json.object ((some "comment", .decimal "1e400") :: members)).print).bind
        ConsensusParams.ofJson? =
          (read? ConsensusParams.main.toJson.print).bind ConsensusParams.ofJson? ∧
      NodeConfig.ofText (Json.object [(some "params", commented)]).print =
        .error .invalidFormat ∧
      ChainFixture.ofText (Json.object [(some "blocks", .array [commented])]).print =
        .error .invalidFormat := by
  obtain ⟨hparams, hsame, -, hconfig, -, hfixture⟩ := json_forms_lossless
  have hmain := ConsensusParams.lossless.wellFormed .main
  obtain ⟨members, hmembers⟩ : ∃ members, ConsensusParams.main.toJson = .object members :=
    ⟨_, rfl⟩
  have hgains : Gains ConsensusParams.fieldNames ConsensusParams.main.toJson
      (.object ((some "comment", .decimal "1e400") :: members)) :=
    ⟨_, _, .add (by decide) (.decimal isDecimal_1e400) (.refl _ members), hmembers, rfl⟩
  have hgained := hgains.wellFormed hmain
  refine ⟨members, hmembers, ((hparams .main).2.2.2 _ hgains).2,
    hsame _ _ _ _ hmain.read?_print hgained.read?_print hgains, ?_, ?_⟩
  · have hwellFormed : WellFormed (.object [(some "params", commented)]) :=
      .object (List.forall_mem_singleton.mpr wellFormed_commented)
    exact hconfig _ _ hwellFormed.read?_print
      (.inr ⟨_, .member (List.mem_singleton_self _), hasUnknown_commented (by decide)⟩)
  · have hwellFormed : WellFormed (.object [(some "blocks", .array [commented])]) :=
      .object (List.forall_mem_singleton.mpr
        (.array (List.forall_mem_singleton.mpr wellFormed_commented)))
    exact hfixture _ _ hwellFormed.read?_print
      (.inr (.inr ⟨_, .member (List.mem_singleton_self _), _, List.mem_singleton_self _,
        hasUnknown_commented (by decide)⟩))

end HybridConsensus
