import HybridConsensus.Config.Basic
import HybridConsensus.Proofs.FirstFailure
import HybridConsensus.Proofs.IntervalSchedule

/-!
# The parameters in effect

The overrides of a configuration are put into the preset of its network, the two limits first, and
the result is checked as a whole. So the first limit that cannot be read is what a configuration is
refused for, and otherwise the first reason against the parameters. The check does not compare the
fast spacing with the first timespan, which meet if the fast era is the earlier one. No override
reaches either of them, though, and in every preset the one fits in the other.
-/

namespace HybridConsensus

/-- What a field holds once an override, if there is one, has taken its place. A given override is
`stands` for its value. -/
def Overridden {β α : Type} (stands : β → α → Prop) (override : Option β) (before after : α) :
    Prop :=
  (∀ given, override = some given → stands given after) ∧ (override = none → after = before)

theorem overridden_eq_iff {α : Type} {override : Option α} {before after : α} :
    Overridden Eq override before after ↔ after = override.getD before := by
  cases override <;> simp [Overridden, eq_comm]

/-- The text is read as this target. -/
def Target.Names (text : String) (target : Target) : Prop :=
  ofHex text = .ok target

/-! ### The limits -/

section Limits

variable {field : String} {text : Option String} {before after : Target} {error : ConfigError}

theorem overriddenTarget_eq_ok_iff :
    overriddenTarget field text before = .ok after ↔
      Overridden Target.Names text before after := by
  cases text with
  | none => simp [overriddenTarget, Overridden, eq_comm]
  | some given =>
    simp only [overriddenTarget, Overridden, Target.Names, Option.some.injEq, forall_eq',
      reduceCtorEq, false_implies, and_true]
    cases Target.ofHex given <;> simp

theorem overriddenTarget_eq_error_iff :
    overriddenTarget field text before = .error error ↔
      ∃ given, text = some given ∧ (¬ ∃ target, Target.Names given target) ∧
        error = .invalidTarget field given := by
  cases text with
  | none => simp [overriddenTarget]
  | some given =>
    simp only [overriddenTarget, Target.Names, Option.some.injEq, exists_eq_left']
    cases Target.ofHex given <;> simp [eq_comm]

theorem exists_overridden_iff (before : Target) :
    (∃ after, Overridden Target.Names text before after) ↔
      ∀ given, text = some given → ∃ target, Target.Names given target := by
  cases text <;> simp [Overridden]

end Limits

/-! ### All fields -/

/-- The parameters are those of `preset` with every override that is given in place of its field. -/
structure ParamsOverrides.Substitutes (overrides : ParamsOverrides)
    (preset params : ConsensusParams) : Prop where
  workLimit : Overridden Target.Names overrides.workLimit preset.workLimit params.workLimit
  stakeLimit : Overridden Target.Names overrides.stakeLimit preset.stakeLimit params.stakeLimit
  allowsMinimumDifficulty : Overridden Eq overrides.allowsMinimumDifficulty
    preset.allowsMinimumDifficulty params.allowsMinimumDifficulty
  workIsFixed : Overridden Eq overrides.workIsFixed preset.workIsFixed params.workIsFixed
  stakeIsFixed : Overridden Eq overrides.stakeIsFixed preset.stakeIsFixed params.stakeIsFixed
  spacing : Overridden Eq overrides.spacing preset.spacing params.spacing
  averagingWindow : Overridden Eq overrides.averagingWindow preset.averagingWindow
    params.averagingWindow
  algorithm : Overridden Eq overrides.algorithm preset.algorithm params.algorithm
  qip9Height : Overridden Eq overrides.qip9Height preset.qip9Height params.qip9Height
  fastHeight : Overridden Eq overrides.fastHeight preset.fastHeight params.fastHeight
  seedHeight : Overridden Eq overrides.seedHeight preset.seedHeight params.seedHeight
  seedInterval : Overridden Eq overrides.seedInterval preset.seedInterval params.seedInterval
  qip9StakeLimit : params.qip9StakeLimit = preset.qip9StakeLimit
  fastStakeLimit : params.fastStakeLimit = preset.fastStakeLimit
  fastSpacing : params.fastSpacing = preset.fastSpacing
  timespan : params.timespan = preset.timespan
  qip9Timespan : params.qip9Timespan = preset.qip9Timespan
  fastTimespan : params.fastTimespan = preset.fastTimespan
  stakeTimeMask : params.stakeTimeMask = preset.stakeTimeMask
  fastStakeTimeMask : params.fastStakeTimeMask = preset.fastStakeTimeMask

namespace ParamsOverrides

variable {overrides : ParamsOverrides} {preset params : ConsensusParams} {error : ConfigError}

theorem apply_eq_ok_iff :
    overrides.apply preset = .ok params ↔ overrides.Substitutes preset params := by
  rw [apply, bind_eq_ok_iff]
  simp only [bind_eq_ok_iff, overriddenTarget_eq_ok_iff]
  constructor
  · rintro ⟨workLimit, hwork, stakeLimit, hstake, hparams⟩
    obtain rfl := Except.ok.inj hparams
    constructor <;> first | assumption | rfl | exact overridden_eq_iff.mpr rfl
  · intro h
    refine ⟨_, h.workLimit, _, h.stakeLimit, congrArg Except.ok ?_⟩
    -- Apart from the limits, which have been read, each field of `h` is an equation.
    cases h
    cases params
    simp only [overridden_eq_iff] at *
    subst_vars
    rfl

theorem apply_eq_error_iff :
    overrides.apply preset = .error error ↔
      (∃ text, overrides.workLimit = some text ∧ (¬ ∃ target, Target.Names text target) ∧
        error = .invalidTarget "pow_limit" text) ∨
      (∀ text, overrides.workLimit = some text → ∃ target, Target.Names text target) ∧
        ∃ text, overrides.stakeLimit = some text ∧ (¬ ∃ target, Target.Names text target) ∧
          error = .invalidTarget "pos_limit" text := by
  rw [apply, bind_eq_error_iff, overriddenTarget_eq_error_iff]
  refine or_congr_right ?_
  simp only [bind_eq_error_iff, overriddenTarget_eq_error_iff, overriddenTarget_eq_ok_iff]
  rw [← exists_overridden_iff preset.workLimit]
  constructor
  · rintro ⟨workLimit, hwork, hfailed | ⟨_, _, hdone⟩⟩
    · exact ⟨⟨workLimit, hwork⟩, hfailed⟩
    · cases hdone
  · rintro ⟨⟨workLimit, hwork⟩, hfailed⟩
    exact ⟨workLimit, hwork, .inl hfailed⟩

theorem Substitutes.fastSpacing_le_timespan {network : Network}
    (h : overrides.Substitutes (.ofNetwork network) params) :
    params.fastSpacing ≤ params.timespan := by
  rw [h.fastSpacing, h.timespan]
  cases network <;> decide

end ParamsOverrides

/-! ### Checked as a whole -/

namespace NodeConfig

variable {config : NodeConfig} {params : ConsensusParams} {error : ConfigError}

/-- What a configuration makes of the preset of its network. -/
def Substitutes (config : NodeConfig) (params : ConsensusParams) : Prop :=
  config.params.Substitutes (.ofNetwork config.network) params

/-- Parameters that a network can run with, or the reason against them. -/
def checked (params : ConsensusParams) : Except ConfigError ConsensusParams :=
  match params.validate with
  | .ok () => .ok params
  | .error reason => .error (.params reason)

theorem checked_eq_ok_iff {middle : ConsensusParams} :
    checked middle = .ok params ↔ middle = params ∧ middle.validate = .ok () := by
  unfold checked
  cases middle.validate <;> simp

theorem checked_eq_error_iff :
    checked params = .error error ↔
      ∃ reason, params.validate = .error reason ∧ error = .params reason := by
  unfold checked
  cases params.validate <;> simp [eq_comm]

theorem consensusParams_eq (config : NodeConfig) :
    config.consensusParams = config.params.apply (.ofNetwork config.network) >>= checked :=
  rfl

theorem consensusParams_eq_ok_iff :
    config.consensusParams = .ok params ↔
      config.Substitutes params ∧ params.validate = .ok () := by
  rw [consensusParams_eq, bind_eq_ok_iff]
  simp only [ParamsOverrides.apply_eq_ok_iff, checked_eq_ok_iff]
  constructor
  · rintro ⟨middle, hmiddle, rfl, hvalidate⟩
    exact ⟨hmiddle, hvalidate⟩
  · rintro ⟨hparams, hvalidate⟩
    exact ⟨params, hparams, rfl, hvalidate⟩

theorem consensusParams_eq_error_iff :
    config.consensusParams = .error error ↔
      config.params.apply (.ofNetwork config.network) = .error error ∨
      ∃ params, config.Substitutes params ∧
        ∃ reason, params.validate = .error reason ∧ error = .params reason := by
  rw [consensusParams_eq, bind_eq_error_iff]
  simp only [ParamsOverrides.apply_eq_ok_iff, checked_eq_error_iff]
  rfl

/-- Each spacing and each interval is at least one, whichever era begins first. -/
theorem interval_pos_of_consensusParams (h : config.consensusParams = .ok params) (height : Nat) :
    1 ≤ params.spacingAt height ∧
      ∃ interval, params.intervalAt height = .ok interval ∧ 1 ≤ interval := by
  obtain ⟨hparams, hvalidate⟩ := consensusParams_eq_ok_iff.mp h
  have hvalid := ConsensusParams.validate_eq_ok_iff.mp hvalidate
  obtain ⟨interval, hinterval, -, hpositive⟩ := hvalid.exists_intervalAt_eq_ok height
  have hpair : params.PairFits height := fun _ _ =>
    Int64.le_iff_toInt_le.mp (ParamsOverrides.Substitutes.fastSpacing_le_timespan hparams)
  exact ⟨hvalid.spacingAt_pos height, interval, hinterval, hpositive.mpr hpair⟩

/-- The parameters in effect are the preset of the network with each override that is given in place
of its field, and all other fields as they were. A configuration has none if the one limit, or else
the other, is given and cannot be read, or else if the check refuses the result, and each of these
is named. What a configuration does give has spacings and intervals of at least one at all heights.
-/
theorem consensusParams_names_first_failure (config : NodeConfig) :
    (∀ text, config.consensusParams = .error (.invalidTarget "pow_limit" text) ↔
      config.params.workLimit = some text ∧ ¬ ∃ target, Target.Names text target) ∧
    (∀ text, config.consensusParams = .error (.invalidTarget "pos_limit" text) ↔
      (∀ work, config.params.workLimit = some work → ∃ target, Target.Names work target) ∧
        config.params.stakeLimit = some text ∧ ¬ ∃ target, Target.Names text target) ∧
    (∀ reason, config.consensusParams = .error (.params reason) ↔
      ∃ params, config.Substitutes params ∧ params.validate = .error reason) ∧
    (∀ params, config.consensusParams = .ok params ↔
      config.Substitutes params ∧ params.validate = .ok ()) ∧
    (∀ error, config.consensusParams = .error error →
      (∃ text, error = .invalidTarget "pow_limit" text) ∨
        (∃ text, error = .invalidTarget "pos_limit" text) ∨ ∃ reason, error = .params reason) ∧
    ∀ params, config.consensusParams = .ok params →
      ∀ height, 1 ≤ params.spacingAt height ∧
        ∃ interval, params.intervalAt height = .ok interval ∧ 1 ≤ interval := by
  refine ⟨fun text => ?_, fun text => ?_, fun reason => ?_, fun params => ?_, ?_, ?_⟩
  · rw [consensusParams_eq_error_iff, ParamsOverrides.apply_eq_error_iff]
    simp
  · rw [consensusParams_eq_error_iff, ParamsOverrides.apply_eq_error_iff]
    simp
  · rw [consensusParams_eq_error_iff, ParamsOverrides.apply_eq_error_iff]
    simp
  · exact consensusParams_eq_ok_iff
  · intro error herror
    rw [consensusParams_eq_error_iff, ParamsOverrides.apply_eq_error_iff] at herror
    rcases herror with (⟨text, -, -, rfl⟩ | ⟨-, text, -, -, rfl⟩) | ⟨_, -, reason, -, rfl⟩
    · exact .inl ⟨text, rfl⟩
    · exact .inr (.inl ⟨text, rfl⟩)
    · exact .inr (.inr ⟨reason, rfl⟩)
  · intro params hparams
    exact interval_pos_of_consensusParams hparams

/-- Of three faults the work limit is named. -/
example :
    { NodeConfig.default with
      params := { ParamsOverrides.none with
        workLimit := some "zz"
        stakeLimit := some "-1"
        seedInterval := some 0 } }.consensusParams =
      .error (.invalidTarget "pow_limit" "zz") := by
  decide +kernel

end NodeConfig

end HybridConsensus
