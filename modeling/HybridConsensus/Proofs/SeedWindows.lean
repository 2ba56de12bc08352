import HybridConsensus.Proofs.SeedSelection
import Mathlib.Algebra.Order.Group.Nat
import Mathlib.Order.Bounds.Basic
import Mathlib.Tactic.GCongr

/-!
# Seed windows in closed form

An anchor is found by asking where a height lies in its window and by going back a window or not.
Both answers are one: the last start of a window before the height that lies lower by the switch
offset. The quotient of that lower height by the interval counts the windows, and what is wanted of
seed heights follows from the quotient. It never falls, and it grows only where the interval divides
the lower height, which two heights less than an interval apart cannot both do.
-/

namespace HybridConsensus.SeedSchedule

variable {schedule : SeedSchedule} {height anchor : Nat}

/-- The start of the last window that begins below `height` less the switch offset. -/
def windowBelow (schedule : SeedSchedule) (height : Nat) : Nat :=
  (height - schedule.switchOffset - 1) / schedule.interval * schedule.interval

theorem switchOffset_lt (hpos : 0 < schedule.interval) :
    schedule.switchOffset < schedule.interval :=
  Nat.mod_lt _ hpos

/-- The two ways to an anchor are one. -/
theorem anchorHeight?_eq (hpos : 0 < schedule.interval) (height : Nat) :
    schedule.anchorHeight? height =
      if height ≤ schedule.switchOffset then none else some (schedule.windowBelow height) := by
  have hoffset := switchOffset_lt hpos
  have hparts := Nat.div_add_mod' height schedule.interval
  have hremainder := Nat.mod_lt height hpos
  have hstart : height - height % schedule.interval =
      height / schedule.interval * schedule.interval := by omega
  unfold anchorHeight?
  simp only [hstart]
  by_cases hpast : schedule.switchOffset < height % schedule.interval
  · -- The lower height is in the window of the height.
    have hsame : (height - schedule.switchOffset - 1) / schedule.interval =
        height / schedule.interval := by
      refine Nat.div_eq_of_lt_le ?_ ?_
      · omega
      · rw [Nat.succ_mul]
        omega
    rw [if_pos hpast, if_neg (by omega), windowBelow, hsame]
  · rw [if_neg hpast]
    by_cases hfirst : height / schedule.interval = 0
    · -- The height is in the first window and has none before it.
      rw [hfirst, Nat.zero_mul] at hparts ⊢
      rw [if_neg (by omega), if_pos (by omega)]
    · -- The lower height is in the window before.
      obtain ⟨before, hbefore⟩ := Nat.exists_eq_succ_of_ne_zero hfirst
      rw [hbefore, Nat.succ_mul] at hparts ⊢
      have hlower : (height - schedule.switchOffset - 1) / schedule.interval = before := by
        refine Nat.div_eq_of_lt_le ?_ ?_
        · omega
        · rw [Nat.succ_mul]
          omega
      rw [if_pos (Nat.le_add_left _ _), if_neg (by omega), windowBelow, hlower,
        Nat.add_sub_cancel]

theorem anchorHeight?_eq_none_iff (hpos : 0 < schedule.interval) :
    schedule.anchorHeight? height = none ↔ height ≤ schedule.switchOffset := by
  rw [anchorHeight?_eq hpos]
  simp

theorem anchorHeight?_eq_some_iff (hpos : 0 < schedule.interval) :
    schedule.anchorHeight? height = some anchor ↔
      schedule.switchOffset < height ∧ schedule.windowBelow height = anchor := by
  rw [anchorHeight?_eq hpos]
  simp

/-- Zero stands in for a missing anchor, and the quotient gives it there too. -/
theorem seedBlockHeight_eq_windowBelow (hpos : 0 < schedule.interval) (height : Nat) :
    schedule.seedBlockHeight height = schedule.windowBelow height - schedule.seedHeight := by
  rw [seedBlockHeight_eq, anchorHeight?_eq hpos]
  by_cases hlow : height ≤ schedule.switchOffset
  · simp [hlow, windowBelow]
  · simp [hlow]

/-! ### The last start -/

theorem windowBelow_lt (habove : schedule.switchOffset < height) :
    schedule.windowBelow height < height - schedule.switchOffset := by
  have hle := Nat.div_mul_le_self (height - schedule.switchOffset - 1) schedule.interval
  unfold windowBelow
  omega

theorem isGreatest_windowBelow (hpos : 0 < schedule.interval)
    (habove : schedule.switchOffset < height) :
    IsGreatest {start | schedule.interval ∣ start ∧ start < height - schedule.switchOffset}
      (schedule.windowBelow height) := by
  refine ⟨⟨Nat.dvd_mul_left _ _, windowBelow_lt habove⟩, ?_⟩
  rintro _ ⟨⟨count, rfl⟩, hlt⟩
  unfold windowBelow
  rw [Nat.mul_comm]
  refine Nat.mul_le_mul_right _ ?_
  rw [Nat.le_div_iff_mul_le hpos, Nat.mul_comm]
  omega

/-- Whichever way leads to an anchor, what is taken from the height is in it. -/
theorem anchor_add_eq (hanchor : schedule.anchorHeight? height = some anchor) :
    anchor + (if schedule.switchOffset < height % schedule.interval then 0
      else schedule.interval) + height % schedule.interval = height := by
  have hremainder := Nat.mod_le height schedule.interval
  unfold anchorHeight? at hanchor
  by_cases hpast : schedule.switchOffset < height % schedule.interval
  · simp only [hpast, ↓reduceIte, Option.some.injEq] at hanchor ⊢
    omega
  · simp only [hpast, ↓reduceIte, Option.ite_none_right_eq_some, Option.some.injEq] at hanchor ⊢
    omega

theorem seedBlockHeight_of_anchor (hanchor : schedule.anchorHeight? height = some anchor) :
    schedule.seedBlockHeight height = anchor - schedule.seedHeight := by
  rw [seedBlockHeight_eq, hanchor, Option.getD_some]

/-! ### From one height to the next -/

theorem windowBelow_mono (schedule : SeedSchedule) : Monotone schedule.windowBelow := by
  intro lower upper hle
  unfold windowBelow
  gcongr

theorem seedBlockHeight_mono (hpos : 0 < schedule.interval) :
    Monotone schedule.seedBlockHeight := by
  intro lower upper hle
  rw [seedBlockHeight_eq_windowBelow hpos, seedBlockHeight_eq_windowBelow hpos]
  exact Nat.sub_le_sub_right (schedule.windowBelow_mono hle) _

/-- The block above `height` has another seed block. -/
def TurnsAfter (schedule : SeedSchedule) (height : Nat) : Prop :=
  schedule.seedBlockHeight (height + 1) ≠ schedule.seedBlockHeight height

/-- A quotient grows only where the divisor divides. -/
theorem TurnsAfter.dvd (hpos : 0 < schedule.interval) (h : schedule.TurnsAfter height) :
    schedule.switchOffset < height ∧ schedule.interval ∣ height - schedule.switchOffset := by
  unfold TurnsAfter at h
  rw [seedBlockHeight_eq_windowBelow hpos, seedBlockHeight_eq_windowBelow hpos] at h
  have hwindow : schedule.windowBelow (height + 1) ≠ schedule.windowBelow height :=
    fun heq => h (congrArg (· - schedule.seedHeight) heq)
  have habove : schedule.switchOffset < height := by
    by_contra hlow
    have hzero : height + 1 - schedule.switchOffset - 1 = height - schedule.switchOffset - 1 := by
      omega
    exact hwindow (by rw [windowBelow, windowBelow, hzero])
  refine ⟨habove, ?_⟩
  by_contra hdvd
  have hlast : height + 1 - schedule.switchOffset - 1 =
      height - schedule.switchOffset - 1 + 1 := by omega
  have hsame : height - schedule.switchOffset - 1 + 1 = height - schedule.switchOffset := by omega
  rw [windowBelow, hlast, Nat.succ_div_of_not_dvd (by rwa [hsame])] at hwindow
  exact hwindow rfl

/-- Two changes lie at least an interval apart. -/
theorem TurnsAfter.add_interval_le {earlier later : Nat} (hpos : 0 < schedule.interval)
    (hearlier : schedule.TurnsAfter earlier) (hlater : schedule.TurnsAfter later)
    (hlt : earlier < later) : earlier + schedule.interval ≤ later := by
  obtain ⟨habove, hdvd⟩ := hearlier.dvd hpos
  obtain ⟨-, hdvd'⟩ := hlater.dvd hpos
  have hdifference : schedule.interval ∣ later - earlier := by
    have hsub := Nat.dvd_sub hdvd' hdvd
    have heq : later - schedule.switchOffset - (earlier - schedule.switchOffset) =
        later - earlier := by omega
    rwa [heq] at hsub
  have hle := Nat.le_of_dvd (by omega) hdifference
  omega

/-- **Seed windows in closed form.** There is no anchor exactly up to the switch offset. Above it
the anchor is the last multiple of the interval strictly below the height less the offset, and what
is taken off the height to find it never exceeds the height. The height of the seed block never
falls as the height grows, changes at most once in as many heights as an interval has, and is never
above the height. Where the anchor leaves room for it, the seed block lies the seed height below the
anchor, which is at least the seed height and the offset and one more below the height. -/
theorem seedWindow_exact (hpos : 0 < schedule.interval) (height : Nat) :
    (schedule.anchorHeight? height = none ↔ height ≤ schedule.switchOffset) ∧
    (∀ anchor, schedule.anchorHeight? height = some anchor ↔ schedule.switchOffset < height ∧
      IsGreatest {start | schedule.interval ∣ start ∧ start < height - schedule.switchOffset}
        anchor) ∧
    (∀ anchor, schedule.anchorHeight? height = some anchor →
      anchor + (if schedule.switchOffset < height % schedule.interval then 0
        else schedule.interval) + height % schedule.interval = height) ∧
    Monotone schedule.seedBlockHeight ∧
    (∀ earlier later, schedule.TurnsAfter earlier → schedule.TurnsAfter later → earlier < later →
      earlier + schedule.interval ≤ later) ∧
    schedule.seedBlockHeight height ≤ height ∧
    ∀ anchor, schedule.anchorHeight? height = some anchor → schedule.seedHeight ≤ anchor →
      schedule.seedBlockHeight height + schedule.seedHeight = anchor ∧
        schedule.seedBlockHeight height + (schedule.seedHeight + schedule.switchOffset + 1) ≤
          height := by
  refine ⟨anchorHeight?_eq_none_iff hpos, ?_, fun anchor => anchor_add_eq,
    seedBlockHeight_mono hpos, fun earlier later => TurnsAfter.add_interval_le hpos, ?_, ?_⟩
  · intro anchor
    rw [anchorHeight?_eq_some_iff hpos]
    refine and_congr_right fun habove => ?_
    have hgreatest := isGreatest_windowBelow hpos habove
    constructor
    · rintro rfl
      exact hgreatest
    · exact hgreatest.unique
  · rw [seedBlockHeight_eq_windowBelow hpos]
    have hle := Nat.div_mul_le_self (height - schedule.switchOffset - 1) schedule.interval
    unfold windowBelow
    omega
  · intro anchor hanchor hroom
    obtain ⟨habove, hwindow⟩ := (anchorHeight?_eq_some_iff hpos).mp hanchor
    have hlt := windowBelow_lt habove
    rw [seedBlockHeight_of_anchor hanchor]
    omega

/-- The last height of the old seed and the first of the new. -/
theorem seedWindow_exact_of_switch :
    let schedule : SeedSchedule := { seedHeight := 130, interval := 100 }
    0 < schedule.interval ∧ schedule.anchorHeight? 1230 = some 1100 ∧
      schedule.anchorHeight? 1231 = some 1200 ∧
      IsGreatest {start | 100 ∣ start ∧ start < 1231 - 30} 1200 ∧
      schedule.seedBlockHeight 1231 + 130 = 1200 ∧
      schedule.seedBlockHeight 1231 + (130 + 30 + 1) ≤ 1231 := by
  intro schedule
  have hpos : 0 < schedule.interval := by decide
  have hoffset : schedule.switchOffset = 30 := by decide
  have hfound : schedule.anchorHeight? 1231 = some 1200 := by decide
  obtain ⟨-, hanchor, -, -, -, -, hbelow⟩ := seedWindow_exact hpos 1231
  obtain ⟨-, hgreatest⟩ := (hanchor 1200).mp hfound
  obtain ⟨hseed, hdepth⟩ := hbelow 1200 hfound (by decide)
  rw [hoffset] at hgreatest hdepth
  exact ⟨hpos, by decide, hfound, hgreatest, hseed, hdepth⟩

end HybridConsensus.SeedSchedule
