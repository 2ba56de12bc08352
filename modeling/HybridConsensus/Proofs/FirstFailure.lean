/-!
# Steps that stop at the first failure

A sequence of steps gives a result only when each of them does, and otherwise fails as the first one
that fails, on what the steps before it made.
-/

namespace HybridConsensus

variable {ε α β : Type} {failure : ε}

theorem ok_bind (middle : α) (rest : α → Except ε β) : Except.ok middle >>= rest = rest middle :=
  rfl

theorem error_bind (failure : ε) (rest : α → Except ε β) :
    Except.error failure >>= rest = .error failure :=
  rfl

theorem bind_eq_ok_iff {value : Except ε α} {rest : α → Except ε β} {result : β} :
    value >>= rest = .ok result ↔ ∃ middle, value = .ok middle ∧ rest middle = .ok result := by
  cases value with
  | error failure => exact iff_of_false nofun nofun
  | ok middle =>
    refine ⟨fun h => ⟨middle, rfl, h⟩, ?_⟩
    rintro ⟨_, ⟨⟩, h⟩
    exact h

theorem bind_eq_error_iff {value : Except ε α} {rest : α → Except ε β} :
    value >>= rest = .error failure ↔
      value = .error failure ∨ ∃ middle, value = .ok middle ∧ rest middle = .error failure := by
  cases value with
  | error first =>
    rw [error_bind]
    simp
  | ok middle =>
    rw [ok_bind]
    simp

/-- A run fails at an element, after a run over those before it. -/
theorem foldlM_eq_error_iff {step : β → α → Except ε β} {start : β} {elements : List α} :
    elements.foldlM step start = .error failure ↔
      ∃ earlier element later middle, elements = earlier ++ element :: later ∧
        earlier.foldlM step start = .ok middle ∧ step middle element = .error failure := by
  induction elements generalizing start with
  | nil => simp [pure, Except.pure]
  | cons first rest ih =>
    rw [List.foldlM_cons, bind_eq_error_iff]
    constructor
    · rintro (h | ⟨next, hnext, h⟩)
      · exact ⟨[], first, rest, start, rfl, rfl, h⟩
      · obtain ⟨earlier, element, later, middle, rfl, hmiddle, h⟩ := ih.mp h
        refine ⟨first :: earlier, element, later, middle, rfl, ?_, h⟩
        rw [List.foldlM_cons, bind_eq_ok_iff]
        exact ⟨next, hnext, hmiddle⟩
    · rintro ⟨earlier, element, later, middle, hsplit, hmiddle, h⟩
      cases earlier with
      | nil =>
        cases hsplit
        cases hmiddle
        exact .inl h
      | cons _ earlier =>
        cases hsplit
        rw [List.foldlM_cons, bind_eq_ok_iff] at hmiddle
        obtain ⟨next, hnext, hmiddle⟩ := hmiddle
        exact .inr ⟨next, hnext, ih.mpr ⟨earlier, element, later, middle, rfl, hmiddle, h⟩⟩

end HybridConsensus
