/-!
# Text/Search — one text inside another

The text operators of a filter ask where a text occurs in another: at its start, at its end or
anywhere.  `occursIn_iff` says what "anywhere" means.
-/

namespace Reporting.Text

/-- Whether the first text occurs in the second. -/
def occursIn (part : List Char) : List Char → Bool
  | [] => part.isEmpty
  | c :: rest => part.isPrefixOf (c :: rest) || occursIn part rest

/-- **An occurrence is a decomposition** — something before it, something after it. -/
theorem occursIn_iff {part whole : List Char} :
    occursIn part whole = true ↔ ∃ before after, whole = before ++ part ++ after := by
  induction whole with
  | nil =>
    constructor
    · intro h
      exact ⟨[], [], by simp [List.isEmpty_iff.1 h]⟩
    · rintro ⟨before, after, h⟩
      have : part = [] := by
        have := congrArg List.length h
        simp only [List.length_nil, List.length_append] at this
        exact List.length_eq_zero_iff.1 (by omega)
      simp [occursIn, this]
  | cons c rest ih =>
    simp only [occursIn, Bool.or_eq_true, List.isPrefixOf_iff_prefix, ih]
    constructor
    · rintro (⟨after, h⟩ | ⟨before, after, h⟩)
      · exact ⟨[], after, by simp [h]⟩
      · exact ⟨c :: before, after, by simp [h]⟩
    · rintro ⟨before, after, h⟩
      cases before with
      | nil => exact Or.inl ⟨after, by simpa using h.symm⟩
      | cons b before =>
        simp only [List.cons_append, List.cons.injEq] at h
        exact Or.inr ⟨before, after, h.2⟩

end Reporting.Text
