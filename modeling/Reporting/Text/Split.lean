/-!
# Text/Split — a text at its separators
-/

namespace Reporting.Text

/-- Puts a character in front of the first part. -/
def consPart (c : Char) : List (List Char) → List (List Char)
  | [] => [[c]]
  | part :: rest => (c :: part) :: rest

/-- The parts of a text between the occurrences of a character, one more than there are. -/
def split (separator : Char) : List Char → List (List Char)
  | [] => [[]]
  | c :: rest => if c = separator then [] :: split separator rest else consPart c (split separator rest)

theorem length_consPart (c : Char) (parts : List (List Char)) (h : parts ≠ []) :
    (consPart c parts).length = parts.length := by
  cases parts with
  | nil => exact absurd rfl h
  | cons part rest => rfl

theorem split_ne_nil (separator : Char) (cs : List Char) : split separator cs ≠ [] := by
  cases cs with
  | nil => simp [split]
  | cons c rest =>
    simp only [split]
    split
    · simp
    · cases Text.split separator rest <;> simp [consPart]

/-- There is one part more than there are separators. -/
theorem length_split (separator : Char) (cs : List Char) :
    (split separator cs).length = cs.count separator + 1 := by
  induction cs with
  | nil => rfl
  | cons c rest ih =>
    simp only [split, List.count_cons]
    by_cases h : c = separator
    · simp [h, ih]
    · simp [h, ih, length_consPart _ _ (split_ne_nil separator rest)]

end Reporting.Text
