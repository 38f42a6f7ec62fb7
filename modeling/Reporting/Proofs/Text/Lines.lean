import Reporting.Text.Lines
import Reporting.Text.Split

/-!
# Proofs/Text/Lines — lines lie between line feeds

Cut at its line feeds, a text falls into parts.  Each part but the last is a line without its carriage
return, should it end with one; the last is a line as it stands, unless it is empty
(`lines_eq_linesOfParts`).  So a text that a line feed puts behind another one has the lines it has alone,
and the other one has a line for every part (`lines_append_lineFeed`).
-/

namespace Reporting.Text

variable {c : Char} {part rest : List Char} {parts : List (List Char)}

/-- A part that a line feed ends as a line. -/
def withoutReturn (part : List Char) : List Char :=
  if part.getLast? = some '\r' then part.dropLast else part

/-- The lines that some parts are: a line feed ends each but the last. -/
def linesOfParts : List (List Char) → List (List Char)
  | [] => []
  | [last] => if last = [] then [] else [last]
  | part :: rest => withoutReturn part :: linesOfParts rest

theorem linesOfParts_cons (h : parts ≠ []) :
    linesOfParts (part :: parts) = withoutReturn part :: linesOfParts parts := by
  obtain ⟨next, more, rfl⟩ := List.exists_cons_of_ne_nil h
  rfl

theorem linesOfParts_append {others : List (List Char)} (h : others ≠ []) :
    linesOfParts (parts ++ others) = parts.map withoutReturn ++ linesOfParts others := by
  induction parts with
  | nil => rfl
  | cons part parts ih =>
    rw [List.cons_append, linesOfParts_cons (List.append_ne_nil_of_right_ne_nil parts h), ih,
      List.map_cons, List.cons_append]

/-! ## Cutting -/

theorem split_cons_self (separator : Char) (rest : List Char) :
    split separator (separator :: rest) = [] :: split separator rest := if_pos rfl

theorem split_cons_of_ne {separator : Char} (h : c ≠ separator) :
    split separator (c :: rest) = consPart c (split separator rest) := if_neg h

/-- **A separator between two texts keeps their parts apart.** -/
theorem split_append_cons (separator : Char) (front back : List Char) :
    split separator (front ++ separator :: back) = split separator front ++ split separator back := by
  induction front with
  | nil => exact split_cons_self separator back
  | cons c front ih =>
    by_cases hc : c = separator
    · rw [hc, List.cons_append, split_cons_self, split_cons_self, ih, List.cons_append]
    · rw [List.cons_append, split_cons_of_ne hc, split_cons_of_ne hc, ih]
      obtain ⟨part, parts, hparts⟩ := List.exists_cons_of_ne_nil (split_ne_nil separator front)
      rw [hparts]
      rfl

/-- Only a text that begins with a separator has an empty first part. -/
theorem head?_of_split_eq_nil_cons {separator : Char} (h : split separator rest = [] :: parts)
    (hne : parts ≠ []) : rest.head? = some separator := by
  cases rest with
  | nil =>
    cases h
    exact absurd rfl hne
  | cons d rest =>
    by_cases hd : d = separator
    · rw [hd, List.head?_cons]
    · rw [split_cons_of_ne hd] at h
      cases hsplit : split separator rest with
      | nil => exact absurd hsplit (split_ne_nil separator rest)
      | cons part more =>
        rw [hsplit] at h
        cases h

/-! ## Lines -/

/-- A carriage return is at the end of a line wherever the line begins. -/
theorem withoutReturn_cons (h : part = [] → c ≠ '\r') :
    withoutReturn (c :: part) = c :: withoutReturn part := by
  cases part with
  | nil =>
    have hc : ¬ [c].getLast? = some '\r' := fun heq => h rfl (Option.some.inj heq)
    rw [withoutReturn, if_neg hc]
    rfl
  | cons d more =>
    rw [withoutReturn, withoutReturn, List.getLast?_cons_cons]
    split
    · exact List.dropLast_cons_of_ne_nil (List.cons_ne_nil d more)
    · rfl

/-- A character that ends no line is on the first one. -/
theorem linesOfParts_consPart (h : ∀ more, parts = [] :: more → more ≠ [] → c ≠ '\r') :
    linesOfParts (consPart c parts) = consLine c (linesOfParts parts) := by
  match parts with
  | [] => rfl
  | [part] =>
    rw [linesOfParts]
    split
    · rename_i hnil
      rw [hnil]
      rfl
    · rfl
  | part :: next :: more =>
    have hnext : next :: more ≠ [] := List.cons_ne_nil next more
    rw [consPart, linesOfParts_cons hnext, linesOfParts_cons hnext, consLine,
      withoutReturn_cons fun hnil => h _ (by rw [hnil]) hnext]

/-- **The lines of a text are its parts between line feeds.** -/
theorem lines_eq_linesOfParts (text : List Char) : lines text = linesOfParts (split '\n' text) := by
  induction text with
  | nil => rfl
  | cons c rest ih =>
    rw [lines]
    split
    · rename_i hfeed
      rw [hfeed, split_cons_self, linesOfParts_cons (split_ne_nil '\n' rest), ih]
      rfl
    · rename_i hfeed
      rw [split_cons_of_ne hfeed]
      split
      · -- The carriage return makes the first part, and goes with it.
        rename_i hreturn
        obtain ⟨rfl, hhead⟩ := hreturn
        obtain ⟨more, rfl⟩ := List.head?_eq_some_iff.1 hhead
        rw [ih, split_cons_self, consPart, linesOfParts_cons (split_ne_nil '\n' more),
          linesOfParts_cons (split_ne_nil '\n' more)]
        rfl
      · rename_i hreturn
        rw [ih, linesOfParts_consPart]
        rintro more hparts hmore rfl
        exact hreturn ⟨rfl, head?_of_split_eq_nil_cons hparts hmore⟩

/-- **A line feed between two texts keeps their lines apart.**  It ends the last line of the first one,
even an empty one. -/
theorem lines_append_lineFeed (front back : List Char) :
    lines (front ++ '\n' :: back) = (split '\n' front).map withoutReturn ++ lines back := by
  rw [lines_eq_linesOfParts, lines_eq_linesOfParts, split_append_cons,
    linesOfParts_append (split_ne_nil '\n' back)]

end Reporting.Text
