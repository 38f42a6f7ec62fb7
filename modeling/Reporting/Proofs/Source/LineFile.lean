import Mathlib.Logic.Function.Iterate
import Reporting.Proofs.Json.Trailing
import Reporting.Proofs.Run.Sources
import Reporting.Proofs.Text.Lines

/-!
# Proofs/Source/LineFile — records on lines

A record file with a document on each line is read line by line.  Each line that is not blank gives one
item (`Item.IsOn`), and none looks at another line.  So if two texts are put on either side of a line
feed, all items of the second one are there, later by the lines of the first, and before them those of
the first (`Item.lines_apart`).  Its last line may lose a carriage return that way, which is white space
to JSON: what is read of it stays, and only where it is no JSON the flaw may be another one
(`Item.AgreesUpToFlaw`).
-/

namespace Reporting.Item

open Text (isBlank linesOfParts split withoutReturn)

variable {number start : Nat} {line : List Char}

/-! ## Items of lines -/

/-- What a line says by itself, if it is not blank. -/
inductive IsOn (number : Nat) (line : List Char) : Item → Prop
  /-- A line with an object is a record. -/
  | record {members : Json.Members} (h : Json.ofText (String.ofList line) = .ok (.object members)) :
    IsOn number line (.record members)
  /-- A line with another document is malformed. -/
  | notAnObject {j : Json} (h : Json.ofText (String.ofList line) = .ok j)
    (hother : ∀ members, j ≠ .object members) :
    IsOn number line (.malformed ⟨number, .notAnObject j.kind⟩)
  /-- A line that is not JSON is malformed. -/
  | notJson {flaw : Json.Flaw} (h : Json.ofText (String.ofList line) = .error flaw) :
    IsOn number line (.malformed ⟨number, .notJson flaw⟩)

theorem ofLine?_of_blank (h : line.all isBlank) : ofLine? number line = none := if_pos h

/-- **A line that is not blank gives an item of its own.** -/
theorem exists_ofLine? (h : ¬ line.all isBlank) (number : Nat) :
    ∃ item, ofLine? number line = some item ∧ IsOn number line item := by
  rw [ofLine?, if_neg h]
  cases hread : Json.ofText (String.ofList line) with
  | error flaw => exact ⟨_, rfl, .notJson hread⟩
  | ok j =>
    cases j with
    | object members => exact ⟨_, rfl, .record hread⟩
    | _ => exact ⟨_, rfl, .notAnObject hread fun _ heq => by cases heq⟩

/-- **The items are those of the lines that are not blank**, one by one; blank lines are counted. -/
theorem forall₂_ofLines (start : Nat) (lines : List (List Char)) :
    List.Forall₂ (fun line item => IsOn line.2 line.1 item)
      ((lines.zipIdx start).filter fun line => !line.1.all isBlank) (ofLines start lines) := by
  induction lines generalizing start with
  | nil => exact .nil
  | cons line rest ih =>
    rw [List.zipIdx_cons, ofLines]
    by_cases hblank : line.all isBlank
    · rw [List.filter_cons_of_neg (by simp [hblank]), ofLine?_of_blank hblank]
      exact ih (start + 1)
    · obtain ⟨item, hitem, hon⟩ := exists_ofLine? hblank start
      rw [List.filter_cons_of_pos (by simp [hblank]), hitem]
      exact .cons hon (ih (start + 1))

/-! ## Positions -/

theorem map_later_ofLine? (number : Nat) (line : List Char) :
    (ofLine? number line).map later = ofLine? (number + 1) line := by
  rw [ofLine?, ofLine?]
  split
  · rfl
  · split
    · exact congrArg some (later_ofJson number _)
    · rfl

theorem map_later_ofLines (start : Nat) (lines : List (List Char)) :
    (ofLines start lines).map later = ofLines (start + 1) lines := by
  induction lines generalizing start with
  | nil => rfl
  | cons line rest ih =>
    rw [ofLines, List.map_append, ← Option.toList_map, map_later_ofLine?, ih, ofLines]

/-- **The items of lines further on are as much later.** -/
theorem ofLines_add (start n : Nat) (lines : List (List Char)) :
    ofLines (start + n) lines = (ofLines start lines).map later^[n] := by
  induction n with
  | zero => exact (List.map_id _).symm
  | succ n ih =>
    rw [Function.iterate_succ', ← List.map_map, ← ih, map_later_ofLines, Nat.add_assoc]

theorem ofLines_append (start : Nat) (lines more : List (List Char)) :
    ofLines start (lines ++ more) = ofLines start lines ++ ofLines (start + lines.length) more := by
  induction lines generalizing start with
  | nil => rfl
  | cons line rest ih =>
    rw [List.cons_append, ofLines, ofLines, ih, List.append_assoc, List.length_cons,
      Nat.add_right_comm, Nat.add_assoc]

/-! ## Carriage returns -/

/-- Whether two items are the same, or two reports of one line that is not JSON. -/
inductive AgreesUpToFlaw : Item → Item → Prop
  | same (item : Item) : AgreesUpToFlaw item item
  | notJson (position : Nat) (flaw flaw' : Json.Flaw) :
    AgreesUpToFlaw (.malformed ⟨position, .notJson flaw⟩) (.malformed ⟨position, .notJson flaw'⟩)

theorem agreesUpToFlaw_self (items : List Item) : List.Forall₂ AgreesUpToFlaw items items :=
  List.forall₂_same.2 fun item _ => .same item

/-- **A carriage return at its end means nothing to a line.** -/
theorem agreesUpToFlaw_ofLine? (number : Nat) (line : List Char) :
    List.Forall₂ AgreesUpToFlaw (ofLine? number line).toList
      (ofLine? number (line ++ ['\r'])).toList := by
  have hblank : (line ++ ['\r']).all isBlank = line.all isBlank := by
    rw [List.all_append]
    exact Bool.and_true _
  have hread (j : Json) : Json.ofText (String.ofList (line ++ ['\r'])) = .ok j ↔
      Json.ofText (String.ofList line) = .ok j := Json.ofText_concat_space_iff rfl
  rw [ofLine?, ofLine?, hblank]
  split
  · exact .nil
  · cases hline : Json.ofText (String.ofList line) with
    | ok j =>
      rw [(hread j).2 hline]
      exact agreesUpToFlaw_self _
    | error flaw =>
      cases hlonger : Json.ofText (String.ofList (line ++ ['\r'])) with
      | ok j =>
        rw [hlonger, hline] at hread
        cases (hread j).1 rfl
      | error flaw' => exact .cons (.notJson number flaw flaw') .nil

/-- The last part of a text says the same whether or not a line feed ends it. -/
theorem agreesUpToFlaw_withoutReturn (start : Nat) (last : List Char) :
    List.Forall₂ AgreesUpToFlaw (ofLines start [withoutReturn last])
      (ofLines start (linesOfParts [last])) := by
  rw [linesOfParts, withoutReturn]
  split
  · rename_i hreturn
    obtain ⟨line, rfl⟩ := List.getLast?_eq_some_iff.1 hreturn
    rw [if_neg (List.append_ne_nil_of_right_ne_nil line (List.cons_ne_nil _ _)),
      List.dropLast_concat]
    simp only [ofLines, List.append_nil]
    exact agreesUpToFlaw_ofLine? start line
  · split
    · rename_i hnil
      rw [hnil]
      exact .nil
    · exact agreesUpToFlaw_self _

/-- **A text says the same whether or not a line feed ends it.** -/
theorem agreesUpToFlaw_ofLines (start : Nat) (parts : List (List Char)) :
    List.Forall₂ AgreesUpToFlaw (ofLines start (parts.map withoutReturn))
      (ofLines start (linesOfParts parts)) := by
  induction parts generalizing start with
  | nil => exact .nil
  | cons part parts ih =>
    cases parts with
    | nil => exact agreesUpToFlaw_withoutReturn start part
    | cons next more =>
      rw [Text.linesOfParts_cons (List.cons_ne_nil next more), List.map_cons, ofLines, ofLines]
      exact List.rel_append (agreesUpToFlaw_self _) (ih (start + 1))

/-! ## Files -/

/-- **The lines of a file are read apart.**  Take a file with a text and one with another text behind it.
The first gives an item for each line that is not blank, in their order: the record on the line, or a
report with the number of the line, counted from one with blank lines.  A line is what lies between two
line feeds, without a carriage return before the second.  With a line feed and the other text behind it,
it gives these items again, but for the flaw of a line that is no JSON, and then those of the other text,
later by one line for each line feed before them. -/
theorem lines_apart (path text back : String) : ∃ items others front,
    ofEntry path .jsonLines (.text text) = .ok items ∧
    ofEntry path .jsonLines (.text back) = .ok others ∧
    List.Forall₂ (fun line item => IsOn line.2 line.1 item)
      (((linesOfParts (split '\n' text.toList)).zipIdx 1).filter fun line => !line.1.all isBlank)
      items ∧
    ofEntry path .jsonLines (.text (text ++ "\n" ++ back)) =
      .ok (front ++ others.map later^[text.toList.count '\n' + 1]) ∧
    List.Forall₂ AgreesUpToFlaw front items := by
  refine ⟨_, _, ofLines 1 ((split '\n' text.toList).map withoutReturn), rfl, rfl, ?_, ?_, ?_⟩
  · rw [ofLinesText, Text.lines_eq_linesOfParts]
    exact forall₂_ofLines 1 _
  · have hlines : ofLinesText (text ++ "\n" ++ back) =
        ofLines 1 ((split '\n' text.toList).map withoutReturn ++ Text.lines back.toList) := by
      rw [ofLinesText, ← Text.lines_append_lineFeed, String.toList_append, String.toList_append,
        List.append_assoc]
      rfl
    rw [ofEntry, ofFileText, hlines, ofLines_append, List.length_map, Text.length_split, ofLines_add,
      ofLinesText]
  · rw [ofLinesText, Text.lines_eq_linesOfParts]
    exact agreesUpToFlaw_ofLines 1 _

end Reporting.Item
