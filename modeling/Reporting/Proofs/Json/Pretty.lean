import Reporting.Proofs.Json.Text

/-!
# Proofs/Json/Pretty — white space means nothing

A document written over several lines is cut into the same tokens as one without white space
(`scan_prettyText`): a line is begun between tokens and never inside one.  So it is read back just as
well (`spells_pretty`).
-/

namespace Reporting.Json

variable {rest : List Char}

/-! ## White space -/

/-- White space is passed over. -/
theorem scan_space {c : Char} (h : isSpace c) : scan (c :: rest) = scan rest := by
  rw [scan, if_pos h]

/-- The start of a line is passed over. -/
theorem scan_newLine (depth : Nat) : scan (newLine depth ++ rest) = scan rest := by
  have hspaces : ∀ n, scan (List.replicate n ' ' ++ rest) = scan rest := by
    intro n
    induction n with
    | zero => rfl
    | succ n ih => rw [List.replicate_succ, List.cons_append, scan_space rfl, ih]
  rw [newLine, List.cons_append, scan_space rfl, hspaces]

/-- A number ends where a line does. -/
theorem ends_newLine (depth : Nat) : Ends (newLine depth ++ rest) := by
  rintro c ⟨⟩
  decide

/-! ## Documents -/

section

variable (depth : Nat) (item next : Json) (name : String) (member : String × Json) (more : List Json)
  (others : List (String × Json))

theorem prettyItems_cons : prettyItems depth (item :: next :: more) =
    newLine (depth + 1) ++ prettyText (depth + 1) item ++ ',' :: prettyItems depth (next :: more) :=
  rfl

theorem prettyMembers_cons : prettyMembers depth ((name, item) :: member :: others) =
    newLine (depth + 1) ++ quoted name ++ ": ".toList ++ prettyText (depth + 1) item ++
      ',' :: prettyMembers depth (member :: others) := rfl

end

/-- A name goes with the colon and the space behind it. -/
theorem scan_name (depth : Nat) (name : String) :
    scan (newLine depth ++ (quoted name ++ (": ".toList ++ rest))) =
      .string name :: .mark .colon :: scan rest := by
  have hcolon : ": ".toList ++ rest = ':' :: ' ' :: rest := rfl
  rw [scan_newLine, scan_quoted, hcolon, scan_mark rfl rfl, scan_space rfl]

mutual

/-- **The text of a document over several lines is cut into its tokens.** -/
theorem scan_prettyText (depth : Nat) (j : Json) {rest : List Char} (hrest : Ends rest) :
    scan (prettyText depth j ++ rest) = tokens j ++ scan rest := by
  match j with
  | .null => exact scan_word rfl fun _ => rfl
  | .bool true => exact scan_word rfl fun _ => rfl
  | .bool false => exact scan_word rfl fun _ => rfl
  | .number n => exact n.scan_text hrest
  | .string s => exact scan_quoted s
  | .array [] => exact (scan_mark rfl rfl).trans (congrArg _ (scan_mark rfl rfl))
  | .array (item :: more) =>
    rw [prettyText, List.cons_append, scan_mark rfl rfl,
      scan_prettyItems depth (item :: more) (List.cons_ne_nil _ _)]
    · rfl
    · exact List.cons_ne_nil _ _
  | .object [] => exact (scan_mark rfl rfl).trans (congrArg _ (scan_mark rfl rfl))
  | .object (member :: others) =>
    rw [prettyText, List.cons_append, scan_mark rfl rfl,
      scan_prettyMembers depth (member :: others) (List.cons_ne_nil _ _)]
    · rfl
    · exact List.cons_ne_nil _ _

theorem scan_prettyItems (depth : Nat) (items : List Json) (hne : items ≠ []) {rest : List Char} :
    scan (prettyItems depth items ++ rest) = itemTokens items ++ scan rest := by
  match items with
  | [] => exact absurd rfl hne
  | [item] =>
    rw [prettyItems, List.append_assoc, List.append_assoc, List.append_assoc, scan_newLine,
      scan_prettyText (depth + 1) item (ends_newLine depth), scan_newLine, List.singleton_append,
      scan_mark rfl rfl, itemTokens, List.append_assoc, List.singleton_append]
  | item :: next :: more =>
    rw [prettyItems_cons, List.append_assoc, List.append_assoc, List.cons_append, scan_newLine,
      scan_prettyText (depth + 1) item (ends_cons (.inl rfl)), scan_mark rfl rfl,
      scan_prettyItems depth (next :: more) (List.cons_ne_nil _ _), itemTokens_cons,
      List.append_assoc, List.cons_append]

theorem scan_prettyMembers (depth : Nat) (members : List (String × Json)) (hne : members ≠ [])
    {rest : List Char} :
    scan (prettyMembers depth members ++ rest) = memberTokens members ++ scan rest := by
  match members with
  | [] => exact absurd rfl hne
  | [(name, value)] =>
    simp only [prettyMembers, List.append_assoc]
    rw [scan_name, scan_prettyText (depth + 1) value (ends_newLine depth), scan_newLine,
      List.singleton_append, scan_mark rfl rfl, memberTokens]
    simp
  | (name, value) :: member :: others =>
    rw [prettyMembers_cons]
    simp only [List.append_assoc]
    rw [scan_name, List.cons_append,
      scan_prettyText (depth + 1) value (ends_cons (.inl rfl)), scan_mark rfl rfl,
      scan_prettyMembers depth (member :: others) (List.cons_ne_nil _ _), memberTokens_cons]
    simp

end

/-- **A document over several lines is spelt by its text**, with or without a line feed at the end. -/
theorem spells_pretty {j : Json} {ending : String} (h : ending = "" ∨ ending = "\n") :
    Spells (j.pretty ++ ending) j := by
  have hends : Ends ending.toList ∧ scan ending.toList = [] := by
    rcases h with rfl | rfl
    · rw [String.toList_empty, scan]
      exact ⟨ends_nil, rfl⟩
    · have hline : "\n".toList = newLine 0 ++ [] := rfl
      rw [hline, scan_newLine, scan]
      exact ⟨ends_newLine 0, rfl⟩
  rw [Spells, String.toList_append, pretty, String.toList_ofList, scan_prettyText 0 j hends.1, hends.2,
    List.append_nil]

end Reporting.Json
