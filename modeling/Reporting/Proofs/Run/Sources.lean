import Reporting.Proofs.Json.Lines
import Reporting.Proofs.Json.Pretty
import Reporting.Proofs.Json.Record
import Reporting.Proofs.Run.Dependence
import Reporting.Source.File

/-!
# Proofs/Run/Sources — it makes no difference where documents are kept

Documents can be kept in memory, in a file with an array of them, and in a file with a line for each.
The array is read back as a whole and every line as the document on it, so the same items come of all
three, but that lines count from one (`Item.later`).  A run takes no notice of positions
(`Engine.execute_later`).
-/

namespace Reporting

variable {js : List Json} {text lineEnd ending : String}

/-! ## Positions -/

namespace Item

/-- **The item at a place is what the document there is**, and it is told by that place. -/
theorem getElem?_ofDocuments (start : Nat) (js : List Json) (i : Nat) :
    (ofDocuments start js)[i]? = (js[i]?).map (ofJson (start + i)) := by
  induction js generalizing start i with
  | nil => rfl
  | cons j rest ih =>
    cases i with
    | zero => rfl
    | succ i =>
      rw [ofDocuments, List.getElem?_cons_succ, List.getElem?_cons_succ, ih, Nat.add_right_comm]
      rfl

/-- An item as it is one position later. -/
def later : Item → Item
  | record r => record r
  | malformed m => malformed { m with position := m.position + 1 }

theorem later_ofJson (position : Nat) (j : Json) :
    (ofJson position j).later = ofJson (position + 1) j := by
  cases j <;> rfl

theorem map_later_ofDocuments (start : Nat) (js : List Json) :
    (ofDocuments start js).map later = ofDocuments (start + 1) js := by
  induction js generalizing start with
  | nil => rfl
  | cons j rest ih => rw [ofDocuments, List.map_cons, later_ofJson, ih, ofDocuments]

theorem agreeOn_later (ids : List String) (item : Item) : AgreeOn ids item item.later := by
  cases item with
  | record r => exact .record fun _ _ => rfl
  | malformed m => exact .malformed m _

/-! ## Files -/

/-- **An array in a file holds the items that are in the array**, however it is laid out. -/
theorem ofArrayText_of_spells (h : Json.Spells text (.array js)) (hordered : ∀ j ∈ js, j.Ordered)
    (hdepth : (Json.array js).depth ≤ Json.maxDepth) : ofArrayText text = .ok (ofDocuments 0 js) := by
  rw [ofArrayText, Json.ofText_of_spells h hdepth (.array hordered)]

/-- **A document is read from its line.** -/
theorem ofLine?_compactText {j : Json} (hordered : j.Ordered) (hdepth : j.depth ≤ Json.maxDepth)
    (number : Nat) : ofLine? number j.compactText = some (ofJson number j) := by
  obtain ⟨c, more, heq, hc⟩ := j.exists_compactText_eq_cons
  have hblank : ¬ j.compactText.all Text.isBlank := by
    rw [heq, List.all_cons, hc, Bool.false_and]
    exact Bool.false_ne_true
  have hread : Json.ofText (String.ofList j.compactText) = .ok j :=
    Json.ofText_of_spells (Json.spells_compact j) hdepth hordered
  rw [ofLine?, if_neg hblank, hread]

/-- **Documents are read from their lines**, one by one. -/
theorem ofLines_onLines (hend : Text.IsLineEnd lineEnd) (hlast : ending = "" ∨ ending = lineEnd)
    (hordered : ∀ j ∈ js, j.Ordered) (hdepth : ∀ j ∈ js, j.depth ≤ Json.maxDepth) (start : Nat) :
    ofLines start (Text.lines (Json.onLines lineEnd js ++ ending).toList) = ofDocuments start js := by
  induction js generalizing start with
  | nil =>
    rw [Json.onLines, List.map_nil, String.intercalate_nil, String.empty_append]
    rcases hlast with rfl | rfl
    · rfl
    · rw [hend.lines_toList]
      rfl
  | cons j rest ih =>
    obtain ⟨hj, hrest⟩ := List.forall_mem_cons.1 hordered
    obtain ⟨hjdepth, hrestdepth⟩ := List.forall_mem_cons.1 hdepth
    have hline := ofLine?_compactText hj hjdepth start
    -- The last document is a case of its own: its line need not end.
    cases rest with
    | nil =>
      rw [Json.lines_onLines_singleton hend hlast, ofLines, hline]
      rfl
    | cons next more =>
      rw [Json.lines_onLines_cons hend, ofLines, hline, ih hrest hrestdepth (start + 1)]
      rfl

end Item

/-! ## Runs -/

namespace Engine

/-- **A run takes no notice of positions.** -/
theorem execute_later (e : Engine) (d : Definition) (items : List Item) (token : Token) :
    e.execute d (.ok (items.map Item.later)) token = e.execute d (.ok items) token := by
  refine (execute_congr rfl (fun _ _ => rfl) ?_).symm
  rw [List.forall₂_map_right_iff, List.forall₂_same]
  exact fun item _ => item.agreeOn_later d.referenced

/-- **The sources of records agree.**  Take documents with their members in order, as all that is read
has them, that nest no deeper than an array of them may hold: in memory, in a file with an array of them
that is spelt in any way, and in a file with each of them on a line of its own, without white space,
where the last line may or may not end.  Both files can be read.  The items are those of the documents,
one by one, told by their place in the array or, one higher, by the number of their line; and any run on
either file is the run on the items in memory. -/
theorem sources_agree (hordered : ∀ j ∈ js, j.Ordered) (hdepth : ∀ j ∈ js, j.depth ≤ 126)
    (harray : Json.Spells text (.array js)) (hend : Text.IsLineEnd lineEnd)
    (hlast : ending = "" ∨ ending = lineEnd) (arrayPath linesPath : String) :
    (∀ i, (Item.ofDocuments 0 js)[i]? = (js[i]?).map (Item.ofJson i)) ∧
    Item.ofEntry arrayPath .jsonArray (.text text) = .ok (Item.ofDocuments 0 js) ∧
    Item.ofEntry linesPath .jsonLines (.text (Json.onLines lineEnd js ++ ending)) =
      .ok ((Item.ofDocuments 0 js).map Item.later) ∧
    ∀ e d token,
      execute e d (Item.ofEntry arrayPath .jsonArray (.text text)) token =
          execute e d (.ok (Item.ofDocuments 0 js)) token ∧
        execute e d (Item.ofEntry linesPath .jsonLines (.text (Json.onLines lineEnd js ++ ending)))
            token = execute e d (.ok (Item.ofDocuments 0 js)) token := by
  have hread : Item.ofEntry arrayPath .jsonArray (.text text) = .ok (Item.ofDocuments 0 js) :=
    Item.ofArrayText_of_spells harray hordered (Json.depth_array_le hdepth)
  have hlines : Item.ofEntry linesPath .jsonLines (.text (Json.onLines lineEnd js ++ ending)) =
      .ok ((Item.ofDocuments 0 js).map Item.later) := by
    rw [Item.map_later_ofDocuments]
    exact congrArg Except.ok (Item.ofLines_onLines hend hlast hordered
      (fun j hj => Nat.le_trans (hdepth j hj) (by decide)) 1)
  refine ⟨fun i => ?_, hread, hlines, fun e d token => ⟨by rw [hread], ?_⟩⟩
  · rw [Item.getElem?_ofDocuments, Nat.zero_add]
  · rw [hlines, execute_later]

/-- The sales as documents. -/
def salesDocuments : List Json :=
  [.object [("amount", .ofNat 7), ("city", .string "Oslo")], .null, .object [("city", .string "Rome")]]

/-- The sales come of an array over several lines, and the report on them of one line for each. -/
theorem sources_agree_sales :
    (∀ j ∈ salesDocuments, j.Ordered) ∧ (∀ j ∈ salesDocuments, j.depth ≤ 126) ∧
    Item.ofEntry "sales.json" .jsonArray (.text ((Json.array salesDocuments).pretty ++ "\n")) =
      .ok Item.sales ∧
    execute ⟨.sales, none⟩ .salesByCity
        (Item.ofEntry "sales.jsonl" .jsonLines (.text (Json.onLines "\r\n" salesDocuments ++ "\r\n")))
        .clear = execute ⟨.sales, none⟩ .salesByCity (.ok Item.sales) .clear := by
  have hordered : ∀ j ∈ salesDocuments, j.Ordered := by
    refine List.forall_mem_cons.2 ⟨?_, List.forall_mem_cons.2 ⟨.null, List.forall_mem_singleton.2 ?_⟩⟩
    · exact Json.Members.Ordered.ordered_object (by decide) (by decide)
    · exact Json.Members.Ordered.ordered_object (by decide) (by decide)
  have hdepth : ∀ j ∈ salesDocuments, j.depth ≤ 126 := by decide
  obtain ⟨-, hread, -, hruns⟩ := sources_agree hordered hdepth
    (Json.spells_pretty (.inr rfl)) (.inr rfl) (.inr rfl) "sales.json" "sales.jsonl"
  exact ⟨hordered, hdepth, hread, (hruns _ _ _).2⟩

end Engine

end Reporting
