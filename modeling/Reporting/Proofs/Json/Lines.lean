import Reporting.Proofs.Json.Ordered
import Reporting.Text.Lines

/-!
# Proofs/Json/Lines — documents on lines of their own

A document without white space stays on its line: its strings escape all control characters, and
nothing else in it is one (`inline_compactText`).  Nor is that line ever blank
(`exists_compactText_eq_cons`).  So documents that are put on lines of their own are found there again
(`lines_onLines_cons`), whether or not the last line ends (`lines_onLines_singleton`).
-/

namespace Reporting

/-! ## Lines -/

namespace Text

/-- Whether a text stays on its line: it has no control characters. -/
def Inline (text : List Char) : Prop := ∀ c ∈ text, 32 ≤ c.toNat

instance (text : List Char) : Decidable (Inline text) :=
  List.decidableBAll (fun c : Char => 32 ≤ c.toNat) text

variable {line back rest : List Char}

theorem inline_nil : Inline [] := List.forall_mem_nil _

theorem inline_append {front : List Char} : Inline (front ++ back) ↔ Inline front ∧ Inline back :=
  List.forall_mem_append

theorem inline_cons {c : Char} : Inline (c :: line) ↔ 32 ≤ c.toNat ∧ Inline line :=
  List.forall_mem_cons

/-- A character that ends no line is on the first one. -/
theorem lines_cons {c : Char} (h : 32 ≤ c.toNat) (rest : List Char) :
    lines (c :: rest) = consLine c (lines rest) := by
  have hfeed : c ≠ '\n' := by
    rintro rfl
    exact absurd h (by decide)
  have hreturn : c ≠ '\r' := by
    rintro rfl
    exact absurd h (by decide)
  rw [lines, if_neg hfeed, if_neg fun hand => hreturn hand.1]

/-- **A line ends where something ends it.** -/
theorem lines_append (h : Inline line) (hback : lines back = [] :: lines rest) :
    lines (line ++ back) = line :: lines rest := by
  induction line with
  | nil => exact hback
  | cons c line ih =>
    obtain ⟨hc, hline⟩ := inline_cons.1 h
    rw [List.cons_append, lines_cons hc, ih hline, consLine]

/-- The last line need not end. -/
theorem lines_of_inline (h : Inline line) (hne : line ≠ []) : lines line = [line] := by
  induction line with
  | nil => exact absurd rfl hne
  | cons c line ih =>
    obtain ⟨hc, hline⟩ := inline_cons.1 h
    rw [lines_cons hc]
    cases line with
    | nil => rfl
    | cons d more => rw [ih hline (List.cons_ne_nil d more), consLine]

/-- Whether a text is the end of a line. -/
def IsLineEnd (text : String) : Prop := text = "\n" ∨ text = "\r\n"

theorem IsLineEnd.lines_append {ending : String} (h : IsLineEnd ending) (rest : List Char) :
    lines (ending.toList ++ rest) = [] :: lines rest := by
  rcases h with rfl | rfl
  · exact lines_lineFeed rest
  · exact lines_carriageReturn rest

theorem IsLineEnd.lines_toList {ending : String} (h : IsLineEnd ending) :
    lines ending.toList = [[]] := by
  have hlines := h.lines_append []
  rwa [List.append_nil] at hlines

theorem inline_of_isDigit (h : ∀ c ∈ line, c.isDigit) : Inline line := by
  intro c hc
  have hdigit := h c hc
  simp only [Char.isDigit, Bool.and_eq_true, decide_eq_true_eq] at hdigit
  exact Nat.le_trans (by decide) hdigit.1

end Text

namespace Json

open Text (Inline inline_append inline_cons inline_nil)

/-! ## Characters of strings -/

theorem le_toNat_hexChar (n : Nat) : 32 ≤ (hexChar n).toNat := by
  have hdigit : ∀ k < 16, 32 ≤ (Nat.digitChar k).toNat := by decide
  exact hdigit (n % 16) (Nat.mod_lt n (by decide))

/-- **No escape is a control character.** -/
theorem inline_escape (c : Char) : Inline (escape c) := by
  obtain ⟨letter, hescape, -, hletter⟩ | ⟨hescape, -⟩ | ⟨hescape, -, -, hge⟩ := escape_cases c
  · -- A letter behind a backslash is known by what it stands for, and no control character is one.
    have hcontrol : ∀ n < 32, unescape? (Char.ofNat n) = none := by decide
    have hle : 32 ≤ letter.toNat := by
      refine Nat.not_lt.1 fun hlt => ?_
      have hnone := hcontrol letter.toNat hlt
      rw [Char.ofNat_toNat, hletter] at hnone
      cases hnone
    rw [hescape]
    exact inline_cons.2 ⟨by decide, inline_cons.2 ⟨hle, inline_nil⟩⟩
  · rw [hescape]
    simp only [inline_cons]
    exact ⟨by decide, by decide, by decide, by decide, le_toNat_hexChar _, le_toNat_hexChar _, inline_nil⟩
  · rw [hescape]
    exact inline_cons.2 ⟨Nat.not_lt.1 hge, inline_nil⟩

theorem inline_quoted (s : String) : Inline (quoted s) := by
  refine inline_cons.2 ⟨by decide, inline_append.2 ⟨?_, inline_cons.2 ⟨by decide, inline_nil⟩⟩⟩
  intro c hc
  obtain ⟨d, -, hd⟩ := List.mem_flatMap.1 hc
  exact inline_escape d c hd

/-! ## Characters of numbers -/

theorem inline_decimalDigits (n : Nat) : Inline (Double.decimalDigits n) :=
  Text.inline_of_isDigit fun _ => Double.isDigit_of_mem_decimalDigits

theorem inline_positionalText {digits : List Char} (h : Inline digits) (point : Int) :
    Inline (Double.Layout.exchange.positionalText digits point) := by
  have hzeros : ∀ zeros, Inline (List.replicate zeros '0') := fun zeros =>
    Text.inline_of_isDigit fun _ => isDigit_of_mem_zeros
  rw [Double.Layout.positionalText]
  split
  · exact inline_append.2 ⟨inline_cons.2 ⟨by decide, inline_cons.2 ⟨by decide, hzeros _⟩⟩, h⟩
  · split
    · refine inline_append.2 ⟨inline_append.2 ⟨h, hzeros _⟩, ?_⟩
      exact inline_cons.2 ⟨by decide, inline_cons.2 ⟨by decide, inline_nil⟩⟩
    · refine inline_append.2 ⟨fun c hc => h c (List.mem_of_mem_take hc), ?_⟩
      exact inline_cons.2 ⟨by decide, fun c hc => h c (List.mem_of_mem_drop hc)⟩

theorem inline_scientificText {digits : List Char} (h : Inline digits) (point : Int) :
    Inline (Double.scientificText digits point) := by
  have hfraction : Inline (digits.drop 1) := fun c hc => h c (List.mem_of_mem_drop hc)
  refine inline_append.2 ⟨inline_append.2 ⟨fun c hc => h c (List.mem_of_mem_take hc), ?_⟩, ?_⟩
  · split
    · exact inline_nil
    · exact inline_cons.2 ⟨by decide, hfraction⟩
  · refine inline_cons.2 ⟨by decide, inline_cons.2 ⟨?_, inline_decimalDigits _⟩⟩
    split <;> decide

theorem inline_decimal (d : Double.Decimal) : Inline (Double.Layout.exchange.decimal d) := by
  rw [Double.Layout.decimal]
  split
  · decide
  · dsimp only
    split
    · exact inline_positionalText (inline_decimalDigits _) _
    · exact inline_scientificText (inline_decimalDigits _) _

theorem Number.inline_text (n : Number) : Inline n.text := by
  cases n with
  | int n fits =>
    rw [text, intText]
    split
    · exact inline_cons.2 ⟨by decide, inline_decimalDigits _⟩
    · exact inline_decimalDigits _
  | float x finite =>
    rw [text, Double.Layout.text, if_pos finite]
    dsimp only
    split
    · exact inline_cons.2 ⟨by decide, inline_decimal _⟩
    · exact inline_decimal _

/-! ## Documents -/

mutual

/-- **A document without white space stays on its line.** -/
theorem inline_compactText (j : Json) : Inline (compactText j) := by
  match j with
  | .null | .bool true | .bool false => decide
  | .number n => exact n.inline_text
  | .string s => exact inline_quoted s
  | .array items => exact inline_cons.2 ⟨by decide, inline_compactItems items⟩
  | .object members => exact inline_cons.2 ⟨by decide, inline_compactMembers members⟩

theorem inline_compactItems (items : List Json) : Inline (compactItems items) := by
  match items with
  | [] => exact inline_cons.2 ⟨by decide, inline_nil⟩
  | [item] =>
    exact inline_append.2 ⟨inline_compactText item, inline_cons.2 ⟨by decide, inline_nil⟩⟩
  | item :: next :: more =>
    rw [compactItems_cons]
    exact inline_append.2 ⟨inline_compactText item,
      inline_cons.2 ⟨by decide, inline_compactItems (next :: more)⟩⟩

theorem inline_compactMembers (members : List (String × Json)) :
    Inline (compactMembers members) := by
  match members with
  | [] => exact inline_cons.2 ⟨by decide, inline_nil⟩
  | [(name, value)] =>
    simp only [compactMembers, inline_append, inline_cons]
    exact ⟨⟨inline_quoted name, by decide, inline_compactText value⟩, by decide, inline_nil⟩
  | (name, value) :: member :: others =>
    rw [compactMembers_cons]
    simp only [inline_append, inline_cons]
    exact ⟨⟨inline_quoted name, by decide, inline_compactText value⟩, by decide,
      inline_compactMembers (member :: others)⟩

end

/-- A number begins with its sign or a digit. -/
theorem Number.exists_text_eq_cons (n : Number) :
    ∃ c more, n.text = c :: more ∧ Text.isBlank c = false := by
  have hsigned : ∀ {negative : Prop} [Decidable negative] {digits : List Char},
      (∃ c more, digits = c :: more ∧ c.isDigit) →
      ∃ c more, (if negative then '-' :: digits else digits) = c :: more ∧
        Text.isBlank c = false := by
    intro negative _ digits hdigits
    split
    · exact ⟨'-', digits, rfl, by decide⟩
    · obtain ⟨c, more, rfl, hc⟩ := hdigits
      exact ⟨c, more, rfl, Text.isBlank_of_isDigit hc⟩
  cases n with
  | int n fits => exact hsigned (whole_decimalDigits n.natAbs).exists_eq_cons
  | float x finite =>
    rw [text, Double.Layout.text, if_pos finite]
    exact hsigned (scans_decimal _).exists_eq_cons

/-- **A document does not begin with white space.** -/
theorem exists_compactText_eq_cons (j : Json) :
    ∃ c more, compactText j = c :: more ∧ Text.isBlank c = false := by
  match j with
  | .null => exact ⟨_, _, rfl, by decide⟩
  | .bool true => exact ⟨_, _, rfl, by decide⟩
  | .bool false => exact ⟨_, _, rfl, by decide⟩
  | .number n => exact n.exists_text_eq_cons
  | .string s => exact ⟨_, _, rfl, by decide⟩
  | .array items => exact ⟨_, _, rfl, by decide⟩
  | .object members => exact ⟨_, _, rfl, by decide⟩

/-! ## Documents on lines -/

/-- Documents on lines of their own, with an end of a line between any two. -/
def onLines (lineEnd : String) (js : List Json) : String := lineEnd.intercalate (js.map compact)

variable {lineEnd ending : String}

/-- **The last document is on the last line**, whether or not that ends. -/
theorem lines_onLines_singleton (hend : Text.IsLineEnd lineEnd)
    (hlast : ending = "" ∨ ending = lineEnd) (j : Json) :
    Text.lines (onLines lineEnd [j] ++ ending).toList = [j.compactText] := by
  have htext : (onLines lineEnd [j] ++ ending).toList = j.compactText ++ ending.toList := by
    rw [onLines, List.map_singleton, String.intercalate_singleton, String.toList_append, compact,
      String.toList_ofList]
  rw [htext]
  rcases hlast with rfl | rfl
  · obtain ⟨c, more, heq, -⟩ := j.exists_compactText_eq_cons
    rw [String.toList_empty, List.append_nil]
    exact Text.lines_of_inline j.inline_compactText (heq ▸ List.cons_ne_nil c more)
  · have hblank : Text.lines ending.toList = [] :: Text.lines [] := hend.lines_toList
    exact Text.lines_append j.inline_compactText hblank

/-- **The first document is on the first line**, and the others are on the others. -/
theorem lines_onLines_cons (hend : Text.IsLineEnd lineEnd) (j next : Json) (more : List Json) :
    Text.lines (onLines lineEnd (j :: next :: more) ++ ending).toList =
      j.compactText :: Text.lines (onLines lineEnd (next :: more) ++ ending).toList := by
  have htext : (onLines lineEnd (j :: next :: more) ++ ending).toList = j.compactText ++
      (lineEnd.toList ++ (onLines lineEnd (next :: more) ++ ending).toList) := by
    simp only [onLines, List.map_cons, String.intercalate_cons_cons, String.toList_append, compact,
      String.toList_ofList, List.append_assoc]
  rw [htext]
  exact Text.lines_append j.inline_compactText (hend.lines_append _)

end Json

end Reporting
