import Reporting.Proofs.Chain
import Reporting.Proofs.Text.Reader
import Reporting.Settings.Template

/-!
# Proofs/Settings/Template — templates that are read back

A template can be read from its text if every segment shows where it ends (`Template.Legible`): a literal
has no dollar sign, a name between braces no closing one, and what follows a bare name or a lone dollar
sign does not go on with it.  Literals come back character by character, everything else as it was
(`Template.value_ofText_text`), so a text stands for what its segments stand for: all values as they are,
or the first variable from the left that is not set (`expand_text`).
-/

namespace Reporting

open Text (isNameChar)

/-! ## Segments -/

namespace Segment

/-- Whether a segment ends where a text follows it. -/
def EndsBefore (rest : List Char) : Segment → Prop
  | literal cs => '$' ∉ cs
  | dollar => rest.head? ≠ some '\x7b' ∧ rest.head?.any isNameChar = false
  | bare name => name ≠ [] ∧ name.all isNameChar ∧ rest.head?.any isNameChar = false
  | braced name => '\x7d' ∉ name

instance (rest : List Char) : (s : Segment) → Decidable (s.EndsBefore rest)
  | literal cs => inferInstanceAs (Decidable ('$' ∉ cs))
  | dollar => inferInstanceAs (Decidable (rest.head? ≠ some '\x7b' ∧ rest.head?.any isNameChar = false))
  | bare name => inferInstanceAs
      (Decidable (name ≠ [] ∧ name.all isNameChar ∧ rest.head?.any isNameChar = false))
  | braced name => inferInstanceAs (Decidable ('\x7d' ∉ name))

/-- What stands in the place of a segment: the value of the variable that it refers to, or else the
segment as it is written. -/
def filled (vars : Variables) (s : Segment) : List Char :=
  match s.reference? with
  | some name => ((vars name).getD "").toList
  | none => s.text

end Segment

namespace Template

variable {vars : Variables} {rest : List Char}

/-- Whether each segment of a template ends where the next one begins. -/
def Legible : Template → Prop
  | [] => True
  | s :: rest => s.EndsBefore (text rest) ∧ Legible rest

instance decidableLegible : (t : Template) → Decidable t.Legible
  | [] => .isTrue trivial
  | _ :: rest => @instDecidableAnd _ _ _ (decidableLegible rest)

theorem text_cons (s : Segment) (t : Template) : text (s :: t) = s.text ++ text t := List.flatMap_cons

/-! ## Reading -/

theorem ofText_cons {c : Char} (h : c ≠ '$') (rest : List Char) :
    ofText (c :: rest) = .literal [c] :: ofText rest := by
  rw [ofText]
  · exact fun _ heq _ => h heq
  · exact h

/-- A literal is read character by character. -/
theorem ofText_literal {cs : List Char} (h : '$' ∉ cs) (rest : List Char) :
    ofText (cs ++ rest) = cs.map (fun c => .literal [c]) ++ ofText rest := by
  induction cs with
  | nil => rfl
  | cons c cs ih =>
    rw [List.mem_cons, not_or] at h
    rw [List.cons_append, ofText_cons (Ne.symm h.1), ih h.2, List.map_cons, List.cons_append]

/-- A name between braces is read up to the first closing one. -/
theorem ofText_braced {name : List Char} (h : '\x7d' ∉ name) (rest : List Char) :
    ofText ('$' :: '\x7b' :: (name ++ '\x7d' :: rest)) = .braced name :: ofText rest := by
  have hname : ∀ c ∈ name, decide (c ≠ '\x7d') = true := fun c hc =>
    decide_eq_true fun heq => h (heq ▸ hc)
  have hclose : ∀ c ∈ ('\x7d' :: rest).head?, decide (c ≠ '\x7d') = false := by
    rintro c ⟨⟩
    rfl
  rw [ofText, Text.takeWhile_append_of_head? hname hclose, Text.dropWhile_append_of_head? hname hclose]
  rfl

/-- What a dollar sign that no brace follows is read as. -/
theorem ofText_dollar_cons (h : rest.head? ≠ some '\x7b') : ofText ('$' :: rest) =
    if (rest.takeWhile isNameChar).isEmpty then .dollar :: ofText rest
    else .bare (rest.takeWhile isNameChar) :: ofText (rest.dropWhile isNameChar) := by
  rw [ofText]
  rintro more rfl
  exact h rfl

theorem isNameChar_brace : isNameChar '\x7b' = false := by decide +kernel

theorem isNameChar_of_mem_head? (h : rest.head?.any isNameChar = false) :
    ∀ c ∈ rest.head?, isNameChar c = false := by
  intro c hc
  rwa [Option.mem_def.1 hc, Option.any_some] at h

/-- **A bare name is read as far as it goes.** -/
theorem ofText_bare {name : List Char} (hne : name ≠ []) (hname : name.all isNameChar)
    (hrest : rest.head?.any isNameChar = false) :
    ofText ('$' :: (name ++ rest)) = .bare name :: ofText rest := by
  have hchars := List.all_eq_true.1 hname
  have hstop := isNameChar_of_mem_head? hrest
  have hbrace : (name ++ rest).head? ≠ some '\x7b' := by
    obtain ⟨c, more, rfl⟩ := List.exists_cons_of_ne_nil hne
    rintro ⟨⟩
    exact Bool.false_ne_true (isNameChar_brace.symm.trans (hchars _ List.mem_cons_self))
  rw [ofText_dollar_cons hbrace, Text.takeWhile_append_of_head? hchars hstop,
    Text.dropWhile_append_of_head? hchars hstop, if_neg (by simpa using hne)]

/-- A dollar sign stands for itself before anything else. -/
theorem ofText_dollar (hbrace : rest.head? ≠ some '\x7b') (hrest : rest.head?.any isNameChar = false) :
    ofText ('$' :: rest) = .dollar :: ofText rest := by
  have hname : ([] ++ rest).takeWhile isNameChar = [] :=
    Text.takeWhile_append_of_head? nofun (isNameChar_of_mem_head? hrest)
  rw [List.nil_append] at hname
  rw [ofText_dollar_cons hbrace, hname]
  rfl

/-! ## Values -/

theorem value_cons (vars : Variables) (s : Segment) (t : Template) :
    value vars (s :: t) = s.value vars >>= fun cs => (value vars t).map (cs ++ ·) := by
  rw [value]
  cases s.value vars with
  | error e => rfl
  | ok cs => cases value vars t <;> rfl

/-- A literal says what its characters say. -/
theorem value_map_literal (vars : Variables) (cs : List Char) (t : Template) :
    value vars (cs.map (fun c => .literal [c]) ++ t) = (value vars t).map (cs ++ ·) := by
  induction cs with
  | nil => cases h : value vars t <;> simp [h, Except.map]
  | cons c cs ih =>
    rw [List.map_cons, List.cons_append, value_cons, ih]
    cases value vars t <;> rfl

/-- **A template that is read from its text stands for the same.** -/
theorem value_ofText_text (vars : Variables) {t : Template} (h : t.Legible) :
    value vars (ofText t.text) = value vars t := by
  induction t with
  | nil => rw [text, List.flatMap_nil, ofText]
  | cons s t ih =>
    obtain ⟨hends, ht⟩ := h
    rw [text_cons]
    cases s with
    | literal cs =>
      rw [Segment.text, ofText_literal hends, value_map_literal, ih ht, value_cons]
      rfl
    | dollar =>
      rw [Segment.text, List.singleton_append, ofText_dollar hends.1 hends.2, value_cons, value_cons, ih ht]
    | bare name =>
      rw [Segment.text, List.cons_append, ofText_bare hends.1 hends.2.1 hends.2.2, value_cons,
        value_cons, ih ht]
    | braced name =>
      have htext : Segment.text (.braced name) ++ text t =
          '$' :: '\x7b' :: (name ++ '\x7d' :: text t) := by
        simp [Segment.text]
      rw [htext, ofText_braced hends, value_cons, value_cons, ih ht]

/-- **A template stands for its filled segments**, unless a variable is not set: then the first one is
missing. -/
theorem value_eq (vars : Variables) (t : Template) : value vars t =
    match t.references.find? fun name => (vars name).isNone with
    | none => .ok (t.flatMap (Segment.filled vars))
    | some name => .error (.missingVariable name) := by
  induction t with
  | nil => rfl
  | cons s t ih =>
    rw [value_cons, references, List.filterMap_cons, List.flatMap_cons, Segment.value, Segment.filled]
    cases hreference : s.reference? with
    | none =>
      dsimp only
      rw [ih, references]
      cases (t.filterMap Segment.reference?).find? fun name => (vars name).isNone <;> rfl
    | some name =>
      dsimp only
      cases hvalue : vars name with
      | none => simp [hvalue, bind, Except.bind]
      | some value =>
        rw [ih, references, List.find?_cons_of_neg (by simp [hvalue])]
        cases (t.filterMap Segment.reference?).find? fun name => (vars name).isNone <;> rfl

end Template

/-! ## Expansion -/

/-- **A text is expanded segment by segment.**  Take a text that is written as segments, each of which
ends where the next one begins, and any variables.  If all that the segments refer to are set, each
reference gives way to the value, which is not read again, and everything else stays.  Otherwise the first
variable from the left that is not set is missing. -/
theorem expand_text (vars : Variables) {t : Template} (h : t.Legible) :
    expand vars (String.ofList t.text) =
      match t.references.find? fun name => (vars name).isNone with
      | none => .ok (String.ofList (t.flatMap (Segment.filled vars)))
      | some name => .error (.missingVariable name) := by
  rw [expand, String.toList_ofList, Template.value_ofText_text vars h, Template.value_eq]
  cases t.references.find? fun name => (vars name).isNone <;> rfl

/-- A value that looks like a reference is not read, also right before one, and of two variables that are
not set the left one is missing. -/
theorem expand_text_adjacent :
    let t : Template := [.bare ['A'], .braced ['B'], .dollar, .literal ['/'], .bare ['C'], .dollar]
    let vars : Variables := fun name => if name = "A" then some "$B\x7b" else some name
    t.Legible ∧ t.text = "$A$\x7bB\x7d$/$C$".toList ∧
      expand vars (String.ofList t.text) = .ok "$B\x7bB$/C$" ∧
      expand (fun name => if name = "A" then some "$C" else none) (String.ofList t.text) =
        .error (.missingVariable "B") := by
  intro t vars
  have h : t.Legible := by decide +kernel
  refine ⟨h, by decide, (expand_text vars h).trans ?_, (expand_text _ h).trans ?_⟩
  · simp [t, vars, Template.references, Segment.reference?, Segment.filled, Segment.text]
  · simp [t, Template.references, Segment.reference?]

end Reporting
