import Reporting.Proofs.Chain
import Reporting.Proofs.Json.Pretty

/-!
# Proofs/Json/Trailing — white space behind a document

A document is not read from a text that breaks anywhere (`not_isBroken_of_ofText`).  White space at the
end of a text can only change how it breaks, never whether (`scan_concat_space`): no number goes on with
it, and a word or a string that has not ended stays without an end.  So it is no part of what is read
(`ofText_concat_space_iff`).
-/

namespace Reporting.Json

/-- Whether a text breaks at a token. -/
def Token.IsBroken : Token → Prop
  | broken .. => True
  | _ => False

/-! ## Scanning -/

section

variable {c : Char} {cs : List Char}

/-- What it may do to a step of scanning that a character follows the text: the character is left over
with the rest, unless the text breaks either way. -/
def LeavesOver (c : Char) (step longer : Token × List Char) : Prop :=
  step.1.IsBroken ∧ longer.1.IsBroken ∨ longer.1 = step.1 ∧ longer.2 = step.2 ++ [c]

theorem leavesOver_self (token : Token) (cs : List Char) :
    LeavesOver c (token, cs) (token, cs ++ [c]) := .inr ⟨rfl, rfl⟩

/-- What white space is not. -/
structure Separates (c : Char) : Prop where
  digit : c.isDigit = false
  number : c ≠ '.' ∧ ¬ (c = 'e' ∨ c = 'E') ∧ c ≠ '-' ∧ c ≠ '+'
  quote : c ≠ '"' ∧ c ≠ '\\'
  escape : c ≠ 'u' ∧ unescape? c = none ∧ Text.hexDigit? c = none
  word : c ∉ ['u', 'l', 'l'] ∧ c ∉ ['r', 'u', 'e'] ∧ c ∉ ['a', 'l', 's', 'e']

theorem separates_of_isSpace (h : isSpace c) : Separates c := by
  simp only [isSpace, Bool.or_eq_true, beq_iff_eq] at h
  rcases h with ((rfl | rfl) | rfl) | rfl
  all_goals exact ⟨by decide, by decide, by decide, by decide, by decide⟩

/-! ### Numbers -/

theorem digits_concat (h : c.isDigit = false) (cs : List Char) : digits (cs ++ [c]) = digits cs := by
  induction cs with
  | nil => simp [digits, h]
  | cons d rest ih =>
    rw [digits] at ih
    simp only [digits, List.cons_append, List.takeWhile_cons, ih]

theorem afterDigits_concat (h : c.isDigit = false) (cs : List Char) :
    afterDigits (cs ++ [c]) = afterDigits cs ++ [c] := by
  induction cs with
  | nil => simp [afterDigits, h]
  | cons d rest ih =>
    rw [afterDigits] at ih
    simp only [afterDigits, List.cons_append, List.dropWhile_cons, ih]
    split <;> rfl

theorem exponentSign_concat (h : Separates c) (cs : List Char) :
    exponentSign (cs ++ [c]) = ((exponentSign cs).1, (exponentSign cs).2 ++ [c]) := by
  cases cs with
  | nil =>
    have hsign : exponentSign [c] = (false, [c]) := by
      rw [exponentSign, if_neg h.number.2.2.1, if_neg h.number.2.2.2]
    exact hsign
  | cons d rest =>
    rw [List.cons_append, exponentSign, exponentSign]
    split
    · rfl
    · split <;> rfl

theorem scanExponent_concat (h : Separates c) (negative : Bool) (n places : Nat) (cs : List Char) :
    LeavesOver c (scanExponent negative n places cs) (scanExponent negative n places (cs ++ [c])) := by
  rw [scanExponent, scanExponent, exponentSign_concat h]
  simp only [scanExponentDigits, digits_concat h.digit, afterDigits_concat h.digit]
  split
  · exact .inl ⟨trivial, trivial⟩
  · exact leavesOver_self _ _

theorem scanAfterFraction_concat (h : Separates c) (negative : Bool) (n places : Nat)
    (cs : List Char) : LeavesOver c (scanAfterFraction negative n places cs)
      (scanAfterFraction negative n places (cs ++ [c])) := by
  cases cs with
  | nil =>
    rw [List.nil_append, scanAfterFraction, scanAfterFraction, if_neg h.number.2.1]
    exact leavesOver_self _ []
  | cons d rest =>
    rw [List.cons_append, scanAfterFraction, scanAfterFraction]
    split
    · exact scanExponent_concat h _ _ _ rest
    · exact leavesOver_self _ (d :: rest)

theorem scanAfterWhole_concat (h : Separates c) (negative : Bool) (whole cs : List Char) :
    LeavesOver c (scanAfterWhole negative whole cs) (scanAfterWhole negative whole (cs ++ [c])) := by
  cases cs with
  | nil =>
    rw [List.nil_append, scanAfterWhole, scanAfterWhole, if_neg h.number.1, if_neg h.number.2.1]
    exact leavesOver_self _ []
  | cons d rest =>
    simp only [List.cons_append, scanAfterWhole, digits_concat h.digit, afterDigits_concat h.digit]
    split
    · split
      · exact .inl ⟨trivial, trivial⟩
      · exact scanAfterFraction_concat h _ _ _ _
    · split
      · exact scanExponent_concat h _ _ _ rest
      · exact leavesOver_self _ (d :: rest)

/-- **No number goes on with white space.** -/
theorem scanNumber_concat (h : Separates c) (negative : Bool) (cs : List Char) :
    LeavesOver c (scanNumber negative cs) (scanNumber negative (cs ++ [c])) := by
  simp only [scanNumber, digits_concat h.digit, afterDigits_concat h.digit]
  split
  · exact .inl ⟨trivial, trivial⟩
  · split
    · exact .inl ⟨trivial, trivial⟩
    · exact scanAfterWhole_concat h _ _ _

/-! ### Words and strings -/

/-- **No word ends with white space.** -/
theorem scanWord_concat {token : Token} {word : List Char} (hword : c ∉ word) (cs : List Char) :
    LeavesOver c (scanWord token word cs) (scanWord token word (cs ++ [c])) := by
  induction word generalizing cs with
  | nil => exact leavesOver_self token cs
  | cons w word ih =>
    rw [List.mem_cons, not_or] at hword
    obtain ⟨hw, hrest⟩ := hword
    cases cs with
    | nil =>
      rw [List.nil_append, scanWord, scanWord, if_neg hw]
      exact .inl ⟨trivial, trivial⟩
    | cons d rest =>
      rw [List.cons_append, scanWord, scanWord]
      split
      · exact ih hrest rest
      · exact .inl ⟨trivial, trivial⟩

/-- Whether a text breaks in a string that has been scanned so far. -/
def Breaks (s : Scanned) (cs : List Char) : Prop := (scanString s cs).1.IsBroken

theorem breaks_nil (s : Scanned) : Breaks s [] := trivial

theorem breaks_letter {s : Scanned} {letter : Char} (hu : letter ≠ 'u') (h : unescape? letter = none) :
    Breaks s ('\\' :: letter :: cs) := by
  rw [Breaks, scanString.eq_def]
  simp [hu, h, Scanned.brokenBy, Token.IsBroken]

theorem breaks_unit {s : Scanned} {a b d e : Char} (h : hexUnit? a b d e = none) :
    Breaks s ('\\' :: 'u' :: a :: b :: d :: e :: cs) := by
  rw [Breaks, scanString.eq_def]
  simp [h, Scanned.brokenBy, Token.IsBroken]

theorem breaks_short {s : Scanned} (h : cs.length < 4) : Breaks s ('\\' :: 'u' :: cs) := by
  match cs, h with
  | [], _ | [_], _ | [_, _], _ | [_, _, _], _ => exact trivial

/-- White space as the fourth digit of an escape is none. -/
theorem hexUnit?_of_separates (h : Separates c) (a b d : Char) : hexUnit? a b d c = none := by
  rw [hexUnit?, h.escape.2.2]
  cases Text.hexDigit? a <;> cases Text.hexDigit? b <;> cases Text.hexDigit? d <;> rfl

/-- An escape that is too short stays so, or gets white space for a digit. -/
theorem breaks_short_concat (h : Separates c) {s : Scanned}
    (hshort : ∀ a b d e more, cs = a :: b :: d :: e :: more → False) :
    Breaks s ('\\' :: 'u' :: (cs ++ [c])) := by
  match cs, hshort with
  | [], _ | [_], _ | [_, _], _ => exact breaks_short (by simp)
  | [a, b, d], _ => exact breaks_unit (hexUnit?_of_separates h a b d)
  | a :: b :: d :: e :: more, hshort => exact (hshort a b d e more rfl).elim

/-- **No string ends with white space.** -/
theorem scanString_concat (h : Separates c) (s : Scanned) (cs : List Char) :
    LeavesOver c (scanString s cs) (scanString s (cs ++ [c])) := by
  fun_induction scanString s cs with
  | case1 s =>
    refine .inl ⟨trivial, ?_⟩
    by_cases hcontrol : c.toNat < 32
    · rw [List.nil_append, scanString.eq_def]
      simp [h.quote, hcontrol, Scanned.brokenBy, Token.IsBroken]
    · rw [List.nil_append, scanString_plain h.quote.1 h.quote.2 hcontrol]
      exact breaks_nil _
  | case2 s rest =>
    rw [List.cons_append, scanString_quote]
    exact leavesOver_self _ rest
  | case3 s => exact .inl ⟨trivial, breaks_letter h.escape.1 h.escape.2.1⟩
  | case4 s a b d e more n hunit _ ih =>
    simp only [List.cons_append, scanString_unit hunit]
    exact ih
  | case5 s a b d e more hunit => exact .inl ⟨trivial, breaks_unit hunit⟩
  | case6 s short hshort => exact .inl ⟨trivial, breaks_short_concat h hshort⟩
  | case7 s letter rest hu escaped hletter _ ih =>
    simp only [List.cons_append, scanString_letter hu hletter]
    exact ih
  | case8 s letter rest hu hletter => exact .inl ⟨trivial, breaks_letter hu hletter⟩
  | case9 s d rest hquote hslash hcontrol =>
    refine .inl ⟨trivial, ?_⟩
    rw [List.cons_append, scanString.eq_def]
    simp [hquote, hslash, hcontrol, Scanned.brokenBy, Token.IsBroken]
  | case10 s d rest hquote hslash hcontrol ih =>
    rw [List.cons_append, scanString_plain hquote hslash hcontrol]
    exact ih

/-! ### Texts -/

/-- **No token goes on with white space.** -/
theorem scanToken_concat (h : Separates c) (first : Char) (rest : List Char) :
    LeavesOver c (scanToken first rest) (scanToken first (rest ++ [c])) := by
  rw [scanToken, scanToken]
  split
  · exact leavesOver_self _ rest
  · split
    · exact scanString_concat h _ rest
    · split
      · exact scanNumber_concat h true rest
      · split
        · exact scanNumber_concat h false (first :: rest)
        · split
          · exact scanWord_concat h.word.1 rest
          · split
            · exact scanWord_concat h.word.2.1 rest
            · split
              · exact scanWord_concat h.word.2.2 rest
              · exact .inl ⟨trivial, trivial⟩

/-- **White space at the end of a text does not change its tokens**, unless the text breaks with it and
without it. -/
theorem scan_concat_space (h : isSpace c) (cs : List Char) : scan (cs ++ [c]) = scan cs ∨
    (∃ token ∈ scan cs, token.IsBroken) ∧ ∃ token ∈ scan (cs ++ [c]), token.IsBroken := by
  fun_induction scan cs with
  | case1 => exact .inl (by rw [List.nil_append, scan_space h, scan])
  | case2 d rest hspace ih =>
    rw [List.cons_append, scan_space hspace]
    exact ih
  | case3 d rest hspace ih =>
    rw [List.cons_append, scan, if_neg hspace]
    rcases scanToken_concat (separates_of_isSpace h) d rest with ⟨hbroken, hlonger⟩ | ⟨htoken, hmore⟩
    · exact .inr ⟨⟨_, List.mem_cons_self, hbroken⟩, _, List.mem_cons_self, hlonger⟩
    · rw [htoken, hmore]
      refine ih.imp (congrArg _) ?_
      rintro ⟨⟨token, hmem, hbroken⟩, longer, hlonger, hbreaks⟩
      exact ⟨⟨token, List.mem_cons_of_mem _ hmem, hbroken⟩, longer,
        List.mem_cons_of_mem _ hlonger, hbreaks⟩

end

/-! ## Reading -/

/-- Whether what is read leaves every token at which the text breaks to what follows it. -/
def LeavesBroken (tokens : List Token) (after : Option (List Token)) : Prop :=
  ∃ rest, after = some rest ∧ ∀ token ∈ tokens, token.IsBroken → token ∈ rest

section

variable {tokens more : List Token} {token : Token} {after : Option (List Token)}

theorem leavesBroken_self (tokens : List Token) : LeavesBroken tokens (some tokens) :=
  ⟨tokens, rfl, fun _ hmem _ => hmem⟩

theorem LeavesBroken.cons (h : LeavesBroken tokens after) (htoken : ¬ token.IsBroken) :
    LeavesBroken (token :: tokens) after := by
  obtain ⟨rest, hafter, hrest⟩ := h
  refine ⟨rest, hafter, fun other hother hbroken => ?_⟩
  rcases List.mem_cons.1 hother with rfl | hmem
  · exact absurd hbroken htoken
  · exact hrest other hmem hbroken

/-- A text does not break at punctuation. -/
theorem LeavesBroken.mark (h : LeavesBroken tokens after) (m : Mark) :
    LeavesBroken (.mark m :: tokens) after := h.cons not_false

theorem LeavesBroken.trans (h : LeavesBroken tokens (some more)) (hmore : LeavesBroken more after) :
    LeavesBroken tokens after := by
  obtain ⟨_, ⟨⟩, hrest⟩ := h
  obtain ⟨rest, hafter, hleft⟩ := hmore
  exact ⟨rest, hafter, fun token hmem hbroken => hleft token (hrest token hmem hbroken) hbroken⟩

end

namespace Node

/-- What is read of a container is read at a depth that allows it. -/
theorem toJson_of_atDepth {depth : Nat} {node : Node} {j : Json}
    (h : (atDepth depth node).toJson = .ok j) : node.toJson = .ok j := by
  rw [atDepth] at h
  split at h
  · exact h
  · cases h

theorem toItems_of_toJson {items : List Node} {stop : Option Flaw} {j : Json}
    (h : (array items stop).toJson = .ok j) : stop = none ∧ ∃ js, toItems items = .ok js := by
  rw [toJson] at h
  obtain ⟨js, hitems, hstop⟩ := bind_eq_ok_iff.1 h
  cases stop with
  | none => exact ⟨rfl, js, hitems⟩
  | some flaw => cases hstop

theorem toMembers_of_toJson {members : List (Node × Node)} {stop : Option Flaw} {j : Json}
    (h : (object members stop).toJson = .ok j) : stop = none ∧ ∃ ms, toMembers members = .ok ms := by
  rw [toJson] at h
  obtain ⟨ms, hmembers, hstop⟩ := bind_eq_ok_iff.1 h
  cases stop with
  | none => exact ⟨rfl, ms, hmembers⟩
  | some flaw => cases hstop

theorem toItems_cons {item : Node} {rest : List Node} {js : List Json}
    (h : toItems (item :: rest) = .ok js) :
    (∃ j, item.toJson = .ok j) ∧ ∃ js, toItems rest = .ok js := by
  rw [toItems] at h
  obtain ⟨j, hitem, h⟩ := bind_eq_ok_iff.1 h
  obtain ⟨js, hrest, -⟩ := bind_eq_ok_iff.1 h
  exact ⟨⟨j, hitem⟩, js, hrest⟩

theorem toMembers_cons {name value : Node} {rest : List (Node × Node)} {ms : List (String × Json)}
    (h : toMembers ((name, value) :: rest) = .ok ms) :
    (∃ s, name.nameText = .ok s) ∧ (∃ j, value.toJson = .ok j) ∧ ∃ ms, toMembers rest = .ok ms := by
  rw [toMembers] at h
  obtain ⟨s, hname, h⟩ := bind_eq_ok_iff.1 h
  obtain ⟨j, hvalue, h⟩ := bind_eq_ok_iff.1 h
  obtain ⟨ms, hrest, -⟩ := bind_eq_ok_iff.1 h
  exact ⟨⟨s, hname⟩, ⟨j, hvalue⟩, ms, hrest⟩

/-- A name that is read is one token. -/
theorem leavesBroken_name {tokens : List Token} {s : String} (h : (name tokens).1.nameText = .ok s) :
    LeavesBroken tokens (name tokens).2 := by
  unfold name at h ⊢
  split at h
  case h_2 => exact (leavesBroken_self _).cons not_false
  all_goals cases h

mutual

/-- **A value that is read has no token at which the text breaks.** -/
theorem leavesBroken_value (fuel depth : Nat) (tokens : List Token) {j : Json}
    (h : (value fuel depth tokens).1.toJson = .ok j) :
    LeavesBroken tokens (value fuel depth tokens).2 := by
  match fuel with
  | 0 => cases h
  | fuel + 1 =>
    unfold value at h ⊢
    split at h
    case h_2 | h_3 | h_4 | h_5 => exact (leavesBroken_self _).cons not_false
    case h_8 | h_10 => exact ((leavesBroken_self _).mark _).mark _
    case h_9 rest _ =>
      obtain ⟨hstop, js, hitems⟩ := toItems_of_toJson (toJson_of_atDepth h)
      exact (leavesBroken_items fuel (depth + 1) rest ⟨hitems, hstop⟩).mark _
    case h_11 rest _ =>
      obtain ⟨hstop, ms, hmembers⟩ := toMembers_of_toJson (toJson_of_atDepth h)
      exact (leavesBroken_members fuel (depth + 1) rest ⟨hmembers, hstop⟩).mark _
    all_goals cases h

theorem leavesBroken_items (fuel depth : Nat) (tokens : List Token) {js : List Json}
    (h : toItems (items fuel depth tokens).1 = .ok js ∧ (items fuel depth tokens).2.1 = none) :
    LeavesBroken tokens (items fuel depth tokens).2.2 := by
  match fuel with
  | 0 => cases h.2
  | fuel + 1 =>
    have hvalue := @leavesBroken_value fuel depth tokens
    unfold items at h ⊢
    generalize value fuel depth tokens = read at h hvalue ⊢
    split at h
    case h_1 =>
      obtain ⟨⟨j, hitem⟩, -⟩ := toItems_cons h.1
      exact hvalue hitem
    case h_3 rest =>
      obtain ⟨⟨j, hitem⟩, -⟩ := toItems_cons h.1
      exact (hvalue hitem).trans ((leavesBroken_self rest).mark _)
    case h_4 rest =>
      obtain ⟨⟨j, hitem⟩, js, hmore⟩ := toItems_cons h.1
      exact (hvalue hitem).trans ((leavesBroken_items fuel depth rest ⟨hmore, h.2⟩).mark _)
    all_goals cases h.2

theorem leavesBroken_members (fuel depth : Nat) (tokens : List Token) {ms : List (String × Json)}
    (h : toMembers (members fuel depth tokens).1 = .ok ms ∧ (members fuel depth tokens).2.1 = none) :
    LeavesBroken tokens (members fuel depth tokens).2.2 := by
  match fuel with
  | 0 => cases h.2
  | fuel + 1 =>
    have hname := @leavesBroken_name tokens
    unfold members at h ⊢
    generalize name tokens = read at h hname ⊢
    split at h
    case h_3 key rest =>
      have hvalue := @leavesBroken_value fuel depth rest
      dsimp only at h ⊢
      generalize value fuel depth rest = read at h hvalue ⊢
      split at h
      case h_1 =>
        obtain ⟨⟨s, hkey⟩, ⟨j, hitem⟩, -⟩ := toMembers_cons h.1
        exact (hname hkey).trans ((hvalue hitem).mark _)
      case h_3 more =>
        obtain ⟨⟨s, hkey⟩, ⟨j, hitem⟩, -⟩ := toMembers_cons h.1
        exact (hname hkey).trans (((hvalue hitem).trans ((leavesBroken_self more).mark _)).mark _)
      case h_4 more =>
        obtain ⟨⟨s, hkey⟩, ⟨j, hitem⟩, ms, hmore⟩ := toMembers_cons h.1
        exact (hname hkey).trans (((hvalue hitem).trans
          ((leavesBroken_members fuel depth more ⟨hmore, h.2⟩).mark _)).mark _)
      all_goals cases h.2
    all_goals
      -- Nothing stands where the value of the member should be.
      obtain ⟨-, ⟨j, hitem⟩, -⟩ := toMembers_cons h.1
      cases hitem

end

/-- A tree that is read and leaves nothing over has no token at which the text breaks. -/
theorem not_isBroken_of_ofTokens {tokens : List Token} {j : Json}
    (h : (ofTokens tokens).1.toJson = .ok j ∧ (ofTokens tokens).2 = false) :
    ∀ token ∈ tokens, ¬ token.IsBroken := by
  intro token hmem hbroken
  have hvalue := @leavesBroken_value (2 * tokens.length + 2) 0 tokens
  unfold ofTokens at h
  generalize value (2 * tokens.length + 2) 0 tokens = read at h hvalue
  split at h
  · cases h.2
  · rename_i node after hafter
    obtain ⟨rest, hrest, hleft⟩ := hvalue h.1
    cases rest with
    | nil => exact List.not_mem_nil (hleft token hmem hbroken)
    | cons first more => exact hafter first more hrest

end Node

/-- **A document is read only from a text that breaks nowhere.** -/
theorem not_isBroken_of_ofText {text : String} {j : Json} (h : ofText text = .ok j) :
    ∀ token ∈ scan text.toList, ¬ token.IsBroken := by
  have hstep : ofText text = (Node.ofText text).1.toJson >>= fun json =>
      if (Node.ofText text).2 then .error .malformed else .ok json := rfl
  obtain ⟨_, hread, hmore⟩ := bind_eq_ok_iff.1 (hstep ▸ h)
  refine Node.not_isBroken_of_ofTokens ⟨hread, ?_⟩
  cases hleft : (Node.ofText text).2 with
  | true =>
    rw [hleft] at hmore
    cases hmore
  | false => exact hleft

/-- **White space at the end of a text is no part of the document in it.** -/
theorem ofText_concat_space_iff {c : Char} (h : isSpace c) {cs : List Char} {j : Json} :
    ofText (String.ofList (cs ++ [c])) = .ok j ↔ ofText (String.ofList cs) = .ok j := by
  rcases scan_concat_space h cs with heq | ⟨⟨token, hmem, hbroken⟩, longer, hlonger, hbreaks⟩
  · rw [ofText, ofText, Node.ofText, Node.ofText, String.toList_ofList, String.toList_ofList, heq]
  · refine iff_of_false (fun hread => ?_) (fun hread => ?_)
    · exact not_isBroken_of_ofText hread longer (by rwa [String.toList_ofList]) hbreaks
    · exact not_isBroken_of_ofText hread token (by rwa [String.toList_ofList]) hbroken

end Reporting.Json
