import Reporting.Json.Node
import Reporting.Proofs.Json.Number

/-!
# Proofs/Json/Text — documents that are read back

The text of a document is cut into the tokens that the document consists of (`scan_compactText`),
whatever follows it, and those are put together to the same tree (`Node.value_tokens`).  Only a
document that nests deeper than any reader goes is not read back (`Node.ofText_of_spells`).
-/

namespace Reporting.Json

variable {rest : List Char}

/-! ## Strings -/

/-- **How a character is written in a string**: with a letter of its own, by its number, or as it
is. -/
theorem escape_cases (c : Char) :
    (∃ letter, escape c = ['\\', letter] ∧ letter ≠ 'u' ∧ unescape? letter = some c) ∨
    (escape c = ['\\', 'u', '0', '0', hexChar (c.toNat / 16), hexChar c.toNat] ∧ c.toNat < 32) ∨
    (escape c = [c] ∧ c ≠ '"' ∧ c ≠ '\\' ∧ ¬ c.toNat < 32) := by
  have hofNat : ∀ n, c.toNat = n → c = Char.ofNat n := fun n hn => by
    rw [← hn, Char.ofNat_toNat]
  by_cases hnamed : c = '"' ∨ c = '\\' ∨ c = '\n' ∨ c = '\r' ∨ c = '\t' ∨ c.toNat = 8 ∨ c.toNat = 12
  · left
    rcases hnamed with rfl | rfl | rfl | rfl | rfl | hc | hc
    · exact ⟨'"', rfl, by decide, rfl⟩
    · exact ⟨'\\', rfl, by decide, rfl⟩
    · exact ⟨'n', rfl, by decide, rfl⟩
    · exact ⟨'r', rfl, by decide, rfl⟩
    · exact ⟨'t', rfl, by decide, rfl⟩
    · exact ⟨'b', by rw [hofNat 8 hc]; rfl, by decide, by rw [hofNat 8 hc]; rfl⟩
    · exact ⟨'f', by rw [hofNat 12 hc]; rfl, by decide, by rw [hofNat 12 hc]; rfl⟩
  · simp only [not_or] at hnamed
    obtain ⟨hquote, hslash, hn, hr, ht, hb, hf⟩ := hnamed
    rw [escape, if_neg hquote, if_neg hslash, if_neg hn, if_neg hr, if_neg ht, if_neg hb, if_neg hf]
    split
    · exact .inr (.inl ⟨rfl, ‹_›⟩)
    · exact .inr (.inr ⟨rfl, hquote, hslash, ‹_›⟩)

theorem hexUnit?_hexChar : ∀ n < 32, hexUnit? '0' '0' (hexChar (n / 16)) (hexChar n) = some n := by
  decide

namespace Scanned

variable {s : Scanned}

theorem push_eq (h : s.half = none) (c : Char) : s.push c = { s with reversed := c :: s.reversed } := by
  simp only [push, settle, h]

/-- A control character is no half of a pair. -/
theorem unit_eq (h : s.half = none) {c : Char} (hc : c.toNat < 32) : s.unit c.toNat = s.push c := by
  rw [unit, h]
  dsimp only
  rw [if_neg (by omega), if_neg (by omega), Char.ofNat_toNat]

end Scanned

variable {s : Scanned}

theorem scanString_quote : scanString s ('"' :: rest) = (s.token, rest) := by
  rw [scanString.eq_def]
  rfl

theorem scanString_letter {letter c : Char} (hu : letter ≠ 'u') (h : unescape? letter = some c) :
    scanString s ('\\' :: letter :: rest) = scanString (s.push c) rest := by
  rw [scanString.eq_def]
  simp [hu, h]

theorem scanString_unit {a b c d : Char} {n : Nat} (h : hexUnit? a b c d = some n) :
    scanString s ('\\' :: 'u' :: a :: b :: c :: d :: rest) = scanString (s.unit n) rest := by
  rw [scanString.eq_def]
  simp [h]

theorem scanString_plain {c : Char} (hquote : c ≠ '"') (hslash : c ≠ '\\') (hge : ¬ c.toNat < 32) :
    scanString s (c :: rest) = scanString (s.push c) rest := by
  rw [scanString.eq_def]
  simp [hquote, hslash, hge]

/-- **A character is read back from its escape.** -/
theorem scanString_escape (h : s.half = none) (c : Char) :
    scanString s (escape c ++ rest) = scanString (s.push c) rest := by
  obtain ⟨letter, hescape, hu, hletter⟩ | ⟨hescape, hlt⟩ | ⟨hescape, hquote, hslash, hge⟩ :=
    escape_cases c
  · rw [hescape]
    exact scanString_letter hu hletter
  · rw [hescape, ← s.unit_eq h hlt]
    exact scanString_unit (hexUnit?_hexChar _ hlt)
  · rw [hescape]
    exact scanString_plain hquote hslash hge

/-- **A string is read back** after its opening quote. -/
theorem scanString_flatMap (hfit : s.fit) (h : s.half = none) (cs : List Char) :
    scanString s (cs.flatMap escape ++ '"' :: rest) =
      (.string (String.ofList (s.reversed.reverse ++ cs)), rest) := by
  induction cs generalizing s with
  | nil =>
    rw [List.flatMap_nil, List.nil_append, List.append_nil, scanString_quote]
    simp only [Scanned.token, Scanned.settle, h, hfit, if_true]
  | cons c cs ih =>
    have hpush := Scanned.push_eq h c
    rw [List.flatMap_cons, List.append_assoc, scanString_escape h, ih (by rw [hpush]; exact hfit)
      (by rw [hpush]; exact h), hpush, List.reverse_cons, List.append_assoc, List.singleton_append]

theorem scan_quoted (s : String) : scan (quoted s ++ rest) = .string s :: scan rest := by
  have htoken : scanToken '"' (s.toList.flatMap escape ++ ('"' :: rest)) = (.string s, rest) := by
    have hscan : scanString {} (s.toList.flatMap escape ++ ('"' :: rest)) =
        (.string (String.ofList ([].reverse ++ s.toList)), rest) := scanString_flatMap rfl rfl s.toList
    rwa [List.reverse_nil, List.nil_append, String.ofList_toList] at hscan
  rw [quoted, List.cons_append, List.cons_append, List.append_assoc, List.singleton_append, scan,
    if_neg (by decide), htoken]

/-! ## Tokens -/

mutual

/-- The tokens of a document. -/
def tokens : Json → List Token
  | null => [.null]
  | bool b => [.bool b]
  | number n => [.number n]
  | string s => [.string s]
  | array items => .mark .openArray :: itemTokens items
  | object members => .mark .openObject :: memberTokens members

/-- The tokens of the items of an array and of what closes it. -/
def itemTokens : List Json → List Token
  | [] => [.mark .closeArray]
  | [item] => tokens item ++ [.mark .closeArray]
  | item :: rest => tokens item ++ .mark .comma :: itemTokens rest

/-- The tokens of the members of an object and of what closes it. -/
def memberTokens : List (String × Json) → List Token
  | [] => [.mark .closeObject]
  | [(name, value)] => .string name :: .mark .colon :: tokens value ++ [.mark .closeObject]
  | (name, value) :: rest =>
    .string name :: .mark .colon :: tokens value ++ .mark .comma :: memberTokens rest

end

section

variable (item next : Json) (name : String) (member : String × Json) (more : List Json)
  (others : List (String × Json))

theorem compactItems_cons : compactItems (item :: next :: more) =
    compactText item ++ ',' :: compactItems (next :: more) := rfl

theorem itemTokens_cons : itemTokens (item :: next :: more) =
    tokens item ++ .mark .comma :: itemTokens (next :: more) := rfl

theorem compactMembers_cons : compactMembers ((name, item) :: member :: others) =
    quoted name ++ ':' :: compactText item ++ ',' :: compactMembers (member :: others) := rfl

theorem memberTokens_cons : memberTokens ((name, item) :: member :: others) =
    .string name :: .mark .colon :: tokens item ++ .mark .comma :: memberTokens (member :: others) :=
  rfl

end

/-- A punctuation mark is a token. -/
theorem scan_mark {c : Char} {m : Mark} (hspace : isSpace c = false) (h : mark? c = some m) :
    scan (c :: rest) = .mark m :: scan rest := by
  have htoken : scanToken c rest = (.mark m, rest) := by rw [scanToken, h]
  rw [scan, if_neg (Bool.eq_false_iff.1 hspace), htoken]

/-- A number ends where the text does. -/
theorem ends_nil : Ends [] := nofun

/-- What closes or parts items is no part of a number. -/
theorem ends_cons {c : Char} (h : c = ',' ∨ c = ']' ∨ c = '\x7d') : Ends (c :: rest) := by
  rintro d ⟨⟩
  rcases h with rfl | rfl | rfl <;> decide

/-- A word is a token, when all its letters come. -/
theorem scan_word {c : Char} {word : List Char} {token : Token} (hspace : isSpace c = false)
    (h : ∀ rest, scanToken c rest = scanWord token word rest) :
    scan (c :: word ++ rest) = token :: scan rest := by
  have hword : ∀ word, scanWord token word (word ++ rest) = (token, rest) := by
    intro word
    induction word with
    | nil => rfl
    | cons c word ih => rw [List.cons_append, scanWord, if_pos rfl, ih]
  rw [List.cons_append, scan, if_neg (Bool.eq_false_iff.1 hspace), h, hword]

mutual

/-- **The text of a document is cut into its tokens.** -/
theorem scan_compactText (j : Json) {rest : List Char} (hrest : Ends rest) :
    scan (compactText j ++ rest) = tokens j ++ scan rest := by
  match j with
  | .null => exact scan_word rfl fun _ => rfl
  | .bool true => exact scan_word rfl fun _ => rfl
  | .bool false => exact scan_word rfl fun _ => rfl
  | .number n => exact n.scan_text hrest
  | .string s => exact scan_quoted s
  | .array items =>
    rw [compactText, List.cons_append, scan_mark rfl rfl, scan_compactItems items]
    rfl
  | .object members =>
    rw [compactText, List.cons_append, scan_mark rfl rfl, scan_compactMembers members]
    rfl

theorem scan_compactItems (items : List Json) {rest : List Char} :
    scan (compactItems items ++ rest) = itemTokens items ++ scan rest := by
  match items with
  | [] => exact scan_mark rfl rfl
  | [item] =>
    rw [compactItems, List.append_assoc, List.singleton_append,
      scan_compactText item (ends_cons (.inr (.inl rfl))), scan_mark rfl rfl, itemTokens,
      List.append_assoc, List.singleton_append]
  | item :: next :: more =>
    rw [compactItems_cons, List.append_assoc, List.cons_append,
      scan_compactText item (ends_cons (.inl rfl)), scan_mark rfl rfl,
      scan_compactItems (next :: more), itemTokens_cons, List.append_assoc, List.cons_append]

theorem scan_compactMembers (members : List (String × Json)) {rest : List Char} :
    scan (compactMembers members ++ rest) = memberTokens members ++ scan rest := by
  match members with
  | [] => exact scan_mark rfl rfl
  | [(name, value)] =>
    rw [compactMembers, List.append_assoc, List.append_assoc, scan_quoted, List.cons_append,
      scan_mark rfl rfl, List.singleton_append,
      scan_compactText value (ends_cons (.inr (.inr rfl))), scan_mark rfl rfl, memberTokens]
    simp
  | (name, value) :: member :: others =>
    rw [compactMembers_cons, List.append_assoc, List.append_assoc, scan_quoted, List.cons_append,
      scan_mark rfl rfl, List.cons_append, scan_compactText value (ends_cons (.inl rfl)),
      scan_mark rfl rfl, scan_compactMembers (member :: others), memberTokens_cons]
    simp

end

/-! ## Spelling -/

/-- Whether a text is cut into the tokens of a document. -/
def Spells (text : String) (j : Json) : Prop := scan text.toList = tokens j

theorem spells_compact (j : Json) : Spells j.compact j := by
  have hscan : scan (compactText j ++ []) = tokens j ++ scan [] := scan_compactText j ends_nil
  rw [List.append_nil, scan, List.append_nil] at hscan
  rwa [Spells, compact, String.toList_ofList]

/-! ## Trees -/

/-- A document does not begin with what closes one. -/
theorem exists_tokens_eq_cons (j : Json) : ∃ token more, tokens j = token :: more ∧
    token ≠ .mark .closeArray := by
  cases j <;> exact ⟨_, _, rfl, nofun⟩

theorem exists_itemTokens_eq_cons {its : List Json} (h : its ≠ []) :
    ∃ token more, itemTokens its = token :: more ∧ token ≠ .mark .closeArray := by
  match its with
  | [] => exact absurd rfl h
  | [item] =>
    obtain ⟨token, more, heq, hclose⟩ := exists_tokens_eq_cons item
    exact ⟨token, more ++ [.mark .closeArray], by rw [itemTokens, heq, List.cons_append], hclose⟩
  | item :: next :: others =>
    obtain ⟨token, more, heq, hclose⟩ := exists_tokens_eq_cons item
    exact ⟨token, _, by rw [itemTokens_cons, heq, List.cons_append], hclose⟩

theorem exists_memberTokens_eq_cons {ms : List (String × Json)} (h : ms ≠ []) :
    ∃ token more, memberTokens ms = token :: more ∧ token ≠ .mark .closeObject := by
  match ms with
  | [] => exact absurd rfl h
  | [(name, value)] => exact ⟨.string name, _, rfl, nofun⟩
  | (name, value) :: member :: others => exact ⟨.string name, _, rfl, nofun⟩

namespace Node

variable {fuel depth : Nat}

theorem atDepth_of_le (h : depth ≤ maxDepth) (node : Node) : atDepth depth node = node := if_pos h

theorem value_openArray {token : Token} (h : token ≠ .mark .closeArray) (more : List Token) :
    value (fuel + 1) depth (.mark .openArray :: token :: more) =
      (atDepth (depth + 1) (array (items fuel (depth + 1) (token :: more)).1
        (items fuel (depth + 1) (token :: more)).2.1),
        (items fuel (depth + 1) (token :: more)).2.2) := by
  rw [value]
  rintro rest heq
  cases heq
  exact h rfl

theorem value_openObject {token : Token} (h : token ≠ .mark .closeObject) (more : List Token) :
    value (fuel + 1) depth (.mark .openObject :: token :: more) =
      (atDepth (depth + 1) (object (members fuel (depth + 1) (token :: more)).1
        (members fuel (depth + 1) (token :: more)).2.1),
        (members fuel (depth + 1) (token :: more)).2.2) := by
  rw [value]
  rintro rest heq
  cases heq
  exact h rfl

mutual

/-- **The tokens of a document are put together to it**, if it does not nest too deep. -/
theorem value_tokens (j : Json) {fuel depth : Nat} {rest : List Token}
    (hfuel : 2 * (tokens j).length ≤ fuel) (hdepth : depth + j.depth ≤ maxDepth) :
    value fuel depth (tokens j ++ rest) = (ofJson j, some rest) := by
  obtain ⟨token, tail, htokens, -⟩ := exists_tokens_eq_cons j
  obtain ⟨fuel, rfl⟩ : ∃ less, fuel = less + 1 := by
    rw [htokens, List.length_cons] at hfuel
    exact ⟨fuel - 1, by omega⟩
  match j with
  | .null => rfl
  | .bool b => rfl
  | .number n => rfl
  | .string s => rfl
  | .array its =>
    rw [tokens, List.length_cons] at hfuel
    rw [Json.depth] at hdepth
    have hopen : depth + 1 ≤ maxDepth := by omega
    by_cases hne : its = []
    · subst hne
      exact congrArg (·, some rest) (atDepth_of_le hopen _)
    · obtain ⟨first, more, hits, hclose⟩ := exists_itemTokens_eq_cons hne
      rw [tokens, hits, List.cons_append, List.cons_append, value_openArray hclose,
        ← List.cons_append, ← hits, items_itemTokens its hne (by omega) (by omega), ofJson,
        atDepth_of_le hopen]
  | .object ms =>
    rw [tokens, List.length_cons] at hfuel
    rw [Json.depth] at hdepth
    have hopen : depth + 1 ≤ maxDepth := by omega
    by_cases hne : ms = []
    · subst hne
      exact congrArg (·, some rest) (atDepth_of_le hopen _)
    · obtain ⟨first, more, hms, hclose⟩ := exists_memberTokens_eq_cons hne
      rw [tokens, hms, List.cons_append, List.cons_append, value_openObject hclose,
        ← List.cons_append, ← hms, members_memberTokens ms hne (by omega) (by omega), ofJson,
        atDepth_of_le hopen]

theorem items_itemTokens (its : List Json) (hne : its ≠ []) {fuel depth : Nat} {rest : List Token}
    (hfuel : 2 * (itemTokens its).length < fuel) (hdepth : depth + itemsDepth its ≤ maxDepth) :
    items fuel depth (itemTokens its ++ rest) = (ofItems its, none, some rest) := by
  obtain ⟨fuel, rfl⟩ : ∃ less, fuel = less + 1 := ⟨fuel - 1, by omega⟩
  match its with
  | [] => exact absurd rfl hne
  | [item] =>
    rw [itemTokens, List.length_append] at hfuel
    rw [itemsDepth, itemsDepth] at hdepth
    rw [itemTokens, List.append_assoc, List.singleton_append, items,
      value_tokens item (by omega) (by omega)]
    rfl
  | item :: next :: more =>
    rw [itemTokens_cons, List.length_append, List.length_cons] at hfuel
    rw [itemsDepth] at hdepth
    rw [itemTokens_cons, List.append_assoc, List.cons_append, items,
      value_tokens item (by omega) (by omega)]
    dsimp only
    rw [items_itemTokens (next :: more) (List.cons_ne_nil _ _) (by omega) (by omega)]
    rfl

theorem members_memberTokens (ms : List (String × Json)) (hne : ms ≠ []) {fuel depth : Nat}
    {rest : List Token} (hfuel : 2 * (memberTokens ms).length < fuel)
    (hdepth : depth + membersDepth ms ≤ maxDepth) :
    members fuel depth (memberTokens ms ++ rest) = (ofMembers ms, none, some rest) := by
  obtain ⟨fuel, rfl⟩ : ∃ less, fuel = less + 1 := ⟨fuel - 1, by omega⟩
  match ms with
  | [] => exact absurd rfl hne
  | [(name, item)] =>
    rw [memberTokens, List.length_append, List.length_cons, List.length_cons] at hfuel
    rw [membersDepth, membersDepth] at hdepth
    rw [memberTokens, List.append_assoc, List.singleton_append, List.cons_append, List.cons_append,
      members]
    dsimp only [Node.name]
    rw [value_tokens item (by omega) (by omega)]
    rfl
  | (name, item) :: member :: others =>
    rw [memberTokens_cons, List.length_append, List.length_cons, List.length_cons,
      List.length_cons] at hfuel
    rw [membersDepth] at hdepth
    rw [memberTokens_cons, List.append_assoc, List.cons_append, List.cons_append, List.cons_append,
      members]
    dsimp only [Node.name]
    rw [value_tokens item (by omega) (by omega)]
    dsimp only
    rw [members_memberTokens (member :: others) (List.cons_ne_nil _ _) (by omega) (by omega)]
    rfl

end

/-- **A document is read back from a text that spells it**, if it does not nest too deep. -/
theorem ofText_of_spells {text : String} {j : Json} (h : Spells text j) (hdepth : j.depth ≤ maxDepth) :
    ofText text = (ofJson j, false) := by
  have hvalue : value (2 * (tokens j).length + 2) 0 (tokens j ++ []) = (ofJson j, some []) :=
    value_tokens j (by omega) (by rwa [Nat.zero_add])
  rw [List.append_nil] at hvalue
  rw [ofText, show scan text.toList = tokens j from h, ofTokens, hvalue]

mutual

/-- Different documents are different trees. -/
theorem ofJson_injective {a b : Json} (h : ofJson a = ofJson b) : a = b := by
  cases a <;> cases b <;> simp only [ofJson, reduceCtorEq] at h
  case null.null => rfl
  case array.array as bs => rw [ofItems_injective (array.inj h).1]
  case object.object ms ns => rw [ofMembers_injective (object.inj h).1]
  all_goals
    cases h
    rfl

theorem ofItems_injective {as bs : List Json} (h : ofItems as = ofItems bs) : as = bs := by
  cases as <;> cases bs <;> simp only [ofItems, reduceCtorEq] at h
  case nil.nil => rfl
  case cons.cons a as b bs =>
    obtain ⟨hhead, htail⟩ := List.cons.inj h
    rw [ofJson_injective hhead, ofItems_injective htail]

theorem ofMembers_injective {as bs : List (String × Json)} (h : ofMembers as = ofMembers bs) :
    as = bs := by
  cases as <;> cases bs <;> simp only [ofMembers, reduceCtorEq] at h
  case nil.nil => rfl
  case cons.cons a as b bs =>
    obtain ⟨hhead, htail⟩ := List.cons.inj h
    obtain ⟨hname, hvalue⟩ := Prod.mk.inj hhead
    rw [Prod.ext (string.inj hname) (ofJson_injective hvalue), ofMembers_injective htail]

end

end Node

/-- **Different documents have different texts.** -/
theorem compact_injective {a b : Json} (ha : a.depth ≤ maxDepth) (hb : b.depth ≤ maxDepth)
    (h : a.compact = b.compact) : a = b := by
  have hread := congrArg Node.ofText h
  rw [Node.ofText_of_spells (spells_compact a) ha, Node.ofText_of_spells (spells_compact b) hb]
    at hread
  exact Node.ofJson_injective (Prod.mk.inj hread).1

end Reporting.Json
