import Mathlib.Data.Option.NAry
import Reporting.Proofs.Definition.Wire
import Reporting.Proofs.Query.Correspondence
import Reporting.Proofs.Value.Extremes

/-!
# Proofs/Query/Operators — what the operators of filters have to do with one another

Each operator becomes a test of its own: for equality, for a place in an order, for a set, for a part of a
text.  `Field.answer` is what a record answers to a clause, if the clause can be put to the field at all;
filters keep the records that answer yes throughout (`Plan.Resolution.accepts_read_iff`).  What the answers
have to do with one another is listed in `Field.OperatorLaws`, and holds for every field and record
(`Field.operatorLaws`).
-/

namespace Reporting

variable {f : Field} {record : Record} {c : Clause}

namespace Value

/-- Values are equal exactly if they are compared and neither comes first. -/
theorem same_eq (a b : Value) : a.same b = (a.compare? b == some .eq) := by
  rw [Bool.eq_iff_iff, same_iff_compare?, beq_iff_eq]

/-- A comparison that allows for equal values asks for them beside the others. -/
theorem any_compare?_or_same {strict weak : Ordering → Bool} (h : ∀ o, weak o = (strict o || o == .eq))
    (a b : Value) : (a.compare? b).any weak = ((a.compare? b).any strict || a.same b) := by
  rw [same_eq]
  cases a.compare? b with
  | none => rfl
  | some o => exact h o

end Value

/-! ## Answers -/

namespace Field

/-- What a record answers to a clause about a field: whether its cell passes the test that the clause
becomes, and nothing if it becomes none. -/
def answer (f : Field) (record : Record) (c : Clause) : Option Bool :=
  (Condition.testOf f c).toOption.map fun test => test.holds (Slot.read record f).1

/-- A clause that fits its field is answered as it reads. -/
theorem answer_eq (f : Field) (record : Record) (c : Clause) :
    f.answer record c = if c.Fits f then some (c.holds (f.valueIn record)) else none := by
  rw [answer]
  cases htest : Condition.testOf f c with
  | error e =>
    refine (if_neg fun hfits => ?_).symm
    obtain ⟨test, hok⟩ := Condition.exists_testOf_iff_fits.2 hfits
    cases htest.symm.trans hok
  | ok test =>
    rw [if_pos (Condition.fits_of_testOf htest), ← Condition.holds_eq_of_testOf htest, Slot.read_eq]
    rfl

theorem answer_eq_some_iff {answer : Bool} :
    f.answer record c = some answer ↔ c.Fits f ∧ c.holds (f.valueIn record) = answer := by
  rw [answer_eq]
  split
  · rename_i hfits
    rw [Option.some.injEq]
    exact (and_iff_right hfits).symm
  · rename_i hfits
    exact ⟨nofun, fun h => absurd h.1 hfits⟩

/-- A clause that goes where another goes is answered by what the other is answered by. -/
theorem answer_eq_map {c₁ : Clause} {op : Bool → Bool} (hfits : c.Fits f ↔ c₁.Fits f)
    (hholds : c.holds (f.valueIn record) = op (c₁.holds (f.valueIn record))) :
    f.answer record c = (f.answer record c₁).map op := by
  rw [answer_eq, answer_eq, hholds]
  by_cases h : c₁.Fits f
  · rw [if_pos h, if_pos (hfits.2 h), Option.map_some]
  · rw [if_neg h, if_neg (mt hfits.1 h), Option.map_none]

/-- A clause that goes where two others go is answered by what both of them are answered by. -/
theorem answer_eq_map₂ {c₁ c₂ : Clause} {op : Bool → Bool → Bool}
    (hfits : c.Fits f ↔ c₁.Fits f ∧ c₂.Fits f)
    (hholds : c.holds (f.valueIn record) =
      op (c₁.holds (f.valueIn record)) (c₂.holds (f.valueIn record))) :
    f.answer record c = Option.map₂ op (f.answer record c₁) (f.answer record c₂) := by
  rw [answer_eq, answer_eq, answer_eq, hholds]
  by_cases h₁ : c₁.Fits f
  · by_cases h₂ : c₂.Fits f
    · rw [if_pos h₁, if_pos h₂, if_pos (hfits.2 ⟨h₁, h₂⟩), Option.map₂_some_some]
    · rw [if_neg h₂, if_neg fun h => h₂ (hfits.1 h).2, Option.map₂_none_right]
  · rw [if_neg h₁, if_neg fun h => h₁ (hfits.1 h).1, Option.map₂_none_left]

end Field

/-- **A plan keeps the records that answer yes to every clause.** -/
theorem Plan.Resolution.accepts_read_iff {r : Registry} {d : Definition} {p : Plan}
    (h : Resolution r d p) (record : Record) : p.accepts (p.read record) ↔
      ∀ c ∈ d.filters, ∃ f, r.find? c.fieldId = some f ∧ f.answer record c = some true := by
  rw [h.accepts_read, Definition.keeps, List.all_eq_true]
  refine forall₂_congr fun c hc => ?_
  obtain ⟨condition, -, hslot, hid, htest⟩ := h.exists_condition hc
  have hfind : r.find? c.fieldId = some condition.slot.field := hid ▸ h.layout.found _ hslot
  have hanswer : (∃ f, r.find? c.fieldId = some f ∧ f.answer record c = some true) ↔
      condition.slot.field.answer record c = some true := by
    simp only [hfind, Option.some.injEq, exists_eq_left']
  rw [hanswer, Field.answer_eq_some_iff, Registry.valueIn_of_find? hfind]
  exact (and_iff_right (Condition.fits_of_testOf htest)).symm

/-! ## Where clauses fit -/

/-- The operators that take a single value. -/
def Operator.single : List Operator :=
  [equals, notEquals, greaterThan, lessThan, greaterOrEqual, lessOrEqual, contains, startsWith, endsWith]

namespace Clause

open Operator

variable {id : String} {o : Operator} {x : Value} {xs : List Value}

/-- A single value has to be of the type of the field. -/
theorem fits_compare (ho : o ∈ Operator.single) :
    (compare id o x).Fits f ↔ f.filterable ∧ o.isLegal f.type ∧ x.type = f.type := by
  cases o
  case between | isIn | notIn | isNull | isNotNull => exact absurd ho (by decide)
  all_goals rfl

/-- All values are asked for being equal to one of their type. -/
theorem fits_equality (ho : o ∈ [equals, notEquals]) :
    (compare id o x).Fits f ↔ f.filterable ∧ x.type = f.type := by
  have hsingle : o ∈ Operator.single := by
    revert o
    decide
  have hlegal : o.isLegal f.type := by
    revert o
    cases f.type <;> decide
  rw [fits_compare hsingle, and_iff_right hlegal]

/-- A place in an order is asked of numbers and dates. -/
theorem fits_ordering (ho : o ∈ [greaterThan, lessThan, greaterOrEqual, lessOrEqual]) :
    (compare id o x).Fits f ↔ f.filterable ∧ f.type.isNumeric ∧ x.type = f.type := by
  have hsingle : o ∈ Operator.single := by
    revert o
    decide
  have hlegal : o.isLegal f.type = f.type.isNumeric := by
    revert o
    cases f.type <;> decide
  rw [fits_compare hsingle, hlegal]

/-- Parts are asked of texts. -/
theorem fits_part (ho : o ∈ [contains, startsWith, endsWith]) : (compare id o x).Fits f ↔
    f.filterable ∧ f.type = .text ∧ x.type = f.type := by
  have hsingle : o ∈ Operator.single := by
    revert o
    decide
  have hlegal : o.isLegal f.type ↔ f.type = .text := by
    revert o
    cases f.type <;> decide
  rw [fits_compare hsingle, hlegal]

/-- What may be earlier or later, or equal, is asked where both are. -/
theorem fits_orEqual {strict : Operator} (ho : o ∈ [greaterOrEqual, lessOrEqual])
    (hstrict : strict ∈ [greaterThan, lessThan]) : (compare id o x).Fits f ↔
      (compare id strict x).Fits f ∧ (compare id equals x).Fits f := by
  have ho : o ∈ [greaterThan, lessThan, greaterOrEqual, lessOrEqual] :=
    List.mem_append_right [greaterThan, lessThan] ho
  have hstrict : strict ∈ [greaterThan, lessThan, greaterOrEqual, lessOrEqual] :=
    List.mem_append_left _ hstrict
  rw [fits_ordering ho, fits_ordering hstrict, fits_equality (by simp)]
  tauto

/-- A range has an end of its type on either side. -/
theorem fits_between {low high : Value} : (between id low high).Fits f ↔
    (compare id greaterOrEqual low).Fits f ∧ (compare id lessOrEqual high).Fits f := by
  have hlegal : Operator.between.isLegal f.type = f.type.isNumeric := by cases f.type <;> rfl
  have hfits : (between id low high).Fits f ↔
      f.filterable ∧ f.type.isNumeric ∧ low.type = f.type ∧ high.type = f.type := by
    rw [Fits, between, hlegal]
    rfl
  rw [hfits, fits_ordering (by simp), fits_ordering (by simp)]
  tauto

/-- Sets are asked about where values are declared. -/
theorem fits_set (ho : o ∈ [isIn, notIn]) : (compareSet id o xs).Fits f ↔
    f.filterable ∧ f.type = .enum ∧ Value.allOf f.type xs := by
  have hlegal : o.isLegal f.type ↔ f.type = .enum := by
    revert o
    cases f.type <;> decide
  simp only [List.mem_cons, List.not_mem_nil, or_false] at ho
  rcases ho with rfl | rfl <;> exact and_congr_right' (and_congr_left' hlegal)

/-- Whether there is a value is asked of all but truth values. -/
theorem fits_isNull : (isNull id).Fits f ↔ f.filterable ∧ f.type ≠ .boolean := by
  have hlegal : Operator.isNull.isLegal f.type ↔ f.type ≠ .boolean := by cases f.type <;> decide
  exact and_congr_right' ((and_iff_left trivial).trans hlegal)

/-! ## What clauses say -/

/-- What comes no earlier comes later or is equal. -/
theorem holds_greaterOrEqual (cell : Option Value) : (compare id greaterOrEqual x).holds cell =
    ((compare id greaterThan x).holds cell || (compare id equals x).holds cell) := by
  cases cell with
  | none => rfl
  | some v => exact Value.any_compare?_or_same (fun o => by cases o <;> rfl) v x

/-- What comes no later comes earlier or is equal. -/
theorem holds_lessOrEqual (cell : Option Value) : (compare id lessOrEqual x).holds cell =
    ((compare id lessThan x).holds cell || (compare id equals x).holds cell) := by
  cases cell with
  | none => rfl
  | some v => exact Value.any_compare?_or_same (fun o => by cases o <;> rfl) v x

theorem holds_between {low high : Value} (cell : Option Value) : (between id low high).holds cell =
    ((compare id greaterOrEqual low).holds cell && (compare id lessOrEqual high).holds cell) := by
  cases cell <;> rfl

theorem holds_notEquals (cell : Option Value) : (compare id notEquals x).holds cell =
    (cell.isSome && !(compare id equals x).holds cell) := by
  cases cell <;> rfl

theorem holds_notIn (cell : Option Value) : (compareSet id notIn xs).holds cell =
    (cell.isSome && !(compareSet id isIn xs).holds cell) := by
  cases cell <;> rfl

/-- A value is in a set exactly if it is equal to one of it. -/
theorem holds_isIn (cell : Option Value) : (compareSet id isIn xs).holds cell ↔
    ∃ x ∈ xs, (compare id equals x).holds cell := by
  cases cell with
  | none => simp [holds, compareSet, compare]
  | some v =>
    change xs.contains v = true ↔ ∃ x ∈ xs, (v == x) = true
    rw [List.contains_eq_any_beq, List.any_eq_true]

/-- **There is no value, or it has one of three places beside another.** -/
theorem count_holds (hx : x.Suits f.type) {cell : Option Value} (hcell : Cell.Suits f.type cell) :
    [(isNull id).holds cell, (compare id lessThan x).holds cell, (compare id equals x).holds cell,
      (compare id greaterThan x).holds cell].count true = 1 := by
  cases cell with
  | none => rfl
  | some v =>
    obtain ⟨o, ho⟩ := Option.isSome_iff_exists.1 (Value.isSome_compare? (hcell v rfl) hx)
    change [false, (v.compare? x).any (·.isLT), v.same x, (v.compare? x).any (·.isGT)].count true = 1
    rw [Value.same_eq, ho]
    cases o <;> rfl

/-- What comes no earlier than one value and no later than another has these in order. -/
theorem not_holds_between_of_gt {low high : Value} (hlow : low.Suits f.type) (hhigh : high.Suits f.type)
    (h : low.compare? high = some .gt) {cell : Option Value} (hcell : Cell.Suits f.type cell) :
    ¬ (between id low high).holds cell := by
  cases cell with
  | none => exact Bool.false_ne_true
  | some v =>
    have hv := hcell v rfl
    change ¬ ((v.compare? low).any (·.isGE) && (v.compare? high).any (·.isLE)) = true
    obtain ⟨o, ho⟩ := Option.isSome_iff_exists.1 (Value.isSome_compare? hv hlow)
    obtain ⟨o', ho'⟩ := Option.isSome_iff_exists.1 (Value.isSome_compare? hv hhigh)
    rw [ho, ho', Option.any_some, Option.any_some, Bool.and_eq_true]
    rintro ⟨hge, hle⟩
    have hbefore : (low.compare? v).getD .eq ≠ .gt := by
      rw [hv.compare?_swap hlow ho]
      cases o <;> simp_all
    have hafter : (v.compare? high).getD .eq ≠ .gt := by
      rw [ho']
      cases o' <;> simp_all
    refine (Value.ordersOn_compare? f.type).ne_gt_trans hlow hv hhigh hbefore hafter ?_
    rw [h, Option.getD_some]

/-! ## Parts of texts -/

/-- A question about texts is answered with yes by texts only. -/
theorem any_isTextWith_iff {question : List Char → Bool} {cell : Option Value} :
    cell.any (·.isTextWith question) ↔ ∃ t : String, cell = some (.text t) ∧ question t.toList := by
  obtain _ | (t | _ | _ | _ | _) := cell <;> simp [Value.isTextWith]

theorem holds_contains {s : String} (cell : Option Value) :
    (compare id contains (.text s)).holds cell ↔ ∃ p q, cell = some (.text (p ++ s ++ q)) := by
  have hcell : (compare id contains (.text s)).holds cell =
      cell.any (·.isTextWith (Text.occursIn s.toList)) := by cases cell <;> rfl
  rw [hcell, any_isTextWith_iff]
  constructor
  · rintro ⟨t, rfl, h⟩
    obtain ⟨p, q, h⟩ := Text.occursIn_iff.1 h
    have ht : t = .ofList p ++ s ++ .ofList q := String.toList_inj.1 (by simp [h])
    exact ⟨.ofList p, .ofList q, ht ▸ rfl⟩
  · rintro ⟨p, q, rfl⟩
    exact ⟨_, rfl, Text.occursIn_iff.2 ⟨p.toList, q.toList, by simp⟩⟩

theorem holds_startsWith {s : String} (cell : Option Value) :
    (compare id startsWith (.text s)).holds cell ↔ ∃ q, cell = some (.text (s ++ q)) := by
  have hcell : (compare id startsWith (.text s)).holds cell =
      cell.any (·.isTextWith s.toList.isPrefixOf) := by cases cell <;> rfl
  rw [hcell, any_isTextWith_iff]
  constructor
  · rintro ⟨t, rfl, h⟩
    obtain ⟨q, h⟩ := List.isPrefixOf_iff_prefix.1 h
    have ht : t = s ++ .ofList q := String.toList_inj.1 (by simp [h])
    exact ⟨.ofList q, ht ▸ rfl⟩
  · rintro ⟨q, rfl⟩
    exact ⟨_, rfl, List.isPrefixOf_iff_prefix.2 ⟨q.toList, by simp⟩⟩

theorem holds_endsWith {s : String} (cell : Option Value) :
    (compare id endsWith (.text s)).holds cell ↔ ∃ p, cell = some (.text (p ++ s)) := by
  have hcell : (compare id endsWith (.text s)).holds cell =
      cell.any (·.isTextWith s.toList.isSuffixOf) := by cases cell <;> rfl
  rw [hcell, any_isTextWith_iff]
  constructor
  · rintro ⟨t, rfl, h⟩
    obtain ⟨p, h⟩ := List.isSuffixOf_iff_suffix.1 h
    have ht : t = .ofList p ++ s := String.toList_inj.1 (by simp [h])
    exact ⟨.ofList p, ht ▸ rfl⟩
  · rintro ⟨p, rfl⟩
    exact ⟨_, rfl, List.isSuffixOf_iff_suffix.2 ⟨p.toList, by simp⟩⟩

end Clause

/-! ## Laws -/

/-- Whether a value is read from a document. -/
def Value.IsDecoded (x : Value) : Prop :=
  ∃ origin node, Value.decode origin node = .ok x

/-- How the answers of a record to clauses about a field go together.  An answer is nothing where the
clause cannot be put to the field, so that the equations also say which clauses can be put together. -/
structure Field.OperatorLaws (f : Field) (record : Record) : Prop where
  /-- What fits the field is answered, and nothing else is. -/
  answered : ∀ c, (f.answer record c).isSome ↔ c.Fits f
  /-- Where values have an order, there is none, or it comes before a value, is equal to it or comes after
  it. -/
  exactlyOne : ∀ x : Value, x.IsDecoded → ∀ below,
    f.answer record (.compare f.id .lessThan x) = some below →
      ∃ absent equal above, f.answer record (.isNull f.id) = some absent ∧
        f.answer record (.compare f.id .equals x) = some equal ∧
        f.answer record (.compare f.id .greaterThan x) = some above ∧
        [absent, below, equal, above].count true = 1
  greaterOrEqual : ∀ x, f.answer record (.compare f.id .greaterOrEqual x) =
    .map₂ or (f.answer record (.compare f.id .greaterThan x)) (f.answer record (.compare f.id .equals x))
  lessOrEqual : ∀ x, f.answer record (.compare f.id .lessOrEqual x) =
    .map₂ or (f.answer record (.compare f.id .lessThan x)) (f.answer record (.compare f.id .equals x))
  between : ∀ low high, f.answer record (.between f.id low high) =
    .map₂ and (f.answer record (.compare f.id .greaterOrEqual low))
      (f.answer record (.compare f.id .lessOrEqual high))
  /-- No value lies in a range that ends before it starts. -/
  between_reversed : ∀ low high : Value, low.IsDecoded → high.IsDecoded →
    low.compare? high = some .gt → f.answer record (.between f.id low high) ≠ some true
  notEquals : ∀ x, f.answer record (.compare f.id .notEquals x) =
    (f.answer record (.compare f.id .equals x)).map fun equal =>
      (Slot.read record f).1.isSome && !equal
  isIn : ∀ xs among, f.answer record (.compareSet f.id .isIn xs) = some among →
    (∀ x ∈ xs, (f.answer record (.compare f.id .equals x)).isSome) ∧
      (among ↔ ∃ x ∈ xs, f.answer record (.compare f.id .equals x) = some true)
  notIn : ∀ xs, f.answer record (.compareSet f.id .notIn xs) =
    (f.answer record (.compareSet f.id .isIn xs)).map fun among =>
      (Slot.read record f).1.isSome && !among
  contains : ∀ x found, f.answer record (.compare f.id .contains x) = some found →
    ∃ s, x = .text s ∧ (found ↔ ∃ p q, (Slot.read record f).1 = some (.text (p ++ s ++ q)))
  startsWith : ∀ x found, f.answer record (.compare f.id .startsWith x) = some found →
    ∃ s, x = .text s ∧ (found ↔ ∃ q, (Slot.read record f).1 = some (.text (s ++ q)))
  endsWith : ∀ x found, f.answer record (.compare f.id .endsWith x) = some found →
    ∃ s, x = .text s ∧ (found ↔ ∃ p, (Slot.read record f).1 = some (.text (p ++ s)))

namespace Field

/-- Where the answer to whether there is some part is known, the part is a text. -/
theorem exists_text_of_answer {o : Operator} (ho : o ∈ [.contains, .startsWith, .endsWith]) {x : Value}
    {found : Bool} (h : f.answer record (.compare f.id o x) = some found) :
    ∃ s, x = .text s ∧ found = (Clause.compare f.id o (.text s)).holds (f.valueIn record) := by
  obtain ⟨hfits, rfl⟩ := answer_eq_some_iff.1 h
  obtain ⟨-, htext, htype⟩ := (Clause.fits_part ho).1 hfits
  rw [htext] at htype
  cases x with
  | text s => exact ⟨s, rfl, rfl⟩
  | _ => cases htype

/-- **The answers of every record to clauses about any field go together as the operators say**: numbers
and dates have one place beside each operand, ranges have two ends, sets are made of values, parts leave
something before and after them, and whatever is denied is asked of values only. -/
theorem operatorLaws (f : Field) (record : Record) : f.OperatorLaws record where
  answered c := by
    rw [answer_eq]
    split <;> simp_all
  exactlyOne := by
    rintro x ⟨origin, node, hx⟩ below hbelow
    obtain ⟨hfits, rfl⟩ := answer_eq_some_iff.1 hbelow
    obtain ⟨hfilterable, hnumeric, htype⟩ := (Clause.fits_ordering (by simp)).1 hfits
    have hnull : f.type ≠ .boolean := fun h => by cases h ▸ hnumeric
    exact ⟨_, _, _, answer_eq_some_iff.2 ⟨Clause.fits_isNull.2 ⟨hfilterable, hnull⟩, rfl⟩,
      answer_eq_some_iff.2 ⟨(Clause.fits_equality (by simp)).2 ⟨hfilterable, htype⟩, rfl⟩,
      answer_eq_some_iff.2 ⟨(Clause.fits_ordering (by simp)).2 ⟨hfilterable, hnumeric, htype⟩, rfl⟩,
      Clause.count_holds ⟨htype, Value.yields_decode origin node x hx⟩ (f.suits_valueIn record)⟩
  greaterOrEqual x :=
    answer_eq_map₂ (Clause.fits_orEqual (by simp) (by simp)) (Clause.holds_greaterOrEqual _)
  lessOrEqual x :=
    answer_eq_map₂ (Clause.fits_orEqual (by simp) (by simp)) (Clause.holds_lessOrEqual _)
  between low high := answer_eq_map₂ Clause.fits_between (Clause.holds_between _)
  between_reversed := by
    rintro low high ⟨_, _, hlow⟩ ⟨_, _, hhigh⟩ hgt hbetween
    obtain ⟨hfits, hholds⟩ := answer_eq_some_iff.1 hbetween
    obtain ⟨⟨-, -, hlowType⟩, ⟨-, -, hhighType⟩⟩ := Clause.fits_between.1 hfits
    exact Clause.not_holds_between_of_gt ⟨hlowType, Value.yields_decode _ _ _ hlow⟩
      ⟨hhighType, Value.yields_decode _ _ _ hhigh⟩ hgt (f.suits_valueIn record) hholds
  notEquals x := by
    rw [Slot.read_eq]
    have hfits : (Clause.compare f.id .notEquals x).Fits f ↔ (Clause.compare f.id .equals x).Fits f :=
      (Clause.fits_equality (by simp)).trans (Clause.fits_equality (by simp)).symm
    exact answer_eq_map hfits (Clause.holds_notEquals _)
  isIn := by
    intro xs among hamong
    obtain ⟨hfits, rfl⟩ := answer_eq_some_iff.1 hamong
    obtain ⟨hfilterable, -, htypes⟩ := (Clause.fits_set (by simp)).1 hfits
    have hequals : ∀ x ∈ xs, (Clause.compare f.id .equals x).Fits f := fun x hx =>
      (Clause.fits_equality (by simp)).2 ⟨hfilterable, htypes x hx⟩
    refine ⟨fun x hx => ?_, ?_⟩
    · rw [answer_eq, if_pos (hequals x hx), Option.isSome_some]
    · rw [Clause.holds_isIn]
      refine exists_congr fun x => and_congr_right fun hx => ?_
      rw [answer_eq_some_iff]
      exact (and_iff_right (hequals x hx)).symm
  notIn xs := by
    rw [Slot.read_eq]
    have hfits : (Clause.compareSet f.id .notIn xs).Fits f ↔ (Clause.compareSet f.id .isIn xs).Fits f :=
      (Clause.fits_set (by simp)).trans (Clause.fits_set (by simp)).symm
    exact answer_eq_map hfits (Clause.holds_notIn _)
  contains := by
    intro x found h
    obtain ⟨s, rfl, rfl⟩ := exists_text_of_answer (by simp) h
    exact ⟨s, rfl, by rw [Slot.read_eq, Clause.holds_contains]⟩
  startsWith := by
    intro x found h
    obtain ⟨s, rfl, rfl⟩ := exists_text_of_answer (by simp) h
    exact ⟨s, rfl, by rw [Slot.read_eq, Clause.holds_startsWith]⟩
  endsWith := by
    intro x found h
    obtain ⟨s, rfl, rfl⟩ := exists_text_of_answer (by simp) h
    exact ⟨s, rfl, by rw [Slot.read_eq, Clause.holds_endsWith]⟩

/-- The amount of a sale in Oslo has one place beside five, and "slo" is a part of the city. -/
theorem operatorLaws_sales : ∃ amount city five below equal above,
    Registry.sales.find? "amount" = some amount ∧ Registry.sales.find? "city" = some city ∧
    five.IsDecoded ∧
    amount.answer [("amount", .ofNat 7), ("city", .string "Oslo")] (.compare "amount" .lessThan five) =
      some below ∧
    amount.answer [("amount", .ofNat 7), ("city", .string "Oslo")] (.compare "amount" .equals five) =
      some equal ∧
    amount.answer [("amount", .ofNat 7), ("city", .string "Oslo")]
      (.compare "amount" .greaterThan five) = some above ∧
    [false, below, equal, above].count true = 1 ∧
    ∃ p q, (Slot.read [("amount", .ofNat 7), ("city", .string "Oslo")] city).1 =
      some (.text (p ++ "slo" ++ q)) := by
  have hfive : Value.decode .document (.object [(.string "type", .string "number"),
      (.string "value", .number (.int 5 (by decide)))] none) = .ok (.number (Double.ofInt 5)) := rfl
  have hamount := operatorLaws (.unrestricted "amount" "Amount" .number "sale")
    [("amount", .ofNat 7), ("city", .string "Oslo")]
  have hcity := operatorLaws (.unrestricted "city" "City" .text "sale")
    [("amount", .ofNat 7), ("city", .string "Oslo")]
  obtain ⟨absent, equal, above, habsent, hequal, habove, hcount⟩ :=
    hamount.exactlyOne _ ⟨_, _, hfive⟩ _ rfl
  obtain ⟨s, hs, hfound⟩ := hcity.contains (.text "slo") true rfl
  cases hs
  cases habsent
  exact ⟨_, _, _, _, _, _, rfl, rfl, ⟨_, _, hfive⟩, rfl, hequal, habove, hcount, hfound.1 rfl⟩

end Field

end Reporting
