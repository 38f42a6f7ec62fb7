import Reporting.Proofs.Query.Slots
import Reporting.Query.WellFormed

/-!
# Proofs/Query/Conditions — clauses and the tests they become

A clause becomes a test exactly if it fits its field (`exists_testOf_iff_fits`), the fault found
otherwise is one that it has (`eq_error_of_testOf`), and the test holds of a cell exactly if the
clause does (`holds_eq_of_testOf`).
-/

namespace Reporting.Condition

variable {f : Field} {c : Clause} {e : ReportError}

/-! ## Operands -/

theorem checkType_eq_ok_iff {v : Value} {u : Unit} :
    checkType f v = .ok u ↔ v.type = f.type := by
  rw [checkType]
  split <;> simp_all

/-- A value that is checked and then handed on has the type that was asked for. -/
theorem checked_eq_ok_iff {x v : Value} :
    (checkType f x >>= fun _ => .ok x) = .ok v ↔ x = v ∧ v.type = f.type := by
  simp only [bind_eq_ok_iff, checkType_eq_ok_iff]
  constructor
  · rintro ⟨-, htype, h⟩
    cases h
    exact ⟨rfl, htype⟩
  · rintro ⟨rfl, htype⟩
    exact ⟨(), htype, rfl⟩

theorem checkTypes_eq_ok_iff {vs : List Value} {u : Unit} :
    checkTypes f vs = .ok u ↔ Value.allOf f.type vs := by
  induction vs with
  | nil => simp [checkTypes, Value.allOf]
  | cons v rest ih =>
    rw [Value.allOf, List.forall_mem_cons, checkTypes, bind_eq_ok_iff]
    constructor
    · rintro ⟨_, hv, hrest⟩
      exact ⟨checkType_eq_ok_iff.1 hv, ih.1 hrest⟩
    · rintro ⟨hv, hrest⟩
      exact ⟨(), checkType_eq_ok_iff.2 hv, ih.2 hrest⟩

theorem single_eq_ok_iff {v : Value} :
    single f c = .ok v ↔ c.value = some (.one v) ∧ v.type = f.type := by
  rw [single]
  split
  · rename_i x hx
    rw [checked_eq_ok_iff, hx, Option.some.injEq, Operand.one.injEq]
  · simp_all
  · simp_all

theorem set_eq_ok_iff {vs : List Value} :
    set f c = .ok vs ↔ c.value = some (.many vs) ∧ Value.allOf f.type vs := by
  rw [set]
  split
  · rename_i xs hxs
    simp only [bind_eq_ok_iff, checkTypes_eq_ok_iff, hxs]
    constructor
    · rintro ⟨-, htypes, h⟩
      cases h
      exact ⟨rfl, htypes⟩
    · rintro ⟨h, htypes⟩
      cases h
      exact ⟨(), htypes, rfl⟩
  · simp_all
  · simp_all

theorem upperEnd_eq_ok_iff {v : Value} :
    upperEnd f c = .ok v ↔ c.valueEnd = some v ∧ v.type = f.type := by
  rw [upperEnd]
  split
  · rename_i x hx
    rw [checked_eq_ok_iff, hx, Option.some.injEq]
  · simp_all

/-- The text of a clause is asked for only where fields hold texts. -/
theorem textOperand_eq_ok_iff (htext : f.type = .text) {s : String} :
    textOperand f c = .ok s ↔ c.value = some (.one (.text s)) := by
  simp only [textOperand, bind_eq_ok_iff, single_eq_ok_iff, htext]
  constructor
  · rintro ⟨v, ⟨hv, htype⟩, h⟩
    cases v with
    | text t =>
      cases h
      exact hv
    | _ => cases htype
  · exact fun h => ⟨.text s, ⟨h, rfl⟩, rfl⟩

/-! ## Faults of operands -/

/-- Whether an error says of a clause what is wrong with its operand. -/
def IsFaultOf (f : Field) (c : Clause) (e : ReportError) : Prop :=
  ∃ fault : OperandFault, e = .invalidFilterValue f.id fault ∧ fault.IsTrueOf c f.type

theorem eq_of_checkType_eq_error {v : Value} (h : checkType f v = .error e) :
    v.type ≠ f.type ∧ e = .invalidFilterValue f.id (.wrongType f.type v.type) := by
  rw [checkType] at h
  split at h
  · cases h
  · rename_i htype
    cases h
    exact ⟨htype, rfl⟩

theorem exists_of_checkTypes_eq_error {vs : List Value} (h : checkTypes f vs = .error e) :
    ∃ v ∈ vs, v.type ≠ f.type ∧ e = .invalidFilterValue f.id (.wrongType f.type v.type) := by
  induction vs with
  | nil => cases h
  | cons v rest ih =>
    rcases bind_eq_error_iff.1 h with h | ⟨-, -, h⟩
    · exact ⟨v, List.mem_cons_self, eq_of_checkType_eq_error h⟩
    · obtain ⟨w, hw, hfault⟩ := ih h
      exact ⟨w, List.mem_cons_of_mem v hw, hfault⟩

theorem isFaultOf_of_single (hop : !c.operator.takesSet) (h : single f c = .error e) :
    IsFaultOf f c e := by
  rw [single] at h
  split at h
  · rename_i v hv
    rcases bind_eq_error_iff.1 h with h | ⟨-, -, h⟩
    · obtain ⟨htype, rfl⟩ := eq_of_checkType_eq_error h
      exact ⟨_, rfl, rfl, htype, v, rfl, .inl hv⟩
    · cases h
  · rename_i vs hvs
    cases h
    exact ⟨_, rfl, rfl, hop, vs, hvs⟩
  · rename_i hnone
    cases h
    exact ⟨_, rfl, rfl, hop, hnone⟩

theorem isFaultOf_of_set (hop : c.operator.takesSet) (h : set f c = .error e) :
    IsFaultOf f c e := by
  rw [set] at h
  split at h
  · rename_i vs hvs
    rcases bind_eq_error_iff.1 h with h | ⟨-, -, h⟩
    · obtain ⟨v, hv, htype, rfl⟩ := exists_of_checkTypes_eq_error h
      exact ⟨_, rfl, rfl, htype, v, rfl, .inr (.inl ⟨vs, hvs, hv⟩)⟩
    · cases h
  · rename_i v hv
    cases h
    exact ⟨_, rfl, rfl, hop, v, hv⟩
  · rename_i hnone
    cases h
    exact ⟨_, rfl, rfl, hop, hnone⟩

theorem isFaultOf_of_upperEnd (hop : c.operator = .between) (h : upperEnd f c = .error e) :
    IsFaultOf f c e := by
  rw [upperEnd] at h
  split at h
  · rename_i v hv
    rcases bind_eq_error_iff.1 h with h | ⟨-, -, h⟩
    · obtain ⟨htype, rfl⟩ := eq_of_checkType_eq_error h
      exact ⟨_, rfl, rfl, htype, v, rfl, .inr (.inr ⟨hop, hv⟩)⟩
    · cases h
  · rename_i hnone
    cases h
    exact ⟨_, rfl, hop, hnone⟩

/-- Where fields hold texts, a value that passes its check is a text. -/
theorem isFaultOf_of_textOperand (htext : f.type = .text) (hop : !c.operator.takesSet)
    (h : textOperand f c = .error e) : IsFaultOf f c e := by
  rcases bind_eq_error_iff.1 h with h | ⟨v, hv, h⟩
  · exact isFaultOf_of_single hop h
  · have htype := (single_eq_ok_iff.1 hv).2.trans htext
    cases v with
    | text s => cases h
    | _ => cases htype

/-! ## Tests -/

/-- Operators on texts are legal for fields that hold texts only. -/
theorem type_eq_text_of_isLegal {o : Operator} {type : FieldType} (h : o.isLegal type)
    (ho : o = .contains ∨ o = .startsWith ∨ o = .endsWith) : type = .text := by
  obtain rfl | rfl | rfl := ho <;> cases type <;> first | rfl | exact absurd h (by decide)

/-- An operator finds a test exactly if the operand suits it. -/
theorem exists_operatorTest_iff (hlegal : c.operator.isLegal f.type) :
    (∃ t, operatorTest f c = .ok t) ↔ c.SuitsType f.type := by
  have htext := type_eq_text_of_isLegal hlegal
  obtain ⟨id, operator, operand, upper⟩ := c
  cases operator
  case contains | startsWith | endsWith =>
    simp only [operatorTest, map_eq_ok_iff, textOperand_eq_ok_iff (htext (by simp))]
    obtain _ | (_ | _) | _ := operand <;> simp [Clause.SuitsType, htext, Value.type]
  case between =>
    simp only [operatorTest, bind_eq_ok_iff, single_eq_ok_iff, upperEnd_eq_ok_iff]
    obtain _ | _ | _ := operand <;> cases upper <;> simp [Clause.SuitsType]
  all_goals
    simp only [operatorTest, map_eq_ok_iff, single_eq_ok_iff, set_eq_ok_iff]
    obtain _ | _ | _ := operand <;> simp [Clause.SuitsType]

/-- **A clause becomes a test exactly if it fits its field.** -/
theorem exists_testOf_iff_fits : (∃ t, testOf f c = .ok t) ↔ c.Fits f := by
  rw [testOf, Clause.Fits]
  split
  · simp_all
  · split
    · simp_all
    · rename_i hfilterable hlegal
      rw [exists_operatorTest_iff (by simpa using hlegal)]
      simp_all

/-- What an operator finds wrong is a fault of the operand. -/
theorem isFaultOf_of_operatorTest (hlegal : c.operator.isLegal f.type)
    (h : operatorTest f c = .error e) : !c.operator.isNullTest ∧ IsFaultOf f c e := by
  have htext := type_eq_text_of_isLegal hlegal
  obtain ⟨id, operator, operand, upper⟩ := c
  cases operator
  case isNull | isNotNull => cases h
  case contains | startsWith | endsWith =>
    exact ⟨rfl, isFaultOf_of_textOperand (htext (by simp)) rfl (map_eq_error_iff.1 h)⟩
  case between =>
    refine ⟨rfl, ?_⟩
    rcases bind_eq_error_iff.1 h with h | ⟨low, -, h⟩
    · exact isFaultOf_of_single rfl h
    · rcases bind_eq_error_iff.1 h with h | ⟨high, -, h⟩
      · exact isFaultOf_of_upperEnd rfl h
      · cases h
  case isIn | notIn => exact ⟨rfl, isFaultOf_of_set rfl (map_eq_error_iff.1 h)⟩
  all_goals exact ⟨rfl, isFaultOf_of_single rfl (map_eq_error_iff.1 h)⟩

/-- What is wrong with a clause that does not become a test. -/
theorem eq_error_of_testOf (h : testOf f c = .error e) :
    (!f.filterable ∧ e = .notFilterable f.id) ∨
      (!c.operator.isLegal f.type ∧ e = .invalidOperator f.id f.type c.operator) ∨
      (!c.operator.isNullTest ∧ IsFaultOf f c e) := by
  rw [testOf] at h
  split at h
  · cases h
    exact .inl ⟨‹_›, rfl⟩
  · split at h
    · cases h
      exact .inr (.inl ⟨‹_›, rfl⟩)
    · rename_i hlegal
      exact .inr (.inr (isFaultOf_of_operatorTest (by simpa using hlegal) h))

theorem fits_of_testOf {t : CellTest} (h : testOf f c = .ok t) : c.Fits f :=
  exists_testOf_iff_fits.1 ⟨t, h⟩

theorem operatorTest_of_testOf {t : CellTest} (h : testOf f c = .ok t) :
    operatorTest f c = .ok t := by
  obtain ⟨hfilterable, hlegal, -⟩ := fits_of_testOf h
  simpa [testOf, hfilterable, hlegal] using h

/-- Tests say of a comparison what clauses say of it. -/
theorem ordering_tests (o : Ordering) :
    o.isGT = (o == .gt) ∧ o.isLT = (o == .lt) ∧ o.isGE = (o != .lt) ∧ o.isLE = (o != .gt) := by
  cases o <;> decide

/-- **A test holds of a cell exactly if its clause does.** -/
theorem holds_eq_of_testOf {t : CellTest} (h : testOf f c = .ok t) (cell : Option Value) :
    t.holds cell = c.holds cell := by
  have htext := type_eq_text_of_isLegal (fits_of_testOf h).2.1
  replace h := operatorTest_of_testOf h
  obtain ⟨id, operator, operand, upper⟩ := c
  cases operator
  case isNull | isNotNull =>
    cases h
    cases cell <;> rfl
  case contains | startsWith | endsWith =>
    simp only [operatorTest, map_eq_ok_iff, textOperand_eq_ok_iff (htext (by simp))] at h
    obtain ⟨s, rfl, rfl⟩ := h
    cases cell <;> rfl
  case between =>
    simp only [operatorTest, bind_eq_ok_iff, single_eq_ok_iff, upperEnd_eq_ok_iff] at h
    obtain ⟨low, ⟨rfl, -⟩, high, ⟨rfl, -⟩, h⟩ := h
    cases h
    cases cell with
    | none => rfl
    | some v => simp [CellTest.holds, ValueTest.holds, Clause.holds, ordering_tests]
  case isIn | notIn =>
    simp only [operatorTest, map_eq_ok_iff, set_eq_ok_iff] at h
    obtain ⟨xs, ⟨rfl, -⟩, rfl⟩ := h
    cases cell with
    | none => rfl
    | some v =>
      simp only [Clause.holds, List.contains_eq_any_beq]
      rfl
  case equals | notEquals =>
    simp only [operatorTest, map_eq_ok_iff, single_eq_ok_iff] at h
    obtain ⟨x, ⟨rfl, -⟩, rfl⟩ := h
    cases cell <;> rfl
  all_goals
    simp only [operatorTest, map_eq_ok_iff, single_eq_ok_iff] at h
    obtain ⟨x, ⟨rfl, -⟩, rfl⟩ := h
    cases cell with
    | none => rfl
    | some v =>
      simp only [CellTest.holds, ValueTest.holds, Clause.holds, Option.any_some, ordering_tests]

end Reporting.Condition
