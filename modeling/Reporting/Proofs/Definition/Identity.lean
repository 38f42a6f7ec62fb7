import Reporting.Proofs.Definition.RoundTrip

/-!
# Proofs/Definition/Identity — what equal requests share

Requests are equal if their operands are, and both zeros are equal numbers.  But they are written
differently, and so the texts of equal requests, their fingerprints and their identities can differ.
They are the same exactly if the requests agree on which of their operands are negative zeros
(`canonical_eq_iff_of_beq`); then the requests are not only equal but the same.
-/

namespace Reporting

/-! ## Values -/

namespace Double

/-- Whether a double is zero with a sign. -/
def isNegativeZero (x : Float) : Bool := isNegative x && magnitude x == 0

/-- **Doubles of one value are the same**, if they agree on being the negative zero. -/
theorem eq_of_same {x y : Float} (h : same x y) (hzero : isNegativeZero x = isNegativeZero y) :
    x = y := by
  rcases eq_or_zero_of_same h with heq | ⟨hx, hy⟩
  · exact heq
  · have hsign : isNegative x = isNegative y := by simpa [isNegativeZero, hx, hy] using hzero
    rw [← ofMagnitude_magnitude (hx ▸ Nat.zero_le _ : magnitude x ≤ infinityBits),
      ← ofMagnitude_magnitude (hy ▸ Nat.zero_le _ : magnitude y ≤ infinityBits), hsign, hx, hy]

/-- A negative zero is a real number. -/
theorem isNegativeZero_of_not_isFinite {x : Float} (h : ¬ isFinite x) : isNegativeZero x = false := by
  rw [isNegativeZero, Bool.and_eq_false_iff]
  refine .inr (beq_eq_false_iff_ne.2 fun hzero => h ?_)
  rw [isFinite, hzero]
  rfl

end Double

namespace Value

/-- Whether a value is zero with a sign. -/
def isNegativeZero : Value → Bool
  | number x => Double.isNegativeZero x
  | _ => false

theorem eq_of_beq {v w : Value} (h : v == w) (hzero : v.isNegativeZero = w.isNegativeZero) : v = w := by
  have hsame : v.same w := h
  cases v <;> cases w <;> simp only [same, Bool.false_eq_true] at hsame
  case number.number x y => rw [Double.eq_of_same hsame hzero]
  all_goals rw [LawfulBEq.eq_of_beq hsame]

theorem isNegativeZero_of_ofFloat {x y : Float} (h : Json.ofFloat x = Json.ofFloat y) :
    Double.isNegativeZero x = Double.isNegativeZero y := by
  unfold Json.ofFloat at h
  split at h <;> split at h
  · cases h
    rfl
  · cases h
  · cases h
  · rw [Double.isNegativeZero_of_not_isFinite ‹_›, Double.isNegativeZero_of_not_isFinite ‹_›]

/-- **The document of an operand tells whether it is the negative zero.** -/
theorem isNegativeZero_of_wire {v w : Value} (h : v.wire = w.wire) :
    v.isNegativeZero = w.isNegativeZero := by
  simp only [wire, Json.object.injEq, List.cons.injEq, Prod.mk.injEq, Json.string.injEq, true_and,
    and_true] at h
  obtain ⟨hname, hcontent⟩ := h
  have htype := FieldType.name_injective hname
  cases v <;> cases w <;> simp only [type, reduceCtorEq] at htype
  case number.number x y => exact isNegativeZero_of_ofFloat hcontent
  all_goals rfl

end Value

/-! ## Several values -/

section

variable {α β γ : Type} {f : α → β} {g : α → γ}

/-- Lists are the same if they are equal and their items are the same. -/
theorem eq_of_beq_of_map [BEq α] {xs ys : List α} (hstep : ∀ x y, x == y → f x = f y → x = y)
    (h : xs == ys) (hmap : xs.map f = ys.map f) : xs = ys := by
  induction xs generalizing ys with
  | nil =>
    cases ys with
    | nil => rfl
    | cons y ys => cases hmap
  | cons x xs ih =>
    cases ys with
    | nil => cases hmap
    | cons y ys =>
      obtain ⟨hx, hxs⟩ := List.cons.inj hmap
      obtain ⟨hxy, hrest⟩ := (Bool.and_eq_true _ _).mp h
      rw [hstep x y hxy hx, ih hrest hxs]

/-- What may be absent is the same if it is equal and what is there is the same. -/
theorem eq_of_beq_of_option_map [BEq α] {x y : Option α} (hstep : ∀ x y, x == y → f x = f y → x = y)
    (h : x == y) (hmap : x.map f = y.map f) : x = y := by
  cases x <;> cases y
  case none.none => rfl
  case some.some x y => rw [hstep x y h (Option.some.inj hmap)]
  all_goals cases hmap

/-- What one part of items tells of another it tells of that of whole lists. -/
theorem map_eq_of_map_eq {xs ys : List α} (hstep : ∀ x y, f x = f y → g x = g y)
    (h : xs.map f = ys.map f) : xs.map g = ys.map g := by
  induction xs generalizing ys with
  | nil =>
    cases ys with
    | nil => rfl
    | cons y ys => cases h
  | cons x xs ih =>
    cases ys with
    | nil => cases h
    | cons y ys =>
      obtain ⟨hx, hxs⟩ := List.cons.inj h
      rw [List.map_cons, List.map_cons, hstep x y hx, ih hxs]

theorem option_map_eq_of_map_eq {x y : Option α} (hstep : ∀ x y, f x = f y → g x = g y)
    (h : x.map f = y.map f) : x.map g = y.map g := by
  cases x <;> cases y
  case none.none => rfl
  case some.some x y => exact congrArg some (hstep x y (Option.some.inj h))
  all_goals cases h

/-- A member that may be left out is known from what follows it by its name. -/
theorem optionalMember_append_inj {name : String} {json : α → Json} {x y : Option α}
    {members members' : List (String × Json)} (hx : ∀ m ∈ members, m.1 ≠ name)
    (hy : ∀ m ∈ members', m.1 ≠ name)
    (h : optionalMember name json x ++ members = optionalMember name json y ++ members') :
    x.map json = y.map json ∧ members = members' := by
  cases x <;> cases y
  case none.none => exact ⟨rfl, h⟩
  case some.some x y =>
    obtain ⟨hhead, htail⟩ := List.cons.inj h
    exact ⟨congrArg some (Prod.mk.inj hhead).2, htail⟩
  case none.some y =>
    have hmem : (name, json y) ∈ members := by
      rw [show members = _ from h]
      exact List.mem_cons_self
    exact absurd rfl (hx _ hmem)
  case some.none x =>
    have hmem : (name, json x) ∈ members' := by
      rw [show members' = _ from h.symm]
      exact List.mem_cons_self
    exact absurd rfl (hy _ hmem)

end

/-! ## Requests -/

/-- Which operands of a clause are negative zeros. -/
def Clause.negativeZeros (c : Clause) : Option (List Bool) × Option Bool :=
  (c.value.map fun o => o.values.map Value.isNegativeZero, c.valueEnd.map Value.isNegativeZero)

/-- Which operands of a definition are negative zeros. -/
def Definition.negativeZeros (d : Definition) : List (Option (List Bool) × Option Bool) :=
  d.filters.map Clause.negativeZeros

namespace Operand

variable {o o' : Operand}

theorem eq_of_beq (h : o == o')
    (hzeros : o.values.map Value.isNegativeZero = o'.values.map Value.isNegativeZero) : o = o' := by
  cases o <;> cases o'
  case one.one v w => rw [Value.eq_of_beq h (List.cons.inj hzeros).1]
  case many.many vs ws => rw [eq_of_beq_of_map (fun _ _ => Value.eq_of_beq) h hzeros]
  all_goals cases h

theorem negativeZeros_of_json (h : o.json = o'.json) :
    o.values.map Value.isNegativeZero = o'.values.map Value.isNegativeZero := by
  cases o <;> cases o'
  case one.one v w =>
    exact congrArg (fun zero => [zero]) (Value.isNegativeZero_of_wire h)
  case many.many vs ws =>
    exact map_eq_of_map_eq (fun _ _ => Value.isNegativeZero_of_wire) (Json.array.inj h)
  all_goals cases h

end Operand

namespace Clause

variable {c c' : Clause}

theorem eq_of_beq (h : c == c') (hzeros : c.negativeZeros = c'.negativeZeros) : c = c' := by
  obtain ⟨fieldId, operator, value, valueEnd⟩ := c
  obtain ⟨fieldId', operator', value', valueEnd'⟩ := c'
  have hparts : (fieldId == fieldId' &&
    (operator == operator' && (value == value' && valueEnd == valueEnd'))) = true := h
  simp only [Bool.and_eq_true] at hparts
  obtain ⟨hfield, hoperator, hvalue, hvalueEnd⟩ := hparts
  obtain ⟨hzeros, hzerosEnd⟩ := Prod.mk.inj hzeros
  rw [LawfulBEq.eq_of_beq hfield, LawfulBEq.eq_of_beq hoperator,
    eq_of_beq_of_option_map (fun _ _ => Operand.eq_of_beq) hvalue hzeros,
    eq_of_beq_of_option_map (fun _ _ => Value.eq_of_beq) hvalueEnd hzerosEnd]

theorem negativeZeros_of_json (h : c.json = c'.json) : c.negativeZeros = c'.negativeZeros := by
  obtain ⟨fieldId, operator, value, valueEnd⟩ := c
  obtain ⟨fieldId', operator', value', valueEnd'⟩ := c'
  simp only [json, Json.object.injEq, List.cons_append, List.nil_append, List.cons.injEq] at h
  have hname : ∀ x : Option Value, ∀ m ∈ optionalMember "valueEnd" Value.wire x, m.1 ≠ "value" := by
    intro x
    cases x with
    | none => exact nofun
    | some v => exact List.forall_mem_singleton.2 (show "valueEnd" ≠ "value" by decide)
  obtain ⟨hvalue, hvalueEnd⟩ := optionalMember_append_inj (hname _) (hname _) h.2.2
  rw [← List.append_nil (optionalMember "valueEnd" Value.wire valueEnd),
    ← List.append_nil (optionalMember "valueEnd" Value.wire valueEnd')] at hvalueEnd
  have hvalueEnd := (optionalMember_append_inj (List.forall_mem_nil _) (List.forall_mem_nil _)
    hvalueEnd).1
  exact congrArg₂ Prod.mk (option_map_eq_of_map_eq (fun _ _ => Operand.negativeZeros_of_json) hvalue)
    (option_map_eq_of_map_eq (fun _ _ => Value.isNegativeZero_of_wire) hvalueEnd)

end Clause

namespace Definition

variable {d d' : Definition}

theorem eq_of_beq (h : d == d') (hzeros : d.negativeZeros = d'.negativeZeros) : d = d' := by
  obtain ⟨fields, filters, sort, groupBy, aggregations, limit, offset⟩ := d
  obtain ⟨fields', filters', sort', groupBy', aggregations', limit', offset'⟩ := d'
  have hparts : (fields == fields' && (filters == filters' && (sort == sort' &&
    (groupBy == groupBy' && (aggregations == aggregations' &&
      (limit == limit' && offset == offset')))))) = true := h
  simp only [Bool.and_eq_true] at hparts
  obtain ⟨hfields, hfilters, hsort, hgroupBy, haggregations, hlimit, hoffset⟩ := hparts
  rw [LawfulBEq.eq_of_beq hfields, LawfulBEq.eq_of_beq hsort, LawfulBEq.eq_of_beq hgroupBy,
    LawfulBEq.eq_of_beq haggregations, LawfulBEq.eq_of_beq hlimit, LawfulBEq.eq_of_beq hoffset,
    eq_of_beq_of_map (fun _ _ => Clause.eq_of_beq) hfilters hzeros]

theorem negativeZeros_of_json (h : d.json = d'.json) : d.negativeZeros = d'.negativeZeros := by
  simp only [json, Json.object.injEq, List.cons_append, List.cons.injEq, Prod.mk.injEq,
    Json.array.injEq] at h
  exact map_eq_of_map_eq (fun _ _ => Clause.negativeZeros_of_json) h.2.1.2

end Definition

namespace ScheduledReport

variable {s s' : ScheduledReport}

theorem eq_of_beq (h : s == s')
    (hzeros : s.definition.negativeZeros = s'.definition.negativeZeros) : s = s' := by
  obtain ⟨definition, cadence, recipients, exportFormat⟩ := s
  obtain ⟨definition', cadence', recipients', exportFormat'⟩ := s'
  have hparts : (definition == definition' && (cadence == cadence' &&
    (recipients == recipients' && exportFormat == exportFormat'))) = true := h
  simp only [Bool.and_eq_true] at hparts
  obtain ⟨hdefinition, hcadence, hrecipients, hexportFormat⟩ := hparts
  rw [Definition.eq_of_beq hdefinition hzeros, LawfulBEq.eq_of_beq hcadence,
    LawfulBEq.eq_of_beq hrecipients, LawfulBEq.eq_of_beq hexportFormat]

theorem negativeZeros_of_json (h : s.json = s'.json) :
    s.definition.negativeZeros = s'.definition.negativeZeros := by
  simp only [json, Json.object.injEq, List.cons.injEq, Prod.mk.injEq] at h
  exact Definition.negativeZeros_of_json h.1.2

end ScheduledReport

/-! ## Identity -/

/-- **Equal requests have one canonical text exactly if they agree on their negative zeros**, and then
one fingerprint and one identity.  That goes for definitions and for scheduled reports. -/
theorem canonical_eq_iff_of_beq (d d' : Definition) (s s' : ScheduledReport) :
    (d == d' → (d.canonical = d'.canonical ↔ d.negativeZeros = d'.negativeZeros) ∧
      (d.negativeZeros = d'.negativeZeros → d.fingerprint = d'.fingerprint)) ∧
    (s == s' →
      (s.canonical = s'.canonical ↔ s.definition.negativeZeros = s'.definition.negativeZeros) ∧
      (s.definition.negativeZeros = s'.definition.negativeZeros → s.id = s'.id)) := by
  constructor
  · intro h
    refine ⟨⟨fun htext => ?_, fun hzeros => ?_⟩, fun hzeros => ?_⟩
    · exact Definition.negativeZeros_of_json (Json.compact_injective
        (Nat.le_trans d.depth_json (by decide)) (Nat.le_trans d'.depth_json (by decide)) htext)
    · rw [Definition.eq_of_beq h hzeros]
    · rw [Definition.eq_of_beq h hzeros]
  · intro h
    refine ⟨⟨fun htext => ?_, fun hzeros => ?_⟩, fun hzeros => ?_⟩
    · exact ScheduledReport.negativeZeros_of_json (Json.compact_injective
        (Nat.le_trans s.depth_json (by decide)) (Nat.le_trans s'.depth_json (by decide)) htext)
    · rw [ScheduledReport.eq_of_beq h hzeros]
    · rw [ScheduledReport.eq_of_beq h hzeros]

/-- The definition of the sales of an amount. -/
def Definition.soldFor (amount : Float) : Definition where
  fields := ["amount"]
  filters := [.compare "amount" .equals (.number amount)]

/-- The report on the sales of an amount, every day. -/
def ScheduledReport.soldFor (amount : Float) : ScheduledReport where
  definition := .soldFor amount
  cadence := .daily
  exportFormat := .json

/-- The sales of nothing, told by either zero, are asked for by equal requests that have different
texts. -/
theorem canonical_soldFor_zeros :
    ((Definition.soldFor Double.zero == .soldFor (Double.ofMagnitude true 0)) ∧
      (Definition.soldFor Double.zero).canonical ≠
        (Definition.soldFor (Double.ofMagnitude true 0)).canonical) ∧
    ((ScheduledReport.soldFor Double.zero == .soldFor (Double.ofMagnitude true 0)) ∧
      (ScheduledReport.soldFor Double.zero).canonical ≠
        (ScheduledReport.soldFor (Double.ofMagnitude true 0)).canonical) := by
  have hdefinition : Definition.soldFor Double.zero == .soldFor (Double.ofMagnitude true 0) := by
    decide
  have hscheduled : ScheduledReport.soldFor Double.zero == .soldFor (Double.ofMagnitude true 0) := by
    decide
  obtain ⟨hdefinitions, hreports⟩ := canonical_eq_iff_of_beq (.soldFor Double.zero)
    (.soldFor (Double.ofMagnitude true 0)) (.soldFor Double.zero)
    (.soldFor (Double.ofMagnitude true 0))
  exact ⟨⟨hdefinition, mt (hdefinitions hdefinition).1.1 (by decide)⟩,
    ⟨hscheduled, mt (hreports hscheduled).1.1 (by decide)⟩⟩

/-- **Equal requests are not one request**: not even the texts of equal definitions have to agree, let
alone fingerprints and identities. -/
theorem not_identity_of_beq :
    ¬ ((∀ d d' : Definition, d == d' → d.canonical = d'.canonical ∧ d.fingerprint = d'.fingerprint) ∧
      ∀ s s' : ScheduledReport, s == s' → s.id = s'.id) := by
  rintro ⟨h, -⟩
  have htext := (h (.soldFor Double.zero) (.soldFor (Double.ofMagnitude true 0)) (by decide)).1
  exact absurd (String.ofList_injective htext) (by decide +kernel)

end Reporting
