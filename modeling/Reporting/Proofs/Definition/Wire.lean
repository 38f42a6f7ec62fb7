import Reporting.Definition.Wire
import Reporting.Proofs.Json.Decode
import Reporting.Proofs.Value.Order

/-!
# Proofs/Definition/Wire — decoded operands are real

JSON has no number beyond the real ones, so an operand that comes from a document is a value that can
be compared with what is read from records.
-/

namespace Reporting

open Json (Decoder Node Origin)

/-! ## Values -/

namespace Value

theorem yields_double : Decoder.Yields Json.Decode.double fun x => Double.isFinite x := by
  intro origin node x hx
  unfold Json.Decode.double at hx
  split at hx
  · rename_i n fits
    cases hx
    exact isFinite_doubleOf (.int n fits)
  · rename_i x' finite
    cases hx
    exact finite
  · cases hx

theorem yields_decodeContent (type : FieldType) : Decoder.Yields (decodeContent type) IsReal := by
  intro origin node v hv
  cases type with
  | number =>
    obtain ⟨x, hx, rfl⟩ := map_eq_ok_iff.1 hv
    exact yields_double origin node x hx
  | _ =>
    obtain ⟨_, -, rfl⟩ := map_eq_ok_iff.1 hv
    trivial

/-- Whether a value that has been told is real. -/
def Progress.IsReal : Progress → Prop
  | whole value => value.IsReal
  | _ => True

theorem Progress.isReal_of_takeType {origin : Origin} {node : Node} {progress next : Progress}
    (h : takeType origin node progress = .ok next) : next.IsReal := by
  cases progress with
  | nothing =>
    obtain ⟨_, -, rfl⟩ := map_eq_ok_iff.1 h
    trivial
  | kept content =>
    obtain ⟨type, -, h⟩ := bind_eq_ok_iff.1 h
    obtain ⟨v, hv, rfl⟩ := map_eq_ok_iff.1 h
    exact yields_decodeContent type _ _ v hv
  | typed type => cases h
  | whole value => cases h

theorem Progress.isReal_of_takeContent {origin : Origin} {node : Node} {progress next : Progress}
    (h : takeContent origin node progress = .ok next) : next.IsReal := by
  cases progress with
  | nothing =>
    obtain ⟨_, -, rfl⟩ := map_eq_ok_iff.1 h
    trivial
  | typed type =>
    obtain ⟨v, hv, rfl⟩ := map_eq_ok_iff.1 h
    exact yields_decodeContent type _ _ v hv
  | kept content => cases h
  | whole value => cases h

theorem Progress.isReal_of_takeMembers {origin : Origin} {members : List (Node × Node)}
    {progress last : Progress} (hprogress : progress.IsReal)
    (h : takeMembers origin members progress = .ok last) : last.IsReal := by
  induction members generalizing progress with
  | nil =>
    cases h
    exact hprogress
  | cons member rest ih =>
    unfold takeMembers at h
    split at h
    · cases h
    · obtain ⟨next, hnext, h⟩ := bind_eq_ok_iff.1 h
      exact ih (Progress.isReal_of_takeType hnext) h
    · obtain ⟨next, hnext, h⟩ := bind_eq_ok_iff.1 h
      exact ih (Progress.isReal_of_takeContent hnext) h
    · obtain ⟨-, -, h⟩ := bind_eq_ok_iff.1 h
      exact ih hprogress h

/-- **A decoded value is real.** -/
theorem yields_decode : Decoder.Yields Value.decode IsReal := by
  intro origin node v hv
  unfold Value.decode at hv
  split at hv
  · obtain ⟨last, hlast, hv⟩ := bind_eq_ok_iff.1 hv
    obtain ⟨-, -, hv⟩ := bind_eq_ok_iff.1 hv
    have hreal := Progress.isReal_of_takeMembers (show Progress.nothing.IsReal from trivial) hlast
    cases last with
    | whole value =>
      cases hv
      exact hreal
    | _ => cases hv
  · obtain ⟨-, -, hv⟩ := bind_eq_ok_iff.1 hv
    cases hv
  · obtain ⟨-, -, hv⟩ := bind_eq_ok_iff.1 hv
    obtain ⟨-, -, hv⟩ := bind_eq_ok_iff.1 hv
    cases hv
  · obtain ⟨type, -, hv⟩ := bind_eq_ok_iff.1 hv
    obtain ⟨value, hvalue, hv⟩ := bind_eq_ok_iff.1 hv
    have hreal := yields_decodeContent type _ _ value hvalue
    split at hv
    · obtain ⟨-, -, hv⟩ := bind_eq_ok_iff.1 hv
      cases hv
      exact hreal
    · cases hv
  · cases hv

end Value

/-! ## Definitions -/

/-- The values of an operand. -/
def Operand.values : Operand → List Value
  | one v => [v]
  | many vs => vs

/-- Whether the operands of a clause are real. -/
structure Clause.IsReal (c : Clause) : Prop where
  operand : ∀ o ∈ c.value, ∀ v ∈ o.values, v.IsReal
  upper : ∀ v ∈ c.valueEnd, v.IsReal

/-- Whether the operands of a definition are real. -/
def Definition.IsReal (d : Definition) : Prop := ∀ c ∈ d.filters, c.IsReal

theorem Operand.yields_decode :
    Decoder.Yields Operand.decode fun o => ∀ v ∈ o.values, v.IsReal := by
  intro origin node o ho
  obtain ⟨node, -, ho⟩ := bind_eq_ok_iff.1 ho
  split at ho
  · rename_i v hv
    cases ho
    exact List.forall_mem_singleton.2 (Value.yields_decode _ _ v hv)
  · split at ho
    · rename_i vs hvs
      cases ho
      exact Json.Decode.yields_list Value.yields_decode _ _ vs hvs
    · cases ho

theorem Clause.yields_decode : Decoder.Yields Clause.shape.decode Clause.IsReal := by
  have hstart : Clause.IsReal ⟨"", .equals, none, none⟩ := ⟨by simp, by simp⟩
  refine Json.Shape.yields hstart ?_
  simp only [Clause.shape, List.forall_mem_cons]
  refine ⟨?_, ?_, ?_, ?_, nofun⟩
  · exact Json.Slot.keeps_mandatory (Decoder.yields_true _) fun _ _ _ h => ⟨h.operand, h.upper⟩
  · exact Json.Slot.keeps_mandatory (Decoder.yields_true _) fun _ _ _ h => ⟨h.operand, h.upper⟩
  · exact Json.Slot.keeps_optional (Json.Decode.yields_optional Operand.yields_decode)
      fun _ _ ho h => ⟨ho, h.upper⟩
  · exact Json.Slot.keeps_optional (Json.Decode.yields_optional Value.yields_decode)
      fun _ _ hv h => ⟨h.operand, hv⟩

/-- **The operands of a decoded definition are real.** -/
theorem Definition.yields_decode : Decoder.Yields Definition.decode Definition.IsReal := by
  have hstart : Definition.IsReal {} := by simp [IsReal]
  refine Json.Shape.yields hstart ?_
  simp only [Definition.shape, List.forall_mem_cons]
  refine ⟨?_, ?_, ?_, ?_, ?_, ?_, ?_, nofun⟩
  case refine_2 =>
    exact Json.Slot.keeps_optional (Json.Decode.yields_list Clause.yields_decode) fun _ _ h _ => h
  all_goals exact Json.Slot.keeps_optional (Decoder.yields_true _) fun _ _ _ h => h

end Reporting
