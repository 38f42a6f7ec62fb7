import Reporting.Proofs.Chain
import Reporting.Proofs.Json.Members
import Reporting.Proofs.Json.Text

/-!
# Proofs/Json/Ordered — documents as they are kept

Members are put in by rising name wherever a document is read, so in every object of what is read they
come in that order (`ordered_of_ofText`).  Putting them in again changes nothing, so such a document is
read back as itself from any text that spells it (`ofText_of_spells`).
-/

namespace Reporting.Json

/-! ## Members -/

namespace Members

variable {m front back : Members} {name : String}

/-- A member goes behind those whose names come before its own. -/
theorem insert_eq_append (h : ∀ member ∈ front, member.1 < name) (value : Json) :
    front.insert name value = front ++ [(name, value)] := by
  induction front with
  | nil => rfl
  | cons head rest ih =>
    have hlt : head.1 < name := h head List.mem_cons_self
    rw [insert, if_neg (String.lt_asymm hlt), if_neg (String.ne_of_lt hlt).symm,
      ih fun member hmem => h member (List.mem_cons_of_mem head hmem), List.cons_append]

theorem foldl_insert_eq_append (h : Ordered (front ++ back)) :
    back.foldl (fun members (name, value) => members.insert name value) front = front ++ back := by
  induction back generalizing front with
  | nil => exact (List.append_nil front).symm
  | cons member rest ih =>
    have hfront : ∀ other ∈ front, other.1 < member.1 := fun other hother =>
      (List.pairwise_append.1 h).2.2 other hother member List.mem_cons_self
    have hnext : front ++ member :: rest = front ++ [member] ++ rest := List.append_cons ..
    rw [hnext] at h ⊢
    rw [← ih h, ← insert_eq_append hfront member.2]
    rfl

/-- **Members in order are put in as they are.** -/
theorem Ordered.ofList_eq (h : Ordered m) : ofList m = m := by
  have hbehind : Ordered ([] ++ m) := h
  exact foldl_insert_eq_append hbehind

end Members

/-! ## Documents -/

/-- Whether the members of every object in a document come by rising name. -/
inductive Ordered : Json → Prop
  | null : Ordered null
  | bool (value : Bool) : Ordered (bool value)
  | number (value : Number) : Ordered (number value)
  | string (value : String) : Ordered (string value)
  | array {items : List Json} (each : ∀ item ∈ items, Ordered item) : Ordered (array items)
  | object {members : Members} (order : members.Ordered) (each : ∀ m ∈ members, Ordered m.2) :
    Ordered (object members)

/-- What nests nothing has no members to order. -/
theorem ordered_of_depth_eq_zero {j : Json} (h : j.depth = 0) : j.Ordered := by
  cases j with
  | null => exact .null
  | bool value => exact .bool value
  | number value => exact .number value
  | string value => exact .string value
  | array items => cases h
  | object members => cases h

/-- Members in order that nest nothing make an object that is in order. -/
theorem Members.Ordered.ordered_object {m : Members} (h : m.Ordered)
    (hcells : ∀ cell ∈ m, cell.2.depth = 0) : (object m).Ordered :=
  .object h fun cell hcell => ordered_of_depth_eq_zero (hcells cell hcell)

mutual

/-- **A document is read back from its tree.** -/
theorem Node.toJson_ofJson {j : Json} (h : j.Ordered) : (ofJson j).toJson = .ok j := by
  match j, h with
  | .null, _ => rfl
  | .bool _, _ => rfl
  | .number _, _ => rfl
  | .string _, _ => rfl
  | .array items, .array heach => exact bind_eq_ok_iff.2 ⟨items, toItems_ofItems heach, rfl⟩
  | .object members, .object horder heach =>
    refine bind_eq_ok_iff.2 ⟨members, toMembers_ofMembers heach, ?_⟩
    exact congrArg (fun m => Except.ok (Json.object m)) horder.ofList_eq

theorem Node.toItems_ofItems {items : List Json} (h : ∀ item ∈ items, item.Ordered) :
    toItems (ofItems items) = .ok items := by
  match items with
  | [] => rfl
  | item :: rest =>
    obtain ⟨hitem, hrest⟩ := List.forall_mem_cons.1 h
    exact bind_eq_ok_iff.2 ⟨item, toJson_ofJson hitem, bind_eq_ok_iff.2 ⟨rest,
      toItems_ofItems hrest, rfl⟩⟩

theorem Node.toMembers_ofMembers {members : List (String × Json)}
    (h : ∀ m ∈ members, m.2.Ordered) : toMembers (ofMembers members) = .ok members := by
  match members with
  | [] => rfl
  | (name, value) :: rest =>
    obtain ⟨hvalue, hrest⟩ := List.forall_mem_cons.1 h
    exact bind_eq_ok_iff.2 ⟨name, rfl, bind_eq_ok_iff.2 ⟨value, toJson_ofJson hvalue,
      bind_eq_ok_iff.2 ⟨rest, toMembers_ofMembers hrest, rfl⟩⟩⟩

end

/-! ## What is read -/

mutual

/-- **What is read has its members in order.** -/
theorem Node.ordered_of_toJson {node : Node} {j : Json} (h : node.toJson = .ok j) : j.Ordered := by
  match node with
  | .null | .bool _ | .number _ | .string _ =>
    cases h
    constructor
  | .array items stop =>
    obtain ⟨documents, hitems, h⟩ := bind_eq_ok_iff.1 h
    cases stop with
    | none =>
      cases h
      exact .array (ordered_of_toItems hitems)
    | some flaw => cases h
  | .object members stop =>
    obtain ⟨documents, hmembers, h⟩ := bind_eq_ok_iff.1 h
    cases stop with
    | none =>
      cases h
      exact .object (Members.ordered_ofList documents) fun m hm =>
        ordered_of_toMembers hmembers m (Members.mem_of_mem_ofList hm)
    | some flaw => cases h
  | .flawed _ _ _ => cases h

theorem Node.ordered_of_toItems {nodes : List Node} {items : List Json}
    (h : toItems nodes = .ok items) : ∀ item ∈ items, item.Ordered := by
  match nodes with
  | [] =>
    cases h
    exact List.forall_mem_nil _
  | node :: rest =>
    obtain ⟨item, hitem, h⟩ := bind_eq_ok_iff.1 h
    obtain ⟨others, hothers, h⟩ := bind_eq_ok_iff.1 h
    cases h
    exact List.forall_mem_cons.2 ⟨ordered_of_toJson hitem, ordered_of_toItems hothers⟩

theorem Node.ordered_of_toMembers {nodes : List (Node × Node)} {members : List (String × Json)}
    (h : toMembers nodes = .ok members) : ∀ m ∈ members, m.2.Ordered := by
  match nodes with
  | [] =>
    cases h
    exact List.forall_mem_nil _
  | (name, node) :: rest =>
    obtain ⟨text, -, h⟩ := bind_eq_ok_iff.1 h
    obtain ⟨value, hvalue, h⟩ := bind_eq_ok_iff.1 h
    obtain ⟨others, hothers, h⟩ := bind_eq_ok_iff.1 h
    cases h
    exact List.forall_mem_cons.2 ⟨ordered_of_toJson hvalue, ordered_of_toMembers hothers⟩

end

theorem ordered_of_ofText {text : String} {j : Json} (h : ofText text = .ok j) : j.Ordered := by
  obtain ⟨again, hread, h⟩ := bind_eq_ok_iff.1 h
  split at h
  · cases h
  · cases h
    exact Node.ordered_of_toJson hread

/-- **A document is read back from any text that spells it**, if it does not nest too deep. -/
theorem ofText_of_spells {text : String} {j : Json} (h : Spells text j) (hdepth : j.depth ≤ maxDepth)
    (hordered : j.Ordered) : ofText text = .ok j := by
  rw [ofText, Node.ofText_of_spells h hdepth]
  exact bind_eq_ok_iff.2 ⟨j, Node.toJson_ofJson hordered, rfl⟩

end Reporting.Json
