import Reporting.Double.Basic

/-!
# Json/Basic — JSON documents

A document is a tree.  Its objects list their members by rising name, each name once
(`Members.insert` keeps it so), which makes two documents with the same content equal.  Numbers are
integers as long as 64 bits hold them, and doubles otherwise; what is no real number has no place in
a document.
-/

namespace Reporting

/-- Whether 64 bits hold an integer, with a sign or without. -/
def Json.Number.Fits (n : Int) : Prop := -(UInt64.size / 2 : Nat) ≤ n ∧ n < UInt64.size

instance (n : Int) : Decidable (Json.Number.Fits n) := inferInstanceAs (Decidable (_ ∧ _))

/-- A number of a JSON document. -/
inductive Json.Number
  | int (value : Int) (fits : Json.Number.Fits value)
  | float (value : Float) (finite : Double.isFinite value)

/-- A JSON document. -/
inductive Json
  | null
  | bool (value : Bool)
  | number (value : Json.Number)
  | string (value : String)
  | array (items : List Json)
  | object (members : List (String × Json))

/-- The members of an object, by rising name. -/
abbrev Json.Members := List (String × Json)

namespace Json

instance : Inhabited Json := ⟨.null⟩

/-- Puts a member in its place, in the stead of one with the same name. -/
def Members.insert (name : String) (value : Json) : Members → Members
  | [] => [(name, value)]
  | (other, old) :: rest =>
    if name < other then (name, value) :: (other, old) :: rest
    else if name = other then (name, value) :: rest
    else (other, old) :: Members.insert name value rest

/-- The members given one after another, of which the last with a name counts. -/
def Members.ofList (pairs : List (String × Json)) : Members :=
  pairs.foldl (fun members (name, value) => members.insert name value) []

/-- The value of the member with a name. -/
def Members.get? (members : Members) (name : String) : Option Json := members.lookup name

/-- The kind of a document, in the word messages use for it. -/
def kind : Json → String
  | null => "null"
  | bool _ => "boolean"
  | number _ => "number"
  | string _ => "string"
  | array _ => "array"
  | object _ => "object"

/-- An integer as a document, null if 64 bits do not hold it. -/
def ofInt (n : Int) : Json := if h : Number.Fits n then .number (.int n h) else .null

/-- A natural number as a document. -/
def ofNat (n : Nat) : Json := ofInt n

/-- A double as a document, null if it is no real number. -/
def ofFloat (x : Float) : Json := if h : Double.isFinite x then .number (.float x h) else .null

/-- The member with a name, none if the document is no object. -/
def get? (name : String) : Json → Option Json
  | object members => Members.get? members name
  | _ => none

mutual

/-- How deep a document nests arrays and objects. -/
def depth : Json → Nat
  | array items => itemsDepth items + 1
  | object members => membersDepth members + 1
  | _ => 0

/-- How deep the deepest of several items nests. -/
def itemsDepth : List Json → Nat
  | [] => 0
  | item :: rest => max (depth item) (itemsDepth rest)

/-- How deep the deepest of several members nests. -/
def membersDepth : List (String × Json) → Nat
  | [] => 0
  | (_, value) :: rest => max (depth value) (membersDepth rest)

end

/-! ## Members -/

/-- The member just put in is found. -/
theorem Members.get?_insert_self (name : String) (value : Json) (members : Members) :
    (members.insert name value).get? name = some value := by
  induction members with
  | nil => simp [insert, get?]
  | cons m rest ih =>
    obtain ⟨other, old⟩ := m
    simp only [insert]
    split
    · simp [get?]
    · split
      · simp [get?]
      · rename_i _ hne
        simpa [get?, List.lookup_cons, beq_eq_false_iff_ne.2 hne] using ih

/-- Every other member is found as before. -/
theorem Members.get?_insert_of_ne {name other : String} (h : other ≠ name) (value : Json)
    (members : Members) : (members.insert name value).get? other = members.get? other := by
  induction members with
  | nil => simp [insert, get?, List.lookup_cons, beq_eq_false_iff_ne.2 h]
  | cons m rest ih =>
    obtain ⟨key, old⟩ := m
    simp only [insert]
    split
    · simp [get?, List.lookup_cons, beq_eq_false_iff_ne.2 h]
    · split
      · rename_i _ heq
        subst heq
        simp [get?, List.lookup_cons, beq_eq_false_iff_ne.2 h]
      · by_cases hk : other = key
        · subst hk
          simp [get?]
        · simpa [get?, List.lookup_cons, beq_eq_false_iff_ne.2 hk] using ih

end Json

end Reporting
