import Reporting.Field
import Reporting.Query.Error

/-!
# Registry — the fields there are

A registry lists fields.  No two have one id, and exactly the enum fields declare values; both are
part of the type.  `Registry.ofFields` checks a list and reports the first field that breaks a rule.
-/

namespace Reporting

/-- Why there is no registry. -/
inductive RegistryError
  /-- There is no such file. -/
  | notFound (path : String)
  /-- The file cannot be read. -/
  | unreadable (reason : String)
  /-- The file does not describe a registry. -/
  | unparsable (reason : String)
  /-- Two fields have one id. -/
  | duplicateField (id : String)
  /-- An enum field declares no values. -/
  | missingEnumValues (id : String)
  /-- A field that is no enum declares values. -/
  | unexpectedEnumValues (id : String)
  deriving DecidableEq, Repr

namespace RegistryError

/-- The name of the kind of an error. -/
def kind : RegistryError → String
  | notFound _ => "FileNotFound"
  | unreadable _ => "ReadError"
  | unparsable _ => "ParseError"
  | duplicateField _ => "DuplicateField"
  | missingEnumValues _ => "MissingEnumValues"
  | unexpectedEnumValues _ => "UnexpectedEnumValues"

/-- What is said about an error. -/
def message : RegistryError → String
  | notFound path => s!"Registry file not found: {path}"
  | unreadable reason => s!"Failed to read registry file: {reason}"
  | unparsable reason => s!"Failed to parse registry file: {reason}"
  | duplicateField id => s!"Duplicate field id: {id}"
  | missingEnumValues id => s!"Enum field '{id}' declares no enumValues"
  | unexpectedEnumValues id => s!"Field '{id}' is not an enum but declares enumValues"

end RegistryError

/-- Whether a field declares values exactly if it is an enum. -/
def Field.declaresValues (f : Field) : Prop := f.type = .enum ↔ f.enumValues ≠ []

/-- The fields there are. -/
structure Registry where
  fields : List Field
  distinct : (fields.map (·.id)).Nodup
  declared : ∀ f ∈ fields, f.declaresValues

namespace Registry

/-- What is wrong with the values that a field declares. -/
def valuesFault? (f : Field) : Option RegistryError :=
  if f.type = .enum then
    if f.enumValues = [] then some (.missingEnumValues f.id) else none
  else if f.enumValues = [] then none
  else some (.unexpectedEnumValues f.id)

/-- The first thing wrong with a list of fields that comes after the ids seen. -/
def fault? (seen : List String) : List Field → Option RegistryError
  | [] => none
  | f :: rest =>
    match valuesFault? f with
    | some e => some e
    | none => if f.id ∈ seen then some (.duplicateField f.id) else fault? (f.id :: seen) rest

theorem valuesFault?_eq_none_iff {f : Field} : valuesFault? f = none ↔ f.declaresValues := by
  simp only [valuesFault?, Field.declaresValues]
  split <;> rename_i ht <;> split <;> rename_i hv <;> simp [ht, hv]

/-- **Nothing is wrong with a list exactly if it keeps both rules.** -/
theorem fault?_eq_none_iff {seen : List String} {fs : List Field} :
    fault? seen fs = none ↔
      (∀ f ∈ fs, f.declaresValues) ∧ (fs.map (·.id)).Nodup ∧ ∀ f ∈ fs, f.id ∉ seen := by
  induction fs generalizing seen with
  | nil => simp [fault?]
  | cons f rest ih =>
    simp only [fault?]
    cases hv : valuesFault? f with
    | some e =>
      simp only [reduceCtorEq, false_iff]
      rintro ⟨hd, -⟩
      exact absurd (valuesFault?_eq_none_iff.2 (hd f List.mem_cons_self)) (by simp [hv])
    | none =>
      have hf := valuesFault?_eq_none_iff.1 hv
      by_cases hs : f.id ∈ seen
      · simp only [hs, if_true, reduceCtorEq, false_iff]
        rintro ⟨-, -, h⟩
        exact h f List.mem_cons_self hs
      · simp only [hs, if_false, ih, List.mem_cons, List.map_cons, List.nodup_cons, List.mem_map,
          forall_eq_or_imp, not_or, hf, true_and, not_false_eq_true, not_exists, not_and]
        constructor
        · rintro ⟨hd, hn, h⟩
          exact ⟨hd, ⟨fun g hg he => (h g hg).1 he, hn⟩, fun g hg => (h g hg).2⟩
        · rintro ⟨hd, ⟨hi, hn⟩, h⟩
          exact ⟨hd, hn, fun g hg => ⟨hi g hg, h g hg⟩⟩

/-- The registry of some fields. -/
def ofFields (fs : List Field) : Except RegistryError Registry :=
  match h : fault? [] fs with
  | some e => .error e
  | none =>
    have h := fault?_eq_none_iff.1 h
    .ok ⟨fs, h.2.1, h.1⟩

/-- The registry without fields. -/
def empty : Registry := ⟨[], by simp, by simp⟩

instance : Inhabited Registry := ⟨empty⟩

/-- The field with an id. -/
def find? (r : Registry) (id : String) : Option Field := r.fields.find? fun f => f.id == id

/-- Whether there is a field with an id. -/
def contains (r : Registry) (id : String) : Bool := (r.find? id).isSome

/-- The field with an id, which a definition needs. -/
def resolve (r : Registry) (id : String) : Except ReportError Field :=
  match r.find? id with
  | some f => .ok f
  | none => .error (.unknownField id)

/-- The fields of an entity, or all. -/
def fieldsOf (r : Registry) (entity : Option String) : List Field :=
  match entity with
  | some e => r.fields.filter fun f => f.entity == e
  | none => r.fields

/-- Puts a name in its place in a list that rises, unless it is there. -/
def insertName (name : String) : List String → List String
  | [] => [name]
  | other :: rest =>
    if name < other then name :: other :: rest
    else if name = other then other :: rest
    else other :: insertName name rest

/-- The entities that fields belong to, each once, rising. -/
def entities (r : Registry) : List String := r.fields.foldl (fun names f => insertName f.entity names) []

/-- The number of fields. -/
def size (r : Registry) : Nat := r.fields.length

end Registry

end Reporting
