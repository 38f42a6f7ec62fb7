import Mathlib.Data.List.Induction
import Mathlib.Data.List.Nodup
import Mathlib.Data.List.Perm.Basic
import Reporting.Proofs.Query.Slots

/-!
# Proofs/Registry/Catalog — registries and what is found in them

A list of fields makes a registry if it keeps the rules (`Registry.Keeps`), and the first field that
breaks one after those before it is the one that is reported (`Registry.ofFields_eq_error_iff`).  A
registry may be built along with an index of positions that every field is put in before its id is known
to be new: a pass that begins with the positions of some fields ends with those of all
(`Registry.indexFrom_spec`).  What is found in a registry is found with an index as well, and the lists of
the entities divide the fields (`Registry.ofFields_catalogs`).
-/

namespace Reporting.Registry

variable {fs before : List Field} {f : Field} {e : RegistryError} {r : Registry}

/-! ## Rules -/

/-- Whether fields keep the rules of a registry. -/
structure Keeps (fs : List Field) : Prop where
  distinct : (fs.map (·.id)).Nodup
  valued : ∀ f ∈ fs, f.type = .enum → f.enumValues ≠ []
  valueless : ∀ f ∈ fs, f.type ≠ .enum → f.enumValues = []

/-- What a field breaks after others.  A field that declares the wrong values breaks no other rule. -/
inductive Breaks (before : List Field) (f : Field) : RegistryError → Prop
  | missing (htype : f.type = .enum) (hvalues : f.enumValues = []) :
    Breaks before f (.missingEnumValues f.id)
  | unexpected (htype : f.type ≠ .enum) (hvalues : f.enumValues ≠ []) :
    Breaks before f (.unexpectedEnumValues f.id)
  | repeated (hdeclares : f.declaresValues) (hid : ∃ g ∈ before, g.id = f.id) :
    Breaks before f (.duplicateField f.id)

theorem keeps_iff : Keeps fs ↔ fault? [] fs = none := by
  rw [fault?_eq_none_iff]
  constructor
  · rintro ⟨hdistinct, hvalued, hvalueless⟩
    refine ⟨fun f hf => ⟨hvalued f hf, fun hvalues => ?_⟩, hdistinct, by simp⟩
    by_contra htype
    exact hvalues (hvalueless f hf htype)
  · rintro ⟨hdeclares, hdistinct, -⟩
    refine ⟨hdistinct, fun f hf => (hdeclares f hf).1, fun f hf htype => ?_⟩
    by_contra hvalues
    exact htype ((hdeclares f hf).2 hvalues)

/-- A list is checked part by part. -/
theorem fault?_append (seen : List String) (xs ys : List Field) :
    fault? seen (xs ++ ys) =
      (fault? seen xs).or (fault? ((xs.map (·.id)).reverse ++ seen) ys) := by
  induction xs generalizing seen with
  | nil => rfl
  | cons x rest ih =>
    rw [List.cons_append, fault?, fault?]
    cases valuesFault? x with
    | some e => rfl
    | none =>
      dsimp only
      split
      · rfl
      · rw [ih, List.map_cons, List.reverse_cons, List.append_assoc, List.singleton_append]

/-- **A field is first checked for the values that it declares.** -/
theorem valuesFault?_eq_some_iff (before : List Field) :
    valuesFault? f = some e ↔ ¬ f.declaresValues ∧ Breaks before f e := by
  constructor
  · intro h
    have hdeclares : ¬ f.declaresValues := fun hdeclares => by
      rw [valuesFault?_eq_none_iff.2 hdeclares] at h
      cases h
    refine ⟨hdeclares, ?_⟩
    rw [valuesFault?] at h
    split at h <;> rename_i htype <;> split at h <;> rename_i hvalues <;> cases h
    · exact .missing htype hvalues
    · exact .unexpected htype hvalues
  · rintro ⟨hdeclares, h⟩
    rw [valuesFault?]
    cases h with
    | missing htype hvalues => rw [if_pos htype, if_pos hvalues]
    | unexpected htype hvalues => rw [if_neg htype, if_neg hvalues]
    | repeated h => exact absurd h hdeclares

/-- **A field is checked for what it breaks** after the fields whose ids have been seen. -/
theorem fault?_singleton_iff {seen : List String}
    (hseen : ∀ id, id ∈ seen ↔ ∃ g ∈ before, g.id = id) :
    fault? seen [f] = some e ↔ Breaks before f e := by
  rw [fault?]
  cases hvalues : valuesFault? f with
  | some e' =>
    have hdeclares := ((valuesFault?_eq_some_iff before).1 hvalues).1
    have hfault := valuesFault?_eq_some_iff (f := f) (e := e) before
    rw [hvalues] at hfault
    exact hfault.trans (and_iff_right hdeclares)
  | none =>
    have hdeclares := valuesFault?_eq_none_iff.1 hvalues
    constructor
    · dsimp only
      split
      · rintro ⟨⟩
        exact .repeated hdeclares ((hseen _).1 ‹_›)
      · rintro ⟨⟩
    · intro h
      cases h with
      | missing htype hnone => exact absurd hnone (hdeclares.1 htype)
      | unexpected htype hsome => exact absurd (hdeclares.2 hsome) htype
      | repeated _ hid => exact if_pos ((hseen _).2 hid)

/-- **The first field that breaks a rule is found.** -/
theorem fault?_eq_some_iff : fault? [] fs = some e ↔
    ∃ before f after, fs = before ++ f :: after ∧ Keeps before ∧ Breaks before f e := by
  have hseen : ∀ (before : List Field) (id : String),
      id ∈ (before.map (·.id)).reverse ++ [] ↔ ∃ g ∈ before, g.id = id := by
    simp
  constructor
  · intro h
    induction fs using List.reverseRecOn with
    | nil => cases h
    | append_singleton xs x ih =>
      rw [fault?_append] at h
      cases hxs : fault? [] xs with
      | some e' =>
        rw [hxs] at h
        obtain ⟨before, f, after, rfl, hbefore, hf⟩ := ih (hxs.trans h)
        exact ⟨before, f, after ++ [x], by simp, hbefore, hf⟩
      | none =>
        rw [hxs] at h
        exact ⟨xs, x, [], rfl, keeps_iff.2 hxs, (fault?_singleton_iff (hseen xs)).1 h⟩
  · rintro ⟨before, f, after, rfl, hbefore, hf⟩
    rw [fault?_append, keeps_iff.1 hbefore, ← List.singleton_append, fault?_append,
      (fault?_singleton_iff (hseen before)).2 hf]
    rfl

/-! ## Registries -/

theorem ofFields_eq_error_iff_fault? : ofFields fs = .error e ↔ fault? [] fs = some e := by
  rw [ofFields]
  split <;> rename_i h <;> simp [h]

/-- **There is no registry exactly for what the first field to break a rule breaks.** -/
theorem ofFields_eq_error_iff : ofFields fs = .error e ↔
    ∃ before f after, fs = before ++ f :: after ∧ Keeps before ∧ Breaks before f e :=
  ofFields_eq_error_iff_fault?.trans fault?_eq_some_iff

/-- **Fields make a registry exactly if they keep the rules.** -/
theorem exists_ofFields_iff : (∃ r, ofFields fs = .ok r) ↔ Keeps fs := by
  rw [keeps_iff, ofFields]
  split <;> rename_i h <;> simp [h]

theorem fields_of_ofFields (h : ofFields fs = .ok r) : r.fields = fs := by
  rw [ofFields] at h
  split at h
  · cases h
  · cases h
    rfl

/-! ## Positions -/

/-- The positions of fields under their ids. -/
abbrev Index := Std.HashMap String Nat

/-- An index with the fields of a list put in, the first at a position.  A field goes in once its values
are checked, over one with its id if there is one; then there is no registry. -/
def indexFrom (index : Index) (position : Nat) : List Field → Except RegistryError Index
  | [] => .ok index
  | f :: rest =>
    match valuesFault? f with
    | some e => .error e
    | none =>
      match index.containsThenInsert f.id position with
      | (true, _) => .error (.duplicateField f.id)
      | (false, index) => indexFrom index (position + 1) rest

/-- The index of some fields. -/
def indexOf (fs : List Field) : Except RegistryError Index := indexFrom ∅ 0 fs

/-- Whether an index holds the ids of some fields, each at its position, and nothing else. -/
def Index.Locates (index : Index) (fs : List Field) : Prop :=
  ∀ (id : String) (position : Nat),
    index[id]? = some position ↔ (fs.map (·.id))[position]? = some id

section Positions

variable {index : Index}

theorem indexFrom_cons (index : Index) (position : Nat) (f : Field) (rest : List Field) :
    indexFrom index position (f :: rest) =
      match valuesFault? f with
      | some e => .error e
      | none =>
        if index.contains f.id then .error (.duplicateField f.id)
        else indexFrom (index.insert f.id position) (position + 1) rest := by
  rw [indexFrom]
  cases valuesFault? f with
  | some e => rfl
  | none =>
    have hinsert : index.containsThenInsert f.id position =
        (index.contains f.id, index.insert f.id position) :=
      Prod.ext Std.HashMap.containsThenInsert_fst Std.HashMap.containsThenInsert_snd
    dsimp only
    rw [hinsert]
    cases index.contains f.id <;> rfl

theorem getElem?_concat_eq_some_iff {α : Type} {xs : List α} {x y : α} {i : Nat} :
    (xs ++ [x])[i]? = some y ↔ xs[i]? = some y ∨ i = xs.length ∧ x = y := by
  rcases Nat.lt_trichotomy i xs.length with hlt | rfl | hgt
  · rw [List.getElem?_append_left hlt]
    simp [Nat.ne_of_lt hlt]
  · simp
  · rw [List.getElem?_eq_none (by simp; omega), List.getElem?_eq_none (by omega)]
    simp [Nat.ne_of_gt hgt]

theorem Index.Locates.contains_iff (h : index.Locates fs) {id : String} :
    index.contains id ↔ id ∈ fs.map (·.id) := by
  rw [Std.HashMap.contains_eq_isSome_getElem?, Option.isSome_iff_exists, List.mem_iff_getElem?]
  exact exists_congr fun position => h id position

/-- **A field is put in at the end** if its id is new. -/
theorem Index.Locates.insert (h : index.Locates fs) (hid : f.id ∉ fs.map (·.id)) :
    Index.Locates (Std.HashMap.insert index f.id fs.length) (fs ++ [f]) := by
  intro id position
  rw [Std.HashMap.getElem?_insert, List.map_append, List.map_singleton,
    getElem?_concat_eq_some_iff, List.length_map]
  by_cases heq : f.id = id
  · subst heq
    have hnew : (fs.map (·.id))[position]? ≠ some f.id := mt List.mem_of_getElem? hid
    rw [if_pos (beq_self_eq_true _), or_iff_right hnew, Option.some_inj]
    simp [eq_comm]
  · rw [if_neg (by simpa using heq), h id position]
    simp [heq]

/-- **A pass that begins with the positions of some fields ends with those of all**, unless a field breaks
a rule. -/
theorem indexFrom_spec (h : index.Locates before) (fs : List Field) :
    match fault? (before.map (·.id)).reverse fs with
    | none => ∃ all, indexFrom index before.length fs = .ok all ∧ all.Locates (before ++ fs)
    | some e => indexFrom index before.length fs = .error e := by
  induction fs generalizing index before with
  | nil => exact ⟨index, rfl, by rwa [List.append_nil]⟩
  | cons f rest ih =>
    rw [fault?, indexFrom_cons]
    cases valuesFault? f with
    | some e => rfl
    | none =>
      dsimp only
      by_cases hid : f.id ∈ before.map (·.id)
      · rw [if_pos (List.mem_reverse.2 hid), if_pos (h.contains_iff.2 hid)]
      · have hrest := ih (h.insert hid)
        rw [List.length_append, List.length_singleton, List.map_append, List.map_singleton,
          List.reverse_append, List.reverse_singleton, List.singleton_append, List.append_assoc,
          List.singleton_append] at hrest
        rwa [if_neg (mt List.mem_reverse.1 hid), if_neg (mt h.contains_iff.1 hid)]

/-- **An index is built whenever a registry is**, and it holds the position of each field. -/
theorem indexOf_spec (fs : List Field) :
    match ofFields fs with
    | .ok _ => ∃ index, indexOf fs = .ok index ∧ index.Locates fs
    | .error e => indexOf fs = .error e := by
  have hempty : Index.Locates ∅ [] := by
    intro id position
    simp
  have hpass := indexFrom_spec hempty fs
  rw [List.map_nil, List.reverse_nil] at hpass
  cases hfs : ofFields fs with
  | ok r =>
    rw [keeps_iff.1 (exists_ofFields_iff.1 ⟨r, hfs⟩)] at hpass
    exact hpass
  | error e =>
    rw [ofFields_eq_error_iff_fault?.1 hfs] at hpass
    exact hpass

/-- There is no index exactly if there is no registry, for the same reason. -/
theorem indexOf_eq_error_iff : indexOf fs = .error e ↔ ofFields fs = .error e := by
  have hindex := indexOf_spec fs
  cases hfs : ofFields fs with
  | ok r =>
    rw [hfs] at hindex
    obtain ⟨index, hindex, -⟩ := hindex
    rw [hindex]
    exact ⟨nofun, nofun⟩
  | error e' =>
    rw [hfs] at hindex
    rw [show indexOf fs = .error e' from hindex]
    exact ⟨fun h => by cases h; rfl, fun h => by cases h; rfl⟩

end Positions

/-! ## Looking up -/

theorem eq_of_id_eq (r : Registry) {f g : Field} (hf : f ∈ r.fields) (hg : g ∈ r.fields)
    (heq : f.id = g.id) : f = g := List.inj_on_of_nodup_map r.distinct hf hg heq

/-- **The field with an id is the only one listed under it.** -/
theorem find?_eq_some_iff {id : String} : r.find? id = some f ↔ f ∈ r.fields ∧ f.id = id := by
  constructor
  · exact fun h => ⟨List.mem_of_find?_eq_some h, id_of_find? h⟩
  · rintro ⟨hf, rfl⟩
    cases hfind : r.find? f.id with
    | none => exact absurd (List.find?_eq_none.1 hfind f hf) (by simp)
    | some g =>
      rw [r.eq_of_id_eq (List.mem_of_find?_eq_some hfind) hf (id_of_find? hfind)]

/-- Only an id without a field is unknown. -/
theorem resolve_eq_error_iff {id : String} {e : ReportError} :
    r.resolve id = .error e ↔ r.contains id = false ∧ e = .unknownField id := by
  rw [resolve, contains]
  cases r.find? id with
  | none => simp [eq_comm]
  | some f => simp

/-- **What an index leads to is the field with the id.** -/
theorem bind_getElem?_eq_find? {index : Index} (h : index.Locates r.fields) (id : String) :
    (index[id]?).bind (r.fields[·]?) = r.find? id := by
  have hpositions := h id
  simp only [List.getElem?_map, Option.map_eq_some_iff] at hpositions
  cases hindex : index[id]? with
  | none =>
    symm
    refine Option.eq_none_iff_forall_ne_some.2 fun f hf => ?_
    obtain ⟨hmem, rfl⟩ := find?_eq_some_iff.1 hf
    obtain ⟨position, hposition⟩ := List.mem_iff_getElem?.1 hmem
    rw [(hpositions position).2 ⟨f, hposition, rfl⟩] at hindex
    cases hindex
  | some position =>
    obtain ⟨f, hf, rfl⟩ := (hpositions position).1 hindex
    rw [Option.bind_some, hf, find?_eq_some_iff.2 ⟨List.mem_of_getElem? hf, rfl⟩]

/-- An index and its registry have the same ids. -/
theorem contains_index_eq {index : Index} (h : index.Locates r.fields) (id : String) :
    index.contains id = r.contains id := by
  rw [Bool.eq_iff_iff, h.contains_iff, contains, Option.isSome_iff_exists, List.mem_map]
  exact exists_congr fun f => find?_eq_some_iff.symm

/-! ## Entities -/

section Entities

variable {name entity : String} {names : List String}

theorem mem_insertName : entity ∈ insertName name names ↔ entity = name ∨ entity ∈ names := by
  induction names with
  | nil => simp [insertName]
  | cons other rest ih =>
    rw [insertName]
    split
    · exact List.mem_cons
    · split
      · rename_i heq
        simp [heq]
      · rw [List.mem_cons, ih, List.mem_cons]
        exact or_left_comm

theorem pairwise_insertName (h : names.Pairwise (· < ·)) (name : String) :
    (insertName name names).Pairwise (· < ·) := by
  induction names with
  | nil => exact List.pairwise_singleton _ _
  | cons other rest ih =>
    obtain ⟨hother, hrest⟩ := List.pairwise_cons.1 h
    rw [insertName]
    split
    · rename_i hlt
      refine List.pairwise_cons.2 ⟨fun s hs => ?_, h⟩
      rcases List.mem_cons.1 hs with rfl | hs
      · exact hlt
      · exact String.lt_trans hlt (hother s hs)
    · split
      · exact h
      · rename_i hnlt hne
        have hgt : other < name := by
          rcases Std.lt_trichotomy name other with hlt | heq | hgt
          · exact absurd hlt hnlt
          · exact absurd heq hne
          · exact hgt
        refine List.pairwise_cons.2 ⟨fun s hs => ?_, ih hrest⟩
        rcases mem_insertName.1 hs with rfl | hs
        · exact hgt
        · exact hother s hs

theorem mem_foldl_insertName (fs : List Field) :
    entity ∈ fs.foldl (fun names f => insertName f.entity names) names ↔
      entity ∈ names ∨ ∃ f ∈ fs, f.entity = entity := by
  induction fs generalizing names with
  | nil => simp
  | cons f rest ih =>
    rw [List.foldl_cons, ih, mem_insertName, List.exists_mem_cons_iff, or_assoc, or_left_comm,
      @eq_comm _ entity]

theorem mem_entities : entity ∈ r.entities ↔ ∃ f ∈ r.fields, f.entity = entity := by
  rw [entities, mem_foldl_insertName]
  simp

/-- **Entities rise.** -/
theorem pairwise_entities (r : Registry) : r.entities.Pairwise (· < ·) :=
  List.foldlRecOn r.fields _ .nil fun _ h f _ => pairwise_insertName h f.entity

theorem mem_fieldsOf : f ∈ r.fieldsOf (some entity) ↔ f ∈ r.fields ∧ f.entity = entity := by
  simp [fieldsOf]

theorem fieldsOf_eq_nil (h : entity ∉ r.entities) : r.fieldsOf (some entity) = [] := by
  refine List.eq_nil_iff_forall_not_mem.2 fun f hf => ?_
  obtain ⟨hmem, rfl⟩ := mem_fieldsOf.1 hf
  exact h (mem_entities.2 ⟨f, hmem, rfl⟩)

theorem nodup_fields (r : Registry) : r.fields.Nodup := r.distinct.of_map

/-- **The lists of the entities divide the fields.** -/
theorem flatMap_fieldsOf_perm (r : Registry) :
    (r.entities.flatMap fun entity => r.fieldsOf (some entity)).Perm r.fields := by
  have hnodup : (r.entities.flatMap fun entity => r.fieldsOf (some entity)).Nodup := by
    refine List.nodup_flatMap.2 ⟨fun entity _ => r.nodup_fields.filter _, ?_⟩
    refine r.pairwise_entities.imp fun {a b} hlt f ha hb => ?_
    rw [mem_fieldsOf] at ha hb
    exact String.ne_of_lt hlt (ha.2.symm.trans hb.2)
  refine (List.perm_ext_iff_of_nodup hnodup r.nodup_fields).2 fun f => ?_
  rw [List.mem_flatMap]
  constructor
  · rintro ⟨entity, -, hf⟩
    exact (mem_fieldsOf.1 hf).1
  · exact fun hf => ⟨f.entity, mem_entities.2 ⟨f, hf, rfl⟩, mem_fieldsOf.2 ⟨hf, rfl⟩⟩

end Entities

/-! ## Catalogs -/

/-- What is found in the registry of some fields. -/
structure Catalogs (r : Registry) (fs : List Field) : Prop where
  /-- All fields are listed as they were given. -/
  all : r.fieldsOf none = fs
  /-- The field with an id is the one that was given with it. -/
  resolved : ∀ id f, r.resolve id = .ok f ↔ f ∈ fs ∧ f.id = id
  unique : ∀ f ∈ fs, ∀ g ∈ fs, f.id = g.id → f = g
  /-- An id is unknown if the registry does not contain it, and nothing else goes wrong. -/
  unknown : ∀ id e, r.resolve id = .error e ↔ r.contains id = false ∧ e = .unknownField id
  /-- The index of positions leads to the same fields. -/
  indexed : ∃ index, indexOf fs = .ok index ∧ index.Locates fs ∧ ∀ id : String,
    (index[id]?).bind (fs[·]?) = r.find? id ∧ index.contains id = r.contains id
  rising : r.entities.Pairwise (· < ·)
  /-- The lists of the entities hold each field once. -/
  once : fs.Nodup ∧ (r.entities.flatMap fun entity => r.fieldsOf (some entity)).Perm fs
  listed : ∀ entity f, f ∈ r.fieldsOf (some entity) ↔ f ∈ fs ∧ f.entity = entity
  ordered : ∀ entity, (r.fieldsOf (some entity)).Sublist fs
  foreign : ∀ entity, entity ∉ r.entities → r.fieldsOf (some entity) = []

theorem catalogs_of_ofFields (h : ofFields fs = .ok r) : r.Catalogs fs := by
  obtain rfl := fields_of_ofFields h
  have hindex := indexOf_spec r.fields
  rw [h] at hindex
  obtain ⟨index, hindex, hlocates⟩ := hindex
  exact {
    all := rfl
    resolved := fun id f => resolve_eq_ok_iff.trans find?_eq_some_iff
    unique := fun f hf g hg => r.eq_of_id_eq hf hg
    unknown := fun id e => resolve_eq_error_iff
    indexed := ⟨index, hindex, hlocates, fun id =>
      ⟨bind_getElem?_eq_find? hlocates id, contains_index_eq hlocates id⟩⟩
    rising := r.pairwise_entities
    once := ⟨r.nodup_fields, r.flatMap_fieldsOf_perm⟩
    listed := fun entity f => mem_fieldsOf
    ordered := fun entity => List.filter_sublist
    foreign := fun entity => fieldsOf_eq_nil }

/-- **Fields and their registry.**  Fields make a registry exactly if they keep the rules; otherwise the
first field that breaks one after those before it is reported, its values before its id.  An index of
positions fails alike.  In a registry each id leads to its field, and the lists of the entities divide the
fields, each in the order in which they were given. -/
theorem ofFields_catalogs (fs : List Field) :
    ((∃ r, ofFields fs = .ok r) ↔ Keeps fs) ∧
      (∀ e, ofFields fs = .error e ↔
        ∃ before f after, fs = before ++ f :: after ∧ Keeps before ∧ Breaks before f e) ∧
      (∀ e, indexOf fs = .error e ↔ ofFields fs = .error e) ∧
      ∀ r, ofFields fs = .ok r → r.Catalogs fs :=
  ⟨exists_ofFields_iff, fun _ => ofFields_eq_error_iff, fun _ => indexOf_eq_error_iff,
    fun _ => catalogs_of_ofFields⟩

/-- Fields of two entities in turn, and an id that comes again with a field that declares no values. -/
theorem ofFields_catalogs_interleaved :
    let region : Field := .unrestricted "region" "Region" .text "sales"
    let stock : Field := .unrestricted "stock" "Stock" .text "items"
    let day : Field := .unrestricted "day" "Day" .text "sales"
    (∃ r, ofFields [region, stock, day] = .ok r ∧ r.Catalogs [region, stock, day] ∧
      r.entities = ["items", "sales"] ∧ r.fieldsOf (some "sales") = [region, day]) ∧
      ofFields [region, { stock with id := "region", type := .enum }, day, day] =
        .error (.missingEnumValues "region") := by
  intro region stock day
  obtain ⟨hmake, -, -, hcatalogs⟩ := ofFields_catalogs [region, stock, day]
  obtain ⟨r, hr⟩ := hmake.2 ⟨by decide, by decide, by decide⟩
  refine ⟨⟨r, hr, hcatalogs r hr, ?_, ?_⟩, ?_⟩
  · rw [entities, fields_of_ofFields hr]
    decide
  · rw [fieldsOf, fields_of_ofFields hr]
    decide
  · exact ((ofFields_catalogs _).2.1 _).2 ⟨[region], _, [day, day], rfl,
      ⟨by decide, by decide, by decide⟩, .missing rfl rfl⟩

end Reporting.Registry
