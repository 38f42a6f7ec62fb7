import Reporting.Proofs.Query.Validation
import Reporting.Proofs.Run.Capacity

/-!
# Proofs/Run/Redundancy — what a definition says twice makes no difference

A definition may select a field again, put a clause twice, and sort by a field that it sorts by already.
None of that shows.  `Definition.Restates` says how such things come and go, one at a time.  Each step
keeps all that a run asks of its definition (`Restates.asksAlike`): whether it is well formed, which
records it keeps, and what report it means.  So do any number of steps, and two plans that ask for the
same come to the same run, although they number their slots differently (`Plan.Resolution.runPlan_congr`).
-/

namespace Reporting

variable {r : Registry} {d d' : Definition} {p p' : Plan} {bound : Option Nat} {items : List Item}

/-! ## Fields -/

/-- What occurs before may be left out of a list that has it. -/
theorem mem_append_cons_of_mem {α : Type} {x y : α} {front : List α} (h : x ∈ front) (back : List α) :
    y ∈ front ++ x :: back ↔ y ∈ front ++ back := by
  rw [List.mem_append, List.mem_append, List.mem_cons]
  refine or_congr_right' fun hnot => or_iff_right ?_
  rintro rfl
  exact hnot h

/-- What occurs before does not occur for the first time. -/
theorem firstOccurrences_append_cons {front : List String} {id : String} (h : id ∈ front)
    (back : List String) : firstOccurrences (front ++ id :: back) = firstOccurrences (front ++ back) := by
  have happend (xs : List String) :
      firstOccurrences (front ++ xs) = addNew (addNew [] front) xs := List.foldl_append
  rw [happend, happend, addNew_cons_of_mem (mem_addNew.2 (.inr h))]

/-! ## Sort keys -/

namespace SortKey

variable {a b : Record}

theorem compareBy_cons (key : SortKey) (keys : List SortKey) (a b : Record) :
    compareBy r (key :: keys) a b = (key.compare r a b).then (compareBy r keys a b) := rfl

/-- **Records that a key does not tell apart are not told apart by any key on its field**, whatever its
direction. -/
theorem compare_eq_of_fieldId {key other : SortKey} (hid : key.fieldId = other.fieldId)
    (h : key.compare r a b = .eq) : other.compare r a b = .eq := by
  rw [SortKey.compare, hid] at h
  rw [SortKey.compare]
  cases hfind : r.find? other.fieldId with
  | none => rfl
  | some f =>
    rw [hfind] at h
    dsimp only at h ⊢
    generalize f.valueIn a = x, f.valueIn b = y at h ⊢
    cases x with
    | none => cases y <;> exact h
    | some v =>
      cases y with
      | none => exact h
      | some w =>
        have hvalues : SlotKey.compareValues f v w = .eq := by
          cases hdirection : key.direction with
          | asc => rwa [hdirection] at h
          | desc =>
            rw [hdirection] at h
            exact Ordering.swap_eq_eq.1 h
        cases other.direction with
        | asc => exact hvalues
        | desc => exact Ordering.swap_eq_eq.2 hvalues

/-- A key that does not tell two records apart leaves them to the others. -/
theorem compareBy_append_cons_of_eq {key : SortKey} (h : key.compare r a b = .eq)
    (front back : List SortKey) :
    compareBy r (front ++ key :: back) a b = compareBy r (front ++ back) a b := by
  induction front with
  | nil =>
    rw [List.nil_append, compareBy_cons, h]
    rfl
  | cons first rest ih => rw [List.cons_append, compareBy_cons, ih, ← compareBy_cons, List.cons_append]

/-- **A key on a field that a key before it is on decides nothing**: the records that come as far as this
are tied under both. -/
theorem compareBy_append_cons {front : List SortKey} {key : SortKey}
    (h : ∃ earlier ∈ front, earlier.fieldId = key.fieldId) (back : List SortKey) :
    compareBy r (front ++ key :: back) = compareBy r (front ++ back) := by
  funext a b
  induction front with
  | nil =>
    obtain ⟨_, hmem, -⟩ := h
    cases hmem
  | cons first rest ih =>
    rw [List.cons_append, List.cons_append, compareBy_cons, compareBy_cons]
    cases hfirst : first.compare r a b with
    | lt => rfl
    | gt => rfl
    | eq =>
      obtain ⟨earlier, hmem, hid⟩ := h
      rcases List.mem_cons.1 hmem with rfl | hmem
      · exact compareBy_append_cons_of_eq (compare_eq_of_fieldId hid hfirst) rest back
      · exact ih ⟨earlier, hmem, hid⟩

end SortKey

/-! ## Restating -/

namespace Definition

/-- Whether a definition is another one with something left out that is said before, or with its clauses
in another order, some of them more or less often. -/
inductive Restates : Definition → Definition → Prop
  /-- A field that is selected before is not selected again. -/
  | field {d : Definition} {front back : List String} {id : String}
    (hfields : d.fields = front ++ id :: back) (hid : id ∈ front) :
    Restates d { d with fields := front ++ back }
  /-- There are the same clauses. -/
  | filters {d : Definition} {filters : List Clause} (h : ∀ c, c ∈ filters ↔ c ∈ d.filters) :
    Restates d { d with filters }
  /-- A sort key whose field has a sort key before it, in whichever direction, is left out. -/
  | sort {d : Definition} {front back : List SortKey} {key : SortKey}
    (hsort : d.sort = front ++ key :: back) (hkey : ∃ earlier ∈ front, earlier.fieldId = key.fieldId) :
    Restates d { d with sort := front ++ back }

/-- Whether all that runs ask of a definition is the same for another. -/
structure AsksAlike (r : Registry) (d d' : Definition) : Prop where
  wellFormed : d.WellFormed r → d'.WellFormed r
  keeps : d.keeps r = d'.keeps r
  meaning : d.meaning r = d'.meaning r

theorem AsksAlike.trans {d'' : Definition} (h : AsksAlike r d d') (h' : AsksAlike r d' d'') :
    AsksAlike r d d'' :=
  ⟨h'.wellFormed ∘ h.wellFormed, h.keeps.trans h'.keeps, h.meaning.trans h'.meaning⟩

/-- A definition that says less keeps the rules that it kept. -/
theorem WellFormed.of_subset (h : d.WellFormed r) {fields : List String} {filters : List Clause}
    {sort : List SortKey} (hfields : fields ⊆ d.fields) (hfilters : filters ⊆ d.filters)
    (hsort : sort ⊆ d.sort) : WellFormed r { d with fields, filters, sort } where
  registered := by
    intro id hid
    refine h.registered id ?_
    simp only [mentions, List.mem_append, or_assoc] at hid ⊢
    exact hid.imp (hfields ·) (.imp (List.map_subset _ hfilters ·) (.imp_left (List.map_subset _ hsort ·)))
  filters c hc := h.filters c (hfilters hc)
  sort key hkey := h.sort key (hsort hkey)
  groupable := h.groupable
  distinct := h.distinct
  grouped := h.grouped
  accounted haggregations id hid := h.accounted haggregations id (hfields hid)
  columns := h.columns
  targets := h.targets

/-- Malformed cells are counted once for every field that is mentioned, however often. -/
theorem malformedCells_congr (h : ∀ id, id ∈ d.mentions ↔ id ∈ d'.mentions) :
    d.malformedCells r = d'.malformedCells r := by
  have hreferenced : d.referenced.Perm d'.referenced := by
    refine (List.perm_ext_iff_of_nodup (nodup_firstOccurrences _) (nodup_firstOccurrences _)).2 ?_
    intro id
    rw [mem_firstOccurrences, mem_firstOccurrences, h]
  funext record
  exact hreferenced.countP_eq _

/-- Selecting a field again makes no column and no cell. -/
theorem asksAlike_field {front back : List String} {id : String} (hfields : d.fields = front ++ id :: back)
    (hid : id ∈ front) : AsksAlike r d { d with fields := front ++ back } where
  wellFormed h := h.of_subset (by simp [hfields]) (List.Subset.refl _) (List.Subset.refl _)
  keeps := rfl
  meaning := by
    have hselected (name : String) : name ∈ d.fields ↔ name ∈ front ++ back :=
      hfields ▸ mem_append_cons_of_mem hid back
    have hcolumns : d.columns r = columns { d with fields := front ++ back } r := by
      rw [columns, columns, hfields, firstOccurrences_append_cons hid]
      rfl
    have hrow : d.rowOf r = rowOf { d with fields := front ++ back } r := by
      funext record
      exact Json.Members.ofList_map_congr _ hselected
    have hpartition : d.partitionOf r = partitionOf { d with fields := front ++ back } r := by
      funext sorted leader
      rw [partitionOf, partitionOf, ← hrow]
      rfl
    have hmalformed : d.malformedCells r = malformedCells { d with fields := front ++ back } r := by
      refine malformedCells_congr fun name => ?_
      simp only [mentions, List.mem_append, hselected]
    funext items
    rw [meaning, meaning, hcolumns, hrow, hpartition, hmalformed]
    rfl

/-- Which records pass the filters is a question of the clauses that there are. -/
theorem asksAlike_filters {filters : List Clause} (h : ∀ c, c ∈ filters ↔ c ∈ d.filters) :
    AsksAlike r d { d with filters } := by
  have hkeeps : d.keeps r = keeps { d with filters } r := by
    funext record
    rw [keeps, keeps, Bool.eq_iff_iff, List.all_eq_true, List.all_eq_true]
    exact forall_congr' fun c => imp_congr_left (h c).symm
  have hmalformed : d.malformedCells r = malformedCells { d with filters } r := by
    refine malformedCells_congr fun name => ?_
    simp only [mentions, List.mem_append, List.mem_map, h]
  refine ⟨fun hd => hd.of_subset (List.Subset.refl _) (fun c => (h c).1) (List.Subset.refl _), hkeeps, ?_⟩
  funext items
  have hselection : d.selection r items = selection { d with filters } r items := by
    rw [selection, selection, hkeeps]
  rw [meaning, meaning, hselection, hmalformed]
  rfl

/-- Sorting by a field again moves no record and no group. -/
theorem asksAlike_sort {front back : List SortKey} {key : SortKey} (hsort : d.sort = front ++ key :: back)
    (hkey : ∃ earlier ∈ front, earlier.fieldId = key.fieldId) :
    AsksAlike r d { d with sort := front ++ back } where
  wellFormed h := h.of_subset (List.Subset.refl _) (List.Subset.refl _) (by simp [hsort])
  keeps := rfl
  meaning := by
    have hselection : d.selection r = selection { d with sort := front ++ back } r := by
      funext items
      rw [selection, selection, hsort, SortKey.compareBy_append_cons hkey]
      rfl
    have hgroups : SortKey.compareBy r d.groupSort =
        SortKey.compareBy r (groupSort { d with sort := front ++ back }) := by
      rw [groupSort, groupSort, hsort, List.filter_append, List.filter_append]
      by_cases hgrouped : key.fieldId ∈ d.groupBy
      · rw [List.filter_cons_of_pos (by simpa using hgrouped)]
        obtain ⟨earlier, hmem, hid⟩ := hkey
        refine SortKey.compareBy_append_cons ⟨earlier, List.mem_filter.2 ⟨hmem, ?_⟩, hid⟩ _
        simpa [hid] using hgrouped
      · rw [List.filter_cons_of_neg (by simpa using hgrouped)]
    have hleaders : d.groupLeaders r = groupLeaders { d with sort := front ++ back } r := by
      funext sorted
      rw [groupLeaders, groupLeaders, hgroups]
    have hmalformed : d.malformedCells r = malformedCells { d with sort := front ++ back } r := by
      refine malformedCells_congr fun name => ?_
      obtain ⟨earlier, hmem, hid⟩ := hkey
      have hname : name ∈ d.sort.map (·.fieldId) ↔ name ∈ (front ++ back).map (·.fieldId) := by
        rw [hsort, List.map_append, List.map_append, List.map_cons]
        exact mem_append_cons_of_mem (hid ▸ List.mem_map_of_mem hmem) _
      simp only [mentions, List.mem_append, hname]
    funext items
    rw [meaning, meaning, hselection, hleaders, hmalformed]
    rfl

/-- **A restated definition asks for the same.** -/
theorem Restates.asksAlike (h : Restates d d') : AsksAlike r d d' := by
  cases h with
  | field hfields hid => exact asksAlike_field hfields hid
  | filters h => exact asksAlike_filters h
  | sort hsort hkey => exact asksAlike_sort hsort hkey

/-- A definition that is restated any number of times asks for the same. -/
theorem asksAlike_of_reflTransGen (h : Relation.ReflTransGen Restates d d') : AsksAlike r d d' := by
  induction h with
  | refl => exact ⟨id, rfl, rfl⟩
  | tail _ hlast ih => exact ih.trans hlast.asksAlike

end Definition

/-! ## Runs -/

/-- What a run is called off with, or gives, once it has read all records. -/
theorem Engine.conclude_of_resolution (h : Plan.Resolution r d p) (token : Token) (items : List Item) :
    conclude p token (p.after d r {} items) =
      if Stage.afterReading.any fun stage => token ⟨stage, 1, items.length⟩ then .error .cancelled
      else .ok (d.meaning r items) := by
  have hpulled : (p.after d r {} items).pulled = items.length := Nat.zero_add _
  rw [conclude, hpulled, h.report_after]

namespace Plan.Resolution

/-- Records for which there is room are all taken in. -/
theorem acceptAll_of_room (h : Resolution r d p)
    (hroom : HasRoom bound ((Item.records items).filter (d.keeps r)).length) :
    Intake.acceptAll p bound {} items = (.ok (p.after d r {} items), items.length) := by
  have hheld : HasRoom bound (p.after d r {} items).reversed.length := by
    rw [length_reversed_after]
    exact (Nat.zero_add _).symm ▸ hroom
  have htaken := h.acceptAll_of_hasRoom (s := {}) hheld []
  rw [List.append_nil, Intake.acceptAll] at htaken
  exact htaken.trans (Prod.ext rfl (Nat.zero_add _))

/-- **Plans that ask for the same come to the same run**, whatever their slots. -/
theorem runPlan_congr (h : Resolution r d p) (h' : Resolution r d' p')
    (hkeeps : d.keeps r = d'.keeps r) (hmeaning : d.meaning r = d'.meaning r)
    (source : Except SourceError (List Item)) (token : Token) :
    Engine.runPlan p source (Intake.acceptAll p bound {}) token =
      Engine.runPlan p' source (Intake.acceptAll p' bound {}) token := by
  unfold Engine.runPlan
  split
  · rfl
  cases source with
  | error cause => rfl
  | ok items =>
    dsimp only
    by_cases hroom : HasRoom bound ((Item.records items).filter (d.keeps r)).length
    · rw [h.acceptAll_of_room hroom, h'.acceptAll_of_room (hkeeps ▸ hroom)]
      dsimp only
      rw [Engine.conclude_of_resolution h, Engine.conclude_of_resolution h', hmeaning]
    · -- The first record beyond the bound ends both runs.
      obtain ⟨limit, rfl, hmore⟩ := exists_of_not_hasRoom hroom
      obtain ⟨before, record, rest, rfl, hkept, hfull⟩ := Item.exists_record_of_lt hmore
      rw [h.acceptAll_of_full hkept hfull, h'.acceptAll_of_full (hkeeps ▸ hkept) (hkeeps ▸ hfull)]

end Plan.Resolution

namespace Engine

/-- **What a definition says twice makes no difference.**  Take a definition that is accepted, and
another that says the same with fewer repetitions or more: some fields are not selected again, the same
clauses come in another order and any number of times, some sort keys on fields that a key before them is
on are left out.  That definition is accepted as well, and its runs on any source are those of the first:
the report or the error, how often the source was opened and how many items were taken from it, under any
bound, for a token that may be set at any moment, and whether the items are there or arrive. -/
theorem same_run_of_restates {e : Engine} (hvalid : e.validate d = .ok p)
    (h : Relation.ReflTransGen Definition.Restates d d') :
    (∃ p', e.validate d' = .ok p') ∧
      (∀ source token, e.execute d' source token = e.execute d source token) ∧
      ∀ source token, e.executeStream d' source token = e.executeStream d source token := by
  have halike : Definition.AsksAlike e.registry d d' := Definition.asksAlike_of_reflTransGen h
  have hp := Plan.resolution_of_ofDefinition hvalid
  obtain ⟨p', hvalid'⟩ := Plan.exists_of_wellFormed (halike.wellFormed hp.wellFormed)
  have hp' := Plan.resolution_of_ofDefinition hvalid'
  have hrun (source : Except SourceError (List Item)) (token : Token) :
      e.execute d' source token = e.execute d source token := by
    rw [execute_of_validate hvalid', execute_of_validate hvalid]
    exact (hp.runPlan_congr hp' halike.keeps halike.meaning source token).symm
  refine ⟨⟨p', hvalid'⟩, hrun, fun source token => ?_⟩
  rw [executeStream_eq_execute, executeStream_eq_execute, hrun]

/-- The report on sales selects amounts twice.  It is the same if it does so once, asks for a known city
twice, and leaves out that cities that are one and the same are to be sorted the other way round. -/
theorem same_run_of_restates_sales :
    execute ⟨.sales, none⟩
        { Definition.salesByCity with
          fields := ["amount", "city"], filters := [.isNotNull "city", .isNotNull "city"] }
        (.ok Item.sales) .clear =
      execute ⟨.sales, none⟩ (Definition.salesByCity.addSort ⟨"city", .asc⟩) (.ok Item.sales) .clear := by
  have hfield : Definition.Restates (Definition.salesByCity.addSort ⟨"city", .asc⟩) _ :=
    .field (rfl : _ = ["amount", "city"] ++ "amount" :: []) (by decide)
  have hsort : Definition.Restates { Definition.salesByCity.addSort ⟨"city", .asc⟩ with
      fields := ["amount", "city"] ++ [] } _ :=
    .sort (rfl : Definition.sort _ = [⟨"city", .desc⟩] ++ ⟨"city", .asc⟩ :: [])
      ⟨_, List.mem_singleton_self _, rfl⟩
  have hfilters (c : Clause) : c ∈ [Clause.isNotNull "city", .isNotNull "city"] ↔
      c ∈ Definition.salesByCity.filters := by
    simp [Definition.salesByCity]
  exact (same_run_of_restates (by rfl : validate ⟨.sales, none⟩ _ = .ok _)
    (.tail (.tail (.single hfield) hsort) (.filters hfilters))).2.1 (.ok Item.sales) .clear

end Engine

end Reporting
