import Reporting.Proofs.Run.Partitions

/-!
# Proofs/Run/DrillDown — the records behind a group

Whether two values are equal is decided twice: groups compare bits, filters compare values.  A group
is asked for again by a filter on each value of its key, so both ways have to agree, and it makes no
difference that the filter comes before the sorting and the grouping after it
(`Definition.selection_drillDown`).  `Engine.drillDown_of_outcome` says so of runs: the report on the
records behind a group has the rows of the group, in their order.
-/

namespace Reporting

variable {r : Registry} {d : Definition} {p : Plan} {key : List (Option Value)}

/-! ## Keys as filters -/

/-- The clause made from a cell holds of the cells like it. -/
theorem Clause.holds_alike (id : String) (v cell : Option Value) :
    (Clause.alike id v).holds cell = cellsAlike v cell := by
  cases v with
  | none => cases cell <;> rfl
  | some v =>
    cases cell with
    | none => rfl
    | some w => exact Value.same_comm w v

/-- **The clauses made from a key hold of the records with that key.** -/
theorem Registry.all_holds_alike {ids : List String} (h : key.length = ids.length)
    (record : Record) : ((ids.zipWith Clause.alike key).all fun c =>
      c.holds (r.valueIn c.fieldId record)) = r.hasKey ids key record := by
  induction ids generalizing key with
  | nil =>
    rw [List.length_eq_zero_iff.1 h]
    rfl
  | cons id rest ih =>
    obtain ⟨v, key, rfl⟩ := List.exists_cons_of_length_eq_add_one h
    have hid : (Clause.alike id v).fieldId = id := by cases v <;> rfl
    rw [List.zipWith_cons_cons, List.all_cons, hid, Clause.holds_alike, hasKey,
      ih (Nat.succ.inj h)]

namespace Definition

/-- Drilling down keeps the records of the report that have the key. -/
theorem keeps_drillDown (h : key.length = d.groupBy.length) (record : Record) :
    (d.drillDown key).keeps r record = (d.keeps r record && r.hasKey d.groupBy key record) := by
  rw [keeps, drillDown, List.all_append, Registry.all_holds_alike h]
  rfl

/-- **A definition that asks more of its records selects the ones for which that holds as well** —
filters come before sorting, and the rest is looked at after it. -/
theorem selection_filter {d' : Definition} {q : Record → Bool}
    (hkeeps : ∀ record, d'.keeps r record = (d.keeps r record && q record)) (hsort : d'.sort = d.sort)
    (items : List Item) : d'.selection r items = (d.selection r items).filter q := by
  have horder := SortKey.ordersOn_compareBy r d.sort
  rw [selection, selection, hsort, horder.filter_insertionSortBy _ fun _ _ => trivial,
    List.filter_filter]
  congr 1
  refine List.filter_congr fun record _ => ?_
  rw [hkeeps, Bool.and_comm]

/-- **Drilling down selects what the report selects, less the records without the key.** -/
theorem selection_drillDown (h : key.length = d.groupBy.length) (items : List Item) :
    (d.drillDown key).selection r items =
      (d.selection r items).filter (r.hasKey d.groupBy key) :=
  selection_filter (keeps_drillDown h) rfl items

/-- Drilling down to the key of a leader selects the records of its group. -/
theorem selection_drillDown_leader (items : List Item) (leader : Record) :
    (d.drillDown (d.groupBy.map fun id => r.valueIn id leader)).selection r items =
      d.groupOf r (d.selection r items) leader := by
  rw [selection_drillDown (List.length_map _), groupOf]
  exact List.filter_congr fun record _ => Registry.hasKey_map d.groupBy leader record

/-- The report on the records behind a group lists them all. -/
theorem meaning_drillDown (key : List (Option Value)) (items : List Item) :
    ((d.drillDown key).meaning r items).totalRows = ((d.drillDown key).selection r items).length ∧
      ((d.drillDown key).meaning r items).rows =
        ((d.drillDown key).selection r items).map (d.rowOf r) := ⟨rfl, rfl⟩

/-- A definition without its page. -/
def unpaged (d : Definition) : Definition := { d with limit := none, offset := 0 }

end Definition

/-! ## Groups of a plan -/

/-- The groups that a plan makes of the records among some items. -/
def Plan.groupsIn (p : Plan) (items : List Item) : List RowGroup :=
  p.groupsOf (sortRows p.sort (((Item.records items).map p.read).filter p.accepts))

/-- **The groups that a plan makes are those of the leaders** among the records selected. -/
theorem Plan.Resolution.groupsIn_eq (h : Resolution r d p) (items : List Item) :
    p.groupsIn items =
      (d.groupLeaders r (d.selection r items)).map (p.groupOf d r (d.selection r items)) := by
  have hrows : ((Item.records items).map p.read).filter p.accepts =
      ((Item.records items).filter (d.keeps r)).map p.read := by
    rw [List.filter_map]
    congr 2
    funext record
    exact h.accepts_read record
  have hsorted : sortRows p.sort (((Item.records items).filter (d.keeps r)).map p.read) =
      (d.selection r items).map p.read := h.sortRows_read _
  rw [groupsIn, hrows, hsorted, h.groupsOf_read]

/-! ## Runs -/

namespace Engine

/-- A run with a report has a plan. -/
theorem exists_plan_of_outcome {e : Engine} {source : Except SourceError (List Item)}
    {token : Token} {report : Report} (h : (e.execute d source token).outcome = .ok report) :
    ∃ p, Plan.ofDefinition e.registry d = .ok p := by
  rw [execute] at h
  split at h
  · cases h
  · exact ⟨_, ‹_›⟩

/-- **The records behind a group are its members.**  Take any report with groups and without a page
that comes of a run, and one of the groups that the run made.  A definition that selects the records
with the values of the key of that group, if it passes its checks, runs on the same source to a report
with as many rows as the group has members, and with the rows of the group, in their order. -/
theorem drillDown_of_outcome {e : Engine} {source : Except SourceError (List Item)} {token : Token}
    {report : Report} (hgrouped : d.isGrouped)
    (h : (e.execute d.unpaged source token).outcome = .ok report) :
    ∃ p items set, Plan.ofDefinition e.registry d.unpaged = .ok p ∧ source = .ok items ∧
      report.groups = some set ∧ set.partitions = (p.groupsIn items).map p.partition ∧
      ∀ g ∈ p.groupsIn items, ∀ p', Plan.ofDefinition e.registry (d.drillDown g.key) = .ok p' →
        ∃ drilled, execute ⟨e.registry, none⟩ (d.drillDown g.key) source Token.clear =
            ⟨.ok drilled, 1, items.length⟩ ∧
          drilled.totalRows = g.members.length ∧ drilled.rows = (p.partition g).rows := by
  obtain ⟨p, hplan⟩ := exists_plan_of_outcome h
  obtain ⟨items, rfl, rfl⟩ := eq_meaning_of_outcome h
  have hp := Plan.resolution_of_ofDefinition hplan
  have hgroups : (d.unpaged.meaning e.registry items).groups = some ⟨d.groupBy, _, _⟩ :=
    if_pos hgrouped
  refine ⟨p, items, _, hplan, rfl, hgroups, ?_, ?_⟩
  · rw [hp.groupsIn_eq, List.map_map]
    exact List.map_congr_left fun leader _ => (hp.partition_groupOf _ leader).symm
  · intro g hg p' hp'
    rw [hp.groupsIn_eq] at hg
    obtain ⟨leader, -, rfl⟩ := List.mem_map.1 hg
    have hselection := d.unpaged.selection_drillDown_leader (r := e.registry) items leader
    obtain ⟨htotal, hrows⟩ := d.unpaged.meaning_drillDown (r := e.registry)
      (d.groupBy.map fun id => e.registry.valueIn id leader) items
    have hdrilled := (execute_of_validate (e := ⟨e.registry, none⟩) hp' (.ok items) .clear).trans
      (runPlan_of_resolution (Plan.resolution_of_ofDefinition hp') items)
    refine ⟨_, hdrilled, ?_, ?_⟩
    · refine htotal.trans ?_
      rw [Plan.groupOf, List.length_map]
      exact congrArg List.length hselection
    · rw [hp.partition_groupOf]
      exact hrows.trans (congrArg (List.map (d.rowOf e.registry)) hselection)

/-- The report on sales has a group for Rome, behind which is one sale. -/
theorem drillDown_of_outcome_sales : ∃ report drilled,
    (execute ⟨.sales, none⟩ Definition.salesByCity.unpaged (.ok Item.sales) Token.clear).outcome =
      .ok report ∧
    execute ⟨.sales, none⟩ (Definition.salesByCity.drillDown [some (.text "Rome")])
      (.ok Item.sales) Token.clear = ⟨.ok drilled, 1, 3⟩ ∧ drilled.totalRows = 1 := by
  have hrun : ∃ report, (execute ⟨.sales, none⟩ Definition.salesByCity.unpaged (.ok Item.sales)
      Token.clear).outcome = .ok report := ⟨_, rfl⟩
  obtain ⟨report, hrun⟩ := hrun
  obtain ⟨p, items, set, hplan, hitems, -, -, hdrill⟩ := drillDown_of_outcome rfl hrun
  cases hitems
  have hrome : Plan.groupOf p Definition.salesByCity .sales
      (Definition.salesByCity.selection .sales Item.sales) [("city", .string "Rome")] ∈
      p.groupsIn Item.sales := by
    rw [(Plan.resolution_of_ofDefinition hplan).groupsIn_eq]
    exact List.mem_map_of_mem List.mem_cons_self
  obtain ⟨drilled, hdrilled, htotal, -⟩ := hdrill _ hrome _ rfl
  exact ⟨report, drilled, hrun, hdrilled, htotal⟩

end Engine

end Reporting
