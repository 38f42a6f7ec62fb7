import Reporting.Proofs.Run.Arrival

/-!
# Proofs/Run/Paging — a page is part of the whole report

Offset and limit are the last thing that a run looks at: they leave out rows and groups and touch
nothing else.  So a run for a page comes to the run for everything, less what is not on the page
(`Engine.pages_of_report`), and pages one after another give back every row and every group.
-/

namespace Reporting

variable {r : Registry} {d : Definition} {p : Plan} {offset : Nat} {limit : Option Nat}

/-! ## Pages of lists -/

section Lists

variable {α : Type}

/-- A page leaves out as many items as the offset says, and takes as many as the limit says, all if it
says nothing. -/
theorem window_eq (offset : Nat) (limit : Option Nat) (xs : List α) :
    window offset limit xs = (xs.drop offset).take (limit.getD xs.length) := by
  cases limit with
  | none =>
    refine (List.take_of_length_le ?_).symm
    exact List.length_drop ▸ Nat.sub_le xs.length offset
  | some n => rfl

/-- What is written of a page is a page of what is written. -/
theorem map_window {β : Type} (f : α → β) (offset : Nat) (limit : Option Nat) (xs : List α) :
    (window offset limit xs).map f = ((xs.map f).drop offset).take (limit.getD (xs.map f).length) := by
  rw [← window_eq, window_map]

/-- **Pages of one size, one after another, are what they come from up to their end.** -/
theorem flatMap_pages (size count : Nat) (xs : List α) :
    ((List.range count).flatMap fun i => (xs.drop (i * size)).take size) =
      xs.take (count * size) := by
  induction count with
  | zero => simp
  | succ n ih =>
    rw [List.range_succ, List.flatMap_append, ih, Nat.succ_mul, List.take_add, List.flatMap_singleton]

end Lists

/-! ## Pages of reports -/

namespace Definition

/-- A definition with another offset and another limit. -/
def paged (d : Definition) (offset : Nat) (limit : Option Nat) : Definition :=
  { d with offset, limit }

end Definition

namespace Report

/-- The groups of a report that are listed. -/
def partitions (report : Report) : List Partition :=
  (report.groups.map (·.partitions)).getD []

/-- Some rows of a report with their groups, if it has groups: those that are left when as many as the
offset says are left out, and no more than the limit says.  Everything else is as it was. -/
def page (offset : Nat) (limit : Option Nat) (report : Report) : Report where
  columns := report.columns
  rows := (report.rows.drop offset).take (limit.getD report.rows.length)
  totalRows := report.totalRows
  elapsed := report.elapsed
  groups := report.groups.map fun groups =>
    { groups with
      partitions := (groups.partitions.drop offset).take (limit.getD groups.partitions.length) }
  skipped := report.skipped
  malformed := report.malformed

theorem partitions_page (report : Report) : (report.page offset limit).partitions =
    (report.partitions.drop offset).take (limit.getD report.partitions.length) := by
  rw [partitions, partitions, page]
  cases report.groups with
  | none => simp
  | some groups => rfl

end Report

/-- A run whose report is cut to a page, if there is one. -/
def Run.page (offset : Nat) (limit : Option Nat) (run : Run) : Run :=
  { run with outcome := run.outcome.map (Report.page offset limit) }

/-! ## Pages of plans -/

namespace Plan

/-- A plan with another offset and another limit. -/
def paged (p : Plan) (offset : Nat) (limit : Option Nat) : Plan := { p with offset, limit }

@[simp] theorem isGrouped_paged (p : Plan) : (p.paged offset limit).isGrouped = p.isGrouped := rfl

@[simp] theorem columns_paged (p : Plan) : (p.paged offset limit).columns = p.columns := rfl

@[simp] theorem groupsOf_paged (p : Plan) : (p.paged offset limit).groupsOf = p.groupsOf := rfl

@[simp] theorem summary_paged (p : Plan) : (p.paged offset limit).summary = p.summary := rfl

@[simp] theorem project_paged (p : Plan) : (p.paged offset limit).project = p.project := rfl

@[simp] theorem partition_paged (p : Plan) : (p.paged offset limit).partition = p.partition := rfl

/-- **Offset and limit do not take part in the checks of a definition.** -/
theorem ofDefinition_paged (r : Registry) (d : Definition) (offset : Nat) (limit : Option Nat) :
    ofDefinition r (d.paged offset limit) =
      (ofDefinition r (d.paged 0 none)).map fun p => p.paged offset limit := by
  change _ = (fun p : Plan => p.paged offset limit) <$> ofDefinition r (d.paged 0 none)
  simp only [ofDefinition, map_bind]
  rfl

/-- A plan has the offset and the limit of its definition. -/
theorem paged_of_ofDefinition (h : ofDefinition r (d.paged offset limit) = .ok p) :
    p.paged offset limit = p := by
  have hoffset : p.offset = offset := (resolution_of_ofDefinition h).offset
  have hlimit : p.limit = limit := (resolution_of_ofDefinition h).limit
  rw [paged, ← hoffset, ← hlimit]

/-- **The report of a plan for a page is that page of its report on everything.** -/
theorem report_paged (p : Plan) (rows : List TypedRow) (skipped malformed : Nat) :
    (p.paged offset limit).report rows skipped malformed =
      ((p.paged 0 none).report rows skipped malformed).page offset limit := by
  have hall : ∀ {α : Type} (xs : List α),
      window (p.paged 0 none).offset (p.paged 0 none).limit xs = xs := fun _ => rfl
  by_cases hgrouped : p.isGrouped
  · simp only [report, isGrouped_paged, columns_paged, groupsOf_paged, summary_paged,
      partition_paged, hall, hgrouped, if_true, Report.page, map_window]
    rfl
  · simp only [report, isGrouped_paged, columns_paged, project_paged, hall, hgrouped, if_false,
      Bool.false_eq_true, Report.page, map_window]
    rfl

end Plan

/-! ## Runs -/

/-- Taking in takes no notice of pages. -/
theorem Intake.acceptAll_paged (p : Plan) (bound : Option Nat) (s : Intake) (items : List Item) :
    s.acceptAll (p.paged offset limit) bound items = s.acceptAll p bound items := by
  induction items generalizing s with
  | nil => rfl
  | cons item rest ih =>
    have hitem : s.accept (p.paged offset limit) bound item = s.accept p bound item := rfl
    rw [acceptAll, acceptAll, hitem]
    cases s.accept p bound item with
    | error error => rfl
    | ok s => exact ih s

namespace Engine

theorem conclude_paged (p : Plan) (token : Token) (s : Intake) :
    conclude (p.paged offset limit) token s =
      (conclude (p.paged 0 none) token s).map (Report.page offset limit) := by
  rw [conclude, conclude, Plan.report_paged]
  split <;> rfl

/-- **A run of a plan for a page is that page of its run for everything.** -/
theorem runPlan_paged {σ : Type} (p : Plan) (source : Except SourceError σ)
    (takeIn : σ → Except ReportError Intake × Nat) (token : Token) :
    runPlan (p.paged offset limit) source takeIn token =
      (runPlan (p.paged 0 none) source takeIn token).page offset limit := by
  unfold runPlan
  split
  · rfl
  · cases source with
    | error cause => rfl
    | ok items =>
      dsimp only
      generalize takeIn items = result
      obtain ⟨_ | s, pulled⟩ := result
      · rfl
      · dsimp only
        rw [conclude_paged]
        rfl

theorem execute_paged (e : Engine) (d : Definition) (source : Except SourceError (List Item))
    (token : Token) (offset : Nat) (limit : Option Nat) :
    e.execute (d.paged offset limit) source token =
      (e.execute (d.paged 0 none) source token).page offset limit := by
  have hsource : ∀ p : Plan, Intake.acceptAll (p.paged offset limit) e.maxWorkingSet {} =
      Intake.acceptAll p e.maxWorkingSet {} :=
    fun p => funext (Intake.acceptAll_paged p e.maxWorkingSet {})
  rw [execute, execute, validate, validate, Plan.ofDefinition_paged]
  cases hplan : Plan.ofDefinition e.registry (d.paged 0 none) with
  | error error => rfl
  | ok p =>
    change runPlan (p.paged offset limit) source _ token = _
    rw [runPlan_paged, Plan.paged_of_ofDefinition hplan, hsource]

/-- A stream read for a page gives that page of what it gives when it is read for everything. -/
theorem executeStream_paged (e : Engine) (d : Definition) (source : Except SourceError Stream)
    (token : Token) (offset : Nat) (limit : Option Nat) :
    e.executeStream (d.paged offset limit) source token =
      (e.executeStream (d.paged 0 none) source token).page offset limit := by
  rw [executeStream_eq_execute, executeStream_eq_execute, execute_paged]

/-- The report of a run lists no more groups than it has rows. -/
theorem length_partitions_le {e : Engine} {source : Except SourceError (List Item)} {token : Token}
    {report : Report} (h : (e.execute d source token).outcome = .ok report) :
    report.partitions.length ≤ report.rows.length := by
  obtain ⟨items, -, rfl⟩ := eq_meaning_of_outcome h
  simp only [Definition.meaning, Report.partitions]
  cases d.isGrouped <;> simp

/-- **A page is part of the whole report.**  A run for a page opens, reads and fails like the run for
everything, and if there is a report it is that of everything, cut to the page.  Pages of one size give
all rows and all groups in their order, each once, when they are put one after another until they have
room for them. -/
theorem pages_of_report (e : Engine) (d : Definition) (token : Token) :
    (∀ source offset limit, e.execute (d.paged offset limit) source token =
      (e.execute (d.paged 0 none) source token).page offset limit) ∧
    (∀ source offset limit, e.executeStream (d.paged offset limit) source token =
      (e.executeStream (d.paged 0 none) source token).page offset limit) ∧
    ∀ source report, (e.execute (d.paged 0 none) source token).outcome = .ok report →
      ∀ size, ∃ pages : Nat → Report,
        (∀ i, (e.execute (d.paged (i * size) (some size)) source token).outcome = .ok (pages i)) ∧
        ∀ count, report.rows.length ≤ count * size →
          ((List.range count).flatMap fun i => (pages i).rows) = report.rows ∧
          ((List.range count).flatMap fun i => (pages i).partitions) = report.partitions := by
  refine ⟨fun source => execute_paged e d source token,
    fun source => executeStream_paged e d source token, fun source report hreport size => ?_⟩
  refine ⟨fun i => report.page (i * size) (some size), fun i => ?_, fun count hcount => ⟨?_, ?_⟩⟩
  · rw [execute_paged, Run.page, hreport]
    rfl
  · exact (flatMap_pages size count report.rows).trans (List.take_of_length_le hcount)
  · simp only [Report.partitions_page]
    refine (flatMap_pages size count report.partitions).trans (List.take_of_length_le ?_)
    exact Nat.le_trans (length_partitions_le hreport) hcount

/-- The two groups of the report on sales come on two pages of one. -/
theorem pages_of_report_sales : ∃ (report : Report) (pages : Nat → Report),
    (execute ⟨.sales, none⟩ (Definition.salesByCity.paged 0 none) (.ok Item.sales) .clear).outcome =
      .ok report ∧
    report.rows.length = 2 ∧
    (∀ i, (execute ⟨.sales, none⟩ (Definition.salesByCity.paged (i * 1) (some 1)) (.ok Item.sales)
      .clear).outcome = .ok (pages i)) ∧
    ((List.range 2).flatMap fun i => (pages i).rows) = report.rows := by
  obtain ⟨report, hreport⟩ : ∃ report, (execute ⟨.sales, none⟩ (Definition.salesByCity.paged 0 none)
      (.ok Item.sales) .clear).outcome = .ok report := ⟨_, rfl⟩
  obtain ⟨items, hitems, hmeaning⟩ := eq_meaning_of_outcome hreport
  cases hitems
  have hlength : report.rows.length = 2 := congrArg (·.rows.length) hmeaning
  obtain ⟨pages, hpages, hall⟩ :=
    (pages_of_report ⟨.sales, none⟩ .salesByCity .clear).2.2 (.ok Item.sales) report hreport 1
  exact ⟨report, pages, hreport, hlength, hpages, (hall 2 (Nat.le_of_eq hlength)).1⟩

end Engine

end Reporting
