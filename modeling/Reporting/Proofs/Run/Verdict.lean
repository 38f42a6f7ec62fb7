import Reporting.Proofs.Query.Validation
import Reporting.Proofs.Run.Arrival
import Reporting.Proofs.Run.WorkingSet
import Reporting.Schedule
import Reporting.Service.Api

/-!
# Proofs/Run/Verdict — one verdict on a definition

A definition is checked when it is saved and whenever it is run, and whoever asks gets the same answer.
A definition that is rejected fails everywhere with one error, before any source is opened; one that is
accepted fails for reasons of the run alone (`Engine.Ending`), which no answer calls a bad request
(`Engine.one_verdict`).
-/

namespace Reporting

variable {r : Registry} {d : Definition} {p : Plan} {e : Engine} {token : Token}

/-! ## Errors -/

/-- **An error that is true of a definition is one of validation.** -/
theorem ReportError.errorClass_of_isTrueOf {error : ReportError} (h : error.IsTrueOf r d) :
    error.errorClass = .validation := by
  cases error with
  | sourceUnavailable | workingSetExceeded | cancelled => cases h
  | _ => rfl

/-- Just the errors of validation are answered as bad requests. -/
theorem ReportError.status_eq_iff (error : ReportError) :
    error.status = 400 ↔ error.errorClass = .validation := by
  cases error <;> simp [status, errorClass]

/-! ## How runs end -/

namespace Engine

/-- How a run of an accepted definition may end on a source: with the whole report on its items, or
without one, because the source cannot be opened, more records pass the filters than may be held, or the
run is called off. -/
inductive Ending (e : Engine) (d : Definition) :
    Except SourceError (List Item) → Except ReportError Report → Prop
  | whole (items : List Item) : Ending e d (.ok items) (.ok (d.meaning e.registry items))
  | sourceUnavailable (cause : SourceError) :
      Ending e d (.error cause) (.error (.sourceUnavailable cause))
  | workingSetExceeded {items : List Item} {limit : Nat} (hbound : e.maxWorkingSet = some limit)
      (hmore : limit < (d.selection e.registry items).length) :
      Ending e d (.ok items) (.error (.workingSetExceeded limit))
  | cancelled {source : Except SourceError (List Item)} : Ending e d source (.error .cancelled)

/-- No run of an accepted definition ends in an error of validation. -/
theorem Ending.errorClass_ne {source : Except SourceError (List Item)} {error : ReportError}
    (h : e.Ending d source (.error error)) : error.errorClass ≠ .validation := by
  cases h <;> nofun

/-- Concluding gives the report or calls the run off. -/
theorem eq_cancelled_of_conclude {s : Intake} {error : ReportError}
    (h : conclude p token s = .error error) : error = .cancelled := by
  rw [conclude] at h
  split at h
  · cases h
    rfl
  · cases h

/-- Why a run of an accepted definition has no report. -/
theorem ending_of_error (haccepted : e.validate d = .ok p)
    {source : Except SourceError (List Item)} {error : ReportError}
    (h : (e.execute d source token).outcome = .error error) :
    e.Ending d source (.error error) := by
  rw [execute_of_validate haccepted] at h
  cases hstart : token ⟨.filtering, 0, 0⟩ with
  | true =>
    simp only [runPlan, hstart, if_true] at h
    cases h
    exact .cancelled
  | false =>
    cases source with
    | error cause =>
      simp only [runPlan, hstart, Bool.false_eq_true, if_false] at h
      cases h
      exact .sourceUnavailable cause
    | ok items =>
      have hp := Plan.resolution_of_ofDefinition haccepted
      rw [outcome_runPlan hstart, hp.fst_acceptAll items hasRoom_zero,
        Plan.length_reversed_after_all, bind_eq_error_iff] at h
      rcases h with h | ⟨s, -, h⟩
      · split at h
        · cases h
        · rename_i hroom
          cases h
          obtain ⟨limit, hbound, hmore⟩ := exists_of_not_hasRoom hroom
          rw [hbound]
          exact .workingSetExceeded hbound hmore
      · rw [eq_cancelled_of_conclude h]
        exact .cancelled

/-- **A run of an accepted definition ends in one of four ways.** -/
theorem ending_execute (haccepted : e.validate d = .ok p) (source : Except SourceError (List Item))
    (token : Token) : e.Ending d source (e.execute d source token).outcome := by
  cases h : (e.execute d source token).outcome with
  | error error => exact ending_of_error haccepted h
  | ok report =>
    obtain ⟨items, rfl, rfl⟩ := eq_meaning_of_outcome h
    exact .whole items

/-! ## The verdict -/

/-- Whether a definition is rejected with an error by whoever is asked about it, and its source left
alone. -/
structure Rejects (e : Engine) (d : Definition) (error : ReportError) : Prop where
  errorClass : error.errorClass = .validation
  saving : ∀ cadence recipients format,
    ScheduledReport.validate ⟨d, cadence, recipients, format⟩ e.registry = .error error
  execute : ∀ source token, e.execute d source token = ⟨.error error, 0, 0⟩
  executeStream : ∀ source token, e.executeStream d source token = ⟨.error error, 0, 0⟩
  /-- The channel is as it was before. -/
  channel : ∀ (c : Channel) token, c.execute e d token = (⟨.error error, 0, 0⟩, c)
  request : ∀ source token, runReport e d source token = .error ⟨400, error.code, error.message⟩

/-- Whether a definition is accepted by whoever is asked about it, and its runs fail for no fault of
the definition. -/
structure Accepts (e : Engine) (d : Definition) : Prop where
  saving : ∀ cadence recipients format,
    ScheduledReport.validate ⟨d, cadence, recipients, format⟩ e.registry = .ok ()
  execute : ∀ source token, e.Ending d source (e.execute d source token).outcome
  executeStream : ∀ source token,
    e.Ending d (source.map Stream.toList) (e.executeStream d source token).outcome
  channel : ∀ (c : Channel) token,
    e.Ending d (c.stream.map Stream.toList) (c.execute e d token).1.outcome
  /-- No run ends in an error of validation. -/
  errorClass : ∀ source arriving (c : Channel) token error,
    .error error ∈ [(e.execute d source token).outcome, (e.executeStream d arriving token).outcome,
      (c.execute e d token).1.outcome] → error.errorClass ≠ .validation
  request : ∀ source token failure,
    runReport e d source token = .error failure → failure.status ≠ 400

theorem rejects_of_validate {error : ReportError} (h : e.validate d = .error error) :
    e.Rejects d error := by
  have hclass : error.errorClass = .validation :=
    ReportError.errorClass_of_isTrueOf (Plan.isTrueOf_of_ofDefinition h)
  have hrun : ∀ source token, e.execute d source token = ⟨.error error, 0, 0⟩ := by
    intro source token
    rw [Engine.execute, h]
  have hstream : ∀ source token, e.executeStream d source token = ⟨.error error, 0, 0⟩ := by
    intro source token
    rw [Engine.executeStream, h]
  exact {
    errorClass := hclass
    saving := fun _ _ _ => congrArg (Except.map fun _ => ()) h
    execute := hrun
    executeStream := hstream
    channel := by
      intro c token
      rw [Channel.execute, hstream]
      rfl
    request := by
      intro source token
      rw [runReport, hrun]
      dsimp only
      rw [ApiError.ofReportError, (ReportError.status_eq_iff error).2 hclass] }

/-- A request fails with the answer to the error of its run. -/
theorem exists_of_runReport {source : Except SourceError (List Item)} {failure : ApiError}
    (h : runReport e d source token = .error failure) :
    ∃ error, (e.execute d source token).outcome = .error error ∧
      failure = .ofReportError error := by
  rw [runReport] at h
  split at h
  · cases h
  · cases h
    exact ⟨_, ‹_›, rfl⟩

theorem accepts_of_validate (h : e.validate d = .ok p) : e.Accepts d := by
  have hstream : ∀ source token,
      e.Ending d (source.map Stream.toList) (e.executeStream d source token).outcome := by
    intro source token
    rw [executeStream_eq_execute]
    exact ending_execute h _ token
  have hchannel : ∀ (c : Channel) token,
      e.Ending d (c.stream.map Stream.toList) (c.execute e d token).1.outcome := by
    intro c token
    rw [Channel.fst_execute]
    exact hstream c.stream token
  exact {
    saving := fun _ _ _ => congrArg (Except.map fun _ => ()) h
    execute := ending_execute h
    executeStream := hstream
    channel := hchannel
    errorClass := by
      intro source arriving c token error herror
      simp only [List.mem_cons, List.not_mem_nil, or_false] at herror
      rcases herror with herror | herror | herror
      · exact (herror ▸ ending_execute h source token).errorClass_ne
      · exact (herror ▸ hstream arriving token).errorClass_ne
      · exact (herror ▸ hchannel c token).errorClass_ne
    request := by
      intro source token failure hfailure
      obtain ⟨error, herror, rfl⟩ := exists_of_runReport hfailure
      rw [ApiError.ofReportError, ne_eq, ReportError.status_eq_iff]
      exact (herror ▸ ending_execute h source token).errorClass_ne }

/-- **There is one verdict on a definition, and it comes first.**  A definition that is rejected is
rejected with the same error when it is checked, when it is saved for later and when it is run or asked
for, before any source is opened; one that is accepted is accepted by all, and nothing that comes of its
runs is an error of validation or answered as one. -/
theorem one_verdict (e : Engine) (d : Definition) :
    (∀ error, e.validate d = .error error → e.Rejects d error) ∧
      ∀ p, e.validate d = .ok p → e.Accepts d :=
  ⟨fun _ => rejects_of_validate, fun _ => accepts_of_validate⟩

/-- The report on sales is accepted; sorted by a price it is rejected, as sales have none. -/
theorem one_verdict_sales :
    Engine.Accepts ⟨.sales, none⟩ .salesByCity ∧
      Engine.Rejects ⟨.sales, none⟩ { Definition.salesByCity with sort := [⟨"price", .asc⟩] }
        (.unknownField "price") :=
  ⟨(one_verdict ⟨.sales, none⟩ .salesByCity).2 _ rfl, (one_verdict ⟨.sales, none⟩ _).1 _ rfl⟩

end Engine

end Reporting
