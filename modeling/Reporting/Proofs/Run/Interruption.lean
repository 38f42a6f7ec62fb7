import Reporting.Proofs.Query.Resolution
import Reporting.Proofs.Run.Refinement

/-!
# Proofs/Run/Interruption — runs that are called off

A run looks at its token when it enters a stage, and what it does in between takes no notice of it.
So a run that may be called off is measured against the one that is not: it has not begun, or it has
read what the other reads and gives its report or none (`Token.Governs`).  `Engine.governs_of_lasting`
says so of every run under a token that, once set, stays so.
-/

namespace Reporting

variable {p : Plan} {bound : Option Nat} {s s' : Intake} {pulled : Nat} {token : Token}

/-! ## Taking in -/

namespace Intake

/-- Items that arrive one by one are taken in like those that are all there. -/
theorem drain_eq_acceptAll (s : Intake) (stream : Stream) :
    s.drain p bound stream = s.acceptAll p bound stream.toList := by
  induction stream generalizing s with
  | done => rfl
  | next item rest ih =>
    rw [drain, Stream.toList, acceptAll]
    cases s.accept p bound item with
    | error e => rfl
    | ok s => exact ih s

/-- Items that come after others are taken in where those have led. -/
theorem acceptAll_append {items : List Item} (h : s.acceptAll p bound items = (.ok s', pulled))
    (more : List Item) : s.acceptAll p bound (items ++ more) = s'.acceptAll p bound more := by
  induction items generalizing s with
  | nil =>
    cases h
    rfl
  | cons item rest ih =>
    rw [acceptAll] at h
    rw [List.cons_append, acceptAll]
    split at h
    · cases h
    · exact ih h

/-- What has been taken in has been counted. -/
theorem pulled_of_acceptAll {items : List Item} (h : s.acceptAll p bound items = (.ok s', pulled)) :
    s'.pulled = pulled := by
  induction items generalizing s with
  | nil =>
    cases h
    rfl
  | cons item rest ih =>
    rw [acceptAll] at h
    split at h
    · cases h
    · exact ih h

/-- **Taking in fails only where no more may be held.** -/
theorem eq_workingSetExceeded_of_acceptAll {items : List Item} {error : ReportError}
    (h : s.acceptAll p bound items = (.error error, pulled)) :
    ∃ limit, error = .workingSetExceeded limit := by
  induction items generalizing s with
  | nil => cases h
  | cons item rest ih =>
    rw [acceptAll] at h
    split at h
    · rename_i haccept
      cases h
      cases item with
      | malformed m => cases haccept
      | record record =>
        simp only [accept] at haccept
        split at haccept
        · cases haccept
        · split at haccept
          · cases haccept
            exact ⟨_, rfl⟩
          · cases haccept
    · exact ih h

end Intake

/-! ## Being called off -/

/-- The stages that follow the sorting of records. -/
def Stage.afterSorting : List Stage := [grouping, paginating, assembling]

/-- Whether a moment is one before a run enters one of some stages, the source having yielded no more
than some items. -/
structure Moment.Before (stages : List Stage) (items : Nat) (m : Moment) : Prop where
  next : m.next ∈ stages
  opened : m.opened ≤ 1
  pulled : m.pulled ≤ items

/-- A run that has read as much as another, and has an error in the place of its report. -/
def Run.calledOff (free : Run) : Run :=
  { free with outcome := free.outcome.bind fun _ => .error .cancelled }

/-- Whether a run is what its token makes of the run of a checked definition that nobody calls off. -/
structure Token.Governs (token : Token) (free run : Run) : Prop where
  /-- Called off before it filters, a run opens no source and takes no item. -/
  start : token ⟨.filtering, 0, 0⟩ → run = ⟨.error .cancelled, 0, 0⟩
  /-- Called off while the source is opened or read, a run reads on to the end.  It fails as it would
  have failed, and otherwise because it is called off. -/
  reading : token ⟨.filtering, 0, 0⟩ = false →
    ∀ m : Moment, m.Before [.sorting] free.pulled → token m → run = free.calledOff
  /-- Reading fails for want of a source or of room. -/
  failing : ∀ error, free.outcome = .error error →
    (∃ cause, error = .sourceUnavailable cause) ∨ ∃ limit, error = .workingSetExceeded limit
  /-- Called off later, a run has an error exactly if it has a stage to enter yet. -/
  later : token ⟨.filtering, 0, 0⟩ = false → token ⟨.sorting, 1, free.pulled⟩ = false →
    ∀ report, free.outcome = .ok report → (run.outcome = .error .cancelled ↔
      ∃ m : Moment, m.Before Stage.afterSorting free.pulled ∧ token m)
  /-- A run that is called off too late for that is as if it were not. -/
  finished : token ⟨.filtering, 0, 0⟩ = false → token ⟨.sorting, 1, free.pulled⟩ = false →
    (∀ m : Moment, m.Before Stage.afterSorting free.pulled → token m = false) → run = free
  /-- There is no report but the whole one. -/
  whole : ∀ report, run.outcome = .ok report → run = free

/-- A lasting token that is set before some stages is set when the last item has been taken in. -/
theorem Token.Lasting.exists_stage (h : token.Lasting) {stages : List Stage} {items : Nat}
    {m : Moment} (hm : m.Before stages items) (hset : token m) :
    ∃ stage ∈ stages, token ⟨stage, 1, items⟩ :=
  ⟨m.next, hm.next, h m _ ⟨Nat.le_refl _, hm.opened, hm.pulled⟩ hset⟩

/-- **A token has no power over a run that fails before it has a report.** -/
theorem Token.governs_of_failed {free : Run} {error : ReportError}
    (hclear : token ⟨.filtering, 0, 0⟩ = false) (hfree : free.outcome = .error error)
    (herror : (∃ cause, error = .sourceUnavailable cause) ∨
      ∃ limit, error = .workingSetExceeded limit) : token.Governs free free where
  start hset := by cases hclear.symm.trans hset
  reading _ _ _ _ := by
    obtain ⟨outcome, opened, pulled⟩ := free
    cases hfree
    rfl
  failing e he := by
    cases hfree.symm.trans he
    exact herror
  later _ _ report hreport := by cases hfree.symm.trans hreport
  finished _ _ _ := rfl
  whole _ _ := rfl

namespace Engine

/-- A run that is not called off any more has its report. -/
theorem conclude_of_clear (h : ∀ stage ∈ Stage.afterReading, token ⟨stage, 1, s.pulled⟩ = false) :
    conclude p token s = .ok (p.report s.rows s.skipped s.malformed) := by
  refine if_neg ?_
  rw [List.any_eq_true]
  rintro ⟨stage, hstage, hset⟩
  cases (h stage hstage).symm.trans hset

theorem conclude_of_set {stage : Stage} (hstage : stage ∈ Stage.afterReading)
    (hset : token ⟨stage, 1, s.pulled⟩) : conclude p token s = .error .cancelled :=
  if_pos (List.any_eq_true.2 ⟨stage, hstage, hset⟩)

/-- **A run that has read its records is governed by the stages left to it.** -/
theorem governs_conclude (hlasting : token.Lasting) (hclear : token ⟨.filtering, 0, 0⟩ = false) :
    token.Governs ⟨conclude p .clear s, 1, s.pulled⟩ ⟨conclude p token s, 1, s.pulled⟩ := by
  have hfree : conclude p .clear s = .ok (p.report s.rows s.skipped s.malformed) :=
    conclude_of_clear fun _ _ => rfl
  have hset : ∀ stage ∈ Stage.afterReading, token ⟨stage, 1, s.pulled⟩ →
      conclude p token s = .error .cancelled := fun _ hstage => conclude_of_set hstage
  have hunset : token ⟨.sorting, 1, s.pulled⟩ = false →
      (∀ m : Moment, m.Before Stage.afterSorting s.pulled → token m = false) →
        conclude p token s = .ok (p.report s.rows s.skipped s.malformed) := by
    intro hsorting hlater
    refine conclude_of_clear fun stage hstage => ?_
    rcases List.mem_cons.1 hstage with rfl | hstage
    · exact hsorting
    · exact hlater ⟨stage, 1, s.pulled⟩ ⟨hstage, Nat.le_refl 1, Nat.le_refl _⟩
  rw [hfree]
  exact {
    start := fun hset => by cases hclear.symm.trans hset
    reading := by
      intro _ m hm hm'
      obtain ⟨stage, hstage, hstageSet⟩ := hlasting.exists_stage hm hm'
      rw [hset stage (List.mem_cons.2 (.inl (List.mem_singleton.1 hstage))) hstageSet]
      rfl
    failing := nofun
    later := by
      intro _ hsorting _ _
      constructor
      · intro hcancelled
        by_contra hnone
        have hnow : conclude p token s = .error .cancelled := hcancelled
        rw [hunset hsorting fun m hm => Bool.eq_false_iff.2 fun hm' => hnone ⟨m, hm, hm'⟩] at hnow
        cases hnow
      · rintro ⟨m, hm, hm'⟩
        obtain ⟨stage, hstage, hstageSet⟩ := hlasting.exists_stage hm hm'
        exact hset stage (List.mem_cons_of_mem _ hstage) hstageSet
    finished := by
      intro _ hsorting hlater
      rw [hunset hsorting hlater]
    whole := by
      intro report hreport
      have hnow : conclude p token s = .ok report := hreport
      rw [hnow, (conclude_eq_ok_iff.1 hnow).2] }

/-- Why a run that is not called off has no report. -/
theorem failing_of_runPlan {σ : Type} {source : Except SourceError σ}
    {takeIn : σ → Except ReportError Intake × Nat} {error : ReportError}
    (hroom : ∀ items error pulled, takeIn items = (.error error, pulled) →
      ∃ limit, error = .workingSetExceeded limit)
    (h : (runPlan p source takeIn .clear).outcome = .error error) :
    (∃ cause, error = .sourceUnavailable cause) ∨ ∃ limit, error = .workingSetExceeded limit := by
  cases source with
  | error cause =>
    cases h
    exact .inl ⟨cause, rfl⟩
  | ok items =>
    match htaken : takeIn items with
    | (.error _, _) =>
      simp only [runPlan, Token.clear, htaken, Bool.false_eq_true, if_false] at h
      cases h
      exact .inr (hroom items _ _ htaken)
    | (.ok s, _) =>
      rw [runPlan_of_taken rfl htaken, conclude_of_clear fun _ _ => rfl] at h
      cases h

/-- **A checked definition runs under its token as it would run**, on whatever source and however its
items are taken in, where that counts them and fails only for want of room. -/
theorem governs_runPlan {σ : Type} {source : Except SourceError σ}
    {takeIn : σ → Except ReportError Intake × Nat} (hlasting : token.Lasting)
    (hcount : ∀ items s pulled, takeIn items = (.ok s, pulled) → s.pulled = pulled)
    (hroom : ∀ items error pulled, takeIn items = (.error error, pulled) →
      ∃ limit, error = .workingSetExceeded limit) :
    token.Governs (runPlan p source takeIn .clear) (runPlan p source takeIn token) := by
  cases hstart : token ⟨.filtering, 0, 0⟩ with
  | true =>
    have hrun : runPlan p source takeIn token = ⟨.error .cancelled, 0, 0⟩ := if_pos hstart
    rw [hrun]
    exact {
      start := fun _ => rfl
      reading := fun hclear => by cases hstart.symm.trans hclear
      failing := fun _ => failing_of_runPlan hroom
      later := fun hclear => by cases hstart.symm.trans hclear
      finished := fun hclear => by cases hstart.symm.trans hclear
      whole := nofun }
  | false =>
    cases source with
    | error cause =>
      have hrun : runPlan p (.error cause) takeIn token =
          ⟨.error (.sourceUnavailable cause), 1, 0⟩ := if_neg (Bool.eq_false_iff.1 hstart)
      rw [hrun]
      exact Token.governs_of_failed hstart rfl (.inl ⟨cause, rfl⟩)
    | ok items =>
      match htaken : takeIn items with
      | (.error error, pulled) =>
        have hrun : ∀ t : Token, t ⟨.filtering, 0, 0⟩ = false →
            runPlan p (.ok items) takeIn t = ⟨.error error, 1, pulled⟩ := fun t ht => by
          simp only [runPlan, ht, htaken, Bool.false_eq_true, if_false]
        rw [hrun .clear rfl, hrun token hstart]
        exact Token.governs_of_failed hstart rfl (.inr (hroom items error pulled htaken))
      | (.ok s, pulled) =>
        rw [runPlan_of_taken rfl htaken, runPlan_of_taken hstart htaken,
          ← hcount items s pulled htaken]
        exact governs_conclude hlasting hstart

/-- **A run is called off at its stages, and never has part of a report.**  A definition that is not
accepted fails as such whatever the token.  One that is accepted runs as its token makes it run, both
on items that are there and on items as they arrive. -/
theorem governs_of_lasting (e : Engine) (d : Definition) (h : token.Lasting)
    (source : Except SourceError (List Item)) (arriving : Except SourceError Stream) :
    (∀ error, e.validate d = .error error →
      e.execute d source token = ⟨.error error, 0, 0⟩ ∧
        e.executeStream d arriving token = ⟨.error error, 0, 0⟩) ∧
    (∀ p, e.validate d = .ok p →
      token.Governs (e.execute d source .clear) (e.execute d source token) ∧
        token.Governs (e.executeStream d arriving .clear) (e.executeStream d arriving token)) := by
  constructor
  · intro error herror
    simp only [execute, executeStream, herror, and_self]
  · intro p hp
    simp only [execute, executeStream, hp]
    constructor
    · exact governs_runPlan h (fun _ _ _ => Intake.pulled_of_acceptAll)
        fun _ _ _ => Intake.eq_workingSetExceeded_of_acceptAll
    · rw [show Intake.drain p e.maxWorkingSet {} = fun stream : Stream =>
          Intake.acceptAll p e.maxWorkingSet {} stream.toList from
        funext (Intake.drain_eq_acceptAll {})]
      exact governs_runPlan h (fun _ _ _ => Intake.pulled_of_acceptAll)
        fun _ _ _ => Intake.eq_workingSetExceeded_of_acceptAll

/-- The report on sales is called off while its source yields the second of three items, and reads the
third before it says so. -/
theorem governs_of_lasting_sales : (Token.afterItems 2).Lasting ∧
    execute ⟨.sales, none⟩ .salesByCity (.ok Item.sales) (Token.afterItems 2) =
      ⟨.error .cancelled, 1, 3⟩ := by
  refine ⟨Token.lasting_afterItems 2, ?_⟩
  have hgoverns := (governs_of_lasting ⟨.sales, none⟩ .salesByCity (Token.lasting_afterItems 2)
    (.ok Item.sales) (.ok .done)).2 _ rfl
  exact hgoverns.1.reading rfl ⟨.sorting, 1, 2⟩
    ⟨List.mem_singleton.2 rfl, Nat.le_refl 1, by decide⟩ rfl

end Engine

end Reporting
