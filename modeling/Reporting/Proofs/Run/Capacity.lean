import Mathlib.Logic.Relation
import Reporting.Proofs.Run.Arrival
import Reporting.Proofs.Run.WorkingSet

/-!
# Proofs/Run/Capacity — a bound on held records is kept exactly

A bound is looked at when a record has passed the filters and before it is held.  So no item takes a run
beyond its bound (`Intake.Next.hasRoom`), and the record that would is the last that is taken
(`Plan.Resolution.acceptAll_of_full`).  What else there is to a run — its page, its order, its groups,
the items that cannot be read — has no part in this: `Engine.bounded_of_validate` measures a run under a
bound against the one without.
-/

namespace Reporting

variable {r : Registry} {d : Definition} {p : Plan} {bound : Option Nat} {limit : Nat} {s : Intake}
  {items : List Item}

/-! ## Moments of reading -/

namespace Intake

/-- What is held and what is still to be read, before an item is taken in and after it. -/
inductive Next (p : Plan) (bound : Option Nat) : Intake × List Item → Intake × List Item → Prop
  | item {s s' : Intake} {item : Item} {rest : List Item} (haccept : s.accept p bound item = .ok s') :
      Next p bound (s, item :: rest) (s', rest)

/-- Whether a run comes from one moment of its reading to another. -/
abbrev Reaches (p : Plan) (bound : Option Nat) : Intake × List Item → Intake × List Item → Prop :=
  Relation.ReflTransGen (Next p bound)

variable {now later : Intake × List Item}

/-- **No item takes a run beyond its bound.** -/
theorem Next.hasRoom (h : Next p bound now later) (hroom : HasRoom bound now.1.reversed.length) :
    HasRoom bound later.1.reversed.length := by
  obtain ⟨haccept⟩ := h
  rename_i s s' item rest
  cases item with
  | malformed m =>
    cases haccept
    exact hroom
  | record record =>
    simp only [accept] at haccept
    split at haccept
    · cases haccept
      exact hroom
    · split at haccept
      · cases haccept
      · rename_i hfull
        cases haccept
        exact not_not.1 (mt isFull_iff.2 hfull)

/-- What comes of the items that are left does not change as items are taken in. -/
theorem Next.acceptAll_eq (h : Next p bound now later) :
    later.1.acceptAll p bound later.2 = now.1.acceptAll p bound now.2 := by
  obtain ⟨haccept⟩ := h
  dsimp only
  rw [acceptAll, haccept]

/-- **A run is within its bound at every moment of its reading.** -/
theorem Reaches.hasRoom (h : Reaches p bound now later) (hroom : HasRoom bound now.1.reversed.length) :
    HasRoom bound later.1.reversed.length := by
  induction h with
  | refl => exact hroom
  | tail _ hnext ih => exact hnext.hasRoom ih

theorem Reaches.acceptAll_eq (h : Reaches p bound now later) :
    later.1.acceptAll p bound later.2 = now.1.acceptAll p bound now.2 := by
  induction h with
  | refl => rfl
  | tail _ hnext ih => exact hnext.acceptAll_eq.trans ih

end Intake

/-! ## The record for which there is no room -/

/-- Among items with more records of a kind than so many, there is one with just so many before it. -/
theorem Item.exists_record_of_lt {q : Record → Bool}
    (h : limit < ((Item.records items).filter q).length) :
    ∃ before record rest, items = before ++ .record record :: rest ∧ q record ∧
      ((Item.records before).filter q).length = limit := by
  induction items generalizing limit with
  | nil => cases h
  | cons item rest ih =>
    cases item with
    | malformed m =>
      obtain ⟨before, record, after, rfl, hq, hlength⟩ := ih h
      exact ⟨.malformed m :: before, record, after, rfl, hq, hlength⟩
    | record head =>
      rw [Item.records_record, List.filter_cons] at h
      by_cases hhead : q head
      · cases limit with
        | zero => exact ⟨[], head, rest, rfl, hhead, rfl⟩
        | succ n =>
          rw [if_pos hhead] at h
          obtain ⟨before, record, after, rfl, hq, hlength⟩ := ih (Nat.lt_of_succ_lt_succ h)
          refine ⟨.record head :: before, record, after, rfl, hq, ?_⟩
          rw [Item.records_record, List.filter_cons_of_pos hhead, List.length_cons, hlength]
      · rw [if_neg hhead] at h
        obtain ⟨before, record, after, rfl, hq, hlength⟩ := ih h
        refine ⟨.record head :: before, record, after, rfl, hq, ?_⟩
        rw [Item.records_record, List.filter_cons_of_neg hhead, hlength]

namespace Plan.Resolution

variable (h : Resolution r d p)
include h

/-- Items for which there is room take a run to what it holds of them. -/
theorem acceptAll_of_hasRoom {before : List Item}
    (hroom : HasRoom bound (p.after d r s before).reversed.length) (rest : List Item) :
    s.acceptAll p bound (before ++ rest) = (p.after d r s before).acceptAll p bound rest := by
  have hheld : HasRoom bound s.reversed.length :=
    hroom.mono (length_reversed_after s before ▸ Nat.le_add_right _ _)
  have hbefore := h.fst_acceptAll before hheld
  rw [if_pos hroom] at hbefore
  exact Intake.acceptAll_append (Prod.ext hbefore rfl) rest

/-- **The first record for which there is no room ends the reading**, and is the last that is taken. -/
theorem acceptAll_of_full {before rest : List Item} {record : Record} (hkeeps : d.keeps r record)
    (hfull : ((Item.records before).filter (d.keeps r)).length = limit) :
    Intake.acceptAll p (some limit) {} (before ++ .record record :: rest) =
      (.error (.workingSetExceeded limit), before.length + 1) := by
  have hheld : (p.after d r {} before).reversed.length = limit := by
    rw [length_reversed_after, hfull]
    exact Nat.zero_add limit
  have hroom : HasRoom (some limit) (p.after d r {} before).reversed.length := by
    rintro _ ⟨⟩
    exact Nat.le_of_eq hheld
  have hnone : ¬ HasRoom (some limit) ((p.after d r {} before).reversed.length + 1) := fun hmore =>
    Nat.not_succ_le_self limit (hheld ▸ hmore limit rfl)
  have hpulled : (p.after d r {} before).pulled = before.length := Nat.zero_add _
  rw [h.acceptAll_of_hasRoom hroom, Intake.acceptAll, h.accept_eq hroom, length_reversed_after_record,
    if_pos hkeeps, if_neg hnone]
  dsimp only
  rw [hpulled, Option.getD_some]

end Plan.Resolution

/-! ## Runs -/

/-- Whether a run under a bound is what the bound makes of the run without one. -/
structure Run.BoundedBy (r : Registry) (d : Definition) (limit : Nat) (items : List Item)
    (free run : Run) : Prop where
  /-- A run finds no room exactly if more records pass the filters than may be held. -/
  exceeded_iff : run.outcome = .error (.workingSetExceeded limit) ↔
    limit < ((Item.records items).filter (d.keeps r)).length
  /-- It has then taken the items up to the first record for which there is no room. -/
  pulled : run.outcome = .error (.workingSetExceeded limit) → ∃ before record rest,
    items = before ++ .record record :: rest ∧ d.keeps r record ∧
      ((Item.records before).filter (d.keeps r)).length = limit ∧ run.pulled = before.length + 1
  /-- Otherwise its bound makes no difference. -/
  free : run.outcome ≠ .error (.workingSetExceeded limit) → run = free
  /-- A report is made of no more records than may be held. -/
  totalRows : ∀ report, run.outcome = .ok report → report.totalRows ≤ limit

namespace Engine

/-- A run under a bound whose records all find room is the run without one. -/
theorem execute_of_hasRoom (hvalid : Plan.ofDefinition r d = .ok p)
    (hroom : HasRoom bound (d.selection r items).length) :
    execute ⟨r, bound⟩ d (.ok items) .clear = execute ⟨r, none⟩ d (.ok items) .clear := by
  have hp := Plan.resolution_of_ofDefinition hvalid
  rw [← Plan.length_reversed_after_all (p := p) items] at hroom
  have htaken := hp.acceptAll_of_hasRoom (s := {}) hroom []
  rw [List.append_nil, Intake.acceptAll] at htaken
  rw [execute_of_validate (e := ⟨r, bound⟩) hvalid, execute_of_validate (e := ⟨r, none⟩) hvalid,
    runPlan_of_taken rfl htaken, runPlan_of_taken rfl (hp.acceptAll_none {} items)]
  rfl

/-- A run under a bound that more records pass than it allows ends with the first of them for which there
is no room. -/
theorem exists_execute_eq_of_lt (hvalid : Plan.ofDefinition r d = .ok p)
    (hmore : limit < ((Item.records items).filter (d.keeps r)).length) :
    ∃ before record rest, items = before ++ .record record :: rest ∧ d.keeps r record ∧
      ((Item.records before).filter (d.keeps r)).length = limit ∧
      execute ⟨r, some limit⟩ d (.ok items) .clear =
        ⟨.error (.workingSetExceeded limit), 1, before.length + 1⟩ := by
  obtain ⟨before, record, rest, rfl, hkeeps, hfull⟩ := Item.exists_record_of_lt hmore
  refine ⟨before, record, rest, rfl, hkeeps, hfull, ?_⟩
  have htaken : Intake.acceptAll p (some limit) {} (before ++ .record record :: rest) = _ :=
    (Plan.resolution_of_ofDefinition hvalid).acceptAll_of_full hkeeps hfull
  rw [execute_of_validate (e := ⟨r, some limit⟩) hvalid]
  simp only [runPlan, htaken]
  rfl

theorem boundedBy_execute (hvalid : Plan.ofDefinition r d = .ok p) (limit : Nat) (items : List Item) :
    Run.BoundedBy r d limit items (execute ⟨r, none⟩ d (.ok items) .clear)
      (execute ⟨r, some limit⟩ d (.ok items) .clear) := by
  have hselected : (d.selection r items).length = ((Item.records items).filter (d.keeps r)).length :=
    (insertionSortBy_perm _).length_eq
  by_cases hmore : limit < ((Item.records items).filter (d.keeps r)).length
  · obtain ⟨before, record, rest, hitems, hkeeps, hfull, hrun⟩ := exists_execute_eq_of_lt hvalid hmore
    rw [hrun]
    exact {
      exceeded_iff := iff_of_true rfl hmore
      pulled := fun _ => ⟨before, record, rest, hitems, hkeeps, hfull, rfl⟩
      free := fun hne => absurd rfl hne
      totalRows := nofun }
  · have hle : (d.selection r items).length ≤ limit := hselected ▸ Nat.not_lt.1 hmore
    have hrun : execute ⟨r, some limit⟩ d (.ok items) .clear =
        execute ⟨r, none⟩ d (.ok items) .clear :=
      execute_of_hasRoom hvalid fun _ hlimit => Option.some.inj hlimit ▸ hle
    have hfree := (execute_of_validate (e := ⟨r, none⟩) hvalid (.ok items) .clear).trans
      (runPlan_of_resolution (Plan.resolution_of_ofDefinition hvalid) items)
    rw [hrun, hfree]
    exact {
      exceeded_iff := iff_of_false nofun hmore
      pulled := nofun
      free := fun _ => rfl
      totalRows := by
        rintro _ ⟨⟩
        exact hle }

/-- **A bound is exact.**  Take a definition that is accepted, and a run that is not called off on a
source that can be opened.  The run fails for want of room exactly if more records pass the filters than
its bound allows to be held, and has then taken the items up to the first record beyond the bound, and
none after it; if it does not fail, it is the run without a bound.  At no moment of its reading does it
hold more records than its bound allows. -/
theorem bounded_of_validate (hvalid : Plan.ofDefinition r d = .ok p) (limit : Nat) :
    (∀ items, Run.BoundedBy r d limit items (execute ⟨r, none⟩ d (.ok items) .clear)
      (execute ⟨r, some limit⟩ d (.ok items) .clear)) ∧
    (∀ arriving : Stream, Run.BoundedBy r d limit arriving.toList
      (executeStream ⟨r, none⟩ d (.ok arriving) .clear)
      (executeStream ⟨r, some limit⟩ d (.ok arriving) .clear)) ∧
    ∀ items s rest, Intake.Reaches p (some limit) ({}, items) (s, rest) → s.rows.length ≤ limit ∧
      s.acceptAll p (some limit) rest = Intake.acceptAll p (some limit) {} items := by
  refine ⟨boundedBy_execute hvalid limit, fun arriving => ?_, fun items s rest hreaches => ⟨?_, ?_⟩⟩
  · rw [executeStream_eq_execute, executeStream_eq_execute]
    exact boundedBy_execute hvalid limit arriving.toList
  · rw [Intake.rows, List.length_reverse]
    exact hreaches.hasRoom hasRoom_zero limit rfl
  · exact hreaches.acceptAll_eq

/-- There are two sales in a known city: a bound of one fails at the second, and one of two makes no
difference. -/
theorem bounded_of_validate_sales :
    (execute ⟨.sales, some 1⟩ .salesByCity (.ok Item.sales) .clear).outcome =
        .error (.workingSetExceeded 1) ∧
      execute ⟨.sales, some 2⟩ .salesByCity (.ok Item.sales) .clear =
        execute ⟨.sales, none⟩ .salesByCity (.ok Item.sales) .clear := by
  have hone := (bounded_of_validate (r := .sales) (d := .salesByCity) rfl 1).1 Item.sales
  have htwo := (bounded_of_validate (r := .sales) (d := .salesByCity) rfl 2).1 Item.sales
  refine ⟨hone.exceeded_iff.2 (by decide), htwo.free fun hexceeded => ?_⟩
  exact absurd (htwo.exceeded_iff.1 hexceeded) (by decide)

end Engine

end Reporting
