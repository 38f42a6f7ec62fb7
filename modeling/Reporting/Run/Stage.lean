/-!
# Run/Stage — how far a run has come

A run goes through its stages in order.  It looks at its token only when it enters a stage, so a
stage that has begun is carried through.
-/

namespace Reporting

/-- The stages of a run. -/
inductive Stage
  | validating
  | filtering
  | sorting
  | grouping
  | paginating
  | assembling
  | done
  | failed
  deriving DecidableEq, Repr

namespace Stage

/-- All stages, in order. -/
def all : List Stage :=
  [validating, filtering, sorting, grouping, paginating, assembling, done, failed]

/-- The name of a stage. -/
def name : Stage → String
  | validating => "validating"
  | filtering => "filtering"
  | sorting => "sorting"
  | grouping => "grouping"
  | paginating => "paginating"
  | assembling => "assembling"
  | done => "done"
  | failed => "failed"

/-- The place of a stage in a run. -/
def place (s : Stage) : Nat := all.idxOf s

/-- The stages that follow the reading of records. -/
def afterReading : List Stage := [sorting, grouping, paginating, assembling]

end Stage

/-- A moment at which a run looks at its token: the stage it is about to enter, how often the
source has been opened and how many items it has yielded. -/
structure Moment where
  next : Stage
  opened : Nat
  pulled : Nat
  deriving DecidableEq, Repr

/-- Whether a moment of a run is no later than another: stages, openings and items only go up. -/
def Moment.notAfter (a b : Moment) : Prop :=
  a.next.place ≤ b.next.place ∧ a.opened ≤ b.opened ∧ a.pulled ≤ b.pulled

instance : DecidableRel Moment.notAfter := fun _ _ =>
  inferInstanceAs (Decidable (_ ∧ _ ∧ _))

/-- Whether a run has been called off, as seen at each moment. -/
abbrev Token := Moment → Bool

namespace Token

/-- Never called off. -/
def clear : Token := fun _ => false

/-- Called off before the run. -/
def set : Token := fun _ => true

/-- Called off while the source yields its `n`-th item, or is opened when `n` is zero. -/
def afterItems (n : Nat) : Token := fun m => 0 < m.opened && n ≤ m.pulled

/-- A run that has been called off stays so. -/
def Lasting (t : Token) : Prop := ∀ a b : Moment, a.notAfter b → t a → t b

/-- **Being called off while records are read lasts** — the counts only go up. -/
theorem lasting_afterItems (n : Nat) : (afterItems n).Lasting := by
  rintro a b ⟨-, hopened, hpulled⟩ h
  simp only [afterItems, Bool.and_eq_true, decide_eq_true_eq] at h ⊢
  omega

end Token

end Reporting
