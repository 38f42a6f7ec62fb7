/-!
# Query/Window — pages

A page leaves out items at the start and takes no more than a limit of those that follow.
-/

namespace Reporting

/-- Some items from an offset on, no more than a limit. -/
def window {α : Type} (offset : Nat) (limit : Option Nat) (items : List α) : List α :=
  match limit with
  | some n => (items.drop offset).take n
  | none => items.drop offset

/-- Without offset and limit the page is everything. -/
theorem window_zero_none {α : Type} (items : List α) : window 0 none items = items := rfl

end Reporting
