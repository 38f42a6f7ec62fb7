import Reporting.Text.Percent

/-!
# Service/Target — what a request is about

The target of a request is a path, after which a question mark may begin a query and a number sign
a part that is of no concern here.  It may stand behind the name of a host.
-/

namespace Reporting

/-- What a request is about. -/
structure Target where
  path : String
  query : List (String × String)
  deriving DecidableEq, Repr

namespace Target

/-- A target without the host in front of it. -/
def afterHost (cs : List Char) : List Char :=
  if cs.head? = some '/' then cs
  else
    match cs.dropWhile (· ≠ ':') with
    | ':' :: '/' :: '/' :: rest => rest.dropWhile fun c => c ≠ '/' && c ≠ '?'
    | _ => cs

/-- The target that a text names. -/
def ofText (text : String) : Target :=
  let cs := afterHost (text.toList.takeWhile (· ≠ '#'))
  let path := cs.takeWhile (· ≠ '?')
  ⟨if path.isEmpty then "/" else String.ofList path,
    Text.formPairs ((cs.dropWhile (· ≠ '?')).drop 1)⟩

/-- The values that a query gives to a name. -/
def values (t : Target) (name : String) : List String :=
  t.query.filterMap fun (key, value) => if key = name then some value else none

end Target

end Reporting
