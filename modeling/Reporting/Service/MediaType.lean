/-!
# Service/MediaType — the types of request bodies

A media type names a kind and a subtype, to which a suffix and parameters may be added.  A body is
read as JSON if its type is `application/json` or has the suffix `json`; `json?` is false for every
text that is no media type.
-/

namespace Reporting

/-- A media type without its parameters, in small letters. -/
structure MediaType where
  kind : List Char
  subtype : List Char
  /-- What follows the last plus sign of the subtype, unless the subtype begins there. -/
  suffix : Option (List Char)
  deriving DecidableEq, Repr

namespace MediaType

/-- The characters of names. -/
def isNameChar (c : Char) : Bool := c.isAlphanum || "!#$%&'+-.^_`|~".toList.contains c

/-- The characters that may stand between quotes. -/
def isQuotable (c : Char) : Bool := 0x20 ≤ c.toNat && c.toNat < 0x7F

/-- What follows the value of a parameter that stands between quotes: nothing, or the next one. -/
def afterQuoted : List Char → Option (List Char)
  | [] => some []
  | ';' :: rest => some rest
  | ' ' :: rest => afterQuoted rest
  | _ => none

/-- What follows the value of a parameter.  Between quotes stands at least one character, which may
be a quote. -/
def afterValue (cs : List Char) : Option (List Char) :=
  match cs with
  | [] => some []
  | '"' :: c :: rest =>
    if isQuotable c ∧ (rest.takeWhile (· ≠ '"')).all isQuotable then
      match rest.dropWhile (· ≠ '"') with
      | _ :: rest => afterQuoted rest
      | [] => none
    else none
  | cs =>
    match (cs.takeWhile isNameChar).isEmpty, cs.dropWhile isNameChar with
    | false, [] => some []
    | false, ';' :: rest => some rest
    | _, _ => none

/-- Whether a text is a list of parameters; the fuel bounds their number. -/
def areParameters : Nat → List Char → Bool
  | 0, cs => cs.isEmpty
  | fuel + 1, cs =>
    match cs.dropWhile (· = ' ') with
    | [] => true
    | cs =>
      match (cs.takeWhile isNameChar).isEmpty, cs.dropWhile isNameChar with
      | false, '=' :: rest =>
        match afterValue rest with
        | some rest => areParameters fuel rest
        | none => false
      | _, _ => false

/-- A subtype and its suffix. -/
def splitSuffix (cs : List Char) : List Char × Option (List Char) :=
  let suffix := cs.reverse.takeWhile (· ≠ '+')
  if suffix.length + 1 < cs.length then
    (cs.take (cs.length - suffix.length - 1), some suffix.reverse)
  else (cs, none)

/-- A text as a media type. -/
def ofText? (text : String) : Option MediaType :=
  let cs := text.toList
  match (cs.takeWhile isNameChar).isEmpty, cs.dropWhile isNameChar with
  | false, '/' :: rest =>
    let full := rest.takeWhile isNameChar
    let (subtype, suffix) := splitSuffix (full.map Char.toLower)
    let type : MediaType := ⟨(cs.takeWhile isNameChar).map Char.toLower, subtype, suffix⟩
    match rest.dropWhile isNameChar with
    | [] => some type
    | ';' :: parameters =>
      if !full.isEmpty && areParameters (parameters.length + 1) parameters then some type else none
    | _ => none
  | _, _ => none

/-- Whether bodies of a type are read as JSON. -/
def isJson (t : MediaType) : Bool :=
  t.kind == "application".toList &&
    (t.subtype == "json".toList || t.suffix == some "json".toList)

/-- Whether a text is the type of bodies that are read as JSON. -/
def json? (text : String) : Bool := (ofText? text).any isJson

end MediaType

end Reporting
