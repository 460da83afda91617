import Stylus.Document.Json
import Stylus.Toml.Value

/-!
# Settings as written

`Toml.print` writes a table as a text of settings: values first, one a line, and then a section with
a header for every table inside, an empty line in front of it.  A table that holds nothing but
tables needs no header.
-/

set_option autoImplicit false

namespace Stylus
namespace Toml

/-- A name as part of a key. -/
def nameText (name : String) : String :=
  if !name.isEmpty && name.toList.all isBare then name else String.ofList (Json.quoted name)

/-- The header of a table. -/
def headerText (path : List String) : String :=
  "[" ++ ".".intercalate (path.map nameText) ++ "]\n"

/-- A value under its name. -/
def entryText (name : String) (value : Json) : String :=
  nameText name ++ " = " ++ value.compact ++ "\n"

/-- The values of a table, and the sections of the tables inside. -/
structure Printed where
  values : List String
  sections : List String

namespace Printed

/-- The sections of a table with its header. -/
def headed (path : List String) (p : Printed) : List String :=
  if p.values.isEmpty && !p.sections.isEmpty then p.sections
  else (headerText path ++ String.join p.values) :: p.sections

end Printed

mutual

/-- What is printed of a member. -/
def printMember (path : List String) (name : String) (rest : Printed) : Json → Printed
  | .table members =>
    { rest with sections := (printMembers path members).headed path ++ rest.sections }
  | value => { rest with values := entryText name value :: rest.values }

/-- What is printed of members. -/
def printMembers (path : List String) : List (String × Json) → Printed
  | [] => ⟨[], []⟩
  | (name, value) :: rest => printMember (path ++ [name]) name (printMembers path rest) value

end

/-- A table as a text of settings. -/
def print (members : List (String × Json)) : String :=
  let p := printMembers [] members
  let top := String.join p.values
  "\n".intercalate (if top.isEmpty then p.sections else top :: p.sections)

end Toml
end Stylus
