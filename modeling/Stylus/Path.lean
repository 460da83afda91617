/-!
# Paths

Paths are texts whose parts are divided by slashes.

* `Path.components` — the parts that lead somewhere;
* `Path.join`, `Path.parent`, `Path.withExtension` — neighbouring paths;
* `Path.stem`, `Path.extension?` — the two halves of a file name;
* `Path.expandHome` — paths in the home directory.
-/

set_option autoImplicit false

namespace Stylus
namespace Path

/-- Cuts at every `separator`. -/
def parts (separator : Char) : List Char → List (List Char)
  | [] => [[]]
  | c :: rest =>
    if c = separator then [] :: parts separator rest
    else
      match parts separator rest with
      | [] => [[c]]
      | part :: others => (c :: part) :: others

/-- A part that leads nowhere: what is between two slashes in a row, or a single dot. -/
def isIdle (part : List Char) : Bool :=
  part.isEmpty || part = ['.']

/-- The parts that lead somewhere. -/
def components (path : String) : List String :=
  ((parts '/' path.toList).filter (!isIdle ·)).map String.ofList

/-- A path inside a directory. -/
def join (directory inner : String) : String :=
  if directory.isEmpty || directory.endsWith "/" then directory ++ inner
  else directory ++ "/" ++ inner

/-- The path of components. -/
def ofComponents (absolute : Bool) (components : List String) : String :=
  (if absolute then "/" else "") ++ "/".intercalate components

/-- The directory that a path lies in. -/
def parent (path : String) : String :=
  ofComponents (path.startsWith "/") (components path).dropLast

/-- A file name cut at its last dot, unless that is its first character. -/
def cutName (name : List Char) : List Char × Option (List Char) :=
  let tail := (name.reverse.takeWhile (· ≠ '.')).reverse
  let head := name.take (name.length - tail.length - 1)
  if tail.length = name.length || head.isEmpty then (name, none) else (head, some tail)

/-- A file name without its extension. -/
def stem (name : String) : String :=
  String.ofList (cutName name.toList).1

/-- The extension of a file name. -/
def extension? (name : String) : Option String :=
  (cutName name.toList).2.map String.ofList

/-- The path with another extension. -/
def withExtension (path extension : String) : String :=
  match (components path).getLast? with
  | some name => join (parent path) (stem name ++ "." ++ extension)
  | none => path

/-- A path that begins with the part `~` lies in the home directory.  Idle parts at both ends of
what follows are dropped. -/
def expandHome (home : Option String) (path : String) : String :=
  match home, parts '/' path.toList with
  | some home, ['~'] :: rest =>
    let inner := ((rest.dropWhile isIdle).reverse.dropWhile isIdle).reverse
    join home (String.ofList (List.intercalate ['/'] inner))
  | _, _ => path

end Path
end Stylus
