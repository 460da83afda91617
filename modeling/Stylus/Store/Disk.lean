import Stylus.Path
import Stylus.Store.Filing
import Stylus.Text.Utf8

/-!
# Files in memory

A `Disk` is a tree of directories and files.  `Disk.perform` carries out a single act on it, and
`Filing.run` work made of many; `Filing.runWith` lets chosen acts fail.
-/

set_option autoImplicit false

namespace Stylus

/-- What a path leads to. -/
inductive DiskEntry where
  | file (content : List UInt8)
  | directory
deriving DecidableEq, Repr

/-- Directories and files by their paths. -/
structure Disk where
  entries : List (List String × DiskEntry) := []
deriving DecidableEq, Repr

namespace Disk

/-- The longest name that a file can have, in bytes. -/
def nameLimit : Nat := 255

/-- The longest path, in bytes. -/
def pathLimit : Nat := 4095

/-- What a path leads to; the empty path leads to the directory of everything. -/
def get? (d : Disk) (path : List String) : Option DiskEntry :=
  if path.isEmpty then some .directory else (d.entries.find? (·.1 = path)).map (·.2)

/-- Removes what a path leads to. -/
def erase (d : Disk) (path : List String) : Disk :=
  ⟨d.entries.filter (·.1 ≠ path)⟩

/-- Puts something at a path, in place of what was there. -/
def put (d : Disk) (path : List String) (entry : DiskEntry) : Disk :=
  ⟨(d.erase path).entries ++ [(path, entry)]⟩

/-- The first error on the way to a path, after the directory `before`. -/
def wayFrom (d : Disk) (before : List String) : List String → Option FileError
  | [] => none
  | name :: rest =>
    match d.get? before with
    | none => some .missing
    | some (.file _) => some .notDirectory
    | some .directory =>
      if nameLimit < name.utf8ByteSize then some .nameTooLong
      else d.wayFrom (before ++ [name]) rest

/-- The first error on the way to a path. -/
def way (d : Disk) (path : String) : Option FileError :=
  if path.toList.contains '\x00' then some .nulByte
  else if pathLimit < path.utf8ByteSize then some .nameTooLong
  else d.wayFrom [] (Path.components path)

/-- Finds what a path leads to. -/
def resolve (d : Disk) (path : String) : Except FileError DiskEntry :=
  match d.way path with
  | some e => .error e
  | none =>
    match d.get? (Path.components path) with
    | some entry => .ok entry
    | none => .error .missing

/-- The content of a file. -/
def read (d : Disk) (path : String) : Except FileError (List UInt8) :=
  match d.resolve path with
  | .ok (.file content) => .ok content
  | .ok .directory => .error .isDirectory
  | .error e => .error e

/-- The name of an entry that lies in a directory. -/
def nameIn? (directory path : List String) : Option String :=
  if path.dropLast = directory then path.getLast? else none

/-- The names in a directory. -/
def list (d : Disk) (path : String) : Except FileError (List String) :=
  match d.resolve path with
  | .ok (.file _) => .error .notDirectory
  | .ok .directory => .ok (d.entries.filterMap fun e => nameIn? (Path.components path) e.1)
  | .error e => .error e

/-- Makes the directories of a path, after the directory `before`. -/
def makeFrom (d : Disk) (before : List String) : List String → Disk × Except FileError Unit
  | [] => (d, .ok ())
  | name :: rest =>
    let path := before ++ [name]
    if nameLimit < name.utf8ByteSize then (d, .error .nameTooLong)
    else
      match d.get? path with
      | some .directory => d.makeFrom path rest
      | some (.file _) => (d, .error (if rest.isEmpty then .occupied else .notDirectory))
      | none => (d.put path .directory).makeFrom path rest

/-- Makes a directory, and those it lies in. -/
def makeDirectory (d : Disk) (path : String) : Disk × Except FileError Unit :=
  if path.toList.contains '\x00' then (d, .error .nulByte)
  else d.makeFrom [] (Path.components path)

/-- Replaces the content of a file, or makes the file. -/
def write (d : Disk) (path : String) (content : List UInt8) : Disk × Except FileError Unit :=
  match d.resolve path with
  | .ok (.file _) => (d.put (Path.components path) (.file content), .ok ())
  | .ok .directory => (d, .error .isDirectory)
  | .error .missing =>
    match d.way path with
    | some e => (d, .error e)
    | none => (d.put (Path.components path) (.file content), .ok ())
  | .error e => (d, .error e)

/-- Gives a file another name, in place of what went by it. -/
def rename (d : Disk) (source target : String) : Disk × Except FileError Unit :=
  match d.resolve source with
  | .error e => (d, .error e)
  | .ok entry =>
    match d.way target with
    | some e => (d, .error e)
    | none =>
      match d.get? (Path.components target) with
      | some .directory => (d, .error .isDirectory)
      | _ =>
        ((d.erase (Path.components source)).put (Path.components target) entry, .ok ())

/-- Carries out an act. -/
def perform (d : Disk) : (a : FileAct) → Disk × Except FileError a.Result
  | .read path => (d, d.read path)
  | .list path => (d, d.list path)
  | .makeDirectory path => d.makeDirectory path
  | .write path content => d.write path content
  | .rename source target => d.rename source target

/-- How an act fails that could have succeeded: with an error, and perhaps with a part of it
done. -/
structure Mishap where
  error : FileError
  /-- how many of the directories of a path have been made, or were there -/
  made : Nat := 0
  /-- how many bytes have been written, if the file could be opened -/
  written : Option Nat := none

/-- Makes the first directories of a path. -/
def makeSome (d : Disk) (path : String) (n : Nat) : Disk :=
  if path.toList.contains '\x00' then d else (d.makeFrom [] ((Path.components path).take n)).1

/-- What an act that fails leaves behind. -/
def fail (d : Disk) (m : Mishap) : FileAct → Disk
  | .makeDirectory path => d.makeSome path m.made
  | .write path content => m.written.elim d fun n => (d.write path (content.take n)).1
  | .read _ | .list _ | .rename _ _ => d

end Disk

namespace Filing

variable {α : Type}

/-- Carries out work. -/
def run (d : Disk) : Filing α → Disk × α
  | done a => (d, a)
  | act a next => run (d.perform a).1 (next (d.perform a).2)

/-- Carries out work of which chosen acts fail: the `n`-th act fails if the list says so. -/
def runWith (mishaps : List (Option Disk.Mishap)) (d : Disk) : Filing α → Disk × α
  | done a => (d, a)
  | act a next =>
    match mishaps with
    | some m :: rest => runWith rest (d.fail m a) (next (.error m.error))
    | none :: rest => runWith rest (d.perform a).1 (next (d.perform a).2)
    | [] => runWith [] (d.perform a).1 (next (d.perform a).2)

end Filing

end Stylus
