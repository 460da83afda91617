/-!
# Work on files

Work on files is written down as what it asks for and how it goes on from the answer: a tree of
`FileAct`s.  So the same work can be carried out on the files of a machine, on a `Disk` in memory,
or on one that fails at any chosen step.

* `FileAct` — a single act;
* `Filing` — work on files, a monad.
-/

set_option autoImplicit false

namespace Stylus

/-- Why an act fails. -/
inductive FileError where
  | missing
  | occupied
  | notDirectory
  | isDirectory
  | nameTooLong
  | nulByte
  | other (text : String)
deriving DecidableEq, Repr

/-- The wording of an error. -/
def FileError.message : FileError → String
  | missing => "No such file or directory (os error 2)"
  | occupied => "File exists (os error 17)"
  | notDirectory => "Not a directory (os error 20)"
  | isDirectory => "Is a directory (os error 21)"
  | nameTooLong => "File name too long (os error 36)"
  | nulByte => "file name contained an unexpected NUL byte"
  | other text => text

/-- The error says that there is nothing at a path. -/
def FileError.isAbsence : FileError → Bool
  | missing | notDirectory | nameTooLong | nulByte => true
  | occupied | isDirectory | other _ => false

/-- A single act on files. -/
inductive FileAct where
  | read (path : String)
  /-- lists the names in a directory -/
  | list (path : String)
  /-- makes a directory, and those it lies in, unless it is there -/
  | makeDirectory (path : String)
  /-- replaces the content of a file, or makes the file -/
  | write (path : String) (content : List UInt8)
  /-- gives a file another name, in place of what went by it -/
  | rename (source target : String)
deriving DecidableEq, Repr

/-- What an act yields. -/
@[reducible] def FileAct.Result : FileAct → Type
  | read _ => List UInt8
  | list _ => List String
  | makeDirectory _ | write _ _ | rename _ _ => Unit

/-- Work on files. -/
inductive Filing (α : Type) where
  | done (a : α)
  | act (a : FileAct) (next : Except FileError a.Result → Filing α)

namespace Filing

variable {α β : Type}

/-- Goes on with other work. -/
def bind : Filing α → (α → Filing β) → Filing β
  | done a, f => f a
  | act a next, f => act a fun r => (next r).bind f

instance : Monad Filing where
  pure := done
  bind := bind

/-- A single act. -/
def perform (a : FileAct) : Filing (Except FileError a.Result) :=
  act a done

end Filing

end Stylus
