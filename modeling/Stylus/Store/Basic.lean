import Stylus.Layout.Basic
import Stylus.Path
import Stylus.Store.Filing
import Stylus.Text.Utf8

/-!
# The store

Scripts and layouts are kept as documents, each in a file of its own that carries its name.  A
document that says no name goes by that of its file.

* `Storing` — work on files that can fail for reasons of its own;
* `Store.listScripts`, `Store.listLayouts` — the names of all documents;
* `Store.loadScript`, `Store.loadLayout` — reads a document;
* `Store.saveLayout` — writes a layout.  It is written beside its file first and then takes the
  file's place, so that no layout is ever half written.

A name that could lead out of the directory is not looked for.
-/

set_option autoImplicit false

namespace Stylus

/-- Work on files that can fail. -/
abbrev Storing := ExceptT Failure Filing

/-- The directories of scripts and layouts. -/
structure Store where
  scripts : String
  layouts : String

namespace Store

variable {α : Type}

/-- The extension of documents. -/
def extension : String := "json"

/-- A single act; its error is the failure of the work. -/
def perform (a : FileAct) : Storing a.Result :=
  ExceptT.mk do
    match ← Filing.perform a with
    | .ok r => return .ok r
    | .error e => return .error (.io e.message)

/-- Fails for a reason of the work itself. -/
def fail (f : Failure) : Storing α :=
  ExceptT.mk (.done (.error f))

/-! ## Names -/

/-- Two dots in a row. -/
def hasTwoDots : List Char → Bool
  | [] => false
  | c :: rest => (c = '.' && rest.head? == some '.') || hasTwoDots rest

/-- A name that cannot lead out of its directory. -/
def isPlain (name : String) : Bool :=
  let cs := name.toList
  !cs.isEmpty && cs.head? != some '.' && !cs.contains '/' && !cs.contains '\\'
    && !hasTwoDots cs

/-- The file of a document. -/
def documentPath (directory : String) (kind : DocumentKind) (name : String) :
    Except Failure String :=
  if isPlain name then .ok (Path.join directory (name ++ "." ++ extension))
  else .error (.notFound kind name)

/-- The name of the document in a file, if it is one. -/
def documentName? (file : String) : Option String :=
  if Path.extension? file = some extension then some (Path.stem file) else none

/-- The names of the documents in a directory, in order. -/
def listNames (directory : String) : Storing (List String) :=
  ExceptT.mk do
    match ← Filing.perform (.list directory) with
    | .ok files =>
      return .ok ((files.filterMap documentName?).mergeSort fun a b => decide (a ≤ b))
    | .error .missing => return .ok []
    | .error e => return .error (.io e.message)

/-- The names of all scripts. -/
def listScripts (store : Store) : Storing (List String) :=
  listNames store.scripts

/-- The names of all layouts. -/
def listLayouts (store : Store) : Storing (List String) :=
  listNames store.layouts

/-! ## Reading -/

/-- What the content of a file says. -/
def decode (kind : DocumentKind) (name : String) (reader : Reader α) (content : List UInt8) :
    Except Failure α :=
  match Text.Utf8.strict content with
  | .error _ => .error (.io "stream did not contain valid UTF-8")
  | .ok text =>
    match reader.ofText text with
    | .ok a => .ok a
    | .error f => .error (.invalidDocument kind name f.message)

/-- Reads a document. -/
def loadDocument (directory : String) (kind : DocumentKind) (name : String) (reader : Reader α) :
    Storing α :=
  match documentPath directory kind name with
  | .error f => fail f
  | .ok path =>
    ExceptT.mk do
      match ← Filing.perform (.read path) with
      | .ok content => return decode kind name reader content
      | .error .missing => return .error (.notFound kind name)
      | .error e => return .error (.io e.message)

/-- Reads a script. -/
def loadScript (store : Store) (name : String) : Storing Script := do
  let script ← loadDocument store.scripts .script name Script.reader
  return if script.name.isEmpty then { script with name } else script

/-- Reads a layout; it remembers its file. -/
def loadLayout (store : Store) (name : String) : Storing Layout := do
  let layout ← loadDocument store.layouts .layout name Layout.reader
  let source := some (Path.join store.layouts (name ++ "." ++ extension))
  return if layout.name.isEmpty then { layout with name, source } else { layout with source }

/-! ## Writing -/

/-- The file that a layout is written to: the one it was read from, or that of its name. -/
def layoutPath (store : Store) (layout : Layout) : Except Failure String :=
  match layout.source with
  | some source => .ok source
  | none => documentPath store.layouts .layout layout.name

/-- The content of the file of a layout. -/
def encode (layout : Layout) : List UInt8 :=
  Text.Utf8.encode (layout.toJson.pretty ++ "\n")

/-- The file that a layout is in while it is written. -/
def draftPath (path : String) : String :=
  Path.withExtension path "json.tmp"

/-- Writes a layout, and tells where. -/
def saveLayout (store : Store) (layout : Layout) : Storing String :=
  match store.layoutPath layout with
  | .error f => fail f
  | .ok path => do
    perform (.makeDirectory (Path.parent path))
    perform (.write (draftPath path) (encode layout))
    perform (.rename (draftPath path) path)
    return path

end Store

end Stylus
