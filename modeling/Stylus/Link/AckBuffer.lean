import Stylus.Text.Blank
import Stylus.Text.Utf8

/-!
# Acknowledgments

The firmware answers a command with lines of text, the last of which says `ok`.  An `AckBuffer`
gathers what arrives until such a line is complete.

* `AckBuffer.push` — more bytes arrive;
* `AckBuffer.takeResponse` — takes everything through the first line that says `ok`;
* `AckBuffer.takePending` — takes whatever there is.
-/

set_option autoImplicit false

namespace Stylus

/-- Text that has arrived and was not taken yet. -/
structure AckBuffer where
  pending : List Char := []
deriving DecidableEq, Repr

namespace AckBuffer

/-- A line that acknowledges: nothing but `ok`, blanks around it not counting. -/
def isAck (line : List Char) : Bool :=
  Text.trimmed line = ['o', 'k']

/-- Splits a text after its first line that acknowledges; `line` is what came before on the line at
hand, in reverse order. -/
def split (line : List Char) : List Char → Option (List Char × List Char)
  | [] => none
  | c :: rest =>
    if c = '\n' then
      if isAck line.reverse then some ([c], rest)
      else (split [] rest).map fun (taken, left) => (c :: taken, left)
    else (split (c :: line) rest).map fun (taken, left) => (c :: taken, left)

/-- More bytes arrive; each lot is decoded by itself. -/
def push (buffer : AckBuffer) (bytes : List UInt8) : AckBuffer :=
  ⟨buffer.pending ++ (Text.Utf8.lossy bytes).toList⟩

/-- Takes everything through the first line that acknowledges, if there is one. -/
def takeResponse (buffer : AckBuffer) : Option String × AckBuffer :=
  match split [] buffer.pending with
  | some (taken, left) => (some (String.ofList taken), ⟨left⟩)
  | none => (none, buffer)

/-- Takes whatever there is, if there is anything. -/
def takePending (buffer : AckBuffer) : Option String × AckBuffer :=
  match buffer.pending with
  | [] => (none, buffer)
  | pending => (some (String.ofList pending), {})

end AckBuffer

end Stylus
