import Stylus.Proofs.Document.Leaf
import Stylus.Protocol.Response

/-!
# Documents on one line

Where a line ends for whoever reads it is where its newline is, so there must be none inside.  What
a name or a text holds is written with escapes, numbers are digits, points, signs and letters, and
between values there are marks only: no character of the compact form is a control character.

* `Printable` — no control character;
* `printable_chars` — all characters of the compact form;
* `Response.newline_not_mem` — **an answer is a single line**.
-/

set_option autoImplicit false

namespace Stylus

/-- A row of characters without control characters. -/
def Printable (cs : List Char) : Prop :=
  ∀ c ∈ cs, 32 ≤ c.toNat

instance (cs : List Char) : Decidable (Printable cs) :=
  List.decidableBAll (fun c : Char => 32 ≤ c.toNat) cs

namespace Printable

variable {c : Char} {cs ds : List Char}

theorem nil : Printable [] := by
  intro c hc
  cases hc

theorem append (h : Printable cs) (h' : Printable ds) : Printable (cs ++ ds) := by
  intro c hc
  rcases List.mem_append.1 hc with hc | hc
  · exact h c hc
  · exact h' c hc

theorem cons (hc : 32 ≤ c.toNat) (h : Printable cs) : Printable (c :: cs) :=
  List.forall_mem_cons.2 ⟨hc, h⟩

theorem of_digits (h : ∀ c ∈ cs, c.isDigit = true) : Printable cs := by
  intro c hc
  have hdigit := h c hc
  rw [Char.isDigit, Bool.and_eq_true, decide_eq_true_eq, decide_eq_true_eq] at hdigit
  exact Nat.le_trans (by decide) (UInt32.le_iff_toNat_le.1 hdigit.1)

end Printable

/-! ## Numbers -/

namespace Lexeme

theorem Spelt.printable {ws ps es : List Char} (h : Spelt ws ps es) :
    Printable (ws ++ (ps ++ es)) := by
  have hplaces : Printable ps := by
    cases h.places with
    | none => exact .nil
    | some digits => exact .cons (by decide) (.of_digits digits.isDigit)
  have hexponent : Printable es := by
    cases h.exponent with
    | none => exact .nil
    | plus digits => exact .cons (by decide) (.cons (by decide) (.of_digits digits.isDigit))
    | minus digits => exact .cons (by decide) (.cons (by decide) (.of_digits digits.isDigit))
  exact (Printable.of_digits h.whole.isDigit).append (hplaces.append hexponent)

theorem printable_signed (negative : Bool) {text : List Char} (h : Printable text) :
    Printable (signed negative text) := by
  cases negative with
  | true => exact .cons (by decide) h
  | false => exact h

end Lexeme

namespace Json

theorem printable_realText (x : Float) : Printable (realText x) := by
  rcases Lexeme.realText_cases x with hnull | ⟨negative, ws, ps, es, hspelt, htext⟩
  · rw [hnull]
    decide
  · rw [htext]
    exact Lexeme.printable_signed negative hspelt.printable

theorem printable_integerText (n : Int) : Printable (integerText n) := by
  have hdigits : Printable (Nat.toDigits 10 n.natAbs) :=
    .of_digits (Lexeme.digits_toDigits _).isDigit
  rw [integerText]
  split
  · exact .cons (by decide) hdigits
  · exact hdigits

/-! ## Texts -/

theorem printable_hexDigit : ∀ n < 16, 32 ≤ (hexDigit n).toNat := by decide

/-- **Control characters are written as escapes.** -/
theorem printable_escaped (c : Char) : Printable (escaped c) := by
  rw [escaped]
  split
  · decide
  split
  · decide
  split
  · decide
  split
  · decide
  split
  · decide
  split
  · decide
  split
  · decide
  split
  · rename_i hcontrol
    have hhigh := printable_hexDigit (c.toNat / 16) (by omega)
    have hlow := printable_hexDigit (c.toNat % 16) (by omega)
    have hlead : Printable ['\\', 'u', '0', '0'] := by decide
    exact hlead.append (.cons hhigh (.cons hlow .nil))
  · rename_i hplain
    exact .cons (Nat.le_of_not_lt hplain) .nil

theorem printable_quoted (s : String) : Printable (quoted s) := by
  have hinside : Printable (s.toList.flatMap escaped) := by
    intro c hc
    obtain ⟨d, -, hd⟩ := List.mem_flatMap.1 hc
    exact printable_escaped d c hd
  exact .cons (by decide) (hinside.append (by decide))

theorem printable_leafText (v : Json) : Printable (leafText v) := by
  cases v with
  | null => exact (by decide : Printable ['n', 'u', 'l', 'l'])
  | boolean b => cases b <;> (rw [leafText]; decide)
  | integer n => exact printable_integerText n
  | real x => exact printable_realText x
  | text s => exact printable_quoted s
  | list _ | table _ => exact .nil

/-! ## Documents -/

mutual

/-- **There is no control character in the compact form** of a document. -/
theorem printable_chars (v : Json) : Printable (chars v) := by
  match v with
  | .list [] => rw [chars]; decide
  | .list (item :: rest) =>
    rw [chars]
    exact .cons (by decide) ((printable_chars item).append (printable_itemChars rest))
  | .table [] => rw [chars]; decide
  | .table ((name, item) :: rest) =>
    rw [chars]
    exact .cons (by decide) ((printable_quoted name).append
      (.cons (by decide) ((printable_chars item).append (printable_memberChars rest))))
  | .null | .boolean _ | .integer _ | .real _ | .text _ =>
    rw [chars]
    · exact printable_leafText _
    all_goals exact nofun

theorem printable_itemChars (items : List Json) : Printable (itemChars items) := by
  match items with
  | [] => rw [itemChars]; decide
  | item :: rest =>
    rw [itemChars]
    exact .cons (by decide) ((printable_chars item).append (printable_itemChars rest))

theorem printable_memberChars (members : List (String × Json)) :
    Printable (memberChars members) := by
  match members with
  | [] => rw [memberChars]; decide
  | (name, item) :: rest =>
    rw [memberChars]
    exact .cons (by decide) ((printable_quoted name).append
      (.cons (by decide) ((printable_chars item).append (printable_memberChars rest))))

end

end Json

/-- **An answer is a single line**: there is no newline in its text. -/
theorem Response.newline_not_mem (r : Response) : '\n' ∉ r.text.toList := by
  intro hmem
  rw [text, Json.compact, String.toList_ofList] at hmem
  exact absurd (r.toJson.printable_chars _ hmem) (by decide)

end Stylus
