import Stylus.Motion.Gcode
import Stylus.Proofs.Document.Numeral
import Stylus.Proofs.Number.Finite

/-!
# How commands are spelt

A command is a line of words with a blank between each two.  A word is a letter, and behind it a
number in plain decimal notation or nothing; the firmware takes nothing else for a word.

* `Gcode.WellSpelt` — a command whose line is of that form;
* `Gcode.values` — the numbers that are printed into a command;
* `Gcode.wellSpelt_of_finite` — **a command is well spelt if its numbers are finite**;
* `Gcode.isLower_of_wellSpelt` — no other letters than capitals are in a well-spelt line, and so
  neither `NaN` nor `inf`.
-/

set_option autoImplicit false

namespace Stylus

namespace Gcode

open Lexeme (Spelt)

/-- A number in plain decimal notation: digits, with a point and places or without, and with a sign
if it is negative. -/
inductive IsDecimal : String → Prop where
  | unsigned {whole places : List Char} (spelt : Spelt whole places []) :
    IsDecimal (String.ofList (whole ++ places))
  | negative {whole places : List Char} (spelt : Spelt whole places []) :
    IsDecimal (String.ofList ('-' :: (whole ++ places)))

/-- A word: a capital letter, and behind it a number or nothing. -/
inductive IsWord : String → Prop where
  | letter {c : Char} (capital : c.isUpper = true) : IsWord (String.singleton c)
  | value {c : Char} (capital : c.isUpper = true) {text : String} (decimal : IsDecimal text) :
    IsWord (String.singleton c ++ text)

/-- **The line of the command is made of words.** -/
def WellSpelt (line : Gcode) : Prop :=
  ∃ words, line.text = " ".intercalate words ∧ ∀ w ∈ words, IsWord w

/-! ## Numbers in commands -/

/-- The numbers that are printed into a command. -/
def values : Gcode → List Float
  | move words feed => words.map Prod.snd ++ feed.toList
  | maxFeed limits => [limits.e, limits.x, limits.y, limits.z]
  | _ => []

/-- All numbers of the command are finite. -/
def Finite (line : Gcode) : Prop :=
  ∀ x ∈ line.values, Number.isFinite x = true

theorem isDecimal_whole (n : Nat) : IsDecimal (String.ofList (Nat.toDigits 10 n ++ [])) :=
  .unsigned ⟨Lexeme.whole_toDigits n, .none, .none⟩

/-- **A finite number is printed in plain decimal notation.** -/
theorem isDecimal_coordinate {x : Float} (h : Number.isFinite x = true) :
    IsDecimal (coordinate x) := by
  rw [coordinate]
  split
  · exact isDecimal_whole 0
  · rw [Number.Form.render]
    rw [Number.isFinite] at h
    rcases hx : Number.Binary.ofFloat x with _ | negative | ⟨negative, m, e⟩
    · rw [hx] at h
      cases h
    · rw [hx] at h
      cases h
    · have hbody : ∃ ws ps, (if m = 0 then ['0'] else
          Number.Form.plain.decimal (Number.shortest .up m e)) = ws ++ ps ∧ Spelt ws ps [] := by
        split
        · exact ⟨['0'], [], rfl, Lexeme.whole_zero, .none, .none⟩
        · rename_i hm
          exact Lexeme.spelt_positional false
            (Number.shortest_pos .up (Nat.pos_of_ne_zero hm) (Number.inRange_of_ofFloat hx))
      obtain ⟨ws, ps, htext, spelt⟩ := hbody
      replace htext : (if m = 0 then (if Number.Form.plain.pointed then ['0', '.', '0'] else ['0'])
          else Number.Form.plain.decimal (Number.shortest Number.Form.plain.tie m e)) = ws ++ ps :=
        htext
      dsimp only
      rw [htext]
      split
      · exact .negative spelt
      · exact .unsigned spelt

/-- A word that numbers a command. -/
theorem isWord_whole {c : Char} (capital : c.isUpper = true) (n : Nat) :
    IsWord (String.singleton c ++ String.ofList (Nat.toDigits 10 n ++ [])) :=
  .value capital (isDecimal_whole n)

theorem capital_letter (axis : Axis) : axis.letter.isUpper = true := by
  cases axis <;> rfl

theorem isWord_word {w : Axis × Float} (h : Number.isFinite w.2 = true) : IsWord (word w) :=
  .value (capital_letter w.1) (isDecimal_coordinate h)

theorem isWord_feedWord {feed : Option Float} (h : ∀ x ∈ feed, Number.isFinite x = true) :
    ∀ w ∈ feedWord feed, IsWord w := by
  match feed, h with
  | none, _ => exact nofun
  | some x, h =>
    have hword : IsWord (String.singleton 'F' ++ coordinate x) :=
      .value (by decide) (isDecimal_coordinate (h x rfl))
    exact List.forall_mem_singleton.mpr hword

/-- A line of one word. -/
theorem wellSpelt_of_word {line : Gcode} (h : IsWord line.text) : line.WellSpelt :=
  ⟨[line.text], String.intercalate_singleton.symm, List.forall_mem_singleton.mpr h⟩

/-- **A command is well spelt if its numbers are finite.** -/
theorem wellSpelt_of_finite {line : Gcode} (h : line.Finite) : line.WellSpelt := by
  match line, h with
  | .home, _ => exact wellSpelt_of_word (isWord_whole (c := 'G') (by decide) 28)
  | .absolute, _ => exact wellSpelt_of_word (isWord_whole (c := 'G') (by decide) 90)
  | .relative, _ => exact wellSpelt_of_word (isWord_whole (c := 'G') (by decide) 91)
  | .relativeStylus, _ => exact wellSpelt_of_word (isWord_whole (c := 'M') (by decide) 83)
  | .finish, _ => exact wellSpelt_of_word (isWord_whole (c := 'M') (by decide) 400)
  | .motorsOff, _ => exact wellSpelt_of_word (isWord_whole (c := 'M') (by decide) 18)
  | .identify, _ => exact wellSpelt_of_word (isWord_whole (c := 'M') (by decide) 115)
  | .fanOff, _ => exact wellSpelt_of_word (isWord_whole (c := 'M') (by decide) 107)
  | .homeAxis axis, _ =>
    refine ⟨["G28", axis.name], rfl, ?_⟩
    simp only [List.mem_cons, List.not_mem_nil, or_false]
    rintro w (rfl | rfl)
    · exact isWord_whole (c := 'G') (by decide) 28
    · exact .letter (capital_letter axis)
  | .allowCold, _ =>
    refine ⟨["M302", "P1"], rfl, ?_⟩
    simp only [List.mem_cons, List.not_mem_nil, or_false]
    rintro w (rfl | rfl)
    · exact isWord_whole (c := 'M') (by decide) 302
    · exact isWord_whole (c := 'P') (by decide) 1
  | .move words feed, h =>
    refine ⟨"G0" :: (words.map word ++ feedWord feed), rfl, ?_⟩
    intro w hw
    rcases List.mem_cons.mp hw with rfl | hw
    · exact isWord_whole (c := 'G') (by decide) 0
    · rcases List.mem_append.mp hw with hw | hw
      · obtain ⟨named, hnamed, rfl⟩ := List.mem_map.mp hw
        exact isWord_word (h _ (List.mem_append_left _ (List.mem_map_of_mem hnamed)))
      · refine isWord_feedWord (fun x hx => h x (List.mem_append_right _ ?_)) w hw
        exact Option.mem_toList.mpr hx
  | .maxFeed limits, h =>
    refine ⟨"M203" :: [(Axis.e, limits.e), (.x, limits.x), (.y, limits.y), (.z, limits.z)].map word,
      rfl, ?_⟩
    intro w hw
    rcases List.mem_cons.mp hw with rfl | hw
    · exact isWord_whole (c := 'M') (by decide) 203
    · obtain ⟨named, hnamed, rfl⟩ := List.mem_map.mp hw
      refine isWord_word (h _ ?_)
      exact List.mem_map_of_mem (f := Prod.snd) hnamed

/-! ## What is not well spelt -/

theorem isLower_of_isDigit {c : Char} (h : c.isDigit = true) : c.isLower = false := by
  simp only [Char.isDigit, Char.isLower, Bool.and_eq_true, decide_eq_true_eq, Bool.and_eq_false_iff,
    decide_eq_false_iff_not, ge_iff_le, UInt32.le_iff_toNat_le] at h ⊢
  exact .inl (Nat.not_le.mpr (Nat.lt_of_le_of_lt h.2 (by decide)))

theorem isLower_of_spelt {whole places : List Char} (h : Spelt whole places []) :
    ∀ c ∈ whole ++ places, c.isLower = false := by
  intro c hc
  rcases List.mem_append.mp hc with hc | hc
  · exact isLower_of_isDigit (h.whole.isDigit c hc)
  · rcases h.places with _ | digits
    · cases hc
    · rcases List.mem_cons.mp hc with rfl | hc
      · rfl
      · exact isLower_of_isDigit (digits.isDigit c hc)

theorem isLower_of_isDecimal {text : String} (h : IsDecimal text) :
    ∀ c ∈ text.toList, c.isLower = false := by
  rcases h with spelt | spelt <;> rw [String.toList_ofList]
  · exact isLower_of_spelt spelt
  · exact List.forall_mem_cons.mpr ⟨rfl, isLower_of_spelt spelt⟩

theorem isLower_of_isUpper {c : Char} (h : c.isUpper = true) : c.isLower = false := by
  simp only [Char.isUpper, Char.isLower, decide_eq_true_eq, Bool.and_eq_false_iff,
    decide_eq_false_iff_not, ge_iff_le, UInt32.le_iff_toNat_le] at h ⊢
  exact .inl (Nat.not_le.mpr (Nat.lt_of_le_of_lt h.2 (by decide)))

theorem isLower_of_isWord {word : String} (h : IsWord word) :
    ∀ c ∈ word.toList, c.isLower = false := by
  rcases h with capital | ⟨capital, decimal⟩
  · rw [String.toList_singleton]
    exact List.forall_mem_singleton.mpr (isLower_of_isUpper capital)
  · rw [String.toList_append, String.toList_singleton]
    exact List.forall_mem_cons.mpr ⟨isLower_of_isUpper capital, isLower_of_isDecimal decimal⟩

/-- In a well-spelt line there are no letters but capitals. -/
theorem isLower_of_wellSpelt {line : Gcode} (h : line.WellSpelt) :
    ∀ c ∈ line.text.toList, c.isLower = false := by
  obtain ⟨words, htext, hwords⟩ := h
  rw [htext]
  clear htext
  induction words with
  | nil => exact nofun
  | cons w words ih =>
    have hword := isLower_of_isWord (hwords w List.mem_cons_self)
    rcases words with _ | ⟨w', words⟩
    · rw [String.intercalate_singleton]
      exact hword
    · have hwords := ih fun w hw => hwords w (List.mem_cons_of_mem _ hw)
      rw [String.intercalate_cons_cons, String.toList_append, String.toList_append]
      intro c hc
      rcases List.mem_append.mp hc with hc | hc
      · rcases List.mem_append.mp hc with hc | hc
        · exact hword c hc
        · rw [List.mem_singleton.mp hc]
          rfl
      · exact hwords c hc

end Gcode

end Stylus
