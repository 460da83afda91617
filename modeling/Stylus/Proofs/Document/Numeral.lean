import Stylus.Proofs.Number.Shortest
import Stylus.Document.Json
import Stylus.Document.Lexeme

/-!
# Numbers as lexemes

The text of a number is cut out of a document by what may not follow it, so where it ends depends on
what comes after.  Behind every number that is written there is white space, a comma, a closing
bracket or brace, or nothing at all (`Delimited`), and then the number is one lexeme to the last
digit.

* `Spelt` — the grammar of numbers without a sign: no point without digits on both sides, and no
  zero in front of other digits;
* `unsigned_of_spelt` — such a number is read up to its end; `unsigned_whole` — what it is read as
  if it has digits only;
* `spelt_document`, `whole_toDigits` — the numbers that are written are of that grammar;
* `IsLeaf` — a text is one value, whatever follows it.
-/

set_option autoImplicit false

namespace Stylus
namespace Lexeme

/-! ## What follows a number -/

/-- What may follow a value. -/
def isDelimiter (c : Char) : Bool :=
  isSpace c || c = ',' || c = ']' || c = '}'

/-- What follows begins with a delimiter, or there is nothing. -/
def Delimited (tail : List Char) : Prop :=
  ∀ c ∈ tail.head?, isDelimiter c = true

/-- No digit follows. -/
def Stops (tail : List Char) : Prop :=
  ∀ c ∈ tail.head?, c.isDigit = false

theorem delimited_nil : Delimited [] := by
  intro c h
  cases h

theorem delimited_cons {c : Char} (h : isDelimiter c = true) (rest : List Char) :
    Delimited (c :: rest) := by
  rintro d ⟨⟩
  exact h

theorem isDelimiter_cases {c : Char} (h : isDelimiter c = true) :
    c = ' ' ∨ c = '\n' ∨ c = '\t' ∨ c = '\r' ∨ c = ',' ∨ c = ']' ∨ c = '}' := by
  simpa only [isDelimiter, isSpace, Bool.or_eq_true, decide_eq_true_eq, or_assoc] using h

theorem Delimited.stops {tail : List Char} (h : Delimited tail) : Stops tail := by
  intro c hc
  rcases isDelimiter_cases (h c hc) with rfl | rfl | rfl | rfl | rfl | rfl | rfl <;> rfl

theorem stops_cons {c : Char} (h : c.isDigit = false) (rest : List Char) : Stops (c :: rest) := by
  rintro d ⟨⟩
  exact h

/-! ## The grammar of numbers -/

/-- A row of digits. -/
structure Digits (cs : List Char) : Prop where
  ne_nil : cs ≠ []
  isDigit : ∀ c ∈ cs, c.isDigit = true

/-- The digits in front of the point: a zero stands there only by itself. -/
structure Whole (cs : List Char) : Prop extends Digits cs where
  leading : cs = ['0'] ∨ cs.head? ≠ some '0'

/-- The point and the digits after it. -/
inductive Places : List Char → Prop where
  | none : Places []
  | some {cs : List Char} (digits : Digits cs) : Places ('.' :: cs)

/-- The letter, the sign and the digits of an exponent. -/
inductive Exponent : List Char → Prop where
  | none : Exponent []
  | plus {cs : List Char} (digits : Digits cs) : Exponent ('e' :: '+' :: cs)
  | minus {cs : List Char} (digits : Digits cs) : Exponent ('e' :: '-' :: cs)

/-- **A number without its sign.** -/
structure Spelt (whole places exponent : List Char) : Prop where
  whole : Whole whole
  places : Places places
  exponent : Exponent exponent

/-! ## Reading a number -/

theorem digits_append {cs tail : List Char} (hcs : ∀ c ∈ cs, c.isDigit = true)
    (hstop : Stops tail) : digits (cs ++ tail) = (cs.map digit, tail) := by
  have htail : tail.takeWhile Char.isDigit = [] ∧ tail.dropWhile Char.isDigit = tail := by
    cases tail with
    | nil => exact ⟨rfl, rfl⟩
    | cons c rest =>
      have hc : c.isDigit = false := hstop c rfl
      simp [hc]
  rw [digits, List.takeWhile_append_of_pos hcs, List.dropWhile_append_of_pos hcs, htail.1, htail.2,
    List.append_nil]

theorem placesOf_nil {tail : List Char} (h : tail.head? ≠ some '.') :
    placesOf tail = some (none, tail) := by
  rw [placesOf]
  rintro rest rfl
  exact h rfl

theorem placesOf_cons {cs tail : List Char} (hcs : Digits cs) (hstop : Stops tail) :
    placesOf ('.' :: (cs ++ tail)) = some (some (cs.map digit), tail) := by
  rw [placesOf, digits_append hcs.isDigit hstop]
  split
  · rename_i h
    cases List.map_eq_nil_iff.1 (Prod.ext_iff.1 h).1
    exact absurd rfl hcs.ne_nil
  · rename_i h
    cases h
    rfl

theorem exponentOf_nil {tail : List Char} (h : Delimited tail) :
    exponentOf tail = some (none, tail) := by
  cases tail with
  | nil => rfl
  | cons c rest =>
    have hc : (c = 'e' || c = 'E') = false := by
      rcases isDelimiter_cases (h c rfl) with rfl | rfl | rfl | rfl | rfl | rfl | rfl <;> rfl
    rw [exponentOf, hc]
    rfl

theorem exponentOf_cons {sign : Bool} {signed cs tail : List Char}
    (hsign : exponentSign (signed ++ tail) = (sign, cs ++ tail)) (hcs : Digits cs)
    (hstop : Stops tail) :
    exponentOf ('e' :: (signed ++ tail)) = some (some (sign, cs.map digit), tail) := by
  rw [exponentOf, hsign, digits_append hcs.isDigit hstop]
  split
  · split
    · rename_i h
      cases List.map_eq_nil_iff.1 (Prod.ext_iff.1 h).1
      exact absurd rfl hcs.ne_nil
    · rename_i h
      cases h
      rfl
  · contradiction

/-- An exponent is read up to its end. -/
theorem exponentOf_append {cs : List Char} (h : Exponent cs) :
    ∃ e, ∀ tail, Delimited tail → exponentOf (cs ++ tail) = some (e, tail) := by
  cases h with
  | none => exact ⟨none, fun tail htail => exponentOf_nil htail⟩
  | plus hcs => exact ⟨_, fun tail htail => exponentOf_cons (by rfl) hcs htail.stops⟩
  | minus hcs => exact ⟨_, fun tail htail => exponentOf_cons (by rfl) hcs htail.stops⟩

/-- What follows the digits before an exponent does not go on with digits, nor with a point. -/
theorem Exponent.head_append {cs : List Char} (h : Exponent cs) {tail : List Char}
    (htail : Delimited tail) : Stops (cs ++ tail) ∧ (cs ++ tail).head? ≠ some '.' := by
  cases h with
  | none =>
    refine ⟨htail.stops, fun hpoint => ?_⟩
    exact absurd (htail '.' hpoint) (by decide)
  | plus | minus => exact ⟨stops_cons (by decide) _, by simp⟩

/-- The places are read up to the exponent. -/
theorem placesOf_append {ps es : List Char} (hps : Places ps) (hes : Exponent es) :
    ∃ p, ∀ tail, Delimited tail → placesOf (ps ++ (es ++ tail)) = some (p, es ++ tail) := by
  cases hps with
  | none => exact ⟨none, fun tail htail => placesOf_nil (hes.head_append htail).2⟩
  | some digits => exact ⟨_, fun tail htail => placesOf_cons digits (hes.head_append htail).1⟩

theorem Places.stops_append {ps es tail : List Char} (hps : Places ps) (hes : Exponent es)
    (htail : Delimited tail) : Stops (ps ++ (es ++ tail)) := by
  cases hps with
  | none => exact (hes.head_append htail).1
  | some => exact stops_cons (by decide) _

theorem digit_eq_zero {c : Char} (hc : c.isDigit = true) (h : digit c = 0) : c = '0' := by
  simp only [Char.isDigit, Bool.and_eq_true, decide_eq_true_eq, ge_iff_le, UInt32.le_iff_toNat_le]
    at hc
  have hc : 48 ≤ c.toNat := hc.1
  rw [digit] at h
  exact Char.toNat_inj.1 (show c.toNat = 48 by omega)

/-- Digits that may stand in front of a point are not refused. -/
theorem Whole.digits_cases {ws : List Char} (h : Whole ws) :
    ∃ d ds, ws.map digit = d :: ds ∧ (d = 0 → ds = []) := by
  cases ws with
  | nil => exact absurd rfl h.ne_nil
  | cons c rest =>
    refine ⟨digit c, rest.map digit, rfl, fun hzero => ?_⟩
    have hc := digit_eq_zero (h.isDigit c List.mem_cons_self) hzero
    rcases h.leading with hone | hhead
    · rw [(List.cons.inj hone).2, List.map_nil]
    · exact absurd (congrArg some hc) hhead

/-- What the parts of a number are read as, one part after the other. -/
theorem unsigned_append {ws ps es tail : List Char} {p : Option (List Nat)}
    {e : Option (Bool × List Nat)} (hws : Whole ws) (hstop : Stops (ps ++ (es ++ tail)))
    (hp : placesOf (ps ++ (es ++ tail)) = some (p, es ++ tail))
    (he : exponentOf (es ++ tail) = some (e, tail)) (negative : Bool) :
    unsigned negative (ws ++ (ps ++ (es ++ tail))) =
      some (⟨negative, ws.map digit, p, e⟩, tail) := by
  obtain ⟨d, ds, hwhole, hzero⟩ := hws.digits_cases
  rw [unsigned, digits_append hws.isDigit hstop, hwhole]
  split
  · rename_i heq
    cases heq
  · rename_i heq
    cases heq
    cases hzero rfl
  · rename_i heq
    cases heq
    rw [hp]
    dsimp only
    rw [he]

/-- **A number is read up to its end.** -/
theorem unsigned_of_spelt {ws ps es : List Char} (h : Spelt ws ps es) (negative : Bool) :
    ∃ n, ∀ tail, Delimited tail →
      unsigned negative (ws ++ (ps ++ (es ++ tail))) = some (n, tail) := by
  obtain ⟨p, hp⟩ := placesOf_append h.places h.exponent
  obtain ⟨e, he⟩ := exponentOf_append h.exponent
  exact ⟨_, fun tail htail => unsigned_append h.whole (h.places.stops_append h.exponent htail)
    (hp tail htail) (he tail htail) negative⟩

/-- A number without point and exponent. -/
theorem unsigned_whole {ws tail : List Char} (hws : Whole ws) (htail : Delimited tail)
    (negative : Bool) :
    unsigned negative (ws ++ tail) = some (⟨negative, ws.map digit, none, none⟩, tail) := by
  have hstops := Exponent.none.head_append htail
  exact @unsigned_append ws [] [] tail none none hws hstops.1 (placesOf_nil hstops.2)
    (exponentOf_nil htail) negative

/-! ## The numbers that are written -/

theorem digits_toDigits (n : Nat) : Digits (Nat.toDigits 10 n) where
  ne_nil := Nat.toDigits_ne_nil
  isDigit := fun _ hc => Nat.isDigit_of_mem_toDigits (by decide) (by decide) hc

theorem Digits.head_append {cs : List Char} (h : Digits cs) (hhead : cs.head? ≠ some '0')
    (rest : List Char) : (cs ++ rest).head? ≠ some '0' := by
  cases cs with
  | nil => exact absurd rfl h.ne_nil
  | cons c cs => exact hhead

theorem head_toDigits {n : Nat} (hn : 0 < n) : (Nat.toDigits 10 n).head? ≠ some '0' := by
  induction n using Nat.strongRecOn with
  | ind n ih =>
    rcases Nat.lt_or_ge n 10 with hlt | hge
    · rw [Nat.toDigits_of_lt_base hlt]
      have : ∀ n < 10, 0 < n → [n.digitChar].head? ≠ some '0' := by decide
      exact this n hlt hn
    · rw [Nat.toDigits_of_base_le (by decide) hge]
      exact (digits_toDigits _).head_append (ih (n / 10) (by omega) (by omega)) _

/-- The digits of a whole number. -/
theorem whole_toDigits (n : Nat) : Whole (Nat.toDigits 10 n) where
  toDigits := digits_toDigits n
  leading := by
    rcases Nat.eq_zero_or_pos n with rfl | hn
    · exact .inl rfl
    · exact .inr (head_toDigits hn)

/-- The digits of a whole number have its value. -/
theorem valueOf_toDigits (n : Nat) : Number.Scaled.valueOf ((Nat.toDigits 10 n).map digit) = n := by
  have hvalue := Nat.ofDigitChars_toDigits (n := n) (show 1 < 10 by decide) (by decide)
  have hzero : '0'.toNat = 48 := rfl
  rw [Nat.ofDigitChars, hzero] at hvalue
  rw [Number.Scaled.valueOf, List.foldl_map]
  simpa only [digit, Nat.mul_comm] using hvalue

/-- Digits with any number of zeros in front. -/
theorem Digits.zeros_append {cs : List Char} (h : Digits cs) (n : Nat) :
    Digits (List.replicate n '0' ++ cs) where
  ne_nil := List.append_ne_nil_of_right_ne_nil _ h.ne_nil
  isDigit := by
    intro c hc
    rcases List.mem_append.1 hc with hzero | hc
    · rw [List.eq_of_mem_replicate hzero]
      rfl
    · exact h.isDigit c hc

theorem whole_zero : Whole ['0'] :=
  whole_toDigits 0

theorem digits_zero : Digits ['0'] :=
  whole_zero.toDigits

/-- A number with a plain decimal point, or with none if it is whole and need not show one. -/
theorem spelt_positional (pointed : Bool) {d : Number.Decimal} (hd : 0 < d.digits) :
    ∃ ws ps, Number.positionalText pointed d = ws ++ ps ∧ Spelt ws ps [] := by
  have hdigits := digits_toDigits d.digits
  have hhead := head_toDigits hd
  rw [Number.positionalText, Number.digitText]
  dsimp only
  generalize Nat.toDigits 10 d.digits = text at *
  split
  · -- a whole number, with zeros for the power of ten
    refine ⟨text ++ List.replicate d.exponent.toNat '0', if pointed then ['.', '0'] else [], rfl,
      ⟨⟨⟨?_, ?_⟩, ?_⟩, ?_, .none⟩⟩
    · exact List.append_ne_nil_of_left_ne_nil hdigits.ne_nil _
    · intro c hc
      rcases List.mem_append.1 hc with hc | hzero
      · exact hdigits.isDigit c hc
      · rw [List.eq_of_mem_replicate hzero]
        rfl
    · exact .inr (hdigits.head_append hhead _)
    · split
      · exact .some digits_zero
      · exact .none
  · split
    · -- below one, with zeros after the point
      exact ⟨['0'], '.' :: (List.replicate ((-d.exponent).toNat - text.length) '0' ++ text),
        by simp, whole_zero, .some (hdigits.zeros_append _), .none⟩
    · -- the point is among the digits
      rename_i hneg hlen
      refine ⟨text.take (text.length - (-d.exponent).toNat),
        '.' :: text.drop (text.length - (-d.exponent).toNat), by simp, ⟨⟨⟨?_, ?_⟩, ?_⟩,
        .some ⟨?_, ?_⟩, .none⟩⟩
      · rw [Ne, List.take_eq_nil_iff]
        have := hdigits.ne_nil
        simp only [this, or_false]
        omega
      · exact fun c hc => hdigits.isDigit c (List.mem_of_mem_take hc)
      · rw [List.head?_take, if_neg (by omega)]
        exact .inr hhead
      · rw [Ne, List.drop_eq_nil_iff]
        omega
      · exact fun c hc => hdigits.isDigit c (List.mem_of_mem_drop hc)

/-- A number with an exponent. -/
theorem spelt_scientific {d : Number.Decimal} (hd : 0 < d.digits) :
    ∃ ws ps es, Number.scientificText d = ws ++ (ps ++ es) ∧ Spelt ws ps es := by
  have hdigits := digits_toDigits d.digits
  have hhead := head_toDigits hd
  rw [Number.scientificText, Number.digitText]
  generalize Nat.toDigits 10 d.digits = text at *
  generalize hexponent : d.exponent + (text.length : Int) - 1 = e
  obtain ⟨es, hes, htext⟩ : ∃ es, Exponent es ∧
      ['e'] ++ (if e < 0 then ['-'] else ['+']) ++ Number.digitText e.natAbs = es := by
    refine ⟨_, ?_, rfl⟩
    split
    · exact .minus (digits_toDigits _)
    · exact .plus (digits_toDigits _)
  match text with
  | [] => exact absurd rfl hdigits.ne_nil
  | [c] =>
    refine ⟨[c], [], es, ?_, ⟨hdigits, .inr hhead⟩, .none, hes⟩
    rw [← htext]
    simp
  | c :: c' :: rest =>
    refine ⟨[c], '.' :: c' :: rest, es, ?_, ⟨⟨by simp, ?_⟩, .inr hhead⟩, .some ⟨by simp, ?_⟩, hes⟩
    · rw [← htext]
      simp
    · exact fun d hd => hdigits.isDigit d (List.mem_cons.2 (.inl (List.mem_singleton.1 hd)))
    · exact fun d hd => hdigits.isDigit d (List.mem_cons_of_mem _ hd)

/-- A positive number in a document. -/
theorem spelt_document {d : Number.Decimal} (hd : 0 < d.digits) :
    ∃ ws ps es, Number.Form.document.decimal d = ws ++ (ps ++ es) ∧ Spelt ws ps es := by
  rw [Number.Form.decimal]
  split
  · obtain ⟨ws, ps, htext, hspelt⟩ := spelt_positional _ hd
    exact ⟨ws, ps, [], by rw [List.append_nil]; exact htext, hspelt⟩
  · exact spelt_scientific hd

end Lexeme
end Stylus
