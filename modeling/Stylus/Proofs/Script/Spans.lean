import Stylus.Proofs.Text.Blank
import Stylus.Script.TimeSpec

/-!
# The spans that time specs spell

A time spec is trimmed, its unit is cut off, what is left is trimmed again and must be a whole
number.  One unit ends like the other, there is white space in three places, and a number may have a
sign and any number of zeros in front.  Which texts are understood?

* `Counts`, `Signed` — the grammar of whole numbers;
* `Spelt` — **the grammar of time specs**: a number and a unit, with white space around them;
* `span?_eq_some` — so are time specs understood;
* `specs_understood` — **these and no others**, and what is said of the others.
-/

set_option autoImplicit false

namespace Stylus
namespace TimeSpec

/-! ## Whole numbers -/

/-- Digits that spell a whole number of 64 bits; zeros in front do not count. -/
structure Counts (digits : List Char) (n : Nat) : Prop where
  ne_nil : digits ≠ []
  isDigit : ∀ c ∈ digits, c.isDigit = true
  value : Nat.ofDigitChars 10 digits 0 = n
  fits : n < UInt64.size

/-- **A whole number** with or without a plus sign. -/
inductive Signed : List Char → Nat → Prop where
  | plain {digits : List Char} {n : Nat} (counts : Counts digits n) : Signed digits n
  | plus {digits : List Char} {n : Nat} (counts : Counts digits n) : Signed ('+' :: digits) n

theorem signed_iff {cs : List Char} {n : Nat} : Signed cs n ↔ Counts (unsigned cs) n := by
  constructor
  · rintro (counts | counts)
    · have hplain : unsigned cs = cs := by
        rw [unsigned]
        rintro rest rfl
        exact absurd (counts.isDigit '+' List.mem_cons_self) (by decide)
      rwa [hplain]
    · exact counts
  · intro counts
    unfold unsigned at counts
    split at counts
    · exact .plus counts
    · exact .plain counts

theorem count?_eq_some {cs : List Char} {n : Nat} : count? cs = some n ↔ Signed cs n := by
  have hvalue (digits : List Char) :
      digits.foldl (fun n c => n * 10 + (c.toNat - 48)) 0 = Nat.ofDigitChars 10 digits 0 := by
    simp only [Nat.ofDigitChars, Nat.mul_comm 10]
    rfl
  rw [signed_iff, count?, hvalue]
  constructor
  · intro h
    split at h
    · cases h
    · rename_i hdigits
      simp only [Bool.or_eq_true, List.isEmpty_iff, Bool.not_eq_true', not_or,
        Bool.not_eq_false, List.all_eq_true] at hdigits
      obtain ⟨hfits, hn⟩ := Option.ite_none_right_eq_some.1 h
      exact ⟨hdigits.1, hdigits.2, Option.some.inj hn, Option.some.inj hn ▸ hfits⟩
  · rintro ⟨hne, hdigit, rfl, hfits⟩
    have hall : (unsigned cs).all Char.isDigit = true := List.all_eq_true.2 hdigit
    have hsome : (unsigned cs).isEmpty = false := by simpa using hne
    rw [hall, hsome]
    exact if_pos hfits

namespace Signed

variable {cs : List Char} {n : Nat}

theorem ne_nil (h : Signed cs n) : cs ≠ [] := by
  cases h with
  | plain counts => exact counts.ne_nil
  | plus counts => exact List.cons_ne_nil _ _

theorem fits (h : Signed cs n) : n < UInt64.size := by
  cases h with
  | plain counts | plus counts => exact counts.fits

theorem isDigit_or_plus (h : Signed cs n) : ∀ c ∈ cs, c.isDigit = true ∨ c = '+' := by
  cases h with
  | plain counts => exact fun c hc => .inl (counts.isDigit c hc)
  | plus counts =>
    exact List.forall_mem_cons.2 ⟨.inr rfl, fun c hc => .inl (counts.isDigit c hc)⟩

/-- There is no white space in a number. -/
theorem not_blank (h : Signed cs n) : ∀ c ∈ cs, Text.isBlank c = false := by
  intro c hc
  rcases h.isDigit_or_plus c hc with hdigit | rfl
  · have hrange : 48 ≤ c.toNat ∧ c.toNat ≤ 57 := by
      simpa [Char.isDigit, UInt32.le_iff_toNat_le] using hdigit
    simp only [Text.isBlank, Bool.or_eq_false_iff, Bool.and_eq_false_iff,
      decide_eq_false_iff_not, beq_eq_false_iff_ne]
    omega
  · decide

/-- A text that begins with a number has no white space in front. -/
theorem head?_append (h : Signed cs n) (rest : List Char) :
    (cs ++ rest).head?.map Text.isBlank = some false := by
  match cs, h.ne_nil, h.not_blank with
  | c :: _, _, hblank => exact congrArg some (hblank c List.mem_cons_self)

/-- A number is trimmed. -/
theorem trimmed_eq_self (h : Signed cs n) : Text.trimmed cs = cs := by
  obtain ⟨front, c, rfl⟩ := List.eq_nil_or_concat cs |>.resolve_left h.ne_nil
  refine Text.trimmed_eq_self ?_ ?_
  · simpa using h.head?_append []
  · simpa using h.not_blank c (by simp)

end Signed

/-! ## Numbers with a unit -/

namespace Span

/-- How many units a span has. -/
def count : Span → Nat
  | .milliseconds n | .seconds n => n

/-- The unit of a span. -/
def unit : Span → List Char
  | .milliseconds _ => ['m', 's']
  | .seconds _ => ['s']

theorem unit_end (s : Span) : ∃ front, s.unit = front ++ ['s'] := by
  match s with
  | .milliseconds _ => exact ⟨['m'], rfl⟩
  | .seconds _ => exact ⟨[], rfl⟩

end Span

/-- **The grammar of time specs**: a whole number and a unit, and white space or none at both ends
and between the two. -/
inductive Spelt : List Char → Span → Prop where
  | spelt {before number gap after : List Char} {s : Span} (blankBefore : Text.Blank before)
      (signed : Signed number s.count) (blankGap : Text.Blank gap)
      (blankAfter : Text.Blank after) : Spelt (before ++ (number ++ gap ++ s.unit) ++ after) s

/-- The number and the unit are what is left when the text is trimmed. -/
theorem trimmed_spelt {before number gap after : List Char} {s : Span}
    (blankBefore : Text.Blank before) (signed : Signed number s.count)
    (blankAfter : Text.Blank after) :
    Text.trimmed (before ++ (number ++ gap ++ s.unit) ++ after) = number ++ gap ++ s.unit := by
  obtain ⟨unit, hunit⟩ := s.unit_end
  rw [Text.trimmed_append_blank blankAfter, Text.trimmed_blank_append blankBefore]
  refine Text.trimmed_eq_self ?_ ?_
  · rw [List.append_assoc]
    exact signed.head?_append _
  · rw [hunit, ← List.append_assoc, List.getLast?_concat]
    rfl

theorem before?_eq_some {ending cs front : List Char} :
    before? ending cs = some front ↔ cs = front ++ ending := by
  rw [before?, Option.ite_none_right_eq_some, List.isSuffixOf_iff_suffix]
  constructor
  · rintro ⟨⟨front, rfl⟩, htake⟩
    simpa using htake
  · rintro rfl
    exact ⟨List.suffix_append _ _, by simp⟩

/-- A unit with a number in front of it, white space aside, is a time spec. -/
theorem spelt_of_front {cs front : List Char} {s : Span}
    (hfront : Text.trimmed cs = front ++ s.unit) (signed : Signed (Text.trimmed front) s.count) :
    Spelt cs s := by
  obtain ⟨before, after, hcs, hbefore, hafter⟩ := Text.exists_blanks cs
  obtain ⟨lead, gap, hgaps, hlead, hgap⟩ := Text.exists_blanks front
  have htext :
      cs = before ++ lead ++ (Text.trimmed front ++ gap ++ s.unit) ++ after := by
    rw [hfront, hgaps] at hcs
    simpa using hcs
  rw [htext]
  exact .spelt (hbefore.append hlead) signed hgap hafter

/-- What stands in front of the unit of a time spec. -/
theorem front_of_spelt {cs : List Char} {s : Span} (h : Spelt cs s) :
    ∃ front, Text.trimmed cs = front ++ s.unit ∧ Signed (Text.trimmed front) s.count ∧
      'm' ∉ front := by
  obtain ⟨blankBefore, signed, blankGap, blankAfter⟩ := h
  refine ⟨_, trimmed_spelt blankBefore signed blankAfter, ?_, ?_⟩
  · rwa [Text.trimmed_append_blank blankGap, signed.trimmed_eq_self]
  · intro hmem
    rcases List.mem_append.1 hmem with hmem | hmem
    · exact absurd (signed.isDigit_or_plus _ hmem) (by decide)
    · exact absurd (blankGap _ hmem) (by decide)

/-- **So are time specs understood.** -/
theorem span?_eq_some {cs : List Char} {s : Span} : span? cs = some s ↔ Spelt cs s := by
  constructor
  · intro h
    rw [span?] at h
    split at h
    · rename_i front hfront
      obtain ⟨n, hcount, rfl⟩ := Option.map_eq_some_iff.1 h
      exact spelt_of_front (s := .milliseconds n) (before?_eq_some.1 hfront)
        (count?_eq_some.1 hcount)
    · split at h
      · rename_i front hfront
        obtain ⟨n, hcount, rfl⟩ := Option.map_eq_some_iff.1 h
        exact spelt_of_front (s := .seconds n) (before?_eq_some.1 hfront) (count?_eq_some.1 hcount)
      · contradiction
  · intro h
    obtain ⟨front, hfront, signed, hm⟩ := front_of_spelt h
    rw [span?, hfront]
    match s with
    | .milliseconds n =>
      have hbefore := before?_eq_some.2 (rfl : front ++ ['m', 's'] = front ++ ['m', 's'])
      simp only [Span.unit, hbefore, count?_eq_some.2 signed]
      rfl
    | .seconds n =>
      -- the unit is not the end of the other one, for no number ends in its first letter
      have hother : before? ['m', 's'] (front ++ ['s']) = none := by
        rw [Option.eq_none_iff_forall_ne_some]
        intro front' hfront'
        have hends : front ++ ['s'] = front' ++ ['m'] ++ ['s'] := by
          rw [before?_eq_some.1 hfront', List.append_assoc]
          rfl
        rw [List.append_cancel_right hends] at hm
        exact hm (List.mem_append_right _ List.mem_cons_self)
      have hbefore := before?_eq_some.2 (rfl : front ++ ['s'] = front ++ ['s'])
      simp only [Span.unit, hother, hbefore, count?_eq_some.2 signed]
      rfl

/-! ## Time specs -/

variable {spec : String}

theorem span_eq_ok {s : Span} : span spec = .ok s ↔ Spelt spec.toList s := by
  rw [← span?_eq_some, span]
  cases span? spec.toList <;> simp

theorem milliseconds_eq_ok {length : Nat} :
    milliseconds spec = .ok length ↔ ∃ s, Spelt spec.toList s ∧ s.length = length := by
  simp only [← span_eq_ok, milliseconds]
  cases span spec <;> simp [Except.map]

/-- A time spec that is not understood is named in the failure as it was given. -/
theorem error_of_milliseconds {f : Failure} (h : milliseconds spec = .error f) :
    f = .invalidTimeSpec spec := by
  rw [milliseconds, span] at h
  split at h
  · contradiction
  · exact (Except.error.inj h).symm

/-- The whole seconds of a span are a number of 64 bits. -/
theorem Spelt.seconds_fit {cs : List Char} {s : Span} (h : Spelt cs s) :
    s.length / 1000 < UInt64.size := by
  obtain ⟨-, signed, -, -⟩ := h
  have hfits := signed.fits
  match s with
  | .milliseconds n => exact Nat.lt_of_le_of_lt (Nat.div_le_self n 1000) hfits
  | .seconds n =>
    show n * 1000 / 1000 < UInt64.size
    rwa [Nat.mul_div_left n (by decide : 0 < 1000)]

/-- **Time specs are understood exactly as the grammar says**: a text of it spells its span, the
length of which is that of so many milliseconds or seconds and overflows nowhere; all other texts
are refused, each under its own name. -/
theorem specs_understood (spec : String) :
    (∀ s, span spec = .ok s ↔ Spelt spec.toList s) ∧
    (∀ length, milliseconds spec = .ok length ↔
      ∃ s, Spelt spec.toList s ∧ s.length = length ∧ length / 1000 < UInt64.size) ∧
    ∀ f, milliseconds spec = .error f ↔
      f = .invalidTimeSpec spec ∧ ∀ s, ¬ Spelt spec.toList s := by
  refine ⟨fun s => span_eq_ok, fun length => ?_, fun f => ⟨fun h => ?_, ?_⟩⟩
  · rw [milliseconds_eq_ok]
    constructor
    · rintro ⟨s, hspelt, rfl⟩
      exact ⟨s, hspelt, rfl, hspelt.seconds_fit⟩
    · rintro ⟨s, hspelt, hlength, -⟩
      exact ⟨s, hspelt, hlength⟩
  · refine ⟨error_of_milliseconds h, fun s hspelt => ?_⟩
    cases h.symm.trans (milliseconds_eq_ok.2 ⟨s, hspelt, rfl⟩)
  · rintro ⟨rfl, hnone⟩
    have hspan : span? spec.toList = none :=
      Option.eq_none_iff_forall_ne_some.2 fun s hs => hnone s (span?_eq_some.1 hs)
    rw [milliseconds, span, hspan]
    rfl

/-- White space in three places and zeros in front, the largest count, and a unit that is cut in
two. -/
example :
    milliseconds "\u2003+007 ms\n" = .ok 7 ∧ milliseconds "18446744073709551615s" =
      .ok 18446744073709551615000 ∧ milliseconds " 5m s" = .error (.invalidTimeSpec " 5m s") := by
  decide +kernel

end TimeSpec
end Stylus
