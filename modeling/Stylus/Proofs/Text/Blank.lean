import Mathlib.Data.List.TakeWhile
import Stylus.Text.Blank

/-!
# Trimmed text

Trimming takes the white space off both ends of a text and nothing else.

* `exists_blanks` — what is taken off is white space;
* `trimmed_blank_append`, `trimmed_append_blank` — white space at an end does not count;
* `trimmed_eq_self` — where there is none, nothing is taken off.
-/

set_option autoImplicit false

namespace Stylus
namespace Text

variable {cs : List Char}

/-- White space, or nothing at all. -/
def Blank (cs : List Char) : Prop :=
  ∀ c ∈ cs, isBlank c = true

theorem Blank.append {cs ds : List Char} (hcs : Blank cs) (hds : Blank ds) : Blank (cs ++ ds) :=
  List.forall_mem_append.2 ⟨hcs, hds⟩

/-- **White space in front** does not count. -/
theorem trimmed_blank_append {before : List Char} (h : Blank before) (cs : List Char) :
    trimmed (before ++ cs) = trimmed cs := by
  rw [trimmed, trimmed, trimLeading, trimLeading, List.dropWhile_append_of_pos h]

/-- **White space behind** does not count. -/
theorem trimmed_append_blank {after : List Char} (h : Blank after) (cs : List Char) :
    trimmed (cs ++ after) = trimmed cs := by
  have htrailing (cs : List Char) : trimTrailing (cs ++ after) = trimTrailing cs := by
    rw [trimTrailing, trimTrailing, List.reverse_append,
      List.dropWhile_append_of_pos fun c hc => h c (List.mem_reverse.1 hc)]
  rw [trimmed, trimmed, trimLeading, trimLeading, List.dropWhile_append]
  split
  · rename_i hblank
    rw [List.isEmpty_iff.1 hblank, List.dropWhile_eq_nil_iff.2 h]
  · exact htrailing _

/-- **A text with no white space at its ends** is trimmed. -/
theorem trimmed_eq_self (hhead : cs.head?.map isBlank = some false)
    (hend : cs.getLast?.map isBlank = some false) : trimmed cs = cs := by
  obtain ⟨first, hhead, hfirst⟩ := Option.map_eq_some_iff.1 hhead
  obtain ⟨last, hend, hlast⟩ := Option.map_eq_some_iff.1 hend
  obtain ⟨rest, hcons⟩ := List.head?_eq_some_iff.1 hhead
  obtain ⟨front, rfl⟩ := List.getLast?_eq_some_iff.1 hend
  have hleading : trimLeading (front ++ [last]) = front ++ [last] := by
    rw [trimLeading, hcons, List.dropWhile_cons_of_neg (by simp [hfirst])]
  rw [trimmed, hleading, trimTrailing, List.reverse_append, List.reverse_singleton,
    List.singleton_append, List.dropWhile_cons_of_neg (by simp [hlast]), List.reverse_cons,
    List.reverse_reverse]

/-- **What trimming takes off** is white space. -/
theorem exists_blanks (cs : List Char) :
    ∃ before after : List Char,
      cs = before ++ trimmed cs ++ after ∧ Blank before ∧ Blank after := by
  have hblank (cs : List Char) : Blank (cs.takeWhile isBlank) :=
    fun c hc => List.all_eq_true.1 List.all_takeWhile c hc
  refine ⟨cs.takeWhile isBlank, ((trimLeading cs).reverse.takeWhile isBlank).reverse, ?_,
    hblank cs, fun c hc => hblank _ c (List.mem_reverse.1 hc)⟩
  rw [List.append_assoc, trimmed, trimTrailing, ← List.reverse_append,
    List.takeWhile_append_dropWhile, List.reverse_reverse, trimLeading,
    List.takeWhile_append_dropWhile]

/-- Trimming takes nothing off but white space. -/
theorem blank_or_mem_trimmed {c : Char} (h : c ∈ cs) : isBlank c = true ∨ c ∈ trimmed cs := by
  obtain ⟨before, after, hcs, hbefore, hafter⟩ := exists_blanks cs
  rw [hcs, List.mem_append, List.mem_append] at h
  rcases h with (hc | hc) | hc
  · exact .inl (hbefore c hc)
  · exact .inr hc
  · exact .inl (hafter c hc)

end Text
end Stylus
