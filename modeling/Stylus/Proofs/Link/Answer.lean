import Stylus.Link.AckBuffer
import Stylus.Proofs.Text.Blank
import Stylus.Proofs.Text.Utf8

/-!
# Answers and where they end

A text answers a command if its last line says `ok` and no other line does.  Nothing but this tells
a link where an answer ends, and this module shows that it is enough: what `AckBuffer.split` takes
off a text is an answer, and no bytes of an answer short of all of them can be seen as one, however
they come in lots.

* `IsAnswer` — a text that answers a command;
* `split_some` — what is taken is an answer;
* `IsAnswer.whole` — the bytes of an answer are seen as an answer only when all of them are there.

The last of these would fail if a character that is cut in two could make a line say `ok`.  It
cannot, since a line that says `ok` holds no fault.
-/

set_option autoImplicit false

namespace Stylus

open Text.Utf8

/-! ## Lines that say `ok` -/

namespace AckBuffer

/-- A line that says `ok` holds no fault. -/
theorem fault_not_mem {line : List Char} (h : isAck line = true) : '\uFFFD' ∉ line := by
  intro hmem
  rw [isAck, decide_eq_true_eq] at h
  rcases Text.blank_or_mem_trimmed hmem with hblank | hmem
  · exact absurd hblank (by decide)
  · rw [h] at hmem
    exact absurd hmem (by decide)

/-! ## What is taken -/

/-- **A text that answers a command**: lines, the last of which says `ok` and no other. -/
inductive IsAnswer : List Char → Prop where
  | last {line : List Char} (whole : '\n' ∉ line) (ack : isAck line = true) :
    IsAnswer (line ++ '\n' :: [])
  | more {line rest : List Char} (whole : '\n' ∉ line) (ack : isAck line = false)
    (tail : IsAnswer rest) : IsAnswer (line ++ '\n' :: rest)

theorem IsAnswer.ne_nil {text : List Char} (h : IsAnswer text) : text ≠ [] := by
  cases h <;> simp

/-- **What is taken off a text is an answer**, the line at hand included. -/
theorem split_some {line text taken left : List Char} (whole : '\n' ∉ line)
    (h : split line text = some (taken, left)) :
    text = taken ++ left ∧ IsAnswer (line.reverse ++ taken) := by
  have whole' : '\n' ∉ line.reverse := by simpa using whole
  induction text generalizing line taken with
  | nil => cases h
  | cons c text ih =>
    rw [split] at h
    split at h
    · subst c
      split at h
      · obtain ⟨rfl, rfl⟩ := Prod.mk.inj (Option.some.inj h)
        exact ⟨rfl, .last whole' ‹_›⟩
      · rename_i hack
        obtain ⟨⟨t, l⟩, hsplit, heq⟩ := Option.map_eq_some_iff.1 h
        obtain ⟨rfl, rfl⟩ := Prod.mk.inj heq
        obtain ⟨rfl, hans⟩ := ih (by simp) hsplit (by simp)
        exact ⟨rfl, .more whole' (by simpa using hack) hans⟩
    · rename_i hc
      obtain ⟨⟨t, l⟩, hsplit, heq⟩ := Option.map_eq_some_iff.1 h
      obtain ⟨rfl, rfl⟩ := Prod.mk.inj heq
      have hline : '\n' ∉ c :: line := by simp [whole, Ne.symm hc]
      obtain ⟨rfl, hans⟩ := ih hline hsplit (fun hmem => hline (List.mem_reverse.1 hmem))
      rw [List.reverse_cons, List.append_assoc] at hans
      exact ⟨rfl, hans⟩

theorem isAnswer_of_split {text : List Char} (h : split [] text = some (text, [])) :
    IsAnswer text :=
  (split_some List.not_mem_nil h).2

theorem split_line {line rest : List Char} (whole : '\n' ∉ line) (before : List Char) :
    split before (line ++ '\n' :: rest) =
      if isAck (before.reverse ++ line) then some (line ++ '\n' :: [], rest)
      else (split [] rest).map fun (taken, left) => (line ++ '\n' :: taken, left) := by
  induction line generalizing before with
  | nil => rw [List.nil_append, split, if_pos rfl, List.append_nil]; rfl
  | cons c line ih =>
    rw [List.mem_cons, not_or] at whole
    rw [List.cons_append, split, if_neg (Ne.symm whole.1), ih whole.2, List.reverse_cons,
      List.append_assoc, List.singleton_append]
    split
    · rfl
    · rw [Option.map_map]
      rfl

/-- **An answer is taken whole**, whatever comes after it. -/
theorem IsAnswer.split_eq {text : List Char} (h : IsAnswer text) (rest : List Char) :
    split [] (text ++ rest) = some (text, rest) := by
  induction h with
  | last whole ack =>
    rw [List.append_assoc, List.cons_append, List.nil_append, split_line whole, List.reverse_nil,
      List.nil_append, if_pos ack]
  | @more line text whole ack tail ih =>
    rw [List.append_assoc, List.cons_append, split_line whole, List.reverse_nil, List.nil_append,
      ack, if_neg Bool.false_ne_true, ih]
    rfl

theorem shows_push {buffer : AckBuffer} {bytes : List UInt8} (h : Shows bytes buffer.pending)
    (more : List UInt8) : Shows (bytes ++ more) (buffer.push more).pending :=
  h.append (shows_lossy more)

/-- An ASCII text is in the buffer as it is. -/
theorem pending_push_of_ascii {buffer : AckBuffer} (hempty : buffer.pending = []) {text : String}
    (hascii : ∀ c ∈ text.toList, c.toNat < 0x80) :
    (buffer.push (encode text)).pending = text.toList := by
  have hshows := shows_lossy (encode text)
  rw [encode_eq] at hshows
  rw [push, hempty, List.nil_append, encode_eq]
  exact hshows.eq_of_ascii hascii

/-- What is taken off a buffer was read first. -/
theorem split_shown {α : Type} {byte : α → UInt8} {gathered : List α} {text taken left : List Char}
    (hshows : Shows (gathered.map byte) text) (h : split [] text = some (taken, left)) :
    ∃ source : List α, source <+: gathered ∧ Shows (source.map byte) taken ∧ IsAnswer taken := by
  obtain ⟨rfl, hanswer⟩ := split_some List.not_mem_nil h
  obtain ⟨a, b, hbytes, ha, -⟩ := hshows.of_append
  obtain ⟨source, rest, rfl, rfl, -⟩ := List.map_eq_append_iff.1 hbytes
  exact ⟨source, List.prefix_append source rest, ha, hanswer⟩

/-! ## Where an answer ends -/

/-- Two lines of which one begins with the other, up to a mark that is in neither, are equal. -/
theorem line_prefix {α : Type} {mark : α} {a b s t : List α} (ha : mark ∉ a) (hb : mark ∉ b)
    (h : a ++ mark :: s <+: b ++ mark :: t) : a = b ∧ s <+: t := by
  induction a generalizing b with
  | nil =>
    cases b with
    | nil => exact ⟨rfl, (List.cons_prefix_cons.1 h).2⟩
    | cons y b =>
      obtain ⟨rfl, -⟩ := List.cons_prefix_cons.1 h
      exact absurd List.mem_cons_self hb
  | cons x a ih =>
    cases b with
    | nil =>
      obtain ⟨rfl, -⟩ := List.cons_prefix_cons.1 h
      exact absurd List.mem_cons_self ha
    | cons y b =>
      obtain ⟨rfl, hrest⟩ := List.cons_prefix_cons.1 h
      obtain ⟨rfl, hst⟩ := ih (fun hmem => ha (List.mem_cons_of_mem _ hmem))
        (fun hmem => hb (List.mem_cons_of_mem _ hmem)) hrest
      exact ⟨rfl, hst⟩

/-- The bytes of a line that is seen, and of what comes after it. -/
theorem shows_line {bytes : List UInt8} {line rest : List Char}
    (h : Shows bytes (line ++ '\n' :: rest)) (whole : '\n' ∉ line) :
    ∃ a b : List UInt8, bytes = a ++ 0x0A :: b ∧ 0x0A ∉ a ∧ Shows a line ∧ Shows b rest := by
  obtain ⟨a, b, rfl, ha, hb⟩ := h.of_append
  cases hb with
  | cons head tail =>
    have hpart := head.eq_encodeChar (by decide)
    subst hpart
    exact ⟨a, _, rfl, fun hmem => whole (ha.newline_mem hmem), ha, tail⟩

theorem encodeAll_line (line rest : List Char) :
    encodeAll (line ++ '\n' :: rest) = encodeAll line ++ 0x0A :: encodeAll rest := by
  rw [encodeAll_append, encodeAll_cons]
  rfl

theorem newline_not_mem {line : List Char} (whole : '\n' ∉ line) : 0x0A ∉ encodeAll line :=
  fun hmem => whole ((shows_encodeAll line).newline_mem hmem)

/-- **An answer is seen only when all of it is there.** -/
theorem IsAnswer.whole {answer text : List Char} (ha : IsAnswer answer) (ht : IsAnswer text)
    {bytes : List UInt8} (hshows : Shows bytes text) (hfirst : bytes <+: encodeAll answer) :
    bytes = encodeAll answer := by
  induction ha generalizing text bytes with
  | @last line whole ack =>
    rw [encodeAll_line] at hfirst ⊢
    cases ht with
    | last whole' ack' =>
      obtain ⟨a, b, rfl, hnot, hline, hrest⟩ := shows_line hshows whole'
      obtain ⟨rfl, hb⟩ := line_prefix hnot (newline_not_mem whole) hfirst
      rw [List.prefix_nil.1 hb]
      rfl
    | more whole' ack' tail =>
      obtain ⟨a, b, rfl, hnot, hline, hrest⟩ := shows_line hshows whole'
      obtain ⟨rfl, hb⟩ := line_prefix hnot (newline_not_mem whole) hfirst
      rw [List.prefix_nil.1 hb] at hrest
      exact absurd hrest.eq_nil tail.ne_nil
  | @more line rest whole ack tail ih =>
    rw [encodeAll_line] at hfirst ⊢
    cases ht with
    | @last line' whole' ack' =>
      obtain ⟨a, b, rfl, hnot, hline, hrest⟩ := shows_line hshows whole'
      obtain ⟨rfl, hb⟩ := line_prefix hnot (newline_not_mem whole) hfirst
      have hsame := encodeAll_inj (hline.eq_encodeAll (fault_not_mem ack'))
      rw [← hsame, ack] at ack'
      cases ack'
    | more whole' ack' tail' =>
      obtain ⟨a, b, rfl, hnot, hline, hrest⟩ := shows_line hshows whole'
      obtain ⟨rfl, hb⟩ := line_prefix hnot (newline_not_mem whole) hfirst
      rw [ih tail' hrest hb]

end AckBuffer

end Stylus
