import Stylus.Proofs.Link.Answer
import Stylus.Proofs.Text.Lots

/-!
# What comes out of a buffer of acknowledgments

Text goes into an `AckBuffer` a lot of bytes at a time, and comes out of it a response at a time, or
all that there is at once.  This module says what comes out, by the text alone: a text acknowledges
if its last line, trimmed, is `ok`, and a response is the shortest text that does.

* `Acknowledges` — whole lines, the last of which says `ok`;
* `Responds` — what taking a response does;
* `nothing_lost` — **nothing is lost and nothing is made up**, whatever is done to a buffer;
* `hear` — lots are pushed, and after each of them all responses are taken;
* `hear_eq` — what is heard depends on the characters that the lots show, and on nothing else;
* `hear_alike_iff` — **so it does not depend on where the lots end, exactly if none of them ends
  inside a character**;
* `hear_cut` — if one does, an acknowledgment may go unnoticed.
-/

set_option autoImplicit false

namespace Stylus

open Text.Utf8

namespace AckBuffer

/-! ## Responses -/

/-- **Whole lines, the last of which says `ok`** once it is trimmed. -/
inductive Acknowledges : List Char → Prop where
  | last {line : List Char} (whole : '\n' ∉ line)
      (ok : Text.trimmed (line ++ ['\n']) = ['o', 'k']) :
    Acknowledges (line ++ ['\n'])
  | more {line rest : List Char} (whole : '\n' ∉ line) (tail : Acknowledges rest) :
    Acknowledges (line ++ '\n' :: rest)

theorem isAck_iff {line : List Char} :
    isAck line = true ↔ Text.trimmed (line ++ ['\n']) = ['o', 'k'] := by
  rw [isAck, decide_eq_true_eq, Text.trimmed_append_blank (List.forall_mem_singleton.2 rfl)]

theorem IsAnswer.acknowledges {text : List Char} (h : IsAnswer text) : Acknowledges text := by
  induction h with
  | last whole ack => exact .last whole (isAck_iff.1 ack)
  | more whole ack tail ih => exact .more whole ih

/-- A text that acknowledges begins with an answer. -/
theorem Acknowledges.answer_prefix {text : List Char} (h : Acknowledges text) :
    ∃ answer : List Char, answer <+: text ∧ IsAnswer answer := by
  induction h with
  | @last line whole ok => exact ⟨line ++ ['\n'], List.prefix_rfl, .last whole (isAck_iff.2 ok)⟩
  | @more line rest whole tail ih =>
    by_cases hack : isAck line = true
    · exact ⟨line ++ ['\n'], by simp, .last whole hack⟩
    · obtain ⟨answer, hfirst, hanswer⟩ := ih
      refine ⟨line ++ '\n' :: answer, ?_, .more whole (by simpa using hack) hanswer⟩
      rw [List.prefix_append_right_inj, List.cons_prefix_cons]
      exact ⟨rfl, hfirst⟩

/-- Whatever comes before a line of its own, it is such a line. -/
theorem Acknowledges.append {rest : List Char} (h : Acknowledges rest) (text : List Char) :
    Acknowledges (text ++ '\n' :: rest) := by
  suffices ∀ line : List Char, '\n' ∉ line → Acknowledges (line ++ (text ++ '\n' :: rest)) from
    this [] List.not_mem_nil
  induction text with
  | nil => exact fun line whole => .more whole h
  | cons c text ih =>
    intro line whole
    by_cases hc : c = '\n'
    · subst hc
      exact .more whole (ih [] List.not_mem_nil)
    · rw [List.cons_append, List.append_cons]
      exact ih (line ++ [c]) (by simp [whole, Ne.symm hc])

theorem answer_of_split {text taken left : List Char} (h : split [] text = some (taken, left)) :
    text = taken ++ left ∧ IsAnswer taken :=
  split_some List.not_mem_nil h

/-- **The answer that is taken off a text comes before every part of it that acknowledges.** -/
theorem split_of_acknowledges {text part : List Char} (first : part <+: text)
    (ack : Acknowledges part) :
    ∃ taken left : List Char, split [] text = some (taken, left) ∧ taken <+: part := by
  obtain ⟨answer, hfirst, hanswer⟩ := ack.answer_prefix
  obtain ⟨left, rfl⟩ := hfirst.trans first
  exact ⟨answer, left, hanswer.split_eq left, hfirst⟩

theorem takeResponse_of_split {buffer : AckBuffer} {taken left : List Char}
    (h : split [] buffer.pending = some (taken, left)) :
    buffer.takeResponse = (some (String.ofList taken), ⟨left⟩) := by
  rw [takeResponse, h]

theorem takeResponse_of_split_none {buffer : AckBuffer} (h : split [] buffer.pending = none) :
    buffer.takeResponse = (none, buffer) := by
  rw [takeResponse, h]

theorem split_of_takeResponse {buffer rest : AckBuffer} {text : String}
    (h : buffer.takeResponse = (some text, rest)) :
    split [] buffer.pending = some (text.toList, rest.pending) := by
  rcases hsplit : split [] buffer.pending with _ | ⟨taken, left⟩
  · rw [takeResponse_of_split_none hsplit] at h
    cases h
  · rw [takeResponse_of_split hsplit] at h
    cases h
    rw [String.toList_ofList]

/-- **What taking a response does.** -/
structure Responds (buffer : AckBuffer) : Prop where
  /-- there is a response exactly if there is a line that says `ok` -/
  isSome_iff : buffer.takeResponse.1.isSome ↔
    ∃ part : List Char, part <+: buffer.pending ∧ Acknowledges part
  /-- it is the first part of the text that ends with such a line, and the rest of the text stays -/
  shortest : ∀ (text : String) (rest : AckBuffer), buffer.takeResponse = (some text, rest) →
    buffer.pending = text.toList ++ rest.pending ∧ Acknowledges text.toList ∧
      ∀ part : List Char, part <+: buffer.pending → Acknowledges part → text.toList <+: part
  /-- else nothing changes -/
  unchanged : buffer.takeResponse.1 = none → buffer.takeResponse.2 = buffer

theorem responds (buffer : AckBuffer) : buffer.Responds := by
  rcases hsplit : split [] buffer.pending with _ | ⟨taken, left⟩
  · have hnone := takeResponse_of_split_none hsplit
    refine ⟨?_, fun text rest h => ?_, fun _ => by rw [hnone]⟩
    · rw [hnone]
      refine iff_of_false Bool.false_ne_true ?_
      rintro ⟨part, first, ack⟩
      obtain ⟨taken, left, htaken, -⟩ := split_of_acknowledges first ack
      cases hsplit.symm.trans htaken
    · cases hnone.symm.trans h
  · have hsome := takeResponse_of_split hsplit
    obtain ⟨hpending, hanswer⟩ := answer_of_split hsplit
    refine ⟨?_, fun text rest h => ?_, fun h => ?_⟩
    · rw [hsome]
      exact iff_of_true rfl ⟨taken, hpending ▸ List.prefix_append _ _, hanswer.acknowledges⟩
    · rw [hsome] at h
      cases h
      rw [String.toList_ofList]
      refine ⟨hpending, hanswer.acknowledges, fun part first ack => ?_⟩
      obtain ⟨taken', left', htaken, hfirst⟩ := split_of_acknowledges first ack
      obtain ⟨rfl, -⟩ := Prod.mk.inj (Option.some.inj (hsplit.symm.trans htaken))
      exact hfirst
    · rw [hsome] at h
      cases h

/-! ## Whatever is done to a buffer -/

/-- What can be done to a buffer. -/
inductive Call where
  | push (bytes : List UInt8)
  | takeResponse
  | takePending

/-- The text that is taken, if any, and what becomes of the buffer. -/
def call (buffer : AckBuffer) : Call → Option String × AckBuffer
  | .push bytes => (none, buffer.push bytes)
  | .takeResponse => buffer.takeResponse
  | .takePending => buffer.takePending

/-- The texts that are taken, in order, and what becomes of the buffer. -/
def calls (buffer : AckBuffer) : List Call → List String × AckBuffer
  | [] => ([], buffer)
  | c :: rest =>
    ((buffer.call c).1.toList ++ ((buffer.call c).2.calls rest).1, ((buffer.call c).2.calls rest).2)

/-- The characters that are put in. -/
def Call.pushed : Call → List Char
  | .push bytes => decoded bytes
  | _ => []

theorem pending_push (buffer : AckBuffer) (bytes : List UInt8) :
    (buffer.push bytes).pending = buffer.pending ++ decoded bytes :=
  rfl

/-- **A call moves text and loses none.** -/
theorem call_conserves (buffer : AckBuffer) (c : Call) :
    (buffer.call c).1.toList.flatMap String.toList ++ (buffer.call c).2.pending =
      buffer.pending ++ c.pushed := by
  rcases c with bytes | _ | _
  · exact pending_push buffer bytes
  · have hnothing : Call.takeResponse.pushed = [] := rfl
    rw [hnothing, List.append_nil, call]
    rcases h : buffer.takeResponse with ⟨_ | text, rest⟩
    · have hsame := buffer.responds.unchanged (by rw [h])
      rw [h] at hsame
      rw [← hsame]
      rfl
    · rw [(buffer.responds.shortest text rest h).1]
      simp
  · have hnothing : Call.takePending.pushed = [] := rfl
    rw [hnothing, List.append_nil, call, takePending]
    split <;> simp

theorem calls_conserve (buffer : AckBuffer) (cs : List Call) :
    (buffer.calls cs).1.flatMap String.toList ++ (buffer.calls cs).2.pending =
      buffer.pending ++ cs.flatMap Call.pushed := by
  induction cs generalizing buffer with
  | nil => simp [calls]
  | cons c cs ih =>
    rw [calls, List.flatMap_append, List.append_assoc, ih, ← List.append_assoc, call_conserves,
      List.append_assoc, List.flatMap_cons]

/-- **Nothing is lost and nothing is made up.**  Whatever is done to a buffer, the texts that were
taken and what is still there are the characters that were put in; and taking a response from it
then does what it says, see `Responds`. -/
theorem nothing_lost (cs : List Call) :
    (calls {} cs).1.flatMap String.toList ++ (calls {} cs).2.pending = cs.flatMap Call.pushed ∧
      (calls {} cs).2.Responds :=
  ⟨calls_conserve {} cs, responds _⟩

/-! ## All responses -/

theorem length_lt_of_takeResponse {buffer rest : AckBuffer} {text : String}
    (h : buffer.takeResponse = (some text, rest)) :
    rest.pending.length < buffer.pending.length := by
  obtain ⟨hpending, hanswer⟩ := answer_of_split (split_of_takeResponse h)
  have hsome := List.length_pos_iff.2 hanswer.ne_nil
  rw [hpending, List.length_append]
  exact Nat.lt_add_of_pos_left hsome

/-- Takes every response that there is. -/
def takeAll (buffer : AckBuffer) : List String × AckBuffer :=
  match _h : buffer.takeResponse with
  | (some text, rest) => (text :: rest.takeAll.1, rest.takeAll.2)
  | (none, rest) => ([], rest)
termination_by buffer.pending.length
decreasing_by all_goals exact length_lt_of_takeResponse _h

theorem takeAll_some {buffer rest : AckBuffer} {text : String}
    (h : buffer.takeResponse = (some text, rest)) :
    buffer.takeAll = (text :: rest.takeAll.1, rest.takeAll.2) := by
  rw [takeAll]
  split
  · rename_i h'
    cases h.symm.trans h'
    rfl
  · rename_i h'
    cases h.symm.trans h'

theorem takeAll_none {buffer : AckBuffer} (h : buffer.takeResponse.1 = none) :
    buffer.takeAll = ([], buffer) := by
  have hsame := buffer.responds.unchanged h
  rw [takeAll]
  split
  · rename_i h'
    rw [h'] at h
    cases h
  · rename_i h'
    rw [h'] at hsame
    exact congrArg (Prod.mk []) hsame

theorem takeAll_conserves (buffer : AckBuffer) :
    buffer.takeAll.1.flatMap String.toList ++ buffer.takeAll.2.pending = buffer.pending := by
  induction buffer using takeAll.induct with
  | case1 buffer text rest h ih =>
    rw [takeAll_some h, List.flatMap_cons, List.append_assoc, ih,
      (buffer.responds.shortest text rest h).1]
  | case2 buffer rest h =>
    rw [takeAll_none (by rw [h])]
    rfl

/-- What is left when every response has been taken holds none. -/
theorem takeResponse_takeAll (buffer : AckBuffer) : buffer.takeAll.2.takeResponse.1 = none := by
  induction buffer using takeAll.induct with
  | case1 buffer text rest h ih =>
    rw [takeAll_some h]
    exact ih
  | case2 buffer rest h =>
    have hnone : buffer.takeResponse.1 = none := by rw [h]
    rw [takeAll_none hnone]
    exact hnone

/-- More text does not change the responses that there are. -/
theorem takeResponse_append {buffer rest : AckBuffer} {text : String}
    (h : buffer.takeResponse = (some text, rest)) (more : List Char) :
    takeResponse ⟨buffer.pending ++ more⟩ = (some text, ⟨rest.pending ++ more⟩) := by
  obtain ⟨hpending, hanswer⟩ := answer_of_split (split_of_takeResponse h)
  have hsplit : split [] (buffer.pending ++ more) = some (text.toList, rest.pending ++ more) := by
    rw [hpending, List.append_assoc]
    exact hanswer.split_eq _
  rw [takeResponse_of_split hsplit, String.ofList_toList]

/-- **Responses may be taken early**: when there is more text, they come off what was left. -/
theorem takeAll_append (buffer : AckBuffer) (more : List Char) :
    takeAll ⟨buffer.pending ++ more⟩ =
      (buffer.takeAll.1 ++ (takeAll ⟨buffer.takeAll.2.pending ++ more⟩).1,
        (takeAll ⟨buffer.takeAll.2.pending ++ more⟩).2) := by
  induction buffer using takeAll.induct with
  | case1 buffer text rest h ih =>
    rw [takeAll_some (takeResponse_append h more), ih, takeAll_some h]
    rfl
  | case2 buffer rest h =>
    have hnone : buffer.takeResponse.1 = none := by rw [h]
    rw [takeAll_none hnone]
    rfl

/-! ## Lots -/

/-- Lots are pushed, and after each of them all responses are taken. -/
def hear (buffer : AckBuffer) : List (List UInt8) → List String × AckBuffer
  | [] => ([], buffer)
  | lot :: lots =>
    ((buffer.push lot).takeAll.1 ++ ((buffer.push lot).takeAll.2.hear lots).1,
      ((buffer.push lot).takeAll.2.hear lots).2)

/-- **What is heard depends on the characters that the lots show**, and on nothing else. -/
theorem hear_eq {buffer : AckBuffer} (nothing : buffer.takeResponse.1 = none)
    (lots : List (List UInt8)) :
    buffer.hear lots = takeAll ⟨buffer.pending ++ decodedLots lots⟩ := by
  induction lots generalizing buffer with
  | nil =>
    rw [decodedLots, List.flatMap_nil, List.append_nil, takeAll_none nothing]
    rfl
  | cons lot lots ih =>
    have hmore := (buffer.push lot).takeAll_append (decodedLots lots)
    rw [pending_push, List.append_assoc] at hmore
    rw [hear, ih (takeResponse_takeAll _), decodedLots_cons, hmore]

theorem hear_eq_iff {lots lots' : List (List UInt8)} :
    hear {} lots = hear {} lots' ↔ decodedLots lots = decodedLots lots' := by
  rw [hear_eq rfl, hear_eq rfl]
  refine ⟨fun h => ?_, fun h => by rw [h]⟩
  have hlots := takeAll_conserves ⟨[] ++ decodedLots lots⟩
  rw [h, takeAll_conserves] at hlots
  exact hlots.symm

/-- **Where lots end makes no difference, unless one of them ends inside a character.**  Of two ways
to cut the same bytes into lots, the first of which cuts no character, the second comes to the same
responses and the same rest exactly if it does not cut one either; and in ASCII there is none to be
cut. -/
theorem hear_alike_iff {lots lots' : List (List UInt8)} (same : lots.flatten = lots'.flatten) :
    (Apart lots → (hear {} lots = hear {} lots' ↔ Apart lots')) ∧
      ((∀ b ∈ lots.flatten, b.toNat < 0x80) → hear {} lots = hear {} lots') := by
  have hiff (apart : Apart lots) : hear {} lots = hear {} lots' ↔ Apart lots' := by
    rw [hear_eq_iff, (decodedLots_eq_iff lots).2 apart, same, ← decodedLots_eq_iff, eq_comm]
  exact ⟨hiff, fun ascii => (hiff (apart_of_ascii ascii)).2 (apart_of_ascii (same ▸ ascii))⟩

/-- A line of one character of two bytes, and a line that says `ok`; a lot ends inside that line. -/
def cutInOk : List (List UInt8) :=
  [[0xC3, 0xA9, 0x0A, 0x6F], [0x6B, 0x0A]]

/-- A lot ends inside the character. -/
def cutInCharacter : List (List UInt8) :=
  [[0xC3], [0xA9, 0x0A, 0x6F, 0x6B, 0x0A]]

theorem apart_cutInOk : Apart cutInOk := by
  rw [cutInOk, apart_cons, apart_cons]
  exact ⟨.next (.next (.next (.all _))), .next (.next (.all _)), apart_nil⟩

theorem not_apart_cutInCharacter : ¬Apart cutInCharacter := by
  have hlots : decodedLots cutInCharacter = "\uFFFD\uFFFD\nok\n".toList := by decide +kernel
  have htogether : decoded cutInCharacter.flatten = "é\nok\n".toList := by decide +kernel
  rw [← decodedLots_eq_iff, hlots, htogether]
  decide

/-- The line that says `ok` may be cut, the character may not. -/
theorem hear_alike_iff_twoLines :
    hear {} cutInOk = hear {} [cutInOk.flatten] ∧ hear {} cutInOk ≠ hear {} cutInCharacter := by
  have htogether : cutInOk.flatten = [cutInOk.flatten].flatten := List.flatten_singleton.symm
  have hsame : cutInOk.flatten = cutInCharacter.flatten := rfl
  refine ⟨((hear_alike_iff htogether).1 apart_cutInOk).2 (apart_singleton _), fun h => ?_⟩
  exact not_apart_cutInCharacter (((hear_alike_iff hsame).1 apart_cutInOk).1 h)

/-- **A blank of three bytes before `ok`**: in one lot the line acknowledges, but if a lot ends
inside the blank no line does. -/
theorem hear_cut :
    hear {} [[0xE2, 0x80, 0x83, 0x6F, 0x6B, 0x0A]] = (["\u2003ok\n"], {}) ∧
      hear {} [[0xE2], [0x80, 0x83, 0x6F, 0x6B, 0x0A]] =
        ([], ⟨"\uFFFD\uFFFD\uFFFDok\n".toList⟩) := by
  have htogether : takeResponse ⟨decodedLots [[0xE2, 0x80, 0x83, 0x6F, 0x6B, 0x0A]]⟩ =
      (some "\u2003ok\n", {}) := by
    decide +kernel
  have hcut : decodedLots [[0xE2], [0x80, 0x83, 0x6F, 0x6B, 0x0A]] =
      "\uFFFD\uFFFD\uFFFDok\n".toList := by
    decide +kernel
  constructor
  · rw [hear_eq rfl]
    exact (takeAll_some htogether).trans (by rw [takeAll_none rfl])
  · rw [hear_eq rfl, hcut]
    exact takeAll_none (by decide +kernel)

end AckBuffer

end Stylus
