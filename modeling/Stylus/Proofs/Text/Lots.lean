import Stylus.Proofs.Text.Utf8

/-!
# Bytes that come in lots

Bytes from a link come in lots, and each lot is decoded by itself.  It makes no difference where the
lots end unless one of them ends inside a character, or inside the start of one that is not
completed; and then it always makes a difference, since what is cut in two is shown as two faults or
more.

* `Extends` — what reading a character comes to when more bytes follow;
* `Leaves` — the bytes that are left when some characters have been read;
* `decoded_append` — two lots show the same as together, or more characters than that;
* `Apart` — no lot ends inside a character;
* `decodedLots_eq_iff` — **lots show the same as together exactly if no lot ends inside a
  character**;
* `apart_of_ascii` — no lot of ASCII does.
-/

set_option autoImplicit false

namespace Stylus
namespace Text
namespace Utf8

/-! ## One character and what follows it -/

/-- **What reading a character off `rest` comes to when `more` follows**: to the same, or else the
character was cut off.  What was cut off is all that there was, and is shown as a fault.  Of what
follows the character takes continuation bytes only, and if it takes none it stays a fault. -/
inductive Extends (read : List UInt8 → Piece × List UInt8) (rest more : List UInt8) : Prop where
  | same (h : read (rest ++ more) = ((read rest).1, (read rest).2 ++ more))
  | cut (taken left : List UInt8) {piece : Piece} (nothing : (read rest).2 = [])
      (fault : (read rest).1.shown = '\uFFFD') (split : more = taken ++ left)
      (longer : read (rest ++ more) = (piece, left))
      (continuation : ∀ b ∈ taken, isContinuation b = true)
      (still : taken = [] → piece.shown = '\uFFFD')

/-- Reads the next byte of a character of which `count` bytes have been read. -/
def readByte (test : UInt8 → Bool) (count : Nat) (read : UInt8 → List UInt8 → Piece × List UInt8) :
    List UInt8 → Piece × List UInt8
  | [] => (.incomplete count, [])
  | b :: rest => if test b then read b rest else (.invalid count, b :: rest)

/-- One byte more, if what is read after it is as it should be. -/
theorem Extends.byte {test : UInt8 → Bool}
    (continuation : ∀ b, test b = true → isContinuation b = true)
    {count : Nat} {read : UInt8 → List UInt8 → Piece × List UInt8} (atEnd : ∀ b, (read b []).2 = [])
    (h : ∀ b rest more, Extends (read b) rest more) (rest more : List UInt8) :
    Extends (readByte test count read) rest more := by
  rcases rest with _ | ⟨b, rest⟩
  · rcases more with _ | ⟨b, more⟩
    · exact .same rfl
    · by_cases hb : test b = true
      · -- the character goes on with this byte
        have hread : readByte test count read (b :: more) = read b more := if_pos hb
        have hcontinues := continuation b hb
        rcases h b [] more with hsame | ⟨taken, left, -, -, hsplit, hlonger, htaken, -⟩
        · rw [atEnd, List.nil_append] at hsame
          exact .cut [b] more rfl rfl rfl (hread.trans hsame) (by simpa using hcontinues) nofun
        · exact .cut (b :: taken) left rfl rfl (congrArg (b :: ·) hsplit) (hread.trans hlonger)
            (List.forall_mem_cons.2 ⟨hcontinues, htaken⟩) nofun
      · exact .cut [] (b :: more) rfl rfl rfl (if_neg hb) (by simp) fun _ => rfl
  · by_cases hb : test b = true
    · have hread (rest : List UInt8) : readByte test count read (b :: rest) = read b rest :=
        if_pos hb
      rcases h b rest more with
        hsame | ⟨taken, left, hnothing, hfault, hsplit, hlonger, htaken, hstill⟩
      · refine .same ?_
        rw [List.cons_append, hread, hread]
        exact hsame
      · refine .cut taken left ?_ ?_ hsplit ((hread _).trans hlonger) htaken hstill
        · rw [hread]
          exact hnothing
        · rw [hread]
          exact hfault
    · refine .same ?_
      rw [List.cons_append, readByte, readByte, if_neg hb, if_neg hb]
      rfl

theorem two_eq (lead : UInt8) : two lead = readByte isContinuation 1 fun b rest =>
    (.char (Char.ofNat (lead.toNat % 32 * 64 + payload b)), rest) := by
  funext rest
  rcases rest <;> rfl

theorem three_eq (lead : UInt8) : three lead = readByte (secondOfThree lead) 1 fun b =>
    readByte isContinuation 2 fun c rest =>
      (.char (Char.ofNat ((lead.toNat % 16 * 64 + payload b) * 64 + payload c)), rest) := by
  funext rest
  rcases rest with _ | ⟨b, _ | ⟨c, rest⟩⟩ <;> rfl

theorem four_eq (lead : UInt8) : four lead = readByte (secondOfFour lead) 1 fun b =>
    readByte isContinuation 2 fun c => readByte isContinuation 3 fun d rest =>
      (.char (Char.ofNat (((lead.toNat % 8 * 64 + payload b) * 64 + payload c) * 64 + payload d)),
        rest) := by
  funext rest
  rcases rest with _ | ⟨b, _ | ⟨c, _ | ⟨d, rest⟩⟩⟩ <;> rfl

theorem extends_next (lead : UInt8) (rest more : List UInt8) : Extends (next lead) rest more := by
  have hfour (b : UInt8) (h : secondOfFour lead b = true) : isContinuation b = true :=
    isContinuation_iff.2 (secondOfFour_spec h).1
  have hthree (b : UInt8) (h : secondOfThree lead b = true) : isContinuation b = true :=
    isContinuation_iff.2 (secondOfThree_spec h).1
  unfold next
  split
  · exact .same rfl
  · split
    · rw [two_eq]
      exact .byte (fun _ => id) (fun _ => rfl) (fun _ _ _ => .same rfl) rest more
    · split
      · rw [three_eq]
        exact .byte hthree (fun _ => rfl)
          (fun _ => .byte (fun _ => id) (fun _ => rfl) fun _ _ _ => .same rfl) rest more
      · split
        · rw [four_eq]
          exact .byte hfour (fun _ => rfl)
            (fun _ => .byte (fun _ => id) (fun _ => rfl)
              fun _ => .byte (fun _ => id) (fun _ => rfl) fun _ _ _ => .same rfl) rest more
        · exact .same rfl

/-- A continuation byte by itself is a fault. -/
theorem next_continuation {b : UInt8} (h : isContinuation b = true) (rest : List UInt8) :
    next b rest = (.invalid 1, rest) := by
  have hrange := isContinuation_iff.1 h
  have hascii : ¬b < 0x80 := by
    simp only [UInt8.lt_iff_toNat_lt, UInt8.reduceToNat]
    omega
  simp only [next, if_neg hascii, between_iff, UInt8.reduceToNat]
  rw [if_neg (by omega), if_neg (by omega), if_neg (by omega)]

/-! ## What bytes show -/

/-- The characters that bytes show. -/
def decoded (bytes : List UInt8) : List Char :=
  (lossy bytes).toList

theorem decoded_eq (bytes : List UInt8) : decoded bytes = (pieces bytes).map Piece.shown := by
  rw [decoded, lossy, String.toList_ofList]

theorem decoded_nil : decoded [] = [] := by
  rw [decoded_eq, pieces]
  rfl

theorem decoded_cons (lead : UInt8) (rest : List UInt8) :
    decoded (lead :: rest) = (next lead rest).1.shown :: decoded (next lead rest).2 := by
  rw [decoded_eq, pieces, List.map_cons, decoded_eq]

theorem length_decoded_continuation {taken : List UInt8}
    (h : ∀ b ∈ taken, isContinuation b = true) (rest : List UInt8) :
    (decoded (taken ++ rest)).length = taken.length + (decoded rest).length := by
  induction taken with
  | nil => simp
  | cons b taken ih =>
    rw [List.forall_mem_cons] at h
    rw [List.cons_append, decoded_cons, next_continuation h.1, List.length_cons, ih h.2,
      List.length_cons]
    omega

/-! ## Where characters end -/

/-- **Reading some characters off bytes leaves these**: between the characters and what they leave
there is no character to be cut in two. -/
inductive Leaves : List UInt8 → List UInt8 → Prop where
  | all (bytes : List UInt8) : Leaves bytes bytes
  | next {lead : UInt8} {rest left : List UInt8} (h : Leaves (next lead rest).2 left) :
    Leaves (lead :: rest) left

theorem Leaves.length_le {bytes left : List UInt8} (h : Leaves bytes left) :
    left.length ≤ bytes.length := by
  induction h with
  | all => exact Nat.le_refl _
  | @next lead rest left h ih =>
    have hnext := next_length_le lead rest
    rw [List.length_cons]
    omega

theorem Leaves.trans {bytes left more : List UInt8} (h : Leaves bytes left)
    (h' : Leaves left more) : Leaves bytes more := by
  induction h with
  | all => exact h'
  | next h ih => exact .next (ih h')

/-- There is but one way to read characters. -/
theorem Leaves.of_length_le {bytes left more : List UInt8} (h : Leaves bytes left)
    (h' : Leaves bytes more) (hle : more.length ≤ left.length) : Leaves left more := by
  induction h with
  | all => exact h'
  | @next lead rest left h ih =>
    rcases h' with _ | ⟨h'⟩
    · have hnext := next_length_le lead rest
      have hleft := h.length_le
      rw [List.length_cons] at hle
      omega
    · exact ih h' hle

theorem leaves_next_iff {lead : UInt8} {rest left : List UInt8} (h : left.length ≤ rest.length) :
    Leaves (lead :: rest) left ↔ Leaves (next lead rest).2 left := by
  refine ⟨fun hleaves => ?_, .next⟩
  rcases hleaves with _ | ⟨hleaves⟩
  · rw [List.length_cons] at h
    omega
  · exact hleaves

/-- **Two lots show the same as together exactly if the first one does not end inside a character**;
if it does, they show more characters than together. -/
theorem decoded_append (first second : List UInt8) :
    (Leaves (first ++ second) second ∧
        decoded (first ++ second) = decoded first ++ decoded second) ∨
      ¬Leaves (first ++ second) second ∧
        (decoded (first ++ second)).length < (decoded first).length + (decoded second).length := by
  fun_induction pieces first with
  | case1 => exact .inl ⟨.all second, by rw [decoded_nil, List.nil_append, List.nil_append]⟩
  | case2 lead rest ih =>
    have hlonger : second.length ≤ (rest ++ second).length := by simp
    rw [List.cons_append, leaves_next_iff hlonger, decoded_cons, decoded_cons]
    rcases extends_next lead rest second with
      hsame | @⟨taken, left, piece, hnothing, hfault, hsplit, hread, htaken, hstill⟩
    · rw [hsame]
      dsimp only
      rcases ih with ⟨hleaves, heq⟩ | ⟨hleaves, hlt⟩
      · exact .inl ⟨hleaves, by rw [heq, List.cons_append]⟩
      · refine .inr ⟨hleaves, ?_⟩
        rw [List.length_cons, List.length_cons]
        omega
    · rw [hread, hnothing, hfault, decoded_nil]
      dsimp only
      by_cases hnone : taken = []
      · subst hnone
        subst hsplit
        exact .inl ⟨.all _, by rw [hstill rfl]; rfl⟩
      · have hsome := List.length_pos_iff.2 hnone
        refine .inr ⟨fun hleaves => ?_, ?_⟩
        · have hle := hleaves.length_le
          rw [hsplit, List.length_append] at hle
          omega
        · rw [hsplit, length_decoded_continuation htaken]
          simp
          omega

/-! ## Any number of lots -/

/-- The characters that lots show, each decoded by itself. -/
def decodedLots (lots : List (List UInt8)) : List Char :=
  lots.flatMap decoded

theorem decodedLots_cons (lot : List UInt8) (lots : List (List UInt8)) :
    decodedLots (lot :: lots) = decoded lot ++ decodedLots lots :=
  List.flatMap_cons

/-- **No lot ends inside a character** of what the lots are together. -/
def Apart (lots : List (List UInt8)) : Prop :=
  ∀ before after, lots = before ++ after → Leaves lots.flatten after.flatten

theorem apart_nil : Apart [] := by
  intro before after h
  rw [(List.append_eq_nil_iff.1 h.symm).2]
  exact .all _

theorem apart_cons {first : List UInt8} {lots : List (List UInt8)} :
    Apart (first :: lots) ↔ Leaves (first ++ lots.flatten) lots.flatten ∧ Apart lots := by
  constructor
  · intro h
    have hfirst : Leaves (first ++ lots.flatten) lots.flatten := h [first] lots rfl
    refine ⟨hfirst, ?_⟩
    rintro before after rfl
    have hall := h (first :: before) after rfl
    refine hfirst.of_length_le hall ?_
    rw [List.flatten_append, List.length_append]
    omega
  · rintro ⟨hfirst, h⟩ before after hsplit
    rcases before with _ | ⟨x, before⟩
    · rw [hsplit]
      exact .all _
    · obtain ⟨rfl, hlots⟩ := List.cons.inj hsplit
      exact hfirst.trans (h before after hlots)

theorem leaves_nil (bytes : List UInt8) : Leaves bytes [] := by
  fun_induction pieces bytes with
  | case1 => exact .all []
  | case2 lead rest ih => exact .next ih

theorem apart_singleton (lot : List UInt8) : Apart [lot] :=
  apart_cons.2 ⟨leaves_nil _, apart_nil⟩

theorem decodedLots_flatten (lots : List (List UInt8)) :
    (Apart lots ∧ decodedLots lots = decoded lots.flatten) ∨
      ¬Apart lots ∧ (decoded lots.flatten).length < (decodedLots lots).length := by
  induction lots with
  | nil => exact .inl ⟨apart_nil, decoded_nil.symm⟩
  | cons first lots ih =>
    rw [apart_cons, decodedLots_cons, List.flatten_cons, List.length_append]
    rcases decoded_append first lots.flatten with ⟨hleaves, heq⟩ | ⟨hleaves, hlt⟩
    · rw [heq, List.length_append]
      refine ih.imp (fun ⟨hapart, hlots⟩ => ⟨⟨hleaves, hapart⟩, ?_⟩)
        fun ⟨hapart, hlots⟩ => ⟨fun h => hapart h.2, ?_⟩
      · rw [hlots]
      · omega
    · refine .inr ⟨fun h => hleaves h.1, ?_⟩
      rcases ih with ⟨-, hlots⟩ | ⟨-, hlots⟩
      · rw [hlots]
        exact hlt
      · omega

/-- **Lots show the same as together exactly if no lot ends inside a character.** -/
theorem decodedLots_eq_iff (lots : List (List UInt8)) :
    decodedLots lots = decoded lots.flatten ↔ Apart lots := by
  rcases decodedLots_flatten lots with ⟨hapart, heq⟩ | ⟨hapart, hlt⟩
  · exact iff_of_true heq hapart
  · exact iff_of_false (fun heq => by rw [heq] at hlt; exact Nat.lt_irrefl _ hlt) hapart

/-- **No lot of ASCII ends inside a character.** -/
theorem apart_of_ascii {lots : List (List UInt8)} (ascii : ∀ b ∈ lots.flatten, b.toNat < 0x80) :
    Apart lots := by
  have hleaves (first second : List UInt8) (h : ∀ b ∈ first, b.toNat < 0x80) :
      Leaves (first ++ second) second := by
    induction first with
    | nil => exact .all second
    | cons b first ih =>
      rw [List.forall_mem_cons] at h
      have hb : b < 0x80 := UInt8.lt_iff_toNat_lt.2 h.1
      refine .next ?_
      rw [Utf8.next, if_pos hb]
      exact ih h.2
  rintro before after rfl
  rw [List.flatten_append] at ascii ⊢
  exact hleaves _ _ fun b hb => ascii b (List.mem_append_left _ hb)

end Utf8
end Text
end Stylus
