import Stylus.Text.Utf8

/-!
# What bytes show

Bytes from a link are decoded a lot at a time, each lot by itself, and a character that is cut in
two by the end of a lot is seen as two faults.  So the text that comes out is not a function of the
bytes.  `Shows bytes text` is what can be said of it wherever the lots end: the bytes fall into
parts, one for each character of the text.

* `Shows` — the bytes may be seen as that text;
* `shows_lossy` — decoding shows what is there;
* `Shows.append`, `Shows.of_append` — texts end to end;
* `Shows.eq_encodeAll` — a text without faults is all that the bytes say;
* `Shows.newline_mem` — the byte of a newline is never lost in a fault;
* `strict_encode` — what was encoded is read back, if it comes in one lot.
-/

set_option autoImplicit false

namespace Stylus
namespace Text
namespace Utf8

/-- The bytes of the characters of a text. -/
def encodeAll (text : List Char) : List UInt8 :=
  text.flatMap String.utf8EncodeChar

theorem encodeAll_append (s t : List Char) : encodeAll (s ++ t) = encodeAll s ++ encodeAll t :=
  List.flatMap_append

theorem encodeAll_cons (c : Char) (text : List Char) :
    encodeAll (c :: text) = String.utf8EncodeChar c ++ encodeAll text :=
  List.flatMap_cons

/-- **The bytes of one character**, or those of a fault: none of these is ASCII. -/
inductive Part : List UInt8 → Char → Prop where
  | char (c : Char) : Part (String.utf8EncodeChar c) c
  | fault {bytes : List UInt8} (nonempty : bytes ≠ []) (high : ∀ b ∈ bytes, 0x80 ≤ b.toNat) :
    Part bytes '\uFFFD'

/-- **The bytes may be seen as that text**, if they come in suitable lots. -/
inductive Shows : List UInt8 → List Char → Prop where
  | nil : Shows [] []
  | cons {part bytes : List UInt8} {c : Char} {text : List Char} (head : Part part c)
    (tail : Shows bytes text) : Shows (part ++ bytes) (c :: text)

theorem Part.ne_nil {part : List UInt8} {c : Char} (h : Part part c) : part ≠ [] := by
  cases h with
  | char => exact String.utf8EncodeChar_ne_nil
  | fault nonempty => exact nonempty

/-- What is not a fault is its own encoding. -/
theorem Part.eq_encodeChar {part : List UInt8} {c : Char} (h : Part part c) (hc : c ≠ '\uFFFD') :
    part = String.utf8EncodeChar c := by
  cases h with
  | char => rfl
  | fault => exact absurd rfl hc

/-! ## The bytes of one character -/

theorem toNat_ofNat {n : Nat} (h : n.isValidChar) : (Char.ofNat n).val.toNat = n := by
  rw [Char.ofNat, dif_pos h]
  rfl

theorem ofNat_eq {n : Nat} {b : UInt8} (h : n = b.toNat) : UInt8.ofNat n = b := by
  rw [h, UInt8.ofNat_toNat]

theorem isContinuation_iff {b : UInt8} :
    isContinuation b = true ↔ 0x80 ≤ b.toNat ∧ b.toNat < 0xC0 := by
  rw [isContinuation, beq_iff_eq]
  omega

theorem between_iff {low high b : UInt8} :
    (low ≤ b && b ≤ high) = true ↔ low.toNat ≤ b.toNat ∧ b.toNat ≤ high.toNat := by
  rw [Bool.and_eq_true, decide_eq_true_eq, decide_eq_true_eq, UInt8.le_iff_toNat_le,
    UInt8.le_iff_toNat_le]

/-- The second byte after a lead byte, two of which narrow the bytes that may follow. -/
theorem second_cases {lead b x y low high low' high' : UInt8}
    (h : (if lead = x then low ≤ b && b ≤ high
      else if lead = y then low' ≤ b && b ≤ high' else isContinuation b) = true) :
    (lead.toNat = x.toNat ∧ low.toNat ≤ b.toNat ∧ b.toNat ≤ high.toNat) ∨
      (lead.toNat = y.toNat ∧ low'.toNat ≤ b.toNat ∧ b.toNat ≤ high'.toNat) ∨
      lead.toNat ≠ x.toNat ∧ lead.toNat ≠ y.toNat ∧ 0x80 ≤ b.toNat ∧ b.toNat < 0xC0 := by
  simp only [← UInt8.toNat_inj] at h
  split at h
  · exact .inl ⟨‹_›, between_iff.1 h⟩
  · split at h
    · exact .inr (.inl ⟨‹_›, between_iff.1 h⟩)
    · exact .inr (.inr ⟨‹_›, ‹_›, isContinuation_iff.1 h⟩)

theorem secondOfThree_spec {lead b : UInt8} (h : secondOfThree lead b = true) :
    (0x80 ≤ b.toNat ∧ b.toNat < 0xC0) ∧ (lead.toNat = 0xE0 → 0xA0 ≤ b.toNat) ∧
      (lead.toNat = 0xED → b.toNat < 0xA0) := by
  have hb := second_cases h
  simp only [UInt8.reduceToNat] at hb
  omega

theorem secondOfFour_spec {lead b : UInt8} (h : secondOfFour lead b = true) :
    (0x80 ≤ b.toNat ∧ b.toNat < 0xC0) ∧ (lead.toNat = 0xF0 → 0x90 ≤ b.toNat) ∧
      (lead.toNat = 0xF4 → b.toNat < 0x90) := by
  have hb := second_cases h
  simp only [UInt8.reduceToNat] at hb
  omega

theorem encodeChar_one {b : UInt8} (h : b.toNat < 0x80) :
    String.utf8EncodeChar (Char.ofNat b.toNat) = [b] := by
  rw [String.utf8EncodeChar, toNat_ofNat (.inl (by omega)), if_pos (by omega), UInt8.ofNat_toNat]

theorem encodeChar_two {lead b : UInt8} (hlead : 0xC2 ≤ lead.toNat ∧ lead.toNat < 0xE0)
    (hb : isContinuation b = true) :
    String.utf8EncodeChar (Char.ofNat (lead.toNat % 32 * 64 + payload b)) = [lead, b] := by
  have hb := isContinuation_iff.1 hb
  rw [payload, String.utf8EncodeChar, toNat_ofNat (.inl (by omega)), if_neg (by omega),
    if_pos (by omega)]
  rw [ofNat_eq (b := lead) (by omega), ofNat_eq (b := b) (by omega)]

theorem encodeChar_three {lead b c : UInt8} (hlead : 0xE0 ≤ lead.toNat ∧ lead.toNat < 0xF0)
    (hb : secondOfThree lead b = true) (hc : isContinuation c = true) :
    String.utf8EncodeChar (Char.ofNat ((lead.toNat % 16 * 64 + payload b) * 64 + payload c)) =
      [lead, b, c] := by
  obtain ⟨hb, hlow, hsurrogate⟩ := secondOfThree_spec hb
  have hc := isContinuation_iff.1 hc
  have hvalid : ((lead.toNat % 16 * 64 + b.toNat % 64) * 64 + c.toNat % 64).isValidChar := by
    rw [Nat.isValidChar]
    omega
  rw [payload, payload, String.utf8EncodeChar, toNat_ofNat hvalid, if_neg (by omega),
    if_neg (by omega), if_pos (by omega)]
  rw [ofNat_eq (b := lead) (by omega), ofNat_eq (b := b) (by omega), ofNat_eq (b := c) (by omega)]

theorem encodeChar_four {lead b c d : UInt8} (hlead : 0xF0 ≤ lead.toNat ∧ lead.toNat < 0xF5)
    (hb : secondOfFour lead b = true) (hc : isContinuation c = true)
    (hd : isContinuation d = true) :
    String.utf8EncodeChar (Char.ofNat
      (((lead.toNat % 8 * 64 + payload b) * 64 + payload c) * 64 + payload d)) =
      [lead, b, c, d] := by
  obtain ⟨hb, hlow, hhigh⟩ := secondOfFour_spec hb
  have hc := isContinuation_iff.1 hc
  have hd := isContinuation_iff.1 hd
  have hvalid : (((lead.toNat % 8 * 64 + b.toNat % 64) * 64 + c.toNat % 64) * 64 +
      d.toNat % 64).isValidChar := by
    rw [Nat.isValidChar]
    omega
  rw [payload, payload, payload, String.utf8EncodeChar, toNat_ofNat hvalid, if_neg (by omega),
    if_neg (by omega), if_neg (by omega)]
  rw [ofNat_eq (b := lead) (by omega), ofNat_eq (b := b) (by omega), ofNat_eq (b := c) (by omega),
    ofNat_eq (b := d) (by omega)]

/-! ## One part at a time -/

/-- A part of the bytes and what follows it. -/
def Taken (bytes : List UInt8) (p : Piece × List UInt8) : Prop :=
  ∃ part : List UInt8, bytes = part ++ p.2 ∧ Part part p.1.shown

theorem Taken.char (part : List UInt8) {rest : List UInt8} {c : Char}
    (h : String.utf8EncodeChar c = part) : Taken (part ++ rest) (.char c, rest) :=
  ⟨part, rfl, h ▸ .char c⟩

theorem Taken.invalid (part : List UInt8) {rest : List UInt8} {n : Nat} (nonempty : part ≠ [])
    (high : ∀ b ∈ part, 0x80 ≤ b.toNat) : Taken (part ++ rest) (.invalid n, rest) :=
  ⟨part, rfl, .fault nonempty high⟩

theorem Taken.incomplete {part : List UInt8} {n : Nat} (nonempty : part ≠ [])
    (high : ∀ b ∈ part, 0x80 ≤ b.toNat) : Taken part (.incomplete n, []) :=
  ⟨part, (List.append_nil part).symm, .fault nonempty high⟩

theorem two_taken {lead : UInt8} (hlead : 0xC2 ≤ lead.toNat ∧ lead.toNat < 0xE0)
    (rest : List UInt8) : Taken (lead :: rest) (two lead rest) := by
  have high : ∀ b ∈ [lead], 0x80 ≤ b.toNat := by simp; omega
  cases rest with
  | nil => exact .incomplete (by simp) high
  | cons b rest =>
    rw [two]
    split
    · exact .char [lead, b] (encodeChar_two hlead ‹_›)
    · exact .invalid [lead] (by simp) high

theorem three_taken {lead : UInt8} (hlead : 0xE0 ≤ lead.toNat ∧ lead.toNat < 0xF0)
    (rest : List UInt8) : Taken (lead :: rest) (three lead rest) := by
  have high : ∀ b ∈ [lead], 0x80 ≤ b.toNat := by simp; omega
  cases rest with
  | nil => exact .incomplete (by simp) high
  | cons b rest =>
    rw [three.eq_def]
    dsimp only
    split
    · rename_i hb
      have high : ∀ x ∈ [lead, b], 0x80 ≤ x.toNat := by
        have := secondOfThree_spec hb
        simp
        omega
      split
      · exact .incomplete (by simp) high
      · rename_i c rest
        split
        · exact .char [lead, b, c] (encodeChar_three hlead hb ‹_›)
        · exact .invalid [lead, b] (by simp) high
    · exact .invalid [lead] (by simp) high

theorem four_taken {lead : UInt8} (hlead : 0xF0 ≤ lead.toNat ∧ lead.toNat < 0xF5)
    (rest : List UInt8) : Taken (lead :: rest) (four lead rest) := by
  have high : ∀ b ∈ [lead], 0x80 ≤ b.toNat := by simp; omega
  cases rest with
  | nil => exact .incomplete (by simp) high
  | cons b rest =>
    rw [four.eq_def]
    dsimp only
    split
    · rename_i hb
      have high : ∀ x ∈ [lead, b], 0x80 ≤ x.toNat := by
        have := secondOfFour_spec hb
        simp
        omega
      split
      · exact .incomplete (by simp) high
      · rename_i c rest
        split
        · rename_i hc
          have high : ∀ x ∈ [lead, b, c], 0x80 ≤ x.toNat := by
            have := secondOfFour_spec hb
            have := isContinuation_iff.1 hc
            simp
            omega
          split
          · exact .incomplete (by simp) high
          · rename_i d rest
            split
            · exact .char [lead, b, c, d] (encodeChar_four hlead hb hc ‹_›)
            · exact .invalid [lead, b, c] (by simp) high
        · exact .invalid [lead, b] (by simp) high
    · exact .invalid [lead] (by simp) high

theorem next_taken (lead : UInt8) (rest : List UInt8) : Taken (lead :: rest) (next lead rest) := by
  rw [next]
  split
  · rename_i h
    exact .char [lead] (encodeChar_one (UInt8.lt_iff_toNat_lt.1 h))
  · rename_i hlow
    have hlow : 0x80 ≤ lead.toNat := UInt8.le_iff_toNat_le.1 (UInt8.not_lt.1 hlow)
    split
    · rename_i h
      simp only [between_iff, UInt8.reduceToNat] at h
      exact two_taken (by omega) rest
    · split
      · rename_i h
        simp only [between_iff, UInt8.reduceToNat] at h
        exact three_taken (by omega) rest
      · split
        · rename_i h
          simp only [between_iff, UInt8.reduceToNat] at h
          exact four_taken (by omega) rest
        · exact .invalid [lead] (by simp) (by simpa using hlow)

/-! ## Texts end to end -/

theorem shows_pieces (bytes : List UInt8) : Shows bytes ((pieces bytes).map Piece.shown) := by
  fun_induction pieces bytes with
  | case1 => exact .nil
  | case2 lead rest ih =>
    obtain ⟨part, hbytes, hpart⟩ := next_taken lead rest
    rw [hbytes]
    exact .cons hpart ih

/-- **Decoding shows what is there.** -/
theorem shows_lossy (bytes : List UInt8) : Shows bytes (lossy bytes).toList := by
  rw [lossy, String.toList_ofList]
  exact shows_pieces bytes

theorem Shows.append {a b : List UInt8} {s t : List Char} (ha : Shows a s) (hb : Shows b t) :
    Shows (a ++ b) (s ++ t) := by
  induction ha with
  | nil => exact hb
  | cons head tail ih =>
    rw [List.append_assoc]
    exact .cons head ih

/-- A text that is seen falls apart where one likes, and its bytes with it. -/
theorem Shows.of_append {bytes : List UInt8} {s t : List Char} (h : Shows bytes (s ++ t)) :
    ∃ a b : List UInt8, bytes = a ++ b ∧ Shows a s ∧ Shows b t := by
  induction s generalizing bytes with
  | nil => exact ⟨[], bytes, rfl, .nil, h⟩
  | cons c s ih =>
    cases h with
    | cons head tail =>
      obtain ⟨a, b, rfl, ha, hb⟩ := ih tail
      exact ⟨_ ++ a, b, (List.append_assoc ..).symm, .cons head ha, hb⟩

theorem Shows.eq_nil {text : List Char} (h : Shows [] text) : text = [] := by
  generalize hbytes : ([] : List UInt8) = bytes at h
  cases h with
  | nil => rfl
  | cons head tail =>
    exact absurd (List.nil_eq_append_iff.1 hbytes).1 head.ne_nil

/-! ## Newlines and faults -/

/-- Only a newline is encoded with the byte of a newline. -/
theorem eq_newline_of_mem {c : Char} (h : 0x0A ∈ String.utf8EncodeChar c) : c = '\n' := by
  have hv : c.val.toNat = 10 := by
    rw [String.utf8EncodeChar] at h
    split at h
    · simp only [List.mem_singleton, ← UInt8.toNat_inj, UInt8.toNat_ofNat', UInt8.reduceToNat] at h
      omega
    · split at h
      · simp [← UInt8.toNat_inj] at h
        omega
      · split at h
        · simp [← UInt8.toNat_inj] at h
          omega
        · simp [← UInt8.toNat_inj] at h
          omega
  exact Char.ext (UInt32.toNat_inj.1 hv)

/-- **A newline is seen as one**, whatever comes before and after it. -/
theorem Shows.newline_mem {bytes : List UInt8} {text : List Char} (h : Shows bytes text)
    (hmem : 0x0A ∈ bytes) : '\n' ∈ text := by
  induction h with
  | nil => exact absurd hmem List.not_mem_nil
  | cons head tail ih =>
    rcases List.mem_append.1 hmem with hpart | hrest
    · cases head with
      | char c =>
        rw [eq_newline_of_mem hpart]
        exact List.mem_cons_self
      | fault _ high => exact absurd (high _ hpart) (by decide)
    · exact List.mem_cons_of_mem _ (ih hrest)

/-- **A text without faults is all that the bytes say.** -/
theorem Shows.eq_encodeAll {bytes : List UInt8} {text : List Char} (h : Shows bytes text)
    (hclean : '\uFFFD' ∉ text) : bytes = encodeAll text := by
  induction h with
  | nil => rfl
  | cons head tail ih =>
    rw [List.mem_cons, not_or] at hclean
    rw [head.eq_encodeChar (Ne.symm hclean.1), ih hclean.2, encodeAll_cons]

/-- Bytes that are all ASCII show no faults. -/
theorem Shows.clean_of_ascii {bytes : List UInt8} {text : List Char} (h : Shows bytes text)
    (hascii : ∀ b ∈ bytes, b.toNat < 0x80) : '\uFFFD' ∉ text := by
  induction h with
  | nil => exact List.not_mem_nil
  | @cons part bytes c text head tail ih =>
    rw [List.forall_mem_append] at hascii
    rw [List.mem_cons, not_or]
    refine ⟨?_, ih hascii.2⟩
    rintro rfl
    cases head with
    | char => exact absurd (hascii.1 0xEF (by decide)) (by decide)
    | fault nonempty high =>
      obtain ⟨b, hb⟩ := List.exists_mem_of_ne_nil _ nonempty
      exact absurd (hascii.1 b hb) (Nat.not_lt.2 (high b hb))

theorem ascii_encodeAll {text : List Char} (hascii : ∀ c ∈ text, c.toNat < 0x80) :
    ∀ b ∈ encodeAll text, b.toNat < 0x80 := by
  intro b hb
  obtain ⟨c, hc, hb⟩ := List.mem_flatMap.1 hb
  have hlow : c.val.toNat < 0x80 := hascii c hc
  rw [String.utf8EncodeChar, if_pos (by omega), List.mem_singleton] at hb
  rw [hb, UInt8.toNat_ofNat']
  omega

theorem encodeAll_inj {s t : List Char} (h : encodeAll s = encodeAll t) : s = t := by
  have hencode : s.utf8Encode = t.utf8Encode := congrArg List.toByteArray h
  have hdecode := congrArg ByteArray.utf8Decode? hencode
  rw [List.utf8Decode?_utf8Encode, List.utf8Decode?_utf8Encode] at hdecode
  simpa using hdecode

/-- A text shows itself. -/
theorem shows_encodeAll (text : List Char) : Shows (encodeAll text) text := by
  induction text with
  | nil => exact .nil
  | cons c text ih => exact .cons (.char c) ih

/-- An ASCII text is seen as it is, however its bytes come in lots. -/
theorem Shows.eq_of_ascii {s text : List Char} (h : Shows (encodeAll s) text)
    (hascii : ∀ c ∈ s, c.toNat < 0x80) : text = s :=
  (encodeAll_inj (h.eq_encodeAll (h.clean_of_ascii (ascii_encodeAll hascii)))).symm

theorem toList_loop (bytes : ByteArray) (i : Nat) (r : List UInt8) :
    ByteArray.toList.loop bytes i r = r.reverse ++ bytes.data.toList.drop i := by
  fun_induction ByteArray.toList.loop bytes i r with
  | case1 i r hlt ih =>
    rw [ih, List.reverse_cons, List.append_assoc]
    have hget : bytes.get! i = bytes.data.toList[i] := by
      rw [ByteArray.get!, getElem!_pos bytes.data i hlt, Array.getElem_toList]
    rw [List.drop_eq_getElem_cons hlt, hget]
    rfl
  | case2 i r hge => 
    rw [List.drop_eq_nil_of_le (by simpa using hge), List.append_nil]

theorem encode_eq (s : String) : encode s = encodeAll s.toList := by
  have hbytes : s.toUTF8 = (encodeAll s.toList).toByteArray := String.utf8Encode_toList.symm
  rw [encode, ByteArray.toList, toList_loop, hbytes, List.toList_data_toByteArray]
  rfl

/-! ## What was encoded is read back -/

theorem toNat_byte {n : Nat} (h : n < 256) : (UInt8.ofNat n).toNat = n := by
  rw [UInt8.toNat_ofNat']
  exact Nat.mod_eq_of_lt h

theorem secondOfThree_of {lead b : UInt8} (hb : isContinuation b = true)
    (hlow : lead.toNat = 0xE0 → 0xA0 ≤ b.toNat) (hsurrogate : lead.toNat = 0xED → b.toNat < 0xA0) :
    secondOfThree lead b = true := by
  have hrange := isContinuation_iff.1 hb
  simp only [secondOfThree, ← UInt8.toNat_inj, UInt8.reduceToNat]
  by_cases h : lead.toNat = 0xE0
  · simp only [if_pos h, between_iff, UInt8.reduceToNat]
    omega
  · rw [if_neg h]
    by_cases h : lead.toNat = 0xED
    · simp only [if_pos h, between_iff, UInt8.reduceToNat]
      omega
    · rw [if_neg h]
      exact hb

theorem secondOfFour_of {lead b : UInt8} (hb : isContinuation b = true)
    (hlow : lead.toNat = 0xF0 → 0x90 ≤ b.toNat) (hhigh : lead.toNat = 0xF4 → b.toNat < 0x90) :
    secondOfFour lead b = true := by
  have hrange := isContinuation_iff.1 hb
  simp only [secondOfFour, ← UInt8.toNat_inj, UInt8.reduceToNat]
  by_cases h : lead.toNat = 0xF0
  · simp only [if_pos h, between_iff, UInt8.reduceToNat]
    omega
  · rw [if_neg h]
    by_cases h : lead.toNat = 0xF4
    · simp only [if_pos h, between_iff, UInt8.reduceToNat]
      omega
    · rw [if_neg h]
      exact hb

theorem isContinuation_byte {n : Nat} (h : n < 64) :
    isContinuation (UInt8.ofNat (n + 128)) = true := by
  rw [isContinuation_iff, toNat_byte (by omega)]
  omega

theorem payload_byte {n : Nat} (h : n < 64) : payload (UInt8.ofNat (n + 128)) = n := by
  rw [payload, toNat_byte (by omega)]
  omega

/-- Lead bytes in a range that does not begin with ASCII. -/
theorem next_lead {lead : UInt8} {rest : List UInt8} (h : 0xC2 ≤ lead.toNat ∧ lead.toNat ≤ 0xF4) :
    next lead rest = if lead.toNat < 0xE0 then two lead rest
      else if lead.toNat < 0xF0 then three lead rest else four lead rest := by
  have hascii : ¬lead < 0x80 := by
    simp only [UInt8.lt_iff_toNat_lt, UInt8.reduceToNat]
    omega
  simp only [next, if_neg hascii, between_iff, UInt8.reduceToNat]
  by_cases htwo : lead.toNat < 0xE0
  · rw [if_pos htwo, if_pos (by omega)]
  · rw [if_neg htwo, if_neg (by omega)]
    by_cases hthree : lead.toNat < 0xF0
    · rw [if_pos hthree, if_pos (by omega)]
    · rw [if_neg hthree, if_neg (by omega), if_pos (by omega)]

/-- **The bytes of a character are read as that character**, whatever follows them. -/
theorem pieces_encodeChar (c : Char) (rest : List UInt8) :
    pieces (String.utf8EncodeChar c ++ rest) = .char c :: pieces rest := by
  suffices h : ∃ lead more, String.utf8EncodeChar c = lead :: more ∧
      next lead (more ++ rest) = (.char (Char.ofNat c.val.toNat), rest) by
    obtain ⟨lead, more, hbytes, hnext⟩ := h
    rw [hbytes, List.cons_append, pieces, hnext]
    exact congrArg (Piece.char · :: pieces rest) (Char.ofNat_toNat c)
  have hvalid : c.val.toNat < 0xD800 ∨ 0xDFFF < c.val.toNat ∧ c.val.toNat < 0x110000 := c.valid
  rw [String.utf8EncodeChar]
  generalize c.val.toNat = v at *
  by_cases hone : v ≤ 127
  · refine ⟨UInt8.ofNat v, [], if_pos hone, ?_⟩
    have hascii : UInt8.ofNat v < 0x80 := by
      simp only [UInt8.lt_iff_toNat_lt, toNat_byte (show v < 256 by omega), UInt8.reduceToNat]
      omega
    rw [next, if_pos hascii, toNat_byte (by omega), List.nil_append]
  rw [if_neg hone]
  by_cases htwo : v ≤ 2047
  · refine ⟨_, _, if_pos htwo, ?_⟩
    have hlead : (UInt8.ofNat (v / 64 % 32 + 192)).toNat = v / 64 % 32 + 192 :=
      toNat_byte (by omega)
    rw [next_lead (by omega), if_pos (by omega), List.cons_append, two,
      if_pos (isContinuation_byte (by omega)), payload_byte (by omega), hlead, List.nil_append]
    congr
    omega
  rw [if_neg htwo]
  by_cases hthree : v ≤ 65535
  · refine ⟨_, _, if_pos hthree, ?_⟩
    have hlead : (UInt8.ofNat (v / 4096 % 16 + 224)).toNat = v / 4096 % 16 + 224 :=
      toNat_byte (by omega)
    have hb : (UInt8.ofNat (v / 64 % 64 + 128)).toNat = v / 64 % 64 + 128 := toNat_byte (by omega)
    have hsecond : secondOfThree (UInt8.ofNat (v / 4096 % 16 + 224))
        (UInt8.ofNat (v / 64 % 64 + 128)) = true :=
      secondOfThree_of (isContinuation_byte (by omega)) (by omega) (by omega)
    rw [next_lead (by omega), if_neg (by omega), if_pos (by omega), List.cons_append,
      List.cons_append, List.nil_append, three, if_pos hsecond,
      if_pos (isContinuation_byte (by omega)), payload_byte (by omega), payload_byte (by omega),
      hlead]
    congr
    omega
  · refine ⟨_, _, if_neg hthree, ?_⟩
    have hlead : (UInt8.ofNat (v / 262144 % 8 + 240)).toNat = v / 262144 % 8 + 240 :=
      toNat_byte (by omega)
    have hb : (UInt8.ofNat (v / 4096 % 64 + 128)).toNat = v / 4096 % 64 + 128 :=
      toNat_byte (by omega)
    have hsecond : secondOfFour (UInt8.ofNat (v / 262144 % 8 + 240))
        (UInt8.ofNat (v / 4096 % 64 + 128)) = true :=
      secondOfFour_of (isContinuation_byte (by omega)) (by omega) (by omega)
    rw [next_lead (by omega), if_neg (by omega), if_neg (by omega), List.cons_append,
      List.cons_append, List.cons_append, List.nil_append, four, if_pos hsecond,
      if_pos (isContinuation_byte (by omega)), if_pos (isContinuation_byte (by omega)),
      payload_byte (by omega), payload_byte (by omega), payload_byte (by omega), hlead]
    dsimp only
    congr
    omega

theorem pieces_encodeAll (text : List Char) : pieces (encodeAll text) = text.map .char := by
  induction text with
  | nil =>
    show pieces [] = []
    rw [pieces]
  | cons c text ih => rw [encodeAll_cons, pieces_encodeChar, ih, List.map_cons]

theorem collect_chars (text : List Char) (index : Nat) :
    collect index (text.map .char) = .ok text := by
  induction text generalizing index with
  | nil => rfl
  | cons c text ih =>
    rw [List.map_cons, collect, ih]
    rfl

/-- **What was encoded is read back.** -/
theorem strict_encode (s : String) : strict (encode s) = .ok s := by
  rw [strict, encode_eq, pieces_encodeAll, collect_chars, Except.map, String.ofList_toList]

end Utf8
end Text
end Stylus
