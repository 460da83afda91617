import Stylus.Proofs.Document.Numeral
import Stylus.Document.Scan

/-!
# Leaves as lexemes

A value that holds no others is one lexeme: a text in quotes up to the closing quote, whatever
follows it, and any other value as long as a delimiter follows.

* `IsLeaf` — a text is one value, whatever delimiter follows;
* `isLeaf_real`, `isLeaf_integer` — so is the text of every number, as far as it has one;
* `Node.ofNumber` — the node that the text of a number is read as; `ofNumber_natural` — which is the
  number itself if it is whole, not negative and of up to 64 bits;
* `lexemes_quoted` — a text in quotes is read as the text that it quotes.
-/

set_option autoImplicit false

namespace Stylus

/-- The node that the text of a number is read as. -/
def Node.ofNumber (text : List Char) : Node :=
  (Document.ofText (String.ofList text)).root

namespace Lexeme

theorem lexemes_space {c : Char} (h : isSpace c = true) (rest : List Char) :
    lexemes (c :: rest) = lexemes rest := by
  rw [lexemes, if_pos h]

theorem lexemes_cons {c : Char} (h : isSpace c = false) (rest : List Char) :
    lexemes (c :: rest) = (next c rest).1 :: lexemes (next c rest).2 := by
  rw [lexemes, if_neg (by rw [h]; decide)]

/-- A character that is a lexeme by itself. -/
theorem lexemes_mark (c : Char) (lexeme : Lexeme) (h : isSpace c = false)
    (hnext : ∀ rest, next c rest = (lexeme, rest)) (rest : List Char) :
    lexemes (c :: rest) = lexeme :: lexemes rest := by
  rw [lexemes_cons h, hnext]

@[simp] theorem lexemes_openList (rest : List Char) :
    lexemes ('[' :: rest) = .openList :: lexemes rest :=
  lexemes_mark '[' .openList rfl (fun _ => rfl) rest

@[simp] theorem lexemes_closeList (rest : List Char) :
    lexemes (']' :: rest) = .closeList :: lexemes rest :=
  lexemes_mark ']' .closeList rfl (fun _ => rfl) rest

@[simp] theorem lexemes_openTable (rest : List Char) :
    lexemes ('{' :: rest) = .openTable :: lexemes rest :=
  lexemes_mark '{' .openTable rfl (fun _ => rfl) rest

@[simp] theorem lexemes_closeTable (rest : List Char) :
    lexemes ('}' :: rest) = .closeTable :: lexemes rest :=
  lexemes_mark '}' .closeTable rfl (fun _ => rfl) rest

@[simp] theorem lexemes_comma (rest : List Char) :
    lexemes (',' :: rest) = .comma :: lexemes rest :=
  lexemes_mark ',' .comma rfl (fun _ => rfl) rest

@[simp] theorem lexemes_colon (rest : List Char) :
    lexemes (':' :: rest) = .colon :: lexemes rest :=
  lexemes_mark ':' .colon rfl (fun _ => rfl) rest

/-! ## Values by themselves -/

/-- **The text is one value**, if a delimiter follows it. -/
def IsLeaf (text : List Char) (node : Node) : Prop :=
  ∀ tail, Delimited tail → lexemes (text ++ tail) = .leaf node :: lexemes tail

/-- A value by itself is a document. -/
theorem IsLeaf.ofText {text : List Char} {node : Node} (h : IsLeaf text node) :
    Document.ofText (String.ofList text) = ⟨node, true⟩ := by
  have hlexemes := h [] delimited_nil
  rw [List.append_nil, lexemes] at hlexemes
  rw [Document.ofText, String.toList_ofList, hlexemes]
  rfl

theorem IsLeaf.ofNumber {text : List Char} {node : Node} (h : IsLeaf text node) :
    IsLeaf text (Node.ofNumber text) := by
  rw [Node.ofNumber, h.ofText]
  exact h

theorem isLeaf_null : IsLeaf ['n', 'u', 'l', 'l'] .null :=
  fun _ _ => lexemes_cons (by decide) _

theorem isLeaf_true : IsLeaf ['t', 'r', 'u', 'e'] (.boolean true) :=
  fun _ _ => lexemes_cons (by decide) _

theorem isLeaf_false : IsLeaf ['f', 'a', 'l', 's', 'e'] (.boolean false) :=
  fun _ _ => lexemes_cons (by decide) _

/-! ## Numbers -/

/-- The number with its sign. -/
def signed (negative : Bool) (text : List Char) : List Char :=
  if negative then '-' :: text else text

theorem next_of_isDigit {c : Char} (h : c.isDigit = true) (rest : List Char) :
    isSpace c = false ∧ c ≠ '-' ∧ next c rest = numeric c rest := by
  have hne : ∀ d : Char, d.isDigit = false → c ≠ d := by
    rintro d hd rfl
    rw [h] at hd
    cases hd
  refine ⟨?_, hne '-' (by decide), ?_⟩
  · simp only [isSpace, hne ' ' (by decide), hne '\n' (by decide), hne '\t' (by decide),
      hne '\r' (by decide)]
    rfl
  · have hnumber : (c = '-' || c.isDigit) = true := by rw [h, Bool.or_true]
    rw [next, if_pos hnumber]
    all_goals exact fun h => hne _ (by decide) h

/-- A number that is read up to its end is one value. -/
theorem isLeaf_unsigned {ws : List Char} (hws : Whole ws) (text : List Char) {negative : Bool}
    {n : Numeral}
    (hread : ∀ tail, Delimited tail → unsigned negative (ws ++ (text ++ tail)) = some (n, tail)) :
    IsLeaf (signed negative (ws ++ text)) n.node := by
  intro tail htail
  have hread := hread tail htail
  cases negative with
  | true =>
    have hnumeric : next '-' (ws ++ (text ++ tail)) = (.leaf n.node, tail) := by
      show numeric '-' _ = _
      rw [numeric, if_pos rfl, hread]
    rw [signed, if_pos rfl, List.cons_append, List.append_assoc, lexemes_cons (by decide), hnumeric]
  | false =>
    match ws, hws with
    | [], hwhole => exact absurd rfl hwhole.ne_nil
    | c :: ws, hwhole =>
      obtain ⟨hspace, hminus, hnext⟩ := next_of_isDigit (hwhole.isDigit c List.mem_cons_self)
        (ws ++ (text ++ tail))
      have hnumeric : next c (ws ++ (text ++ tail)) = (.leaf n.node, tail) := by
        rw [hnext, numeric, if_neg hminus]
        rw [List.cons_append] at hread
        rw [hread]
      rw [signed, if_neg (by decide), List.append_assoc, List.cons_append, lexemes_cons hspace,
        hnumeric]

theorem isLeaf_spelt {ws ps es : List Char} (h : Spelt ws ps es) (negative : Bool) :
    ∃ node, IsLeaf (signed negative (ws ++ (ps ++ es))) node := by
  obtain ⟨n, hn⟩ := unsigned_of_spelt h negative
  refine ⟨n.node, isLeaf_unsigned h.whole _ fun tail htail => ?_⟩
  rw [List.append_assoc]
  exact hn tail htail

/-- The text of a number is of the grammar of numbers; infinities and undefined values are
`null`. -/
theorem realText_cases (x : Float) :
    Json.realText x = ['n', 'u', 'l', 'l'] ∨
      ∃ negative ws ps es, Spelt ws ps es ∧
        Json.realText x = signed negative (ws ++ (ps ++ es)) := by
  rw [Json.realText, Number.isFinite, Number.Form.render]
  cases hparts : Number.Binary.ofFloat x with
  | nan => exact .inl rfl
  | infinite => exact .inl rfl
  | finite negative mantissa exponent =>
    have hfinite : (Number.Binary.finite negative mantissa exponent).isFinite = true := rfl
    rw [if_pos hfinite, String.toList_ofList]
    refine .inr ⟨negative, ?_⟩
    by_cases hzero : mantissa = 0
    · rw [if_pos hzero]
      exact ⟨['0'], ['.', '0'], [], ⟨whole_zero, .some digits_zero, .none⟩, rfl⟩
    · rw [if_neg hzero]
      obtain ⟨ws, ps, es, htext, hspelt⟩ := spelt_document
        (Number.shortest_pos Number.Form.document.tie (Nat.pos_of_ne_zero hzero)
          (Number.inRange_of_ofFloat hparts))
      rw [htext]
      exact ⟨ws, ps, es, hspelt, rfl⟩

/-- **The text of a number is one value.** -/
theorem isLeaf_real (x : Float) : IsLeaf (Json.realText x) (Node.ofNumber (Json.realText x)) := by
  suffices h : ∃ node, IsLeaf (Json.realText x) node by
    obtain ⟨node, hnode⟩ := h
    exact hnode.ofNumber
  rcases realText_cases x with hnull | ⟨negative, ws, ps, es, hspelt, htext⟩
  · rw [hnull]
    exact ⟨.null, isLeaf_null⟩
  · rw [htext]
    exact isLeaf_spelt hspelt negative

/-- The text of a whole number is one value. -/
theorem isLeaf_integer (n : Int) :
    IsLeaf (Json.integerText n) (Node.ofNumber (Json.integerText n)) := by
  suffices h : ∃ node, IsLeaf (Json.integerText n) node by
    obtain ⟨node, hnode⟩ := h
    exact hnode.ofNumber
  have hspelt : Spelt (Nat.toDigits 10 n.natAbs) [] [] := ⟨whole_toDigits _, .none, .none⟩
  rw [Json.integerText]
  split
  · simpa [signed] using isLeaf_spelt hspelt true
  · simpa [signed] using isLeaf_spelt hspelt false

/-- **A natural number of up to 64 bits is read as it was written.** -/
theorem ofNumber_natural {n : Nat} (h : n < UInt64.size) :
    Node.ofNumber (Json.integerText n) = .integer n := by
  have htext : Json.integerText n = Nat.toDigits 10 n := by
    rw [Json.integerText, if_neg (by omega), Int.natAbs_natCast]
  have hleaf := isLeaf_unsigned (whole_toDigits n) [] fun tail htail =>
    unsigned_whole (whole_toDigits n) htail false
  rw [List.append_nil, signed, if_neg (by decide)] at hleaf
  rw [htext, Node.ofNumber, hleaf.ofText, Numeral.node]
  simp [valueOf_toDigits, h]

/-- There is no text for a number that is infinite or undefined. -/
theorem ofNumber_eq_null {x : Float} (h : Number.isFinite x = false) :
    Node.ofNumber (Json.realText x) = .null := by
  rw [Json.realText, h, Node.ofNumber]
  exact congrArg Document.root isLeaf_null.ofText

/-! ## Texts in quotes -/

/-- The piece that a character is written as. -/
def pieceOf (c : Char) : Piece :=
  if (Json.escaped c).length = 6 then .code c.toNat else .char c

/-- The codes that are written are those of characters that a line may not hold. -/
theorem code?_hexDigit : ∀ n < 32,
    code? '0' '0' (Json.hexDigit (n / 16)) (Json.hexDigit (n % 16)) = some n := by
  decide

theorem char_eq {c : Char} {n : Nat} (h : c.toNat = n) (d : Char) (hd : d.toNat = n) : c = d :=
  Char.toNat_inj.1 (h.trans hd.symm)

/-- A character is read as the piece that it is written as. -/
theorem pieces_escaped (c : Char) (rest : List Char) :
    pieces (Json.escaped c ++ rest) = (pieceOf c).before (pieces rest) := by
  rw [pieceOf, Json.escaped]
  split
  · rename_i h
    rw [h]
    rfl
  split
  · rename_i h
    rw [h]
    rfl
  split
  · rename_i h
    rw [char_eq h '\x08' rfl]
    rfl
  split
  · rename_i h
    rw [char_eq h '\t' rfl]
    rfl
  split
  · rename_i h
    rw [char_eq h '\n' rfl]
    rfl
  split
  · rename_i h
    rw [char_eq h '\x0c' rfl]
    rfl
  split
  · rename_i h
    rw [char_eq h '\r' rfl]
    rfl
  split
  · rename_i hlow
    show pieces ('\\' :: 'u' :: '0' :: '0' :: _ :: _ :: rest) = (Piece.code c.toNat).before _
    rw [pieces, code?_hexDigit c.toNat hlow]
  · rename_i hquote hslash _ _ _ _ _ hlow
    rw [if_neg (show ¬[c].length = 6 by simp), List.singleton_append, pieces, if_neg hlow]
    · exact hquote
    · exact fun _ _ _ _ _ h _ => hslash h
    · exact fun _ _ h _ => hslash h

/-- The pieces that a text is written as. -/
theorem pieces_quoted (cs rest : List Char) :
    pieces (cs.flatMap Json.escaped ++ ('"' :: rest)) = some (cs.map pieceOf, rest) := by
  induction cs with
  | nil => rw [List.flatMap_nil, List.nil_append, pieces, List.map_nil]
  | cons c cs ih =>
    rw [List.flatMap_cons, List.append_assoc, pieces_escaped, ih]
    rfl

/-- Codes are only written for characters that are no half of a surrogate pair. -/
theorem joined_pieceOf (c : Char) (rest : List Piece) :
    joined (pieceOf c :: rest) = (joined rest).map (c :: ·) := by
  rw [pieceOf]
  split
  · rename_i h
    have hlow : c.toNat < 32 := by
      rw [Json.escaped] at h
      grind
    rw [joined.eq_def]
    dsimp only
    rw [if_neg (by omega), if_neg (by omega), Char.ofNat_toNat]
  · rw [joined]

theorem joined_map_pieceOf (cs : List Char) : joined (cs.map pieceOf) = some cs := by
  induction cs with
  | nil => rfl
  | cons c cs ih =>
    rw [List.map_cons, joined_pieceOf, ih]
    rfl

/-- **A text in quotes is read as the text that it quotes.** -/
theorem lexemes_quoted (s : String) (tail : List Char) :
    lexemes (Json.quoted s ++ tail) = .text (some s) :: lexemes tail := by
  have hnext : next '"' (s.toList.flatMap Json.escaped ++ ('"' :: tail)) =
      (.text (some s), tail) := by
    show textual _ = _
    rw [textual, pieces_quoted]
    dsimp only
    rw [joined_map_pieceOf, Option.map_some, String.ofList_toList]
  rw [Json.quoted, List.cons_append, List.append_assoc, lexemes_cons (by decide), List.cons_append,
    List.nil_append, hnext]

end Lexeme
end Stylus
