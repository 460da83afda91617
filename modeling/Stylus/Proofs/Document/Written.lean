import Stylus.Proofs.Document.Leaf

/-!
# Documents that are read back

What is written is read back as the tree that it is, however deeply it is nested: only a number can
come back as another value, as what its digits are read as (`Node.ofNumber`).  Layout and meaning
are kept apart by the words of a document, its lexemes without any white space:

* `Json.node` — the tree of a document;
* `Json.words` — its words;
* `lexemes_prettyChars`, `lexemes_chars` — the pretty and the compact form say these words;
* `run_words` — these words are scanned as the tree;
* `ofText_pretty`, `ofText_compact` — so both forms are read as the tree.
-/

set_option autoImplicit false

namespace Stylus

open Lexeme

namespace Json

mutual

/-- The node that a document is read as. -/
def node : Json → Node
  | null => .null
  | boolean b => .boolean b
  | integer n => .ofNumber (integerText n)
  | real x => .ofNumber (realText x)
  | text s => .text s
  | list items => .list (nodes items) true
  | table members => .table (memberNodes members) true

/-- The nodes of items. -/
def nodes : List Json → List Node
  | [] => []
  | item :: rest => node item :: nodes rest

/-- The nodes of members. -/
def memberNodes : List (String × Json) → List (Option String × Node)
  | [] => []
  | (name, item) :: rest => (some name, node item) :: memberNodes rest

end

theorem memberNodes_eq_map (members : List (String × Json)) :
    memberNodes members = members.map fun m => (some m.1, m.2.node) := by
  induction members with
  | nil => rw [memberNodes, List.map_nil]
  | cons m rest ih => rw [memberNodes, ih, List.map_cons]

mutual

/-- The words of a document. -/
def words : Json → List Lexeme
  | null => [.leaf .null]
  | boolean b => [.leaf (.boolean b)]
  | integer n => [.leaf (.ofNumber (integerText n))]
  | real x => [.leaf (.ofNumber (realText x))]
  | text s => [.text (some s)]
  | list [] => [.openList, .closeList]
  | list (item :: rest) => .openList :: (words item ++ itemWords rest)
  | table [] => [.openTable, .closeTable]
  | table ((name, item) :: rest) =>
    .openTable :: .text (some name) :: .colon :: (words item ++ memberWords rest)

/-- The words of the items after the first, and the closing bracket. -/
def itemWords : List Json → List Lexeme
  | [] => [.closeList]
  | item :: rest => .comma :: (words item ++ itemWords rest)

/-- The words of the members after the first, and the closing brace. -/
def memberWords : List (String × Json) → List Lexeme
  | [] => [.closeTable]
  | (name, item) :: rest =>
    .comma :: .text (some name) :: .colon :: (words item ++ memberWords rest)

end

/-! ## The pretty form -/

theorem lexemes_newLine (level : Nat) (tail : List Char) :
    lexemes (newLine level ++ tail) = lexemes tail := by
  rw [newLine, List.cons_append, lexemes_space (by decide)]
  generalize 2 * level = n
  induction n with
  | zero => rw [List.replicate_zero, List.nil_append]
  | succ n ih => rw [List.replicate_succ, List.cons_append, lexemes_space (by decide), ih]

theorem delimited_prettyItems (level : Nat) (items : List Json) (tail : List Char) :
    Delimited (prettyItems level items ++ tail) := by
  cases items with
  | nil =>
    rw [prettyItems, newLine]
    exact delimited_cons (by decide) _
  | cons item rest =>
    rw [prettyItems]
    exact delimited_cons (by decide) _

theorem delimited_prettyMembers (level : Nat) (members : List (String × Json)) (tail : List Char) :
    Delimited (prettyMembers level members ++ tail) := by
  cases members with
  | nil =>
    rw [prettyMembers, newLine]
    exact delimited_cons (by decide) _
  | cons m rest =>
    rw [prettyMembers]
    exact delimited_cons (by decide) _

/-- The name of a member, the colon and the blank after it. -/
theorem lexemes_name (level : Nat) (name : String) (tail : List Char) :
    lexemes (newLine level ++ (quoted name ++ (':' :: ' ' :: tail))) =
      .text (some name) :: .colon :: lexemes tail := by
  rw [lexemes_newLine, lexemes_quoted, lexemes_colon, lexemes_space (by decide)]

mutual

/-- **The pretty form of a document says its words.** -/
theorem lexemes_prettyChars (level : Nat) (v : Json) {tail : List Char} (h : Delimited tail) :
    lexemes (prettyChars level v ++ tail) = v.words ++ lexemes tail := by
  match v with
  | null => exact isLeaf_null tail h
  | boolean true => exact isLeaf_true tail h
  | boolean false => exact isLeaf_false tail h
  | integer n => exact isLeaf_integer n tail h
  | real x => exact isLeaf_real x tail h
  | text s => exact lexemes_quoted s tail
  | list [] => simp only [prettyChars, words, List.cons_append, List.nil_append, lexemes_openList,
      lexemes_closeList]
  | list (item :: rest) =>
    simp only [prettyChars, words, List.cons_append, List.append_assoc, lexemes_openList,
      lexemes_newLine]
    rw [lexemes_prettyChars (level + 1) item (delimited_prettyItems level rest tail),
      lexemes_prettyItems level rest tail]
  | table [] => simp only [prettyChars, words, List.cons_append, List.nil_append,
      lexemes_openTable, lexemes_closeTable]
  | table ((name, item) :: rest) =>
    simp only [prettyChars, words, List.cons_append, List.append_assoc, List.nil_append,
      lexemes_openTable, lexemes_name]
    rw [lexemes_prettyChars (level + 1) item (delimited_prettyMembers level rest tail),
      lexemes_prettyMembers level rest tail]

/-- The items after the first, and the closing bracket. -/
theorem lexemes_prettyItems (level : Nat) (items : List Json) (tail : List Char) :
    lexemes (prettyItems level items ++ tail) = itemWords items ++ lexemes tail := by
  match items with
  | [] => simp only [prettyItems, itemWords, List.cons_append, List.append_assoc, List.nil_append,
      lexemes_newLine, lexemes_closeList]
  | item :: rest =>
    simp only [prettyItems, itemWords, List.cons_append, List.append_assoc, lexemes_comma,
      lexemes_newLine]
    rw [lexemes_prettyChars (level + 1) item (delimited_prettyItems level rest tail),
      lexemes_prettyItems level rest tail]

/-- The members after the first, and the closing brace. -/
theorem lexemes_prettyMembers (level : Nat) (members : List (String × Json)) (tail : List Char) :
    lexemes (prettyMembers level members ++ tail) = memberWords members ++ lexemes tail := by
  match members with
  | [] => simp only [prettyMembers, memberWords, List.cons_append, List.append_assoc,
      List.nil_append, lexemes_newLine, lexemes_closeTable]
  | (name, item) :: rest =>
    simp only [prettyMembers, memberWords, List.cons_append, List.append_assoc, List.nil_append,
      lexemes_comma, lexemes_name]
    rw [lexemes_prettyChars (level + 1) item (delimited_prettyMembers level rest tail),
      lexemes_prettyMembers level rest tail]

end

/-! ## The compact form -/

theorem delimited_itemChars (items : List Json) (tail : List Char) :
    Delimited (itemChars items ++ tail) := by
  cases items with
  | nil => exact delimited_cons (by decide) _
  | cons item rest => exact delimited_cons (by decide) _

theorem delimited_memberChars (members : List (String × Json)) (tail : List Char) :
    Delimited (memberChars members ++ tail) := by
  cases members with
  | nil => exact delimited_cons (by decide) _
  | cons m rest => exact delimited_cons (by decide) _

mutual

/-- **The compact form of a document says its words.** -/
theorem lexemes_chars (v : Json) {tail : List Char} (h : Delimited tail) :
    lexemes (chars v ++ tail) = v.words ++ lexemes tail := by
  match v with
  | null => exact isLeaf_null tail h
  | boolean true => exact isLeaf_true tail h
  | boolean false => exact isLeaf_false tail h
  | integer n => exact isLeaf_integer n tail h
  | real x => exact isLeaf_real x tail h
  | text s => exact lexemes_quoted s tail
  | list [] => simp only [chars, words, List.cons_append, List.nil_append, lexemes_openList,
      lexemes_closeList]
  | list (item :: rest) =>
    simp only [chars, words, List.cons_append, List.append_assoc, lexemes_openList]
    rw [lexemes_chars item (delimited_itemChars rest tail), lexemes_itemChars rest tail]
  | table [] => simp only [chars, words, List.cons_append, List.nil_append, lexemes_openTable,
      lexemes_closeTable]
  | table ((name, item) :: rest) =>
    simp only [chars, words, List.cons_append, List.append_assoc, lexemes_openTable,
      lexemes_quoted, lexemes_colon]
    rw [lexemes_chars item (delimited_memberChars rest tail), lexemes_memberChars rest tail]

/-- The items after the first, and the closing bracket. -/
theorem lexemes_itemChars (items : List Json) (tail : List Char) :
    lexemes (itemChars items ++ tail) = itemWords items ++ lexemes tail := by
  match items with
  | [] => simp only [itemChars, itemWords, List.cons_append, List.nil_append, lexemes_closeList]
  | item :: rest =>
    simp only [itemChars, itemWords, List.cons_append, List.append_assoc, lexemes_comma]
    rw [lexemes_chars item (delimited_itemChars rest tail), lexemes_itemChars rest tail]

/-- The members after the first, and the closing brace. -/
theorem lexemes_memberChars (members : List (String × Json)) (tail : List Char) :
    lexemes (memberChars members ++ tail) = memberWords members ++ lexemes tail := by
  match members with
  | [] => simp only [memberChars, memberWords, List.cons_append, List.nil_append,
      lexemes_closeTable]
  | (name, item) :: rest =>
    simp only [memberChars, memberWords, List.cons_append, List.append_assoc, lexemes_comma,
      lexemes_quoted, lexemes_colon]
    rw [lexemes_chars item (delimited_memberChars rest tail), lexemes_memberChars rest tail]

end

end Json

/-! ## The words as a tree -/

namespace Scan

/-- How the walk over the lexemes goes on after a move. -/
def resume : Step → List Lexeme → Document
  | .more frames expect, rest => run frames expect rest
  | .done root, rest => ⟨root, rest.isEmpty⟩
  | .cut root, _ => ⟨root, false⟩

theorem run_cons (frames : List Frame) (expect : Expect) (lexeme : Lexeme) (rest : List Lexeme) :
    run frames expect (lexeme :: rest) = resume (step frames lexeme expect) rest := by
  rw [run]
  cases step frames lexeme expect <;> rfl

/-- A value may come next. -/
def takesValue : Expect → Bool
  | .value | .itemOrEnd => true
  | _ => false

/-- Where a value may come, all that is not the end of a list is a value. -/
theorem step_value {expect : Expect} (h : takesValue expect = true) (frames : List Frame)
    {lexeme : Lexeme} (hne : lexeme ≠ .closeList) :
    step frames lexeme expect = value frames lexeme := by
  cases expect with
  | value => rfl
  | itemOrEnd =>
    rw [step]
    exact hne
  | nameOrEnd | name | colon | separator => cases h

mutual

/-- **The words of a document are scanned as its tree**, inside whatever is open around it. -/
theorem run_words (v : Json) (frames : List Frame) {expect : Expect}
    (h : takesValue expect = true) (rest : List Lexeme) :
    run frames expect (v.words ++ rest) = resume (deliver v.node frames) rest := by
  match v with
  | .null | .boolean _ | .integer _ | .real _ | .text _ =>
    rw [Json.words, Json.node, List.cons_append, run_cons, step_value h frames (by simp)]
    rfl
  | .list [] =>
    rw [Json.words, List.cons_append, run_cons, step_value h frames (by simp)]
    show run (.list [] :: frames) .itemOrEnd (.closeList :: rest) = _
    rw [run_cons, Json.node, Json.nodes]
    rfl
  | .list (item :: items) =>
    rw [Json.words, List.cons_append, run_cons, step_value h frames (by simp)]
    show run (.list [] :: frames) .itemOrEnd _ = _
    rw [List.append_assoc, run_words item (.list [] :: frames) rfl]
    show run (.list [item.node] :: frames) .separator _ = _
    rw [run_itemWords items [item.node] frames rest, Json.node, Json.nodes]
    rfl
  | .table [] =>
    rw [Json.words, List.cons_append, run_cons, step_value h frames (by simp)]
    show run (.table [] :: frames) .nameOrEnd (.closeTable :: rest) = _
    rw [run_cons, Json.node, Json.memberNodes]
    rfl
  | .table ((name, item) :: members) =>
    rw [Json.words, List.cons_append, run_cons, step_value h frames (by simp)]
    show run (.member [] (some name) :: frames) .value
      ((item.words ++ Json.memberWords members) ++ rest) = _
    rw [List.append_assoc, run_words item (.member [] (some name) :: frames) rfl]
    show run (.table [(some name, item.node)] :: frames) .separator _ = _
    rw [run_memberWords members [(some name, item.node)] frames rest, Json.node, Json.memberNodes]
    rfl

/-- The items after the first complete the list. -/
theorem run_itemWords (items : List Json) (before : List Node) (frames : List Frame)
    (rest : List Lexeme) :
    run (.list before :: frames) .separator (Json.itemWords items ++ rest) =
      resume (deliver (.list (before.reverse ++ Json.nodes items) true) frames) rest := by
  match items with
  | [] =>
    rw [Json.itemWords, Json.nodes, List.append_nil, List.cons_append, run_cons]
    rfl
  | item :: items =>
    rw [Json.itemWords, List.cons_append, run_cons]
    show run (.list before :: frames) .value _ = _
    rw [List.append_assoc, run_words item (.list before :: frames) rfl]
    show run (.list (item.node :: before) :: frames) .separator _ = _
    rw [run_itemWords items (item.node :: before) frames rest, Json.nodes, List.reverse_cons,
      List.append_assoc, List.singleton_append]

/-- The members after the first complete the table. -/
theorem run_memberWords (members : List (String × Json)) (before : List (Option String × Node))
    (frames : List Frame) (rest : List Lexeme) :
    run (.table before :: frames) .separator (Json.memberWords members ++ rest) =
      resume (deliver (.table (before.reverse ++ Json.memberNodes members) true) frames) rest := by
  match members with
  | [] =>
    rw [Json.memberWords, Json.memberNodes, List.append_nil, List.cons_append, run_cons]
    rfl
  | (name, item) :: members =>
    rw [Json.memberWords, List.cons_append, run_cons]
    show run (.member before (some name) :: frames) .value
      ((item.words ++ Json.memberWords members) ++ rest) = _
    rw [List.append_assoc, run_words item (.member before (some name) :: frames) rfl]
    show run (.table ((some name, item.node) :: before) :: frames) .separator _ = _
    rw [run_memberWords members ((some name, item.node) :: before) frames rest, Json.memberNodes,
      List.reverse_cons, List.append_assoc, List.singleton_append]

end

end Scan

/-- **A document in its pretty form is read as its tree**, the line being ended or not. -/
theorem Json.ofText_pretty (v : Json) : Document.ofText (v.pretty ++ "\n") = ⟨v.node, true⟩ := by
  have htext : (v.pretty ++ "\n").toList = prettyChars 0 v ++ ['\n'] := by
    rw [String.toList_append, pretty, String.toList_ofList]
    rfl
  have hend : lexemes ['\n'] = [] := by
    rw [lexemes_space (by decide), lexemes]
  rw [Document.ofText, htext, lexemes_prettyChars 0 v (delimited_cons (by decide) []), hend,
    Scan.run_words v [] rfl]
  rfl

/-- **A document in its compact form is read as its tree.** -/
theorem Json.ofText_compact (v : Json) : Document.ofText v.compact = ⟨v.node, true⟩ := by
  have hwords := lexemes_chars v delimited_nil
  rw [List.append_nil, lexemes] at hwords
  rw [Document.ofText, compact, String.toList_ofList, hwords, Scan.run_words v [] rfl]
  rfl

end Stylus
