import Stylus.Proofs.Document.Lines
import Stylus.Proofs.Server.Transcript

/-!
# Conversations

A client expects a line back for each of its lines that is not blank, in the order of its lines.  Is
that what it gets, whatever the lines say and whatever else goes on on the server meanwhile?

* `Server.comes_to_rest` — a session that goes on comes to rest;
* `Server.rejected_of_move?` — a line that is no request is rejected, and nothing else happens;
* `Server.Conversation`, `Server.answered_in_turn` — **every line is answered once, and in order**.
-/

set_option autoImplicit false

namespace Stylus

open Client (Heard heard heardText Answers rejection linesOf)

namespace Server

variable {s s' : Server} {n : Nat}

/-! ## A session comes to rest -/

/-- What a session has before it. -/
def workLeft (c : Client) : Nat :=
  2 * c.inbox.length + c.awaited.isSome.toNat + c.ended.isNone.toNat

/-- A session that goes on has less before it. -/
theorem Moves.workLeft_lt (h : Moves s n s') (hopen : (s.client n).ended = none) :
    workLeft (s'.client n) < workLeft (s.client n) := by
  have taken {text : String} {rest : List UInt8} (next : (s.client n).next = .line text rest) :
      rest.length < (s.client n).inbox.length := by
    obtain ⟨line, hbegins, -⟩ := Client.of_next_line next
    have hpos := List.length_pos_iff.2 hbegins.ne_nil
    rw [hbegins.inbox_eq, List.length_append]
    omega
  cases h with
  | ends idle ending next =>
    rw [client_setClient, if_pos rfl, workLeft, workLeft, hopen]
    simp only [List.length_nil, Option.isNone_none, Option.isNone_some, Bool.toNat_true,
      Bool.toNat_false]
    omega
  | passes idle next blank =>
    have hless := taken next
    rw [client_setClient, if_pos rfl, workLeft, workLeft]
    simp only
    omega
  | rejects idle next nonsense =>
    have hless := taken next
    rw [client_setClient, if_pos rfl, workLeft, workLeft]
    simp only [Client.reply]
    omega
  | answers idle next asks bench disk result =>
    have hless := taken next
    rw [client_setClient, if_pos rfl, workLeft, workLeft]
    simp only [Client.answer, Client.reply, Option.isSome_none, Bool.toNat_false]
    omega
  | waits idle next asks bench disk pending =>
    have hless := taken next
    rw [client_setClient, if_pos rfl, workLeft, workLeft]
    simp only [Option.isSome_some, Bool.toNat_true]
    omega
  | finishes awaited waiting bench result =>
    rw [client_setClient, if_pos rfl, workLeft, workLeft, waiting]
    simp only [Client.answer, Client.reply, Option.isSome_none, Option.isSome_some,
      Bool.toNat_false, Bool.toNat_true]
    omega

/-- **A session that goes on comes to rest.** -/
theorem comes_to_rest (s : Server) (n : Nat) :
    ∃ moves : Nat, (s.steps (List.replicate moves (.move n))).move? n = none := by
  induction hwork : workLeft (s.client n) using Nat.strongRecOn generalizing s with
  | ind work ih =>
    cases hmove : s.move? n with
    | none => exact ⟨0, hmove⟩
    | some s' =>
      obtain ⟨hopen, hmoves⟩ := moves_of_move? hmove
      obtain ⟨moves, hrest⟩ := ih _ (hwork ▸ hmoves.workLeft_lt hopen) s' rfl
      refine ⟨moves + 1, ?_⟩
      have hstep : s.step (.move n) = s' := by rw [step, hmove, Option.getD_some]
      rwa [List.replicate_succ, steps, List.foldl_cons, hstep]

/-! ## Conversations -/

/-- **A line that is no request is rejected, and nothing else happens.** -/
theorem rejected_of_move? (h : s.move? n = some s') {line : List UInt8} {rest : List Note}
    {f : Fault} (hnotes : (s.client n).notes (s'.client n) = .took line :: rest)
    (nonsense : heard line = .nonsense f) :
    rest = [.wrote (rejection f).text] ∧ s'.bench = s.bench ∧ s'.store = s.store ∧
      s'.disk = s.disk ∧ ∀ m, m ≠ n → s'.client m = s.client m := by
  obtain ⟨hopen, hmoves⟩ := moves_of_move? h
  have hothers := (goes_of_move? h).others
  -- what was taken up is what the session found next
  have of_line {text : String} {left : List UInt8} (next : (s.client n).next = .line text left)
      (texts : List String) (hinbox : (s'.client n).inbox = left)
      (hreplies : (s'.client n).replies = texts.reverse ++ (s.client n).replies)
      (hended : (s'.client n).ended = none) :
      heardText text = .nonsense f ∧ rest = texts.map .wrote := by
    obtain ⟨first, hfirst, hseen, -⟩ := Client.notes_of_line next texts hinbox hreplies hended
    cases hseen.symm.trans hnotes
    exact ⟨hfirst.symm.trans nonsense, rfl⟩
  cases hmoves with
  | ends idle ending next =>
    have hseen : (s.client n).notes { s.client n with inbox := [], ended := some ending } = [] :=
      Client.notes_of_ended rfl rfl
    rw [client_setClient, if_pos rfl, hseen] at hnotes
    cases hnotes
  | passes idle next blank =>
    rw [client_setClient, if_pos rfl] at of_line
    cases blank.symm.trans (of_line next [] rfl rfl hopen).1
  | @rejects idle text left next g hg =>
    rw [client_setClient, if_pos rfl] at of_line
    obtain ⟨hsame, hrest⟩ := of_line next [_] rfl rfl hopen
    cases hg.symm.trans hsame
    exact ⟨hrest, rfl, rfl, rfl, hothers⟩
  | answers idle next asks bench disk result =>
    rw [client_setClient, if_pos rfl] at of_line
    cases asks.symm.trans (of_line next [_] rfl rfl hopen).1
  | waits idle next asks bench disk pending =>
    rw [client_setClient, if_pos rfl] at of_line
    cases asks.symm.trans (of_line next [] rfl rfl hopen).1
  | finishes awaited waiting bench result =>
    rw [client_setClient, if_pos rfl, Client.notes_answer hopen] at hnotes
    cases hnotes

/-- **A conversation**: all that a client has sent, what is seen of its session, and how things
stand. -/
structure Conversation (n : Nat) (s : Server) (sent : List UInt8) (notes : List Note) : Prop where
  /-- no line is taken up before those before it are answered -/
  inTurn : ∃ under, InTurn notes under ∧ Waits under (s.client n).awaited
  /-- the replies are those to the lines that want one, one for each and in order; the last line may
  still wait for its reply -/
  answered : ∃ answered waiting, asking notes = answered ++ waiting ∧
    waiting.length = (s.client n).awaited.isSome.toNat ∧
    List.Forall₂ IsReply answered (s.client n).replies.reverse
  /-- the only newline of a reply is the last character of its line -/
  oneLine : ∀ text ∈ (s.client n).replies, ∃ r : Response, text = r.text ∧
    r.line.toList.getLast? = some '\n' ∧ '\n' ∉ r.line.toList.dropLast
  /-- while the session is open, the lines that were sent are those that were taken up and those in
  the inbox -/
  opened : (s.client n).ended = none →
    linesOf sent = notes.filterMap Note.line? ++ linesOf (s.client n).inbox
  /-- a session is closed when all lines were taken up and answered -/
  closed : (s.client n).ended = some .closed →
    linesOf sent = notes.filterMap Note.line? ∧ (s.client n).awaited = none
  /-- a session breaks off at the first line that is no text, when all lines before it were
  answered -/
  broken : ∀ f, (s.client n).ended = some (.faulty f) → (s.client n).awaited = none ∧
    ∃ line others, heard line = .garbled f ∧
      linesOf sent = notes.filterMap Note.line? ++ line :: others
  /-- a line that is no request is rejected when it is taken up, and changes nothing -/
  rejected : ∀ s', s.move? n = some s' → ∀ line rest f,
    (s.client n).notes (s'.client n) = .took line :: rest → heard line = .nonsense f →
      rest = [.wrote (rejection f).text] ∧ s'.bench = s.bench ∧ s'.store = s.store ∧
        s'.disk = s.disk ∧ ∀ m, m ≠ n → s'.client m = s.client m
  /-- a session that does not go on has ended, or the turn of its request is still in the line, or
  the client has sent no further line -/
  rests : s.move? n = none → (s.client n).ended.isSome = true ∨
    ((s.client n).awaited.isSome = true ∧ ∃ turn, s.bench.turnsOf n = [turn]) ∨
    ((s.client n).awaited = none ∧ (s.client n).hungUp = false ∧
      Client.cutLine (s.client n).inbox = none)
  /-- and it comes to that when it goes on -/
  settles : ∃ moves : Nat, (s.steps (List.replicate moves (.move n))).move? n = none

/-- The line of a response ends with its only newline. -/
theorem line_ends (r : Response) :
    r.line.toList.getLast? = some '\n' ∧ '\n' ∉ r.line.toList.dropLast := by
  have hline : r.line.toList = r.text.toList ++ ['\n'] := by
    rw [Response.line, String.toList_append]
    rfl
  rw [hline, List.getLast?_concat, List.dropLast_concat]
  exact ⟨rfl, r.newline_not_mem⟩

/-- A client that waits and whose turn is not reported has its turn in the line. -/
theorem Orderly.turn_of_unreported (h : s.Orderly) (waits : (s.client n).awaited.isSome = true)
    (unreported : turnOf? n s.bench.reports = none) : ∃ turn, s.bench.turnsOf n = [turn] := by
  have hcount := h.counted n
  rw [waits, Bench.reportsOf_of_turnOf?_eq_none unreported, List.length_nil,
    Nat.add_zero] at hcount
  exact List.length_eq_one_iff.1 hcount

/-- **Every line is answered once, and in order.**  A client sends bytes, in pieces of any size, and
hangs up or does not, and anything else may happen on the server meanwhile. -/
theorem answered_in_turn {s : Server} {n : Nat} (horderly : s.Orderly) (hnew : s.client n = {})
    {events : List Event} (genuine : ∀ e ∈ events, e.isGenuine = true)
    (hallows : events.Pairwise (Event.Allows n)) :
    Conversation n (s.steps events) (sentBy n events) (s.transcript n events) := by
  have htalk := talk_of_new hnew hallows
  have horderly' := horderly.steps genuine
  refine ⟨htalk.inTurn, htalk.answered, ?_, ?_, ?_, ?_, ?_, ?_, comes_to_rest _ n⟩
  · intro text htext
    obtain ⟨answered, -, -, -, hpaired⟩ := htalk.answered
    obtain ⟨r, rfl⟩ := response_of_mem hpaired (List.mem_reverse.2 htext)
    exact ⟨r, rfl, line_ends r⟩
  · intro hopen
    have hlines := htalk.opened hopen [] fun _ => rfl
    rwa [List.append_nil, List.append_nil] at hlines
  · intro hclosed
    exact ⟨(htalk.closed hclosed).2, htalk.idle (by rw [hclosed]; rfl)⟩
  · intro f hbroken
    obtain ⟨line, hgarbled, hlines⟩ := htalk.broken f hbroken
    obtain ⟨others, hothers⟩ := hlines [] fun _ => rfl
    rw [List.append_nil] at hothers
    exact ⟨htalk.idle (by rw [hbroken]; rfl), line, others, hgarbled, hothers⟩
  · intro s' hmove line rest f hnotes nonsense
    exact rejected_of_move? hmove hnotes nonsense
  · intro hrest
    rcases move?_eq_none hrest with hended | ⟨hwaits, hunreported⟩ | ⟨hidle, hnothing⟩
    · exact .inl hended
    · exact .inr (.inl ⟨hwaits, horderly'.turn_of_unreported hwaits hunreported⟩)
    · exact .inr (.inr ⟨hidle, Client.of_next_nothing hnothing⟩)

/-- A client that sends a blank line, a request and a line that is none, in two pieces and without a
newline at the end. -/
def threeLines : List Event :=
  let bytes := Text.Utf8.encode
    ("  \n" ++ (Json.table [("cmd", .text "get_position")]).compact ++ "\nnonsense")
  [.receive 0 (bytes.take 10), .move 0, .receive 0 (bytes.drop 10), .move 0, .hangUp 0, .move 0,
    .move 0]

/-- Two lines are answered, and then the session is closed. -/
theorem answered_in_turn_threeLines :
    let s : Server := { bench := .fresh {} }
    s.Orderly ∧ s.client 0 = {} ∧ (∀ e ∈ threeLines, e.isGenuine = true) ∧
      threeLines.Pairwise (Event.Allows 0) ∧
      ((s.steps threeLines).client 0).ended = some .closed ∧
      ((s.steps threeLines).client 0).replies.length = 2 ∧
      Conversation 0 (s.steps threeLines) (sentBy 0 threeLines) (s.transcript 0 threeLines) := by
  intro s
  have horderly : s.Orderly := .of_fresh {} _ _
  have hgenuine : ∀ e ∈ threeLines, e.isGenuine = true := by
    simp [threeLines, Event.isGenuine]
  have hallows : threeLines.Pairwise (Event.Allows 0) := by
    simp [threeLines, Event.Allows]
  exact ⟨horderly, rfl, hgenuine, hallows, by decide +kernel, by decide +kernel,
    answered_in_turn horderly rfl hgenuine hallows⟩

end Server

end Stylus
