import Mathlib.Data.List.Forall2
import Stylus.Proofs.Server.Incoming
import Stylus.Proofs.Server.Sessions

/-!
# Transcripts of sessions

What the server does about a client is read off its session before and after each event: bytes that
are gone from the inbox are a line that was taken up, and replies that are new were written.  So a
run has a transcript, and in each transcript lines and replies are in turn.

* `Server.transcript` — the lines that were taken up, and the replies that were written;
* `InTurn` — a line is taken up only when all lines before it are answered;
* `Server.Moves` — all that a session that goes on can do;
* `Talk` — what holds of a session all along, and `Server.talk_steps`: **whatever happens**.
-/

set_option autoImplicit false

namespace Stylus

open Client (Heard heard heardText Answers rejection linesOf)

/-! ## Transcripts -/

/-- What is seen of a session. -/
inductive Note where
  /-- a line is taken up -/
  | took (line : List UInt8)
  /-- a reply is written -/
  | wrote (text : String)

namespace Note

/-- The line that was taken up. -/
def line? : Note → Option (List UInt8)
  | took line => some line
  | wrote _ => none

/-- The reply that was written. -/
def text? : Note → Option String
  | took _ => none
  | wrote text => some text

end Note

/-- What has happened in a session: bytes that are gone from the inbox were taken up, unless the
session ended, and new replies were written. -/
def Client.notes (before after : Client) : List Note :=
  let gone := before.inbox.take (before.inbox.length - after.inbox.length)
  let new := after.replies.take (after.replies.length - before.replies.length)
  (if gone.isEmpty || after.ended.isSome then [] else [.took gone]) ++ new.reverse.map .wrote

theorem Client.notes_eq {before after : Client} {line : List UInt8} {texts : List String}
    (hline : before.inbox = line ++ after.inbox)
    (htexts : after.replies = texts.reverse ++ before.replies) (hopen : after.ended = none) :
    before.notes after = (if line.isEmpty then [] else [.took line]) ++ texts.map .wrote := by
  have hgone : before.inbox.take (before.inbox.length - after.inbox.length) = line := by
    rw [hline, List.length_append, Nat.add_sub_cancel, List.take_left]
  have hnew :
      after.replies.take (after.replies.length - before.replies.length) = texts.reverse := by
    rw [htexts, List.length_append, Nat.add_sub_cancel, List.take_left]
  rw [notes, hgone, hnew, hopen, List.reverse_reverse]
  simp

/-- What is seen when the next line is taken up and these replies are written. -/
theorem Client.notes_of_line {c c' : Client} {text : String} {rest : List UInt8}
    (next : c.next = .line text rest) (texts : List String) (hinbox : c'.inbox = rest)
    (hreplies : c'.replies = texts.reverse ++ c.replies) (hended : c'.ended = none) :
    ∃ line, heard line = heardText text ∧ c.notes c' = .took line :: texts.map .wrote ∧
      ∀ more, (c.hungUp = true → more = []) →
        linesOf (c.inbox ++ more) = line :: linesOf (rest ++ more) := by
  obtain ⟨line, hbegins, hheard⟩ := of_next_line next
  refine ⟨line, hheard, ?_, hbegins.first⟩
  have hsome : ¬ line.isEmpty = true := by simpa using hbegins.ne_nil
  rw [notes_eq (hinbox ▸ hbegins.inbox_eq) hreplies hended, if_neg hsome]
  rfl

/-- What is seen when the request that waited is answered. -/
theorem Client.notes_answer {c : Client} (hopen : c.ended = none) (id : Option String)
    (result : Except Failure (Option Json)) :
    c.notes (c.answer id result) = [.wrote ((Response.ofResult result).withId id).text] := by
  have hreplies : (c.answer id result).replies =
      [((Response.ofResult result).withId id).text].reverse ++ c.replies := rfl
  have hinbox : c.inbox = [] ++ (c.answer id result).inbox := rfl
  exact notes_eq hinbox hreplies hopen

theorem Client.notes_of_less {before after : Client}
    (hinbox : before.inbox.length ≤ after.inbox.length)
    (hreplies : after.replies = before.replies) :
    before.notes after = [] := by
  simp [notes, hreplies, Nat.sub_eq_zero_of_le hinbox]

theorem Client.notes_of_ended {before after : Client} (hended : after.ended.isSome = true)
    (hreplies : after.replies = before.replies) : before.notes after = [] := by
  simp [notes, hreplies, hended]

namespace Server

/-- What an event shows of the session of a client. -/
def notes (n : Nat) (s : Server) (e : Event) : List Note :=
  (s.client n).notes ((s.step e).client n)

/-- What is seen of the session of a client along events. -/
def transcript (n : Nat) (s : Server) : List Event → List Note
  | [] => []
  | e :: rest => s.notes n e ++ (s.step e).transcript n rest

/-- The bytes that an event brings from a client. -/
def Event.bytesFrom (n : Nat) : Event → List UInt8
  | .receive m bytes => if m = n then bytes else []
  | _ => []

/-- All bytes that a client sends. -/
def sentBy (n : Nat) (events : List Event) : List UInt8 :=
  events.flatMap (Event.bytesFrom n)

/-- Nothing arrives from a client after it has hung up. -/
def Event.Allows (n : Nat) (e later : Event) : Prop :=
  e = .hangUp n → ∀ bytes, later ≠ .receive n bytes

end Server

/-! ## In turn -/

/-- **One line at a time**: a transcript in which no line is taken up before all those before it are
answered.  At the end of it there may be a line that still waits for its answer. -/
inductive InTurn : List Note → Option (List UInt8) → Prop where
  | start : InTurn [] none
  /-- a blank line is passed over -/
  | passed {notes : List Note} {line : List UInt8} (before : InTurn notes none)
      (blank : heard line = .nothing) : InTurn (notes ++ [.took line]) none
  /-- a line is answered at once -/
  | answered {notes : List Note} {line : List UInt8} {r : Response} (before : InTurn notes none)
      (answers : Answers (heard line) r) : InTurn (notes ++ [.took line, .wrote r.text]) none
  /-- a request waits -/
  | waits {notes : List Note} {line : List UInt8} {e : Envelope} (before : InTurn notes none)
      (asks : heard line = .asks e) : InTurn (notes ++ [.took line]) (some line)
  /-- a request that waited is answered -/
  | finished {notes : List Note} {line : List UInt8} {r : Response}
      (before : InTurn notes (some line)) (answers : Answers (heard line) r) :
      InTurn (notes ++ [.wrote r.text]) none

/-- The lines of a transcript that want a reply. -/
def asking (notes : List Note) : List (List UInt8) :=
  (notes.filterMap Note.line?).filter fun line => (heard line).wantsReply

/-- A reply is one to that line. -/
def IsReply (line : List UInt8) (text : String) : Prop :=
  ∃ r : Response, Answers (heard line) r ∧ text = r.text

theorem response_of_mem {lines : List (List UInt8)} {texts : List String}
    (h : List.Forall₂ IsReply lines texts) {text : String} (hmem : text ∈ texts) :
    ∃ r : Response, text = r.text := by
  induction h with
  | nil => cases hmem
  | cons hreply _ ih =>
    rcases List.mem_cons.1 hmem with rfl | hmem
    · obtain ⟨r, -, htext⟩ := hreply
      exact ⟨r, htext⟩
    · exact ih hmem

theorem Client.Answers.wantsReply {said : Heard} {r : Response} (h : Answers said r) :
    said.wantsReply = true := by
  cases h <;> rfl

/-- **One reply for each line that wants one, in order**, but for the line that still waits. -/
theorem InTurn.paired {notes : List Note} {under : Option (List UInt8)} (h : InTurn notes under) :
    ∃ answered, asking notes = answered ++ under.toList ∧
      List.Forall₂ IsReply answered (notes.filterMap Note.text?) := by
  induction h with
  | start => exact ⟨[], rfl, .nil⟩
  | @passed notes line before blank ih =>
    obtain ⟨answered, hasking, hpaired⟩ := ih
    refine ⟨answered, ?_, ?_⟩
    · rw [← hasking, asking, asking, List.filterMap_append, List.filter_append]
      simp [Note.line?, blank, Heard.wantsReply]
    · rwa [List.filterMap_append, List.filterMap_cons_none rfl, List.filterMap_nil, List.append_nil]
  | @answered notes line r before answers ih =>
    obtain ⟨answered, hasking, hpaired⟩ := ih
    refine ⟨answered ++ [line], ?_, ?_⟩
    · rw [Option.toList_none, List.append_nil] at hasking ⊢
      rw [← hasking, asking, asking, List.filterMap_append, List.filter_append]
      simp [Note.line?, answers.wantsReply]
    · rw [List.filterMap_append]
      exact List.rel_append hpaired (.cons ⟨r, answers, rfl⟩ .nil)
  | @waits notes line e before asks ih =>
    obtain ⟨answered, hasking, hpaired⟩ := ih
    refine ⟨answered, ?_, ?_⟩
    · rw [Option.toList_none, List.append_nil] at hasking
      rw [← hasking, asking, asking, List.filterMap_append, List.filter_append]
      simp [Note.line?, asks, Heard.wantsReply]
    · rwa [List.filterMap_append, List.filterMap_cons_none rfl, List.filterMap_nil, List.append_nil]
  | @finished notes line r before answers ih =>
    obtain ⟨answered, hasking, hpaired⟩ := ih
    refine ⟨answered ++ [line], ?_, ?_⟩
    · have hsame : asking (notes ++ [.wrote r.text]) = asking notes := by
        rw [asking, asking, List.filterMap_append, List.filter_append]
        simp [Note.line?]
      rw [hsame, hasking]
      exact (List.append_nil _).symm
    · rw [List.filterMap_append]
      exact List.rel_append hpaired (.cons ⟨r, answers, rfl⟩ .nil)

namespace Server

variable {s s' : Server} {n : Nat}

/-! ## What a session can do -/

/-- **All that a session that goes on can do.** -/
inductive Moves (s : Server) (n : Nat) : Server → Prop where
  /-- the session ends -/
  | ends (idle : (s.client n).awaited = none) (ending : ClientEnd)
      (next : (s.client n).next = .over ending) :
      Moves s n (s.setClient n { s.client n with inbox := [], ended := some ending })
  /-- a blank line is passed over -/
  | passes (idle : (s.client n).awaited = none) {text : String} {rest : List UInt8}
      (next : (s.client n).next = .line text rest) (blank : heardText text = .nothing) :
      Moves s n (s.setClient n { s.client n with inbox := rest })
  /-- a line that is no request is rejected -/
  | rejects (idle : (s.client n).awaited = none) {text : String} {rest : List UInt8}
      (next : (s.client n).next = .line text rest) {f : Fault}
      (nonsense : heardText text = .nonsense f) :
      Moves s n (s.setClient n ({ s.client n with inbox := rest }.reply (rejection f)))
  /-- a request is answered at once -/
  | answers (idle : (s.client n).awaited = none) {text : String} {rest : List UInt8}
      (next : (s.client n).next = .line text rest) {e : Envelope} (asks : heardText text = .asks e)
      (bench : Bench) (disk : Disk) (result : Except Failure (Option Json)) :
      Moves s n (setClient { s with bench, disk } n
        ({ s.client n with inbox := rest }.answer e.id result))
  /-- a request waits for the controller -/
  | waits (idle : (s.client n).awaited = none) {text : String} {rest : List UInt8}
      (next : (s.client n).next = .line text rest) {e : Envelope} (asks : heardText text = .asks e)
      (bench : Bench) (disk : Disk) (pending : Pending) :
      Moves s n (setClient { s with bench, disk } n
        { s.client n with inbox := rest, awaited := some ⟨e.id, pending⟩ })
  /-- a request that waited is answered -/
  | finishes (awaited : Awaited) (waiting : (s.client n).awaited = some awaited) (bench : Bench)
      (result : Except Failure (Option Json)) :
      Moves s n (setClient { s with bench } n ((s.client n).answer awaited.id result))

theorem moves_of_handle (idle : (s.client n).awaited = none) {text : String} {rest : List UInt8}
    (next : (s.client n).next = .line text rest) {e : Envelope} (asks : heardText text = .asks e) :
    Moves s n (s.handle n { s.client n with inbox := rest } e) := by
  rw [handle]
  split
  · exact .answers idle next asks _ _ _
  · exact .answers idle next asks _ _ _
  · split
    · exact .answers idle next asks _ _ _
    · exact .waits idle next asks _ _ _
  · exact .waits idle next asks _ _ _

theorem moves_of_handleLine (idle : (s.client n).awaited = none) {text : String}
    {rest : List UInt8} (next : (s.client n).next = .line text rest) :
    Moves s n (s.handleLine n { s.client n with inbox := rest } text) := by
  rw [handleLine]
  by_cases hblank : (Text.trim text).isEmpty
  · rw [if_pos hblank]
    exact .passes idle next (by rw [heardText, if_pos hblank])
  · rw [if_neg hblank]
    split
    · rename_i e hline
      exact moves_of_handle idle next (by rw [heardText, if_neg hblank, hline])
    · rename_i f hline
      exact .rejects idle next (by rw [heardText, if_neg hblank, hline])

/-- **A session that goes on** is open, and does one of these things. -/
theorem moves_of_move? (h : s.move? n = some s') : (s.client n).ended = none ∧ Moves s n s' := by
  rw [move?] at h
  dsimp only at h
  split at h
  · cases h
  · rename_i hopen
    refine ⟨by simpa using hopen, ?_⟩
    split at h
    · rename_i awaited waiting
      split at h
      · cases h
      · cases h
        exact .finishes awaited waiting _ _
    · rename_i idle
      split at h
      · cases h
      · rename_i ending next
        cases h
        exact .ends idle ending next
      · rename_i text rest next
        cases h
        exact moves_of_handleLine idle next

/-- A session that does not go on has ended, or its request is not answered yet, or no line is
there. -/
theorem move?_eq_none (h : s.move? n = none) :
    (s.client n).ended.isSome = true ∨
      ((s.client n).awaited.isSome = true ∧ turnOf? n s.bench.reports = none) ∨
      ((s.client n).awaited = none ∧ (s.client n).next = .nothing) := by
  rw [move?] at h
  dsimp only at h
  split at h
  · exact .inl ‹_›
  · split at h
    · rename_i awaited waiting
      split at h
      · rename_i hnone
        exact .inr (.inl ⟨by rw [waiting]; rfl, hnone⟩)
      · cases h
    · rename_i idle
      split at h
      · rename_i hnothing
        exact .inr (.inr ⟨idle, hnothing⟩)
      · cases h
      · cases h

end Server

/-! ## What holds all along -/

/-- The line that waits for its answer is the one of the request under way. -/
inductive Waits : Option (List UInt8) → Option Awaited → Prop where
  | nobody : Waits none none
  | request {line : List UInt8} {e : Envelope} (asks : heard line = .asks e) (pending : Pending) :
      Waits (some line) (some ⟨e.id, pending⟩)

theorem Waits.length {under : Option (List UInt8)} {awaited : Option Awaited}
    (h : Waits under awaited) : under.toList.length = awaited.isSome.toNat := by
  cases h <;> rfl

/-- **What holds of a session all along**: what was sent, what was taken up and what is left fit
together, and replies are in turn. -/
structure Talk (c : Client) (sent : List UInt8) (notes : List Note) : Prop where
  inTurn : ∃ under, InTurn notes under ∧ Waits under c.awaited
  written : c.replies.reverse = notes.filterMap Note.text?
  idle : c.ended.isSome = true → c.awaited = none
  /-- while the session is open, the lines are those that were taken up and those in the inbox,
  whatever will follow -/
  opened : c.ended = none → ∀ more, (c.hungUp = true → more = []) →
    linesOf (sent ++ more) = notes.filterMap Note.line? ++ linesOf (c.inbox ++ more)
  /-- it is closed when all lines were taken up -/
  closed : c.ended = some .closed → c.hungUp = true ∧ linesOf sent = notes.filterMap Note.line?
  /-- and it breaks off at the first line that is no text -/
  broken : ∀ f, c.ended = some (.faulty f) → ∃ line, heard line = .garbled f ∧
    ∀ more, (c.hungUp = true → more = []) → ∃ others,
      linesOf (sent ++ more) = notes.filterMap Note.line? ++ line :: others

namespace Talk

variable {c c' : Client} {sent : List UInt8} {notes : List Note}

theorem start : Talk {} [] [] where
  inTurn := ⟨none, .start, .nobody⟩
  written := rfl
  idle := nofun
  opened := fun _ _ _ => rfl
  closed := nofun
  broken := nofun

/-- Nothing is under way in a session that does not wait. -/
theorem none_of_idle (h : Talk c sent notes) (idle : c.awaited = none) : InTurn notes none := by
  obtain ⟨under, hturn, hwaits⟩ := h.inTurn
  rw [idle] at hwaits
  cases hwaits
  exact hturn

/-- The replies are those to the lines that want one; the last of these lines may still wait. -/
theorem answered (h : Talk c sent notes) :
    ∃ answered waiting, asking notes = answered ++ waiting ∧
      waiting.length = c.awaited.isSome.toNat ∧
      List.Forall₂ IsReply answered c.replies.reverse := by
  obtain ⟨under, hturn, hwaits⟩ := h.inTurn
  obtain ⟨answered, hasking, hpaired⟩ := hturn.paired
  exact ⟨answered, under.toList, hasking, hwaits.length, h.written ▸ hpaired⟩

/-- More arrives. -/
theorem receive (h : Talk c sent notes) (hopen : c.hungUp = false) (bytes : List UInt8) :
    Talk (c.receive bytes) (sent ++ bytes) notes := by
  have hmore (more : List UInt8) : c.hungUp = true → bytes ++ more = [] := by
    intro hhung
    rw [hhung] at hopen
    cases hopen
  cases hended : c.ended with
  | none =>
    have hreceive : c.receive bytes = { c with inbox := c.inbox ++ bytes } := by
      rw [Client.receive, hended]
      rfl
    rw [hreceive]
    refine ⟨h.inTurn, h.written, h.idle, fun _ more _ => ?_, ?_, ?_⟩
    · have hlines := h.opened hended (bytes ++ more) (hmore more)
      rwa [← List.append_assoc, ← List.append_assoc] at hlines
    · intro hclosed
      cases hended.symm.trans hclosed
    · intro f hbroken
      cases hended.symm.trans hbroken
  | some ending =>
    have hreceive : c.receive bytes = c := by
      rw [Client.receive, hended]
      rfl
    rw [hreceive]
    refine ⟨h.inTurn, h.written, h.idle, ?_, ?_, ?_⟩
    · intro hopened
      cases hended.symm.trans hopened
    · intro hclosed
      cases hopen.symm.trans (h.closed hclosed).1
    · intro f hbroken
      obtain ⟨line, hgarbled, hlines⟩ := h.broken f hbroken
      refine ⟨line, hgarbled, fun more _ => ?_⟩
      rw [List.append_assoc]
      exact hlines (bytes ++ more) (hmore more)

/-- Nothing more arrives. -/
theorem hangUp (h : Talk c sent notes) : Talk { c with hungUp := true } sent notes := by
  refine ⟨h.inTurn, h.written, h.idle, ?_, ?_, ?_⟩
  · intro hopened more hmore
    exact h.opened hopened more fun _ => hmore rfl
  · intro hclosed
    exact ⟨rfl, (h.closed hclosed).2⟩
  · intro f hbroken
    obtain ⟨line, hgarbled, hlines⟩ := h.broken f hbroken
    exact ⟨line, hgarbled, fun more hmore => hlines more fun _ => hmore rfl⟩

/-- The next line is taken up, and these replies are written. -/
theorem takes (h : Talk c sent notes) (hopen : c.ended = none) {text : String} {rest : List UInt8}
    (next : c.next = .line text rest) (texts : List String) (hinbox : c'.inbox = rest)
    (hreplies : c'.replies = texts.reverse ++ c.replies) (hended : c'.ended = none)
    (hhung : c'.hungUp = c.hungUp)
    (hturn : ∀ line, heard line = heardText text →
      ∃ under, InTurn (notes ++ .took line :: texts.map .wrote) under ∧ Waits under c'.awaited) :
    Talk c' sent (notes ++ c.notes c') := by
  obtain ⟨line, hheard, hnotes, hlines⟩ := Client.notes_of_line next texts hinbox hreplies hended
  have htaken : (texts.map Note.wrote).filterMap Note.line? = [] := by
    rw [List.filterMap_map]
    simp [Function.comp_def, Note.line?]
  have htexts : (texts.map Note.wrote).filterMap Note.text? = texts := by
    rw [List.filterMap_map]
    simp [Function.comp_def, Note.text?]
  rw [hnotes]
  refine ⟨hturn line hheard, ?_, ?_, ?_, ?_, ?_⟩
  · rw [hreplies, List.reverse_append, List.reverse_reverse, h.written, List.filterMap_append,
      List.filterMap_cons_none rfl, htexts]
  · rw [hended]
    exact nofun
  · intro _ more hmore
    rw [hhung] at hmore
    rw [h.opened hopen more hmore, hlines more hmore, List.filterMap_append,
      List.filterMap_cons_some (by rfl), htaken, hinbox, List.append_assoc]
    rfl
  · intro hclosed
    cases hended.symm.trans hclosed
  · intro f hbroken
    cases hended.symm.trans hbroken

/-- The session ends. -/
theorem ends (h : Talk c sent notes) (hopen : c.ended = none) (idle : c.awaited = none)
    {ending : ClientEnd} (next : c.next = .over ending) :
    Talk { c with inbox := [], ended := some ending } sent
      (notes ++ c.notes { c with inbox := [], ended := some ending }) := by
  have hnotes : c.notes { c with inbox := [], ended := some ending } = [] :=
    Client.notes_of_ended rfl rfl
  rw [hnotes, List.append_nil]
  refine ⟨h.inTurn, h.written, fun _ => idle, nofun, ?_, ?_⟩
  · intro hclosed
    cases hclosed
    obtain ⟨hhung, hinbox⟩ := Client.of_next_closed next
    have hlines := h.opened hopen [] fun _ => rfl
    rw [hinbox, List.append_nil, List.append_nil] at hlines
    exact ⟨hhung, hlines.trans (List.append_nil _)⟩
  · intro f hbroken
    cases hbroken
    obtain ⟨line, rest, hbegins, hgarbled⟩ := Client.of_next_faulty next
    refine ⟨line, hgarbled, fun more hmore => ⟨linesOf (rest ++ more), ?_⟩⟩
    rw [h.opened hopen more hmore, hbegins.first more hmore]

/-- The request that waited is answered. -/
theorem finishes (h : Talk c sent notes) (hopen : c.ended = none) {awaited : Awaited}
    (waiting : c.awaited = some awaited) (result : Except Failure (Option Json)) :
    Talk (c.answer awaited.id result) sent (notes ++ c.notes (c.answer awaited.id result)) := by
  obtain ⟨under, hturn, hwaits⟩ := h.inTurn
  rw [waiting] at hwaits
  cases hwaits with
  | @request line e asks pending =>
    have hanswers := Answers.asks e result
    rw [← asks] at hanswers
    rw [Client.notes_answer hopen]
    refine ⟨⟨none, hturn.finished hanswers, .nobody⟩, ?_, fun _ => rfl, ?_, ?_, ?_⟩
    · rw [List.filterMap_append, ← h.written]
      exact List.reverse_cons
    · intro _ more hmore
      rw [List.filterMap_append, List.filterMap_cons_none rfl, List.filterMap_nil, List.append_nil]
      exact h.opened hopen more hmore
    · intro hclosed
      cases hopen.symm.trans hclosed
    · intro f hbroken
      cases hopen.symm.trans hbroken

end Talk

namespace Server

variable {s s' : Server} {n : Nat} {sent : List UInt8} {notes : List Note}

/-- A session that goes on. -/
theorem Moves.talk (h : Moves s n s') (hopen : (s.client n).ended = none)
    (ht : Talk (s.client n) sent notes) :
    Talk (s'.client n) sent (notes ++ (s.client n).notes (s'.client n)) := by
  cases h with
  | ends idle ending next =>
    rw [client_setClient, if_pos rfl]
    exact ht.ends hopen idle next
  | passes idle next blank =>
    rw [client_setClient, if_pos rfl]
    refine ht.takes hopen next [] rfl rfl hopen rfl fun line hheard => ⟨none, ?_, ?_⟩
    · exact (ht.none_of_idle idle).passed (hheard.trans blank)
    · show Waits none (s.client n).awaited
      rw [idle]
      exact .nobody
  | @rejects idle text rest next f nonsense =>
    rw [client_setClient, if_pos rfl]
    refine ht.takes hopen next [_] rfl rfl hopen rfl fun line hheard => ⟨none, ?_, ?_⟩
    · have hanswers := Answers.nonsense f
      rw [← nonsense, ← hheard] at hanswers
      exact (ht.none_of_idle idle).answered hanswers
    · show Waits none (s.client n).awaited
      rw [idle]
      exact .nobody
  | @answers idle text rest next e asks bench disk result =>
    rw [client_setClient, if_pos rfl]
    refine ht.takes hopen next [_] rfl rfl hopen rfl fun line hheard => ⟨none, ?_, .nobody⟩
    have hanswers := Answers.asks e result
    rw [← asks, ← hheard] at hanswers
    exact (ht.none_of_idle idle).answered hanswers
  | @waits idle text rest next e asks bench disk pending =>
    rw [client_setClient, if_pos rfl]
    refine ht.takes hopen next [] rfl rfl hopen rfl fun line hheard => ⟨some line, ?_, ?_⟩
    · exact (ht.none_of_idle idle).waits (hheard.trans asks)
    · exact .request (hheard.trans asks) pending
  | finishes awaited waiting bench result =>
    rw [client_setClient, if_pos rfl]
    exact ht.finishes hopen waiting result

/-- What does not touch a session is not seen of it. -/
theorem notes_self (c : Client) : c.notes c = [] :=
  Client.notes_of_less (Nat.le_refl _) rfl

/-- **One event.** -/
theorem talk_step (ht : Talk (s.client n) sent notes) (e : Event)
    (hquiet : (s.client n).hungUp = true → ∀ bytes, e ≠ .receive n bytes) :
    Talk ((s.step e).client n) (sent ++ e.bytesFrom n) (notes ++ s.notes n e) := by
  have untouched {s' : Server} (h : s'.client n = s.client n) :
      Talk (s'.client n) (sent ++ []) (notes ++ (s.client n).notes (s'.client n)) := by
    rw [h, notes_self, List.append_nil, List.append_nil]
    exact ht
  rw [Server.notes]
  cases e with
  | bench e => exact untouched rfl
  | receive m bytes =>
    by_cases hm : n = m
    · subst hm
      have hclient : (s.step (.receive n bytes)).client n = (s.client n).receive bytes := by
        rw [step, client_setClient, if_pos rfl]
      have hopen : (s.client n).hungUp = false := by
        cases hhung : (s.client n).hungUp with
        | false => rfl
        | true => exact absurd rfl (hquiet hhung bytes)
      have hnotes : (s.client n).notes ((s.client n).receive bytes) = [] := by
        rw [Client.receive]
        split
        · exact notes_self _
        · exact Client.notes_of_less (by simp) rfl
      rw [hclient, hnotes, List.append_nil, Event.bytesFrom, if_pos rfl]
      exact ht.receive hopen bytes
    · rw [Event.bytesFrom, if_neg (Ne.symm hm)]
      exact untouched (by rw [step, client_setClient, if_neg hm])
  | hangUp m =>
    by_cases hm : n = m
    · subst hm
      have hclient : (s.step (.hangUp n)).client n = { s.client n with hungUp := true } := by
        rw [step, client_setClient, if_pos rfl]
      have hnotes : (s.client n).notes { s.client n with hungUp := true } = [] :=
        Client.notes_of_less (Nat.le_refl _) rfl
      rw [hclient, hnotes, List.append_nil]
      show Talk _ (sent ++ []) notes
      rw [List.append_nil]
      exact ht.hangUp
    · exact untouched (by rw [step, client_setClient, if_neg hm])
  | move m =>
    cases hmove : s.move? m with
    | none => exact untouched (by rw [step, hmove, Option.getD_none])
    | some s' =>
      have hstep : s.step (.move m) = s' := by rw [step, hmove, Option.getD_some]
      rw [hstep]
      by_cases hm : n = m
      · subst hm
        obtain ⟨hopen, hmoves⟩ := moves_of_move? hmove
        show Talk _ (sent ++ []) _
        rw [List.append_nil]
        exact hmoves.talk hopen ht
      · exact untouched ((goes_of_move? hmove).others n hm)

theorem hungUp_step (e : Event) (h : ((s.step e).client n).hungUp = true) :
    (s.client n).hungUp = true ∨ e = .hangUp n := by
  cases e with
  | bench e => exact .inl h
  | receive m bytes =>
    rw [step, client_setClient] at h
    split at h
    · rename_i hm
      rw [Client.receive] at h
      split at h
      · exact .inl (hm ▸ h)
      · exact .inl (hm ▸ h)
    · exact .inl h
  | hangUp m =>
    rw [step, client_setClient] at h
    split at h
    · rename_i hm
      exact .inr (by rw [hm])
    · exact .inl h
  | move m =>
    left
    replace h : (((s.move? m).getD s).client n).hungUp = true := h
    cases hmove : s.move? m with
    | none =>
      rw [hmove] at h
      exact h
    | some s' =>
      rw [hmove, Option.getD_some] at h
      by_cases hm : n = m
      · subst hm
        obtain ⟨-, hmoves⟩ := moves_of_move? hmove
        cases hmoves <;> (rw [client_setClient, if_pos rfl] at h; exact h)
      · rwa [(goes_of_move? hmove).others n hm] at h

/-- **Any events.** -/
theorem talk_steps (ht : Talk (s.client n) sent notes) {events : List Event}
    (hquiet : (s.client n).hungUp = true → ∀ e ∈ events, ∀ bytes, e ≠ .receive n bytes)
    (hallows : events.Pairwise (Event.Allows n)) :
    Talk ((s.steps events).client n) (sent ++ sentBy n events)
      (notes ++ s.transcript n events) := by
  induction events generalizing s sent notes with
  | nil =>
    rw [sentBy, transcript, List.flatMap_nil, List.append_nil, List.append_nil]
    exact ht
  | cons e rest ih =>
    obtain ⟨hlater, hrest⟩ := List.pairwise_cons.1 hallows
    have hstep := talk_step ht e fun hhung => hquiet hhung e List.mem_cons_self
    have hquiet' : ((s.step e).client n).hungUp = true →
        ∀ e ∈ rest, ∀ bytes, e ≠ .receive n bytes := by
      intro hhung later hmem
      rcases hungUp_step e hhung with hbefore | hhangUp
      · exact hquiet hbefore later (List.mem_cons_of_mem _ hmem)
      · exact hlater later hmem hhangUp
    have htalk := ih hstep hquiet' hrest
    rw [List.append_assoc, List.append_assoc] at htalk
    exact htalk

/-- **What holds of a new client's session**, whatever happens. -/
theorem talk_of_new (hnew : s.client n = {}) {events : List Event}
    (hallows : events.Pairwise (Event.Allows n)) :
    Talk ((s.steps events).client n) (sentBy n events) (s.transcript n events) := by
  have hstart : Talk (s.client n) [] [] := hnew ▸ Talk.start
  refine talk_steps hstart (fun hhung => ?_) hallows
  rw [hnew] at hhung
  cases hhung

end Server

end Stylus
