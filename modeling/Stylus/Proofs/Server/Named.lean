import Stylus.Proofs.Protocol.Envelope
import Stylus.Proofs.Server.Conversation
import Stylus.Proofs.Server.Learned

/-!
# The names of replies

A client that makes many requests tells the replies apart by the names that it gave.  Does the reply
to a request always have the name that came with the request?

It does if the name is a text and given once.  A line that gives another name, or two, is not
refused: it is read as a request alone, carried out, and answered without a name.

* `Client.givenName` — the name that a line gives;
* `Server.Named` — a line is rejected, or answered under the name that it gives;
* `Server.replies_named` — **so it is with all lines**;
* `Server.unnamed_home` — a name that is a number is lost.
-/

set_option autoImplicit false

namespace Stylus

open Client (Heard heard heardText Answers rejection)

/-! ## Names -/

/-- The name that a reply has. -/
theorem Response.member?_id (r : Response) :
    (Document.ofText r.text).root.member? "id" = r.id.map .text := by
  rw [text, Json.ofText_compact]
  obtain ⟨success, id, result, error⟩ := r
  cases id with
  | some id => rfl
  | none => cases result <;> cases error <;> rfl

/-- The name that a line gives for its reply: a text, and given once. -/
def Client.givenName (line : List UInt8) : Option String :=
  match Text.Utf8.strict line with
  | .ok text => Envelope.givenId (Document.ofText (Text.trim text)).root
  | .error _ => none

/-- A request has the name that its line gives. -/
theorem Client.id_of_heard {line : List UInt8} {e : Envelope} (h : heard line = .asks e) :
    e.id = givenName line := by
  rw [heard] at h
  rw [givenName]
  cases hstrict : Text.Utf8.strict line with
  | error f =>
    rw [hstrict] at h
    cases h
  | ok text =>
    simp only [hstrict, heardText] at h
    split at h
    · cases h
    · split at h
      · rename_i e' hline
        cases h
        exact Envelope.id_of_ofLine hline
      · cases h

namespace Server

/-- **What a line gets for a reply**: it is rejected, or it is a request whose reply has the name
that the line gives, and no name if it gives none. -/
inductive Named (line : List UInt8) (text : String) : Prop where
  | rejected (f : Fault) (nonsense : heard line = .nonsense f) (reply : text = (rejection f).text)
  | named (e : Envelope) (asks : heard line = .asks e) (result : Except Failure (Option Json))
      (reply : text = ((Response.ofResult result).withId e.id).text)
      (name : (Document.ofText text).root.member? "id" = (Client.givenName line).map .text)

theorem named_of_isReply {line : List UInt8} {text : String} (h : IsReply line text) :
    Named line text := by
  obtain ⟨r, hanswers, rfl⟩ := h
  generalize hheard : heard line = said at hanswers
  cases hanswers with
  | nonsense f => exact .rejected f hheard rfl
  | asks e result =>
    refine .named e hheard result rfl ?_
    rw [Response.member?_id, ← Client.id_of_heard hheard]
    rfl

/-- **Every reply has the name that its line gives**, if that is a text and given once; the other
lines are rejected, when nothing but the rejection happens, or answered without a name. -/
theorem replies_named {s : Server} {n : Nat} (hnew : s.client n = {}) {events : List Event}
    (hallows : events.Pairwise (Event.Allows n)) :
    (∃ answered waiting, asking (s.transcript n events) = answered ++ waiting ∧
      waiting.length = ((s.steps events).client n).awaited.isSome.toNat ∧
      List.Forall₂ Named answered ((s.steps events).client n).replies.reverse) ∧
    ∀ s', (s.steps events).move? n = some s' → ∀ line rest f,
      ((s.steps events).client n).notes (s'.client n) = .took line :: rest →
      heard line = .nonsense f →
        rest = [.wrote (rejection f).text] ∧ s'.bench = (s.steps events).bench ∧
          s'.store = (s.steps events).store ∧ s'.disk = (s.steps events).disk ∧
          ∀ m, m ≠ n → s'.client m = (s.steps events).client m := by
  refine ⟨?_, fun s' hmove line rest f => rejected_of_move? hmove⟩
  obtain ⟨answered, waiting, hasking, hwaiting, hpaired⟩ := (talk_of_new hnew hallows).answered
  exact ⟨answered, waiting, hasking, hwaiting, hpaired.imp fun _ _ => named_of_isReply⟩

/-- A request with a name. -/
def namedRequest : List Event :=
  asks [("id", .text "a"), ("cmd", .text "get_position")]

theorem replies_named_getPosition :
    let s : Server := { bench := .fresh {} }
    s.client 0 = {} ∧ namedRequest.Pairwise (Event.Allows 0) ∧
      Client.givenName (Text.Utf8.encode
        ((Json.table [("id", .text "a"), ("cmd", .text "get_position")]).compact ++ "\n")) =
          some "a" ∧
      (∃ answered waiting, asking (s.transcript 0 namedRequest) = answered ++ waiting ∧
        waiting.length = ((s.steps namedRequest).client 0).awaited.isSome.toNat ∧
        List.Forall₂ Named answered ((s.steps namedRequest).client 0).replies.reverse) := by
  intro s
  have hallows : namedRequest.Pairwise (Event.Allows 0) := by
    simp [namedRequest, asks, Event.Allows]
  exact ⟨rfl, hallows, by decide +kernel, (replies_named (s := s) rfl hallows).1⟩

/-- A request with a number for a name, and what the plotter does about it. -/
def numbered : List Event :=
  asks [("id", .integer 5), ("cmd", .text "home")] ++
    [.bench .proceed, .bench (.answer (.ok "")), .bench (.answer (.ok "ok\n")), .move 0]

/-- **A name that is lost**: the line gives a number for a name, the plotter is homed, and the one
reply tells of a success and has no name. -/
theorem unnamed_home :
    let s : Server := steps { bench := .fresh {} } numbered
    (Document.ofText (Json.table [("id", .integer 5), ("cmd", .text "home")]).compact).root.member?
        "id" = some (.integer 5) ∧
      s.bench.controller.published.homed = true ∧
      ∃ text, (s.client 0).replies = [text] ∧
        (Document.ofText text).root.member? "success" = some (.boolean true) ∧
        (Document.ofText text).root.member? "id" = none := by
  intro s
  have hreplies : (s.client 0).replies = [(Response.ok none).text] := by decide +kernel
  refine ⟨?_, by decide +kernel, _, hreplies, ?_, Response.member?_id _⟩
  · rw [Json.ofText_compact]
    with_unfolding_all rfl
  · rw [Response.text, Json.ofText_compact]
    rfl

end Server

end Stylus
