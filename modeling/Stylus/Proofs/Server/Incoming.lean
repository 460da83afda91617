import Stylus.Server.Client

/-!
# What arrives from a client

A client sends bytes, in pieces of any size.  They are lines, however they were cut, and the next
line is always the first one of what was not looked at yet.

* `Client.linesOf` — the lines of bytes;
* `Client.heard`, `Client.Answers` — what a line says, and what answers it;
* `Client.Comes`, `Client.comes_next` — **what comes next is the first line**, or the session is
  over, or nothing comes yet.
-/

set_option autoImplicit false

namespace Stylus

/-! ## Lines -/

namespace Client

/-- The lines of bytes, each with its newline; the last one may have none. -/
def linesOf : List UInt8 → List (List UInt8)
  | [] => []
  | b :: rest =>
    if b = 10 then [b] :: linesOf rest
    else
      match linesOf rest with
      | [] => [[b]]
      | line :: others => (b :: line) :: others

/-- A line that is cut off is the first one, whatever follows. -/
theorem linesOf_of_cutLine {bytes line rest : List UInt8} (h : cutLine bytes = some (line, rest))
    (more : List UInt8) : linesOf (bytes ++ more) = line :: linesOf (rest ++ more) := by
  induction bytes generalizing line with
  | nil => cases h
  | cons b bytes ih =>
    rw [cutLine] at h
    rw [List.cons_append, linesOf]
    split at h
    · rename_i hb
      cases h
      rw [if_pos hb]
    · rename_i hb
      obtain ⟨⟨first, left⟩, hcut, hline⟩ := Option.map_eq_some_iff.1 h
      cases hline
      rw [if_neg hb, ih hcut]

/-- Bytes of which no line can be cut off are a line without a newline. -/
theorem linesOf_of_cutLine_none {bytes : List UInt8} (h : cutLine bytes = none)
    (hsome : bytes ≠ []) : linesOf bytes = [bytes] := by
  induction bytes with
  | nil => exact absurd rfl hsome
  | cons b rest ih =>
    rw [cutLine] at h
    rw [linesOf]
    split at h
    · cases h
    · rename_i hb
      rw [if_neg hb]
      by_cases hrest : rest = []
      · subst hrest
        rfl
      · rw [ih (Option.map_eq_none_iff.1 h) hrest]

theorem eq_append_of_cutLine {bytes line rest : List UInt8}
    (h : cutLine bytes = some (line, rest)) : bytes = line ++ rest ∧ line ≠ [] := by
  induction bytes generalizing line with
  | nil => cases h
  | cons b bytes ih =>
    rw [cutLine] at h
    split at h
    · cases h
      exact ⟨rfl, by simp⟩
    · obtain ⟨⟨first, left⟩, hcut, hline⟩ := Option.map_eq_some_iff.1 h
      cases hline
      exact ⟨congrArg (b :: ·) (ih hcut).1, by simp⟩

/-! ## What a line says -/

/-- What a line says. -/
inductive Heard where
  /-- it is blank -/
  | nothing
  /-- it is no request -/
  | nonsense (f : Fault)
  | asks (e : Envelope)
  /-- it is no text at all -/
  | garbled (f : Text.Utf8.Fault)

/-- What a text says. -/
def heardText (text : String) : Heard :=
  if (Text.trim text).isEmpty then .nothing
  else
    match Envelope.ofLine (Text.trim text) with
    | .ok e => .asks e
    | .error f => .nonsense f

/-- What a line of bytes says. -/
def heard (line : List UInt8) : Heard :=
  match Text.Utf8.strict line with
  | .ok text => heardText text
  | .error f => .garbled f

/-- A line that wants a reply. -/
def Heard.wantsReply : Heard → Bool
  | .nonsense _ | .asks _ => true
  | .nothing | .garbled _ => false

/-- The reply to a line that is no request. -/
def rejection (f : Fault) : Response :=
  .refused ⟨"invalid_request", "Invalid request: " ++ f.message⟩

/-- **What answers a line**: what is no request is rejected, and a request is answered under the
name that came with it. -/
inductive Answers : Heard → Response → Prop where
  | nonsense (f : Fault) : Answers (.nonsense f) (rejection f)
  | asks (e : Envelope) (result : Except Failure (Option Json)) :
      Answers (.asks e) ((Response.ofResult result).withId e.id)

/-! ## What comes next -/

/-- **The inbox begins with a line**, whatever will follow. -/
structure Begins (c : Client) (line rest : List UInt8) : Prop where
  ne_nil : line ≠ []
  inbox_eq : c.inbox = line ++ rest
  first : ∀ more, (c.hungUp = true → more = []) →
    linesOf (c.inbox ++ more) = line :: linesOf (rest ++ more)

theorem begins_of_cutLine {c : Client} {line rest : List UInt8}
    (h : cutLine c.inbox = some (line, rest)) : c.Begins line rest where
  ne_nil := (eq_append_of_cutLine h).2
  inbox_eq := (eq_append_of_cutLine h).1
  first more _ := linesOf_of_cutLine h more

/-- What is left when nothing will follow is a line, though it has no newline. -/
theorem begins_of_hungUp {c : Client} (h : cutLine c.inbox = none) (hhung : c.hungUp = true)
    (hsome : c.inbox ≠ []) : c.Begins c.inbox [] where
  ne_nil := hsome
  inbox_eq := (List.append_nil _).symm
  first more hmore := by
    rw [hmore hhung, List.append_nil, linesOf_of_cutLine_none h hsome]
    rfl

/-- **What can come next.** -/
inductive Comes (c : Client) : Incoming → Prop where
  /-- the first line of the inbox -/
  | line {line rest : List UInt8} {text : String} (begins : c.Begins line rest)
      (heard_eq : heard line = heardText text) : Comes c (.line text rest)
  /-- the session is over, for the first line is no text -/
  | faulty {line rest : List UInt8} {f : Text.Utf8.Fault} (begins : c.Begins line rest)
      (heard_eq : heard line = .garbled f) : Comes c (.over (.faulty f))
  /-- the session is over, for nothing is left -/
  | closed (hungUp : c.hungUp = true) (empty : c.inbox = []) : Comes c (.over .closed)
  /-- nothing yet -/
  | nothing (waits : c.hungUp = false) (uncut : cutLine c.inbox = none) : Comes c .nothing

theorem Begins.comes {c : Client} {line rest : List UInt8} (h : c.Begins line rest) :
    c.Comes (decoded line rest) := by
  rw [decoded]
  split
  · rename_i text said
    exact .line h (by rw [heard, said])
  · rename_i f garbled
    exact .faulty h (by rw [heard, garbled])

theorem comes_next (c : Client) : c.Comes c.next := by
  rw [next]
  split
  · rename_i line rest cut
    exact (begins_of_cutLine cut).comes
  · rename_i uncut
    split
    · rename_i waits
      exact .nothing (by simpa using waits) uncut
    · rename_i hhung
      have hungUp : c.hungUp = true := by simpa using hhung
      split
      · rename_i empty
        exact .closed hungUp (List.isEmpty_iff.1 empty)
      · rename_i left
        exact (begins_of_hungUp uncut hungUp (by simpa using left)).comes

/-- The next bytes are a line: it is the first one of the inbox, whatever will follow. -/
theorem of_next_line {c : Client} {text : String} {rest : List UInt8}
    (h : c.next = .line text rest) :
    ∃ line, c.Begins line rest ∧ heard line = heardText text := by
  cases h ▸ c.comes_next with
  | line begins heard_eq => exact ⟨_, begins, heard_eq⟩

/-- The session is over because nothing is left. -/
theorem of_next_closed {c : Client} (h : c.next = .over .closed) :
    c.hungUp = true ∧ c.inbox = [] := by
  cases h ▸ c.comes_next with
  | closed hungUp empty => exact ⟨hungUp, empty⟩

/-- The session is over because the next line is no text. -/
theorem of_next_faulty {c : Client} {f : Text.Utf8.Fault} (h : c.next = .over (.faulty f)) :
    ∃ line rest, c.Begins line rest ∧ heard line = .garbled f := by
  cases h ▸ c.comes_next with
  | faulty begins heard_eq => exact ⟨_, _, begins, heard_eq⟩

/-- Nothing comes next yet. -/
theorem of_next_nothing {c : Client} (h : c.next = .nothing) :
    c.hungUp = false ∧ cutLine c.inbox = none := by
  cases h ▸ c.comes_next with
  | nothing waits uncut => exact ⟨waits, uncut⟩

end Client

end Stylus
