import Stylus.Server.Client
import Stylus.Store.Disk

/-!
# The server

A server is a bench, a store, and clients that make requests of both.  Like the bench it changes by
events, in any order: `Server.step`.

* `Server.move?` — a client's session goes on as far as it can without waiting: it answers one line,
  or lets one request wait for the controller, or takes up one whose turn is over.
-/

set_option autoImplicit false

namespace Stylus

/-- A bench, a store, and clients. -/
structure Server where
  bench : Bench
  store : Store := ⟨"scripts", "layouts"⟩
  disk : Disk := {}
  clients : List (Nat × Client) := []

namespace Server

/-- The session of a client; it begins when it is first mentioned. -/
def client (s : Server) (n : Nat) : Client :=
  ((s.clients.find? (·.1 = n)).map (·.2)).getD {}

/-- Changes the session of a client. -/
def setClient (s : Server) (n : Nat) (c : Client) : Server :=
  { s with clients := (s.clients.filter (·.1 ≠ n)) ++ [(n, c)] }

/-- The end of a client's turn, if it is reported. -/
def turnOf? (n : Nat) : List Report → Option (Except Failure String)
  | [] => none
  | .turn (.client m) result :: rest => if m = n then some result else turnOf? n rest
  | _ :: rest => turnOf? n rest

/-- The report is about that client's turn. -/
def isTurnOf (n : Nat) : Report → Bool
  | .turn (.client m) _ => m = n
  | _ => false

/-- Takes a client's reports away. -/
def clearReports (b : Bench) (n : Nat) : Bench :=
  { b with reports := b.reports.filter (!isTurnOf n ·) }

/-- A request asks for a turn at the controller. -/
def awaitTurn (s : Server) (n : Nat) (c : Client) (id : Option String) (stages : List Stage)
    (pending : Pending) : Server :=
  let bench := s.bench.queue (.client n) stages
  setClient { s with bench } n { c with awaited := some ⟨id, pending⟩ }

/-- A request is carried out as far as it goes without waiting. -/
def handle (s : Server) (n : Nat) (c : Client) (e : Envelope) : Server :=
  match Service.begin s.store s.bench e.request with
  | .answered bench result => setClient { s with bench } n (c.answer e.id result)
  | .filing work =>
    let (disk, result) := Filing.run s.disk work.run
    setClient { s with disk } n (c.answer e.id result)
  | .preparing work =>
    match Filing.run s.disk work.run with
    | (disk, .error f) => setClient { s with disk } n (c.answer e.id (.error f))
    | (disk, .ok r) => awaitTurn { s with disk } n c e.id [.homeUnlessHomed] (.launch r)
  | .turn stages pending => s.awaitTurn n c e.id stages pending

/-- A line is answered; a blank one is passed over. -/
def handleLine (s : Server) (n : Nat) (c : Client) (line : String) : Server :=
  let line := Text.trim line
  if line.isEmpty then s.setClient n c
  else
    match Envelope.ofLine line with
    | .ok e => s.handle n c e
    | .error f =>
      s.setClient n (c.reply (.refused ⟨"invalid_request", "Invalid request: " ++ f.message⟩))

/-- A client's session goes on, if it can. -/
def move? (s : Server) (n : Nat) : Option Server :=
  let c := s.client n
  if c.ended.isSome then none
  else
    match c.awaited with
    | some awaited =>
      match turnOf? n s.bench.reports with
      | none => none
      | some result =>
        let (bench, result) := Service.finish (clearReports s.bench n) awaited.pending result
        some (setClient { s with bench } n (c.answer awaited.id result))
    | none =>
      match c.next with
      | .nothing => none
      | .over ending => some (s.setClient n { c with inbox := [], ended := some ending })
      | .line text rest => some (s.handleLine n { c with inbox := rest } text)

/-- One move of somebody. -/
inductive Event where
  | bench (e : Bench.Event)
  /-- a client sends bytes -/
  | receive (n : Nat) (bytes : List UInt8)
  /-- a client sends nothing more -/
  | hangUp (n : Nat)
  /-- a client's session goes on -/
  | move (n : Nat)

/-- What an event does. -/
def step (s : Server) : Event → Server
  | .bench e => { s with bench := s.bench.step e }
  | .receive n bytes => s.setClient n ((s.client n).receive bytes)
  | .hangUp n => s.setClient n { s.client n with hungUp := true }
  | .move n => (s.move? n).getD s

/-- What a sequence of events does. -/
def steps (s : Server) (events : List Event) : Server :=
  events.foldl step s

end Server

end Stylus
