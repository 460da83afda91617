import Stylus.Proofs.Link.Signals

/-!
# Whose answer it is

A `Wire` is a link with a plotter at its other end, one that answers every line it gets with one
text, in order and as late as it likes.  Nothing in an answer says which line it is about, so the
link takes the first `ok` after a command for that command's.  Here every byte that the plotter says
carries the number of the command that it is about, for the proofs alone, and the question of whose
answer a caller is given can be asked.

* `Wire.step`, `Wire.after` — what happens on a wire;
* `Wire.Fits` — the invariant: what was gathered is what the buffer shows;
* `Wire.told_of_reply` — what a caller is given is the answer to its own command **exactly if**
  nothing about an earlier one was left to be read when the command was written;
* `Wire.reply_of_earlier` — after a command was given up, something may be left;
* `Wire.late_eq_nil` — a link that never gives a command up leaves nothing.

A plotter that is slow has its answers on the wire at once and not read for long, which comes to the
same: the link sees bytes when it reads them.
-/

set_option autoImplicit false

namespace Stylus

open Text.Utf8 AckBuffer

/-! ## The wire -/

/-- A link and the plotter at its other end; each byte goes with the number of the command that it
is about. -/
structure Wire where
  link : Link := {}
  /-- the commands on the wire so far -/
  written : List String := []
  /-- what the plotter has to say and the link has not read -/
  unread : List (Nat × UInt8) := []
  /-- what was read since the last command was written -/
  gathered : List (Nat × UInt8) := []
  /-- what was still unread when the last command was written -/
  late : List (Nat × UInt8) := []

namespace Wire

inductive Event where
  /-- that many bytes are read, or all there are -/
  | read (count : Nat)
  /-- anything else happens to the link -/
  | signal (s : Signal)

/-- How many lines a command is on the wire. -/
def lines (command : String) : Nat :=
  command.toList.count '\n' + 1

/-- How many lines commands are on the wire. -/
def lineCount : List String → Nat
  | [] => 0
  | command :: rest => lines command + lineCount rest

variable (answers : Nat → String)

/-- What the plotter says about a command that comes after others: its answer to each line. -/
def said (before : List String) (command : String) : List (Nat × UInt8) :=
  (List.range' (lineCount before) (lines command)).flatMap fun line =>
    (encode (answers line)).map (before.length, ·)

/-- A command is on the wire, and the plotter has something to say about it. -/
def wrote (w : Wire) (command : String) : Wire :=
  { w with
    written := w.written ++ [command]
    unread := w.unread ++ said answers w.written command
    gathered := []
    late := w.unread }

/-- The plotter takes note of what the link lets out. -/
def note (w : Wire) : Effect → Wire
  | .write command => w.wrote answers command
  | .reply _ _ => w

/-- The link gets a signal. -/
def signal (w : Wire) (s : Signal) : Wire × List Effect :=
  ((w.link.step s).2.foldl (note answers) { w with link := (w.link.step s).1 }, (w.link.step s).2)

/-- Bytes go from the wire to the link. -/
def readOff (w : Wire) (count : Nat) : Wire :=
  { w with
    unread := w.unread.drop count
    gathered := w.gathered ++ w.unread.take count }

/-- What an event does, and what the link lets out.  Bytes come from the plotter alone. -/
def step (w : Wire) : Event → Wire × List Effect
  | .read count =>
    (w.readOff count).signal answers (.received ((w.unread.take count).map Prod.snd))
  | .signal (.received _) => (w, [])
  | .signal s => w.signal answers s

/-- What events make of a fresh link. -/
def after (limit : Option Nat) (events : List Event) : Wire :=
  events.foldl (fun w e => (w.step answers e).1) { link := { limit } }

/-! ## The invariant -/

/-- **What was gathered is what the buffer shows**, and is about the outstanding command once all
that was late has been read. -/
structure Fits (w : Wire) : Prop where
  known : ∀ b ∈ w.unread, b.1 < w.written.length
  outstanding : w.link.alive = true → ∀ r : LinkRequest, w.link.current = some r →
    ∃ before : List String, w.written = before ++ [r.command] ∧
      Shows (w.gathered.map Prod.snd) w.link.buffer.pending ∧
      w.gathered ++ w.unread = w.late ++ said answers before r.command ∧
      ∀ b ∈ w.late, b.1 < before.length

variable {answers}

theorem of_mem_said {before : List String} {command : String} {b : Nat × UInt8}
    (h : b ∈ said answers before command) : b.1 = before.length := by
  obtain ⟨line, -, hb⟩ := List.mem_flatMap.1 h
  obtain ⟨x, -, rfl⟩ := List.mem_map.1 hb
  rfl

theorem said_of_line (before : List String) {command : String} (h : '\n' ∉ command.toList) :
    (said answers before command).map Prod.snd = encode (answers (lineCount before)) := by
  rw [said, lines, List.count_eq_zero.2 h]
  simp [Function.comp_def]

/-- What a quiet link lets out writes nothing. -/
theorem foldl_note_of_quiet {link link' : Link} {effects : List Effect}
    (h : link.Quiet link' effects) (w : Wire) : effects.foldl (note answers) w = w := by
  have hfail := h.failures
  clear h
  induction effects with
  | nil => rfl
  | cons e effects ih =>
    obtain ⟨caller, f, rfl⟩ := hfail e List.mem_cons_self
    exact ih fun e he => hfail e (List.mem_cons_of_mem _ he)

theorem signal_of_step {w : Wire} {s : Signal} {link : Link} {effects : List Effect}
    (h : w.link.step s = (link, effects)) :
    w.signal answers s = (effects.foldl (note answers) { w with link := link }, effects) := by
  rw [signal, h]

@[simp] theorem wrote_written (w : Wire) (command : String) :
    (w.wrote answers command).written = w.written ++ [command] := rfl

@[simp] theorem wrote_unread (w : Wire) (command : String) :
    (w.wrote answers command).unread = w.unread ++ said answers w.written command := rfl

@[simp] theorem wrote_gathered (w : Wire) (command : String) :
    (w.wrote answers command).gathered = [] := rfl

@[simp] theorem wrote_link (w : Wire) (command : String) :
    (w.wrote answers command).link = w.link := rfl

/-- Reading moves bytes, and loses none. -/
theorem gathered_readOff (w : Wire) (count : Nat) :
    (w.readOff count).gathered ++ (w.readOff count).unread = w.gathered ++ w.unread := by
  rw [readOff, List.append_assoc, List.take_append_drop]

theorem foldl_note_link (effects : List Effect) (w : Wire) :
    (effects.foldl (note answers) w).link = w.link := by
  induction effects generalizing w with
  | nil => rfl
  | cons e effects ih =>
    rw [List.foldl_cons, ih]
    cases e <;> rfl

theorem link_signal (w : Wire) (s : Signal) :
    (w.signal answers s).1.link = (w.link.step s).1 := by
  rw [signal, foldl_note_link]

/-- A link that is quiet keeps the invariant. -/
theorem Fits.quiet {w : Wire} (h : w.Fits answers) {s : Signal} (htake : s ≠ .take)
    (hreceived : ∀ bytes : List UInt8, s ≠ .received bytes) :
    (w.signal answers s).1.Fits answers := by
  have hq := w.link.step_quiet htake hreceived
  rw [signal, foldl_note_of_quiet hq]
  refine ⟨h.known, fun halive r hcur => ?_⟩
  rcases hq.current with heq | heq
  · have hold := h.outstanding (hq.alive halive) r (heq.symm.trans hcur)
    rw [← hq.buffer] at hold
    exact hold
  · exact absurd (heq.symm.trans hcur) (by simp)

theorem Fits.take {w : Wire} (h : w.Fits answers) : (w.signal answers .take).1.Fits answers := by
  rcases w.link.step_take with heq | ⟨link', r, heq, htakes⟩
  · rw [signal_of_step heq]
    exact h
  · rw [signal_of_step heq, List.foldl_cons, List.foldl_nil, note]
    refine ⟨?_, fun _ r' hcur' => ?_⟩
    · intro b hb
      rw [wrote_written, List.length_append]
      rw [wrote_unread, List.mem_append] at hb
      rcases hb with hold | hnew
      · exact Nat.lt_of_lt_of_le (h.known b hold) (Nat.le_add_right _ _)
      · rw [of_mem_said hnew]
        exact Nat.lt_succ_self _
    · obtain rfl := Option.some.inj (htakes.current.symm.trans hcur')
      refine ⟨w.written, rfl, ?_, rfl, h.known⟩
      rw [wrote_link, wrote_gathered, htakes.empty]
      exact .nil

theorem Fits.read {w : Wire} (h : w.Fits answers) (count : Nat) :
    (w.step answers (.read count)).1.Fits answers := by
  have hknown : ∀ b ∈ w.unread.drop count, b.1 < w.written.length :=
    fun b hb => h.known b (List.mem_of_mem_drop hb)
  rw [step]
  rcases w.link.step_received ((w.unread.take count).map Prod.snd) with
    ⟨heq, hfree⟩ | ⟨r, -, hcur, ⟨-, heq⟩ | ⟨taken, left, -, heq⟩⟩
  · rw [signal_of_step (w := w.readOff count) heq]
    exact ⟨hknown, fun halive r hcur => absurd ((hfree halive).symm.trans hcur) (by simp)⟩
  · rw [signal_of_step (w := w.readOff count) heq]
    refine ⟨hknown, fun halive r' hcur' => ?_⟩
    obtain ⟨before, hwritten, hshows, hall, hlate⟩ := h.outstanding halive r' hcur'
    refine ⟨before, hwritten, ?_, ?_, hlate⟩
    · have hpush := shows_push hshows ((w.unread.take count).map Prod.snd)
      rw [← List.map_append] at hpush
      exact hpush
    · rw [← gathered_readOff w count] at hall
      exact hall
  · rw [signal_of_step (w := w.readOff count) heq]
    exact ⟨hknown, fun _ _ => nofun⟩

theorem Fits.step {w : Wire} (h : w.Fits answers) (e : Event) :
    (w.step answers e).1.Fits answers := by
  cases e with
  | read count => exact h.read count
  | signal s =>
    cases s with
    | take => exact h.take
    | received bytes => exact h
    | _ => exact h.quiet nofun nofun

theorem fits_after (limit : Option Nat) (events : List Event) :
    (after answers limit events).Fits answers := by
  suffices ∀ w : Wire, w.Fits answers →
      (events.foldl (fun w e => (w.step answers e).1) w).Fits answers from
    this _ ⟨by simp, fun _ _ => nofun⟩
  intro w h
  induction events generalizing w with
  | nil => exact h
  | cons e events ih => exact ih _ (h.step e)

/-- A link that reads writes nothing. -/
theorem gathered_read (w : Wire) (count : Nat) :
    (w.step answers (.read count)).1.gathered = (w.readOff count).gathered := by
  rw [step]
  rcases w.link.step_received ((w.unread.take count).map Prod.snd) with
    ⟨heq, -⟩ | ⟨r, -, -, ⟨-, heq⟩ | ⟨taken, left, -, heq⟩⟩
  · rw [signal_of_step (w := w.readOff count) heq]
    rfl
  · rw [signal_of_step (w := w.readOff count) heq]
    rfl
  · rw [signal_of_step (w := w.readOff count) heq]
    rfl

/-! ## What callers are told -/

theorem reply_ok {w : Wire} {e : Event} {caller : Nat} {text : String}
    (h : Effect.reply caller (.ok text) ∈ (w.step answers e).2) :
    ∃ (count : Nat) (r : LinkRequest) (left : List Char), e = .read count ∧
      w.link.alive = true ∧ w.link.current = some r ∧ r.caller = caller ∧
      split [] (w.link.buffer.push ((w.unread.take count).map Prod.snd)).pending =
        some (text.toList, left) := by
  cases e with
  | read count =>
    obtain ⟨bytes, r, left, hs, h⟩ := Link.reply_ok h
    cases hs
    exact ⟨count, r, left, rfl, h⟩
  | signal s =>
    cases s with
    | received bytes => exact absurd h List.not_mem_nil
    | _ =>
      obtain ⟨bytes, r, left, hs, -⟩ := Link.reply_ok h
      cases hs

/-- What the outstanding command is told is the first part of what was read for it. -/
theorem Fits.source {w : Wire} (h : w.Fits answers) (halive : w.link.alive = true)
    {r : LinkRequest} (hcur : w.link.current = some r) {count : Nat} {taken left : List Char}
    (hsplit : split [] (w.link.buffer.push ((w.unread.take count).map Prod.snd)).pending =
      some (taken, left)) :
    ∃ (before : List String) (source : List (Nat × UInt8)), w.written = before ++ [r.command] ∧
      source <+: (w.readOff count).gathered ∧
      Shows (source.map Prod.snd) taken ∧ IsAnswer taken ∧
      (w.readOff count).gathered ++ (w.readOff count).unread =
        w.late ++ said answers before r.command ∧
      ∀ b ∈ w.late, b.1 < before.length := by
  obtain ⟨before, hwritten, hshows, hall, hlate⟩ := h.outstanding halive r hcur
  have hpush := shows_push hshows ((w.unread.take count).map Prod.snd)
  rw [← List.map_append] at hpush
  obtain ⟨source, hsource, hshown, hanswer⟩ := split_shown hpush hsplit
  rw [← gathered_readOff w count] at hall
  exact ⟨before, source, hwritten, hsource, hshown, hanswer, hall, hlate⟩

/-- A text that says `ok`, if it comes from what the plotter says about a command of one line, is
all of that. -/
theorem eq_said (hanswers : ∀ line : Nat, IsAnswer (answers line).toList) {before : List String}
    {command : String} (hline : '\n' ∉ command.toList) {source : List (Nat × UInt8)}
    {taken : List Char} (hsaid : source <+: said answers before command)
    (hshown : Shows (source.map Prod.snd) taken) (htaken : IsAnswer taken) :
    source = said answers before command := by
  have hfirst := hsaid.map Prod.snd
  rw [said_of_line before hline, encode_eq] at hfirst
  have hwhole := (hanswers _).whole htaken hshown hfirst
  rw [← encode_eq, ← said_of_line before hline] at hwhole
  have hlength := congrArg List.length hwhole
  rw [List.length_map, List.length_map] at hlength
  exact hsaid.eq_of_length hlength

/-- An ASCII answer that is read in one lot is told to the caller of the outstanding command. -/
theorem reply_of_read {w : Wire} {r : LinkRequest} (halive : w.link.alive = true)
    (hcur : w.link.current = some r) (hempty : w.link.buffer.pending = []) {text : String}
    (hanswer : IsAnswer text.toList) (hascii : ∀ c ∈ text.toList, c.toNat < 0x80) {count : Nat}
    (hread : (w.unread.take count).map Prod.snd = encode text) :
    (w.step answers (.read count)).2 = [.reply r.caller (.ok text)] := by
  rw [step, signal, hread]
  exact Link.step_answer halive hcur hempty hanswer hascii

/-- **What an event has a caller told about its command**: the text is shown by bytes that were read
since the command was written. -/
structure Told (answers : Nat → String) (w : Wire) (e : Event) (caller : Nat) (text : String)
    (before : List String) (r : LinkRequest) (source : List (Nat × UInt8)) : Prop where
  outstanding : w.link.current = some r
  caller : r.caller = caller
  written : w.written = before ++ [r.command]
  read : source <+: (w.step answers e).1.gathered
  shown : Shows (source.map Prod.snd) text.toList
  /-- the bytes are about that very command, if and only if nothing was late -/
  own : (∀ b ∈ source, b.1 = before.length) ↔ w.late = []
  /-- and then they are all that the plotter has to say about a command of one line -/
  whole : w.late = [] → '\n' ∉ r.command.toList →
    source.map Prod.snd = encode (answers (lineCount before)) ∧
      ('\uFFFD' ∉ text.toList → text = answers (lineCount before))

/-- **Whose answer a caller is given.**  Whatever is asked of the link, whatever plotter is at its
other end and however long each answer takes: an answer is told to the caller of the outstanding
command, and it is the answer to that very command exactly if nothing that the plotter had to say
about earlier ones was left to be read when the command was written. -/
theorem told_of_reply (hanswers : ∀ line : Nat, IsAnswer (answers line).toList)
    {limit : Option Nat} {events : List Event} {e : Event} {caller : Nat} {text : String}
    (h : Effect.reply caller (.ok text) ∈ ((after answers limit events).step answers e).2) :
    ∃ (before : List String) (r : LinkRequest) (source : List (Nat × UInt8)),
      Told answers (after answers limit events) e caller text before r source := by
  generalize hw : after answers limit events = w at h ⊢
  have hfits : w.Fits answers := hw ▸ fits_after limit events
  obtain ⟨count, r, left, rfl, halive, hcur, hcaller, hsplit⟩ := reply_ok h
  obtain ⟨before, source, hwritten, hread, hshown, htext, hall, hlate⟩ :=
    hfits.source halive hcur hsplit
  have hsaid : source <+: w.late ++ said answers before r.command :=
    hall ▸ hread.trans (List.prefix_append _ _)
  have hgathered : source <+: (w.step answers (.read count)).1.gathered := by
    rw [gathered_read]
    exact hread
  refine ⟨before, r, source, hcur, hcaller, hwritten, hgathered, hshown, ⟨?_, ?_⟩, ?_⟩
  · -- the first byte is late if any is
    intro hown
    cases hl : w.late with
    | nil => rfl
    | cons b rest =>
      rw [hl] at hsaid
      cases source with
      | nil => exact absurd hshown.eq_nil htext.ne_nil
      | cons x source =>
        obtain ⟨rfl, -⟩ := List.cons_prefix_cons.1 hsaid
        have hearly := hlate x (hl ▸ List.mem_cons_self)
        rw [hown x List.mem_cons_self] at hearly
        exact absurd hearly (Nat.lt_irrefl _)
  · intro hl b hb
    rw [hl, List.nil_append] at hsaid
    exact of_mem_said (hsaid.subset hb)
  · intro hl hline
    rw [hl, List.nil_append] at hsaid
    have hsource := eq_said hanswers hline hsaid hshown htext
    have hbytes : source.map Prod.snd = encode (answers (lineCount before)) := by
      rw [hsource, said_of_line before hline]
    refine ⟨hbytes, fun hclean => ?_⟩
    have hencoded := (hshown.eq_encodeAll hclean).symm.trans (hbytes.trans (encode_eq _))
    exact String.toList_inj.1 (encodeAll_inj hencoded)

/-- A plotter says `ok` and no more. -/
def justOk : Nat → String := fun _ =>
  "ok\n"

theorem told_of_reply_home :
    (∀ line : Nat, IsAnswer (justOk line).toList) ∧
      ∃ (before : List String) (r : LinkRequest) (source : List (Nat × UInt8)),
        Told justOk (after justOk none [.signal (.submit ⟨7, "G28"⟩), .signal .take]) (.read 3)
          7 "ok\n" before r source := by
  have hanswer : IsAnswer "ok\n".toList := isAnswer_of_split (by decide)
  have hread : ((said justOk [] "G28").take 3).map Prod.snd = encode "ok\n" := by
    have hlength : (encode "ok\n").length = 3 := by
      rw [encode_eq]
      decide
    rw [List.map_take, said_of_line [] (by decide), ← hlength]
    exact List.take_length
  have hreply : ((after justOk none [.signal (.submit ⟨7, "G28"⟩), .signal .take]).step justOk
      (.read 3)).2 = [.reply 7 (.ok "ok\n")] :=
    reply_of_read (r := ⟨7, "G28"⟩) rfl rfl rfl hanswer (by simp) hread
  exact ⟨fun _ => hanswer, told_of_reply (fun _ => hanswer) (hreply ▸ List.mem_singleton_self _)⟩

/-! ## Late answers -/

/-- A command is given up, and the next one is written at once. -/
def givenUp (first second : LinkRequest) : List Event :=
  [.signal (.submit first), .signal .take, .signal .expired,
    .signal (.submit second), .signal .take]

theorem after_givenUp (limit : Nat) (first second : LinkRequest) :
    after answers (some limit) (givenUp first second) =
      { link := { limit := some limit, current := some second }
        written := [first.command, second.command]
        unread := said answers [] first.command ++ said answers [first.command] second.command
        late := said answers [] first.command } := by
  rw [after, givenUp]
  simp [step, signal, Link.step, Link.stepAlive, Link.takeNext, Link.expire, Link.settle,
    takePending, note, wrote]

/-- **The answer to a command that was given up goes to the caller of the next one**, if it comes
when that one is outstanding. -/
theorem reply_of_earlier (hanswer : IsAnswer (answers 0).toList)
    (hascii : ∀ c ∈ (answers 0).toList, c.toNat < 0x80) (limit : Nat) {first : LinkRequest}
    (hline : '\n' ∉ first.command.toList) (second : LinkRequest) :
    ((after answers (some limit) (givenUp first second)).step answers
      (.read (encode (answers 0)).length)).2 = [.reply second.caller (.ok (answers 0))] := by
  rw [after_givenUp]
  refine reply_of_read (r := second) rfl rfl rfl hanswer hascii ?_
  rw [List.map_take, List.map_append, said_of_line [] hline]
  exact List.take_left

/-- What a plotter says to two commands. -/
def twoAnswers : Nat → String
  | 0 => "first\nok\n"
  | _ => "second\nok\n"

/-- The second command is told the first answer. -/
theorem told_of_earlier :
    (∀ line : Nat, IsAnswer (twoAnswers line).toList) ∧
      (after twoAnswers (some 60) (givenUp ⟨1, "1"⟩ ⟨2, "2"⟩)).written = ["1", "2"] ∧
      ((after twoAnswers (some 60) (givenUp ⟨1, "1"⟩ ⟨2, "2"⟩)).step twoAnswers (.read 9)).2 =
        [.reply 2 (.ok (twoAnswers 0))] ∧
      twoAnswers 0 ≠ twoAnswers 1 := by
  have hanswers : ∀ line : Nat, IsAnswer (twoAnswers line).toList
    | 0 => isAnswer_of_split (by decide)
    | _ + 1 => show IsAnswer "second\nok\n".toList from isAnswer_of_split (by decide)
  refine ⟨hanswers, by rw [after_givenUp], ?_, by decide⟩
  have hlength : (encode (twoAnswers 0)).length = 9 := by
    rw [encode_eq]
    decide
  rw [← hlength]
  exact reply_of_earlier (hanswers 0) (by simp [twoAnswers]) 60 (by decide) ⟨2, "2"⟩

/-! ## Links without a limit -/

/-- **Nothing is late** on a link that never gives a command up, if every command is a line. -/
structure Prompt (w : Wire) : Prop where
  unlimited : w.link.limit = none
  queue : ∀ r ∈ w.link.queue, '\n' ∉ r.command.toList
  line : ∀ r : LinkRequest, w.link.current = some r → '\n' ∉ r.command.toList
  late : ∀ r : LinkRequest, w.link.current = some r → w.late = []
  unread : w.link.current = none → w.unread = []

theorem Prompt.take {w : Wire} (h : w.Prompt) : (w.signal answers .take).1.Prompt := by
  rcases w.link.step_take with heq | ⟨link', r, heq, htakes⟩
  · rw [signal_of_step heq]
    exact h
  · rw [signal_of_step heq, List.foldl_cons, List.foldl_nil, note]
    have hqueue := h.queue
    rw [htakes.queue, List.forall_mem_cons] at hqueue
    refine ⟨htakes.limit.trans h.unlimited, hqueue.2, ?_, fun _ _ => h.unread htakes.free, ?_⟩
    · intro r' hcur
      obtain rfl := Option.some.inj (htakes.current.symm.trans hcur)
      exact hqueue.1
    · intro hcur
      exact absurd (htakes.current.symm.trans hcur) (by simp)

theorem Prompt.read (hanswers : ∀ line : Nat, IsAnswer (answers line).toList) {w : Wire}
    (hfits : w.Fits answers) (halive : w.link.alive = true) (h : w.Prompt) (count : Nat) :
    (w.step answers (.read count)).1.Prompt := by
  rw [step]
  rcases w.link.step_received ((w.unread.take count).map Prod.snd) with
    ⟨heq, hfree⟩ | ⟨r, -, hcur, ⟨-, heq⟩ | ⟨taken, left, hsplit, heq⟩⟩
  · rw [signal_of_step (w := w.readOff count) heq]
    refine ⟨h.unlimited, h.queue, h.line, h.late, fun hcur => ?_⟩
    exact List.drop_eq_nil_of_le (by rw [h.unread hcur]; exact Nat.zero_le _)
  · rw [signal_of_step (w := w.readOff count) heq]
    refine ⟨h.unlimited, h.queue, h.line, h.late, fun hfree => ?_⟩
    exact absurd (hcur.symm.trans hfree) (by simp)
  · rw [signal_of_step (w := w.readOff count) heq]
    refine ⟨h.unlimited, h.queue, nofun, nofun, fun _ => ?_⟩
    -- all that was said was gathered, so that nothing is left
    obtain ⟨before, source, -, hread, hshown, htaken, hall, -⟩ := hfits.source halive hcur hsplit
    rw [h.late r hcur, List.nil_append] at hall
    have hsource := eq_said hanswers (h.line r hcur)
      (hall ▸ hread.trans (List.prefix_append _ _)) hshown htaken
    have hlength := hread.length_le
    rw [hsource, ← hall, List.length_append] at hlength
    have hnone : (w.readOff count).unread = [] := List.eq_nil_of_length_eq_zero (by omega)
    exact hnone

theorem Prompt.signal {w : Wire} (h : w.Prompt) {s : Signal}
    (hreceived : ∀ bytes : List UInt8, s ≠ .received bytes)
    (hline : ∀ r : LinkRequest, s = .submit r → '\n' ∉ r.command.toList)
    (halive : (w.signal answers s).1.link.alive = true) : (w.signal answers s).1.Prompt := by
  rw [link_signal] at halive
  have hstep : w.link.step s = w.link.stepAlive s := by
    rw [Link.step.eq_def, if_pos (Link.alive_of_step halive)]
  cases s with
  | take => exact h.take
  | received bytes => exact absurd rfl (hreceived bytes)
  | submit r =>
    rw [signal_of_step hstep]
    refine ⟨h.unlimited, ?_, h.line, h.late, h.unread⟩
    intro r' hr'
    rcases List.mem_append.1 hr' with hmem | hmem
    · exact h.queue r' hmem
    · rw [List.mem_singleton.1 hmem]
      exact hline r rfl
  | expired =>
    rw [Link.stepAlive, Link.expire, h.unlimited] at hstep
    rw [signal_of_step hstep]
    exact h
  | _ =>
    -- the link is dead
    rw [hstep] at halive
    exact absurd halive Bool.false_ne_true

theorem Prompt.step (hanswers : ∀ line : Nat, IsAnswer (answers line).toList) {w : Wire}
    (hfits : w.Fits answers) (h : w.link.alive = true → w.Prompt) {e : Event}
    (hline : ∀ r : LinkRequest, e = .signal (.submit r) → '\n' ∉ r.command.toList)
    (halive : (w.step answers e).1.link.alive = true) : (w.step answers e).1.Prompt := by
  cases e with
  | read count =>
    rw [Wire.step, link_signal] at halive
    have hold : w.link.alive = true := Link.alive_of_step halive
    exact (h hold).read hanswers hfits hold count
  | signal s =>
    by_cases hreceived : ∃ bytes : List UInt8, s = .received bytes
    · obtain ⟨bytes, rfl⟩ := hreceived
      exact h halive
    · have hstep : w.step answers (.signal s) = w.signal answers s := by
        rw [Wire.step]
        exact fun bytes hs => hreceived ⟨bytes, hs⟩
      rw [hstep] at halive ⊢
      have hold := Link.alive_of_step (link_signal w s ▸ halive)
      exact (h hold).signal (fun bytes hs => hreceived ⟨bytes, hs⟩) (fun r hs => hline r (hs ▸ rfl))
        halive

/-- **Without a limit nothing is late**, so that every caller is told the answer to its own
command. -/
theorem late_eq_nil (hanswers : ∀ line : Nat, IsAnswer (answers line).toList) {events : List Event}
    (hlines : ∀ r : LinkRequest, .signal (.submit r) ∈ events → '\n' ∉ r.command.toList)
    (halive : (after answers none events).link.alive = true) {r : LinkRequest}
    (hcur : (after answers none events).link.current = some r) :
    (after answers none events).late = [] := by
  have hrun : ∀ w : Wire, w.Fits answers → (w.link.alive = true → w.Prompt) →
      (events.foldl (fun w e => (w.step answers e).1) w).link.alive = true →
        (events.foldl (fun w e => (w.step answers e).1) w).Prompt := by
    clear halive hcur
    induction events with
    | nil => exact fun w _ h => h
    | cons e events ih =>
      intro w hfits h
      refine ih (fun r hr => hlines r (List.mem_cons_of_mem _ hr)) _ (hfits.step e) ?_
      exact Prompt.step hanswers hfits h fun r he => hlines r (he ▸ List.mem_cons_self)
  refine (hrun _ ?_ (fun _ => ?_) halive).late r hcur
  · exact ⟨by simp, fun _ _ hnone => absurd hnone (by simp)⟩
  · exact ⟨rfl, by simp, by simp, by simp, fun _ => rfl⟩

end Wire

end Stylus
