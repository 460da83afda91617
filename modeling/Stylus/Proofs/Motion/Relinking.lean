import Stylus.Proofs.Motion.Setbacks

/-!
# When a link is made, and when it is given up

The controller makes a link when it needs one, and gives it up when a command fails in a way that
means that the plotter is gone.

* `Course.Ends.attempts_eq_one_iff` — when an operation asks for a link;
* `Course.Ends.linked_iff` — whether there is a link when an operation is over;
* `Relinked` — since a link was last lost, another one has been made;
* `Logbook.Chain.relinked` — so it is whenever there is a link;
* `Drive.links_renewed` — **links are made exactly when needed, and a lost link is never used
  again**, along every history.
-/

set_option autoImplicit false

namespace Stylus

theorem Failure.isLinkLost_iff {f : Failure} :
    f.isLinkLost = true ↔ f = .noDevice ∨ ∃ reason, f = .io reason := by
  cases f <;> simp [isLinkLost]

/-! ## Attempts -/

/-- A link is asked for. -/
def Ask.isLink : Ask → Bool
  | .link => true
  | .command _ => false

namespace Course

/-- How often a link was asked for. -/
def attempts (x : Course) : Nat :=
  (x.record.map Answered.ask).countP Ask.isLink

/-- The operation needs the plotter homed, and it is not. -/
def Refused (x : Course) : Prop :=
  x.op.needsHome = true ∧ x.before.pose.homed = false

variable {x : Course} {c : Controller} {result : Except Failure String}

/-- After asking for a link, if there is none, only commands are asked for. -/
theorem attempts_of_asks {lines : List Gcode}
    (asks : x.record.map Answered.ask = x.opening ++ lines.map Ask.command) :
    x.attempts = if x.before.linked then 0 else 1 := by
  have hlines : (lines.map Ask.command).countP Ask.isLink = 0 := by
    rw [List.countP_eq_zero]
    simp [Ask.isLink]
  rw [attempts, asks, List.countP_append, hlines, opening]
  split <;> rfl

theorem Under.attempts_le {work : Work} {done : List Leg} {leg : Leg} {acked : List Gcode}
    (h : x.Under c work done leg acked) : x.attempts ≤ 1 := by
  cases hl : work.linking with
  | true =>
    obtain ⟨-, -, -, hrecord⟩ := h.linking hl
    simp [attempts, hrecord]
  | false =>
    rw [attempts_of_asks (h.asks hl)]
    split <;> omega

namespace Ends

/-- The first thing asked for, unless the operation is refused: a link, if there is none. -/
theorem asks_cases (h : x.Ends c result) :
    x.Refused ∧ x.record = [] ∨ ¬ x.Refused ∧ x.record ≠ [] ∧
      ∃ lines : List Gcode, x.record.map Answered.ask = x.opening ++ lines.map Ask.command := by
  have hbegun (begun : x.op.needsHome = true → x.before.pose.homed = true) : ¬ x.Refused := by
    rintro ⟨needs, unhomed⟩
    cases (begun needs).symm.trans unhomed
  cases h with
  | refused needs unhomed silent _ => exact .inl ⟨⟨needs, unhomed⟩, silent⟩
  | unlinked begun without record _ =>
    refine .inr ⟨hbegun begun, by simp [record], [], ?_⟩
    simp [record, opening, without]
  | @broken _ done rest leg acked unsent line good begun _ _ record _ asks _ =>
    refine .inr ⟨hbegun begun, by simp [record], Leg.allLines done ++ acked ++ [line], ?_⟩
    simp [record, asks]
  | done begun record _ asks _ => exact .inr ⟨hbegun begun, by simp [record], _, asks⟩

/-- **A refused operation asks for nothing, and every other one for something.** -/
theorem record_eq_nil_iff (h : x.Ends c result) : x.record = [] ↔ x.Refused := by
  rcases h.asks_cases with ⟨refused, silent⟩ | ⟨begun, asked, -⟩
  · exact iff_of_true silent refused
  · exact iff_of_false asked begun

theorem attempts_eq_one_iff (h : x.Ends c result) :
    x.attempts = 1 ↔ x.record ≠ [] ∧ x.before.linked = false := by
  rcases h.asks_cases with ⟨-, silent⟩ | ⟨-, asked, lines, asks⟩
  · simp [attempts, silent]
  · rw [attempts_of_asks asks]
    cases x.before.linked <;> simp [asked]

theorem attempts_le (h : x.Ends c result) : x.attempts ≤ 1 := by
  rcases h.asks_cases with ⟨-, silent⟩ | ⟨-, -, lines, asks⟩
  · simp [attempts, silent]
  · rw [attempts_of_asks asks]
    split <;> omega

/-! ## The link when an operation is over -/

/-- A link that is not made is the end of the operation. -/
theorem of_unlinked (h : x.Ends c result) {f : Failure}
    (hf : (⟨.link, .error f⟩ : Answered) ∈ x.record) :
    x.record = [⟨.link, .error f⟩] ∧ result = .error f ∧ c.linked = false := by
  have hbad {good : List Answered} {line : Gcode} {a : Except Failure String}
      (all_good : ∀ y ∈ good, y.Good) (record : x.record = good ++ [⟨.command line, a⟩]) :
      False := by
    rw [record] at hf
    rcases List.mem_append.mp hf with hf | hf
    · obtain ⟨text, htext⟩ := all_good _ hf
      cases htext
    · cases List.mem_singleton.mp hf
  cases h with
  | refused _ _ silent _ =>
    rw [silent] at hf
    cases hf
  | unlinked _ _ record reached =>
    rw [record] at hf ⊢
    cases List.mem_singleton.mp hf
    exact ⟨rfl, rfl, reached.linked⟩
  | broken _ _ _ record all_good _ _ => exact (hbad all_good record).elim
  | done _ record all_good _ _ => exact (hbad all_good record).elim

/-- **After an operation that asked for anything there is no link** exactly if none was made, or a
command failed in a way that means that the plotter is gone. -/
theorem linked_iff (h : x.Ends c result) (asked : x.record ≠ []) :
    c.linked = false ↔ (∃ f, (⟨.link, .error f⟩ : Answered) ∈ x.record) ∨
      result = .error .noDevice ∨ ∃ reason, result = .error (.io reason) := by
  constructor
  · intro unlinked
    cases h with
    | refused _ _ silent _ => exact absurd silent asked
    | unlinked _ _ record _ => exact .inl ⟨_, record ▸ List.mem_singleton_self _⟩
    | broken _ _ _ _ _ _ reached =>
      have hlost := reached.linked.symm.trans unlinked
      rcases Failure.isLinkLost_iff.mp (by simpa using hlost) with rfl | ⟨reason, rfl⟩
      · exact .inr (.inl rfl)
      · exact .inr (.inr ⟨reason, rfl⟩)
    | done _ _ _ _ reached => cases reached.linked.symm.trans unlinked
  · rintro (⟨f, hf⟩ | failed)
    · exact (h.of_unlinked hf).2.2
    · have hlost : ∃ f, result = .error f ∧ f.isLinkLost = true := by
        rcases failed with rfl | ⟨reason, rfl⟩ <;> exact ⟨_, rfl, rfl⟩
      obtain ⟨f, rfl, lost⟩ := hlost
      cases h with
      | refused => cases lost
      | unlinked _ _ _ reached => exact reached.linked
      | broken _ _ _ _ _ _ reached => rw [reached.linked, lost]; rfl

end Ends

end Course

/-! ## Lost links -/

namespace Answered

/-- A link was made. -/
def MakesLink (y : Answered) : Prop :=
  y.ask = .link ∧ y.Good

/-- A command failed in a way that means that the plotter is gone. -/
def LosesLink (y : Answered) : Prop :=
  ∃ (line : Gcode) (f : Failure), y = ⟨.command line, .error f⟩ ∧
    (f = .noDevice ∨ ∃ reason, f = .io reason)

theorem not_losesLink_of_good {y : Answered} (h : y.Good) : ¬ y.LosesLink := by
  rintro ⟨line, f, rfl, -⟩
  obtain ⟨text, htext⟩ := h
  cases htext

end Answered

/-- Since a link was last lost, another one has been made. -/
def Relinked (record : List Answered) : Prop :=
  ∀ (earlier : List Answered) (y : Answered) (later : List Answered),
    record = earlier ++ y :: later → y.LosesLink → ∃ z ∈ later, z.MakesLink

namespace Relinked

theorem nil : Relinked [] := by
  intro earlier y later h
  simp at h

theorem append {record more : List Answered} (h : Relinked record)
    (kept : ∀ y ∈ more, ¬ y.LosesLink) : Relinked (record ++ more) := by
  intro earlier y later heq lost
  rcases List.append_eq_append_iff.mp heq with ⟨front, rfl, hmore⟩ | ⟨back, hrecord, hback⟩
  · exact absurd lost (kept y (by simp [hmore]))
  · cases back with
    | nil =>
      have hmore : more = y :: later := hback.symm
      exact absurd lost (kept y (hmore ▸ List.mem_cons_self))
    | cons z back =>
      obtain ⟨rfl, rfl⟩ := List.cons.inj hback
      obtain ⟨made, hmade, hlink⟩ := h earlier y back hrecord lost
      exact ⟨made, List.mem_append_left _ hmade, hlink⟩

/-- A link that is made makes good for all that was lost. -/
theorem made {record : List Answered} {y : Answered} (h : y.MakesLink) :
    Relinked (record ++ [y]) := by
  intro earlier lost later heq hlost
  rcases List.eq_nil_or_concat later with rfl | ⟨later, z, rfl⟩
  · obtain ⟨rfl, hy⟩ := List.append_inj' heq rfl
    cases hy
    exact absurd hlost (Answered.not_losesLink_of_good h.2)
  · have heq : record ++ [y] = (earlier ++ lost :: later) ++ [z] := by simpa using heq
    obtain ⟨-, hy⟩ := List.append_inj' heq rfl
    cases hy
    exact ⟨y, by simp, h⟩

/-- What is asked for in the course of an operation that loses no link, and that has had one or made
one. -/
theorem course {record : List Answered} {x : Course} {lines : List Gcode}
    (before : x.before.linked = true → Relinked record)
    (asks : x.record.map Answered.ask = x.opening ++ lines.map Ask.command)
    (made : ∀ y ∈ x.record, y.ask = .link → y.Good) (kept : ∀ y ∈ x.record, ¬ y.LosesLink) :
    Relinked (record ++ x.record) := by
  cases hl : x.before.linked with
  | true => exact (before hl).append kept
  | false =>
    rw [Course.opening, hl] at asks
    obtain ⟨y, rest, hrecord, hy, -⟩ := List.map_eq_cons_iff.mp asks
    rw [hrecord] at made kept ⊢
    rw [List.append_cons]
    have hmade : y.MakesLink := ⟨hy, made y List.mem_cons_self hy⟩
    exact (Relinked.made hmade).append fun z hz => kept z (List.mem_cons_of_mem _ hz)

end Relinked

namespace Course

variable {x : Course} {c : Controller} {record : List Answered}

/-- An operation under way that has a link. -/
theorem Under.relinked {work : Work} {done : List Leg} {leg : Leg} {acked : List Gcode}
    (h : x.Under c work done leg acked) (linked : work.linking = false)
    (before : x.before.linked = true → Relinked record) : Relinked (record ++ x.record) :=
  .course before (h.asks linked) (fun y hy _ => h.good y hy) fun y hy =>
    Answered.not_losesLink_of_good (h.good y hy)

/-- An operation that is over and has left a link. -/
theorem Ends.relinked {result : Except Failure String} (h : x.Ends c result)
    (linked : c.linked = true) (before : x.before.linked = true → Relinked record) :
    Relinked (record ++ x.record) := by
  cases h with
  | refused _ _ silent same =>
    rw [silent, List.append_nil]
    exact before (same ▸ linked)
  | unlinked _ _ _ reached => cases linked.symm.trans reached.linked
  | @broken f done _ _ acked _ line good _ _ _ record all_good asks reached =>
    have kept : f.isLinkLost = false := by simpa using reached.linked.symm.trans linked
    have hasks : x.record.map Answered.ask =
        x.opening ++ (Leg.allLines done ++ acked ++ [line]).map Ask.command := by
      simp [record, asks]
    refine .course before hasks ?_ ?_ <;> rw [record] <;> intro y hy
    · intro hlink
      rcases List.mem_append.mp hy with hy | hy
      · exact all_good y hy
      · cases List.mem_singleton.mp hy
        cases hlink
    · rcases List.mem_append.mp hy with hy | hy
      · exact Answered.not_losesLink_of_good (all_good y hy)
      · cases List.mem_singleton.mp hy
        rintro ⟨_, _, heq, lost⟩
        cases heq
        cases kept.symm.trans (Failure.isLinkLost_iff.mpr lost)
  | @done text _ _ _ record all_good asks _ =>
    have hgood : ∀ y ∈ x.record, y.Good := record ▸ Answered.forall_good_concat all_good _ text
    exact .course before asks (fun y hy _ => hgood y hy) fun y hy =>
      Answered.not_losesLink_of_good (hgood y hy)

end Course

/-! ## Histories -/

namespace Logbook

variable {start c : Controller} {past : List Finished} {d : Drive} {l : Logbook}

/-- **Whenever there is a link, it was made after the last one was lost.** -/
theorem Chain.relinked (h : Chain start past c) (linked : c.linked = true) :
    Relinked (past.flatMap fun x => x.record) := by
  induction h with
  | nil => exact .nil
  | concat before ends ih =>
    rw [List.flatMap_append, List.flatMap_singleton]
    exact ends.relinked linked ih

/-- **When links are made and given up.** -/
structure Renewed (d : Drive) (l : Logbook) : Prop where
  /-- an operation asks for a link at most once -/
  attempts : ∀ x ∈ l.courses, x.attempts ≤ 1
  /-- it asks for anything at all unless it is refused -/
  refused : ∀ x ∈ l.past, x.record = [] ↔ x.Refused
  /-- and it asks for a link if it asks for anything and there is none -/
  wanted : ∀ x ∈ l.past, x.attempts = 1 ↔ x.record ≠ [] ∧ x.before.linked = false
  /-- if a link is not made, that is the end of the operation, nothing is sent, and there is no
  link -/
  unlinked : ∀ x ∈ l.past, ∀ f, (⟨.link, .error f⟩ : Answered) ∈ x.record →
    x.result = .error f ∧ x.sent = [] ∧ x.after.linked = false
  /-- after an operation that asked for anything there is no link exactly if none was made, or a
  command failed in a way that means that the plotter is gone -/
  linked : ∀ x ∈ l.past, x.record ≠ [] → (x.after.linked = false ↔
    (∃ f, (⟨.link, .error f⟩ : Answered) ∈ x.record) ∨
      x.result = .error .noDevice ∨ ∃ reason, x.result = .error (.io reason))
  /-- whenever a command is sent, a link has been made since one was last lost -/
  sending : ∀ (work : Work) (line : Gcode), d.work = some work → work.ask = .command line →
    Relinked l.record

theorem Fits.renewed (h : Fits start d l) : l.Renewed d := by
  obtain ⟨c, chain, -⟩ := h.chain
  refine ⟨?_, fun x hx => (chain.ends hx).record_eq_nil_iff,
    fun x hx => (chain.ends hx).attempts_eq_one_iff, fun x hx f hf => ?_,
    fun x hx asked => (chain.ends hx).linked_iff asked, ?_⟩
  · intro x hx
    rcases List.mem_append.mp hx with hx | hx
    · obtain ⟨y, hy, rfl⟩ := List.mem_map.mp hx
      exact (chain.ends hy).attempts_le
    · cases h with
      | idle => cases hx
      | busy _ _ under =>
        cases List.mem_singleton.mp hx
        exact under.attempts_le
  · obtain ⟨hrecord, hresult, hlinked⟩ := (chain.ends hx).of_unlinked hf
    refine ⟨hresult, ?_, hlinked⟩
    rw [Course.sent, hrecord]
    rfl
  · intro work line hwork hask
    cases h with
    | idle free _ => cases free.symm.trans hwork
    | busy busy hchain under =>
      cases busy.symm.trans hwork
      have linked : work.linking = false := by
        cases hl : work.linking with
        | false => rfl
        | true => cases (Work.ask_of_linking hl).symm.trans hask
      have hrelinked := under.relinked linked hchain.relinked
      simpa [record, courses, List.flatMap_append, List.flatMap_map] using hrelinked

end Logbook

namespace Drive

/-- **Links are made exactly when needed, and a lost link is never used again.**  Whatever the
controller holds at first, whatever operations are begun, and wherever links are not made or
commands fail: see `Logbook.Renewed`. -/
theorem links_renewed (settings : MotionSettings) (linked : Bool) (pose : Pose) (plotter : Plotter)
    (events : List Event) :
    ((resting settings linked pose plotter).watched events).2.Renewed
      ((resting settings linked pose plotter).watched events).1 :=
  (Logbook.fits_watched (d := resting settings linked pose plotter) rfl events).renewed

/-- The link breaks, and the next operation makes another one. -/
def brokenAndRenewed : List Event :=
  [.operate .off, .answer (.error (.io "closed")) false, .operate .off, .answer (.ok "") false,
    .answer (.ok "ok") false]

example (settings : MotionSettings) (pose : Pose) (plotter : Plotter) :
    ((resting settings true pose plotter).watched brokenAndRenewed).2.past.map
      (fun x => (x.attempts, x.after.linked)) = [(0, false), (1, true)] := rfl

end Drive

end Stylus
