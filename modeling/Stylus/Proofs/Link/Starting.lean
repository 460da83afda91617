import Stylus.Link.Start
import Stylus.Proofs.Link.Port

/-!
# What a start does, signal by signal

While a link is being started one command is outstanding at a time, and what a signal means for it
decides what becomes of the start.

* `Start.step_quiet`, `Start.step_answered`, `Start.step_ended` — what a signal does;
* `Start.Fails` — **how a start fails**: the link is gone, and nothing more is written;
* `Start.step_patient` — a link whose commands may take any time does the same, until one takes too
  long.
-/

set_option autoImplicit false

namespace Stylus

/-! ## Signals -/

/-- The link is dead, and nobody waits any more. -/
structure Link.Gone (link : Link) : Prop where
  dead : link.alive = false
  current : link.current = none
  queue : link.queue = []

namespace Start

variable {s : Start} {signal : Signal} {link : Link} {effects : List Effect} {batch : Batch}

/-- Nobody is answered. -/
theorem step_quiet (h : s.link.step signal = (link, effects)) (quiet : answer? effects = none) :
    s.step signal = (⟨link, s.phase⟩, effects) := by
  rw [step, h]
  dsimp only
  rw [quiet]
  cases s.phase <;> rfl

theorem step_ended (h : s.link.step signal = (link, effects))
    (ended : ∀ batch : Batch, s.phase ≠ .sending batch) :
    s.step signal = (⟨link, s.phase⟩, effects) := by
  rw [step, h]
  rcases hphase : s.phase with batch | _ | _
  · exact absurd hphase (ended batch)
  · rfl
  · rfl

theorem step_answered (h : s.link.step signal = (link, effects)) (phase : s.phase = .sending batch)
    {result : Except Failure String} (answer : answer? effects = some result) :
    s.step signal = ((goOn link (batch.answered result)).1,
      effects ++ (goOn link (batch.answered result)).2) := by
  rw [step, h, phase]
  dsimp only
  rw [answer]

theorem result_eq_ok {s : Start} : s.result = .ok () ↔ s.phase = .ready := by
  rw [result]
  split
  · exact iff_of_true rfl ‹_›
  · rename_i hphase
    exact iff_of_false nofun hphase

theorem result_eq_error {s : Start} (h : s.phase ≠ .ready) : s.result = .error .noDevice := by
  rw [result]
  split
  · exact absurd ‹_› h
  · rfl

/-- The next command is asked for. -/
theorem goOn_next (alive : link.alive = true) (command : String) (rest answers : List String)
    (text : String) :
    goOn link (Batch.answered ⟨command :: rest, answers⟩ (.ok text)) =
      (⟨{ link with queue := link.queue ++ [⟨0, command⟩] },
        .sending ⟨rest, text :: answers⟩⟩, []) := by
  rw [Batch.answered, Batch.next, goOn, Link.step_submit alive]

/-- **The start has failed**: the link is gone, and has let nothing out but bad news. -/
structure Fails (moved : Start × List Effect) : Prop where
  phase : moved.1.phase = .failed
  gone : moved.1.link.Gone
  failures : ∀ e ∈ moved.2, ∃ (caller : Nat) (f : Failure), e = .reply caller (.error f)

theorem fails_giveUp (h : link.alive = true ∨ link.Gone) : Fails (giveUp link) := by
  rcases h with alive | gone
  · have hstep := Link.step_fatal alive (s := .aborted) rfl
    have hquiet := link.step_quiet (s := .aborted) nofun nofun
    refine ⟨rfl, ?_, hquiet.failures⟩
    rw [giveUp, hstep]
    exact ⟨rfl, rfl, rfl⟩
  · rw [giveUp, Link.step_dead gone.dead]
    exact ⟨rfl, gone, by simp [Port.submitted]⟩

theorem fails_expire (phase : s.phase = .sending batch) (alive : s.link.alive = true) :
    Fails s.expire := by
  rw [expire, phase]
  exact fails_giveUp (.inl alive)

/-- A command fails, and with it the start. -/
theorem fails_step {f : Failure} (phase : s.phase = .sending batch)
    (h : s.link.step signal = (link, [.reply 0 (.error f)]))
    (left : link.alive = true ∨ link.Gone) :
    Fails (s.step signal) := by
  rw [step_answered h phase rfl, Batch.answered]
  have hfails := fails_giveUp left
  refine ⟨hfails.phase, hfails.gone, ?_⟩
  rintro e (_ | ⟨_, he⟩)
  · exact ⟨0, f, rfl⟩
  · exact hfails.failures e he

end Start

/-! ## Commands that may take any time -/

/-- A link whose commands may take any time. -/
def Link.patient (link : Link) : Link :=
  { link with limit := none }

theorem Link.step_patient (link : Link) {s : Signal} (other : s ≠ .expired) :
    link.patient.step s = ((link.step s).1.patient, (link.step s).2) := by
  rcases link with ⟨limit, buffer, current, queue, _ | _⟩
  · rcases s with _ | _ | _ | _ | _ | _ | _ | _ <;> rfl
  · rcases s with r | _ | lot | _ | _ | reason | reason | _
    · rfl
    · rcases current with _ | _ <;> rcases queue with _ | _ <;> rfl
    · rcases current with _ | _
      · rfl
      · rcases h : (buffer.push lot).takeResponse with ⟨_ | text, rest⟩ <;>
          simp [patient, step, stepAlive, receive, settle, h]
    · exact absurd rfl other
    all_goals rcases current with _ | _ <;> rfl

namespace Start

/-- The same, for a link whose commands may take any time. -/
def patient (s : Start) : Start :=
  { s with link := s.link.patient }

theorem giveUp_patient (link : Link) :
    giveUp link.patient = ((giveUp link).1.patient, (giveUp link).2) := by
  rw [giveUp, link.step_patient (s := .aborted) nofun]
  rfl

theorem goOn_patient (link : Link) (batched : Batched) :
    goOn link.patient batched = ((goOn link batched).1.patient, (goOn link batched).2) := by
  rcases batched with ⟨command, batch⟩ | _ | _
  · rw [goOn, link.step_patient (s := .submit _) nofun]
    rfl
  · exact giveUp_patient link
  · rfl

theorem step_patient (s : Start) {signal : Signal} (other : signal ≠ .expired) :
    s.patient.step signal = ((s.step signal).1.patient, (s.step signal).2) := by
  rcases hstep : s.link.step signal with ⟨link, effects⟩
  have hpatient : s.patient.link.step signal = (link.patient, effects) := by
    rw [patient, s.link.step_patient other, hstep]
  rcases hphase : s.phase with batch | _ | _
  · rcases hanswer : answer? effects with _ | result
    · rw [step_quiet hstep hanswer, step_quiet hpatient hanswer]
      rfl
    · rw [step_answered hstep hphase hanswer, step_answered hpatient hphase hanswer, goOn_patient]
  · rw [step_ended hstep (by simp [hphase]), step_ended hpatient (by simp [patient, hphase])]
    rfl
  · rw [step_ended hstep (by simp [hphase]), step_ended hpatient (by simp [patient, hphase])]
    rfl

end Start

end Stylus
