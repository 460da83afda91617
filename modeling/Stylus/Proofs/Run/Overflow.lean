import Stylus.Proofs.Run.Moves

/-!
# How many passes can be counted

All loops of a script count in one place, and the count goes on when the passes are used up: every
loop behind the first one adds to it once more.  The place holds a word, so a script with very many
passes and some loops more takes the count beyond the last number.  It is zero then, and a loop that
had made all its passes goes back to its mark.

* `Bench.overflows` — by an event a loop is counted beyond the last number;
* `Script.CountFits` — passes and loops together are few enough;
* `Cursor.Tallied` — what the count is as long as it has not overflown;
* `Bench.count_fits` — **the count of a run fits if passes and loops are few enough**, and in a run
  that is completed only then;
* `Bench.count_overflows` — a run whose count does not.
-/

set_option autoImplicit false

namespace Stylus

/-- Passes and loops together are few enough to be counted. -/
def Script.CountFits (script : Script) : Prop :=
  script.iterationCount.toNat + script.steps.count .loop ≤ UInt32.size

namespace Bench

/-- By the event a loop with a mark is begun that is one more than can be counted. -/
def overflows (b : Bench) (e : Event) : Prop :=
  ∃ run : Run, b.begins? e = some (run, .loop) ∧ run.cursor.mark.isSome = true ∧
    run.cursor.iterCount.toNat + 1 = UInt32.size

/-- Somewhere along the events, before the run of the account has ended, its count overflows. -/
def OverflowsIn : Bench × Account → List Event → Prop
  | _, [] => False
  | s, e :: events => s.2.ended = none ∧ s.1.overflows e ∨ OverflowsIn (watch s e) events

/-! ## Few enough -/

/-- On its course a cursor is never at a loop that is one too many. -/
theorem not_full_of_onCourse {script : Script} {c : Cursor} (h : c.OnCourse script)
    (hs : script.steps[c.stepIndex]? = some .loop) : c.iterCount.toNat + 1 < UInt32.size := by
  obtain ⟨l, hl, hli⟩ := Script.firstLoop?_le hs
  rcases Nat.lt_or_eq_of_le hli with hlt | rfl
  · -- of the loops that are still to be counted this is one
    have hsize := (h.beyond l hl hlt).2.2.2
    obtain ⟨hi, hs'⟩ := List.getElem?_eq_some_iff.mp hs
    rw [List.drop_eq_getElem_cons hi, hs', List.count_cons_self] at hsize
    omega
  · have hcount := (h.within _ hl (Nat.le_refl _)).2
    have hpasses := script.iterationCount.toNat_lt_size
    omega

theorem not_overflowsIn_of_accounted {plan : Plan} {s : Bench × Account} (h : Accounted plan s)
    (fits : plan.script.CountFits) (events : List Event) : ¬ OverflowsIn s events := by
  induction events generalizing s with
  | nil => exact id
  | cons e events ih =>
    rintro (⟨active, run, begins, -, full⟩ | later)
    · obtain ⟨-, ⟨run', rfl, underway⟩ | ⟨ended, -⟩⟩ := h
      · have he : e = .decide := by
          cases e with
          | decide => rfl
          | _ => cases begins
        obtain ⟨hr, -, -, hs⟩ := begins?_decide.mp (he ▸ begins)
        obtain rfl := underway.eq_run hr
        have hfull := not_full_of_onCourse underway.course hs
        omega
      · rw [active] at ended
        cases ended
    · exact ih (h.watch fits e) later

end Bench

/-! ## The count while it has not overflown -/

namespace Script

theorem count_loop_of_first {script : Script} {l : Nat} (h : script.firstLoop? = some l) :
    script.steps.count .loop = (script.steps.drop (l + 1)).count .loop + 1 := by
  obtain ⟨hloop, hbefore⟩ := firstLoop?_eq_some.mp h
  obtain ⟨hl, hl'⟩ := List.getElem?_eq_some_iff.mp hloop
  have hnone : (script.steps.take l).count .loop = 0 := by
    refine List.count_eq_zero.mpr fun hm => ?_
    obtain ⟨j, hj, hj'⟩ := List.mem_take_iff_getElem.mp hm
    refine hbefore j (by omega) ?_
    rw [List.getElem?_eq_getElem (by omega), hj']
  conv => lhs; rw [← List.take_append_drop l script.steps, List.count_append, hnone]
  rw [List.drop_eq_getElem_cons hl, hl', List.count_cons_self]
  omega

end Script

namespace Cursor

/-- **What the count is as long as it has not overflown.** -/
structure Tallied (script : Script) (c : Cursor) : Prop where
  iterations : c.iterations = script.iterationCount
  mark : ∀ m, c.mark = some m → m < c.stepIndex
  /-- up to the first loop passes are left -/
  within : ∀ l, script.firstLoop? = some l → c.stepIndex ≤ l →
    c.iterCount.toNat < script.iterationCount.toNat
  /-- behind it none are, and the loops to come make the count full -/
  beyond : ∀ l, script.firstLoop? = some l → l < c.stepIndex →
    script.iterationCount.toNat ≤ c.iterCount.toNat ∧
      c.iterCount.toNat + (script.steps.drop c.stepIndex).count .loop + 1 =
        script.iterationCount.toNat + script.steps.count .loop

namespace Tallied

theorem start (script : Script) : Tallied script (Cursor.start script.iterationCount) where
  iterations := rfl
  mark _ h := by cases h
  within _ _ _ := script.iterationCount_pos
  beyond l _ h := absurd h (Nat.not_lt_zero l)

/-- A step that is not a loop. -/
theorem pass {script : Script} {c c' : Cursor} (h : Tallied script c) {step : Step}
    (hs : script.steps[c.stepIndex]? = some step) (hstep : step ≠ .loop)
    (index : c'.stepIndex = c.stepIndex + 1) (mark : c'.mark = c.mark ∨ c'.mark = some c.stepIndex)
    (count : c'.iterCount = c.iterCount) (iterations : c'.iterations = c.iterations) :
    Tallied script c' where
  iterations := iterations.trans h.iterations
  mark m hm := by
    rw [index]
    rcases mark with hc | hc <;> rw [hc] at hm
    · exact Nat.lt_succ_of_lt (h.mark m hm)
    · cases hm
      exact Nat.lt_succ_self _
  within l hl hle := by
    rw [index] at hle
    exact count ▸ h.within l hl (Nat.le_of_succ_le hle)
  beyond l hl hlt := by
    rw [index] at hlt ⊢
    have hne := Script.firstLoop?_ne hs hstep hl
    have hbeyond := h.beyond l hl (by omega)
    obtain ⟨hi, hs'⟩ := List.getElem?_eq_some_iff.mp hs
    rw [List.drop_eq_getElem_cons hi, hs', List.count_cons_of_ne hstep] at hbeyond
    rwa [count]

/-- A loop that can be counted goes back only if it is the first. -/
theorem loop {script : Script} {c c' : Cursor} (h : Tallied script c)
    (hs : script.steps[c.stepIndex]? = some .loop)
    (room : c.mark.isSome = true → c.iterCount.toNat + 1 ≠ UInt32.size)
    (taken : c.loopBack = .done c') : Tallied script c' := by
  obtain ⟨l, hl, hli⟩ := Script.firstLoop?_le hs
  cases hm : c.mark with
  | none =>
    rw [OnCourse.loopBack_stuck hm] at taken
    cases taken
  | some m =>
    have hword := c.iterCount.toNat_lt_size
    have hfull := room (by rw [hm]; rfl)
    have hcount := OnCourse.toNat_iterCount_succ (c := c) (by omega)
    have hlt_iff : c.iterCount + 1 < c.iterations ↔
        c.iterCount.toNat + 1 < script.iterationCount.toNat := by
      rw [UInt32.lt_iff_toNat_lt, hcount, h.iterations]
    by_cases hagain : c.iterCount + 1 < c.iterations
    · rw [OnCourse.loopBack_again hm hagain] at taken
      cases taken
      -- passes are left, so this is the first loop, and the mark lies before it
      have hfirst : l = c.stepIndex := by
        rcases Nat.lt_or_eq_of_le hli with hlt | heq
        · have hle := (h.beyond l hl hlt).1
          have hpasses := hlt_iff.mp hagain
          omega
        · exact heq
      have hml := h.mark m hm
      refine ⟨h.iterations, ?_, ?_, ?_⟩
      · intro m' hm'
        obtain rfl := Option.some.inj (hm.symm.trans hm')
        exact Nat.lt_succ_self m
      · intro _ _ _
        rw [hcount]
        exact hlt_iff.mp hagain
      · intro k hk hlt
        cases hl.symm.trans hk
        have hlt : l < m + 1 := hlt
        omega
    · rw [OnCourse.loopBack_through hm hagain] at taken
      cases taken
      have hpasses : script.iterationCount.toNat ≤ c.iterCount.toNat + 1 :=
        Nat.le_of_not_lt fun hlt => hagain (hlt_iff.mpr hlt)
      refine ⟨h.iterations, ?_, ?_, ?_⟩
      · intro m' hm'
        exact Nat.lt_succ_of_lt (h.mark m' hm')
      · intro k hk hle
        cases hl.symm.trans hk
        have hle : c.stepIndex + 1 ≤ l := hle
        omega
      · intro k hk _
        cases hl.symm.trans hk
        rw [hcount]
        refine ⟨hpasses, ?_⟩
        rcases Nat.lt_or_eq_of_le hli with hlt | rfl
        · have hbeyond := (h.beyond l hl hlt).2
          obtain ⟨hi, hs'⟩ := List.getElem?_eq_some_iff.mp hs
          rw [List.drop_eq_getElem_cons hi, hs', List.count_cons_self] at hbeyond
          show c.iterCount.toNat + 1 + (script.steps.drop (c.stepIndex + 1)).count .loop + 1 = _
          omega
        · have hwithin := h.within _ hl (Nat.le_refl _)
          have hloops := Script.count_loop_of_first hl
          show c.iterCount.toNat + 1 + (script.steps.drop (c.stepIndex + 1)).count .loop + 1 = _
          omega

/-- A step that is done at once, the count not overflowing. -/
theorem done {plan : Plan} {c c' : Cursor} (h : Tallied plan.script c) {step : Step} {now : Nat}
    (hs : plan.script.steps[c.stepIndex]? = some step)
    (room : step = .loop → c.mark.isSome = true → c.iterCount.toNat + 1 ≠ UInt32.size)
    (taken : c.take plan now step = .done c') : Tallied plan.script c' := by
  cases take_iff.mp taken with
  | wait => exact h.pass hs (by simp) rfl (.inl rfl) rfl rfl
  | mark => exact h.pass hs (by simp) rfl (.inr rfl) rfl rfl
  | again => exact h.loop hs (room rfl) taken
  | through => exact h.loop hs (room rfl) taken

/-- A step that came to a turn. -/
theorem turn {plan : Plan} {c : Cursor} (h : Tallied plan.script c) {step : Step} {now : Nat}
    {stages : List Stage} (hs : plan.script.steps[c.stepIndex]? = some step)
    (taken : c.take plan now step = .turn stages) : Tallied plan.script c.advance := by
  have hloop : step ≠ .loop := by
    rintro rfl
    cases take_iff.mp taken
  exact h.pass hs hloop rfl (.inl rfl) rfl rfl

/-- Behind the last step the count says whether all of it fitted. -/
theorem behind {script : Script} {c : Cursor} (h : Tallied script c)
    (hs : script.steps[c.stepIndex]? = none) : script.CountFits := by
  have hi : script.steps.length ≤ c.stepIndex := List.getElem?_eq_none_iff.mp hs
  have hword := c.iterCount.toNat_lt_size
  have hpasses := script.iterationCount.toNat_lt_size
  rw [Script.CountFits]
  cases hl : script.firstLoop? with
  | none =>
    have hnone : script.steps.count .loop = 0 := by
      rw [Script.firstLoop?, List.findIdx?_eq_none_iff] at hl
      exact List.count_eq_zero.mpr fun hm => by simpa using hl _ hm
    omega
  | some l =>
    have hbeyond := (h.beyond l hl (Nat.lt_of_lt_of_le (Script.firstLoop?_lt hl) hi)).2
    rw [List.drop_eq_nil_of_le hi] at hbeyond
    simp only [List.count_nil] at hbeyond
    omega

end Tallied

end Cursor

/-! ## Runs -/

namespace Bench

/-- The run is under way and its count is known, or it has ended, and if it is completed the count
fitted. -/
def Counted (plan : Plan) (b : Bench) (a : Account) : Prop :=
  (∃ run : Run, b.run = some run ∧ run.plan = plan ∧ run.cursor.Tallied plan.script ∧
      a.ended = none) ∨
    (a.ended.isSome = true ∧ (a.ended = some (.ok .completed) → plan.script.CountFits))

theorem Counted.event {plan : Plan} {b : Bench} {a : Account} (h : Counted plan b a) (hs : b.Sound)
    {e : Event} (room : a.ended = none → ¬ b.overflows e) :
    Counted plan (b.step e) (a.note b e) := by
  rcases h with ⟨run, hr, rfl, tallied, active⟩ | ⟨ended, fits⟩
  · have hm := runMove hs hr e
    generalize hstep : b.step e = b' at hm ⊢
    -- the run is still there with a count that is known, or the event has ended it
    have goesOn {run' : Run} (run_eq : b'.run = some run') (plan_eq : run'.plan = run.plan)
        (tallied' : run'.cursor.Tallied run.plan.script) : Counted run.plan b' (a.note b e) :=
      .inl ⟨run', run_eq, plan_eq, tallied', Account.ended_of_run active hstep run_eq⟩
    have ends {bench : Bench} {result : Except Failure RunOutcome} (hend : b' = bench.endRun result)
        (fits : result = .ok .completed → run.plan.script.CountFits) :
        Counted run.plan b' (a.note b e) := by
      have hended := Account.ended_of_endRun active hr (hstep.trans hend)
      refine .inr ⟨by rw [hended]; rfl, fun hc => fits ?_⟩
      rw [hended] at hc
      exact Option.some.inj hc
    cases hm with
    | stays run_eq => exact goesOn run_eq rfl tallied
    | wakes resting run_eq => exact goesOn run_eq rfl tallied
    | rests => exact goesOn rfl rfl tallied
    | begins => exact goesOn (queue_run _ _ _) rfl tallied
    | @does step cursor begins taken =>
      obtain ⟨-, -, -, hstep'⟩ := begins?_decide.mp begins
      refine goesOn rfl rfl (tallied.done hstep' ?_ taken)
      rintro rfl marked full
      exact room active ⟨run, begins, marked, full⟩
    | refused => exact ends rfl (by simp)
    | passes working =>
      obtain ⟨now, step, stages, hstep', taken⟩ := hs.step run hr working
      exact goesOn rfl rfl (tallied.turn hstep' taken)
    | fails => exact ends rfl (by simp)
    | stopped => exact ends rfl (by simp)
    | completed boundary calm behind => exact ends rfl fun _ => tallied.behind behind
  · rw [Account.note_of_ended ended]
    exact .inr ⟨ended, fits⟩

/-- A run that is completed without an overflow had a count that fits. -/
theorem Counted.completed {plan : Plan} {b : Bench} {a : Account} (h : Counted plan b a)
    (hs : b.Sound) {events : List Event} (room : ¬ OverflowsIn (b, a) events)
    (completed : (events.foldl watch (b, a)).2.ended = some (.ok .completed)) :
    plan.script.CountFits := by
  induction events generalizing b a with
  | nil =>
    rcases h with ⟨-, -, -, -, active⟩ | ⟨-, fits⟩
    · cases active.symm.trans completed
    · exact fits completed
  | cons e events ih =>
    have hevent := h.event hs (e := e) fun active overflows => room (.inl ⟨active, overflows⟩)
    exact ih hevent (hs.step_event e) (fun later => room (.inr later)) completed

/-- **Which runs can be counted.**  Whatever has happened before the request and whatever happens
after it, the count of a run does not overflow if its passes and its loops together are few enough;
and if it does not, they were, in case the run is completed. -/
theorem count_fits {settings : MotionSettings} {before : List Event} {r : RunRequest} {b : Bench}
    (accepted : ((fresh settings).steps before).request r = .ok b) (events : List Event) :
    (r.script.CountFits → ¬ OverflowsIn (b, {}) events) ∧
      ((b.account events).ended = some (.ok .completed) → ¬ OverflowsIn (b, {}) events →
        r.script.CountFits) := by
  have hs := (Sound.of_fresh settings).steps before
  cases hp : r.plan with
  | error f =>
    rw [request_of_fault hp] at accepted
    cases accepted
  | ok plan =>
    have hs' := hs.request accepted
    have hstart := (request_of_plan hp).symm.trans accepted
    rw [← plan_script hp]
    refine ⟨fun fits => not_overflowsIn_of_accounted (.start hstart hs') fits events, ?_⟩
    intro completed room
    refine Counted.completed (.inl ?_) hs' room completed
    rw [start] at hstart
    split at hstart
    · cases hstart
    · cases hstart
      exact ⟨_, rfl, rfl, .start plan.script, rfl⟩

/-- A script with two loops, to be passed through twice. -/
def twoLoops : RunRequest where
  script := { iterations := some (.count 2), steps := [.mark, .loop, .mark, .loop] }
  left := some {}

theorem count_fits_twoLoops :
    ∃ b : Bench, ((fresh {}).steps []).request twoLoops = .ok b ∧
      (b.account (List.replicate 6 .decide)).ended = some (.ok .completed) ∧
      twoLoops.script.CountFits ∧ ¬ OverflowsIn (b, {}) (List.replicate 6 .decide) := by
  have fits : twoLoops.script.CountFits := by
    show 2 + 2 ≤ UInt32.size
    decide
  exact ⟨_, rfl, rfl, fits, (@count_fits {} [] twoLoops _ rfl (List.replicate 6 .decide)).1 fits⟩

/-! ## Too many -/

/-- A script with as many passes as there can be, and one loop more. -/
def endless : RunRequest where
  script := { iterations := some (.count 4294967295), steps := [.mark, .loop, .loop] }
  left := some {}

/-- The run of that script after some events, at the position and with the count given. -/
def Turning (b : Bench) (stepIndex : Nat) (count : UInt32) : Prop :=
  b.runner.control = {} ∧ ∃ run : Run, b.run = some run ∧ run.phase = .boundary ∧
    run.plan.script = endless.script ∧ run.cursor.stepIndex = stepIndex ∧
    run.cursor.mark = some 0 ∧ run.cursor.iterCount = count ∧
    run.cursor.iterations = 4294967295

/-- What one of its loops does. -/
theorem Turning.decide {b : Bench} {stepIndex : Nat} {count : UInt32}
    (h : b.Turning stepIndex count) (hs : endless.script.steps[stepIndex]? = some .loop) :
    (b.step .decide).Turning (if count + 1 < 4294967295 then 1 else stepIndex + 1) (count + 1) := by
  obtain ⟨calm, run, hr, boundary, hscript, rfl, hm, rfl, hi⟩ := h
  have hloop : run.plan.script.steps[run.cursor.stepIndex]? = some .loop := hscript ▸ hs
  have hstep : b.step .decide =
      match run.cursor.loopBack with
      | .done cursor => b.passStep run cursor
      | _ => b.step .decide := by
    split
    · rename_i cursor hc
      simp [Bench.step, Bench.decide, hr, boundary, calm, hloop, Cursor.take, hc]
    · rfl
  by_cases hlt : run.cursor.iterCount + 1 < 4294967295
  · rw [if_pos hlt]
    rw [Cursor.OnCourse.loopBack_again hm (by rw [hi]; exact hlt)] at hstep
    rw [hstep]
    exact ⟨calm, _, rfl, rfl, hscript, rfl, hm, rfl, hi⟩
  · rw [if_neg hlt]
    rw [Cursor.OnCourse.loopBack_through hm (by rw [hi]; exact hlt)] at hstep
    rw [hstep]
    exact ⟨calm, _, rfl, rfl, hscript, rfl, hm, rfl, hi⟩

/-- The first loop is begun again and again. -/
theorem Turning.again {b : Bench} (h : b.Turning 1 0) {n : Nat} (hn : n < 4294967295) :
    (b.steps (List.replicate n .decide)).Turning 1 (UInt32.ofNat n) := by
  induction n with
  | zero => exact h
  | succ n ih =>
    have hstep := (ih (by omega)).decide rfl
    have hcount : UInt32.ofNat n + 1 = UInt32.ofNat (n + 1) := (UInt32.ofNat_add n 1).symm
    have hword : n + 1 < UInt32.size := Nat.lt_trans hn (by decide)
    have hlt : UInt32.ofNat (n + 1) < 4294967295 := by
      rw [UInt32.lt_iff_toNat_lt, UInt32.toNat_ofNat_of_lt' hword]
      exact hn
    rw [hcount, if_pos hlt] at hstep
    rw [List.replicate_succ', steps_append]
    exact hstep

/-- When it has been begun as often as there are passes, the second one is next. -/
theorem Turning.full {b : Bench} (h : b.Turning 1 0) {n : Nat} (hn : n = 4294967295) :
    (b.steps (List.replicate n .decide)).Turning 2 4294967295 := by
  obtain ⟨m, rfl⟩ : ∃ m, n = m + 1 := ⟨4294967294, hn⟩
  have hlast := (h.again (n := m) (by omega)).decide rfl
  have hcount : UInt32.ofNat m + 1 = UInt32.ofNat (m + 1) := (UInt32.ofNat_add m 1).symm
  rw [hcount, hn] at hlast
  rw [List.replicate_succ', steps_append]
  exact hlast

/-- **A count that overflows**: when the first loop has made all its passes, the second one is one
too many.  The count is zero again, and the run goes back to the mark. -/
theorem count_overflows :
    ∃ b : Bench, (fresh {}).request endless = .ok b ∧
      let full := (b.step .decide).steps (List.replicate 4294967295 .decide)
      full.Turning 2 4294967295 ∧ full.overflows .decide ∧ (full.step .decide).Turning 1 0 := by
  refine ⟨(fresh {}).step (.request endless), rfl, ?_⟩
  intro full
  have hmark : (((fresh {}).step (.request endless)).step .decide).Turning 1 0 :=
    ⟨rfl, _, rfl, rfl, rfl, rfl, rfl, rfl, rfl⟩
  have hfull : full.Turning 2 4294967295 := hmark.full rfl
  refine ⟨hfull, ?_, hfull.decide rfl⟩
  obtain ⟨calm, run, hr, boundary, hscript, hindex, hm, hcount, -⟩ := hfull
  refine ⟨run, begins?_decide.mpr ⟨hr, boundary, calm, ?_⟩, by rw [hm]; rfl, by rw [hcount]; rfl⟩
  rw [hscript, hindex]
  rfl

end Bench

end Stylus
