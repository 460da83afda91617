import Stylus.Proofs.Run.Taking

/-!
# Scripts unrolled

A script says in which order its steps are carried out by marks and loops, and a run finds the order
by moving a cursor, whose mark and count change on the way.  `Script.unrolling` says the same at a
glance: it is read off the positions of the first loop and of the last mark before it, and no
counter occurs in it.

* `Script.unrolling` — the order of a script;
* `Script.ahead` — what of it is still to come at a position, with a number of passes left;
* `Cursor.OnCourse` — what holds of the cursor of a run at each boundary between steps;
* `Cursor.OnCourse.turn`, `Cursor.OnCourse.done` — a step takes the cursor one place along the
  unrolling;
* `Cursor.OnCourse.failed` — one that fails is the next of it, or the loop that it gets stuck at.

The mark of the cursor is the last one before it only up to the first loop.  Behind that loop marks
may come up in any order, but by then the passes are used up, and no loop looks at the mark again
except to find that there is one.
-/

set_option autoImplicit false

namespace Stylus

/-! ## The order of a script -/

/-- An order in which steps are carried out, by their positions. -/
structure Unrolling where
  /-- the steps that can be carried out, in order -/
  steps : List Nat
  /-- a loop behind them that has no mark to go back to -/
  stuck : Option Nat

/-- All positions of an order, with the one that it gets stuck at. -/
def Unrolling.positions (u : Unrolling) : List Nat :=
  u.steps ++ u.stuck.toList

namespace Script

/-- The position of the first loop. -/
def firstLoop? (script : Script) : Option Nat :=
  script.steps.findIdx? fun step => step = .loop

/-- The position of the last mark before a position. -/
def lastMark? (script : Script) : Nat → Option Nat
  | 0 => none
  | i + 1 => if script.steps[i]? = some .mark then some i else script.lastMark? i

/-- The passes from behind the mark `m` up to and including the loop `l`. -/
def passes (m l count : Nat) : List Nat :=
  (List.replicate count (List.range' (m + 1) (l - m))).flatten

/-- **The order of a script.**  Up to the mark once, then from there to the first loop as often as
there are passes, then the rest once. -/
def unrolling (script : Script) : Unrolling :=
  match script.firstLoop? with
  | none => ⟨List.range script.steps.length, none⟩
  | some l =>
    match script.lastMark? l with
    | none => ⟨List.range l, some l⟩
    | some m =>
      ⟨List.range (m + 1) ++ passes m l script.iterationCount.toNat
        ++ List.range' (l + 1) (script.steps.length - (l + 1)), none⟩

/-- What is still to come at a position, when this many passes are still to be begun. -/
def ahead (script : Script) (i count : Nat) : List Nat :=
  match script.firstLoop? with
  | none => List.range' i (script.steps.length - i)
  | some l =>
    if l < i then List.range' i (script.steps.length - i)
    else
      match script.lastMark? l with
      | none => List.range' i (l - i)
      | some m =>
        List.range' i (l + 1 - i) ++ passes m l count
          ++ List.range' (l + 1) (script.steps.length - (l + 1))

/-! ## Loops and marks -/

theorem firstLoop?_eq_some {script : Script} {l : Nat} :
    script.firstLoop? = some l ↔
      script.steps[l]? = some .loop ∧ ∀ j < l, script.steps[j]? ≠ some .loop := by
  rw [firstLoop?, List.findIdx?_eq_some_iff_getElem]
  constructor
  · rintro ⟨hl, hloop, hlt⟩
    refine ⟨by simpa [hl] using hloop, fun j hj h => ?_⟩
    obtain ⟨hj', hj''⟩ := List.getElem?_eq_some_iff.mp h
    exact hlt j hj (by simpa using hj'')
  · rintro ⟨hloop, hlt⟩
    obtain ⟨hl, hl'⟩ := List.getElem?_eq_some_iff.mp hloop
    refine ⟨hl, by simpa using hl', fun j hj h => hlt j hj ?_⟩
    rw [List.getElem?_eq_getElem (by omega)]
    exact congrArg some (by simpa using h)

theorem firstLoop?_le {script : Script} {i : Nat} (h : script.steps[i]? = some .loop) :
    ∃ l, script.firstLoop? = some l ∧ l ≤ i := by
  cases hl : script.firstLoop? with
  | none =>
    rw [firstLoop?, List.findIdx?_eq_none_iff] at hl
    have := hl _ (List.mem_of_getElem? h)
    simp at this
  | some l =>
    exact ⟨l, rfl, Nat.le_of_not_lt fun hlt => (firstLoop?_eq_some.mp hl).2 i hlt h⟩

theorem firstLoop?_lt {script : Script} {l : Nat} (h : script.firstLoop? = some l) :
    l < script.steps.length :=
  (List.getElem?_eq_some_iff.mp (firstLoop?_eq_some.mp h).1).1

theorem lastMark?_eq_some {script : Script} {i m : Nat} (h : script.lastMark? i = some m) :
    m < i ∧ script.steps[m]? = some .mark := by
  induction i with
  | zero => simp [lastMark?] at h
  | succ i ih =>
    rw [lastMark?] at h
    split at h
    · rename_i hm
      obtain rfl := Option.some.inj h
      exact ⟨Nat.lt_succ_self i, hm⟩
    · obtain ⟨hlt, hm⟩ := ih h
      exact ⟨Nat.lt_succ_of_lt hlt, hm⟩

theorem lastMark?_succ_of_mark {script : Script} {m : Nat} (h : script.steps[m]? = some .mark) :
    script.lastMark? (m + 1) = some m := by
  rw [lastMark?, if_pos h]

theorem lastMark?_isSome {script : Script} {m l : Nat} (hm : script.steps[m]? = some .mark)
    (hlt : m < l) : (script.lastMark? l).isSome = true := by
  induction l with
  | zero => exact absurd hlt (Nat.not_lt_zero m)
  | succ l ih =>
    rw [lastMark?]
    split
    · rfl
    · rename_i hl
      have hne : m ≠ l := by
        rintro rfl
        exact hl hm
      exact ih (by omega)

theorem iterationCount_pos (script : Script) : 0 < script.iterationCount.toNat := by
  rw [iterationCount]
  split
  · split
    · decide
    · rename_i n _ hn
      exact Nat.pos_of_ne_zero fun h => hn (UInt32.toNat_inj.mp h)
  · decide

/-! ## What is ahead -/

theorem range'_eq_cons {i n : Nat} (h : i < n) :
    List.range' i (n - i) = i :: List.range' (i + 1) (n - (i + 1)) := by
  rw [show n - i = (n - (i + 1)) + 1 by omega, List.range'_succ]

theorem passes_succ (m l count : Nat) :
    passes m l (count + 1) = List.range' (m + 1) (l - m) ++ passes m l count := by
  rw [passes, passes, List.replicate_succ, List.flatten_cons]

/-- Behind the first loop the rest of the script is ahead. -/
theorem ahead_beyond {script : Script} {i : Nat}
    (h : ∀ l, script.firstLoop? = some l → l < i) (count : Nat) :
    script.ahead i count = List.range' i (script.steps.length - i) := by
  rw [ahead]
  split
  · rfl
  · rename_i l hl
    rw [if_pos (h l hl)]

/-- Before a loop that has a mark, the way there is ahead, and then the passes. -/
theorem ahead_within {script : Script} {i l m : Nat} (hl : script.firstLoop? = some l) (hi : i ≤ l)
    (hm : script.lastMark? l = some m) (count : Nat) :
    script.ahead i count = List.range' i (l + 1 - i) ++ passes m l count
      ++ List.range' (l + 1) (script.steps.length - (l + 1)) := by
  simp only [ahead, hl, hm, if_neg (Nat.not_lt.mpr hi)]

/-- Before a loop that has no mark, only the way there is ahead. -/
theorem ahead_stuck {script : Script} {i l : Nat} (hl : script.firstLoop? = some l) (hi : i ≤ l)
    (hm : script.lastMark? l = none) (count : Nat) :
    script.ahead i count = List.range' i (l - i) := by
  simp only [ahead, hl, hm, if_neg (Nat.not_lt.mpr hi)]

/-- At the start everything is ahead. -/
theorem ahead_start (script : Script) :
    script.ahead 0 (script.iterationCount.toNat - 1) = script.unrolling.steps := by
  rw [unrolling]
  split
  · rename_i hl
    rw [ahead_beyond (by simp [hl]), List.range_eq_range', Nat.sub_zero]
  · rename_i l hl
    split
    · rename_i hm
      rw [ahead_stuck hl (Nat.zero_le l) hm, List.range_eq_range', Nat.sub_zero]
    · rename_i m hm
      have hlt : m < l := (lastMark?_eq_some hm).1
      have hpos := script.iterationCount_pos
      have hway :
          List.range' 0 (l + 1 - 0) = List.range (m + 1) ++ List.range' (m + 1) (l - m) := by
        have h := List.range'_append_1 (s := 0) (m := m + 1) (n := l - m)
        rw [Nat.zero_add] at h
        rw [List.range_eq_range', h]
        congr 1
        omega
      have hpasses : passes m l script.iterationCount.toNat =
          List.range' (m + 1) (l - m) ++ passes m l (script.iterationCount.toNat - 1) := by
        rw [← passes_succ]
        congr 1
        omega
      rw [ahead_within hl (Nat.zero_le l) hm, hway, hpasses, List.append_assoc (List.range (m + 1))]

/-- An order gets stuck at the first loop only, and only if there is no mark before it. -/
theorem unrolling_stuck {script : Script} {l : Nat} (h : script.unrolling.stuck = some l) :
    script.firstLoop? = some l ∧ script.lastMark? l = none := by
  rw [unrolling] at h
  split at h
  · cases h
  · rename_i k hk
    split at h
    · rename_i hm
      obtain rfl := Option.some.inj h
      exact ⟨hk, hm⟩
    · cases h

theorem not_mem_of_stuck {script : Script} {l : Nat} (h : script.unrolling.stuck = some l) :
    l ∉ script.unrolling.steps := by
  obtain ⟨hl, hm⟩ := unrolling_stuck h
  simp [unrolling, hl, hm]

/-- The first loop is not where another step is. -/
theorem firstLoop?_ne {script : Script} {i l : Nat} {step : Step}
    (hs : script.steps[i]? = some step) (hstep : step ≠ .loop) (hl : script.firstLoop? = some l) :
    l ≠ i := by
  rintro rfl
  rw [(firstLoop?_eq_some.mp hl).1] at hs
  exact hstep (Option.some.inj hs).symm

/-- A step that is not a loop is the first thing ahead. -/
theorem ahead_pass {script : Script} {i : Nat} {step : Step} (hs : script.steps[i]? = some step)
    (hstep : step ≠ .loop) (count : Nat) :
    script.ahead i count = i :: script.ahead (i + 1) count := by
  have hi : i < script.steps.length := (List.getElem?_eq_some_iff.mp hs).1
  by_cases hb : ∀ l, script.firstLoop? = some l → l < i
  · rw [ahead_beyond hb, ahead_beyond (fun l hl => Nat.lt_succ_of_lt (hb l hl)), range'_eq_cons hi]
  · obtain ⟨l, hl, hil⟩ : ∃ l, script.firstLoop? = some l ∧ i ≤ l := by
      simpa only [Classical.not_forall, Nat.not_lt, exists_prop] using hb
    have hne := firstLoop?_ne hs hstep hl
    have hil' : i + 1 ≤ l := by omega
    cases hm : script.lastMark? l with
    | none => rw [ahead_stuck hl hil hm, ahead_stuck hl hil' hm, range'_eq_cons (by omega)]
    | some m =>
      rw [ahead_within hl hil hm, ahead_within hl hil' hm, range'_eq_cons (by omega)]
      rfl

end Script

/-! ## The cursor -/

namespace Cursor

/-- What is still to come at a cursor: the passes that it has not counted yet, without the one it is
in. -/
def ahead (cursor : Cursor) (script : Script) : List Nat :=
  script.ahead cursor.stepIndex (script.iterationCount.toNat - 1 - cursor.iterCount.toNat)

/-- **What holds of the cursor of a run between steps.** -/
structure OnCourse (script : Script) (cursor : Cursor) : Prop where
  iterations : cursor.iterations = script.iterationCount
  /-- up to the first loop: the mark is the last one before the cursor, and passes are left -/
  within : ∀ l : Nat, script.firstLoop? = some l → cursor.stepIndex ≤ l →
    cursor.mark = script.lastMark? cursor.stepIndex ∧
      cursor.iterCount.toNat < script.iterationCount.toNat
  /-- behind it: there is a mark, no passes are left, and the loops to come can be counted -/
  beyond : ∀ l : Nat, script.firstLoop? = some l → l < cursor.stepIndex →
    (script.lastMark? l).isSome ∧ cursor.mark.isSome ∧
      script.iterationCount.toNat ≤ cursor.iterCount.toNat ∧
      cursor.iterCount.toNat + (script.steps.drop cursor.stepIndex).count .loop < UInt32.size

namespace OnCourse

theorem start (script : Script) : OnCourse script (Cursor.start script.iterationCount) where
  iterations := rfl
  within _ _ _ := ⟨rfl, script.iterationCount_pos⟩
  beyond l _ h := absurd h (Nat.not_lt_zero l)

/-- A step that is not a loop, and what it may do to the cursor. -/
theorem pass {script : Script} {c c' : Cursor} (h : OnCourse script c) {step : Step}
    (hs : script.steps[c.stepIndex]? = some step) (hstep : step ≠ .loop)
    (index : c'.stepIndex = c.stepIndex + 1)
    (mark : c'.mark = if step = .mark then some c.stepIndex else c.mark)
    (count : c'.iterCount = c.iterCount) (iterations : c'.iterations = c.iterations) :
    OnCourse script c' ∧ c.ahead script = c.stepIndex :: c'.ahead script := by
  refine ⟨⟨iterations.trans h.iterations, ?_, ?_⟩, ?_⟩
  · intro l hl hle
    rw [index] at hle ⊢
    obtain ⟨hmark, hcount⟩ := h.within l hl (Nat.le_of_succ_le hle)
    refine ⟨?_, count ▸ hcount⟩
    rw [mark, Script.lastMark?, hs, hmark]
    by_cases hm : step = .mark <;> simp [hm]
  · intro l hl hlt
    rw [index] at hlt ⊢
    -- the first loop is not the step just done, so it lies behind the cursor before it as well
    have hne := Script.firstLoop?_ne hs hstep hl
    obtain ⟨hl', hmark, hle, hsize⟩ := h.beyond l hl (by omega)
    refine ⟨hl', ?_, count ▸ hle, ?_⟩
    · rw [mark]
      split
      · rfl
      · exact hmark
    · obtain ⟨hi, hs'⟩ := List.getElem?_eq_some_iff.mp hs
      rw [List.drop_eq_getElem_cons hi, hs', List.count_cons_of_ne hstep] at hsize
      rwa [count]
  · rw [Cursor.ahead, Cursor.ahead, index, count, Script.ahead_pass hs hstep]

theorem loops_lt {script : Script} {i : Nat} (hs : script.steps[i]? = some .loop) :
    (script.steps.drop (i + 1)).count .loop + 1 ≤ script.steps.count .loop := by
  obtain ⟨hi, hs'⟩ := List.getElem?_eq_some_iff.mp hs
  have h : (script.steps.drop i).count .loop ≤ script.steps.count .loop :=
    (List.drop_sublist i script.steps).count_le _
  rwa [List.drop_eq_getElem_cons hi, hs', List.count_cons_self] at h

theorem toNat_iterCount_succ {c : Cursor} (h : c.iterCount.toNat + 1 < UInt32.size) :
    (c.iterCount + 1).toNat = c.iterCount.toNat + 1 := by
  rw [UInt32.toNat_add]
  exact Nat.mod_eq_of_lt h

theorem loopBack_again {c : Cursor} {m : Nat} (hm : c.mark = some m)
    (h : c.iterCount + 1 < c.iterations) :
    c.loopBack = .done { c with iterCount := c.iterCount + 1, stepIndex := m + 1 } := by
  simp only [Cursor.loopBack, hm, if_pos h, Cursor.advance]

theorem loopBack_through {c : Cursor} {m : Nat} (hm : c.mark = some m)
    (h : ¬ c.iterCount + 1 < c.iterations) :
    c.loopBack = .done { c with iterCount := c.iterCount + 1, stepIndex := c.stepIndex + 1 } := by
  simp only [Cursor.loopBack, hm, if_neg h, Cursor.advance]

theorem loopBack_stuck {c : Cursor} (hm : c.mark = none) :
    c.loopBack = .failed (.invalidLoopMark c.stepIndex) := by
  simp only [Cursor.loopBack, hm]

/-- A loop met when no passes are left is passed by. -/
theorem through {script : Script} {c : Cursor} (h : OnCourse script c) {l m n : Nat}
    (hl : script.firstLoop? = some l) (hli : l ≤ c.stepIndex) (hm : script.lastMark? l = some m)
    (hn : c.mark = some n) (hle : script.iterationCount.toNat ≤ c.iterCount.toNat + 1)
    (hsize : c.iterCount.toNat + 1 + (script.steps.drop (c.stepIndex + 1)).count .loop
      < UInt32.size) :
    ∃ c', c.loopBack = .done c' ∧ OnCourse script c' ∧
      c'.ahead script =
        List.range' (c.stepIndex + 1) (script.steps.length - (c.stepIndex + 1)) := by
  have hcount := toNat_iterCount_succ (c := c) (by omega)
  have hlt : ¬ c.iterCount + 1 < c.iterations := by
    rw [UInt32.lt_iff_toNat_lt, hcount, h.iterations]
    omega
  have hbehind (k : Nat) (hk : script.firstLoop? = some k) : k < c.stepIndex + 1 := by
    rw [hl] at hk
    obtain rfl := Option.some.inj hk
    omega
  refine ⟨_, loopBack_through hn hlt, ⟨h.iterations, ?_, ?_⟩, Script.ahead_beyond hbehind _⟩
  · intro k hk hle
    exact absurd (hbehind k hk) (Nat.not_lt.mpr hle)
  · intro k hk _
    rw [hl] at hk
    obtain rfl := Option.some.inj hk
    exact ⟨by simp [hm], by simp [hn], hcount ▸ hle, hcount ▸ hsize⟩

/-- The first loop, met while passes are left, leads back to its mark. -/
theorem again {script : Script} {c : Cursor} (h : OnCourse script c) {m : Nat}
    (hl : script.firstLoop? = some c.stepIndex) (hm : script.lastMark? c.stepIndex = some m)
    (hn : c.mark = some m) (hlt : c.iterCount.toNat + 1 < script.iterationCount.toNat) :
    ∃ c', c.loopBack = .done c' ∧ OnCourse script c' ∧
      c'.ahead script = Script.passes m c.stepIndex
        (script.iterationCount.toNat - 1 - c.iterCount.toNat)
        ++ List.range' (c.stepIndex + 1) (script.steps.length - (c.stepIndex + 1)) := by
  obtain ⟨hml, hmark⟩ := Script.lastMark?_eq_some hm
  have hcount := toNat_iterCount_succ (c := c) (Nat.lt_trans hlt (UInt32.toNat_lt_size _))
  have hlt' : c.iterCount + 1 < c.iterations := by
    rw [UInt32.lt_iff_toNat_lt, hcount, h.iterations]
    exact hlt
  refine ⟨_, loopBack_again hn hlt', ⟨h.iterations, ?_, ?_⟩, ?_⟩
  · intro k _ _
    exact ⟨hn.trans (Script.lastMark?_succ_of_mark hmark).symm, hcount ▸ hlt⟩
  · intro k hk hlt
    rw [hl] at hk
    obtain rfl := Option.some.inj hk
    exact absurd hlt (Nat.not_lt.mpr hml)
  · -- one pass more is begun, which is the way from the mark back to the loop
    have hpasses : script.iterationCount.toNat - 1 - c.iterCount.toNat =
        (script.iterationCount.toNat - 1 - (c.iterCount.toNat + 1)) + 1 := by omega
    have hway : c.stepIndex + 1 - (m + 1) = c.stepIndex - m := by omega
    simp only [Cursor.ahead, Script.ahead_within hl hml hm, hcount]
    rw [hpasses, Script.passes_succ, hway]

/-- A loop takes the cursor along the unrolling, or it is where the unrolling gets stuck. -/
theorem loopBack {script : Script} {c : Cursor} (h : OnCourse script c)
    (fits : script.iterationCount.toNat + script.steps.count .loop ≤ UInt32.size)
    (hs : script.steps[c.stepIndex]? = some .loop) :
    (∃ c', c.loopBack = .done c' ∧ OnCourse script c' ∧
      c.ahead script = c.stepIndex :: c'.ahead script) ∨
    (c.loopBack = .failed (.invalidLoopMark c.stepIndex) ∧ c.ahead script = [] ∧
      script.unrolling.stuck = some c.stepIndex) := by
  obtain ⟨l, hl, hli⟩ := Script.firstLoop?_le hs
  have hi : c.stepIndex < script.steps.length := (List.getElem?_eq_some_iff.mp hs).1
  rcases Nat.lt_or_eq_of_le hli with hlt | rfl
  · -- a later loop: the passes are used up, so it is passed by
    obtain ⟨hm, hn, hle, hsize⟩ := h.beyond l hl hlt
    obtain ⟨m, hm⟩ := Option.isSome_iff_exists.mp hm
    obtain ⟨n, hn⟩ := Option.isSome_iff_exists.mp hn
    obtain ⟨hi, hs'⟩ := List.getElem?_eq_some_iff.mp hs
    rw [List.drop_eq_getElem_cons hi, hs', List.count_cons_self] at hsize
    obtain ⟨c', hdone, hc', hahead⟩ := h.through hl hli hm hn (by omega) (by omega)
    refine .inl ⟨c', hdone, hc', ?_⟩
    have hbehind (k : Nat) (hk : script.firstLoop? = some k) : k < c.stepIndex := by
      rw [hl] at hk
      obtain rfl := Option.some.inj hk
      exact hlt
    rw [hahead, Cursor.ahead, Script.ahead_beyond hbehind, Script.range'_eq_cons hi]
  · obtain ⟨hmark, hcount⟩ := h.within _ hl (Nat.le_refl _)
    cases hm : script.lastMark? c.stepIndex with
    | none =>
      refine .inr ⟨loopBack_stuck (hmark.trans hm), ?_, ?_⟩
      · rw [Cursor.ahead, Script.ahead_stuck hl (Nat.le_refl _) hm, Nat.sub_self]
        rfl
      · simp only [Script.unrolling, hl, hm]
    | some m =>
      have hahead : c.ahead script = c.stepIndex :: (Script.passes m c.stepIndex
          (script.iterationCount.toNat - 1 - c.iterCount.toNat)
          ++ List.range' (c.stepIndex + 1) (script.steps.length - (c.stepIndex + 1))) := by
        rw [Cursor.ahead, Script.ahead_within hl (Nat.le_refl _) hm, Nat.add_sub_cancel_left]
        rfl
      rw [hahead]
      rcases Nat.lt_or_ge (c.iterCount.toNat + 1) script.iterationCount.toNat with hlt | hge
      · obtain ⟨c', hdone, hc', hc''⟩ := h.again hl hm (hmark.trans hm) hlt
        exact .inl ⟨c', hdone, hc', by rw [hc'']⟩
      · have hloops := loops_lt hs
        obtain ⟨c', hdone, hc', hc''⟩ :=
          h.through hl (Nat.le_refl _) hm (hmark.trans hm) hge (by omega)
        refine .inl ⟨c', hdone, hc', ?_⟩
        rw [hc'', show script.iterationCount.toNat - 1 - c.iterCount.toNat = 0 by omega]
        rfl

/-! ### Steps -/

variable {plan : Plan} {c : Cursor} {step : Step} {now : Nat}

/-- A step that comes to a turn leaves the cursor alone, and is the next of the unrolling. -/
theorem turn (h : OnCourse plan.script c) (hs : plan.script.steps[c.stepIndex]? = some step)
    {stages : List Stage} (taken : c.take plan now step = .turn stages) :
    OnCourse plan.script c.advance ∧
      c.ahead plan.script = c.stepIndex :: c.advance.ahead plan.script := by
  have hstep : step ≠ .loop ∧ step ≠ .mark := by
    cases Cursor.take_iff.mp taken <;> simp
  exact h.pass hs hstep.1 rfl (by rw [if_neg hstep.2]; rfl) rfl rfl

/-- A step that is done at once is the next of the unrolling, and moves the cursor on. -/
theorem done (h : OnCourse plan.script c)
    (fits : plan.script.iterationCount.toNat + plan.script.steps.count .loop ≤ UInt32.size)
    (hs : plan.script.steps[c.stepIndex]? = some step) {c' : Cursor}
    (taken : c.take plan now step = .done c') :
    OnCourse plan.script c' ∧ c.ahead plan.script = c.stepIndex :: c'.ahead plan.script := by
  by_cases hloop : step = .loop
  · subst hloop
    rcases h.loopBack fits hs with ⟨c'', hdone, hc'', hahead⟩ | ⟨hfailed, -, -⟩
    · obtain rfl := Taken.done.inj (hdone.symm.trans taken)
      exact ⟨hc'', hahead⟩
    · cases hfailed.symm.trans taken
  · cases Cursor.take_iff.mp taken with
    | wait => exact h.pass hs hloop rfl rfl rfl rfl
    | mark => exact h.pass hs hloop rfl rfl rfl rfl
    | again => exact absurd rfl hloop
    | through => exact absurd rfl hloop

/-- A step that fails at once is the next of the unrolling, or the loop that it gets stuck at. -/
theorem failed (h : OnCourse plan.script c)
    (fits : plan.script.iterationCount.toNat + plan.script.steps.count .loop ≤ UInt32.size)
    (hs : plan.script.steps[c.stepIndex]? = some step) {f : Failure}
    (taken : c.take plan now step = .failed f) :
    (∃ rest, c.ahead plan.script = c.stepIndex :: rest) ∨
      (f = .invalidLoopMark c.stepIndex ∧ c.ahead plan.script = [] ∧
        plan.script.unrolling.stuck = some c.stepIndex) := by
  by_cases hloop : step = .loop
  · subst hloop
    rcases h.loopBack fits hs with ⟨c', hdone, -, hahead⟩ | ⟨hfailed, hstuck⟩
    · exact .inl ⟨_, hahead⟩
    · rw [show c.take plan now .loop = _ from hfailed] at taken
      cases taken
      exact .inr ⟨rfl, hstuck⟩
  · exact .inl ⟨_, Script.ahead_pass hs hloop _⟩

/-- Behind the last step nothing is ahead, and the unrolling did not get stuck. -/
theorem behind {script : Script} (h : OnCourse script c)
    (hs : script.steps[c.stepIndex]? = none) :
    c.ahead script = [] ∧ script.unrolling.stuck = none := by
  have hi : script.steps.length ≤ c.stepIndex := List.getElem?_eq_none_iff.mp hs
  have hbehind (l : Nat) (hl : script.firstLoop? = some l) : l < c.stepIndex :=
    Nat.lt_of_lt_of_le (Script.firstLoop?_lt hl) hi
  constructor
  · rw [Cursor.ahead, Script.ahead_beyond hbehind, Nat.sub_eq_zero_of_le hi]
    rfl
  · rw [Script.unrolling]
    split
    · rfl
    · rename_i l hl
      obtain ⟨m, hm⟩ := Option.isSome_iff_exists.mp (h.beyond l hl (hbehind l hl)).1
      rw [hm]

end OnCourse

end Cursor

end Stylus
