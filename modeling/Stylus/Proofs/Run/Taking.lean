import Stylus.Proofs.Script.Spans
import Stylus.Run.Cursor

/-!
# What a step comes to

`Cursor.take` looks at the locations of a step, at its time, at the clock, and at the mark and the
count of the cursor.  `Cursor.Takes` has one case for each way in which that can go, with all that
was found on it; `Cursor.take_iff` says that there are no others.  What the cases with a turn have
in common is a list of stages, those that are done at once have a new cursor in common, and the
others a failure: a proof about one of the three is a proof about its cases only.
-/

set_option autoImplicit false

namespace Stylus.Cursor

/-- **The ways in which a step can go**, with what it comes to. -/
inductive Takes (cursor : Cursor) (plan : Plan) (now : Nat) : Step → Taken → Prop where
  | tap {location : String} {side : Option Side} {p : Point}
      (resolved : plan.resolve side location = .ok p) :
      Takes cursor plan now (.tap location side) (.turn (cursor.tapStages p))
  | swipe {start goal : String} {side : Option Side} {p q : Point}
      (resolved : plan.resolve side start = .ok p) (resolved' : plan.resolve side goal = .ok q) :
      Takes cursor plan now (.swipe start goal side) (.turn (cursor.swipeStages p q))
  | load : Takes cursor plan now .load (.turn [.operate .load])
  | wait {spec : String} {span deadline : Nat} (understood : TimeSpec.milliseconds spec = .ok span)
      (ahead : Clock.ahead? now span = some deadline) :
      Takes cursor plan now (.wait spec) (.done { cursor with deadline := some deadline }.advance)
  | mark : Takes cursor plan now .mark (.done { cursor with mark := some cursor.stepIndex }.advance)
  /-- a loop that goes back to the mark -/
  | again {m : Nat} (marked : cursor.mark = some m)
      (more : cursor.iterCount + 1 < cursor.iterations) :
      Takes cursor plan now .loop
        (.done { cursor with iterCount := cursor.iterCount + 1, stepIndex := m }.advance)
  /-- a loop that is passed by -/
  | through {m : Nat} (marked : cursor.mark = some m)
      (last : ¬ cursor.iterCount + 1 < cursor.iterations) :
      Takes cursor plan now .loop (.done { cursor with iterCount := cursor.iterCount + 1 }.advance)
  | noPlace {location : String} {side : Option Side} {f : Failure}
      (unresolved : plan.resolve side location = .error f) :
      Takes cursor plan now (.tap location side) (.failed f)
  | noStart {start goal : String} {side : Option Side} {f : Failure}
      (unresolved : plan.resolve side start = .error f) :
      Takes cursor plan now (.swipe start goal side) (.failed f)
  | noGoal {start goal : String} {side : Option Side} {p : Point} {f : Failure}
      (resolved : plan.resolve side start = .ok p)
      (unresolved : plan.resolve side goal = .error f) :
      Takes cursor plan now (.swipe start goal side) (.failed f)
  /-- a time that is not understood -/
  | noSpan {spec : String}
      (unknown : TimeSpec.milliseconds spec = .error (.invalidTimeSpec spec)) :
      Takes cursor plan now (.wait spec) (.failed (.invalidTimeSpec spec))
  /-- a time that the clock cannot tell -/
  | tooLate {spec : String} {span : Nat} (understood : TimeSpec.milliseconds spec = .ok span)
      (beyond : Clock.ahead? now span = none) :
      Takes cursor plan now (.wait spec) (.failed (.invalidTimeSpec spec))
  | noMark (unmarked : cursor.mark = none) :
      Takes cursor plan now .loop (.failed (.invalidLoopMark cursor.stepIndex))

variable {cursor : Cursor} {plan : Plan} {now : Nat} {step : Step} {result : Taken}

theorem takes_hold (spec : String) : cursor.Takes plan now (.wait spec) (cursor.hold now spec) := by
  rw [hold]
  split
  · rename_i f unknown
    obtain rfl := TimeSpec.error_of_milliseconds unknown
    exact .noSpan unknown
  · rename_i span understood
    split
    · rename_i beyond
      exact .tooLate understood beyond
    · rename_i deadline ahead
      exact .wait understood ahead

theorem takes_loopBack : cursor.Takes plan now .loop cursor.loopBack := by
  rw [loopBack]
  split
  · rename_i unmarked
    exact .noMark unmarked
  · rename_i m marked
    dsimp only
    split
    · rename_i more
      exact .again marked more
    · rename_i last
      exact .through marked last

theorem takes_take (step : Step) : cursor.Takes plan now step (cursor.take plan now step) := by
  rw [take.eq_def]
  split
  · split
    · rename_i unresolved
      exact .noPlace unresolved
    · rename_i resolved
      exact .tap resolved
  · split
    · rename_i unresolved
      exact .noStart unresolved
    · rename_i resolved
      split
      · rename_i unresolved
        exact .noGoal resolved unresolved
      · rename_i resolved'
        exact .swipe resolved resolved'
  · exact takes_hold _
  · exact .mark
  · exact takes_loopBack
  · exact .load

/-- **A step comes to what one of the cases says**, and to nothing else. -/
theorem take_iff : cursor.take plan now step = result ↔ cursor.Takes plan now step result := by
  constructor
  · rintro rfl
    exact takes_take step
  · intro h
    cases h <;> simp only [take, hold, loopBack, if_pos, if_neg, not_false_eq_true, *]

end Stylus.Cursor
