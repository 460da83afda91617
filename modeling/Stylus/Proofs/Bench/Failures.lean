import Stylus.Proofs.Bench.Turns
import Stylus.Proofs.Link.Failures

/-!
# How a turn fails

A turn at the controller fails because the plotter is not homed, which the controller finds before
it asks for anything, or because something that was asked for is answered badly.

* `Bench.Event.isGenuine` — what the plotter answers is what a link can tell of;
* `Turn.error_of_moved?` — the failures of a turn.
-/

set_option autoImplicit false

namespace Stylus

/-- If the event is a bad answer, it is one that a link can give. -/
def Bench.Event.isGenuine : Bench.Event → Bool
  | .answer (.error f) => f.isOfLink
  | _ => true

namespace Turn

/-- Going on fails only where an operation needs the plotter homed. -/
theorem GoesOn.eq_notHomed {c : Controller} {now : Nat} {text : String} {legs : List Leg}
    {stages : List Stage} {s : TurnState} {f : Failure} (h : GoesOn c now text legs stages s)
    (fails : s = .over (.error f)) : f = .notHomed := by
  induction h with
  | refused =>
    cases fails
    rfl
  | operate _ ih | homed _ _ ih | awake _ _ ih => exact ih fails
  | _ => cases fails

/-- **A turn fails because the plotter is not homed or with what it is answered.** -/
theorem error_of_moved? {turn : Turn} {c c' : Controller} {now : Nat} {e : Bench.Event}
    {f : Failure} (h : turn.moved? c now e = some (c', .over (.error f))) :
    f = .notHomed ∨ e = .answer (.error f) := by
  have moved := moved_of_moved? h
  generalize turn.answers e = sent at moved
  cases moved with
  | due _ goes => exact .inl (goes.eq_notHomed rfl)
  | unlinked | failed => exact .inr rfl
  | legDone _ _ _ goes => exact .inl (goes.eq_notHomed rfl)

/-- So a turn fails in no other way while all answers are genuine. -/
theorem error_of_genuine {turn : Turn} {c c' : Controller} {now : Nat} {e : Bench.Event}
    {f : Failure} (h : turn.moved? c now e = some (c', .over (.error f)))
    (genuine : e.isGenuine = true) : f = .notHomed ∨ f.isOfLink = true := by
  rcases error_of_moved? h with rfl | rfl
  · exact .inl rfl
  · exact .inr genuine

end Turn

end Stylus
