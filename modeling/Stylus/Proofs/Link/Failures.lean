import Stylus.Link.Basic

/-!
# How a link fails

A link to the plotter may be missing, slow or broken, and that is all that it can tell of: it knows
nothing of scripts, layouts and requests.

* `Failure.isOfLink` — the failures that a link can tell of;
* `Link.failures_of_link` — whatever happens to a link, it tells of no others.
-/

set_option autoImplicit false

namespace Stylus

/-- What making a link or sending a command over it can fail with. -/
def Failure.isOfLink : Failure → Bool
  | noDevice | transportTimeout _ | io _ => true
  | _ => false

namespace Link

/-- Nobody is told of a failure that is none of a link. -/
def TellsOfLink (effects : List Effect) : Prop :=
  ∀ (caller : Nat) (f : Failure), .reply caller (.error f) ∈ effects → f.isOfLink = true

theorem TellsOfLink.nil : TellsOfLink [] :=
  fun _ _ h => absurd h List.not_mem_nil

theorem TellsOfLink.append {effects others : List Effect} (h : TellsOfLink effects)
    (h' : TellsOfLink others) : TellsOfLink (effects ++ others) := by
  intro caller f hf
  rcases List.mem_append.1 hf with hf | hf
  · exact h caller f hf
  · exact h' caller f hf

theorem tellsOfLink_settle (link : Link) {result : Except Failure String}
    (h : ∀ f, result = .error f → f.isOfLink = true) : TellsOfLink (link.settle result).2 := by
  rw [settle]
  split
  · intro caller f hf
    obtain ⟨-, hresult⟩ := Effect.reply.inj (List.mem_singleton.1 hf)
    exact h f hresult.symm
  · exact .nil

theorem tellsOfLink_fail (link : Link) {f : Failure} (h : f.isOfLink = true) :
    TellsOfLink (link.fail f).2 := by
  refine (link.tellsOfLink_settle (by rintro _ ⟨⟩; exact h)).append fun caller g hg => ?_
  obtain ⟨r, -, hr⟩ := List.mem_map.1 hg
  cases hr
  rfl

theorem tellsOfLink_stepAlive (link : Link) (s : Signal) : TellsOfLink (link.stepAlive s).2 := by
  cases s with
  | submit r => exact .nil
  | take =>
    rw [stepAlive, takeNext]
    split
    · simp [TellsOfLink]
    · exact .nil
  | received bytes =>
    rw [stepAlive, receive]
    split
    · exact .nil
    · split
      · exact tellsOfLink_settle _ (by rintro _ ⟨⟩)
      · exact .nil
  | expired =>
    rw [stepAlive, expire]
    split
    · exact link.tellsOfLink_settle (by rintro _ ⟨⟩; rfl)
    · exact .nil
  | ended => exact link.tellsOfLink_fail rfl
  | readFailed reason => exact link.tellsOfLink_fail rfl
  | writeFailed reason => exact link.tellsOfLink_fail rfl
  | aborted => exact link.tellsOfLink_fail rfl

theorem tellsOfLink_step (link : Link) (s : Signal) : TellsOfLink (link.step s).2 := by
  rw [step.eq_def]
  split
  · exact link.tellsOfLink_stepAlive s
  · -- a dead link has only one thing to say
    split
    · intro caller f hf
      cases List.mem_singleton.1 hf
      rfl
    · exact .nil

/-- **A link tells of no failures but its own.** -/
theorem failures_of_link (link : Link) (signals : List Signal) :
    TellsOfLink (link.steps signals).2 := by
  induction signals generalizing link with
  | nil => exact .nil
  | cons s signals ih => exact (link.tellsOfLink_step s).append (ih _)

end Link

end Stylus
