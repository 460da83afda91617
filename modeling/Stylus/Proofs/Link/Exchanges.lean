import Stylus.Proofs.Link.Port

/-!
# One command at a time

Whoever holds a link may make a request at any time, and the requests wait in a queue.  On the wire
there is one command after the other all the same.

* `Port.bytes`, `Port.told` — what the stream has taken, and who was told what;
* `Port.Serialized` — how these go with the requests made;
* `Port.requests_serialized` — **so they do after all events**: the bytes on the stream are the
  lines of the requests in the order of the queue, no command begins before the one before it has
  come to an end, and every request is answered at most once, for its own exchange or as refused.
-/

set_option autoImplicit false

namespace Stylus

/-! ## What is observed -/

namespace Observation

/-- The byte that was taken. -/
def byte? : Observation → Option UInt8
  | .sent byte => some byte
  | _ => none

/-- Who was told what. -/
def told? : Observation → Option (Nat × Except Failure String)
  | .told caller result => some (caller, result)
  | _ => none

end Observation

theorem Transfer.byte?_observed (t : Transfer) :
    t.observed.filterMap Observation.byte? = t.sent := by
  rw [observed, List.filterMap_append, List.filterMap_map, List.filterMap_map]
  simp [Function.comp_def, Observation.byte?]

theorem Transfer.told?_observed (t : Transfer) : t.observed.filterMap Observation.told? = [] := by
  rw [observed, List.filterMap_append, List.filterMap_map, List.filterMap_map]
  simp [Function.comp_def, Observation.told?]

/-- What the caller of an exchange is told. -/
def Exchange.answer (x : Exchange) : Nat × Except Failure String :=
  (x.request.caller, x.result)

namespace Exchange

theorem byte?_observed (past : List Exchange) :
    (past.flatMap observed).filterMap Observation.byte? = past.flatMap fun x => x.sent := by
  induction past with
  | nil => rfl
  | cons x past ih =>
    rw [List.flatMap_cons, List.filterMap_append, ih, observed, List.filterMap_append,
      x.toTransfer.byte?_observed]
    simp [Observation.byte?]

theorem told?_observed (past : List Exchange) :
    (past.flatMap observed).filterMap Observation.told? = past.map answer := by
  induction past with
  | nil => rfl
  | cons x past ih =>
    rw [List.flatMap_cons, List.filterMap_append, ih, observed, List.filterMap_append,
      x.toTransfer.told?_observed]
    rfl

/-- Lines that the stream has taken whole. -/
theorem sent_eq_lines {past : List Exchange} (whole : ∀ x ∈ past, x.sent = x.request.line) :
    (past.flatMap fun x => x.sent) = (past.map fun x => x.request).flatMap LinkRequest.line := by
  rw [List.flatMap_def, List.flatMap_def, List.map_map]
  exact congrArg _ (List.map_congr_left whole)

/-- The last line may be cut short. -/
theorem sent_prefix_lines {limit : Option Nat} {past : List Exchange}
    (ends : ∀ x ∈ past, x.Ends limit) (survived : ∀ x ∈ past.dropLast, x.Survived) :
    (past.flatMap fun x => x.sent) <+: (past.map fun x => x.request).flatMap LinkRequest.line := by
  rcases List.eq_nil_or_concat past with rfl | ⟨earlier, x, rfl⟩
  · exact List.nil_prefix
  · rw [List.concat_eq_append] at *
    rw [List.dropLast_concat] at survived
    rw [List.forall_mem_append] at ends
    have hwhole := sent_eq_lines fun x hx => (ends.1 x hx).whole (survived x hx)
    rw [List.flatMap_append, List.map_append, List.flatMap_append, hwhole,
      List.prefix_append_right_inj, List.flatMap_singleton, List.map_singleton,
      List.flatMap_singleton]
    exact (ends.2 x (List.mem_singleton_self x)).sent_isPrefix

/-- Why a line was cut short. -/
theorem Ends.reason {limit : Option Nat} {x : Exchange} (h : x.Ends limit)
    (cut : x.sent ≠ x.request.line) :
    ¬ x.Survived ∧ ((∃ reason, x.last = .writeFailed reason) ∨ x.last = .aborted) := by
  refine ⟨fun survived => cut (h.whole survived), ?_⟩
  cases h with
  | acknowledged whole => exact absurd whole cut
  | expired whole => exact absurd whole cut
  | failed _ _ _ reason => exact reason cut

end Exchange

/-- What the caller of a request that is refused is told. -/
def LinkRequest.noDevice (r : LinkRequest) : Nat × Except Failure String :=
  (r.caller, .error .noDevice)

theorem LinkRequest.byte?_refusal (rs : List LinkRequest) :
    (rs.map refusal).filterMap Observation.byte? = [] := by
  rw [List.filterMap_map]
  simp [Function.comp_def, refusal, Observation.byte?]

theorem LinkRequest.told?_refusal (rs : List LinkRequest) :
    (rs.map refusal).filterMap Observation.told? = rs.map noDevice := by
  rw [List.filterMap_map]
  simp [Function.comp_def, refusal, Observation.told?, noDevice]

namespace Port

/-- The bytes that the stream has taken. -/
def bytes (p : Port) : List UInt8 :=
  p.observed.filterMap Observation.byte?

/-- Who was told what, in order. -/
def told (p : Port) : List (Nat × Except Failure String) :=
  p.observed.filterMap Observation.told?

/-! ## One after the other -/

/-- **How what is seen of a link goes with the requests made**, where `past` are the exchanges that
have come to an end, `now` is the one under way, and `refused` are the requests that came to
nothing. -/
structure Serialized (p : Port) (past : List Exchange) (now : Option Transfer)
    (refused : List LinkRequest) : Prop where
  /-- every request has had its exchange, has it now, waits, or was refused, in the order of the
  queue -/
  asked : p.asked = past.map (fun x => x.request) ++ now.toList.map Transfer.request ++
    p.link.queue ++ refused
  /-- each exchange has ended before the next one begins -/
  observed : p.observed = past.flatMap Exchange.observed ++ now.toList.flatMap Transfer.observed ++
    refused.map LinkRequest.refusal
  /-- the stream gets the lines of the requests one after the other, and the last one may be cut
  short -/
  bytes : p.bytes <+: p.asked.flatMap LinkRequest.line
  /-- an exchange ends with an acknowledgment, with its time or with the link -/
  ends : ∀ x ∈ past, x.Ends p.link.limit
  /-- only the last line can be cut short for good, by an error in writing it or because the link
  was given up meanwhile; nothing comes after it -/
  cut : ∀ x ∈ past, x.sent ≠ x.request.line → past.getLast? = some x ∧ now = none ∧
    p.link.alive = false ∧ ((∃ reason, x.last = .writeFailed reason) ∨ x.last = .aborted)
  /-- callers are told what came of their own exchanges, or that there is no plotter -/
  told : p.told = past.map Exchange.answer ++ refused.map LinkRequest.noDevice
  /-- each at most once, and in the order of the queue -/
  once : p.told.map Prod.fst <+: p.asked.map LinkRequest.caller

variable {p : Port} {past : List Exchange} {now : Option Transfer} {refused : List LinkRequest}

/-- Exchanges that the link has survived have sent their lines whole. -/
theorem whole_of_survived (ends : ∀ x ∈ past, x.Ends p.link.limit)
    (survived : ∀ x ∈ past, x.Survived) :
    ∀ x ∈ past, x.sent = x.request.line :=
  fun x hx => (ends x hx).whole (survived x hx)

theorem InTurn.bytes_isPrefix (h : p.InTurn past now refused) :
    p.bytes <+: p.asked.flatMap LinkRequest.line := by
  cases h with
  | free _ _ _ asked observed ends survived =>
    rw [bytes, observed, Exchange.byte?_observed,
      Exchange.sent_eq_lines (whole_of_survived ends survived), asked, List.flatMap_append]
    exact List.prefix_append _ _
  | @busy t _ under asked observed ends survived =>
    rw [bytes, observed, List.filterMap_append, Exchange.byte?_observed, t.byte?_observed,
      Exchange.sent_eq_lines (whole_of_survived ends survived), asked, List.flatMap_append,
      List.prefix_append_right_inj, List.flatMap_cons]
    exact under.sent_isPrefix.trans (List.prefix_append _ _)
  | dead _ _ _ _ asked observed ends survived =>
    rw [bytes, observed, List.filterMap_append, Exchange.byte?_observed, LinkRequest.byte?_refusal,
      List.append_nil, asked, List.flatMap_append]
    exact (Exchange.sent_prefix_lines ends survived).trans (List.prefix_append _ _)

theorem InTurn.told_eq (h : p.InTurn past now refused) :
    p.told = past.map Exchange.answer ++ refused.map LinkRequest.noDevice := by
  cases h with
  | free _ _ _ _ observed =>
    rw [told, observed, Exchange.told?_observed, List.map_nil, List.append_nil]
  | @busy t _ _ _ observed =>
    rw [told, observed, List.filterMap_append, Exchange.told?_observed, t.told?_observed,
      List.map_nil]
  | dead _ _ _ _ _ observed =>
    rw [told, observed, List.filterMap_append, Exchange.told?_observed, LinkRequest.told?_refusal]

theorem InTurn.asked_eq (h : p.InTurn past now refused) :
    p.asked = past.map (fun x => x.request) ++ now.toList.map Transfer.request ++ p.link.queue ++
      refused := by
  cases h with
  | free _ _ _ asked => simp [asked]
  | busy _ _ asked => simp [asked]
  | dead _ _ _ queue asked => simp [asked, queue]

theorem InTurn.observed_eq (h : p.InTurn past now refused) :
    p.observed = past.flatMap Exchange.observed ++ now.toList.flatMap Transfer.observed ++
      refused.map LinkRequest.refusal := by
  cases h with
  | free _ _ _ _ observed => simp [observed]
  | busy _ _ _ observed => simp [observed]
  | dead _ _ _ _ _ observed => simp [observed]

/-- Whoever has been told has made a request, and those who made one later have not been told
before. -/
theorem InTurn.told_isPrefix (h : p.InTurn past now refused) :
    p.told.map Prod.fst <+: p.asked.map LinkRequest.caller := by
  have hpast : (past.map Exchange.answer).map Prod.fst =
      (past.map fun x => x.request).map LinkRequest.caller := by
    rw [List.map_map, List.map_map]
    rfl
  rw [h.told_eq, h.asked_eq, List.map_append, hpast]
  cases h with
  | free => simp
  | busy => simp
  | dead _ _ _ queue =>
    rw [queue]
    simp [LinkRequest.noDevice, Function.comp_def]

theorem InTurn.serialized (h : p.InTurn past now refused) : p.Serialized past now refused := by
  have hends : ∀ x ∈ past, x.Ends p.link.limit := by cases h <;> assumption
  refine ⟨h.asked_eq, h.observed_eq, h.bytes_isPrefix, hends, fun x hx cut => ?_, h.told_eq,
    h.told_isPrefix⟩
  obtain ⟨hdied, hreason⟩ := (hends x hx).reason cut
  cases h with
  | free _ _ _ _ _ _ survived => exact absurd (survived x hx) hdied
  | busy _ _ _ _ _ survived => exact absurd (survived x hx) hdied
  | dead dead _ _ _ _ _ _ survived =>
    refine ⟨?_, rfl, dead, hreason⟩
    rcases List.eq_nil_or_concat past with rfl | ⟨earlier, y, rfl⟩
    · cases hx
    · rw [List.concat_eq_append] at *
      rw [List.dropLast_concat] at survived
      rcases List.mem_append.mp hx with hx | hx
      · exact absurd (survived x hx) hdied
      · rw [List.mem_singleton.mp hx, List.getLast?_concat]

/-- **Requests are served one after the other.**  Whatever is asked of the link by however many
callers, and however the stream and the plotter behave: see `Port.Serialized`. -/
theorem requests_serialized (limit : Option Nat) (events : List Event) :
    ∃ past now refused, (after limit events).Serialized past now refused := by
  obtain ⟨past, now, refused, h⟩ := inTurn_after limit events
  exact ⟨past, now, refused, h.serialized⟩

end Port

end Stylus
