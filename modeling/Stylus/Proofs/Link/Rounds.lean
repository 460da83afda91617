import Mathlib.Data.List.Forall2
import Stylus.Proofs.Link.Heard

/-!
# Commands in rounds, and when

When commands are sent one after the other, what happens on the stream falls into rounds: what is
read before the line of a command begins, the line itself, and what is read once it is out, until
that says `ok`.  Nothing but what happened, and when, is looked at here.

* `AckBuffer.SaysOk` — what is read says `ok`;
* `Round`, `Round.log` — a round, and all that happens in it;
* `Round.Acknowledged`, `Round.Unanswered` — how a round ends in time, or goes on;
* `Round.Acknowledged.rest_eq` — **where a round ends can be told from what happened**;
* `Round.not_all_acknowledged` — of commands one of which is not acknowledged, not all are, whatever
  happens when it is too late.
-/

set_option autoImplicit false

namespace Stylus

open Text.Utf8

namespace AckBuffer

/-- **What is read says `ok`** in a line of its own. -/
def SaysOk (lots : List (List UInt8)) : Prop :=
  ∃ part : List Char, part <+: decodedLots lots ∧ Acknowledges part

theorem saysOk_iff {lots : List (List UInt8)} :
    SaysOk lots ↔ (gathered lots).takeResponse.1.isSome := by
  rw [SaysOk, ← pending_gathered, (gathered lots).responds.isSome_iff]

theorem SaysOk.append {lots : List (List UInt8)} (h : SaysOk lots) (more : List (List UInt8)) :
    SaysOk (lots ++ more) := by
  obtain ⟨part, first, ack⟩ := h
  refine ⟨part, first.trans ?_, ack⟩
  rw [decodedLots, decodedLots, List.flatMap_append]
  exact List.prefix_append _ _

end AckBuffer

open AckBuffer

/-! ## Rounds -/

/-- A line is out. -/
def Happening.isFlushed : Happening → Bool
  | .flushed => true
  | _ => false

/-- Something that happened at a time. -/
def stamped {α : Type} (what : α → Happening) (x : Nat × α) : Nat × Happening :=
  (x.1, what x.2)

/-- What happens on the stream for a command. -/
structure Round where
  /-- what is read before its line begins -/
  idle : List (Nat × List UInt8) := []
  sent : List (Nat × UInt8) := []
  /-- when its line is out -/
  out : Option Nat := none
  /-- what is read from then on -/
  heard : List (Nat × List UInt8) := []

namespace Round

/-- The bytes that the stream takes. -/
def bytes (round : Round) : List UInt8 :=
  round.sent.map Prod.snd

/-- What is read for the command. -/
def lots (round : Round) : List (List UInt8) :=
  round.heard.map Prod.snd

/-- What happens until the line is out. -/
def early (round : Round) : List (Nat × Happening) :=
  round.idle.map (stamped .read) ++ round.sent.map (stamped .sent)

/-- All that happens. -/
def log (round : Round) : List (Nat × Happening) :=
  round.early ++ round.out.toList.map (·, .flushed) ++ round.heard.map (stamped .read)

/-- Something is read for the command. -/
def hear (round : Round) (x : Nat × List UInt8) : Round :=
  { round with heard := round.heard ++ [x] }

theorem log_hear (round : Round) (x : Nat × List UInt8) :
    (round.hear x).log = round.log ++ [stamped .read x] := by
  rw [log, log, hear, List.map_append, ← List.append_assoc]
  rfl

theorem lots_hear (round : Round) (x : Nat × List UInt8) :
    (round.hear x).lots = round.lots ++ [x.2] := by
  rw [lots, hear, List.map_append]
  rfl

/-- **A command is acknowledged in time**: it may take `limit` from when its line is out, and must
not take longer than until `finish`. -/
structure Acknowledged (limit finish : Option Nat) (command : String) (round : Round) : Prop where
  /-- the stream has taken the line of the command -/
  line : round.bytes = (LinkRequest.mk 0 command).line
  /-- what is read then says `ok`, but not without the last lot -/
  ok : SaysOk round.lots
  last : ¬SaysOk round.lots.dropLast
  /-- and the last lot is read in time -/
  inTime : ∃ out time : Nat, round.out = some out ∧ round.heard.getLast?.map Prod.fst = some time ∧
    (∀ ms ∈ limit, time ≤ out + ms) ∧ ∀ moment ∈ finish, time ≤ moment

/-- **A command is not acknowledged.** -/
structure Unanswered (command : String) (round : Round) : Prop where
  /-- the stream has taken some of its line, or all of it -/
  line : round.bytes <+: (LinkRequest.mk 0 command).line
  whole : round.out ≠ none → round.bytes = (LinkRequest.mk 0 command).line
  /-- nothing is read for it before its line is out, and nothing says `ok` then -/
  unheard : round.out = none → round.heard = []
  silent : ¬SaysOk round.lots

/-- A time at which it is too late to acknowledge a command. -/
def Late (limit finish : Option Nat) (round : Round) (time : Nat) : Prop :=
  (∃ moment ∈ finish, moment < time) ∨ ∃ out, round.out = some out ∧ ∃ ms ∈ limit, out + ms < time

theorem Late.mono {limit finish : Option Nat} {round : Round} {time later : Nat}
    (h : round.Late limit finish time) (le : time ≤ later) : round.Late limit finish later := by
  rcases h with ⟨moment, hmoment, lt⟩ | ⟨out, hout, ms, hms, lt⟩
  · exact .inl ⟨moment, hmoment, Nat.lt_of_lt_of_le lt le⟩
  · exact .inr ⟨out, hout, ms, hms, Nat.lt_of_lt_of_le lt le⟩

/-! ## Where a round ends -/

variable {limit finish : Option Nat} {command : String} {a b : Round}
  {s t m : List (Nat × Happening)}

/-- The line is not out before it is out. -/
theorem not_isFlushed_early {round : Round} {x : Nat × Happening} (h : x ∈ round.early) :
    x.2.isFlushed = false := by
  rw [early, List.mem_append, List.mem_map, List.mem_map] at h
  rcases h with ⟨_, -, rfl⟩ | ⟨_, -, rfl⟩ <;> rfl

theorem flushed_mem_log {round : Round} {time : Nat} :
    (time, .flushed) ∈ round.log ↔ round.out = some time := by
  have hearly : (time, .flushed) ∉ round.early := fun h => by cases not_isFlushed_early h
  simp [log, hearly, stamped]

theorem dropWhile_log {time : Nat} (out : a.out = some time) :
    (a.log ++ s).dropWhile (!·.2.isFlushed) =
      (time, .flushed) :: (a.heard.map (stamped .read) ++ s) := by
  have hlog : a.log ++ s =
      a.early ++ (time, .flushed) :: (a.heard.map (stamped .read) ++ s) := by
    rw [log, out]
    simp
  rw [hlog, List.dropWhile_append_of_pos fun x hx => by rw [not_isFlushed_early hx]; rfl]
  exact List.dropWhile_cons_of_neg (by simp [Happening.isFlushed])

/-- The line is out when it is out for the first time. -/
theorem heard_eq {time time' : Nat} (ha : a.out = some time) (hb : b.out = some time')
    (h : a.log ++ s = b.log ++ t) :
    a.heard.map (stamped .read) ++ s = b.heard.map (stamped .read) ++ t := by
  have hfrom := congrArg (List.dropWhile (!·.2.isFlushed)) h
  rw [dropWhile_log ha, dropWhile_log hb] at hfrom
  exact (List.cons.inj hfrom).2

theorem stamped_read_injective : Function.Injective (stamped Happening.read) := by
  rintro ⟨time, lot⟩ ⟨time', lot'⟩ h
  cases h
  rfl

/-- What was read for a command is read for another one first. -/
theorem lots_append (h : b.heard.map (stamped .read) = a.heard.map (stamped .read) ++ m) :
    ∃ more : List (List UInt8), b.lots = a.lots ++ more ∧ (more = [] → m = []) := by
  obtain ⟨first, more, hheard, hfirst, hmore⟩ := List.map_eq_append_iff.1 h
  rw [List.map_injective_iff.2 stamped_read_injective hfirst] at hheard
  refine ⟨more.map Prod.snd, ?_, fun hnil => ?_⟩
  · rw [lots, lots, hheard, List.map_append]
  · rw [← hmore, List.map_eq_nil_iff.1 hnil, List.map_nil]

/-- A round that has an end has no more to it. -/
theorem eq_nil_of_append (ok : SaysOk a.lots) (last : ¬SaysOk b.lots.dropLast)
    (h : b.heard.map (stamped .read) = a.heard.map (stamped .read) ++ m) : m = [] := by
  obtain ⟨more, hlots, hm⟩ := lots_append h
  by_contra hne
  rw [hlots, List.dropLast_append_of_ne_nil fun hnil => hne (hm hnil)] at last
  exact last (ok.append _)

/-- **Where a round ends can be told from what happened.** -/
theorem Acknowledged.rest_eq (ha : a.Acknowledged limit finish command)
    (hb : b.Acknowledged limit finish command) (h : a.log ++ s = b.log ++ t) : s = t := by
  obtain ⟨out, -, hout, -⟩ := ha.inTime
  obtain ⟨out', -, hout', -⟩ := hb.inTime
  rcases List.append_eq_append_iff.1 (heard_eq hout hout' h) with
    ⟨m, hheard, rfl⟩ | ⟨m, hheard, rfl⟩
  · rw [eq_nil_of_append ha.ok hb.last hheard, List.nil_append]
  · rw [eq_nil_of_append hb.ok ha.last hheard, List.nil_append]

/-- A command that is not acknowledged is not acknowledged at any time before. -/
theorem Unanswered.not_prefix (ha : a.Unanswered command)
    (hb : b.Acknowledged limit finish command) :
    ¬b.log <+: a.log := by
  rintro ⟨m, h⟩
  obtain ⟨out, -, hout, -⟩ := hb.inTime
  have hmem : (out, .flushed) ∈ a.log := h ▸ List.mem_append_left m (flushed_mem_log.2 hout)
  rw [← List.append_nil a.log] at h
  have hheard := heard_eq hout (flushed_mem_log.1 hmem) h
  rw [List.append_nil] at hheard
  obtain ⟨more, hlots, -⟩ := lots_append hheard.symm
  exact ha.silent (hlots ▸ hb.ok.append more)

/-- What happens last in a round that has an end. -/
theorem Acknowledged.last_mem (ha : a.Acknowledged limit finish command) (h : a.log = s ++ m)
    (hne : m ≠ []) : ∃ x ∈ m, ∃ out, a.out = some out ∧ (∀ ms ∈ limit, x.1 ≤ out + ms) ∧
      ∀ moment ∈ finish, x.1 ≤ moment := by
  obtain ⟨out, time, hout, hlast, inTime⟩ := ha.inTime
  obtain ⟨⟨time, lot⟩, hheard, rfl⟩ := Option.map_eq_some_iff.1 hlast
  obtain ⟨before, hbefore⟩ := List.getLast?_eq_some_iff.1 hheard
  have hend : a.log.getLast? = some (stamped .read (time, lot)) := by
    rw [log, hbefore, List.map_append, ← List.append_assoc, List.map_singleton,
      List.getLast?_concat]
  rw [h, List.getLast?_append_of_ne_nil _ hne] at hend
  exact ⟨_, List.mem_of_getLast? hend, out, hout, inTime⟩

/-- **Not all commands are acknowledged**, if one is not and whatever happens later happens too
late. -/
theorem not_all_acknowledged {before rest : List String} {rounds rounds' : List Round}
    {last : Round} {later : List (Nat × Happening)}
    (acknowledged : List.Forall₂ (Acknowledged limit finish) before rounds)
    (unanswered : last.Unanswered command) (late : ∀ x ∈ later, last.Late limit finish x.1)
    (all : List.Forall₂ (Acknowledged limit finish) (before ++ command :: rest) rounds') :
    ¬rounds'.flatMap log <+: rounds.flatMap log ++ last.log ++ later := by
  rintro ⟨more, h⟩
  induction acknowledged generalizing rounds' with
  | nil =>
    rw [List.nil_append] at all
    rcases all with _ | ⟨hlast, -⟩
    rename_i round rounds'
    rw [List.flatMap_cons, List.append_assoc, List.flatMap_nil, List.nil_append] at h
    rcases List.append_eq_append_iff.1 h with ⟨m, hlog, -⟩ | ⟨m, hlog, hlater⟩
    · exact unanswered.not_prefix hlast ⟨m, hlog.symm⟩
    · by_cases hm : m = []
      · rw [hm, List.append_nil] at hlog
        exact unanswered.not_prefix hlast (hlog ▸ List.prefix_rfl)
      · obtain ⟨x, hx, out, hout, inLimit, inFinish⟩ := hlast.last_mem hlog hm
        rcases late x (hlater ▸ List.mem_append_left _ hx) with
          ⟨moment, hmoment, lt⟩ | ⟨out', hout', ms, hms, lt⟩
        · exact absurd (inFinish moment hmoment) (Nat.not_le_of_lt lt)
        · have hmem : (out', .flushed) ∈ round.log :=
            hlog ▸ List.mem_append_left m (flushed_mem_log.2 hout')
          rw [flushed_mem_log, hout] at hmem
          cases hmem
          exact absurd (inLimit ms hms) (Nat.not_le_of_lt lt)
  | cons head tail ih =>
    rw [List.cons_append] at all
    rcases all with _ | ⟨head', tail'⟩
    refine ih tail' (head'.rest_eq head ?_)
    simpa using h

/-! ## What is sent -/

/-- The bytes that the stream has taken. -/
def sentBytes (log : List (Nat × Happening)) : List UInt8 :=
  log.filterMap fun
    | (_, .sent byte) => some byte
    | _ => none

theorem sentBytes_append (s t : List (Nat × Happening)) :
    sentBytes (s ++ t) = sentBytes s ++ sentBytes t :=
  List.filterMap_append

theorem sentBytes_read (lots : List (Nat × List UInt8)) :
    sentBytes (lots.map (stamped .read)) = [] := by
  simp [sentBytes, stamped]

theorem sentBytes_log (round : Round) : sentBytes round.log = round.bytes := by
  rw [log, early, sentBytes_append, sentBytes_append, sentBytes_append, sentBytes_read,
    sentBytes_read]
  simp [sentBytes, stamped, Round.bytes, Function.comp_def]

/-- For commands that are acknowledged their lines are sent. -/
theorem sentBytes_rounds {commands : List String} {rounds : List Round}
    (acknowledged : List.Forall₂ (Acknowledged limit finish) commands rounds) :
    sentBytes (rounds.flatMap log) = commands.flatMap fun c => (LinkRequest.mk 0 c).line := by
  induction acknowledged with
  | nil => rfl
  | cons head tail ih =>
    rw [List.flatMap_cons, List.flatMap_cons, sentBytes_append, sentBytes_log, head.line, ih]

end Round

end Stylus
