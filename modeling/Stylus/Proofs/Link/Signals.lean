import Stylus.Link.Basic
import Stylus.Proofs.Link.Answer

/-!
# What a link does, by signals

A link does something of note on two signals only: it takes the next request, or it gathers bytes.
On all others it is quiet: at most it gives up the outstanding command.

* `Link.Takes`, `Link.step_take` — the next request is taken;
* `Link.step_received` — bytes are read;
* `Link.Quiet`, `Link.step_quiet` — all else;
* `Link.reply_ok` — when a caller is told of an answer.
-/

set_option autoImplicit false

namespace Stylus

open Text.Utf8 AckBuffer

namespace Link

/-- The next request is taken, with nothing gathered for it yet. -/
structure Takes (link : Link) (r : LinkRequest) (link' : Link) : Prop where
  free : link.current = none
  queue : link.queue = r :: link'.queue
  limit : link'.limit = link.limit
  current : link'.current = some r
  empty : link'.buffer.pending = []

theorem step_take (link : Link) :
    link.step .take = (link, []) ∨ ∃ (link' : Link) (r : LinkRequest),
      link.step .take = (link', [.write r.command]) ∧ link.Takes r link' := by
  rw [step.eq_def]
  split
  · rw [stepAlive, takeNext]
    split
    · rename_i r rest hcur hqueue
      refine .inr ⟨_, r, rfl, hcur, hqueue, rfl, rfl, ?_⟩
      rw [takePending]
      split
      · assumption
      · rfl
    · exact .inl rfl
  · exact .inl rfl

/-- Bytes that are read with no command outstanding are dropped; else they are gathered, and a text
that says `ok` ends the command. -/
theorem step_received (link : Link) (bytes : List UInt8) :
    (link.step (.received bytes) = (link, []) ∧ (link.alive = true → link.current = none)) ∨
      ∃ r : LinkRequest, link.alive = true ∧ link.current = some r ∧
        (split [] (link.buffer.push bytes).pending = none ∧
            link.step (.received bytes) = ({ link with buffer := link.buffer.push bytes }, []) ∨
          ∃ taken left : List Char,
            split [] (link.buffer.push bytes).pending = some (taken, left) ∧
            link.step (.received bytes) = ({ link with buffer := ⟨left⟩, current := none },
              [.reply r.caller (.ok (String.ofList taken))])) := by
  rw [step.eq_def]
  split
  · rename_i halive
    rw [stepAlive, receive]
    cases hcur : link.current with
    | none => exact .inl ⟨rfl, fun _ => rfl⟩
    | some r =>
      refine .inr ⟨r, halive, rfl, ?_⟩
      dsimp only
      rw [takeResponse]
      cases hsplit : split [] (link.buffer.push bytes).pending with
      | none => exact .inl ⟨rfl, rfl⟩
      | some p => exact .inr ⟨p.1, p.2, rfl, rfl⟩
  · exact .inl ⟨rfl, fun h => absurd h ‹_›⟩

/-- Bytes are read that do not complete the answer. -/
theorem step_gathers {link : Link} (alive : link.alive = true) {r : LinkRequest}
    (hcur : link.current = some r) {bytes : List UInt8}
    (incomplete : (link.buffer.push bytes).takeResponse.1 = none) :
    link.step (.received bytes) = ({ link with buffer := link.buffer.push bytes }, []) := by
  rcases link.step_received bytes with
    ⟨-, free⟩ | ⟨_, -, -, ⟨-, heq⟩ | ⟨taken, left, hsplit, -⟩⟩
  · cases (free alive).symm.trans hcur
  · exact heq
  · rw [takeResponse, hsplit] at incomplete
    cases incomplete

/-- Bytes are read that complete the answer. -/
theorem step_answered {link : Link} (alive : link.alive = true) {r : LinkRequest}
    (hcur : link.current = some r) {bytes : List UInt8} {text : String}
    (complete : (link.buffer.push bytes).takeResponse.1 = some text) :
    link.step (.received bytes) =
      ({ link with buffer := (link.buffer.push bytes).takeResponse.2, current := none },
        [.reply r.caller (.ok text)]) := by
  rcases link.step_received bytes with
    ⟨-, free⟩ | ⟨r', -, hcur', ⟨hsplit, -⟩ | ⟨taken, left, hsplit, heq⟩⟩
  · cases (free alive).symm.trans hcur
  · rw [takeResponse, hsplit] at complete
    cases complete
  · rw [takeResponse, hsplit] at complete ⊢
    obtain rfl := Option.some.inj (hcur.symm.trans hcur')
    rw [← Option.some.inj complete]
    exact heq

/-- What a link does that neither takes a request nor reads: at most it gives up the outstanding
command, and whoever is told anything is told of a failure. -/
structure Quiet (link link' : Link) (effects : List Effect) : Prop where
  alive : link'.alive = true → link.alive = true
  buffer : link'.buffer = link.buffer
  current : link'.current = link.current ∨ link'.current = none
  failures : ∀ e ∈ effects, ∃ (caller : Nat) (f : Failure), e = .reply caller (.error f)

theorem Quiet.refl (link : Link) : Quiet link link [] :=
  ⟨id, rfl, .inl rfl, by simp⟩

theorem quiet_settle (link : Link) (f : Failure) :
    Quiet link (link.settle (.error f)).1 (link.settle (.error f)).2 := by
  rw [settle]
  split
  · exact ⟨id, rfl, .inr rfl, by simp⟩
  · exact .refl link

theorem quiet_fail (link : Link) (f : Failure) : Quiet link (link.fail f).1 (link.fail f).2 := by
  have hs := link.quiet_settle f
  refine ⟨fun h => absurd h Bool.false_ne_true, hs.buffer, hs.current, ?_⟩
  intro e he
  rcases List.mem_append.1 he with hsettled | hwaiting
  · exact hs.failures e hsettled
  · obtain ⟨r, -, rfl⟩ := List.mem_map.1 hwaiting
    exact ⟨_, _, rfl⟩

theorem step_quiet (link : Link) {s : Signal} (htake : s ≠ .take)
    (hreceived : ∀ bytes : List UInt8, s ≠ .received bytes) :
    Quiet link (link.step s).1 (link.step s).2 := by
  by_cases halive : link.alive = true
  · rw [step.eq_def, if_pos halive]
    cases s with
    | submit r => exact ⟨id, rfl, .inl rfl, by simp [stepAlive]⟩
    | take => exact absurd rfl htake
    | received bytes => exact absurd rfl (hreceived bytes)
    | expired =>
      rw [stepAlive, expire]
      split
      · exact link.quiet_settle _
      · exact .refl link
    | ended => exact link.quiet_fail _
    | readFailed reason => exact link.quiet_fail _
    | writeFailed reason => exact link.quiet_fail _
    | aborted => exact link.quiet_fail _
  · rw [step.eq_def, if_neg halive]
    split
    · exact ⟨id, rfl, .inl rfl, by simp⟩
    · exact .refl link

/-- A dead link stays dead. -/
theorem alive_of_step {link : Link} {s : Signal} (h : (link.step s).1.alive = true) :
    link.alive = true := by
  rw [step.eq_def] at h
  split at h
  · assumption
  · split at h <;> exact h

/-- A caller is told of an answer only if its command is outstanding and bytes are read that
complete a text which says `ok`. -/
theorem reply_ok {link : Link} {s : Signal} {caller : Nat} {text : String}
    (h : .reply caller (.ok text) ∈ (link.step s).2) :
    ∃ (bytes : List UInt8) (r : LinkRequest) (left : List Char), s = .received bytes ∧
      link.alive = true ∧ link.current = some r ∧ r.caller = caller ∧
      split [] (link.buffer.push bytes).pending = some (text.toList, left) := by
  by_cases htake : s = .take
  · subst htake
    rcases link.step_take with heq | ⟨link', r, heq, -⟩
    · rw [heq] at h
      exact absurd h List.not_mem_nil
    · rw [heq] at h
      cases List.mem_singleton.1 h
  · by_cases hreceived : ∃ bytes : List UInt8, s = .received bytes
    · obtain ⟨bytes, rfl⟩ := hreceived
      rcases link.step_received bytes with
        ⟨heq, -⟩ | ⟨r, halive, hcur, ⟨-, heq⟩ | ⟨taken, left, hsplit, heq⟩⟩
      · rw [heq] at h
        exact absurd h List.not_mem_nil
      · rw [heq] at h
        exact absurd h List.not_mem_nil
      · rw [heq] at h
        cases List.mem_singleton.1 h
        rw [← String.toList_ofList (l := taken)] at hsplit
        exact ⟨bytes, r, left, rfl, halive, hcur, rfl, hsplit⟩
    · have hq := link.step_quiet htake fun bytes hs => hreceived ⟨bytes, hs⟩
      obtain ⟨_, _, heq⟩ := hq.failures _ h
      cases heq

/-- An ASCII answer that is read in one lot is complete. -/
theorem takeResponse_of_answer {buffer : AckBuffer} (hempty : buffer.pending = []) {text : String}
    (hanswer : IsAnswer text.toList) (hascii : ∀ c ∈ text.toList, c.toNat < 0x80) :
    (buffer.push (encode text)).takeResponse.1 = some text := by
  have hsplit : split [] (buffer.push (encode text)).pending = some (text.toList, []) := by
    rw [pending_push_of_ascii hempty hascii, ← List.append_nil text.toList, hanswer.split_eq,
      List.append_nil]
  rw [takeResponse, hsplit]
  exact congrArg some String.ofList_toList

/-- An ASCII answer that is read in one lot ends the command. -/
theorem step_answer {link : Link} (halive : link.alive = true) {r : LinkRequest}
    (hcur : link.current = some r) (hempty : link.buffer.pending = []) {text : String}
    (hanswer : IsAnswer text.toList) (hascii : ∀ c ∈ text.toList, c.toNat < 0x80) :
    (link.step (.received (encode text))).2 = [.reply r.caller (.ok text)] := by
  rw [step_answered halive hcur (takeResponse_of_answer hempty hanswer hascii)]

end Link

end Stylus
