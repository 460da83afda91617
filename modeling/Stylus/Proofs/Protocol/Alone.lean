import Stylus.Proofs.Protocol.Envelope

/-!
# Requests alone

A line is a request with a name beside its members, or else a request alone.  Is it the same request
either way?

Only the tag can make a difference.  A request with a name is read from members that are held in
memory, and there a variant may be given by its number as well as by its name; a request alone has
its tag read off the line, where a number is none.  So a line that calls a request by its number is
carried out although it is no request.

* `Envelope.Agrees` — a line is the same request, or wrong in the same way, with a name as it is
  alone;
* `Envelope.Numbered` — a line calls a request by its number;
* `Envelope.readings_agree` — **a line agrees exactly if it does not call a request by its number**;
* `Envelope.not_agrees_number` — one that does.
-/

set_option autoImplicit false

namespace Stylus

/-! ## Members with another value -/

namespace Reader

variable {α : Type} {name : String} {members : List (Option String × Node)}

/-- A member, with another value if it has the name. -/
def fill (name : String) (node : Node) (m : Option String × Node) : Option String × Node :=
  if m.1 = some name then (m.1, node) else m

/-- The members, with another value under a name. -/
def filled (name : String) (node : Node) (members : List (Option String × Node)) :
    List (Option String × Node) :=
  members.map (fill name node)

theorem fill_fst (node : Node) (m : Option String × Node) : (fill name node m).1 = m.1 := by
  rw [fill]
  split <;> rfl

theorem fill_of_ne (node : Node) {m : Option String × Node} (h : m.1 ≠ some name) :
    fill name node m = m :=
  if_neg h

theorem under_filled (node : Node) (members : List (Option String × Node)) :
    under name (filled name node members) = (under name members).map fun _ => node := by
  rw [under, under, filled, List.filterMap_map, List.map_filterMap]
  congr 1
  funext m
  by_cases hm : m.1 = some name
  · simp [fill, hm]
  · simp [fill, hm]

theorem without_filled (node : Node) (members : List (Option String × Node)) :
    without name (filled name node members) = without name members := by
  rw [without, without, filled, List.filter_map]
  have hkept : ((fun m => decide (m.1 ≠ some name)) ∘ fill name node) =
      fun m : Option String × Node => decide (m.1 ≠ some name) := by
    funext m
    rw [Function.comp_apply, fill_fst]
  rw [hkept, List.map_congr_left (g := id), List.map_id]
  intro m hm
  exact fill_of_ne node (of_decide_eq_true (List.mem_filter.1 hm).2)

/-- **A member can be taken out exactly if another value can** that is read alike. -/
theorem takesOut_filled {read read' : Node → Except Fault α} {node node' : Node} {a : α}
    (hunder : under name members = [node]) (hread : read node = .ok a)
    (hread' : read' node' = .ok a) :
    TakesOut name read none members (some a) ↔
      TakesOut name read' none (filled name node' members) (some a) := by
  have hfilled : under name (filled name node' members) = [node'] := by
    rw [under_filled, hunder]
    rfl
  constructor
  · intro h
    refine ⟨?_, ?_, hfilled ▸ .found hread'⟩
    · refine List.forall_mem_map.2 fun m hm => ?_
      rw [fill_fst]
      exact h.named m hm
    · refine List.forall_mem_map.2 fun m hm hne => ?_
      rw [fill_fst] at hne
      rw [fill_of_ne _ hne]
      exact h.sound m hm hne
  · intro h
    refine ⟨fun m hm => ?_, fun m hm hne => ?_, hunder ▸ .found hread⟩
    · rw [← fill_fst node' m]
      exact List.forall_mem_map.1 h.named m hm
    · rw [← fill_of_ne node' hne]
      exact List.forall_mem_map.1 h.sound m hm (by rwa [fill_fst])

/-- What is wrong with a member is what is wrong with the table, if all other members can be
held. -/
theorem takeOut_eq_error {read : Node → Except Fault α} {node : Node} {f : Fault}
    (named : ∀ m ∈ members, m.1.isSome = true)
    (sound : ∀ m ∈ members, m.1 ≠ some name → m.2.isSound heldDepth = true)
    (hunder : under name members = [node]) (hread : read node = .error f) :
    takeOut name read none members = .error f := by
  induction members with
  | nil => contradiction
  | cons m members ih =>
    obtain ⟨hm, hnamed⟩ := List.forall_mem_cons.1 named
    obtain ⟨hsound, hsounds⟩ := List.forall_mem_cons.1 sound
    obtain ⟨_ | other, held⟩ := m
    · contradiction
    · rw [takeOut]
      by_cases hname : other = name
      · subst hname
        rw [under_cons_same] at hunder
        obtain ⟨rfl, -⟩ := List.cons.inj hunder
        rw [if_pos rfl, hread]
        rfl
      · rw [under_cons_other _ _ hname] at hunder
        have hheld := hsound fun heq => hname (Option.some.inj heq)
        rw [if_neg hname, hold, if_pos hheld, ih hnamed hsounds hunder]
        rfl

/-- Of distinct names each one is found. -/
theorem named?_of_mem {known : List (String × α)} (distinct : (known.map Prod.fst).Nodup) {a : α}
    (h : (name, a) ∈ known) : named? known name = some a := by
  have hfind : known.find? (·.1 = name) = some (name, a) := by
    induction known with
    | nil => contradiction
    | cons other known ih =>
      obtain ⟨hother, hdistinct⟩ := List.nodup_cons.1 distinct
      rcases List.mem_cons.1 h with rfl | h
      · exact List.find?_cons_of_pos (decide_eq_true rfl)
      · have hne : other.1 ≠ name := fun heq => hother (heq ▸ List.mem_map_of_mem h)
        rw [List.find?_cons_of_neg (by simpa using hne)]
        exact ih hdistinct h
  rw [named?, hfind]
  rfl

end Reader

/-! ## Requests by number -/

namespace Request

/-- **A variant goes by its name** where it goes by its number. -/
theorem variant_of_number {n : Nat} {name : String} {v : Reader Request}
    (h : tagged.variants[n]? = some (name, v)) (origin : Origin) :
    tagged.variant .held (.integer n) = .ok v ∧ tagged.variant origin (.text name) = .ok v := by
  have hdistinct : (tagged.variants.map Prod.fst).Nodup := by decide
  refine ⟨?_, ?_⟩
  · rw [Tagged.variant, if_pos ⟨rfl, Int.natCast_nonneg n⟩, Int.toNat_natCast, h]
  · rw [Tagged.variant, Reader.pick, Reader.named?_of_mem hdistinct (List.mem_of_getElem? h)]

end Request

namespace Envelope

/-- **A line that calls a request by its number**: with the name in place of the number it is this
request alone, and the name for the reply, if there is one, is a text or nothing. -/
inductive Numbered : Document → Nat → Request → Prop where
  | numbered {members : List (Option String × Node)} {n : Nat} {name : String} {request : Request}
      (tag : Reader.under "cmd" members = [.integer n])
      (known : (Request.tagged.variants.map Prod.fst)[n]? = some name)
      (id : MayName (Reader.under "id" members))
      (named : Request.reader .running (.table (Reader.filled "cmd" (.text name) members) true) =
        .ok request) : Numbered ⟨.table members true, true⟩ n request

/-- **The two readings of a line agree**: it is the same request either way, or wrong in the same
way, and a name that it has is a text that the line gives once. -/
structure Agrees (line : String) : Prop where
  same : (ofLine line).map Envelope.request = Request.reader.ofText line
  named : ∀ e id, ofLine line = .ok e → e.id = some id →
    ∃ members, (Document.ofText line).root = .table members true ∧
      Reader.under "id" members = [.text id]

/-- What is read of a line that calls a request by its number. -/
theorem takesOut_of_filled {members : List (Option String × Node)} {n : Nat} {name : String}
    {request : Request} (tag : Reader.under "cmd" members = [.integer n])
    (known : (Request.tagged.variants.map Prod.fst)[n]? = some name)
    (named : Request.reader .running (.table (Reader.filled "cmd" (.text name) members) true) =
      .ok request) :
    ∃ v, Reader.TakesOut "cmd" (Request.tagged.variant .held) none members (some v) ∧
      v .held (.table (Reader.without "cmd" members) true) = .ok request := by
  rw [List.getElem?_map, Option.map_eq_some_iff] at known
  obtain ⟨⟨_, v⟩, hvariant, rfl⟩ := known
  have hsame := Request.variant_of_number hvariant .running
  obtain ⟨v', htag, -, hread⟩ := Tagged.reader_table_eq_ok.1 named
  obtain ⟨node, hnode, hchosen⟩ := Tagged.tag_of_takesOut htag
  rw [show Request.tagged.tag = "cmd" from rfl, Reader.under_filled, tag] at hnode
  cases hnode
  cases hchosen.symm.trans hsame.2
  refine ⟨v, (Reader.takesOut_filled tag hsame.1 hsame.2).2 htag, ?_⟩
  rw [← Reader.without_filled (.text _)]
  exact hread

/-- **A line that calls a request by its number is this request**, under the name that it gives. -/
theorem named_of_numbered {d : Document} {n : Nat} {request : Request} (h : Numbered d n request) :
    named .running d.root = .ok ⟨givenId d.root, request⟩ := by
  obtain ⟨tag, known, mayName, named⟩ := h
  obtain ⟨v, htag, hread⟩ := takesOut_of_filled tag known named
  obtain ⟨id, honce⟩ := once_of_mayName .running mayName
  exact named_eq_ok.2 ⟨v, id, htag, honce, rfl, (mayName_of_once honce).2.symm, hread⟩

/-- **Alone it is none**, because of the number. -/
theorem request_of_numbered {d : Document} {n : Nat} {request : Request}
    (h : Numbered d n request) :
    Request.reader .running d.root =
      .error ⟨.invalidType (.integer n) "variant identifier", []⟩ := by
  obtain ⟨tag, known, -, named⟩ := h
  obtain ⟨v, htag, -⟩ := takesOut_of_filled tag known named
  have htaken : Reader.takeOut "cmd" (Request.tagged.variant .running) none _ = .error _ :=
    Reader.takeOut_eq_error htag.named htag.sound tag rfl
  rw [Request.reader, Tagged.reader, Tagged.split_eq_takeOut,
    show Request.tagged.tag = "cmd" from rfl, htaken]
  rfl

/-- What is a request alone is the same one with a name. -/
theorem ofLine_of_request {line : String} {request : Request}
    (h : Request.reader.ofText line = .ok request) :
    ofLine line = .ok ⟨givenId (Document.ofText line).root, request⟩ := by
  obtain ⟨e, hline, rfl⟩ : ∃ e, ofLine line = .ok e ∧ e.request = request := by
    rw [ofLine]
    split
    · rename_i e hnamed
      refine ⟨e, rfl, ?_⟩
      obtain ⟨-, hnamed⟩ := Reader.ofText_eq_ok.1 hnamed
      obtain ⟨-, hrequest⟩ := Reader.ofText_eq_ok.1 h
      obtain ⟨members, closed, hroot⟩ := table_of_named hnamed
      rw [hroot] at hnamed hrequest
      obtain ⟨v, id, htag, -, -, -, hread⟩ := named_eq_ok.1 hnamed
      obtain ⟨v', htag', -, hread'⟩ := Tagged.reader_table_eq_ok.1 hrequest
      have htags := (Reader.takeOut_of_takesOut htag).symm.trans
        (Reader.takeOut_of_takesOut (Tagged.takesOut_held htag'))
      cases htags
      exact Except.ok.inj (hread.symm.trans hread')
    · exact ⟨⟨none, request⟩, by rw [h]; rfl, rfl⟩
  rw [hline, ← id_of_ofLine hline]

/-- What is no request alone, and is one with a name, calls it by its number. -/
theorem numbered_of_ofLine {line : String} {e : Envelope} {f : Fault}
    (h : ofLine line = .ok e) (halone : Request.reader.ofText line = .error f) :
    ∃ n, Numbered (Document.ofText line) n e.request := by
  rcases cases_of_ofLine h with
    ⟨members, closed, hclean, hroot, hread⟩ | ⟨-, request, -, hrequest, rfl⟩
  · have hnone : ∀ request, Request.reader .running (Document.ofText line).root ≠ .ok request := by
      intro request hrequest
      cases halone.symm.trans (Reader.ofText_eq_ok.2 ⟨hclean, hrequest⟩)
    generalize Document.ofText line = d at hclean hroot hnone ⊢
    obtain ⟨root, clean⟩ := d
    obtain rfl : clean = true := hclean
    obtain rfl : root = .table members closed := hroot
    obtain ⟨v, id, htag, honce, rfl, -, hread⟩ := named_eq_ok.1 hread
    obtain ⟨node, hnode, hvariant⟩ := Tagged.tag_of_takesOut htag
    rcases Tagged.tag_of_variant hvariant with ⟨tag, rfl, htext⟩ | ⟨n, name, rfl, -, hknown⟩
    · -- a tag that is a text is the same alone
      refine absurd (Tagged.reader_table_eq_ok.2 ⟨v, ?_, rfl, hread⟩) (hnone e.request)
      exact ⟨htag.named, htag.sound, hnode ▸ .found (htext _)⟩
    · have hsame := Request.variant_of_number hknown .running
      have hname : (Request.tagged.variants.map Prod.fst)[n]? = some name := by
        rw [List.getElem?_map, hknown]
        rfl
      refine ⟨n, .numbered hnode hname (mayName_of_once honce).1 ?_⟩
      refine Tagged.reader_table_eq_ok.2
        ⟨v, (Reader.takesOut_filled hnode hsame.1 hsame.2).1 htag, rfl, ?_⟩
      rw [show Request.tagged.tag = "cmd" from rfl, Reader.without_filled]
      exact hread
  · cases halone.symm.trans hrequest

/-- A line that is no request either way is wrong as a request alone. -/
theorem error_of_ofLine {line : String} {f : Fault} (h : ofLine line = .error f) :
    Request.reader.ofText line = .error f := by
  rw [ofLine] at h
  split at h
  · contradiction
  · cases hrequest : Request.reader.ofText line with
    | ok request =>
      rw [hrequest] at h
      contradiction
    | error f' =>
      rw [hrequest] at h
      cases h
      rfl

theorem of_numbered {line : String} {n : Nat} {request : Request}
    (h : Numbered (Document.ofText line) n request) :
    ofLine line = .ok ⟨givenId (Document.ofText line).root, request⟩ ∧
      Request.reader.ofText line = .error ⟨.invalidType (.integer n) "variant identifier", []⟩ := by
  have hclean : (Document.ofText line).clean = true := by
    generalize Document.ofText line = d at h
    obtain ⟨-, -, -, -⟩ := h
    rfl
  constructor
  · rw [ofLine, Reader.ofText_eq_ok.2 ⟨hclean, named_of_numbered h⟩]
  · rw [Reader.ofText, Reader.ofDocument, request_of_numbered h]
    rfl

/-- A name that a request has is given by its line. -/
theorem under_of_ofLine {line : String} {e : Envelope} {id : String} (h : ofLine line = .ok e)
    (hid : e.id = some id) :
    ∃ members, (Document.ofText line).root = .table members true ∧
      Reader.under "id" members = [.text id] := by
  rcases cases_of_ofLine h with ⟨members, closed, -, hroot, hread⟩ | ⟨-, request, -, -, rfl⟩
  · obtain ⟨v, given, -, honce, rfl, hgiven, -⟩ := named_eq_ok.1 hread
    refine ⟨members, hroot, of_oneText ?_⟩
    rw [← (mayName_of_once honce).2, ← hgiven, hid]
  · contradiction

/-- **The two readings of a line agree exactly if it does not call a request by its number.**  A
line that does is carried out as this request, under the name that it gives, although alone it is
none. -/
theorem readings_agree (line : String) :
    (Agrees line ↔ ∀ n request, ¬ Numbered (Document.ofText line) n request) ∧
    ∀ n request, Numbered (Document.ofText line) n request →
      ofLine line = .ok ⟨givenId (Document.ofText line).root, request⟩ ∧
        Request.reader.ofText line =
          .error ⟨.invalidType (.integer n) "variant identifier", []⟩ := by
  refine ⟨⟨fun hagrees n request hnumbered => ?_, fun hnone => ⟨?_, ?_⟩⟩,
    fun n request => of_numbered⟩
  · obtain ⟨hline, halone⟩ := of_numbered hnumbered
    have hsame := hagrees.same
    rw [hline, halone] at hsame
    contradiction
  · cases halone : Request.reader.ofText line with
    | ok request =>
      rw [ofLine_of_request halone]
      rfl
    | error f =>
      cases hline : ofLine line with
      | ok e =>
        obtain ⟨n, hnumbered⟩ := numbered_of_ofLine hline halone
        exact absurd hnumbered (hnone n e.request)
      | error f' =>
        cases halone.symm.trans (error_of_ofLine hline)
        rfl
  · exact fun e id => under_of_ofLine

/-- A move by its number, with a name for the reply. -/
def numberedMove : Json :=
  .table [("id", .text "a"), ("axis", .text "x"), ("cmd", .integer 4), ("position", .integer 1)]

theorem readings_agree_numberedMove :
    Numbered (Document.ofText numberedMove.compact) 4 (.moveAbsolute .x (Float.ofInt 1)) ∧
      ofLine numberedMove.compact = .ok ⟨some "a", .moveAbsolute .x (Float.ofInt 1)⟩ ∧
      Request.reader.ofText numberedMove.compact =
        .error ⟨.invalidType (.integer 4) "variant identifier", []⟩ := by
  have hnumbered : Numbered (Document.ofText numberedMove.compact) 4
      (.moveAbsolute .x (Float.ofInt 1)) := by
    rw [Json.ofText_compact]
    refine .numbered ?_ (rfl : _ = some "move_absolute") (.text "a") ?_
    · with_unfolding_all rfl
    · with_unfolding_all rfl
  obtain ⟨hline, halone⟩ := (readings_agree _).2 4 _ hnumbered
  refine ⟨hnumbered, ?_, halone⟩
  rw [hline, Json.ofText_compact]
  rfl

/-- **A number for a request**: a line with nothing but a zero for the request is carried out as a
tap, and alone it is wrong. -/
theorem not_agrees_number :
    let line := "\x7b\"cmd\":0\x7d"
    ofLine line = .ok ⟨none, .tap⟩ ∧
      Request.reader.ofText line = .error ⟨.invalidType (.integer 0) "variant identifier", []⟩ ∧
      ¬ Agrees line := by
  intro line
  have hwritten : line = (Json.table [("cmd", .integer 0)]).compact := by decide +kernel
  have hline : ofLine line = .ok ⟨none, .tap⟩ := by
    rw [ofLine, hwritten, Reader.ofText_compact]
    with_unfolding_all rfl
  have halone : Request.reader.ofText line =
      .error ⟨.invalidType (.integer 0) "variant identifier", []⟩ := by
    rw [hwritten, Reader.ofText_compact]
    with_unfolding_all rfl
  refine ⟨hline, halone, fun hagrees => ?_⟩
  have hsame := hagrees.same
  rw [hline, halone] at hsame
  contradiction

end Envelope

end Stylus
