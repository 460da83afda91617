import Stylus.Proofs.Layout.Reread
import Stylus.Proofs.Store.Disk
import Stylus.Proofs.Text.Utf8
import Stylus.Proofs.Bench.Moves
import Stylus.Server.Basic

/-!
# Positions that were recorded

A client records a position under a name, and is told that this went well.  When the layout is
loaded the next time, is the position there?

It is there, as far as its coordinates are read back as themselves from the digits that are written.
But a position may be that of the head, which is moved by distances, and nothing keeps the sum of
these within the finite numbers.  A coordinate that is infinite is written as `null`, and then the
whole layout cannot be loaded any more (`learned_overflown`): all positions that were in it before
are lost with it.

* `layoutOn_saved` — what is loaded after a layout was saved;
* `run_layoutToLearn`, `path_of_layoutToLearn` — the layout that a position is recorded in, and the
  file that it goes to;
* `learned_reread` — **what is loaded after a position was recorded**.
-/

set_option autoImplicit false

namespace Stylus

/-! ## Saved and loaded -/

namespace Store

/-- The content of the file of a layout is read as the tree of the layout. -/
theorem decode_encode (name : String) (layout : Layout) :
    (∃ positions, layout.positions.reread? = some positions ∧
        decode .layout name Layout.reader (encode layout) =
          .ok { name := layout.name, positions }) ∨
      layout.positions.reread? = none ∧
        ∃ message, decode .layout name Layout.reader (encode layout) =
          .error (.invalidDocument .layout name message) := by
  have hread := layout.reader_node .running
  rw [decode, encode, Text.Utf8.strict_encode]
  simp only [Reader.ofText, Json.ofText_pretty, Reader.ofDocument]
  cases hresult : Layout.reader .running layout.toJson.node with
  | ok back =>
    rw [hresult] at hread
    obtain ⟨positions, hpositions, hback⟩ := Option.map_eq_some_iff.1 hread.symm
    refine .inl ⟨positions, hpositions, ?_⟩
    rw [hback]
    rfl
  | error f =>
    rw [hresult] at hread
    exact .inr ⟨Option.map_eq_none_iff.1 hread.symm, f.message, rfl⟩

/-- **What is loaded after a layout was saved** in the file of that name. -/
theorem layoutOn_saved {store : Store} {d : Disk} {layout : Layout} {name : String}
    (hpath : documentPath store.layouts .layout name = .ok (store.layoutFile name))
    (hread : d.read (store.layoutFile name) = .ok (encode layout)) :
    (∃ positions loaded, layout.positions.reread? = some positions ∧
        store.layoutOn d name = .ok loaded ∧ loaded.positions = positions) ∨
      layout.positions.reread? = none ∧
        ∃ message, store.layoutOn d name = .error (.invalidDocument .layout name message) := by
  rw [layoutOn, documentOn, hpath]
  simp only [hread]
  rcases decode_encode name layout with ⟨positions, hpositions, hdecode⟩ | ⟨hnone, message, hdecode⟩
  · rw [hdecode]
    exact .inl ⟨positions, _, hpositions, rfl, rfl⟩
  · rw [hdecode]
    exact .inr ⟨hnone, message, rfl⟩

end Store

/-! ## Where a position is recorded -/

namespace Service

/-- A layout that is not there yet is begun, and whatever else goes wrong is told. -/
theorem run_layoutToLearn (store : Store) (d : Disk) (name : String) :
    Filing.run d (layoutToLearn store name).run =
      (d, match store.layoutOn d name with
        | .ok layout => .ok layout
        | .error (.notFound _ _) => .ok (.new name)
        | .error f => .error f) := by
  show Filing.run d ((store.loadLayout name).run >>= _) = _
  rw [Filing.run_bind_eq, Store.run_loadLayout]
  cases store.layoutOn d name with
  | ok layout => rfl
  | error f => cases f <;> rfl

/-- **The layout that a position is recorded in goes to the file of its name**, whatever name it
says itself, and only if that name is one of a document. -/
theorem path_of_layoutToLearn {store : Store} {d : Disk} {name path : String}
    {before saved : Layout}
    (hbefore : (Filing.run d (layoutToLearn store name).run).2 = .ok before)
    (hname : saved.name = before.name) (hsource : saved.source = before.source)
    (hpath : store.layoutPath saved = .ok path) :
    path = store.layoutFile name ∧
      Store.documentPath store.layouts .layout name = .ok (store.layoutFile name) := by
  rw [run_layoutToLearn] at hbefore
  rw [Store.layoutPath, hsource, hname] at hpath
  rcases store.documentPath_cases name with hfile | hfile
  · refine ⟨?_, hfile⟩
    cases hload : store.layoutOn d name with
    | ok layout =>
      rw [hload] at hbefore
      cases hbefore
      rw [Store.source_of_layoutOn hload] at hpath
      exact (Except.ok.inj hpath).symm
    | error f =>
      rw [hload] at hbefore
      cases f with
      | notFound =>
        cases hbefore
        exact (Except.ok.inj (hfile.symm.trans hpath)).symm
      | noDevice | notHomed | unresolvedLocation | invalidTimeSpec | invalidLoopMark
      | transportTimeout | runActive | missingLayout | unknownAxis | invalidDocument | io =>
        cases hbefore
  · -- a name that is none of a document's is not found, and a new layout of it has no file
    have hload : store.layoutOn d name = .error (.notFound .layout name) := by
      rw [Store.layoutOn, Store.documentOn, hfile]
      rfl
    rw [hload] at hbefore
    cases hbefore
    cases hfile.symm.trans hpath

/-- A position that was recorded is in the file of the layout. -/
theorem saved_of_learn {store : Store} {d d' : Disk} {name position : String} {side : Side}
    {p : Point} {told : Option Json}
    (h : Filing.run d (learn store name side position p).run = (d', .ok told)) :
    ∃ before, (Filing.run d (layoutToLearn store name).run).2 = .ok before ∧
      Store.documentPath store.layouts .layout name = .ok (store.layoutFile name) ∧
      d'.read (store.layoutFile name) = .ok (Store.encode (before.learn side position p)) := by
  obtain ⟨d₁, before, hbefore, h⟩ := Store.ok_of_bind h
  obtain ⟨d₂, path, hsave, h⟩ := Store.ok_of_bind h
  cases h
  have hbefore : (Filing.run d (layoutToLearn store name).run).2 = .ok before :=
    congrArg Prod.snd hbefore
  obtain ⟨hpath, hread⟩ := Store.read_of_saveLayout hsave
  obtain ⟨rfl, hfile⟩ := path_of_layoutToLearn hbefore (by rfl) (by rfl) hpath
  exact ⟨before, hbefore, hfile, hread⟩

end Service

/-! ## Recorded and loaded -/

namespace Server

/-- What a client would get that asks for a layout now. -/
def load (s : Server) (name : String) : Except Failure Layout :=
  (Filing.run s.disk (s.store.loadLayout name).run).2

/-- The point that a client means who gives some of its coordinates: the others are those of the
head. -/
def meant (s : Server) (x y : Option Float) : Point :=
  ⟨x.getD s.bench.controller.published.x, y.getD s.bench.controller.published.y⟩

theorem pointToLearn_eq {pose : Pose} {x y : Option Float} {p : Point}
    (h : Service.pointToLearn pose x y = .ok p) : p = ⟨x.getD pose.x, y.getD pose.y⟩ := by
  rw [Service.pointToLearn.eq_def] at h
  split at h
  · cases h
    rfl
  · by_cases hhomed : pose.homed
    · rw [if_pos hhomed] at h
      exact (Except.ok.inj h).symm
    · rw [if_neg hhomed] at h
      cases h

/-- A request to record a position that is work on files records the point that is meant. -/
theorem work_of_learn {s : Server} {name position : String} {side : Side} {x y : Option Float}
    {work : Storing (Option Json)}
    (h : Service.begin s.store s.bench (.learn name side position x y) = .filing work) :
    work = Service.learn s.store name side position (s.meant x y) := by
  rw [Service.begin] at h
  cases hpoint : Service.pointToLearn s.bench.controller.published x y with
  | error f =>
    rw [hpoint] at h
    cases h
  | ok p =>
    rw [hpoint] at h
    cases h
    rw [pointToLearn_eq hpoint]
    rfl

/-- What is loaded after a request that is work on files. -/
theorem load_handle {s : Server} {n : Nat} {c : Client} {e : Envelope}
    {work : Storing (Option Json)} (h : Service.begin s.store s.bench e.request = .filing work)
    (name : String) :
    (s.handle n c e).load name = s.store.layoutOn (Filing.run s.disk work.run).1 name := by
  have hhandle : (s.handle n c e).store = s.store ∧
      (s.handle n c e).disk = (Filing.run s.disk work.run).1 := by
    rw [handle, h]
    exact ⟨rfl, rfl⟩
  rw [load, Store.run_loadLayout, hhandle.1, hhandle.2]

/-- **What a recorded position comes back as.**  `p` was recorded in the layout of that name, which
has these positions since then, and `load` is what comes of loading it. -/
structure ComesBack (load : Except Failure Layout) (name : String) (side : Side) (position : String)
    (p : Point) (positions : SidePositions) : Prop where
  /-- it comes back as it is if its coordinates are read back as themselves, and all others too are
  read back as something, and only then -/
  exactly : (∃ layout, load = .ok layout ∧ layout.resolve side position = .ok p) ↔
    positions.reread?.isSome = true ∧ Number.reread? p.x = some p.x ∧
      Number.reread? p.y = some p.y
  /-- all that can be read back is loaded, and the position stands for what its coordinates are
  read back as -/
  loaded : ∀ back, positions.reread? = some back →
    ∃ layout q, load = .ok layout ∧ layout.positions = back ∧ p.reread? = some q ∧
      layout.resolve side position = .ok q
  /-- what cannot be read back cannot be loaded any more -/
  refused : positions.reread? = none →
    ∃ message, load = .error (.invalidDocument .layout name message)
  /-- and that becomes of all positions of the layout if the new one is not finite -/
  infinite : Number.isFinite p.x = false ∨ Number.isFinite p.y = false → positions.reread? = none

/-- What is loaded and what is refused says it all. -/
theorem ComesBack.of_loaded {load : Except Failure Layout} {name position : String} {side : Side}
    {p : Point} {positions : SidePositions}
    (loaded : ∀ back, positions.reread? = some back →
      ∃ layout q, load = .ok layout ∧ layout.positions = back ∧ p.reread? = some q ∧
        layout.resolve side position = .ok q)
    (refused : positions.reread? = none →
      ∃ message, load = .error (.invalidDocument .layout name message)) :
    ComesBack load name side position p positions := by
  refine ⟨⟨?_, ?_⟩, loaded, refused, ?_⟩
  · rintro ⟨layout, hlayout, hresolve⟩
    cases hback : positions.reread? with
    | none =>
      obtain ⟨message, herror⟩ := refused hback
      cases hlayout.symm.trans herror
    | some back =>
      obtain ⟨_, q, hlayout', _, hq, hresolve'⟩ := loaded back hback
      cases hlayout.symm.trans hlayout'
      cases hresolve.symm.trans hresolve'
      exact ⟨rfl, Point.reread?_eq_self.1 hq⟩
  · rintro ⟨hsome, hexact⟩
    obtain ⟨back, hback⟩ := Option.isSome_iff_exists.1 hsome
    obtain ⟨layout, q, hlayout, _, hq, hresolve⟩ := loaded back hback
    cases (Point.reread?_eq_self.2 hexact).symm.trans hq
    exact ⟨layout, hlayout, hresolve⟩
  · intro hinfinite
    cases hback : positions.reread? with
    | none => rfl
    | some back =>
      obtain ⟨_, q, _, _, hq, _⟩ := loaded back hback
      cases (Point.reread?_of_not_finite hinfinite).symm.trans hq

/-- A position comes back from the file that its layout was saved in. -/
theorem comesBack_of_saved {store : Store} {d : Disk} {layout : Layout} {name position : String}
    {side : Side} {p : Point}
    (hpath : Store.documentPath store.layouts .layout name = .ok (store.layoutFile name))
    (hread : d.read (store.layoutFile name) = .ok (Store.encode layout))
    (hp : (layout.positions.on side).get? position = some p) :
    ComesBack (store.layoutOn d name) name side position p layout.positions := by
  apply ComesBack.of_loaded
  · intro back hback
    obtain ⟨q, hq, hfound⟩ := SidePositions.get?_reread hback hp
    rcases Store.layoutOn_saved hpath hread with
      ⟨_, loaded, hpositions, hloaded, rfl⟩ | ⟨hnone, _⟩
    · cases hback.symm.trans hpositions
      refine ⟨loaded, q, hloaded, rfl, hq, ?_⟩
      rw [Layout.resolve, hfound]
    · cases hback.symm.trans hnone
  · intro hnone
    rcases Store.layoutOn_saved hpath hread with ⟨_, _, hpositions, _⟩ | ⟨_, hmessage⟩
    · cases hnone.symm.trans hpositions
    · exact hmessage

/-- A position that was recorded with success comes back from the disk. -/
theorem comesBack_of_learn {store : Store} {d : Disk} {name position : String} {side : Side}
    {p : Point} (h : (Filing.run d (Service.learn store name side position p).run).2.isOk = true) :
    ∃ before, (Filing.run d (Service.layoutToLearn store name).run).2 = .ok before ∧
      ComesBack
        (store.layoutOn (Filing.run d (Service.learn store name side position p).run).1 name)
        name side position p (before.positions.insert side position p) := by
  cases hrun : Filing.run d (Service.learn store name side position p).run with
  | mk d' result =>
    rw [hrun] at h
    cases result with
    | error f => cases h
    | ok told =>
      obtain ⟨before, hbefore, hpath, hread⟩ := Service.saved_of_learn hrun
      exact ⟨before, hbefore,
        comesBack_of_saved hpath hread (before.positions.get?_insert side position p)⟩

/-- **What is loaded after a position was recorded**, in the layout of that name as it was before or
in a new one: `ComesBack` says when it is the point that was meant. -/
theorem learned_reread {s : Server} {n : Nat} {c : Client} {id : Option String}
    {name position : String} {side : Side} {x y : Option Float} {work : Storing (Option Json)}
    (hbegin : Service.begin s.store s.bench (.learn name side position x y) = .filing work)
    (hok : (Filing.run s.disk work.run).2.isOk = true) :
    ∃ before, (Filing.run s.disk (Service.layoutToLearn s.store name).run).2 = .ok before ∧
      ComesBack ((s.handle n c ⟨id, .learn name side position x y⟩).load name) name side position
        (s.meant x y) (before.positions.insert side position (s.meant x y)) := by
  rw [load_handle (e := ⟨id, .learn name side position x y⟩) hbegin name]
  obtain rfl := work_of_learn hbegin
  exact comesBack_of_learn hok

/-- Both coordinates are given, and the layout is a new one. -/
theorem learned_reread_given :
    (Filing.run {} (Service.learn ⟨"scripts", "layouts"⟩ "a" .left "p" ⟨3, 4⟩).run).2.isOk = true ∧
      ∃ before, (Filing.run {} (Service.layoutToLearn ⟨"scripts", "layouts"⟩ "a").run).2 =
          .ok before ∧
        ComesBack ((handle { bench := .fresh {} } 0 {}
            ⟨none, .learn "a" .left "p" (some 3) (some 4)⟩).load "a") "a" .left "p" ⟨3, 4⟩
          (before.positions.insert .left "p" ⟨3, 4⟩) := by
  have hok : (Filing.run {}
      (Service.learn ⟨"scripts", "layouts"⟩ "a" .left "p" ⟨3, 4⟩).run).2.isOk = true := by
    decide +kernel
  exact ⟨hok, learned_reread (s := { bench := .fresh {} }) (x := some 3) (y := some 4) rfl hok⟩

/-! ## A head that is moved too far -/

/-- A client says something, and its session goes on. -/
def asks (members : List (String × Json)) : List Event :=
  [.receive 0 (Text.Utf8.encode ((Json.table members).compact ++ "\n")), .move 0]

/-- The plotter is homed, and then the head is moved twice by a distance of which the double is no
finite number. -/
def overflow : List Event :=
  let far : List Event :=
    asks [("cmd", .text "move_relative"), ("axis", .text "x"), ("distance", .real 1e308)] ++
      [.bench .proceed, .bench (.answer (.ok "ok\n")), .bench (.answer (.ok "ok\n")), .move 0]
  asks [("cmd", .text "home")] ++
    [.bench .proceed, .bench (.answer (.ok "")), .bench (.answer (.ok "ok\n")), .move 0] ++
    far ++ far

/-- **A position that is lost**: the head is recorded where it is, the client is told that this went
well, and then the layout cannot be loaded. -/
theorem learned_overflown :
    let s : Server := steps { bench := .fresh {} } overflow
    ∃ work message,
      Service.begin s.store s.bench (.learn "big" .left "p" none none) = .filing work ∧
      (Filing.run s.disk work.run).2.isOk = true ∧
      (s.handle 0 (s.client 0) ⟨none, .learn "big" .left "p" none none⟩).load "big" =
        .error (.invalidDocument .layout "big" message) := by
  intro s
  have hpose : s.bench.controller.published.homed = true ∧
      Number.isFinite s.bench.controller.published.x = false := by
    decide +kernel
  have hok : (Filing.run s.disk
      (Service.learn s.store "big" .left "p" (s.meant none none)).run).2.isOk = true := by
    decide +kernel
  have hbegin : Service.begin s.store s.bench (.learn "big" .left "p" none none) =
      .filing (Service.learn s.store "big" .left "p" (s.meant none none)) := by
    rw [Service.begin, Service.pointToLearn.eq_def]
    dsimp only
    rw [if_pos hpose.1]
    rfl
  obtain ⟨before, _, hback⟩ := comesBack_of_learn hok
  obtain ⟨message, hload⟩ := hback.refused (hback.infinite (.inl hpose.2))
  refine ⟨_, message, hbegin, hok, ?_⟩
  rw [load_handle (e := ⟨none, .learn "big" .left "p" none none⟩) hbegin "big"]
  exact hload

end Server

end Stylus
