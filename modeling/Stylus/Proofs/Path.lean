import Mathlib.Data.List.TakeWhile
import Stylus.Path

/-!
# The parts of neighbouring paths

Where a path leads is said by its components, so what matters of a path that is put together from
others is what its components are.  They are cut at slashes, and a slash put between two paths cuts
where it stands (`parts_append`); everything else here follows from that.

* `components_join` — a path inside a directory;
* `components_name` — a single name;
* `components_ofComponents` — components come back from the path that is made of them;
* `components_withExtension` — a file with another extension lies in the same directory;
* `cutName_cases`, `stem_extended` — a file name is cut at its last dot;
* `Inside` — a path leads to a name in a directory: `inside_join`, `Inside.withExtension`.
-/

set_option autoImplicit false

namespace Stylus
namespace Path

/-! ## Cutting -/

theorem parts_separator (separator : Char) (cs : List Char) :
    parts separator (separator :: cs) = [] :: parts separator cs := by
  rw [parts, if_pos rfl]

/-- There is always a first part, and a character that does not cut belongs to it. -/
theorem parts_cons (separator : Char) {c : Char} (h : c ≠ separator) (cs : List Char) :
    ∃ part others, parts separator cs = part :: others ∧
      parts separator (c :: cs) = (c :: part) :: others := by
  induction cs generalizing c with
  | nil => exact ⟨[], [], rfl, by rw [parts, if_neg h]; rfl⟩
  | cons d rest ih =>
    by_cases hd : d = separator
    · subst hd
      exact ⟨[], parts d rest, parts_separator d rest, by rw [parts, if_neg h, parts_separator]⟩
    · obtain ⟨part, others, -, hrest⟩ := ih hd
      exact ⟨d :: part, others, hrest, by rw [parts, if_neg h, hrest]⟩

theorem parts_of_not_mem {separator : Char} {cs : List Char} (h : separator ∉ cs) :
    parts separator cs = [cs] := by
  induction cs with
  | nil => rfl
  | cons c rest ih =>
    have hc : c ≠ separator := Ne.symm (List.ne_of_not_mem_cons h)
    rw [parts, if_neg hc, ih (List.not_mem_of_not_mem_cons h)]

/-- **A separator cuts where it stands.** -/
theorem parts_append (separator : Char) (before after : List Char) :
    parts separator (before ++ separator :: after) =
      parts separator before ++ parts separator after := by
  induction before with
  | nil => rw [List.nil_append, parts_separator, parts, List.singleton_append]
  | cons c rest ih =>
    by_cases hc : c = separator
    · subst hc
      rw [List.cons_append, parts_separator, parts_separator, ih, List.cons_append]
    · obtain ⟨part, others, hrest, hcons⟩ := parts_cons separator hc rest
      rw [List.cons_append, parts, if_neg hc, ih, hrest, hcons]
      rfl

theorem not_mem_of_mem_parts {separator : Char} {cs part : List Char}
    (h : part ∈ parts separator cs) : separator ∉ part := by
  induction cs generalizing part with
  | nil =>
    rw [parts, List.mem_singleton] at h
    subst h
    exact List.not_mem_nil
  | cons c rest ih =>
    by_cases hc : c = separator
    · subst hc
      rw [parts_separator] at h
      rcases List.mem_cons.1 h with rfl | h
      · exact List.not_mem_nil
      · exact ih h
    · obtain ⟨first, others, hrest, hcons⟩ := parts_cons separator hc rest
      rw [hcons] at h
      rw [hrest] at ih
      rcases List.mem_cons.1 h with rfl | h
      · exact List.not_mem_cons_of_ne_of_not_mem (Ne.symm hc) (ih List.mem_cons_self)
      · exact ih (List.mem_cons_of_mem _ h)

/-! ## Components -/

/-- What can be a component: it leads somewhere, and there is no slash in it. -/
structure IsName (name : String) : Prop where
  busy : isIdle name.toList = false
  uncut : '/' ∉ name.toList

theorem isName_of_mem_components {path name : String} (h : name ∈ components path) :
    IsName name := by
  obtain ⟨part, hpart, rfl⟩ := List.mem_map.1 h
  obtain ⟨hmem, hbusy⟩ := List.mem_filter.1 hpart
  refine ⟨?_, ?_⟩
  · rw [String.toList_ofList]
    simpa using hbusy
  · rw [String.toList_ofList]
    exact not_mem_of_mem_parts hmem

theorem components_slash (before after : String) :
    components (before ++ "/" ++ after) = components before ++ components after := by
  have hchars : (before ++ "/" ++ after).toList = before.toList ++ '/' :: after.toList := by simp
  rw [components, hchars, parts_append, List.filter_append, List.map_append]
  rfl

/-- A name is its only component. -/
theorem components_name {name : String} (h : IsName name) : components name = [name] := by
  rw [components, parts_of_not_mem h.uncut, List.filter_cons_of_pos (by simp [h.busy])]
  simp

/-- **A path inside a directory** has the components of both. -/
theorem components_join (directory inner : String) :
    components (join directory inner) = components directory ++ components inner := by
  rw [join]
  split
  · rename_i h
    rcases Bool.or_eq_true_iff.1 h with hempty | hslash
    · rw [String.isEmpty_iff.1 hempty, String.empty_append]
      rfl
    · rw [← String.endsWith_toSlice, String.Slice.endsWith_string_iff] at hslash
      obtain ⟨cs, hcs⟩ := hslash
      -- the slash at the end stands for the one in between
      have hdirectory : directory = String.ofList cs ++ "/" := by
        simpa [← String.toList_inj] using hcs.symm
      have hcomponents : components directory = components (String.ofList cs) := by
        rw [hdirectory, ← String.append_empty (s := String.ofList cs ++ "/"), components_slash]
        exact List.append_nil _
      rw [hcomponents, hdirectory, components_slash]
  · exact components_slash directory inner

theorem components_intercalate {names : List String} (h : ∀ name ∈ names, IsName name) :
    components ("/".intercalate names) = names := by
  induction names with
  | nil => rfl
  | cons name rest ih =>
    have hname : IsName name := h name List.mem_cons_self
    have hrest := ih fun other hother => h other (List.mem_cons_of_mem _ hother)
    cases rest with
    | nil => simpa using components_name hname
    | cons other rest =>
      have hcut : "/".intercalate (name :: other :: rest) =
          name ++ "/" ++ "/".intercalate (other :: rest) := by
        rw [← String.toList_inj]
        simp [String.toList_intercalate]
      rw [hcut, components_slash, components_name hname, hrest, List.singleton_append]

/-- **Components come back** from the path that is made of them. -/
theorem components_ofComponents (absolute : Bool) {names : List String}
    (h : ∀ name ∈ names, IsName name) : components (ofComponents absolute names) = names := by
  rw [ofComponents]
  cases absolute with
  | false =>
    rw [if_neg Bool.false_ne_true, String.empty_append]
    exact components_intercalate h
  | true =>
    have hroot : "/" ++ "/".intercalate names = "" ++ "/" ++ "/".intercalate names := by simp
    rw [if_pos rfl, hroot, components_slash, components_intercalate h]
    rfl

theorem components_parent (path : String) :
    components (parent path) = (components path).dropLast :=
  components_ofComponents _ fun _ h => isName_of_mem_components ((List.dropLast_sublist _).subset h)

/-! ## Extensions -/

theorem mem_of_mem_stem {name : String} {c : Char} (h : c ∈ (stem name).toList) :
    c ∈ name.toList := by
  rw [stem, String.toList_ofList, cutName] at h
  split at h
  · exact h
  · exact List.mem_of_mem_take h

/-- A name with an extension that leads somewhere. -/
theorem isName_extended {name extension : String} (h : '/' ∉ name.toList)
    (hextension : IsName extension) : IsName (stem name ++ "." ++ extension) := by
  have hchars : (stem name ++ "." ++ extension).toList =
      (stem name).toList ++ '.' :: extension.toList := by simp
  refine ⟨?_, ?_⟩
  · have hsome : extension.toList ≠ [] := by
      intro hnil
      have hbusy := hextension.busy
      rw [hnil] at hbusy
      cases hbusy
    rw [hchars, isIdle]
    cases (stem name).toList <;> simp_all
  · rw [hchars, List.mem_append, List.mem_cons]
    rintro (hstem | hdot | hmem)
    · exact h (mem_of_mem_stem hstem)
    · cases hdot
    · exact hextension.uncut hmem

/-- **A file with another extension** lies in the same directory. -/
theorem components_withExtension {path name extension : String}
    (h : (components path).getLast? = some name) (hextension : IsName extension) :
    components (withExtension path extension) =
      (components path).dropLast ++ [stem name ++ "." ++ extension] := by
  have hname := isName_of_mem_components (List.mem_of_getLast? h)
  rw [withExtension, h]
  dsimp only
  rw [components_join, components_parent, components_name (isName_extended hname.uncut hextension)]

/-! ## File names -/

/-- What follows the last dot. -/
theorem takeWhile_reverse_extended {head tail : List Char} (htail : '.' ∉ tail) :
    ((head ++ '.' :: tail).reverse.takeWhile (· ≠ '.')).reverse = tail := by
  have hfree : ∀ c ∈ tail.reverse, (c ≠ '.' : Bool) = true := by
    intro c hc
    simpa using fun heq : c = '.' => htail (heq ▸ List.mem_reverse.1 hc)
  rw [List.reverse_append, List.reverse_cons, List.append_assoc,
    List.takeWhile_append_of_pos hfree]
  simp

theorem take_extended (head tail : List Char) :
    (head ++ '.' :: tail).take ((head ++ '.' :: tail).length - tail.length - 1) = head := by
  have hlength : (head ++ '.' :: tail).length - tail.length - 1 = head.length := by
    rw [List.length_append, List.length_cons]
    omega
  rw [hlength, List.take_left]

/-- **A file name with an extension** is cut before it. -/
theorem cutName_extended {head tail : List Char} (hhead : head ≠ []) (htail : '.' ∉ tail) :
    cutName (head ++ '.' :: tail) = (head, some tail) := by
  have hlong : tail.length ≠ (head ++ '.' :: tail).length := by
    rw [List.length_append, List.length_cons]
    omega
  rw [cutName, takeWhile_reverse_extended htail, take_extended, if_neg]
  simpa [hhead] using hlong

/-- A file name is cut at its last dot, or it has no extension. -/
theorem cutName_cases (name : List Char) :
    cutName name = (name, none) ∨ ∃ head tail, name = head ++ '.' :: tail ∧ head ≠ [] ∧
      '.' ∉ tail ∧ cutName name = (head, some tail) := by
  by_cases hdot : '.' ∈ name.reverse
  · obtain ⟨after, before, hname, hafter⟩ := List.eq_append_cons_of_mem hdot
    have hsplit : name = before.reverse ++ '.' :: after.reverse := by
      rw [← List.reverse_reverse name, hname]
      simp
    have htail : '.' ∉ after.reverse := by simpa using hafter
    by_cases hbefore : before = []
    · subst hbefore
      rw [hsplit, cutName, takeWhile_reverse_extended htail, take_extended]
      exact .inl (if_pos (by simp))
    · have hhead : before.reverse ≠ [] := by simpa using hbefore
      rw [hsplit]
      exact .inr ⟨_, _, rfl, hhead, htail, cutName_extended hhead htail⟩
  · have hall : name.reverse.takeWhile (· ≠ '.') = name.reverse := by
      rw [List.takeWhile_eq_self_iff]
      intro c hc
      simpa using fun heq : c = '.' => hdot (heq ▸ hc)
    rw [cutName, hall, List.reverse_reverse]
    exact .inl (if_pos (by simp))

/-- The stem of a name with an extension. -/
theorem stem_extended {name extension : String} (hname : name ≠ "")
    (hextension : '.' ∉ extension.toList) : stem (name ++ "." ++ extension) = name := by
  have hchars : (name ++ "." ++ extension).toList = name.toList ++ '.' :: extension.toList := by
    simp
  rw [stem, hchars, cutName_extended (by simpa using hname) hextension, String.ofList_toList]

theorem extension?_extended {name extension : String} (hname : name ≠ "")
    (hextension : '.' ∉ extension.toList) :
    extension? (name ++ "." ++ extension) = some extension := by
  have hchars : (name ++ "." ++ extension).toList = name.toList ++ '.' :: extension.toList := by
    simp
  rw [extension?, hchars, cutName_extended (by simpa using hname) hextension, Option.map_some,
    String.ofList_toList]

/-- A file name with an extension is its stem and the extension, with a dot between them. -/
theorem eq_of_extension? {file extension : String} (h : extension? file = some extension) :
    file = stem file ++ "." ++ extension ∧ stem file ≠ "" := by
  rcases cutName_cases file.toList with hcut | ⟨head, tail, hfile, hhead, -, hcut⟩
  · rw [extension?, hcut] at h
    cases h
  · rw [extension?, hcut] at h
    obtain rfl := Option.some.inj h
    rw [stem, hcut]
    refine ⟨?_, by simpa using hhead⟩
    rw [← String.toList_inj, hfile]
    simp

/-! ## What lies in a directory -/

/-- **A path leads to what goes by that name in a directory**, and starts where the directory's path
does. -/
structure Inside (directory name path : String) : Prop where
  leads : components path = components directory ++ [name]
  root : path.startsWith "/" = directory.startsWith "/"

theorem startsWith_slash_iff {path : String} :
    path.startsWith "/" = true ↔ path.toList.head? = some '/' := by
  rw [String.startsWith_string_iff, List.head?_eq_some_iff]
  exact ⟨fun ⟨cs, h⟩ => ⟨cs, h.symm⟩, fun ⟨cs, h⟩ => ⟨cs, h.symm⟩⟩

theorem startsWith_append {before : String} (h : before ≠ "") (after : String) :
    (before ++ after).startsWith "/" = before.startsWith "/" := by
  have hhead : (before ++ after).toList.head? = before.toList.head? := by
    rw [String.toList_append]
    cases hchars : before.toList with
    | nil => exact absurd (by simpa using hchars) h
    | cons c cs => rfl
  rw [Bool.eq_iff_iff, startsWith_slash_iff, startsWith_slash_iff, hhead]

theorem startsWith_name {name : String} (h : '/' ∉ name.toList) :
    name.startsWith "/" = false := by
  rw [← Bool.not_eq_true, startsWith_slash_iff]
  exact fun hhead => h (List.mem_of_head? hhead)

/-- A name is put behind a directory. -/
theorem inside_join {directory name : String} (h : IsName name) :
    Inside directory name (join directory name) := by
  refine ⟨by rw [components_join, components_name h], ?_⟩
  by_cases hempty : directory = ""
  · subst hempty
    rw [join, if_pos (by rfl), String.empty_append]
    exact startsWith_name h.uncut
  · rw [join]
    split
    · exact startsWith_append hempty name
    · rw [String.append_assoc, startsWith_append hempty]

theorem startsWith_parent (path : String) :
    (parent path).startsWith "/" = path.startsWith "/" := by
  rw [parent, ofComponents]
  cases path.startsWith "/" with
  | true =>
    rw [if_pos rfl, startsWith_append (by decide)]
    exact startsWith_slash_iff.2 rfl
  | false =>
    rw [if_neg Bool.false_ne_true, String.empty_append, ← Bool.not_eq_true, startsWith_slash_iff,
      String.toList_intercalate]
    intro hhead
    cases hnames : (components path).dropLast with
    | nil =>
      rw [hnames] at hhead
      cases hhead
    | cons name rest =>
      have hname : IsName name := by
        have hmem : name ∈ components path :=
          (List.dropLast_sublist _).subset (hnames ▸ List.mem_cons_self)
        exact isName_of_mem_components hmem
      -- a name is not empty, so the path starts with its first character
      cases hchars : name.toList with
      | nil =>
        have hbusy := hname.busy
        rw [hchars] at hbusy
        cases hbusy
      | cons c cs =>
        have hc : c = '/' := by
          rw [hnames] at hhead
          cases rest <;> simpa [hchars] using hhead
        exact hname.uncut (by rw [hchars, hc]; exact List.mem_cons_self)

/-- A file with another extension lies where the file does. -/
theorem Inside.withExtension {directory name path extension : String}
    (h : Inside directory name path) (hextension : IsName extension) :
    Inside directory (stem name ++ "." ++ extension) (withExtension path extension) := by
  have hlast : (components path).getLast? = some name := by rw [h.leads, List.getLast?_concat]
  refine ⟨?_, ?_⟩
  · rw [components_withExtension hlast hextension, h.leads, List.dropLast_concat]
  · have hname : IsName name := isName_of_mem_components (List.mem_of_getLast? hlast)
    rw [Path.withExtension, hlast]
    dsimp only
    rw [(inside_join (isName_extended hname.uncut hextension)).root, startsWith_parent, h.root]

end Path
end Stylus
