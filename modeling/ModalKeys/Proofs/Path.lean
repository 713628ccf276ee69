import Mathlib.Data.String.Basic
import ModalKeys.Path

/-!
# Components of a path

A path and its components say the same: the steps of a path that is put together from names are the
names, and the parent of a path takes the same steps but the last. A slash cuts a path in two, and
the segments of the path are those of the one and then those of the other
(`segments_append_slash`). All else is about lists of segments.
-/

namespace ModalKeys.Path

/-! ### Segments -/

theorem segments_ne_nil (cs : List Char) : segments cs ≠ [] := by
  cases cs with
  | nil => simp [segments]
  | cons c cs =>
    unfold segments
    split
    · simp
    · split <;> simp

theorem segments_slash_cons (cs : List Char) : segments ('/' :: cs) = [] :: segments cs := by
  simp [segments]

theorem segments_letter_cons {c : Char} (letter : c ≠ '/') (cs : List Char) :
    ∃ s rest, segments cs = s :: rest ∧ segments (c :: cs) = (c :: s) :: rest := by
  obtain ⟨s, rest, split⟩ := List.exists_cons_of_ne_nil (segments_ne_nil cs)
  exact ⟨s, rest, split, by simp [segments, letter, split]⟩

theorem segments_append_slash (cs ds : List Char) :
    segments (cs ++ '/' :: ds) = segments cs ++ segments ds := by
  induction cs with
  | nil => exact segments_slash_cons ds
  | cons c cs ih =>
    by_cases letter : c = '/'
    · rw [letter, List.cons_append, segments_slash_cons, segments_slash_cons, ih]
      rfl
    · obtain ⟨s, rest, split, whole⟩ := segments_letter_cons letter cs
      obtain ⟨s', rest', split', whole'⟩ := segments_letter_cons letter (cs ++ '/' :: ds)
      rw [ih, split] at split'
      obtain ⟨rfl, rfl⟩ := List.cons.inj split'
      rw [List.cons_append, whole', whole]
      rfl

theorem segments_of_not_mem {cs : List Char} (plain : '/' ∉ cs) : segments cs = [cs] := by
  induction cs with
  | nil => rfl
  | cons c cs ih =>
    rw [List.mem_cons, not_or] at plain
    obtain ⟨s, rest, split, whole⟩ := segments_letter_cons (Ne.symm plain.1) cs
    rw [ih plain.2] at split
    obtain ⟨rfl, rfl⟩ := List.cons.inj split
    exact whole

theorem slash_not_mem_of_mem_segments {cs s : List Char} (member : s ∈ segments cs) : '/' ∉ s := by
  induction cs generalizing s with
  | nil => simp_all [segments]
  | cons c cs ih =>
    by_cases letter : c = '/'
    · rw [letter, segments_slash_cons] at member
      rcases List.mem_cons.mp member with rfl | later
      · simp
      · exact ih later
    · obtain ⟨t, rest, split, whole⟩ := segments_letter_cons letter cs
      rw [whole] at member
      rcases List.mem_cons.mp member with rfl | later
      · have inside : '/' ∉ t := ih (split ▸ List.mem_cons_self)
        simp [Ne.symm letter, inside]
      · exact ih (split ▸ List.mem_cons_of_mem t later)

theorem intercalate_segments (cs : List Char) :
    "/".intercalate ((segments cs).map String.ofList) = String.ofList cs := by
  induction cs with
  | nil => rfl
  | cons c cs ih =>
    by_cases letter : c = '/'
    · rw [letter, segments_slash_cons, List.map_cons,
        String.intercalate_cons_of_ne_nil (by simpa using segments_ne_nil cs), ih]
      apply String.toList_injective
      simp
    · obtain ⟨s, rest, split, whole⟩ := segments_letter_cons letter cs
      have front : String.ofList (c :: s) = String.ofList [c] ++ String.ofList s := by
        rw [← String.ofList_append]
        rfl
      rw [split, List.map_cons] at ih
      rw [whole, List.map_cons, front, String.intercalate_cons_append, ih, ← String.ofList_append]
      rfl

/-! ### Steps -/

/-- A text that can be one step of a path. -/
def IsName (s : String) : Prop :=
  s ≠ "" ∧ '/' ∉ s.toList

theorem steps_append_slash (a b : String) : steps (a ++ "/" ++ b) = steps a ++ steps b := by
  have whole : (a ++ "/" ++ b).toList = a.toList ++ '/' :: b.toList := by simp
  rw [steps, whole, segments_append_slash, List.filter_append, List.map_append]
  rfl

theorem steps_of_isName {s : String} (name : IsName s) : steps s = [s] := by
  have letters : s.toList ≠ [] := by simpa using name.1
  rw [steps, segments_of_not_mem name.2]
  simp [letters]

theorem isName_of_mem_steps {path s : String} (member : s ∈ steps path) : IsName s := by
  obtain ⟨name, inside, rfl⟩ := List.mem_map.mp member
  obtain ⟨segment, letters⟩ := List.mem_filter.mp inside
  refine ⟨?_, ?_⟩
  · simpa using letters
  · rw [String.toList_ofList]
    exact slash_not_mem_of_mem_segments segment

theorem steps_slash_append (s : String) : steps ("/" ++ s) = steps s := by
  have whole : ("/" ++ s).toList = '/' :: s.toList := by simp
  rw [steps, whole, segments_slash_cons]
  rfl

theorem steps_intercalate {names : List String} (each : ∀ n ∈ names, IsName n) :
    steps ("/".intercalate names) = names := by
  induction names with
  | nil => rfl
  | cons n rest ih =>
    have first : steps n = [n] := steps_of_isName (each n List.mem_cons_self)
    by_cases last : rest = []
    · rw [last, String.intercalate_singleton, first]
    · rw [String.intercalate_cons_of_ne_nil last, steps_append_slash, first,
        ih fun m member => each m (List.mem_cons_of_mem n member)]
      rfl

/-! ### Parts -/

theorem ofParts_slash_cons (rest : List String) :
    ofParts ("/" :: rest) = "/" ++ "/".intercalate rest :=
  rfl

theorem ofParts_of_head? {ps : List String} (relative : ps.head? ≠ some "/") :
    ofParts ps = "/".intercalate ps := by
  unfold ofParts
  split
  · simp at relative
  · rfl

/-- One more part is one more step, and the path before it is where the longer path begins. -/
theorem ofParts_concat {ps : List String} (front : ps ≠ []) {p : String} (name : IsName p) :
    steps (ofParts (ps ++ [p])) = steps (ofParts ps) ++ [p] ∧
    ∃ rest, ofParts (ps ++ [p]) = ofParts ps ++ rest := by
  have last : steps p = [p] := steps_of_isName name
  by_cases absolute : ps.head? = some "/"
  · -- the root comes with its slash, so none is put between it and the first name
    obtain ⟨names, rfl⟩ := List.head?_eq_some_iff.mp absolute
    rw [List.cons_append, ofParts_slash_cons, ofParts_slash_cons, steps_slash_append,
      steps_slash_append]
    by_cases empty : names = []
    · subst empty
      have nothing : steps ("/".intercalate []) = [] := rfl
      rw [nothing, List.nil_append, String.intercalate_singleton, last]
      exact ⟨rfl, p, by simp⟩
    · rw [String.intercalate_append_of_ne_nil empty (List.cons_ne_nil p []),
        String.intercalate_singleton, steps_append_slash, last]
      exact ⟨rfl, "/" ++ p, by simp only [String.append_assoc]⟩
  · have longer : (ps ++ [p]).head? ≠ some "/" := by
      rwa [List.head?_append_of_ne_nil _ front]
    rw [ofParts_of_head? absolute, ofParts_of_head? longer,
      String.intercalate_append_of_ne_nil front (List.cons_ne_nil p []),
      String.intercalate_singleton, steps_append_slash, last]
    exact ⟨rfl, "/" ++ p, by simp only [String.append_assoc]⟩

theorem isAbsolute_append {a : String} (filled : a ≠ "") (b : String) :
    isAbsolute (a ++ b) = isAbsolute a := by
  -- the first letter tells, and it is one of `a`
  have letters : a.toList ≠ [] := by simpa using filled
  rw [isAbsolute, isAbsolute, String.toList_append, List.head?_append_of_ne_nil _ letters]

theorem not_isAbsolute_of_isName {s : String} (name : IsName s) : isAbsolute s = false := by
  unfold isAbsolute
  cases letters : s.toList with
  | nil => rfl
  | cons c cs =>
    have other : c ≠ '/' := fun slash => name.2 (by simp [letters, slash])
    simp [other]

/-- What stands before the names in the parts of a path. -/
def lead (path : String) : List String :=
  if isAbsolute path then ["/"]
  else if (segments path.toList).head? = some ['.'] then ["."]
  else []

theorem parts_eq_lead (path : String) :
    parts path = lead path ++ (steps path).filter (· != ".") := by
  unfold parts lead
  split
  · rfl
  · obtain ⟨s, rest, split⟩ := List.exists_cons_of_ne_nil (segments_ne_nil path.toList)
    rw [split, List.map_cons]
    by_cases dot : s = ['.']
    · subst dot
      rfl
    · have other : String.ofList s ≠ "." := fun same =>
        dot (by simpa using congrArg String.toList same)
      simp [dot, other]

/-! ### The parent -/

theorem intercalate_sublist {xs ys : List String} (sub : xs.Sublist ys) :
    ("/".intercalate xs).toList.Sublist ("/".intercalate ys).toList := by
  induction sub with
  | slnil => exact List.Sublist.refl _
  | @cons xs ys y sub ih =>
    by_cases last : ys = []
    · subst last
      rw [List.sublist_nil.mp sub]
      exact List.nil_sublist _
    · rw [String.intercalate_cons_of_ne_nil last, String.toList_append]
      exact ih.trans (List.sublist_append_right _ _)
  | @cons_cons xs ys y sub ih =>
    by_cases last : xs = []
    · subst last
      rw [String.intercalate_singleton]
      by_cases alone : ys = []
      · rw [alone, String.intercalate_singleton]
      · rw [String.intercalate_cons_of_ne_nil alone, String.append_assoc, String.toList_append]
        exact List.sublist_append_left _ _
    · have longer : ys ≠ [] := fun empty => last (List.sublist_nil.mp (empty ▸ sub))
      rw [String.intercalate_cons_of_ne_nil last, String.intercalate_cons_of_ne_nil longer,
        String.toList_append, String.toList_append (s := y ++ "/")]
      exact (List.Sublist.refl _).append ih

theorem names_sublist (ss : List (List Char)) :
    (((ss.filter fun s => !s.isEmpty).map String.ofList).filter (· != ".")).Sublist
      (ss.map String.ofList) :=
  List.filter_sublist.trans (List.filter_sublist.map _)

theorem parts_sublist {path : String} (relative : isAbsolute path = false) :
    (parts path).Sublist ((segments path.toList).map String.ofList) := by
  rw [parts_eq_lead, lead, if_neg (by simp [relative]), steps]
  obtain ⟨s, rest, split⟩ := List.exists_cons_of_ne_nil (segments_ne_nil path.toList)
  rw [split]
  by_cases dot : s = ['.']
  · -- the leading dot is kept, and then it is no name
    subst dot
    exact (names_sublist rest).cons_cons "."
  · rw [if_neg (by simpa using dot)]
    exact names_sublist (s :: rest)

theorem isName_of_mem_parts {path part : String} (relative : isAbsolute path = false)
    (member : part ∈ parts path) : IsName part := by
  rw [parts_eq_lead, lead, if_neg (by simp [relative])] at member
  rcases List.mem_append.mp member with front | inside
  · split at front
    · rw [List.mem_singleton.mp front]
      exact ⟨by decide, by decide⟩
    · simp at front
  · exact isName_of_mem_steps (List.mem_of_mem_filter inside)

theorem ofParts_of_mem_parts {path : String} (relative : isAbsolute path = false)
    {outer : List String} (inside : ∀ p ∈ outer, p ∈ parts path) :
    ofParts outer = "/".intercalate outer := by
  apply ofParts_of_head?
  intro slash
  have name : IsName "/" := isName_of_mem_parts relative (inside "/" (List.mem_of_head? slash))
  exact name.2 (by decide)

/-- A path is written with at least the letters of what comes before one of its parts. -/
theorem ofParts_sublist {path : String} {outer : List String} (front : outer <+: parts path) :
    (ofParts outer).toList.Sublist path.toList := by
  cases absolute : isAbsolute path
  · rw [ofParts_of_mem_parts absolute fun p member => front.subset member]
    have letters := intercalate_sublist (front.sublist.trans (parts_sublist absolute))
    rwa [intercalate_segments, String.ofList_toList] at letters
  · obtain ⟨cs, letters⟩ : ∃ cs, path.toList = '/' :: cs := by
      simpa [isAbsolute, List.head?_eq_some_iff] using absolute
    rw [parts_eq_lead, lead, if_pos absolute, steps, letters, segments_slash_cons,
      List.singleton_append] at front
    rw [letters]
    cases outer with
    | nil => exact List.nil_sublist _
    | cons first names =>
      obtain ⟨rfl, rest⟩ := List.cons_prefix_cons.mp front
      rw [ofParts_slash_cons, String.toList_append]
      have inner := intercalate_sublist (rest.sublist.trans (names_sublist (segments cs)))
      rw [intercalate_segments, String.toList_ofList] at inner
      exact inner.cons_cons '/'

theorem isAbsolute_intercalate {names : List String} (each : ∀ n ∈ names, IsName n) :
    isAbsolute ("/".intercalate names) = false := by
  cases names with
  | nil => rfl
  | cons n rest =>
    have name : IsName n := each n List.mem_cons_self
    by_cases last : rest = []
    · rw [last, String.intercalate_singleton]
      exact not_isAbsolute_of_isName name
    · rw [String.intercalate_cons_of_ne_nil last, String.append_assoc,
        isAbsolute_append name.1]
      exact not_isAbsolute_of_isName name

/-- Components as a path has them: none is empty, and all but the first are names. -/
structure Components (ps : List String) : Prop where
  filled : ∀ p ∈ ps, p ≠ ""
  names : ∀ p ∈ ps.tail, IsName p

theorem components_of_names {first : String} {names : List String} (filled : first ≠ "")
    (each : ∀ n ∈ names, IsName n) : Components (first :: names) where
  filled p member := by
    rcases List.mem_cons.mp member with rfl | inside
    · exact filled
    · exact (each p inside).1
  names := each

theorem Components.front {ps : List String} {p : String} (whole : Components (ps ++ [p])) :
    Components ps where
  filled q member := whole.filled q (List.mem_append_left [p] member)
  names q member := by
    cases ps with
    | nil => simp at member
    | cons first names => exact whole.names q (List.mem_append_left [p] member)

theorem Components.last {ps : List String} {p : String} (whole : Components (ps ++ [p]))
    (front : ps ≠ []) : IsName p := by
  obtain ⟨first, names, rfl⟩ := List.exists_cons_of_ne_nil front
  exact whole.names p (by simp)

theorem Components.ofParts_ne_empty {ps : List String} (whole : Components ps) (parts : ps ≠ []) :
    ofParts ps ≠ "" := by
  obtain ⟨first, names, rfl⟩ := List.exists_cons_of_ne_nil parts
  have filled : first ≠ "" := whole.filled first List.mem_cons_self
  by_cases root : first = "/"
  · simp [root, ofParts_slash_cons]
  · rw [ofParts_of_head? (by simpa using root)]
    by_cases last : names = []
    · rwa [last, String.intercalate_singleton]
    · simp [String.intercalate_cons_of_ne_nil last, filled]

/-- `outer` are the components of the parent of a path that takes the steps `ss` and one more. -/
structure IsParent (path : String) (ss outer : List String) : Prop where
  found : parent? path = some outer
  components : Components outer
  absolute : isAbsolute (ofParts outer) = isAbsolute path
  steps : (steps (ofParts outer)).filter (· != ".") = ss.filter (· != ".")
  letters : (ofParts outer).toList.Sublist path.toList

/-- A path whose last step is not `.` has a parent, which takes the steps before that one. -/
theorem exists_isParent {path : String} {ss : List String} {last : String}
    (split : steps path = ss ++ [last]) (inside : last ≠ ".") :
    ∃ outer, IsParent path ss outer := by
  have each : ∀ n ∈ ss.filter (· != "."), IsName n := fun n member =>
    isName_of_mem_steps (split ▸ List.mem_append_left [last] (List.mem_of_mem_filter member))
  have whole : parts path = (lead path ++ ss.filter (· != ".")) ++ [last] := by
    rw [parts_eq_lead, split, List.filter_append, ← List.append_assoc]
    simp [inside]
  have found : parent? path = some (lead path ++ ss.filter (· != ".")) := by
    have name : IsName last := isName_of_mem_steps (split ▸ List.mem_append_right ss (by simp))
    -- so the path is not the root, which has no parent
    have slash : last ≠ "/" := by
      rintro rfl
      exact name.2 (by decide)
    simp [parent?, whole]
  have letters := ofParts_sublist (whole ▸ List.prefix_append (lead path ++ ss.filter _) [last])
  cases absolute : isAbsolute path
  · -- all parts are names, the dot at the front too
    have all : ∀ n ∈ lead path ++ ss.filter (· != "."), IsName n := fun n member =>
      isName_of_mem_parts absolute (whole ▸ List.mem_append_left [last] member)
    have text : ofParts (lead path ++ ss.filter (· != ".")) =
        "/".intercalate (lead path ++ ss.filter (· != ".")) :=
      ofParts_of_mem_parts absolute fun n member => whole ▸ List.mem_append_left [last] member
    refine ⟨_, found, ⟨fun n member => (all n member).1,
      fun n member => all n (List.mem_of_mem_tail member)⟩, ?_, ?_, letters⟩
    · rw [text, isAbsolute_intercalate all]
      exact absolute.symm
    · have dots : (lead path).filter (· != ".") = [] := by
        rw [lead, if_neg (by simp [absolute])]
        split <;> rfl
      rw [text, steps_intercalate all, List.filter_append, dots, List.nil_append,
        List.filter_filter]
      simp
  · have root : lead path = ["/"] := if_pos absolute
    rw [root, List.singleton_append] at found letters
    refine ⟨_, found, components_of_names (by decide) each, ?_, ?_, letters⟩
    · rw [ofParts_slash_cons, isAbsolute_append (by decide), absolute]
      rfl
    · rw [ofParts_slash_cons, steps_slash_append, steps_intercalate each, List.filter_filter]
      simp

/-- Only the root, written with slashes alone, takes no step. -/
theorem isAbsolute_of_steps_eq_nil {path : String} (filled : path ≠ "") (root : steps path = []) :
    isAbsolute path := by
  unfold isAbsolute
  unfold steps at root
  cases letters : path.toList with
  | nil => exact absurd (by simpa using letters) filled
  | cons c cs =>
    by_cases slash : c = '/'
    · simp [slash]
    · obtain ⟨s, rest, -, whole⟩ := segments_letter_cons slash cs
      simp [letters, whole] at root

end ModalKeys.Path
