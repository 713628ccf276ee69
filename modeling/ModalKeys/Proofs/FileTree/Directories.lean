import ModalKeys.Proofs.FileTree

/-!
# Making directories

Making the directories around a path loses nothing that was there and makes no file. It may fail
after it has made some of them, and then the directory is not there: a file in that directory cannot
be read, before or after. So around a file that can be read nothing is missing
(`createParents_of_contents`). All that each new directory preserves is preserved by the whole
(`createParts_preserves`).
-/

namespace ModalKeys.FileTree

variable {t t' : FileTree} {path : String} {c : Contents} {e : FileError}

theorem extends_createDirectory (made : t.createDirectory path = .ok t') : t.Extends t' := by
  obtain ⟨place, name, -, free, rfl⟩ := createDirectory_eq_ok made
  exact extends_set free .directory

theorem wellFormed_createDirectory (wf : t.WellFormed) (made : t.createDirectory path = .ok t') :
    t'.WellFormed := by
  obtain ⟨place, name, spot, free, rfl⟩ := createDirectory_eq_ok made
  exact wellFormed_set wf spot.directory (by simp [free]) .directory

/-- With one more component, the directory is made, or it is looked for where it was to be made, or
those around it could not be made. -/
theorem createParts_cons (t : FileTree) (part : String) (outer : List String)
    (named : Path.ofParts (part :: outer).reverse = path) :
    ∃ t₁, (t₁ = t ∨ t₁ = (t.createParts outer).1) ∧
      ((∃ made, t₁.createDirectory path = .ok made ∧
          t.createParts (part :: outer) = (made, .ok ())) ∨
        (∃ e, t.createParts (part :: outer) =
          (t₁, if t₁.isDirectory path then .ok () else .error e)) ∨
        ∃ e, t.createParts outer = (t₁, .error e) ∧
          t.createParts (part :: outer) = (t₁, .error e)) := by
  rw [createParts, named]
  cases first : t.createDirectory path with
  | ok made => exact ⟨t, .inl rfl, .inl ⟨made, first, rfl⟩⟩
  | error e =>
    -- only where something around it is missing is there a second attempt
    by_cases hole : e = .missing
    · subst hole
      rcases around : t.createParts outer with ⟨t₁, e | ⟨⟩⟩
      · exact ⟨t₁, .inr rfl, .inr (.inr ⟨e, rfl, rfl⟩)⟩
      · cases second : t₁.createDirectory path with
        | ok made => exact ⟨t₁, .inr rfl, .inl ⟨made, second, by simp [second]⟩⟩
        | error e => exact ⟨t₁, .inr rfl, .inr (.inl ⟨e, by simp [second]⟩)⟩
    · refine ⟨t, .inl rfl, .inr (.inl ⟨e, ?_⟩)⟩
      cases e <;> first | rfl | exact absurd rfl hole

/-- What each new directory preserves is true in the end, also if not all could be made. -/
theorem createParts_preserves {P : FileTree → Prop} (begins : P t)
    (step : ∀ {before after path}, P before → before.createDirectory path = .ok after → P after)
    (ps : List String) : P (t.createParts ps).1 := by
  induction ps with
  | nil => exact begins
  | cons part outer ih =>
    obtain ⟨t₁, origin, last⟩ := createParts_cons t part outer rfl
    have before : P t₁ := by
      rcases origin with rfl | rfl
      · exact begins
      · exact ih
    rcases last with ⟨made, new, result⟩ | ⟨e, result⟩ | ⟨e, -, result⟩
    · rw [result]
      exact step before new
    · rwa [result]
    · rwa [result]

theorem extends_createParts (t : FileTree) (ps : List String) : t.Extends (t.createParts ps).1 :=
  createParts_preserves (Extends.refl t) (fun before made =>
    before.trans (extends_createDirectory made)) ps

theorem fileAt?_createParts (t : FileTree) (p : Place) (ps : List String) :
    (t.createParts ps).1.fileAt? p = t.fileAt? p := by
  refine createParts_preserves (P := fun t' => t'.fileAt? p = t.fileAt? p) rfl ?_ ps
  intro before after path same made
  obtain ⟨place, name, -, free, rfl⟩ := createDirectory_eq_ok made
  rw [fileAt?_set_directory free, same]

theorem wellFormed_createParts (wf : t.WellFormed) (ps : List String) :
    (t.createParts ps).1.WellFormed :=
  createParts_preserves wf wellFormed_createDirectory ps

theorem checkPath_of_sublist {front : String} (checked : checkPath path = .ok ())
    (filled : front ≠ "") (letters : front.toList.Sublist path.toList) :
    checkPath front = .ok () := by
  have shorter : front.utf8ByteSize ≤ path.utf8ByteSize := by
    rw [← String.utf8Len_toList, ← String.utf8Len_toList]
    exact String.utf8Len_le_of_sublist letters
  unfold checkPath at checked ⊢
  split_ifs at checked with nul empty long
  have nul' : ¬front.toList.contains (Char.ofNat 0) := by
    simp only [List.contains_iff_mem] at nul ⊢
    exact fun inside => nul (letters.subset inside)
  rw [if_neg nul', if_neg (by simpa using filled), if_neg (by omega)]

theorem isDirectory_front {ps : List String} {part : String}
    (components : Path.Components (ps ++ [part])) (inner : ps ≠ [])
    (directory : t.isDirectory (Path.ofParts (ps ++ [part]))) :
    t.isDirectory (Path.ofParts ps) := by
  obtain ⟨steps, rest, longer⟩ := Path.ofParts_concat inner (components.last inner)
  have filled : Path.ofParts ps ≠ "" := components.front.ofParts_ne_empty inner
  obtain ⟨⟨checked, way⟩, -⟩ := isDirectory_iff.mp directory
  have start : t.start (Path.ofParts (ps ++ [part])) = t.start (Path.ofParts ps) := by
    rw [FileTree.start, FileTree.start, longer, Path.isAbsolute_append filled]
  rw [steps, start, passable_concat] at way
  have letters : (Path.ofParts ps).toList.Sublist (Path.ofParts (ps ++ [part])).toList := by
    rw [longer, String.toList_append]
    exact List.sublist_append_left _ _
  exact isDirectory_iff.mpr ⟨⟨checkPath_of_sublist checked filled letters, way.1⟩, way.2.directory⟩

/-- Directories that could not be made are not there. -/
theorem isDirectory_of_createParts_error {ps : List String}
    (components : Path.Components ps.reverse) (failed : (t.createParts ps).2 = .error e) :
    (t.createParts ps).1.isDirectory (Path.ofParts ps.reverse) = false := by
  induction ps generalizing e with
  | nil => simp [createParts] at failed
  | cons part outer ih =>
    obtain ⟨t₁, -, step⟩ := createParts_cons t part outer rfl
    rcases step with ⟨made, -, result⟩ | ⟨e, result⟩ | ⟨e, around, result⟩
    · simp [result] at failed
    · rw [result] at failed ⊢
      split_ifs at failed with there
      simpa using there
    · -- then those around it are not all there
      rw [List.reverse_cons] at components
      have missing := ih components.front (congrArg Prod.snd around)
      rw [around] at missing
      rw [result, List.reverse_cons, ← Bool.not_eq_true]
      intro there
      have inner : outer.reverse ≠ [] := by
        intro empty
        rw [List.reverse_eq_nil_iff.mp empty] at around
        simp [createParts] at around
      simp [isDirectory_front components inner there] at missing

/-! ### Around a path -/

theorem extends_createParents (t : FileTree) (path : String) :
    t.Extends (t.createParents path).1 := by
  unfold createParents
  split
  · exact .refl t
  · exact extends_createParts t _

/-- Directories are made where there is no file. -/
theorem fileAt?_createParents (t : FileTree) (path : String) (p : Place) :
    (t.createParents path).1.fileAt? p = t.fileAt? p := by
  unfold createParents
  split
  · rfl
  · exact fileAt?_createParts t p _

theorem wellFormed_createParents (wf : t.WellFormed) (path : String) :
    (t.createParents path).1.WellFormed := by
  unfold createParents
  split
  · exact wf
  · exact wellFormed_createParts wf _

theorem isDirectory_parent {ss outer : List String} {name : String} {place : Place}
    (spot : t.IsSpot path place name) (split : Path.steps path = ss ++ [name])
    (parent : Path.IsParent path ss outer) (inner : outer ≠ []) :
    t.isDirectory (Path.ofParts outer) := by
  obtain ⟨ss', split', way, rfl⟩ := spot.steps
  obtain rfl : ss' = ss := (List.append_inj' (split'.symm.trans split) rfl).1
  have start : t.start (Path.ofParts outer) = t.start path := by
    rw [FileTree.start, FileTree.start, parent.absolute]
  -- the two paths differ in their dots alone
  have goal : t.goal (Path.ofParts outer) = ss'.foldl target (t.start path) := by
    rw [FileTree.goal, start, ← foldl_target_filter, parent.steps, foldl_target_filter]
  have directory : t.entry? (t.goal (Path.ofParts outer)) = some .directory :=
    goal ▸ spot.directory
  refine isDirectory_iff.mpr ⟨⟨?_, ?_⟩, directory⟩
  · have filled : Path.ofParts outer ≠ "" := parent.components.ofParts_ne_empty inner
    exact checkPath_of_sublist spot.checked filled parent.letters
  · rw [← passable_filter_iff directory, parent.steps, start, passable_filter_iff spot.directory]
    exact way

theorem createParents_of_contents (wf : t.WellFormed)
    (read : (t.createParents path).1.contents path = .ok c) :
    (t.createParents path).2 = .ok () := by
  obtain ⟨place, name, spot, -⟩ := exists_isSpot (wellFormed_createParents wf path) read
  obtain ⟨ss, split, -⟩ := spot.steps
  obtain ⟨outer, parent⟩ := Path.exists_isParent split spot.plain.1
  have around : t.createParents path = t.createParts outer.reverse := by
    simp only [createParents, parent.found]
  rw [around] at spot ⊢
  cases result : (t.createParts outer.reverse).2 with
  | ok => rfl
  | error e =>
    have components : Path.Components outer.reverse.reverse := by
      rw [List.reverse_reverse]
      exact parent.components
    -- then the directory is not there, although the file is in it
    have missing := isDirectory_of_createParts_error components result
    have inner : outer ≠ [] := by
      rintro rfl
      simp [createParts] at result
    rw [List.reverse_reverse, isDirectory_parent spot split parent inner] at missing
    cases missing

end ModalKeys.FileTree
