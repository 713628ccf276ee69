import ModalKeys.Proofs.Engine
import ModalKeys.Proofs.Keymap.Grouping
import ModalKeys.Proofs.Keymap.History

/-!
# Keymaps as directive files

Reading the file that `Keymap.render` writes gives the keymap back when the keys of its mappings are
words, and only then. One way, each mapping is written as a line of its own, whose words are the
keyword and the keys; so the file is read as one insertion for each mapping, and no key comes twice.
The other way, whatever is read from a file has words as its keys, so a mapping with other keys
cannot come back.
-/

namespace ModalKeys

namespace Mapping

/-- The keys of the mapping can be written in a directive. -/
def Writable (m : Mapping) : Prop :=
  Text.IsWord m.lhs.toList ∧ Text.IsWord m.rhs.toList

instance (m : Mapping) : Decidable m.Writable :=
  inferInstanceAs (Decidable (_ ∧ _))

/-- The request to make the mapping. -/
def request (m : Mapping) : Request :=
  .bind (.only m.mode) m.lhs m.rhs

theorem toList_display (m : Mapping) :
    m.display.toList = (Command.keyword ⟨.bind, .only m.mode⟩).toList ++
      ' ' :: (m.lhs.toList ++ ' ' :: m.rhs.toList) := by
  simp [display, String.toList_append, toString]

variable {m : Mapping}

theorem tokens_display (writable : m.Writable) :
    Line.tokens m.display.toList = [Command.keyword ⟨.bind, .only m.mode⟩, m.lhs, m.rhs] := by
  have space : Text.isBlank ' ' = true := by decide
  rw [Line.tokens, toList_display, Text.words_isWord_append_blank (Command.isWord_keyword _) space,
    Text.words_isWord_append_blank writable.1 space, Text.words_of_isWord writable.2]
  simp

theorem newline_not_mem_display (writable : m.Writable) : '\n' ∉ m.display.toList := by
  rw [toList_display]
  simp [Text.newline_not_mem_of_isWord writable.1, Text.newline_not_mem_of_isWord writable.2,
    Text.newline_not_mem_of_isWord (Command.isWord_keyword _)]

theorem request?_display (writable : m.Writable) :
    (Line.ofChars m.display.toList).request? = some m.request := by
  apply Line.request?_eq_some_iff.mpr
  rw [tokens_display writable]
  exact .bind (.only m.mode) m.lhs m.rhs

end Mapping

/-- A file of comments and of mappings under them is read as the mappings alone. -/
theorem interpret_mappings {text : String} {remarks : List (List Char)} {ms : List Mapping}
    (comments : ∀ l ∈ remarks, '\n' ∉ l ∧ Line.ofChars l = .comment)
    (writable : ∀ m ∈ ms, m.Writable)
    (written : text.toList =
      (remarks ++ ms.map fun m => m.display.toList).flatMap (· ++ ['\n'])) :
    (interpret text).requests = ms.map Mapping.request ∧
    (interpret text).lineCount = remarks.length + ms.length ∧
    (interpret text).problems = [] := by
  have inside : ∀ l ∈ remarks ++ ms.map (fun m => m.display.toList), '\n' ∉ l := by
    intro l member
    rcases List.mem_append.mp member with above | below
    · exact (comments l above).1
    · obtain ⟨m, stored, rfl⟩ := List.mem_map.mp below
      exact Mapping.newline_not_mem_display (writable m stored)
  obtain ⟨requests, count, problems⟩ := Interpretation.interpret_ended inside written
  refine ⟨?_, ?_, problems.mpr ?_⟩
  · -- a comment gives no request, and a mapping gives its own
    have silent : remarks.filterMap (fun l => (Line.ofChars l).request?) = [] := by
      apply List.filterMap_eq_nil_iff.mpr
      intro l member
      rw [(comments l member).2]
      rfl
    rw [requests, List.filterMap_append, silent, List.nil_append, List.filterMap_map,
      ← List.filterMap_eq_map]
    exact List.filterMap_congr fun m member => Mapping.request?_display (writable m member)
  · rw [count, List.length_append, List.length_map]
  · intro l member
    rcases List.mem_append.mp member with above | below
    · rw [(comments l above).2]
      rfl
    · obtain ⟨m, stored, rfl⟩ := List.mem_map.mp below
      exact Line.fault?_of_request? (Mapping.request?_display (writable m stored))

namespace Keymap

/-! ### Writing -/

/-- A written keymap has one ended line for each mapping. -/
theorem toList_render (k : Keymap) :
    k.render.toList =
      ((byMode k.mappings).map fun m => m.display.toList).flatMap (· ++ ['\n']) := by
  rw [render, grouped_eq_byMode, String.toList_join, List.flatMap_map, List.flatMap_map]
  simp

theorem interpret_render {k : Keymap} (writable : ∀ m ∈ k.mappings, m.Writable) :
    (interpret k.render).requests = (byMode k.mappings).map Mapping.request ∧
    (interpret k.render).lineCount = k.mappings.length ∧
    (interpret k.render).problems = [] := by
  have comments : ∀ l ∈ ([] : List (List Char)), '\n' ∉ l ∧ Line.ofChars l = .comment := by simp
  have lines := interpret_mappings comments (forall_mem_byMode.mpr writable) (toList_render k)
  rwa [List.length_nil, Nat.zero_add, length_byMode] at lines

/-! ### Reading -/

/-- Mappings with different keys are stored as they come. -/
theorem mappings_editAll_insert (defaults : List Mode) {ms : List Mapping}
    (unique : (ms.map Mapping.key).Nodup) :
    ((empty defaults).editAll (ms.map Edit.insert)).mappings = ms := by
  induction ms using List.reverseRecOn with
  | nil => rfl
  | append_singleton ms m ih =>
    rw [List.map_append, List.nodup_append] at unique
    obtain ⟨before, -, apart⟩ := unique
    -- the keys before are different, so the new mapping comes last
    have absent : m.key ∉ ms.map Mapping.key := fun inside => apart m.key inside m.key (by simp) rfl
    rw [List.map_append, editAll_append]
    refine Eq.trans ?_ (Mapping.place_of_absent absent)
    exact congrArg m.place (ih before)

theorem mappings_applyAll_request (defaults : List Mode) {ms : List Mapping}
    (unique : (ms.map Mapping.key).Nodup) :
    (Engine.applyAll (empty defaults) (ms.map Mapping.request)).engine.mappings = ms := by
  have edits : (ms.map Mapping.request).flatMap (requestEdits defaults) = ms.map Edit.insert := by
    rw [List.flatMap_map, List.map_eq_flatMap]
    rfl
  have run := applyAll_eq_editAll (empty defaults) (ms.map Mapping.request)
  rw [run]
  exact (congrArg (fun es => ((empty defaults).editAll es).mappings) edits).trans
    (mappings_editAll_insert defaults unique)

/-- Whatever is read from a file can be written in one. -/
theorem writable_of_interpret (defaults : List Mode) (text : String) :
    ∀ m ∈ (Engine.applyAll (empty defaults) (interpret text).requests).engine.mappings,
      m.Writable := by
  rw [applyAll_eq_editAll]
  -- every mapping that is put in comes from a request, and this one from a line
  refine forall_mem_editAll (by simp [empty]) fun m member => ?_
  obtain ⟨r, given, inserted⟩ := List.mem_flatMap.mp member
  rw [Interpretation.requests_interpret] at given
  obtain ⟨line, -, read⟩ := List.mem_filterMap.mp given
  obtain ⟨left, right⟩ := Line.isWord_of_request? read
  obtain ⟨keys, value⟩ := of_insert_mem_requestEdits inserted
  exact ⟨keys ▸ left, right m.rhs value⟩

/-! ### Reading what was written -/

variable {k k' : Keymap}

theorem render_eq_of_byMode (grouped : k'.mappings = byMode k.mappings) : k'.render = k.render := by
  rw [render, render, grouped_eq_byMode, grouped_eq_byMode, grouped, byMode_byMode]

theorem mappings_read_render (defaults : List Mode) (unique : (k.mappings.map Mapping.key).Nodup)
    (writable : ∀ m ∈ k.mappings, m.Writable) :
    (Engine.applyAll (empty defaults) (interpret k.render).requests).engine.mappings =
      byMode k.mappings := by
  rw [(interpret_render writable).1]
  exact mappings_applyAll_request defaults (nodup_keys_byMode unique)

/-- **Writing is lossless exactly when the keys are words**: whatever was done to a keymap, the file
it is written as gives its mappings back, grouped by mode, if and only if all their keys are words.
Then the file has no problem, one line for each mapping, and it is written again the same. -/
theorem render_lossless_iff (defaults others : List Mode) (as : List Action) :
    let k := (empty defaults).performAll as
    let i := interpret k.render
    let read := Engine.applyAll (empty others) i.requests
    (read.engine.mappings = byMode k.mappings ↔ ∀ m ∈ k.mappings, m.Writable) ∧
    ((∀ m ∈ k.mappings, m.Writable) →
      i.problems = [] ∧ i.lineCount = k.mappings.length ∧ read.answer = k.mappings.length ∧
      (∀ mode lhs, read.engine.lookup mode lhs = k.lookup mode lhs) ∧
      read.engine.render = k.render) := by
  intro k i read
  have unique : (k.mappings.map Mapping.key).Nodup := nodup_keys_performAll defaults as
  refine ⟨⟨fun same m stored => ?_, mappings_read_render others unique⟩, fun writable => ?_⟩
  · -- what came back was read from a file
    have member : m ∈ read.engine.mappings := by
      rw [same]
      exact (byMode_perm k.mappings).mem_iff.mpr stored
    exact writable_of_interpret others k.render m member
  · obtain ⟨requests, count, problems⟩ := interpret_render writable
    have same : read.engine.mappings = byMode k.mappings :=
      mappings_read_render others unique writable
    refine ⟨problems, count, ?_, fun mode lhs => ?_, render_eq_of_byMode same⟩
    · have answer := Engine.answer_applyAll_interpret (empty others) k.render
      rw [requests, List.length_map, length_byMode] at answer
      rw [← answer, ← requests]
    · exact lookup_eq_of_perm unique (same ▸ byMode_perm k.mappings) mode lhs

/-- A blank inside the keys is enough to lose the mapping. -/
example : ¬Mapping.Writable ⟨.normal, "a b", "c"⟩ := by decide

end Keymap

end ModalKeys
