import ModalKeys.Proofs.Keymap.History

/-!
# Doing the same again

A run of edits that is made a second time finds its own results. It changes no lookup, but it may
move mappings: a key that is dropped and put in again on the way comes after the keys that stay in
all the time. From the second time on, the order stays as well.

## Main result

`applyAll_settles`: passing the same requests on again changes what a keymap shows only in order,
and from the second time on in nothing.

## Proof strategy

The history of a keymap decides what it shows, so the histories with the run in them once, twice and
three times are compared. The latest edit of a key is in the last repetition or in none of them
(`stands_repeat_iff`). The position at which a key was put in stays when the run does not drop the
key, and moves on by the length of the run when it does (`exists_opens_before`); so one repetition
more keeps the order of any two positions.
-/

namespace ModalKeys.Keymap

variable {history es : List Edit} {key : Mode × String} {i : Nat}

theorem Edit.Drops.concerns {e : Edit} (drops : e.Drops key) : e.Concerns key := by
  cases e with
  | insert m => exact drops.elim
  | remove mode lhs => exact drops
  | clear => trivial

/-! ### What is stored -/

theorem stands_repeat_iff {m : Mapping} :
    Stands (history ++ es ++ es) m ↔ Stands (history ++ es) m := by
  unfold Stands
  rw [latest_append_iff, latest_append_iff]
  tauto

/-! ### In which order -/

/-- After a run that drops a key, the position of the key is one inside the run. -/
theorem opens_append_iff_of_drops (drops : ∃ e ∈ es, e.Drops key) :
    Opens (history ++ es) key i ↔ ∃ j, Opens es key j ∧ i = history.length + j := by
  obtain ⟨d, dropping, drops⟩ := drops
  constructor
  · rintro ⟨before, m, after, split, position, same, fresh, kept⟩
    rcases List.append_eq_append_iff.mp split with ⟨more, rfl, rfl⟩ | ⟨more, rfl, tail⟩
    · refine ⟨more.length, ⟨more, m, after, rfl, rfl, same, fun e latest => ?_, kept⟩, ?_⟩
      · exact fresh e (latest.append_left history)
      · rw [← position, List.length_append]
    · -- the key would be put in before the run, and dropped by it later
      have inside : d ∈ Edit.insert m :: after := tail ▸ List.mem_append_right more dropping
      rcases List.mem_cons.mp inside with rfl | later
      · exact drops.elim
      · exact absurd drops (kept d later)
  · rintro ⟨j, ⟨before, m, after, rfl, rfl, same, fresh, kept⟩, rfl⟩
    refine ⟨history ++ before, m, after, by simp, by simp, same, fun e latest => ?_, kept⟩
    rcases latest_append_iff.mp latest with here | ⟨-, untouched⟩
    · exact fresh e here
    · -- nothing after the insertion drops the key, so what drops it comes before
      rcases List.mem_append.mp dropping with inside | later
      · exact absurd drops.concerns (untouched d inside)
      · rcases List.mem_cons.mp later with rfl | later
        · exact drops.elim
        · exact absurd drops (kept d later)

/-- The position of a key one repetition before: the same one if it is older than the repetitions,
and else the one at the same place of the repetition before. -/
theorem exists_opens_before (held : ∃ i, Opens history key i)
    (opens : Opens (history ++ es ++ es) key i) :
    ∃ j, Opens (history ++ es) key j ∧
      (j = i ∧ i < history.length ∨ i = j + es.length ∧ history.length ≤ j) := by
  by_cases drops : ∃ e ∈ es, e.Drops key
  · obtain ⟨j, inside, rfl⟩ := (opens_append_iff_of_drops drops).mp opens
    refine ⟨history.length + j, (opens_append_iff_of_drops drops).mpr ⟨j, inside, rfl⟩, Or.inr ?_⟩
    rw [List.length_append]
    omega
  · have keeps : ∀ e ∈ es, ¬e.Drops key := fun e member yes => drops ⟨e, member, yes⟩
    obtain ⟨j, first⟩ := held
    have once := first.append keeps
    obtain rfl := (once.append keeps).unique opens
    exact ⟨j, once, Or.inl ⟨rfl, first.lt⟩⟩

theorem Before.of_repeat {a b : Mode × String} (left : ∃ i, Opens history a i)
    (right : ∃ i, Opens history b i) (before : Before (history ++ es ++ es) a b) :
    Before (history ++ es) a b := by
  obtain ⟨i, j, first, second, less⟩ := before
  obtain ⟨i', first', moved⟩ := exists_opens_before left first
  obtain ⟨j', second', moved'⟩ := exists_opens_before right second
  refine ⟨i', j', first', second', ?_⟩
  -- a position inside a repetition is no earlier than one before them all
  omega

/-! ### A keymap -/

section

variable (defaults : List Mode) (history es : List Edit)

/-- Repeating a run changes nothing but the order. -/
theorem perm_editAll_repeat :
    ((empty defaults).editAll (history ++ es ++ es)).mappings.Perm
      ((empty defaults).editAll (history ++ es)).mappings := by
  have once := recorded_editAll defaults (history ++ es)
  have twice := recorded_editAll defaults (history ++ es ++ es)
  refine (List.perm_ext_iff_of_nodup twice.unique.of_map once.unique.of_map).mpr fun m => ?_
  rw [twice.mem_iff, once.mem_iff]
  exact stands_repeat_iff

theorem mappings_editAll_repeat :
    ((empty defaults).editAll (history ++ es ++ es ++ es)).mappings =
      ((empty defaults).editAll (history ++ es ++ es)).mappings := by
  have once := recorded_editAll defaults (history ++ es)
  have twice := recorded_editAll defaults (history ++ es ++ es)
  have thrice := recorded_editAll defaults (history ++ es ++ es ++ es)
  have perm := perm_editAll_repeat defaults (history ++ es) es
  have perm' := perm_editAll_repeat defaults history es
  -- whatever is stored in the end was put in at some position before the last two repetitions
  have opened : ∀ m ∈ ((empty defaults).editAll (history ++ es ++ es ++ es)).mappings,
      ∃ i, Opens (history ++ es) m.key i := by
    intro m stored
    apply once.opened
    exact List.mem_map_of_mem (perm'.mem_iff.mp (perm.mem_iff.mp stored))
  have ordered := List.pairwise_map.mp twice.ordered
  have ordered' := (List.pairwise_map.mp thrice.ordered).imp_of_mem fun left right before =>
    before.of_repeat (opened _ left) (opened _ right)
  refine perm.eq_of_pairwise ?_ ordered' ordered
  intro a b _ _ before after
  exact absurd after before.asymm

end

/-- **Passing the same requests on again settles.** Whatever was done to a keymap before, the second
time no lookup changes and the mappings are the same in some order, and the third time this order
stays. -/
theorem applyAll_settles (defaults : List Mode) (as : List Action) (rs : List Request) :
    let k := (empty defaults).performAll as
    let pass := fun k : Keymap => (Engine.applyAll k rs).engine
    (∀ mode lhs, (pass (pass k)).lookup mode lhs = (pass k).lookup mode lhs) ∧
    (pass (pass k)).mappings.Perm (pass k).mappings ∧
    (pass (pass (pass k))).mappings = (pass (pass k)).mappings := by
  intro k pass
  let es := rs.flatMap (requestEdits defaults)
  let history := as.flatMap (Action.edits defaults)
  have start : k = (empty defaults).editAll history := performAll_eq_editAll (empty defaults) as
  have step (before : List Edit) :
      pass ((empty defaults).editAll before) = (empty defaults).editAll (before ++ es) := by
    have modes := defaultModes_editAll (empty defaults) before
    rw [editAll_append]
    exact (applyAll_eq_editAll _ rs).trans (by rw [modes]; rfl)
  have once : pass k = (empty defaults).editAll (history ++ es) := by rw [start, step]
  have twice : pass (pass k) = (empty defaults).editAll (history ++ es ++ es) := by rw [once, step]
  have perm : (pass (pass k)).mappings.Perm (pass k).mappings := by
    rw [twice, once]
    exact perm_editAll_repeat defaults history es
  refine ⟨fun mode lhs => ?_, perm, ?_⟩
  · refine lookup_eq_of_perm ?_ perm mode lhs
    rw [once]
    exact (recorded_editAll defaults _).unique
  · rw [twice, step]
    exact mappings_editAll_repeat defaults history es

/-- The second time may change the order: what is unbound and bound again goes to the end. -/
example :
    let rs : List Request := [.unbind (.only .normal) "a", .bind (.only .normal) "a" "1",
      .bind (.only .normal) "b" "2"]
    let pass := fun k : Keymap => (Engine.applyAll k rs).engine
    (pass (empty [])).mappings.map Mapping.lhs = ["a", "b"] ∧
      (pass (pass (empty []))).mappings.map Mapping.lhs = ["b", "a"] := by
  decide

end ModalKeys.Keymap
