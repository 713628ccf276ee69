import Mathlib.Data.Set.Card
import ModalKeys.Proofs.Keymap.Edits
import ModalKeys.Proofs.Latest

/-!
# Keymaps and their history

The mappings of a keymap, and the order in which they are stored, are determined by the edits that
were made to it since it was empty.

## Main result

`mappings_of_history`: after any run of actions a mapping is stored exactly when the latest edit
that concerns its key put it in. No key is stored twice, and the keys stand in the order in which
they were first put in since they were last dropped.

## Proof strategy

`Recorded` is the invariant. It pins presence, uniqueness and order at once, since each of them is
needed to see that an edit keeps the others: that a key is stored decides whether an insertion keeps
its old position. `Recorded.edit` is the step; the run is an induction from the end, because the
latest edit is the one that decides.
-/

namespace ModalKeys.Keymap

namespace Edit

/-- The edit decides what is stored under a key. -/
def Concerns (key : Mode × String) : Edit → Prop
  | .insert m => m.key = key
  | .remove mode lhs => (mode, lhs) = key
  | .clear => True

/-- The edit leaves nothing under a key. -/
def Drops (key : Mode × String) : Edit → Prop
  | .insert _ => False
  | .remove mode lhs => (mode, lhs) = key
  | .clear => True

end Edit

/-- The latest edit that concerns the key of a mapping put this mapping in. -/
def Stands (es : List Edit) (m : Mapping) : Prop :=
  Latest (Edit.Concerns m.key) es (.insert m)

/-- The latest edit that concerns a key put something in. -/
def Held (es : List Edit) (key : Mode × String) : Prop :=
  ∃ rhs, Stands es ⟨key.1, key.2, rhs⟩

/--
At position `i` a key was put in for the first time since it was last dropped: no later edit drops
it, and the latest one before that concerns it, if any, had dropped it.
-/
def Opens (es : List Edit) (key : Mode × String) (i : Nat) : Prop :=
  ∃ before m after, es = before ++ .insert m :: after ∧ before.length = i ∧ m.key = key ∧
    (∀ e, Latest (Edit.Concerns key) before e → e.Drops key) ∧ ∀ e ∈ after, ¬e.Drops key

/-- One key has been in for longer than another. -/
def Before (es : List Edit) (a b : Mode × String) : Prop :=
  ∃ i j, Opens es a i ∧ Opens es b j ∧ i < j

/-- A keymap is what a history of edits says. -/
structure Recorded (es : List Edit) (k : Keymap) : Prop where
  mem_iff : ∀ m, m ∈ k.mappings ↔ Stands es m
  unique : (k.mappings.map Mapping.key).Nodup
  opened : ∀ key ∈ k.mappings.map Mapping.key, ∃ i, Opens es key i
  ordered : (k.mappings.map Mapping.key).Pairwise (Before es)

variable {es : List Edit} {k : Keymap}

/-! ### One more edit -/

theorem stands_concat_insert {m y : Mapping} :
    Stands (es ++ [.insert m]) y ↔ y = m ∨ Stands es y ∧ y.key ≠ m.key := by
  unfold Stands
  by_cases same : m.key = y.key
  · -- the new edit is the latest one for this key, and before it anything may have happened
    have concerns : (Edit.insert m).Concerns y.key := same
    rw [latest_concat_of_pos concerns, Edit.insert.injEq]
    simp [same]
  · have apart : ¬(Edit.insert m).Concerns y.key := same
    have other : y ≠ m := fun equal => same (congrArg Mapping.key equal).symm
    rw [latest_concat_of_neg apart]
    simp [other, Ne.symm same]

theorem stands_concat_remove {mode : Mode} {lhs : String} {y : Mapping} :
    Stands (es ++ [.remove mode lhs]) y ↔ Stands es y ∧ y.key ≠ (mode, lhs) := by
  unfold Stands
  by_cases same : (mode, lhs) = y.key
  · have concerns : (Edit.remove mode lhs).Concerns y.key := same
    rw [latest_concat_of_pos concerns]
    simp [same]
  · have apart : ¬(Edit.remove mode lhs).Concerns y.key := same
    rw [latest_concat_of_neg apart]
    simp [Ne.symm same]

theorem not_stands_concat_clear {y : Mapping} : ¬Stands (es ++ [.clear]) y := by
  intro stands
  have concerns : Edit.clear.Concerns y.key := trivial
  simpa using (latest_concat_of_pos concerns).mp stands

theorem Opens.append {key : Mode × String} {i : Nat} {later : List Edit} (opens : Opens es key i)
    (keeps : ∀ e ∈ later, ¬e.Drops key) : Opens (es ++ later) key i := by
  obtain ⟨before, m, after, rfl, position, same, fresh, kept⟩ := opens
  refine ⟨before, m, after ++ later, by simp, position, same, fresh, fun f member => ?_⟩
  rcases List.mem_append.mp member with inside | last
  · exact kept f inside
  · exact keeps f last

theorem Opens.concat {key : Mode × String} {i : Nat} {e : Edit} (opens : Opens es key i)
    (keeps : ¬e.Drops key) : Opens (es ++ [e]) key i := by
  apply opens.append
  intro f last
  exact List.mem_singleton.mp last ▸ keeps

theorem Opens.lt {key : Mode × String} {i : Nat} (opens : Opens es key i) : i < es.length := by
  obtain ⟨before, m, after, rfl, rfl, -⟩ := opens
  simp

theorem Opens.le {key : Mode × String} {i j : Nat} (first : Opens es key i)
    (second : Opens es key j) : j ≤ i := by
  obtain ⟨before, m, after, split, rfl, same, -, kept⟩ := first
  obtain ⟨before', m', after', split', rfl, -, fresh, -⟩ := second
  rw [split'] at split
  rcases List.append_eq_append_iff.mp split with ⟨more, rfl, -⟩ | ⟨more, rfl, tail⟩
  · simp
  · cases more with
    | nil => simp
    | cons e more =>
      -- between the two positions nothing drops the key, so it was held at the later one
      obtain ⟨rfl, rfl⟩ := List.cons.inj tail
      have concerns : (Edit.insert m).Concerns key := same
      obtain ⟨e, latest⟩ := exists_latest_iff.mpr ⟨_, List.mem_cons_self (l := more), concerns⟩
      have drops : e.Drops key := fresh e (latest.append_left before)
      rcases List.mem_cons.mp latest.mem with rfl | inside
      · exact absurd drops id
      · exact absurd drops (kept e (by simp [inside]))

theorem Opens.unique {key : Mode × String} {i j : Nat} (first : Opens es key i)
    (second : Opens es key j) : i = j :=
  Nat.le_antisymm (second.le first) (first.le second)

theorem opens_concat_insert {m : Mapping} (absent : ∀ y, Stands es y → y.key ≠ m.key) :
    Opens (es ++ [.insert m]) m.key es.length := by
  refine ⟨es, m, [], rfl, rfl, rfl, fun e latest => ?_, by simp⟩
  cases e with
  | insert y =>
    -- then the key would be held by `y`
    have same : y.key = m.key := latest.holds
    have stands : Stands es y := by
      rw [Stands, same]
      exact latest
    exact absurd same (absent y stands)
  | remove mode lhs => exact latest.holds
  | clear => trivial

theorem Before.concat {a b : Mode × String} {e : Edit} (before : Before es a b)
    (keepsLeft : ¬e.Drops a) (keepsRight : ¬e.Drops b) : Before (es ++ [e]) a b := by
  obtain ⟨i, j, first, second, less⟩ := before
  exact ⟨i, j, first.concat keepsLeft, second.concat keepsRight, less⟩

theorem Before.asymm {a b : Mode × String} (before : Before es a b) : ¬Before es b a := by
  rintro ⟨j', i', second', first', less'⟩
  obtain ⟨i, j, first, second, less⟩ := before
  have left := first.unique first'
  have right := second.unique second'
  omega

/-! ### The invariant -/

theorem recorded_empty (defaults : List Mode) : Recorded [] (empty defaults) where
  mem_iff m := by simp [empty, Stands]
  unique := List.nodup_nil
  opened := by simp [empty]
  ordered := List.Pairwise.nil

theorem Recorded.insert (recorded : Recorded es k) (m : Mapping) :
    Recorded (es ++ [.insert m]) (k.insert m) := by
  have keys := Mapping.map_key_place m k.mappings
  have old : ∀ {a b}, Before es a b → Before (es ++ [.insert m]) a b :=
    fun before => before.concat id id
  by_cases present : m.key ∈ k.mappings.map Mapping.key
  · -- the keys and their positions stay as they are
    rw [if_pos present] at keys
    refine ⟨fun y => ?_, ?_, fun key member => ?_, ?_⟩
    · rw [stands_concat_insert, ← recorded.mem_iff]
      exact Mapping.mem_place_iff recorded.unique
    · exact keys ▸ recorded.unique
    · obtain ⟨i, opens⟩ := recorded.opened key (keys ▸ member)
      exact ⟨i, opens.concat id⟩
    · exact keys ▸ recorded.ordered.imp old
  · -- the new key comes last, and its position is the end of the history
    rw [if_neg present] at keys
    have opens : Opens (es ++ [.insert m]) m.key es.length := by
      refine opens_concat_insert fun y stands same => present ?_
      exact same ▸ List.mem_map_of_mem ((recorded.mem_iff y).mpr stands)
    refine ⟨fun y => ?_, ?_, fun key member => ?_, ?_⟩
    · rw [stands_concat_insert, ← recorded.mem_iff]
      exact Mapping.mem_place_iff recorded.unique
    · refine keys ▸ List.nodup_append.mpr ⟨recorded.unique, List.nodup_singleton _, ?_⟩
      intro a inside b last equal
      exact present (List.mem_singleton.mp last ▸ equal ▸ inside)
    · rw [Keymap.insert, keys, List.mem_append, List.mem_singleton] at member
      rcases member with inside | rfl
      · obtain ⟨i, before⟩ := recorded.opened key inside
        exact ⟨i, before.concat id⟩
      · exact ⟨es.length, opens⟩
    · -- every other key has a position inside the history, and so an earlier one
      refine keys ▸ List.pairwise_append.mpr
        ⟨recorded.ordered.imp old, List.pairwise_singleton _ _, fun a inside b last => ?_⟩
      obtain ⟨i, before⟩ := recorded.opened a inside
      exact ⟨i, es.length, before.concat id, List.mem_singleton.mp last ▸ opens, before.lt⟩

theorem Recorded.remove (recorded : Recorded es k) (mode : Mode) (lhs : String) :
    Recorded (es ++ [.remove mode lhs]) (k.remove mode lhs).1 := by
  have kept : ∀ m, m ∈ (k.remove mode lhs).1.mappings ↔ m ∈ k.mappings ∧ m.key ≠ (mode, lhs) := by
    intro m
    simp only [Keymap.remove, List.mem_filter, Bool.not_eq_true', Bool.eq_false_iff, ne_eq,
      Mapping.isFor_iff]
  have part : List.Sublist ((k.remove mode lhs).1.mappings.map Mapping.key)
      (k.mappings.map Mapping.key) := List.filter_sublist.map _
  -- the keys that are left are not dropped, so they keep their positions
  have keeps : ∀ key ∈ (k.remove mode lhs).1.mappings.map Mapping.key,
      ¬(Edit.remove mode lhs).Drops key := by
    intro key member drops
    obtain ⟨m, stored, rfl⟩ := List.mem_map.mp member
    exact ((kept m).mp stored).2 drops.symm
  refine ⟨fun m => ?_, recorded.unique.sublist part, fun key member => ?_, ?_⟩
  · rw [stands_concat_remove, ← recorded.mem_iff]
    exact kept m
  · obtain ⟨i, opens⟩ := recorded.opened key (part.subset member)
    exact ⟨i, opens.concat (keeps key member)⟩
  · refine (recorded.ordered.sublist part).imp_of_mem fun first second before => ?_
    exact before.concat (keeps _ first) (keeps _ second)

theorem recorded_clear : Recorded (es ++ [.clear]) k.clear where
  mem_iff m := by simp [Keymap.clear, not_stands_concat_clear]
  unique := List.nodup_nil
  opened := by simp [Keymap.clear]
  ordered := List.Pairwise.nil

/-- Every edit keeps the keymap what its history says. -/
theorem Recorded.edit (recorded : Recorded es k) (e : Edit) : Recorded (es ++ [e]) (k.edit e) := by
  cases e with
  | insert m => exact recorded.insert m
  | remove mode lhs => exact recorded.remove mode lhs
  | clear => exact recorded_clear

theorem recorded_editAll (defaults : List Mode) (es : List Edit) :
    Recorded es ((empty defaults).editAll es) := by
  -- from the end: the invariant speaks of the latest edits
  induction es using List.reverseRecOn with
  | nil => exact recorded_empty defaults
  | append_singleton es e ih =>
    rw [editAll_append]
    exact ih.edit e

theorem nodup_keys_performAll (defaults : List Mode) (as : List Action) :
    (((empty defaults).performAll as).mappings.map Mapping.key).Nodup := by
  rw [performAll_eq_editAll]
  exact (recorded_editAll defaults _).unique

theorem nodup_keys_applyAll (defaults : List Mode) (rs : List Request) :
    ((Engine.applyAll (empty defaults) rs).engine.mappings.map Mapping.key).Nodup := by
  rw [applyAll_eq_performAll]
  exact nodup_keys_performAll defaults _

/-! ### What the keymap shows of its history -/

theorem Recorded.lookup_eq_some_iff (recorded : Recorded es k) {mode : Mode} {lhs rhs : String} :
    k.lookup mode lhs = some rhs ↔ Stands es ⟨mode, lhs, rhs⟩ :=
  (Keymap.lookup_eq_some_iff recorded.unique).trans (recorded.mem_iff _)

theorem Recorded.mem_keys_iff (recorded : Recorded es k) {key : Mode × String} :
    key ∈ k.mappings.map Mapping.key ↔ Held es key := by
  rw [List.mem_map]
  constructor
  · rintro ⟨m, stored, rfl⟩
    exact ⟨m.rhs, (recorded.mem_iff m).mp stored⟩
  · rintro ⟨rhs, stands⟩
    exact ⟨_, (recorded.mem_iff _).mpr stands, rfl⟩

theorem Recorded.lookup_eq_none_iff (recorded : Recorded es k) {mode : Mode} {lhs : String} :
    k.lookup mode lhs = none ↔ ¬Held es (mode, lhs) := by
  rw [Option.eq_none_iff_forall_ne_some, Held, not_exists]
  exact forall_congr' fun rhs => not_congr recorded.lookup_eq_some_iff

theorem Recorded.length_eq (recorded : Recorded es k) :
    k.mappings.length = {key | Held es key}.ncard := by
  have keys : {key | Held es key} =
      ((k.mappings.map Mapping.key).toFinset : Set (Mode × String)) := by
    ext key
    simpa using recorded.mem_keys_iff.symm
  rw [keys, Set.ncard_coe_finset, List.toFinset_card_of_nodup recorded.unique, List.length_map]

theorem remove_answer_iff (k : Keymap) (mode : Mode) (lhs : String) :
    (k.remove mode lhs).2 = true ↔ (mode, lhs) ∈ k.mappings.map Mapping.key := by
  have unchanged := List.length_filter_eq_length_iff
    (p := fun m => !Mapping.isFor m mode lhs) (l := k.mappings)
  rw [Keymap.remove, bne_iff_ne, ne_eq, unchanged, List.mem_map]
  simp only [Bool.not_eq_true', Bool.eq_false_iff, ne_eq, Mapping.isFor_iff, not_forall, not_not,
    exists_prop]

/-- **Keymap history**: after any run of actions on an empty keymap, a mapping is stored exactly
when the latest edit that concerns its key put it in; each key is stored once; and the keys stand in
the order of the positions at which they were put in first since they were last dropped. This is all
that lookups, the number of mappings and the answers of a removal can show. -/
theorem mappings_of_history (defaults : List Mode) (as : List Action) :
    let k := (empty defaults).performAll as
    let es := as.flatMap (Action.edits defaults)
    (∀ m, m ∈ k.mappings ↔ Stands es m) ∧
    (k.mappings.map Mapping.key).Nodup ∧
    (∀ m ∈ k.mappings, ∃! i, Opens es m.key i) ∧
    k.mappings.Pairwise (fun a b => ∀ i j, Opens es a.key i → Opens es b.key j → i < j) ∧
    (∀ mode lhs rhs, k.lookup mode lhs = some rhs ↔ Stands es ⟨mode, lhs, rhs⟩) ∧
    (∀ mode lhs, k.lookup mode lhs = none ↔ ¬Held es (mode, lhs)) ∧
    k.mappings.length = {key | Held es key}.ncard ∧
    ∀ mode lhs, (k.perform (.remove mode lhs)).2 = some true ↔ Held es (mode, lhs) := by
  intro k es
  have recorded : Recorded es k := by
    have run : k = (empty defaults).editAll es := performAll_eq_editAll (empty defaults) as
    rw [run]
    exact recorded_editAll defaults es
  refine ⟨recorded.mem_iff, recorded.unique, fun m stored => ?_, ?_, fun _ _ _ =>
    recorded.lookup_eq_some_iff, fun _ _ => recorded.lookup_eq_none_iff, recorded.length_eq,
    fun mode lhs => ?_⟩
  · -- the position is there by the invariant, and there is no second one
    obtain ⟨i, opens⟩ := recorded.opened m.key (List.mem_map_of_mem stored)
    exact ⟨i, opens, fun j again => Nat.le_antisymm (opens.le again) (again.le opens)⟩
  · refine (List.pairwise_map.mp recorded.ordered).imp ?_
    rintro a b ⟨i, j, first, second, less⟩ i' j' first' second'
    have left := first.le first'
    have right := second'.le second
    omega
  · simp only [perform, Option.some.injEq]
    exact (remove_answer_iff k mode lhs).trans recorded.mem_keys_iff

end ModalKeys.Keymap
