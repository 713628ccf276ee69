import Mathlib.Data.List.Nodup
import ModalKeys.Engine

/-!
# Keymaps as sequences of edits

Whatever is done to a keymap comes down to three edits: one mapping is put in, one mapping is taken
out, or all are. An action without a mode is one edit for each default mode, in their order. So it
is enough to know what one edit does: to a lookup (`lookup_insert`, `lookup_remove`), to the keys in
stored order (`map_key_place`), and to the stored mappings (`mem_place_iff`).
-/

namespace ModalKeys

namespace Mapping

/-- What tells a mapping from the others of a keymap. -/
def key (m : Mapping) : Mode × String :=
  (m.mode, m.lhs)

theorem isFor_iff {m : Mapping} {mode : Mode} {lhs : String} :
    m.isFor mode lhs = true ↔ m.key = (mode, lhs) := by
  simp [isFor, key]

theorem isFor_key_iff {m x : Mapping} : x.isFor m.mode m.lhs = true ↔ x.key = m.key :=
  isFor_iff

theorem eq_of_key_of_rhs {m : Mapping} {mode : Mode} {lhs rhs : String}
    (same : m.key = (mode, lhs)) (value : m.rhs = rhs) : m = ⟨mode, lhs, rhs⟩ := by
  obtain ⟨_, _, _⟩ := m
  cases same
  cases value
  rfl

theorem place_of_absent {m : Mapping} {ms : List Mapping} (absent : m.key ∉ ms.map key) :
    m.place ms = ms ++ [m] := by
  induction ms with
  | nil => rfl
  | cons x xs ih =>
    rw [List.map_cons, List.mem_cons, not_or] at absent
    have other : ¬x.isFor m.mode m.lhs = true := by
      rw [isFor_key_iff]
      exact Ne.symm absent.1
    rw [place, if_neg other, ih absent.2]
    rfl

theorem place_of_present {m : Mapping} {ms : List Mapping} (present : m.key ∈ ms.map key) :
    ∃ before x after, ms = before ++ x :: after ∧ x.key = m.key ∧
      m.place ms = before ++ m :: after := by
  induction ms with
  | nil => simp at present
  | cons x xs ih =>
    by_cases same : x.key = m.key
    · refine ⟨[], x, xs, rfl, same, ?_⟩
      rw [place, if_pos (isFor_key_iff.mpr same)]
      rfl
    · have later : m.key ∈ xs.map key := by
        rcases List.mem_cons.mp present with here | later
        · exact absurd here.symm same
        · exact later
      obtain ⟨before, y, after, split, found, placed⟩ := ih later
      refine ⟨x :: before, y, after, by rw [split]; rfl, found, ?_⟩
      rw [place, if_neg (fun yes => same (isFor_key_iff.mp yes)), placed]
      rfl

/-- The keys in stored order: an old key stays where it is, a new one comes last. -/
theorem map_key_place (m : Mapping) (ms : List Mapping) :
    (m.place ms).map key = if m.key ∈ ms.map key then ms.map key else ms.map key ++ [m.key] := by
  split
  · next present =>
    obtain ⟨before, x, after, rfl, same, placed⟩ := place_of_present present
    simp [placed, same]
  · next absent => simp [place_of_absent absent]

/-- Where no key is stored twice, a mapping replaces exactly the one with its key. -/
theorem mem_place_iff {m y : Mapping} {ms : List Mapping} (unique : (ms.map key).Nodup) :
    y ∈ m.place ms ↔ y = m ∨ y ∈ ms ∧ y.key ≠ m.key := by
  by_cases present : m.key ∈ ms.map key
  · -- `x` is the only mapping with the key, so all the others stay and they alone
    obtain ⟨before, x, after, rfl, same, placed⟩ := place_of_present present
    rw [List.map_append, List.map_cons, List.nodup_append, List.nodup_cons] at unique
    obtain ⟨-, ⟨notAfter, -⟩, apart⟩ := unique
    have others : ∀ z, z ∈ before ∨ z ∈ after → z.key ≠ m.key := by
      rintro z (inside | inside) equal
      · have first : z.key ∈ before.map key := List.mem_map_of_mem inside
        exact apart z.key first x.key List.mem_cons_self (equal.trans same.symm)
      · exact notAfter (same.trans equal.symm ▸ List.mem_map_of_mem inside)
    rw [placed]
    simp only [List.mem_append, List.mem_cons]
    constructor
    · rintro (inside | rfl | inside)
      · exact Or.inr ⟨Or.inl inside, others y (Or.inl inside)⟩
      · exact Or.inl rfl
      · exact Or.inr ⟨Or.inr (Or.inr inside), others y (Or.inr inside)⟩
    · rintro (rfl | ⟨inside | rfl | inside, other⟩)
      · exact Or.inr (Or.inl rfl)
      · exact Or.inl inside
      · exact absurd same other
      · exact Or.inr (Or.inr inside)
  · rw [place_of_absent present, List.mem_append, List.mem_singleton]
    constructor
    · rintro (inside | rfl)
      · exact Or.inr ⟨inside, fun equal => present (equal ▸ List.mem_map_of_mem inside)⟩
      · exact Or.inl rfl
    · rintro (rfl | ⟨inside, -⟩)
      · exact Or.inr rfl
      · exact Or.inl inside

theorem mem_of_mem_place {m y : Mapping} {ms : List Mapping} (member : y ∈ m.place ms) :
    y = m ∨ y ∈ ms := by
  by_cases present : m.key ∈ ms.map key
  · obtain ⟨before, x, after, rfl, -, placed⟩ := place_of_present present
    rw [placed] at member
    simp only [List.mem_append, List.mem_cons] at member ⊢
    rcases member with inside | rfl | inside
    · exact Or.inr (Or.inl inside)
    · exact Or.inl rfl
    · exact Or.inr (Or.inr (Or.inr inside))
  · rw [place_of_absent present, List.mem_append, List.mem_singleton] at member
    exact member.symm

end Mapping

namespace Keymap

/-- A change of one mapping, or of all. -/
inductive Edit where
  | insert (m : Mapping)
  | remove (mode : Mode) (lhs : String)
  | clear
deriving DecidableEq, Repr

def edit (k : Keymap) : Edit → Keymap
  | .insert m => k.insert m
  | .remove mode lhs => (k.remove mode lhs).1
  | .clear => k.clear

def editAll (k : Keymap) (es : List Edit) : Keymap :=
  es.foldl edit k

/-- Whatever can be done to a keymap from outside. -/
inductive Action where
  | bind (lhs rhs : String) (mode : Option Mode)
  | unbind (lhs : String) (mode : Option Mode)
  | insert (m : Mapping)
  | remove (mode : Mode) (lhs : String)
  | clear
  | apply (r : Request)
deriving DecidableEq, Repr

/-- Does one action and gives its answer, if it has one. -/
def perform (k : Keymap) : Action → Keymap × Option Bool
  | .bind lhs rhs mode => (k.bind lhs rhs mode, none)
  | .unbind lhs mode => (k.unbind lhs mode, none)
  | .insert m => (k.insert m, none)
  | .remove mode lhs => ((k.remove mode lhs).1, some (k.remove mode lhs).2)
  | .clear => (k.clear, none)
  | .apply r => ((Engine.dispatch k r).engine, some (Engine.dispatch k r).answer)

def performAll (k : Keymap) (as : List Action) : Keymap :=
  as.foldl (fun k a => (k.perform a).1) k

/-- The modes that are meant by a mode, or by none. -/
def meant (defaults : List Mode) : Option Mode → List Mode
  | some mode => [mode]
  | none => defaults

def bindEdits (defaults : List Mode) (lhs rhs : String) (mode : Option Mode) : List Edit :=
  (meant defaults mode).map fun mode => .insert ⟨mode, lhs, rhs⟩

def unbindEdits (defaults : List Mode) (lhs : String) (mode : Option Mode) : List Edit :=
  (meant defaults mode).map fun mode => .remove mode lhs

/-- The edits of a request; a bind without keys to bind to has none. -/
def requestEdits (defaults : List Mode) (r : Request) : List Edit :=
  match r.operation, r.rhs with
  | .bind, some rhs => bindEdits defaults r.lhs rhs r.scope.mode?
  | .bind, none => []
  | .unbind, _ => unbindEdits defaults r.lhs r.scope.mode?

/-- The edits that an action stands for in a keymap with these default modes. -/
def Action.edits (defaults : List Mode) : Action → List Edit
  | .bind lhs rhs mode => bindEdits defaults lhs rhs mode
  | .unbind lhs mode => unbindEdits defaults lhs mode
  | .insert m => [.insert m]
  | .remove mode lhs => [.remove mode lhs]
  | .clear => [.clear]
  | .apply r => requestEdits defaults r

variable (k : Keymap)

/-! ### Actions are edits -/

@[simp] theorem editAll_nil : k.editAll [] = k := rfl

theorem editAll_append (es fs : List Edit) : k.editAll (es ++ fs) = (k.editAll es).editAll fs :=
  List.foldl_append

/-- What depends on itself alone in one edit does so in a run of edits. -/
theorem editAll_congr {β : Type} {f : Keymap → β}
    (step : ∀ {k k' : Keymap} (e : Edit), f k = f k' → f (k.edit e) = f (k'.edit e))
    {k k' : Keymap} (same : f k = f k') (es : List Edit) :
    f (k.editAll es) = f (k'.editAll es) := by
  induction es generalizing k k' with
  | nil => exact same
  | cons e es ih => exact ih (step e same)

@[simp] theorem defaultModes_edit (e : Edit) : (k.edit e).defaultModes = k.defaultModes := by
  cases e <;> rfl

@[simp] theorem defaultModes_editAll (es : List Edit) :
    (k.editAll es).defaultModes = k.defaultModes := by
  induction es generalizing k with
  | nil => rfl
  | cons e es ih => exact (ih (k.edit e)).trans (defaultModes_edit k e)

theorem targets_eq_meant (mode : Option Mode) : k.targets mode = meant k.defaultModes mode := by
  cases mode <;> rfl

theorem bind_eq_editAll (lhs rhs : String) (mode : Option Mode) :
    k.bind lhs rhs mode = k.editAll (bindEdits k.defaultModes lhs rhs mode) := by
  rw [Keymap.bind, editAll, bindEdits, List.foldl_map, targets_eq_meant]
  rfl

theorem unbind_eq_editAll (lhs : String) (mode : Option Mode) :
    k.unbind lhs mode = k.editAll (unbindEdits k.defaultModes lhs mode) := by
  rw [Keymap.unbind, editAll, unbindEdits, List.foldl_map, targets_eq_meant]
  rfl

theorem dispatch_eq_editAll (r : Request) :
    (Engine.dispatch k r).engine = k.editAll (requestEdits k.defaultModes r) := by
  obtain ⟨operation, scope, lhs, rhs⟩ := r
  cases operation with
  | unbind => exact unbind_eq_editAll k lhs scope.mode?
  | bind =>
    cases rhs with
    | none => rfl
    | some rhs => exact bind_eq_editAll k lhs rhs scope.mode?

theorem perform_eq_editAll (a : Action) :
    (k.perform a).1 = k.editAll (a.edits k.defaultModes) := by
  cases a with
  | bind lhs rhs mode => exact bind_eq_editAll k lhs rhs mode
  | unbind lhs mode => exact unbind_eq_editAll k lhs mode
  | insert m => rfl
  | remove mode lhs => rfl
  | clear => rfl
  | apply r => exact dispatch_eq_editAll k r

/-- A run of actions is the run of the edits they stand for. -/
theorem performAll_eq_editAll (as : List Action) :
    k.performAll as = k.editAll (as.flatMap (Action.edits k.defaultModes)) := by
  induction as generalizing k with
  | nil => rfl
  | cons a as ih =>
    -- the default modes never change, so the later actions stand for the same edits as before
    rw [List.flatMap_cons, editAll_append, ← perform_eq_editAll]
    have same : (k.perform a).1.defaultModes = k.defaultModes := by
      rw [perform_eq_editAll, defaultModes_editAll]
    exact same ▸ ih (k.perform a).1

theorem applyAll_eq_performAll (rs : List Request) :
    (Engine.applyAll k rs).engine = k.performAll (rs.map Action.apply) := by
  induction rs generalizing k with
  | nil => rfl
  | cons r rs ih => exact ih (Engine.dispatch k r).engine

theorem applyAll_eq_editAll (rs : List Request) :
    (Engine.applyAll k rs).engine = k.editAll (rs.flatMap (requestEdits k.defaultModes)) := by
  rw [applyAll_eq_performAll, performAll_eq_editAll, List.flatMap_map]
  rfl

theorem of_insert_mem_requestEdits {defaults : List Mode} {r : Request} {m : Mapping}
    (member : .insert m ∈ requestEdits defaults r) : m.lhs = r.lhs ∧ r.rhs = some m.rhs := by
  obtain ⟨operation, scope, lhs, rhs⟩ := r
  cases operation with
  | unbind =>
    obtain ⟨mode, -, equal⟩ := List.mem_map.mp member
    cases equal
  | bind =>
    cases rhs with
    | none => cases member
    | some rhs =>
      obtain ⟨mode, -, equal⟩ := List.mem_map.mp member
      cases equal
      exact ⟨rfl, rfl⟩

/-- What holds of every stored mapping and of every mapping put in holds of all in the end. -/
theorem forall_mem_editAll {P : Mapping → Prop} {k : Keymap} (stored : ∀ m ∈ k.mappings, P m)
    {es : List Edit} (added : ∀ m, .insert m ∈ es → P m) : ∀ m ∈ (k.editAll es).mappings, P m := by
  induction es generalizing k with
  | nil => exact stored
  | cons e es ih =>
    refine ih (fun m member => ?_) fun m member => added m (List.mem_cons_of_mem e member)
    cases e with
    | insert x =>
      rcases Mapping.mem_of_mem_place member with rfl | old
      · exact added m List.mem_cons_self
      · exact stored m old
    | remove mode lhs => exact stored m (List.mem_filter.mp member).1
    | clear => cases member

/-- The mappings after some edits depend on the mappings before them alone. -/
theorem mappings_editAll_congr {k k' : Keymap} (same : k.mappings = k'.mappings) (es : List Edit) :
    (k.editAll es).mappings = (k'.editAll es).mappings := by
  refine editAll_congr (fun e same => ?_) same es
  cases e with
  | insert m => exact congrArg m.place same
  | remove mode lhs => exact congrArg (List.filter _) same
  | clear => rfl

/-! ### Lookups -/

@[simp] theorem lookup_empty (defaults : List Mode) (mode : Mode) (lhs : String) :
    (empty defaults).lookup mode lhs = none := rfl

private theorem find?_place (m : Mapping) (ms : List Mapping) (mode : Mode) (lhs : String) :
    (m.place ms).find? (fun x => x.isFor mode lhs) =
      if m.isFor mode lhs then some m else ms.find? fun x => x.isFor mode lhs := by
  induction ms with
  | nil => cases found : m.isFor mode lhs <;> simp [Mapping.place, found]
  | cons x xs ih =>
    rw [Mapping.place]
    split
    · next same =>
      have alike : x.isFor mode lhs = m.isFor mode lhs := by
        rw [Bool.eq_iff_iff, Mapping.isFor_iff, Mapping.isFor_iff, Mapping.isFor_key_iff.mp same]
      cases found : m.isFor mode lhs <;> simp [alike, found]
    · next other =>
      rw [List.find?_cons, List.find?_cons, ih]
      cases found : m.isFor mode lhs with
      | false => rfl
      | true =>
        -- `m` is the one that is found, wherever it is placed: no mapping before it has its key
        have apart : x.isFor mode lhs = false := by
          rw [Bool.eq_false_iff, ne_eq, Mapping.isFor_iff, ← Mapping.isFor_iff.mp found]
          exact fun same => other (Mapping.isFor_key_iff.mpr same)
        simp [apart]

theorem lookup_insert (m : Mapping) (mode : Mode) (lhs : String) :
    (k.insert m).lookup mode lhs =
      if m.key = (mode, lhs) then some m.rhs else k.lookup mode lhs := by
  simp only [lookup, insert, find?_place, Mapping.isFor_iff]
  split <;> rfl

theorem lookup_remove (mode mode' : Mode) (lhs lhs' : String) :
    (k.remove mode' lhs').1.lookup mode lhs =
      if (mode', lhs') = (mode, lhs) then none else k.lookup mode lhs := by
  simp only [lookup, remove, List.find?_filter]
  split
  · next same =>
    obtain ⟨rfl, rfl⟩ := Prod.mk.inj same
    simp
  · next other =>
    congr 2
    funext x
    cases found : x.isFor mode lhs with
    | false => simp
    | true =>
      have apart : x.isFor mode' lhs' = false := by
        rw [Bool.eq_false_iff, ne_eq, Mapping.isFor_iff, Mapping.isFor_iff.mp found]
        exact Ne.symm other
      simp [apart]

/-- What an edit does to a lookup depends on that lookup alone. -/
theorem lookup_editAll_congr {k k' : Keymap} {mode : Mode} {lhs : String}
    (same : k.lookup mode lhs = k'.lookup mode lhs) (es : List Edit) :
    (k.editAll es).lookup mode lhs = (k'.editAll es).lookup mode lhs := by
  refine editAll_congr (f := fun k => k.lookup mode lhs) (fun {k k'} e same => ?_) same es
  cases e with
  | insert m =>
    exact (lookup_insert k m mode lhs).trans (same ▸ (lookup_insert k' m mode lhs).symm)
  | remove mode' lhs' =>
    exact (lookup_remove k mode mode' lhs lhs').trans
      (same ▸ (lookup_remove k' mode mode' lhs lhs').symm)
  | clear => rfl

private theorem lookup_editAll_map {f : Mode → Edit} {lhs' : String} {value : Option String}
    (each : ∀ (k : Keymap) first mode lhs, (k.edit (f first)).lookup mode lhs =
      if (first, lhs') = (mode, lhs) then value else k.lookup mode lhs)
    (modes : List Mode) (mode : Mode) (lhs : String) :
    (k.editAll (modes.map f)).lookup mode lhs =
      if mode ∈ modes ∧ lhs' = lhs then value else k.lookup mode lhs := by
  induction modes generalizing k with
  | nil => simp
  | cons first rest ih =>
    rw [List.map_cons, editAll, List.foldl_cons]
    refine (ih (k.edit (f first))).trans ?_
    rw [each]
    by_cases keys : lhs' = lhs
    · by_cases here : mode = first
      · simp [keys, here]
      · have there : first ≠ mode := Ne.symm here
        simp [keys, here, there]
    · simp [keys]

/-- Keys that are bound in some modes stand for the new keys there, and nothing else changes. -/
theorem lookup_bindEdits (defaults : List Mode) (lhs' rhs : String) (scope : Option Mode)
    (mode : Mode) (lhs : String) :
    (k.editAll (bindEdits defaults lhs' rhs scope)).lookup mode lhs =
      if mode ∈ meant defaults scope ∧ lhs' = lhs then some rhs else k.lookup mode lhs := by
  have each (k : Keymap) (first mode : Mode) (lhs : String) :
      (k.edit (.insert ⟨first, lhs', rhs⟩)).lookup mode lhs =
        if (first, lhs') = (mode, lhs) then some rhs else k.lookup mode lhs :=
    lookup_insert k ⟨first, lhs', rhs⟩ mode lhs
  exact lookup_editAll_map k each (meant defaults scope) mode lhs

theorem lookup_unbindEdits (defaults : List Mode) (lhs' : String) (scope : Option Mode)
    (mode : Mode) (lhs : String) :
    (k.editAll (unbindEdits defaults lhs' scope)).lookup mode lhs =
      if mode ∈ meant defaults scope ∧ lhs' = lhs then none else k.lookup mode lhs := by
  have each (k : Keymap) (first mode : Mode) (lhs : String) :
      (k.edit (.remove first lhs')).lookup mode lhs =
        if (first, lhs') = (mode, lhs) then none else k.lookup mode lhs :=
    lookup_remove k mode first lhs lhs'
  exact lookup_editAll_map k each (meant defaults scope) mode lhs

private theorem mem_and_key_of_find? {ms : List Mapping} {m : Mapping} {mode : Mode} {lhs : String}
    (found : ms.find? (fun x => x.isFor mode lhs) = some m) : m ∈ ms ∧ m.key = (mode, lhs) := by
  have hit : m.isFor mode lhs = true := by simpa using List.find?_some found
  exact ⟨List.mem_of_find?_eq_some found, Mapping.isFor_iff.mp hit⟩

/-- Where no key is stored twice, a lookup finds exactly what is stored. -/
theorem lookup_eq_some_iff {k : Keymap} (unique : (k.mappings.map Mapping.key).Nodup) {mode : Mode}
    {lhs rhs : String} : k.lookup mode lhs = some rhs ↔ ⟨mode, lhs, rhs⟩ ∈ k.mappings := by
  rw [lookup, Option.map_eq_some_iff]
  constructor
  · rintro ⟨m, found, value⟩
    obtain ⟨member, same⟩ := mem_and_key_of_find? found
    exact Mapping.eq_of_key_of_rhs same value ▸ member
  · intro member
    have hit : (k.mappings.find? fun m => m.isFor mode lhs).isSome = true :=
      List.find?_isSome.mpr ⟨_, member, Mapping.isFor_iff.mpr rfl⟩
    obtain ⟨m, found⟩ := Option.isSome_iff_exists.mp hit
    -- what is found may be another mapping, but only with the same key
    obtain ⟨stored, same⟩ := mem_and_key_of_find? found
    have equal := List.inj_on_of_nodup_map unique stored member same
    exact ⟨m, found, congrArg Mapping.rhs equal⟩

/-- The order in which mappings are stored makes no difference to a lookup. -/
theorem lookup_eq_of_perm {k k' : Keymap} (unique : (k.mappings.map Mapping.key).Nodup)
    (perm : k'.mappings.Perm k.mappings) (mode : Mode) (lhs : String) :
    k'.lookup mode lhs = k.lookup mode lhs := by
  have unique' : (k'.mappings.map Mapping.key).Nodup := (perm.map Mapping.key).nodup_iff.mpr unique
  apply Option.ext
  intro rhs
  rw [lookup_eq_some_iff unique', lookup_eq_some_iff unique, perm.mem_iff]

/-! ### Edits with nothing to do -/

theorem insert_of_lookup {k : Keymap} {m : Mapping} (found : k.lookup m.mode m.lhs = some m.rhs) :
    k.insert m = k := by
  obtain ⟨defaults, ms⟩ := k
  have placed : m.place ms = ms := by
    induction ms with
    | nil => cases found
    | cons x xs ih =>
      rw [lookup, List.find?_cons] at found
      rw [Mapping.place]
      cases same : x.isFor m.mode m.lhs with
      | true =>
        -- the mapping that is found has the key and the meaning of `m`
        have value : x.rhs = m.rhs := by simpa [same] using found
        rw [Mapping.eq_of_key_of_rhs (Mapping.isFor_iff.mp same) value]
        rfl
      | false =>
        have rest : m.place xs = xs := ih (by simpa [same, lookup] using found)
        rw [if_neg Bool.false_ne_true, rest]
  rw [insert, placed]

theorem remove_of_lookup {k : Keymap} {mode : Mode} {lhs : String}
    (missing : k.lookup mode lhs = none) : (k.remove mode lhs).1 = k := by
  obtain ⟨defaults, ms⟩ := k
  have kept : ms.filter (fun m => !m.isFor mode lhs) = ms := by
    apply List.filter_eq_self.mpr
    intro m stored
    rw [lookup, Option.map_eq_none_iff, List.find?_eq_none] at missing
    simpa using missing m stored
  rw [remove]
  simp only [kept]

end Keymap

end ModalKeys
