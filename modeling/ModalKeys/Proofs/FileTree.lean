import Mathlib.Data.List.Basic
import ModalKeys.FileTree
import ModalKeys.Proofs.Path

/-!
# Walks through a file tree

Where a path leads is known before it is walked: each step has one target. `Passable` says that the
walk gets there, by recursion over the steps like the walk itself, and every file operation is then
told by what is at the target. A change of the tree puts an entry at one place, so that what a tree
has to keep for the walks to stay possible (`Keeps`), or for the files to stay there (`Extends`), is
a matter of single places.
-/

namespace ModalKeys

theorem bind_eq_ok_iff {ε α β : Type} {x : Except ε α} {f : α → Except ε β} {b : β} :
    x >>= f = .ok b ↔ ∃ a, x = .ok a ∧ f a = .ok b := by
  cases x <;> simp [bind, Except.bind]

theorem check_bind_eq_ok_iff {ε β : Type} {x : Except ε Unit} {f : Unit → Except ε β} {b : β} :
    x >>= f = .ok b ↔ x = .ok () ∧ f () = .ok b := by
  cases x <;> simp [bind, Except.bind]

namespace Device

/-- A device that opens every file and has no room for what is to be in it. -/
@[reducible]
def full : Device where
  refusal? _ := none
  breakOff? _ bytes :=
    if more : 0 < bytes.length then some (⟨0, more⟩, "No space left on device (os error 28)")
    else none

/-- A device on which nothing can be changed. -/
@[reducible]
def locked : Device :=
  ⟨fun _ => some "Read-only file system (os error 30)", fun _ _ => none⟩

end Device

namespace FileTree

variable {t t' t'' : FileTree} {p q : Place} {path : String} {c : Contents}

/-! ### Entries -/

theorem lookup_filter_ne (entries : List (Place × Entry)) (apart : q ≠ p) :
    (entries.filter fun e => e.1 != p).lookup q = entries.lookup q := by
  induction entries with
  | nil => rfl
  | cons e rest ih =>
    by_cases here : e.1 = p
    · have other : (q == e.1) = false := by simpa [here] using apart
      rw [List.filter_cons_of_neg (by simpa using here), ih, List.lookup_cons, other]
    · rw [List.filter_cons_of_pos (by simpa using here), List.lookup_cons, List.lookup_cons, ih]

theorem entry?_set_self (t : FileTree) (inner : p ≠ []) (e : Entry) :
    entry? (t.set p e) p = some e := by
  simp [set, entry?, inner]

theorem entry?_set_of_ne (t : FileTree) (apart : q ≠ p) (e : Entry) :
    entry? (t.set p e) q = t.entry? q := by
  have other : (q == p) = false := by simpa using apart
  unfold entry? set
  simp only [List.lookup_cons, other, lookup_filter_ne _ apart]

theorem entry?_root (t : FileTree) : t.entry? [] = some .directory :=
  rfl

/-! ### Walks -/

theorem requireDirectory_eq_ok_iff :
    t.requireDirectory p = .ok () ↔ t.entry? p = some .directory := by
  unfold requireDirectory
  split <;> simp_all

/-- The place one step away. -/
def target (p : Place) (step : String) : Place :=
  if step = "." then p else if step = ".." then p.tail else step :: p

/-- What a step asks of the tree. -/
structure CanStep (t : FileTree) (p : Place) (step : String) : Prop where
  directory : t.entry? p = some .directory
  there : step ≠ "." → step ≠ ".." →
    step.utf8ByteSize ≤ nameLimit ∧ t.entry? (step :: p) ≠ none

/-- Every step of the way can be taken. -/
def Passable (t : FileTree) (p : Place) : List String → Prop
  | [] => True
  | step :: rest => t.CanStep p step ∧ t.Passable (target p step) rest

theorem walk_cons_eq_ok_iff {step : String} {rest : List String} :
    t.walk p (step :: rest) = .ok q ↔ t.CanStep p step ∧ t.walk (target p step) rest = .ok q := by
  rw [walk, check_bind_eq_ok_iff, requireDirectory_eq_ok_iff, target]
  constructor
  · rintro ⟨directory, rest⟩
    split_ifs at rest with dot dots long absent
    · exact ⟨⟨directory, fun inner => absurd dot inner⟩, by rwa [if_pos dot]⟩
    · exact ⟨⟨directory, fun _ inner => absurd dots inner⟩, by rwa [if_neg dot, if_pos dots]⟩
    · have there : t.entry? (step :: p) ≠ none := by simpa using absent
      exact ⟨⟨directory, fun _ _ => ⟨Nat.not_lt.mp long, there⟩⟩, by rwa [if_neg dot, if_neg dots]⟩
  · rintro ⟨can, rest⟩
    refine ⟨can.directory, ?_⟩
    split_ifs at rest with dot dots
    · rwa [if_pos dot]
    · rwa [if_neg dot, if_pos dots]
    · obtain ⟨short, there⟩ := can.there dot dots
      rwa [if_neg dot, if_neg dots, if_neg (Nat.not_lt.mpr short), if_neg (by simpa using there)]

theorem walk_eq_ok_iff {ss : List String} :
    t.walk p ss = .ok q ↔ t.Passable p ss ∧ ss.foldl target p = q := by
  induction ss generalizing p with
  | nil => simp [walk, Passable]
  | cons step rest ih => rw [walk_cons_eq_ok_iff, ih, Passable, List.foldl_cons, and_assoc]

theorem passable_append {ss rest : List String} :
    t.Passable p (ss ++ rest) ↔ t.Passable p ss ∧ t.Passable (ss.foldl target p) rest := by
  induction ss generalizing p with
  | nil => simp [Passable]
  | cons step ss ih => rw [List.cons_append, Passable, Passable, ih, List.foldl_cons, and_assoc]

theorem passable_concat {ss : List String} {last : String} :
    t.Passable p (ss ++ [last]) ↔ t.Passable p ss ∧ t.CanStep (ss.foldl target p) last := by
  simp [passable_append, Passable]

theorem foldl_target_filter (p : Place) (ss : List String) :
    (ss.filter (· != ".")).foldl target p = ss.foldl target p := by
  induction ss generalizing p with
  | nil => rfl
  | cons step rest ih =>
    by_cases dot : step = "."
    · rw [List.filter_cons_of_neg (by simpa using dot), ih, List.foldl_cons, target, if_pos dot]
    · rw [List.filter_cons_of_pos (by simpa using dot), List.foldl_cons, ih, List.foldl_cons]

/-- A dot leads nowhere else, and it asks for no more than what the way goes on from or ends in. -/
theorem passable_filter_iff {ss : List String}
    (goal : t.entry? (ss.foldl target p) = some .directory) :
    t.Passable p (ss.filter (· != ".")) ↔ t.Passable p ss := by
  induction ss generalizing p with
  | nil => rfl
  | cons step rest ih =>
    rw [List.foldl_cons] at goal
    by_cases dot : step = "."
    · -- the directory that the dot asks for is the one of the next step, or the goal
      have stay : target p step = p := if_pos dot
      rw [stay] at goal
      rw [List.filter_cons_of_neg (by simpa using dot), ih goal, Passable, stay]
      constructor
      · intro way
        refine ⟨⟨?_, fun inner => absurd dot inner⟩, way⟩
        cases rest with
        | nil => exact goal
        | cons next rest => exact way.1.directory
      · exact And.right
    · rw [List.filter_cons_of_pos (by simpa using dot), Passable, Passable, ih goal]

/-! ### What is at a path -/

/-- The place that a path is meant to lead to. -/
def goal (t : FileTree) (path : String) : Place :=
  (Path.steps path).foldl target (t.start path)

/-- The path can be walked to its end. -/
structure Reaches (t : FileTree) (path : String) : Prop where
  checked : checkPath path = .ok ()
  way : t.Passable (t.start path) (Path.steps path)

theorem find_eq_ok_iff :
    t.find path = .ok p ↔ t.Reaches path ∧ t.goal path = p ∧
      (Path.endsInSlash path → t.entry? p = some .directory) := by
  have ending (place : Place) : (do
      if Path.endsInSlash path then t.requireDirectory place
      return place) = .ok p ↔
      place = p ∧ (Path.endsInSlash path → t.entry? place = some .directory) := by
    split_ifs with slash
    · rw [check_bind_eq_ok_iff, requireDirectory_eq_ok_iff]
      simp [pure, Except.pure, slash, and_comm]
    · simp [pure, Except.pure, slash]
  rw [find, check_bind_eq_ok_iff, bind_eq_ok_iff]
  simp only [walk_eq_ok_iff]
  constructor
  · rintro ⟨checked, place, ⟨way, rfl⟩, rest⟩
    obtain ⟨rfl, directory⟩ := (ending _).mp rest
    exact ⟨⟨checked, way⟩, rfl, directory⟩
  · rintro ⟨⟨checked, way⟩, rfl, directory⟩
    exact ⟨checked, _, ⟨way, rfl⟩, (ending _).mpr ⟨rfl, directory⟩⟩

theorem isDirectory_iff :
    t.isDirectory path ↔ t.Reaches path ∧ t.entry? (t.goal path) = some .directory := by
  unfold isDirectory
  cases found : t.find path with
  | error e =>
    have absent : ¬(t.Reaches path ∧ t.entry? (t.goal path) = some .directory) := by
      rintro ⟨reached, directory⟩
      simp [find_eq_ok_iff.mpr ⟨reached, rfl, fun _ => directory⟩] at found
    simpa using absent
  | ok place =>
    obtain ⟨reached, rfl, -⟩ := find_eq_ok_iff.mp found
    simp [reached]

theorem contents_eq_ok_iff :
    t.contents path = .ok c ↔ t.Reaches path ∧ Path.endsInSlash path = false ∧
      t.entry? (t.goal path) = some (.file c) := by
  rw [contents, bind_eq_ok_iff]
  constructor
  · rintro ⟨place, found, inside⟩
    obtain ⟨reached, rfl, slash⟩ := find_eq_ok_iff.mp found
    have file : t.entry? (t.goal path) = some (.file c) := by
      split at inside <;> simp_all
    refine ⟨reached, ?_, file⟩
    -- a slash at the end would ask for a directory
    cases ending : Path.endsInSlash path with
    | false => rfl
    | true => exact absurd (file.symm.trans (slash ending)) (by simp)
  · rintro ⟨reached, slash, file⟩
    refine ⟨_, find_eq_ok_iff.mpr ⟨reached, rfl, by simp [slash]⟩, ?_⟩
    rw [file]

/-- What the file at a place holds, if there is one. -/
def fileAt? (t : FileTree) (p : Place) : Option Contents :=
  match t.entry? p with
  | some (.file c) => some c
  | _ => none

theorem fileAt?_eq_some_iff : t.fileAt? p = some c ↔ t.entry? p = some (.file c) := by
  unfold fileAt?
  split <;> simp_all

/-- A new directory is no file, and it is made where there is none. -/
theorem fileAt?_set_directory (free : t.entry? q = none) :
    fileAt? (t.set q .directory) p = t.fileAt? p := by
  have inner : q ≠ [] := by
    rintro rfl
    simp [entry?_root] at free
  unfold fileAt?
  by_cases same : p = q
  · rw [same, entry?_set_self t inner, free]
  · rw [entry?_set_of_ne t same]

/-! ### New entries -/

/-- The path gives a name to a new entry in a directory. -/
structure IsSpot (t : FileTree) (path : String) (place : Place) (name : String) : Prop where
  checked : checkPath path = .ok ()
  steps : ∃ ss, Path.steps path = ss ++ [name] ∧ t.Passable (t.start path) ss ∧
    ss.foldl target (t.start path) = place
  directory : t.entry? place = some .directory
  plain : name ≠ "." ∧ name ≠ ".."

theorem spot_eq_ok_iff {name : String} :
    t.spot path = .ok (some (p, name)) ↔ t.IsSpot path p name := by
  rw [spot, check_bind_eq_ok_iff]
  rcases List.eq_nil_or_concat (Path.steps path) with root | ⟨ss, last, split⟩
  · have nowhere : ¬t.IsSpot path p name := fun spot => by simpa [root] using spot.steps
    simp [root, pure, Except.pure, nowhere]
  · rw [List.concat_eq_append] at split
    simp only [split, List.reverse_concat, List.reverse_reverse]
    rw [bind_eq_ok_iff]
    simp only [walk_eq_ok_iff, check_bind_eq_ok_iff, requireDirectory_eq_ok_iff]
    constructor
    · rintro ⟨checked, place, ⟨way, rfl⟩, directory, named⟩
      split_ifs at named with dots
      · simp [pure, Except.pure] at named
      · obtain ⟨rfl, rfl⟩ : ss.foldl target (t.start path) = p ∧ last = name := by
          simpa [pure, Except.pure] using named
        exact ⟨checked, ⟨ss, split, way, rfl⟩, directory, by simpa using dots⟩
    · rintro ⟨checked, ⟨ss', split', way, rfl⟩, directory, plain⟩
      obtain ⟨rfl, same⟩ := List.append_inj' (split.symm.trans split') rfl
      obtain rfl : last = name := by simpa using same
      exact ⟨checked, _, ⟨way, rfl⟩, directory, by simp [plain, pure, Except.pure]⟩

namespace IsSpot

variable {name : String}

theorem goal (spot : t.IsSpot path p name) : t.goal path = name :: p := by
  obtain ⟨ss, split, -, rfl⟩ := spot.steps
  simp [FileTree.goal, split, target, spot.plain]

theorem reaches (spot : t.IsSpot path p name) (short : name.utf8ByteSize ≤ nameLimit)
    (there : t.entry? (name :: p) ≠ none) : t.Reaches path := by
  obtain ⟨ss, split, way, rfl⟩ := spot.steps
  refine ⟨spot.checked, ?_⟩
  rw [split, passable_concat]
  exact ⟨way, spot.directory, fun _ _ => ⟨short, there⟩⟩

end IsSpot

theorem createDirectory_eq_ok (made : t.createDirectory path = .ok t') :
    ∃ place name, t.IsSpot path place name ∧ t.entry? (name :: place) = none ∧
      t' = t.set (name :: place) .directory := by
  rw [createDirectory, bind_eq_ok_iff] at made
  obtain ⟨found, spot, made⟩ := made
  split at made
  · cases made
  · rename_i place name
    split_ifs at made with long there
    split at made
    · cases made
    · exact ⟨place, name, spot_eq_ok_iff.mp spot, by simpa using there, by simpa using made.symm⟩

/-- The path can be opened to be written, and the file is at the place then. -/
structure Opens (t : FileTree) (path : String) (file : Place) : Prop where
  spot : ∃ place name, file = name :: place ∧ t.IsSpot path place name ∧
    name.utf8ByteSize ≤ nameLimit
  slash : Path.endsInSlash path = false
  free : t.entry? file ≠ some .directory
  allowed : t.device.refusal? file = none

theorem openFile_eq_ok_iff : t.openFile path = .ok p ↔ t.Opens path p := by
  rw [openFile, bind_eq_ok_iff]
  constructor
  · rintro ⟨found, spot, opened⟩
    split at opened
    · cases opened
    · rename_i place name
      split_ifs at opened with slash long directory
      split at opened
      · cases opened
      · rename_i allowed
        cases opened
        exact ⟨⟨place, name, rfl, spot_eq_ok_iff.mp spot, Nat.not_lt.mp long⟩, by simpa using slash,
          directory, allowed⟩
  · rintro ⟨⟨place, name, rfl, spot, short⟩, slash, free, allowed⟩
    refine ⟨_, spot_eq_ok_iff.mpr spot, ?_⟩
    simp [slash, Nat.not_lt.mpr short, free, allowed]

theorem writeFile_of_opens {file : Place} (opens : t.Opens path file)
    (whole : t.device.breakOff? file c.bytes = none) :
    t.writeFile path c = .ok (t.set file (.file c)) := by
  unfold writeFile
  rw [openFile_eq_ok_iff.mpr opens]
  dsimp only
  rw [whole]

/-- The path is not opened, or the write breaks off, or all of it is written. -/
theorem writeFile_cases (t : FileTree) (path : String) (c : Contents) :
    (∃ e, t.writeFile path c = .error (.notOpened e)) ∨
    ∃ file, t.Opens path file ∧
      ((∃ (n : Fin c.bytes.length) (reason : String),
          t.writeFile path c = .error (.brokenOff (t.set file (.file (c.cut n))) n reason)) ∨
        (t.device.breakOff? file c.bytes = none ∧
          t.writeFile path c = .ok (t.set file (.file c)))) := by
  unfold writeFile
  cases opened : t.openFile path with
  | error e => exact .inl ⟨e, rfl⟩
  | ok file =>
    refine .inr ⟨file, openFile_eq_ok_iff.mp opened, ?_⟩
    dsimp only
    cases t.device.breakOff? file c.bytes with
    | some off => exact .inl ⟨off.1, off.2, rfl⟩
    | none => exact .inr ⟨rfl, rfl⟩

/-! ### Trees that keep what was there -/

/-- Every walk through `t` is possible in `t'` as well. -/
structure Keeps (t t' : FileTree) : Prop where
  here : t'.here = t.here
  directories : ∀ p, t.entry? p = some .directory → t'.entry? p = some .directory
  present : ∀ p, t.entry? p ≠ none → t'.entry? p ≠ none

theorem Keeps.passable (keeps : t.Keeps t') {ss : List String} (way : t.Passable p ss) :
    t'.Passable p ss := by
  induction ss generalizing p with
  | nil => trivial
  | cons step rest ih =>
    obtain ⟨⟨directory, there⟩, rest⟩ := way
    refine ⟨⟨keeps.directories p directory, fun dot dots => ?_⟩, ih rest⟩
    exact ⟨(there dot dots).1, keeps.present _ (there dot dots).2⟩

theorem Keeps.start (keeps : t.Keeps t') (path : String) : t'.start path = t.start path := by
  rw [FileTree.start, FileTree.start, keeps.here]

theorem Keeps.goal (keeps : t.Keeps t') (path : String) : t'.goal path = t.goal path := by
  rw [FileTree.goal, FileTree.goal, keeps.start]

theorem Keeps.reaches (keeps : t.Keeps t') (reached : t.Reaches path) : t'.Reaches path :=
  ⟨reached.checked, keeps.start path ▸ keeps.passable reached.way⟩

theorem Keeps.isSpot (keeps : t.Keeps t') {name : String} (spot : t.IsSpot path p name) :
    t'.IsSpot path p name := by
  obtain ⟨ss, split, way, goal⟩ := spot.steps
  have start := keeps.start path
  exact ⟨spot.checked, ⟨ss, split, start ▸ keeps.passable way, start ▸ goal⟩,
    keeps.directories p spot.directory, spot.plain⟩

theorem Keeps.trans (first : t.Keeps t') (second : t'.Keeps t'') : t.Keeps t'' where
  here := second.here.trans first.here
  directories p directory := second.directories p (first.directories p directory)
  present p there := second.present p (first.present p there)

/-- Every entry of `t` is in `t'` as well. -/
structure Extends (t t' : FileTree) : Prop where
  here : t'.here = t.here
  device : t'.device = t.device
  entries : ∀ p e, t.entry? p = some e → t'.entry? p = some e

theorem Extends.refl (t : FileTree) : t.Extends t :=
  ⟨rfl, rfl, fun _ _ there => there⟩

theorem Extends.trans (first : t.Extends t') (second : t'.Extends t'') : t.Extends t'' where
  here := second.here.trans first.here
  device := second.device.trans first.device
  entries p e there := second.entries p e (first.entries p e there)

theorem Extends.keeps (ext : t.Extends t') : t.Keeps t' where
  here := ext.here
  directories p := ext.entries p .directory
  present p there := by
    obtain ⟨e, entry⟩ := Option.ne_none_iff_exists'.mp there
    simp [ext.entries p e entry]

theorem Extends.contents (ext : t.Extends t') (read : t.contents path = .ok c) :
    t'.contents path = .ok c := by
  obtain ⟨reached, slash, file⟩ := contents_eq_ok_iff.mp read
  exact contents_eq_ok_iff.mpr
    ⟨ext.keeps.reaches reached, slash, ext.keeps.goal path ▸ ext.entries _ _ file⟩

theorem extends_set (free : t.entry? p = none) (e : Entry) : t.Extends (t.set p e) := by
  refine ⟨rfl, rfl, fun q f there => ?_⟩
  have apart : q ≠ p := by
    rintro rfl
    simp [free] at there
  rwa [entry?_set_of_ne t apart]

theorem keeps_set (other : t.entry? p ≠ some .directory) (e : Entry) : t.Keeps (t.set p e) := by
  have inner : p ≠ [] := by
    rintro rfl
    exact other t.entry?_root
  refine ⟨rfl, fun q directory => ?_, fun q there => ?_⟩
  · have apart : q ≠ p := fun same => other (same ▸ directory)
    rwa [entry?_set_of_ne t apart]
  · by_cases same : q = p
    · simp [same, entry?_set_self t inner]
    · rwa [entry?_set_of_ne t same]

/-- Where the path was opened, it leads to what was put there. -/
theorem Opens.contents_set {file : Place} (opens : t.Opens path file) (c : Contents) :
    (t.set file (.file c)).contents path = .ok c := by
  obtain ⟨place, name, rfl, spot, short⟩ := opens.spot
  have there := t.entry?_set_self (List.cons_ne_nil name place) (.file c)
  -- the path leads to the same place as before, where the file is now
  have spot' := (keeps_set opens.free (.file c)).isSpot spot
  refine contents_eq_ok_iff.mpr ⟨spot'.reaches short (by simp [there]), opens.slash, ?_⟩
  rw [spot'.goal, there]

theorem Opens.goal {file : Place} (opens : t.Opens path file) : t.goal path = file := by
  obtain ⟨place, name, rfl, spot, -⟩ := opens.spot
  exact spot.goal

theorem Opens.fileAt?_set {file : Place} (opens : t.Opens path file) (c : Contents) :
    fileAt? (t.set file (.file c)) file = some c := by
  obtain ⟨place, name, rfl, -, -⟩ := opens.spot
  exact fileAt?_eq_some_iff.mpr (t.entry?_set_self (List.cons_ne_nil name place) _)

/-- A file that was just written can be opened once more, whatever else is made. -/
theorem Opens.again {file : Place} (opens : t.Opens path file)
    (ext : (t.set file (.file c)).Extends t') : t'.Opens path file := by
  obtain ⟨place, name, rfl, spot, short⟩ := opens.spot
  have there := ext.entries _ _ (t.entry?_set_self (List.cons_ne_nil name place) (.file c))
  have keeps : t.Keeps t' := (keeps_set opens.free (.file c)).trans ext.keeps
  refine ⟨⟨place, name, rfl, keeps.isSpot spot, short⟩, opens.slash, by simp [there], ?_⟩
  rw [ext.device]
  exact opens.allowed

/-! ### Trees without holes -/

/-- Whatever is there is in a directory. -/
def WellFormed (t : FileTree) : Prop :=
  ∀ p, t.entry? p ≠ none → t.entry? p.tail = some .directory

theorem wellFormed_of_entries
    (inside : ∀ e ∈ t.entries, t.entry? e.1.tail = some .directory) : t.WellFormed := by
  intro p there
  unfold entry? at there
  split at there
  · rename_i root
    rw [List.isEmpty_iff.mp root]
    exact t.entry?_root
  · obtain ⟨entry, found⟩ := Option.ne_none_iff_exists'.mp there
    obtain ⟨before, after, split, -⟩ := List.lookup_eq_some_iff.mp found
    exact inside (p, entry) (by simp [split])

theorem wellFormed_set (wf : t.WellFormed) {name : String} {place : Place}
    (directory : t.entry? place = some .directory)
    (other : t.entry? (name :: place) ≠ some .directory) (e : Entry) :
    (t.set (name :: place) e).WellFormed := by
  intro q there
  have keeps := keeps_set other e
  apply keeps.directories
  by_cases same : q = name :: place
  · rw [same]
    exact directory
  · rw [entry?_set_of_ne t same] at there
    exact wf q there

theorem Opens.wellFormed_set {file : Place} (wf : t.WellFormed) (opens : t.Opens path file)
    (c : Contents) : (t.set file (.file c)).WellFormed := by
  obtain ⟨place, name, rfl, spot, -⟩ := opens.spot
  exact FileTree.wellFormed_set wf spot.directory opens.free _

/-- A path that leads to a file ends in its name. -/
theorem exists_isSpot (wf : t.WellFormed) (read : t.contents path = .ok c) :
    ∃ place name, t.IsSpot path place name ∧ name.utf8ByteSize ≤ nameLimit := by
  obtain ⟨⟨checked, way⟩, slash, file⟩ := contents_eq_ok_iff.mp read
  have filled : path ≠ "" := by
    rintro rfl
    simp [checkPath] at checked
  rcases List.eq_nil_or_concat (Path.steps path) with root | ⟨ss, last, split⟩
  · -- no step: the path is the root, which is no file
    have absolute := Path.isAbsolute_of_steps_eq_nil filled root
    simp [goal, root, start, absolute, entry?_root] at file
  · rw [List.concat_eq_append] at split
    rw [split, passable_concat] at way
    obtain ⟨way, directory, there⟩ := way
    have last_step : t.goal path = target (ss.foldl target (t.start path)) last := by
      simp [goal, split]
    rw [last_step] at file
    have dot : last ≠ "." := by
      rintro rfl
      simp [target, directory] at file
    have dots : last ≠ ".." := by
      -- one level up there is a directory as well
      rintro rfl
      have outer := wf _ (directory ▸ Option.some_ne_none _)
      simp [target, outer] at file
    exact ⟨_, last, ⟨checked, ⟨ss, split, way, rfl⟩, directory, dot, dots⟩, (there dot dots).1⟩

end FileTree

end ModalKeys
