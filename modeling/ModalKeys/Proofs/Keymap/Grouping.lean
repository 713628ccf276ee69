import ModalKeys.Proofs.Keymap.Edits

/-!
# Mappings grouped by mode

`Keymap.grouped` sorts the mappings by their modes. The sort is stable, so the result can be said
without sorting: it is what the normal mode has, then the visual and then the insert mode, each in
stored order (`grouped_eq_byMode`). In particular nothing is lost (`byMode_perm`), and grouping a
second time changes nothing (`byMode_byMode`). A mapping is put in, taken out and looked up among
the mappings of its mode (`inMode_place`, `inMode_filter`, `lookup_eq_inMode`).
-/

namespace ModalKeys.Keymap

/-- The mappings of one mode, in stored order. -/
def inMode (ms : List Mapping) (mode : Mode) : List Mapping :=
  ms.filter fun m => m.mode == mode

/-- The mappings mode by mode, each in stored order. -/
def byMode (ms : List Mapping) : List Mapping :=
  inMode ms .normal ++ inMode ms .visual ++ inMode ms .insert

theorem inMode_cons (m : Mapping) (ms : List Mapping) (mode : Mode) :
    inMode (m :: ms) mode = if m.mode = mode then m :: inMode ms mode else inMode ms mode := by
  simp only [inMode, List.filter_cons, beq_iff_eq]

/-- A mapping is put among those of its mode, and the other modes do not see it. -/
theorem inMode_place (m : Mapping) (ms : List Mapping) (mode : Mode) :
    inMode (m.place ms) mode =
      if m.mode = mode then m.place (inMode ms mode) else inMode ms mode := by
  induction ms with
  | nil => exact inMode_cons m [] mode
  | cons x xs ih =>
    by_cases same : x.isFor m.mode m.lhs = true
    · have alike : x.mode = m.mode := congrArg Prod.fst (Mapping.isFor_key_iff.mp same)
      rw [Mapping.place, if_pos same, inMode_cons, inMode_cons, alike]
      split
      · rw [Mapping.place, if_pos same]
      · rfl
    · rw [Mapping.place, if_neg same, inMode_cons, inMode_cons, ih]
      by_cases there : x.mode = mode
      · rw [if_pos there, if_pos there, Mapping.place, if_neg same]
        split <;> rfl
      · rw [if_neg there, if_neg there]

theorem inMode_filter (p : Mapping → Bool) (ms : List Mapping) (mode : Mode) :
    inMode (ms.filter p) mode = (inMode ms mode).filter p := by
  rw [inMode, inMode, List.filter_filter, List.filter_filter]
  exact List.filter_congr fun m _ => Bool.and_comm _ _

theorem lookup_eq_inMode (k : Keymap) (mode : Mode) (lhs : String) :
    k.lookup mode lhs =
      ((inMode k.mappings mode).find? fun m => m.isFor mode lhs).map Mapping.rhs := by
  rw [lookup, inMode, List.find?_filter]
  congr 2
  funext m
  -- a mapping for the keys in this mode is one of this mode
  rw [Bool.eq_iff_iff]
  simp [Mapping.isFor]

/-! ### Sorted mappings -/

private def ranked (a b : Mapping) : Bool :=
  a.mode.rank ≤ b.mode.rank

private theorem ranked_trans (a b c : Mapping) (first : ranked a b = true)
    (second : ranked b c = true) : ranked a c = true := by
  simp only [ranked, decide_eq_true_eq] at first second ⊢
  omega

private theorem ranked_total (a b : Mapping) : (ranked a b || ranked b a) = true := by
  simp only [ranked, Bool.or_eq_true, decide_eq_true_eq]
  omega

theorem inMode_grouped (k : Keymap) (mode : Mode) :
    inMode k.grouped mode = inMode k.mappings mode := by
  have perm : k.grouped.Perm k.mappings := List.mergeSort_perm k.mappings ranked
  have level : (inMode k.mappings mode).Pairwise fun a b => ranked a b = true := by
    apply List.pairwise_of_forall_mem_list
    intro a first b second
    have left : a.mode = mode := by simpa using (List.mem_filter.mp first).2
    have right : b.mode = mode := by simpa using (List.mem_filter.mp second).2
    simp [ranked, left, right]
  -- the mappings of a mode are a sorted part of the list, and a stable sort keeps such a part
  have part : List.Sublist (inMode k.mappings mode) k.grouped :=
    List.sublist_mergeSort ranked_trans ranked_total level List.filter_sublist
  have again : List.Sublist (inMode k.mappings mode) (inMode k.grouped mode) := by
    have filtered := part.filter fun m => m.mode == mode
    simp only [inMode, List.filter_filter, Bool.and_self] at filtered
    exact filtered
  exact (again.eq_of_length (perm.filter _).length_eq.symm).symm

/-- A list that is sorted by mode is what its modes have, one after the other. -/
theorem eq_byMode_of_sorted {ms : List Mapping}
    (sorted : ms.Pairwise fun a b => ranked a b = true) : ms = byMode ms := by
  induction ms with
  | nil => rfl
  | cons m ms ih =>
    obtain ⟨first, rest⟩ := List.pairwise_cons.mp sorted
    have vacant (mode : Mode) (below : mode.rank < m.mode.rank) : inMode ms mode = [] := by
      apply List.filter_eq_nil_iff.mpr
      intro x member same
      have order := first x member
      simp only [ranked, decide_eq_true_eq, beq_iff_eq] at order same
      rw [same] at order
      omega
    -- no mode before the mode of the first mapping has any mapping left
    have step : byMode (m :: ms) = m :: byMode ms := by
      cases found : m.mode with
      | normal => simp [byMode, inMode_cons, found]
      | visual =>
        have normal := vacant .normal (by rw [found]; decide)
        simp [byMode, inMode_cons, found, normal]
      | insert =>
        have normal := vacant .normal (by rw [found]; decide)
        have visual := vacant .visual (by rw [found]; decide)
        simp [byMode, inMode_cons, found, normal, visual]
    rw [step, ← ih rest]

theorem grouped_eq_byMode (k : Keymap) : k.grouped = byMode k.mappings := by
  have sorted : k.grouped.Pairwise fun a b => ranked a b = true :=
    List.pairwise_mergeSort ranked_trans ranked_total k.mappings
  rw [eq_byMode_of_sorted sorted]
  simp only [byMode, inMode_grouped]

theorem byMode_perm (ms : List Mapping) : (byMode ms).Perm ms := by
  have grouped := grouped_eq_byMode ⟨[], ms⟩
  exact grouped ▸ List.mergeSort_perm ms ranked

theorem forall_mem_byMode {P : Mapping → Prop} {ms : List Mapping} :
    (∀ m ∈ byMode ms, P m) ↔ ∀ m ∈ ms, P m := by
  simp only [(byMode_perm ms).mem_iff]

theorem length_byMode (ms : List Mapping) : (byMode ms).length = ms.length :=
  (byMode_perm ms).length_eq

theorem nodup_keys_byMode {ms : List Mapping} (unique : (ms.map Mapping.key).Nodup) :
    ((byMode ms).map Mapping.key).Nodup :=
  ((byMode_perm ms).map Mapping.key).nodup_iff.mpr unique

theorem byMode_byMode (ms : List Mapping) : byMode (byMode ms) = byMode ms := by
  have grouped := grouped_eq_byMode ⟨[], ms⟩
  have sorted : (byMode ms).Pairwise fun a b => ranked a b = true := by
    exact grouped ▸ List.pairwise_mergeSort ranked_trans ranked_total ms
  exact (eq_byMode_of_sorted sorted).symm

end ModalKeys.Keymap
