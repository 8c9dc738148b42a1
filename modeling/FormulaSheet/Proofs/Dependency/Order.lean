import FormulaSheet.Proofs.Dependency.Reach
import Mathlib.Data.List.Nodup

/-!
# The order of a search

`Links.order` lists the cells that can be reached from a start, each in front of those it leads to.
On links that run in circles the second half cannot hold of all cells, and what holds instead is
said of every single step: the cell led to stands behind, or it reaches back to the cell that leads
to it.

## The invariant

A search has finished some cells and has others open on its path. Every finished cell is sorted
among the finished ones. For a cell on the path the same is promised for the moment when it will be
finished; by then all that is above it on the path will be finished too, and `Pending` reads the
path in that way, from the top down, each cell taken for finished when the next one is looked at.

Nothing is asked of the way in which the cells after a cell are arranged but that none is lost or
added.
-/

namespace FormulaSheet

namespace Links

/-! ## Steps that are accounted for -/

/-- Every cell that `a` leads to is among the `later` ones, or has been opened and reaches back to
`a`. -/
def Accounted (full : Links) (opened : Keys) (later : List String) (a : String) : Prop :=
  ∀ b, full.Leads a b → b ∈ later ∨ b ∈ opened ∧ full.Reaches b a

/-- Each cell of a list is accounted for by those behind it. -/
def Sorted (full : Links) (opened : Keys) : List String → Prop
  | [] => True
  | a :: later => Accounted full opened later a ∧ Sorted full opened later

/-- Each cell of a path will be accounted for when it is finished in its turn. -/
def Pending (full : Links) (opened : Keys) : List String → List (String × List String) → Prop
  | _, [] => True
  | done, (a, untried) :: path =>
    Accounted full opened (untried ++ done) a ∧ Pending full opened (a :: done) path

variable {full links : Links} {opened opened' : Keys} {done done' : List String}
  {path : List (String × List String)} {start a b : String} {later later' : List String}

theorem Accounted.mono (h : Accounted full opened later a) (hopened : ∀ b, b ∈ opened → b ∈ opened')
    (hlater : ∀ b, b ∈ later → b ∈ later') : Accounted full opened' later' a := by
  intro b hb
  rcases h b hb with hb | ⟨hb, hba⟩
  · exact Or.inl (hlater b hb)
  · exact Or.inr ⟨hopened b hb, hba⟩

theorem Sorted.mono (h : Sorted full opened done) (hopened : ∀ b, b ∈ opened → b ∈ opened') :
    Sorted full opened' done := by
  induction done with
  | nil => trivial
  | cons a done ih => exact ⟨h.1.mono hopened fun _ hb ↦ hb, ih h.2⟩

theorem Pending.mono (h : Pending full opened done path) (hopened : ∀ b, b ∈ opened → b ∈ opened')
    (hdone : ∀ b, b ∈ done → b ∈ done') : Pending full opened' done' path := by
  induction path generalizing done done' with
  | nil => trivial
  | cons p path ih =>
    obtain ⟨a, untried⟩ := p
    refine ⟨h.1.mono hopened fun b hb ↦ ?_, ih h.2 fun b hb ↦ ?_⟩
    · rcases List.mem_append.mp hb with hb | hb
      · exact List.mem_append_left _ hb
      · exact List.mem_append_right _ (hdone b hb)
    · rcases List.mem_cons.mp hb with rfl | hb
      · exact List.mem_cons_self
      · exact List.mem_cons_of_mem _ (hdone b hb)

theorem Sorted.mem_opened (h : Sorted full opened done) (hdone : ∀ a, a ∈ done → a ∈ opened)
    (ha : a ∈ done) (hab : full.Leads a b) : b ∈ opened := by
  induction done with
  | nil => exact absurd ha List.not_mem_nil
  | cons c done ih =>
    rcases List.mem_cons.mp ha with rfl | ha
    · rcases h.1 b hab with hb | ⟨hb, -⟩
      · exact hdone b (List.mem_cons_of_mem _ hb)
      · exact hb
    · exact ih h.2 (fun d hd ↦ hdone d (List.mem_cons_of_mem _ hd)) ha

theorem Pending.insert {untried : List String}
    (h : Pending full opened done ((a, b :: untried) :: path)) :
    Pending full (opened.insert b) (b :: done) ((a, untried) :: path) := by
  have hopened : ∀ c, c ∈ opened → c ∈ opened.insert b := fun c hc ↦
    Keys.mem_insert.mpr (Or.inr hc)
  refine ⟨h.1.mono hopened fun c hc ↦ ?_, h.2.mono hopened fun c hc ↦ ?_⟩
  · simp only [List.cons_append, List.mem_cons, List.mem_append] at hc ⊢
    exact or_left_comm.mp hc
  · rcases List.mem_cons.mp hc with rfl | hc
    · exact List.mem_cons_self
    · exact List.mem_cons_of_mem _ (List.mem_cons_of_mem _ hc)

/-! ## Entries that are used up -/

theorem entry_erase (h : ∀ a, links[a]? = if a ∈ opened then none else full[a]?) (b a : String) :
    (links.erase b)[a]? = if a ∈ opened.insert b then none else full[a]? := by
  rw [getElem?_erase_key, h a]
  by_cases ha : a = b
  · simp [ha]
  · simp only [Keys.mem_insert, ha, false_or, if_false]

theorem entry_of_none (h : ∀ a, links[a]? = if a ∈ opened then none else full[a]?)
    (hnone : links[b]? = none) (a : String) :
    links[a]? = if a ∈ opened.insert b then none else full[a]? := by
  by_cases ha : a = b
  · rw [ha, if_pos (Keys.mem_insert.mpr (Or.inl rfl)), hnone]
  · rw [h a]
    simp only [Keys.mem_insert, ha, false_or]

/-! ## How far a search has come -/

/-- What holds at every moment of a search from `start` along the links `full`. -/
structure Progress (full : Links) (start : String) (links : Links) (opened : Keys)
    (done : List String) (path : List (String × List String)) : Prop where
  /-- The entries of the opened cells are used up, and only these. -/
  entry : ∀ a, links[a]? = if a ∈ opened then none else full[a]?
  /-- The opened cells are finished or on the path. -/
  mem_opened : ∀ a, a ∈ opened ↔ a ∈ path.map Prod.fst ∨ a ∈ done
  /-- No cell is there twice. -/
  nodup : (path.map Prod.fst ++ done).Nodup
  /-- The start has been opened. -/
  start_mem : start ∈ opened
  /-- All other opened cells are reached from it. -/
  reached : ∀ a ∈ opened, a = start ∨ full.Reaches start a
  /-- Along the path each cell reaches those above it. -/
  climbs : (path.map Prod.fst).Pairwise fun upper lower ↦ full.Reaches lower upper
  /-- What is untried at a cell is led to by it. -/
  untried : ∀ p ∈ path, ∀ b ∈ p.2, full.Leads p.1 b
  /-- The finished cells are sorted. -/
  sorted : Sorted full opened done
  /-- The cells on the path will be. -/
  pending : Pending full opened done path

theorem Progress.finished (h : Progress full start links opened done ((a, []) :: path)) :
    Progress full start links opened (a :: done) path where
  entry := h.entry
  mem_opened b := by
    rw [h.mem_opened, List.map_cons, List.mem_cons, List.mem_cons, or_assoc, or_left_comm]
  nodup := List.nodup_middle.mpr h.nodup
  start_mem := h.start_mem
  reached := h.reached
  climbs := (List.pairwise_cons.mp h.climbs).2
  untried p hp := h.untried p (List.mem_cons_of_mem _ hp)
  sorted := ⟨h.pending.1, h.sorted⟩
  pending := h.pending.2

theorem Progress.untried_tail {untried : List String}
    (h : Progress full start links opened done ((a, b :: untried) :: path)) :
    ∀ p ∈ (a, untried) :: path, ∀ c ∈ p.2, full.Leads p.1 c := by
  intro p hp c hc
  rcases List.mem_cons.mp hp with rfl | hp
  · exact h.untried _ List.mem_cons_self c (List.mem_cons_of_mem _ hc)
  · exact h.untried p (List.mem_cons_of_mem _ hp) c hc

/-- A follower that has been opened before is passed over: it is finished, or it is on the path and
reaches back to the cell on top. -/
theorem Progress.passed {untried : List String} (hb : b ∈ opened)
    (h : Progress full start links opened done ((a, b :: untried) :: path)) :
    Progress full start links opened done ((a, untried) :: path) where
  entry := h.entry
  mem_opened := h.mem_opened
  nodup := h.nodup
  start_mem := h.start_mem
  reached := h.reached
  climbs := h.climbs
  untried := h.untried_tail
  sorted := h.sorted
  pending := by
    refine ⟨fun c hc ↦ ?_, h.pending.2⟩
    rcases h.pending.1 c hc with hmem | hback
    · rcases List.mem_cons.mp hmem with rfl | hmem
      · have hac : full.Leads a c := hc
        rcases (h.mem_opened c).mp hb with hpath | hdone
        · rcases List.mem_cons.mp hpath with rfl | hpath
          · exact Or.inr ⟨hb, .single hac⟩
          · exact Or.inr ⟨hb, (List.pairwise_cons.mp h.climbs).1 c hpath⟩
        · exact Or.inl (List.mem_append_right _ hdone)
      · exact Or.inl hmem
    · exact Or.inr hback

/-- What holds of the cell that is opened next: it is new, its entry is there to be used, and the
start reaches it. -/
theorem Progress.next {untried : List String} (hb : b ∉ opened)
    (h : Progress full start links opened done ((a, b :: untried) :: path)) :
    b ∉ ((a, untried) :: path).map Prod.fst ++ done ∧ links[b]? = full[b]? ∧
      full.Leads a b ∧ full.Reaches start b := by
  have hab : full.Leads a b := h.untried _ List.mem_cons_self b List.mem_cons_self
  have hentry := h.entry b
  rw [if_neg hb] at hentry
  refine ⟨?_, hentry, hab, ?_⟩
  · rw [List.mem_append]
    exact fun hmem ↦ hb ((h.mem_opened b).mpr hmem)
  · have ha : a ∈ opened := (h.mem_opened a).mpr (Or.inl List.mem_cons_self)
    rcases h.reached a ha with rfl | hstart
    · exact .single hab
    · exact hstart.tail hab

theorem Progress.leaf {untried : List String} (hb : b ∉ opened) (hnone : links[b]? = none)
    (h : Progress full start links opened done ((a, b :: untried) :: path)) :
    Progress full start links (opened.insert b) (b :: done) ((a, untried) :: path) := by
  obtain ⟨hnew, hentry, -, hreached⟩ := h.next hb
  exact {
    entry := entry_of_none h.entry hnone
    mem_opened := fun c ↦ by
      rw [Keys.mem_insert, h.mem_opened, List.mem_cons, or_left_comm]
      rfl
    nodup := List.nodup_middle.mpr (List.nodup_cons.mpr ⟨hnew, h.nodup⟩)
    start_mem := Keys.mem_insert.mpr (Or.inr h.start_mem)
    reached := fun c hc ↦ by
      rcases Keys.mem_insert.mp hc with rfl | hc
      · exact Or.inr hreached
      · exact h.reached c hc
    climbs := h.climbs
    untried := h.untried_tail
    sorted := ⟨fun c hbc ↦ absurd hbc (not_leads_of_none (hentry ▸ hnone)),
      h.sorted.mono fun c hc ↦ Keys.mem_insert.mpr (Or.inr hc)⟩
    pending := h.pending.insert }

theorem Progress.push {untried arranged : List String} {keys : Keys} (hb : b ∉ opened)
    (hsome : links[b]? = some keys) (harranged : ∀ c, c ∈ arranged ↔ c ∈ keys)
    (h : Progress full start links opened done ((a, b :: untried) :: path)) :
    Progress full start (links.erase b) (opened.insert b) done
      ((b, arranged) :: (a, untried) :: path) := by
  obtain ⟨hnew, hentry, hab, hreached⟩ := h.next hb
  have hleads : ∀ c, full.Leads b c ↔ c ∈ arranged := by
    intro c
    rw [Leads, next_of_getElem? (hentry ▸ hsome), harranged]
  exact {
    entry := entry_erase h.entry b
    mem_opened := fun c ↦ by
      rw [Keys.mem_insert, h.mem_opened, ← or_assoc, ← List.mem_cons]
      rfl
    nodup := List.nodup_cons.mpr ⟨hnew, h.nodup⟩
    start_mem := Keys.mem_insert.mpr (Or.inr h.start_mem)
    reached := fun c hc ↦ by
      rcases Keys.mem_insert.mp hc with rfl | hc
      · exact Or.inr hreached
      · exact h.reached c hc
    climbs := by
      -- what is on the path reaches the new cell by way of the cell that was on top
      refine List.pairwise_cons.mpr ⟨fun c hc ↦ ?_, h.climbs⟩
      rcases List.mem_cons.mp hc with rfl | hc
      · exact .single hab
      · exact ((List.pairwise_cons.mp h.climbs).1 c hc).tail hab
    untried := fun p hp c hc ↦ by
      rcases List.mem_cons.mp hp with rfl | hp
      · exact (hleads c).mpr hc
      · exact h.untried_tail p hp c hc
    sorted := h.sorted.mono fun c hc ↦ Keys.mem_insert.mpr (Or.inr hc)
    pending := ⟨fun c hbc ↦ Or.inl (List.mem_append_left _ ((hleads c).mp hbc)), h.pending.insert⟩ }

/-- **A search makes progress to its end.** -/
theorem Progress.finish {arrange : String → List String → List String}
    (harrange : ∀ a keys, (arrange a keys).Perm keys)
    (h : Progress full start links opened done path) :
    ∃ links' opened',
      Progress full start links' opened' (finish arrange links opened done path) [] := by
  fun_induction Links.finish arrange links opened done path with
  | case1 links opened done => exact ⟨links, opened, h⟩
  | case2 links opened done cell path ih => exact ih h.finished
  | case3 links opened done cell other untried path hopened ih =>
    exact ih (h.passed (Std.ExtTreeSet.contains_iff_mem.mp hopened))
  | case4 links opened done cell other untried path hopened hnone ih =>
    exact ih (h.leaf (fun hc ↦ hopened (Std.ExtTreeSet.contains_iff_mem.mpr hc)) hnone)
  | case5 links opened done cell other untried path hopened keys hsome ih =>
    refine ih (h.push (fun hc ↦ hopened (Std.ExtTreeSet.contains_iff_mem.mpr hc)) hsome fun c ↦ ?_)
    rw [(harrange other keys.toList).mem_iff, Std.ExtTreeSet.mem_toList]

/-! ## The order -/

variable {arrange : String → List String → List String}

theorem Progress.init (full : Links) (start : String)
    (harrange : ∀ a keys, (arrange a keys).Perm keys) :
    Progress full start (full.erase start) {start} []
      [(start, arrange start (full.next start).toList)] where
  entry a := by
    rw [Std.ExtTreeMap.getElem?_erase]
    by_cases ha : start = a <;> simp [ha]
  mem_opened a := by simp [@eq_comm _ start]
  nodup := List.nodup_singleton _
  start_mem := Keys.mem_singleton.mpr rfl
  reached a ha := Or.inl (Keys.mem_singleton.mp ha)
  climbs := List.pairwise_singleton _ _
  untried p hp b hb := by
    obtain rfl := List.mem_singleton.mp hp
    exact Std.ExtTreeSet.mem_toList.mp ((harrange _ _).mem_iff.mp hb)
  sorted := trivial
  pending := ⟨fun _ hb ↦ Or.inl (List.mem_append_left _
    ((harrange _ _).mem_iff.mpr (Std.ExtTreeSet.mem_toList.mpr hb))), trivial⟩

/-- What the search leaves behind: the start and all that it reaches, once each, and sorted. -/
theorem exists_finished (full : Links) (start : String)
    (harrange : ∀ a keys, (arrange a keys).Perm keys) :
    ∃ (done : List String) (opened : Keys), full.order arrange start = done.filter (· != start) ∧
      done.Nodup ∧ (∀ a, a ∈ done ↔ a = start ∨ full.Reaches start a) ∧
      Sorted full opened done := by
  obtain ⟨links, opened, h⟩ := (Progress.init full start harrange).finish harrange
  refine ⟨_, opened, rfl, h.nodup, fun a ↦ ⟨fun ha ↦ ?_, fun ha ↦ ?_⟩, h.sorted⟩
  · exact h.reached a ((h.mem_opened a).mpr (Or.inr ha))
  · have hmem : ∀ b, b ∈ opened → b ∈ finish arrange (full.erase start) {start} []
        [(start, arrange start (full.next start).toList)] := fun b hb ↦
      ((h.mem_opened b).mp hb).resolve_left List.not_mem_nil
    -- what is finished is closed under the links, for each follower of a finished cell is opened
    have hclosed : ∀ b c, b ∈ opened → full.Leads b c → c ∈ opened := by
      intro b c hb hbc
      exact h.sorted.mem_opened (fun d hd ↦ (h.mem_opened d).mpr (Or.inr hd)) (hmem b hb) hbc
    rcases ha with rfl | ha
    · exact hmem a h.start_mem
    · refine hmem a ?_
      induction ha with
      | single hab => exact hclosed _ _ h.start_mem hab
      | tail _ hbc ih => exact hclosed _ _ ih hbc

theorem mem_order_iff (full : Links) (start : String)
    (harrange : ∀ a keys, (arrange a keys).Perm keys) (a : String) :
    a ∈ full.order arrange start ↔ a ≠ start ∧ full.Reaches start a := by
  obtain ⟨done, opened, horder, -, hmem, -⟩ := exists_finished full start harrange
  rw [horder, List.mem_filter, hmem, bne_iff_ne]
  constructor
  · rintro ⟨rfl | ha, hne⟩
    · exact absurd rfl hne
    · exact ⟨hne, ha⟩
  · rintro ⟨hne, ha⟩
    exact ⟨Or.inr ha, hne⟩

/-! ### Cascades

On links without circles an order is more: whatever a cell of the order leads to stands behind it.
-/

/-- Everything that a cell of the list leads to stands behind it. -/
def Cascade (full : Links) : List String → Prop
  | [] => True
  | a :: later => (∀ b, full.Leads a b → b ∈ later) ∧ Cascade full later

theorem Sorted.cascade (h : Sorted full opened done) (hacyclic : ∀ a ∈ done, ¬full.Reaches a a) :
    Cascade full done := by
  induction done with
  | nil => trivial
  | cons a done ih =>
    refine ⟨fun b hab ↦ ?_, ih h.2 fun c hc ↦ hacyclic c (List.mem_cons_of_mem _ hc)⟩
    rcases h.1 b hab with hb | ⟨-, hba⟩
    · exact hb
    · exact absurd (Relation.TransGen.head hab hba) (hacyclic a List.mem_cons_self)

theorem Cascade.filter_ne (h : Cascade full done) (hstart : ∀ a ∈ done, ¬full.Leads a start) :
    Cascade full (done.filter (· != start)) := by
  induction done with
  | nil => trivial
  | cons a done ih =>
    have ih' := ih h.2 fun b hb ↦ hstart b (List.mem_cons_of_mem _ hb)
    by_cases ha : a = start
    · rwa [List.filter_cons_of_neg (by simp [ha])]
    · rw [List.filter_cons_of_pos (by simp [ha])]
      refine ⟨fun b hab ↦ List.mem_filter.mpr ⟨h.1 b hab, bne_iff_ne.mpr ?_⟩, ih'⟩
      rintro rfl
      exact hstart a List.mem_cons_self hab

/-- **Cascades.** If no circle can be reached from the start, the start and its order are a
cascade. -/
theorem cascade_order (full : Links) (start : String)
    (harrange : ∀ a keys, (arrange a keys).Perm keys)
    (hacyclic : ∀ a, a = start ∨ full.Reaches start a → ¬full.Reaches a a) :
    Cascade full (start :: full.order arrange start) := by
  have hstart : ¬full.Reaches start start := hacyclic start (Or.inl rfl)
  refine ⟨fun b hb ↦ (mem_order_iff full start harrange b).mpr ⟨?_, .single hb⟩, ?_⟩
  · rintro rfl
    exact hstart (.single hb)
  · obtain ⟨done, opened, horder, -, hmem, hsorted⟩ := exists_finished full start harrange
    rw [horder]
    refine (hsorted.cascade fun a ha ↦ hacyclic a ((hmem a).mp ha)).filter_ne fun a ha hlead ↦ ?_
    rcases (hmem a).mp ha with rfl | hreach
    · exact hstart (.single hlead)
    · exact hstart (hreach.tail hlead)

end Links

end FormulaSheet
