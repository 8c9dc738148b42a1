import FormulaSheet.Proofs.Sheet.Intact

/-!
# Cells without edges

A cell that is not tracked has no edges, so no evaluation that starts at another cell comes to it.
The loop that restores refused cells takes no edge away; a cell that it evaluates is reached in the
end from one that it restored, and then it is not without edges any more.

The value of a cell without edges changes on two occasions only: when a formula is installed in it,
and when it is itself the cell that an evaluation is asked for.

For refused cells this is `Intact.get_install`, from which everything follows that is said of their
values after a run. A cell that reads itself keeps the value of the one evaluation that came with
its formula, and that evaluation read the value which the cell had before.
-/

namespace FormulaSheet

namespace Sheet

open Relation

variable {s t : Sheet} {key c : String} {e : Option Expr} {keys : Keys} {cells : List String}

/-! ## Evaluation -/

theorem get_settleAll_of_not_mem (h : c ∉ cells) :
    (s.settleAll cells).values.get c = s.values.get c := by
  induction cells generalizing s with
  | nil => rfl
  | cons cell cells ih =>
    rw [List.mem_cons, not_or] at h
    refine (ih (s := s.settle cell) h.2).trans ?_
    rw [settle, get_store, if_neg h.1]

theorem mem_recalcOrder_iff :
    c ∈ s.index.recalcOrder key ↔ c ≠ key ∧ s.index.dependentLinks.Reaches key c :=
  Links.mem_order_iff _ key (fun _ _ ↦ List.Perm.refl _) c

theorem get_settleDependents_of_not_reaches (h : ¬s.index.dependentLinks.Reaches key c) :
    (s.settleDependents key).values.get c = s.values.get c :=
  get_settleAll_of_not_mem fun hmem ↦ h (mem_recalcOrder_iff.mp hmem).2

theorem get_recalculateKey_of_not_reaches (hne : c ≠ key)
    (h : ¬s.index.dependentLinks.Reaches key c) :
    (s.recalculateKey key).values.get c = s.values.get c := by
  rw [recalculateKey_eq_settleAll]
  exact get_settleAll_of_not_mem
    (List.not_mem_cons_of_ne_of_not_mem hne fun hmem ↦ h (mem_recalcOrder_iff.mp hmem).2)

theorem Wired.tracked_of_reaches (hw : s.Wired) {a : String}
    (h : s.index.dependentLinks.Reaches a c) : s.Tracked c := by
  obtain ⟨b, -, hbc⟩ := TransGen.tail'_iff.mp h
  exact hw.tracked_of_leads hbc

theorem Wired.get_settleDependents (hw : s.Wired) (hc : ¬s.Tracked c) :
    (s.settleDependents key).values.get c = s.values.get c :=
  get_settleDependents_of_not_reaches (mt hw.tracked_of_reaches hc)

theorem Wired.get_recalculateKey_of_ne (hw : s.Wired) (hc : ¬s.Tracked c) (hne : c ≠ key) :
    (s.recalculateKey key).values.get c = s.values.get c :=
  get_recalculateKey_of_not_reaches hne (mt hw.tracked_of_reaches hc)

theorem get_recalculateKey_self (s : Sheet) (key : String) :
    (s.recalculateKey key).values.get key = s.formulaValue key := by
  have hself : key ∉ (s.settle key).index.recalcOrder key :=
    fun hmem ↦ (mem_recalcOrder_iff.mp hmem).1 rfl
  rw [recalculateKey, settleDependents, get_settleAll_of_not_mem hself, settle, get_store,
    if_pos rfl]

/-! ## The loop that restores refused cells -/

theorem refused_restore (s : Sheet) (key : String) (keys : Keys) :
    (s.restore key keys).refused = s.refused.erase key := by
  rw [restore_eq, recalculateKey_eq]
  rfl

theorem index_restore (s : Sheet) (key : String) (keys : Keys) :
    (s.restore key keys).index = s.index.replace key keys := by
  rw [restore_eq, recalculateKey_eq]
  rfl

theorem mem_refused_of_restore (h : c ∈ (s.restore key keys).refused) :
    c ≠ key ∧ c ∈ s.refused := by
  rw [refused_restore] at h
  exact (mem_erase_key _ _ _).mp h

theorem mem_refused_of_restoreRefused (h : c ∈ s.restoreRefused.refused) : c ∈ s.refused := by
  fun_induction restoreRefused s with
  | case1 s => exact h
  | case2 s key keys hrestorable ih => exact (mem_refused_of_restore (ih h)).2

theorem asked_restoreRefused (s : Sheet) (c : String) : s.restoreRefused.asked c = s.asked c := by
  obtain ⟨values, index, refused, heq⟩ := restoreRefused_eq s
  rw [heq]
  rfl

theorem Wired.leads_of_leads (hw : s.Wired) (ht : t.Wired) {a : String}
    (hasked : t.asked c = s.asked c) (hrefused : c ∈ t.refused → c ∈ s.refused)
    (h : s.index.dependentLinks.Leads a c) : t.index.dependentLinks.Leads a c := by
  obtain ⟨hnot, hread⟩ := hw.leads_iff.mp h
  exact ht.leads_iff.mpr ⟨mt hrefused hnot, hasked ▸ hread⟩

theorem Intact.leads_restoreRefused (h : s.Intact) {a b : String}
    (hab : s.index.dependentLinks.Leads a b) : s.restoreRefused.index.dependentLinks.Leads a b :=
  h.wired.leads_of_leads h.restoreRefused.wired (asked_restoreRefused s b)
    mem_refused_of_restoreRefused hab

/-- The loop evaluates a cell only if in the end the cell is reached from one that was restored. -/
theorem Intact.get_restoreRefused_of_not_reaches (h : s.Intact)
    (hc : ∀ a ∈ s.refused, a ∉ s.restoreRefused.refused →
      ¬ReflTransGen s.restoreRefused.index.dependentLinks.Leads a c) :
    s.restoreRefused.values.get c = s.values.get c := by
  fun_induction Sheet.restoreRefused s with
  | case1 s => rfl
  | case2 s key keys hrestorable ih =>
    have hmem := mem_refused_of_restorable hrestorable
    have hnext : (s.restore key keys).Intact := h.restore hrestorable
    have hkey := hc key hmem fun hlast ↦
      (mem_refused_of_restore (mem_refused_of_restoreRefused hlast)).1 rfl
    rw [ih hnext fun a ha ↦ hc a (mem_refused_of_restore ha).2, restore_eq]
    refine get_recalculateKey_of_not_reaches (fun hself ↦ hkey (hself ▸ .refl)) fun hreach ↦ hkey ?_
    -- what the cell reaches when it is restored, it reaches in the end
    have hlast : (s.restore key keys).index.dependentLinks.Reaches key c := by
      rw [index_restore]
      exact hreach
    exact (TransGen.mono (fun _ _ ↦ hnext.leads_restoreRefused) _ _ hlast).to_reflTransGen

theorem Intact.get_restoreRefused (h : s.Intact) (hc : ¬s.restoreRefused.Tracked c) :
    s.restoreRefused.values.get c = s.values.get c := by
  refine h.get_restoreRefused_of_not_reaches fun a ha hnot hreach ↦ hc ?_
  rcases hreach.cases_tail with rfl | ⟨b, -, hbc⟩
  · refine ⟨hnot, ?_⟩
    rw [asked_restoreRefused]
    exact (h.wired.asked_of_mem_refused ha).2
  · exact h.restoreRefused.wired.tracked_of_leads hbc

/-! ## Installations -/

theorem Intact.get_install_of_not_wouldCycle (h : s.Intact)
    (he : Expr.Admitted s.options.maxRangeCells e keys)
    (hcheck : s.index.wouldCycle key (wantedBy key keys) = false)
    (hc : c ∈ (s.install key e (wantedBy key keys)).refused) :
    c ∈ s.refused ∧ (s.install key e (wantedBy key keys)).values.get c = s.values.get c := by
  rw [install_of_not_wouldCycle hcheck] at hc ⊢
  have hmem := mem_refused_of_restoreRefused hc
  rw [recalculateKey_eq] at hmem
  obtain ⟨hne, hold⟩ := (mem_erase_key _ _ _).mp hmem
  refine ⟨hold, ?_⟩
  rw [(h.accept he hcheck).get_restoreRefused fun htracked ↦ htracked.1 hc,
    (h.wired.accept he hcheck).get_recalculateKey_of_ne (fun htracked ↦ htracked.1 hmem) hne]
  rfl

theorem Intact.get_install_of_wouldCycle (h : s.Intact)
    (he : Expr.Admitted s.options.maxRangeCells e keys)
    (hcheck : s.index.wouldCycle key (wantedBy key keys) = true)
    (hc : c ∈ (s.install key e (wantedBy key keys)).refused) :
    (c = key ∨ c ∈ s.refused) ∧ (s.install key e (wantedBy key keys)).values.get c
      = if c = key then .fault (.circularReference key) else s.values.get c := by
  rw [install_of_wouldCycle hcheck] at hc ⊢
  have hmem := mem_refused_of_restoreRefused hc
  rw [settleDependents, settleAll_eq] at hmem
  constructor
  · exact ((mem_insert_key _ _ _ _).mp hmem).imp_right fun hold ↦ ((mem_erase_key _ _ _).mp hold).2
  · rw [(h.refuse he hcheck).get_restoreRefused fun htracked ↦ htracked.1 hc,
      (h.wired.refuse he hcheck).get_settleDependents fun htracked ↦ htracked.1 hmem]
    exact get_store s.values key c (.fault (.circularReference key))

/-- **What an installation does to refused cells.** A cell that is refused afterwards has just been
refused and shows its error, or was refused before and has the value that it had. -/
theorem Intact.get_install (h : s.Intact) (he : Expr.Admitted s.options.maxRangeCells e keys)
    (hc : c ∈ (s.install key e (wantedBy key keys)).refused) :
    c = key ∧ (s.install key e (wantedBy key keys)).values.get c
        = .fault (.circularReference c) ∨
      c ∈ s.refused ∧ (s.install key e (wantedBy key keys)).values.get c = s.values.get c := by
  cases hcheck : s.index.wouldCycle key (wantedBy key keys) with
  | false => exact Or.inr (h.get_install_of_not_wouldCycle he hcheck hc)
  | true =>
    obtain ⟨hmem, hvalue⟩ := h.get_install_of_wouldCycle he hcheck hc
    by_cases hkey : c = key
    · subst hkey
      rw [if_pos rfl] at hvalue
      exact Or.inl ⟨rfl, hvalue⟩
    · rw [if_neg hkey] at hvalue
      exact Or.inr ⟨hmem.resolve_left hkey, hvalue⟩

/-- A formula that reads its own cell is evaluated against the values before, and not again. -/
theorem Intact.get_install_of_reads_self (h : s.Intact)
    (he : Expr.Admitted s.options.maxRangeCells e keys) (hself : key ∈ keys) :
    (s.install key e (wantedBy key keys)).values.get key = (s.accept key e ∅).formulaValue key := by
  have hcheck : s.index.wouldCycle key (wantedBy key keys) = false := by
    rw [wantedBy_of_mem hself, DependencyIndex.wouldCycle_empty]
  have hasked : (s.accept key e (wantedBy key keys)).asked key = keys := by
    refine asked_of_admitted ?_
    rwa [Sheet.accept, getElem?_withExpression, if_pos rfl]
  have huntracked : ¬((s.accept key e (wantedBy key keys)).recalculateKey
      key).restoreRefused.Tracked key := by
    intro htracked
    have hread := htracked.2
    rw [asked_restoreRefused, recalculateKey_eq] at hread
    exact hread (hasked.symm ▸ hself)
  rw [install_of_not_wouldCycle hcheck, (h.accept he hcheck).get_restoreRefused huntracked,
    get_recalculateKey_self, wantedBy_of_mem hself]

end Sheet

end FormulaSheet
