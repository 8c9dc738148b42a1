import FormulaSheet.Proofs.Sheet.Shown

/-!
# What an update leaves alone

An update writes one formula, and that may be the least of it: refused cells that no longer close a
circle are released, and with each of them an evaluation starts. `Released` and `Touched` tell which
cells are concerned from the two ends of the update, without the loop between them.

## Edges

Before and after the edges are those that the formulas call for. So a cell whose formula stays has
other edges afterwards only if it has been released, and then it has those that were remembered.

The cell of the update is refused when it could reach what it asks for before. Such a chain does not
come back to the cell, so all its links are there when the loop has ended, and with the edges of the
cell they would make a circle.

## Values

Each evaluation runs along an index of its own. But after the edges of the cell have been replaced
edges are only added, so whatever is reached on the way is reached in the end.

## An example

Of the two cells that would read each other the first is cleared, and the second is released.
-/

namespace FormulaSheet

namespace Sheet

open Relation

variable {s t : Sheet} {key c d : String} {e : Option Expr} {keys : Keys}

/-! ## Two ends of an update -/

/-- The cell, which is not `key`, is refused in the first sheet and not in the second. -/
def Released (s t : Sheet) (key c : String) : Prop := c ≠ key ∧ c ∈ s.refused ∧ c ∉ t.refused

/-- The cell is `key` or one that has been released, or it depends on such a cell in the second
sheet, directly or through others. -/
def Touched (s t : Sheet) (key c : String) : Prop :=
  ∃ a, (a = key ∨ Released s t key a) ∧ ReflTransGen t.index.dependentLinks.Leads a c

theorem touched_of_leads (h : ReflTransGen t.index.dependentLinks.Leads key c) :
    Touched s t key c :=
  ⟨key, Or.inl rfl, h⟩

theorem Wired.precedents_congr (hs : s.Wired) (ht : t.Wired) (hasked : t.asked c = s.asked c)
    (hrefused : c ∈ t.refused ↔ c ∈ s.refused) : t.index.precedents c = s.index.precedents c := by
  rw [hs.precedents_eq, ht.precedents_eq, wanted, wanted, hasked]
  simp only [hrefused]

theorem Wired.getElem?_refused_eq (hs : s.Wired) (ht : t.Wired) (hasked : t.asked c = s.asked c)
    (hc : c ∈ s.refused) (hnot : c ∉ t.refused) :
    s.refused[c]? = some (t.index.precedents c) := by
  have hsome := Std.ExtTreeMap.getElem?_eq_some_getElem hc
  rw [ht.precedents_eq, if_neg hnot, wanted, hasked, ← wanted, ← (hs.refused_eq c _ hsome).1]
  exact hsome

/-! ## Formulas after an installation -/

theorem getElem?_expressions_install (s : Sheet) (key : String) (e : Option Expr) (wanted : Keys)
    (c : String) :
    (s.install key e wanted).expressions[c]? = if c = key then e else s.expressions[c]? := by
  obtain ⟨values, index, refused, heq⟩ := install_eq s key e wanted
  rw [heq]
  exact getElem?_withExpression s.expressions key c e

theorem options_install (s : Sheet) (key : String) (e : Option Expr) (wanted : Keys) :
    (s.install key e wanted).options = s.options := by
  obtain ⟨values, index, refused, heq⟩ := install_eq s key e wanted
  rw [heq]

theorem asked_install_of_ne (wanted : Keys) (hne : c ≠ key) :
    (s.install key e wanted).asked c = s.asked c := by
  refine asked_congr (options_install s key e wanted) ?_
  rw [getElem?_expressions_install, if_neg hne]

theorem asked_install_self (wanted : Keys) (he : Expr.Admitted s.options.maxRangeCells e keys) :
    (s.install key e wanted).asked key = keys := by
  refine asked_of_admitted ?_
  rwa [options_install, getElem?_expressions_install, if_pos rfl]

/-! ## Refusals and edges after an installation -/

theorem mem_wantedBy : d ∈ wantedBy key keys ↔ key ∉ keys ∧ d ∈ keys := by
  by_cases hself : key ∈ keys
  · rw [wantedBy_of_mem hself]
    exact iff_of_false Std.ExtTreeSet.not_mem_empty fun h ↦ h.1 hself
  · rw [wantedBy_of_not_mem hself, and_iff_right hself]

theorem wouldCycle_wantedBy_iff :
    s.index.wouldCycle key (wantedBy key keys) = true ↔
      key ∉ keys ∧ ∃ d ∈ keys, s.index.dependentLinks.Reaches key d := by
  rw [DependencyIndex.wouldCycle_iff]
  simp only [mem_wantedBy, and_assoc, exists_and_left]
  exact or_iff_right fun h ↦ h.1 h.2

theorem Intact.mem_refused_of_install (h : s.Intact)
    (he : Expr.Admitted s.options.maxRangeCells e keys)
    (hc : c ∈ (s.install key e (wantedBy key keys)).refused) : c = key ∨ c ∈ s.refused :=
  (h.get_install he hc).imp And.left And.left

theorem Intact.leads_install (h : s.Intact) (he : Expr.Admitted s.options.maxRangeCells e keys)
    (hne : c ≠ key) (hdc : s.index.dependentLinks.Leads d c) :
    (s.install key e (wantedBy key keys)).index.dependentLinks.Leads d c :=
  h.wired.leads_of_leads (h.install key he).wired (asked_install_of_ne _ hne)
    (fun hc ↦ (h.mem_refused_of_install he hc).resolve_left hne) hdc

/-- **Who is refused.** The cell is refused when the check before the installation says so, and the
loop does not release it. -/
theorem Intact.mem_refused_install_iff (h : s.Intact)
    (he : Expr.Admitted s.options.maxRangeCells e keys) :
    key ∈ (s.install key e (wantedBy key keys)).refused ↔
      s.index.wouldCycle key (wantedBy key keys) = true := by
  have ht : (s.install key e (wantedBy key keys)).Wired := (h.install key he).wired
  constructor
  · intro hmem
    by_contra hcheck
    rw [Bool.not_eq_true] at hcheck
    rw [install_of_not_wouldCycle hcheck] at hmem
    have haccept := mem_refused_of_restoreRefused hmem
    rw [recalculateKey_eq] at haccept
    exact ((mem_erase_key _ _ _).mp haccept).1 rfl
  · intro hcheck
    obtain ⟨hself, d, hd, hreach⟩ := wouldCycle_wantedBy_iff.mp hcheck
    by_contra hnot
    have hkeys : (s.install key e (wantedBy key keys)).asked key = keys := asked_install_self _ he
    have hlast : (s.install key e (wantedBy key keys)).index.dependentLinks.Leads d key :=
      ht.leads_iff.mpr ⟨hnot, hkeys.symm ▸ hself, hkeys.symm ▸ hd⟩
    -- the chain from the cell to `d` does not come back, so the update leaves its links alone
    have hchain : (s.install key e (wantedBy key keys)).index.dependentLinks.Reaches key d := by
      refine transGen_of_avoids (c := key) (fun _ _ hne ↦ h.leads_install he hne) ?_ hreach
      rintro y hy rfl
      exact h.wired.acyclic y hy
    exact ht.acyclic key (hchain.tail hlast)

/-- A cell whose formula stays keeps its edges, unless it is released. -/
theorem Intact.precedents_install (h : s.Intact)
    (he : Expr.Admitted s.options.maxRangeCells e keys) (hne : c ≠ key)
    (hc : ¬Released s (s.install key e (wantedBy key keys)) key c) :
    (s.install key e (wantedBy key keys)).index.precedents c = s.index.precedents c := by
  refine h.wired.precedents_congr (h.install key he).wired (asked_install_of_ne _ hne)
    ⟨fun hmem ↦ (h.mem_refused_of_install he hmem).resolve_left hne, fun hmem ↦ ?_⟩
  by_contra hnot
  exact hc ⟨hne, hmem, hnot⟩

/-! ## Values after an installation -/

/-- Before the loop that restores refused cells, only the cell and what it reaches has been
evaluated. -/
theorem Intact.exists_restoreRefused_eq (h : s.Intact) (key : String)
    (he : Expr.Admitted s.options.maxRangeCells e keys) :
    ∃ u : Sheet, u.Intact ∧ s.install key e (wantedBy key keys) = u.restoreRefused ∧
      (∀ a ∈ u.refused, a = key ∨ a ∈ s.refused) ∧
      ∀ c, ¬ReflTransGen u.index.dependentLinks.Leads key c →
        u.values.get c = s.values.get c := by
  cases hcheck : s.index.wouldCycle key (wantedBy key keys) with
  | false =>
    refine ⟨_, h.accept he hcheck, install_of_not_wouldCycle hcheck, fun a ha ↦ ?_, fun c hc ↦ ?_⟩
    · rw [recalculateKey_eq] at ha
      exact Or.inr ((mem_erase_key _ _ _).mp ha).2
    · rw [recalculateKey_eq_settleAll, index_settleAll] at hc
      refine get_recalculateKey_of_not_reaches ?_ fun hreach ↦ hc hreach.to_reflTransGen
      rintro rfl
      exact hc .refl
  | true =>
    refine ⟨_, h.refuse he hcheck, install_of_wouldCycle hcheck, fun a ha ↦ ?_, fun c hc ↦ ?_⟩
    · rw [settleDependents, settleAll_eq] at ha
      exact ((mem_insert_key _ _ _ _).mp ha).imp_right fun hold ↦ ((mem_erase_key _ _ _).mp hold).2
    -- the error is filed for the cell alone, and the rest is an evaluation of its dependents
    · rw [settleDependents, index_settleAll] at hc
      refine (get_settleDependents_of_not_reaches fun hreach ↦ hc hreach.to_reflTransGen).trans ?_
      refine (get_store s.values key c (.fault (.circularReference key))).trans (if_neg ?_)
      rintro rfl
      exact hc .refl

/-- **What is not touched** has the value that it had. -/
theorem Intact.get_install_of_not_touched (h : s.Intact)
    (he : Expr.Admitted s.options.maxRangeCells e keys)
    (hc : ¬Touched s (s.install key e (wantedBy key keys)) key c) :
    (s.install key e (wantedBy key keys)).values.get c = s.values.get c := by
  obtain ⟨u, hu, heq, hrefused, hvalues⟩ := h.exists_restoreRefused_eq key he
  rw [heq] at hc ⊢
  have hrestored : u.restoreRefused.values.get c = u.values.get c := by
    refine hu.get_restoreRefused_of_not_reaches fun a ha hnot hreach ↦ hc ⟨a, ?_, hreach⟩
    by_cases hkey : a = key
    · exact Or.inl hkey
    · exact Or.inr ⟨hkey, (hrefused a ha).resolve_left hkey, hnot⟩
  rw [hrestored]
  refine hvalues c fun hreach ↦ hc (touched_of_leads ?_)
  exact ReflTransGen.mono (fun _ _ ↦ hu.leads_restoreRefused) _ _ hreach

/-! ## The example -/

private theorem tryUpdate_circle_eq (functions : Registry) (options : SheetOptions) :
    ((fresh functions options).run circle).tryUpdate "A1" ""
      = .ok (((fresh functions options).run circle).install "A1" none ∅) := by
  have hkeys : Expr.formulaKeys ((fresh functions options).run circle).options.maxRangeCells
      (Expr.parse "") = .ok ∅ := by
    rw [parse_empty, Expr.formulaKeys]
  rw [tryUpdate_of_keys hkeys, canonicalKey_a1, parse_empty, ite_self]

private theorem mem_asked_install_circle {functions : Registry} {options : SheetOptions}
    {a b : String} :
    b ∈ (((fresh functions options).run circle).install "A1" none ∅).asked a ↔
      a = "B1" ∧ b = "A1" := by
  by_cases ha : a = "A1"
  · subst ha
    rw [asked_install_self ∅ .none]
    exact iff_of_false Std.ExtTreeSet.not_mem_empty fun h ↦ absurd h.1 (by decide)
  · rw [asked_install_of_ne ∅ ha, mem_asked_circle]
    exact or_iff_right fun h ↦ ha h.1

private theorem wired_install_circle (functions : Registry) (options : SheetOptions) :
    (((fresh functions options).run circle).install "A1" none ∅).Wired := by
  have hwired := ((intact_run functions options circle).install "A1" .none).wired
  rwa [wantedBy_of_not_mem Std.ExtTreeSet.not_mem_empty] at hwired

private theorem refusedCells_install_circle (functions : Registry) (options : SheetOptions) :
    (((fresh functions options).run circle).install "A1" none ∅).refusedCells = [] := by
  have hw := wired_install_circle functions options
  rw [refusedCells_eq_nil_iff, (exact_install _ "A1" none ∅).refused_eq_empty_iff hw]
  exact not_circle_of_one_link (by decide) fun a b hab ↦ mem_asked_install_circle.mp hab.2

/-! ## Updates -/

/-- **An update touches only what it must.** After an update of a reachable sheet only cells that
were refused before, and the cell itself, are refused; the cell is when and only when it could reach
one of those that its formula reads, and the formula does not read the cell. Only its formula is
replaced. The other cells have their edges, unless they have been released, and then they have the
edges that were remembered. What is not touched has its value. -/
theorem run_tryUpdate_frame (functions : Registry) (options : SheetOptions) (ops : List Operation)
    (cell text : String) (after : Sheet) :
    let s := (fresh functions options).run ops
    let key := Address.canonicalKey cell
    s.tryUpdate cell text = .ok after →
    (∀ c ∈ after.refusedCells, c ∈ s.refusedCells ∨ c = key) ∧
    (∃ keys, Expr.formulaKeys options.maxRangeCells (Expr.parse text) = .ok keys ∧
      (key ∈ after.refusedCells ↔
        key ∉ keys ∧ ∃ d ∈ keys, TransGen (fun a b ↦ b ∈ s.index.dependents a) key d)) ∧
    (∀ c, after.expressions[c]? = if c = key then Expr.parse text else s.expressions[c]?) ∧
    (∀ c, c ≠ key → ¬Released s after key c →
      after.index.precedents c = s.index.precedents c) ∧
    (∀ c, Released s after key c → s.refused[c]? = some (after.index.precedents c)) ∧
    (∀ c, ¬Touched s after key c → after.values.get c = s.values.get c) := by
  intro s key hok
  have h : s.Intact := intact_run functions options ops
  have hoptions : s.options = options := options_run functions options ops
  obtain ⟨keys, he, rfl⟩ := tryUpdate_eq_install hok
  refine ⟨fun c hc ↦ ?_, ⟨keys, hoptions ▸ he.keys_eq, ?_⟩,
    getElem?_expressions_install s key (Expr.parse text) _, fun c ↦ h.precedents_install he,
    fun c hc ↦ ?_, fun c ↦ h.get_install_of_not_touched he⟩
  · rw [mem_refusedCells] at hc ⊢
    exact (h.mem_refused_of_install he hc).symm
  · rw [mem_refusedCells, h.mem_refused_install_iff he, wouldCycle_wantedBy_iff]
    rfl
  · obtain ⟨hne, hold, hnot⟩ := hc
    exact h.wired.getElem?_refused_eq (h.install key he).wired (asked_install_of_ne _ hne) hold hnot

/-- In the example no cell is refused afterwards. The second cell has been released, and has the
edge that was remembered and the formula that it had; the value of no third cell has changed. -/
theorem tryUpdate_circle :
    let s := (fresh .empty {}).run circle
    ∃ after, s.tryUpdate "A1" "" = .ok after ∧ s.refusedCells = ["B1"] ∧
      after.refusedCells = [] ∧ s.refused["B1"]? = some (after.index.precedents "B1") ∧
      after.index.precedents "B1" = {"A1"} ∧ after.expression? "B1" = s.expression? "B1" ∧
      ∀ c, c ≠ "A1" → c ≠ "B1" → after.values.get c = s.values.get c := by
  intro s
  have hok : s.tryUpdate "A1" "" = .ok (s.install "A1" none ∅) := tryUpdate_circle_eq .empty {}
  have hbefore : s.refusedCells = ["B1"] := refusedCells_circle .empty {}
  have hafter : (s.install "A1" none ∅).refusedCells = [] := refusedCells_install_circle .empty {}
  have hrefused : ∀ c, c ∈ s.refused ↔ c = "B1" := fun c ↦ by
    rw [← mem_refusedCells, hbefore, List.mem_singleton]
  obtain ⟨-, -, hexpressions, -, hreleased, hvalues⟩ :=
    run_tryUpdate_frame .empty {} circle "A1" "" _ hok
  rw [canonicalKey_a1] at hexpressions hreleased hvalues
  have hremembered := hreleased "B1" ⟨by decide, (hrefused "B1").mpr rfl, fun hmem ↦ by
    simp [← mem_refusedCells, hafter] at hmem⟩
  have hwired : s.Wired := (intact_run .empty {} circle).wired
  refine ⟨_, hok, hbefore, hafter, hremembered, ?_, ?_, fun c hca hcb ↦ hvalues c ?_⟩
  · refine Std.ExtTreeSet.ext_mem fun b ↦ ?_
    rw [← (hwired.asked_of_refused hremembered).1, mem_asked_circle, Keys.mem_singleton]
    simp
  · rw [expression?, expression?, canonicalKey_b1]
    exact (hexpressions "B1").trans (if_neg (by decide))
  · rintro ⟨a, ha, hreach⟩
    rcases hreach.cases_tail with rfl | ⟨b, -, hbc⟩
    · exact ha.elim hca fun hreleased ↦ hcb ((hrefused _).mp hreleased.2.1)
    · have hread := ((wired_install_circle .empty {}).leads_iff.mp hbc).2.2
      exact hcb (mem_asked_install_circle.mp hread).1

end Sheet

end FormulaSheet
