import FormulaSheet.Proofs.Sheet.Run

/-!
# Edges and stored formulas

The index, the refused cells and the stored formulas of a sheet are three maps that change at
different moments. What joins them is that a stored formula determines everything: which cells it
reads, whether it asks for edges, and that its edges are in the index unless the cell is refused. A
sheet in which this holds, on an index without circles, is wired.

## One cell at a time

Installing a formula, refusing it and giving a refused cell its edges differ in what they do to the
cell itself and agree in leaving all other cells alone. `Rewired` says the second and `Wired.rewire`
takes the first as hypotheses, so that the argument about circles is made once.
-/

namespace FormulaSheet

namespace Sheet

/-! ## What formulas ask for -/

/-- The cells that the stored formula of a cell reads. -/
def asked (s : Sheet) (key : String) : Keys :=
  match Expr.formulaKeys s.options.maxRangeCells s.expressions[key]? with
  | .ok keys => keys
  | .error _ => ∅

/-- The cells that a cell asks edges for: those that its formula reads, unless it reads its own. -/
def wanted (s : Sheet) (key : String) : Keys := wantedBy key (s.asked key)

variable {s t : Sheet} {key c a : String} {e : Option Expr} {keys edges : Keys}

theorem asked_of_admitted
    (h : Expr.Admitted s.options.maxRangeCells s.expressions[key]? keys) : s.asked key = keys := by
  rw [asked, h.keys_eq]

theorem asked_of_none (h : s.expressions[key]? = none) : s.asked key = ∅ :=
  asked_of_admitted (h ▸ .none)

theorem asked_congr (hoptions : t.options = s.options)
    (hexpressions : t.expressions[c]? = s.expressions[c]?) : t.asked c = s.asked c := by
  rw [asked, asked, hoptions, hexpressions]

theorem wanted_of_not_mem (h : c ∉ s.asked c) : s.wanted c = s.asked c := wantedBy_of_not_mem h

theorem getElem?_withExpression (expressions : Std.ExtTreeMap String Expr) (key c : String)
    (e : Option Expr) :
    (withExpression expressions key e)[c]? = if c = key then e else expressions[c]? := by
  cases e with
  | none => rw [withExpression, getElem?_erase_key]
  | some e => rw [withExpression, getElem?_insert_key]

/-! ## The three changes -/

/-- Stores a formula with its edges. -/
def accept (s : Sheet) (key : String) (e : Option Expr) (edges : Keys) : Sheet :=
  { s with
    expressions := withExpression s.expressions key e
    index := s.index.replace key edges
    refused := s.refused.erase key }

/-- Stores a formula without edges, and what it asked for. -/
def refuse (s : Sheet) (key : String) (e : Option Expr) (keys : Keys) : Sheet :=
  { s with
    expressions := withExpression s.expressions key e
    index := s.index.replace key ∅
    refused := (s.refused.erase key).insert key keys
    values := s.values.insert key (.fault (.circularReference key)) }

/-- Gives a refused cell its edges. -/
def connect (s : Sheet) (key : String) (edges : Keys) : Sheet :=
  { s with
    refused := s.refused.erase key
    index := s.index.replace key edges }

theorem install_of_wouldCycle (h : s.index.wouldCycle key keys = true) :
    s.install key e keys = ((s.refuse key e keys).settleDependents key).restoreRefused := by
  rw [install, if_pos h]
  rfl

theorem install_of_not_wouldCycle (h : s.index.wouldCycle key keys = false) :
    s.install key e keys = ((s.accept key e keys).recalculateKey key).restoreRefused := by
  rw [install, if_neg (Bool.eq_false_iff.mp h)]
  rfl

theorem restore_eq (s : Sheet) (key : String) (keys : Keys) :
    s.restore key keys = (s.connect key keys).recalculateKey key := rfl

/-- The second sheet is the first with other edges for one cell, and all other cells as they
were. -/
structure Rewired (s t : Sheet) (key : String) (edges : Keys) : Prop where
  /-- The options are the same. -/
  options_eq : t.options = s.options
  /-- The functions are the same. -/
  functions_eq : t.functions = s.functions
  /-- The edges of the cell are replaced. -/
  index_eq : t.index = s.index.replace key edges
  /-- The other formulas are the same. -/
  expressions_eq : ∀ c, c ≠ key → t.expressions[c]? = s.expressions[c]?
  /-- The other cells are refused as before. -/
  refused_eq : ∀ c, c ≠ key → t.refused[c]? = s.refused[c]?

theorem accept_rewired (s : Sheet) (key : String) (e : Option Expr) (edges : Keys) :
    Rewired s (s.accept key e edges) key edges where
  options_eq := rfl
  functions_eq := rfl
  index_eq := rfl
  expressions_eq c hc := by rw [accept, getElem?_withExpression, if_neg hc]
  refused_eq c hc := by rw [accept, getElem?_erase_key, if_neg hc]

theorem refuse_rewired (s : Sheet) (key : String) (e : Option Expr) (keys : Keys) :
    Rewired s (s.refuse key e keys) key ∅ where
  options_eq := rfl
  functions_eq := rfl
  index_eq := rfl
  expressions_eq c hc := by rw [refuse, getElem?_withExpression, if_neg hc]
  refused_eq c hc := by
    rw [refuse, getElem?_insert_key, if_neg hc, getElem?_erase_key, if_neg hc]

theorem connect_rewired (s : Sheet) (key : String) (edges : Keys) :
    Rewired s (s.connect key edges) key edges where
  options_eq := rfl
  functions_eq := rfl
  index_eq := rfl
  expressions_eq _ _ := rfl
  refused_eq c hc := by rw [connect, getElem?_erase_key, if_neg hc]

theorem Rewired.asked_eq (h : Rewired s t key edges) (hc : c ≠ key) : t.asked c = s.asked c :=
  asked_congr h.options_eq (h.expressions_eq c hc)

theorem Rewired.wanted_eq (h : Rewired s t key edges) (hc : c ≠ key) :
    t.wanted c = s.wanted c := by
  rw [wanted, wanted, h.asked_eq hc]

theorem Rewired.mem_refused_iff (h : Rewired s t key edges) (hc : c ≠ key) :
    c ∈ t.refused ↔ c ∈ s.refused := by
  rw [Std.ExtTreeMap.mem_iff_isSome_getElem?, Std.ExtTreeMap.mem_iff_isSome_getElem?,
    h.refused_eq c hc]

/-! ## Wired sheets -/

/-- The index and the refused cells are what the stored formulas call for. -/
structure Wired (s : Sheet) : Prop where
  /-- The keys of every stored formula can be listed. -/
  admitted : ∀ c, Expr.Admitted s.options.maxRangeCells s.expressions[c]? (s.asked c)
  /-- Both halves of the index agree. -/
  consistent : s.index.Consistent
  /-- No cell depends on itself. -/
  acyclic : s.index.Acyclic
  /-- What is remembered of a refused cell is what it asks for, and it asks for something. -/
  refused_eq : ∀ c keys, s.refused[c]? = some keys → keys = s.wanted c ∧ keys ≠ ∅
  /-- A cell has the edges it asks for, unless it is refused. -/
  precedents_eq : ∀ c, s.index.precedents c = if c ∈ s.refused then ∅ else s.wanted c

theorem wired_fresh (functions : Registry) (options : SheetOptions) :
    (fresh functions options).Wired where
  admitted c := by
    have hnone : (fresh functions options).expressions[c]? = none := Std.ExtTreeMap.getElem?_empty
    rw [asked_of_none hnone, hnone]
    exact .none
  consistent := .empty
  acyclic := .empty
  refused_eq c keys h := by
    rw [show (fresh functions options).refused[c]? = none from Std.ExtTreeMap.getElem?_empty] at h
    cases h
  precedents_eq c := by
    rw [wanted, asked_of_none Std.ExtTreeMap.getElem?_empty,
      wantedBy_of_not_mem Std.ExtTreeSet.not_mem_empty, ite_self]
    exact Links.next_of_none Std.ExtTreeMap.getElem?_empty

theorem Wired.withValues (h : s.Wired) (values : Values) : Wired { s with values := values } where
  admitted := h.admitted
  consistent := h.consistent
  acyclic := h.acyclic
  refused_eq := h.refused_eq
  precedents_eq := h.precedents_eq

theorem Wired.settleAll (h : s.Wired) (keys : List String) : (s.settleAll keys).Wired := by
  rw [settleAll_eq]
  exact h.withValues _

/-- **Rewiring.** A wired sheet stays wired when one cell is given the edges that it asks for and
they close no circle, or is refused and has none. -/
theorem Wired.rewire (h : s.Wired) (hr : Rewired s t key edges)
    (hcheck : s.index.wouldCycle key edges = false)
    (hadmitted : Expr.Admitted s.options.maxRangeCells t.expressions[key]? keys)
    (hrefused : ∀ keys', t.refused[key]? = some keys' → keys' = wantedBy key keys ∧ keys' ≠ ∅)
    (hedges : edges = if key ∈ t.refused then ∅ else wantedBy key keys) : t.Wired := by
  rw [← hr.options_eq] at hadmitted
  have hasked : t.asked key = keys := asked_of_admitted hadmitted
  have hwanted : t.wanted key = wantedBy key keys := by rw [wanted, hasked]
  refine ⟨fun c ↦ ?_, ?_, ?_, fun c keys' hkeys' ↦ ?_, fun c ↦ ?_⟩
  · by_cases hc : c = key
    · rw [hc, hasked]
      exact hadmitted
    · rw [hr.asked_eq hc, hr.options_eq, hr.expressions_eq c hc]
      exact h.admitted c
  · rw [hr.index_eq]
    exact h.consistent.replace key edges
  · rw [hr.index_eq]
    exact h.acyclic.replace h.consistent hcheck
  · by_cases hc : c = key
    · rw [hc, hwanted]
      exact hrefused keys' (hc ▸ hkeys')
    · rw [hr.wanted_eq hc]
      exact h.refused_eq c keys' (hr.refused_eq c hc ▸ hkeys')
  · rw [hr.index_eq, DependencyIndex.precedents_replace]
    by_cases hc : c = key
    · rw [if_pos hc, hc, hwanted, hedges]
    · rw [if_neg hc, h.precedents_eq c, hr.wanted_eq hc]
      simp only [hr.mem_refused_iff hc]

theorem Wired.accept (h : s.Wired) (he : Expr.Admitted s.options.maxRangeCells e keys)
    (hcheck : s.index.wouldCycle key (wantedBy key keys) = false) :
    (s.accept key e (wantedBy key keys)).Wired := by
  have hnone : (s.accept key e (wantedBy key keys)).refused[key]? = none :=
    Std.ExtTreeMap.getElem?_erase_self
  have hadmitted : Expr.Admitted s.options.maxRangeCells
      (s.accept key e (wantedBy key keys)).expressions[key]? keys := by
    rwa [Sheet.accept, getElem?_withExpression, if_pos rfl]
  refine h.rewire (accept_rewired s key e _) hcheck hadmitted (fun keys' hkeys' ↦ ?_) ?_
  · rw [hnone] at hkeys'
    cases hkeys'
  · rw [if_neg fun hmem ↦ by simp [Std.ExtTreeMap.mem_iff_isSome_getElem?, hnone] at hmem]

theorem Wired.refuse (h : s.Wired) (he : Expr.Admitted s.options.maxRangeCells e keys)
    (hcheck : s.index.wouldCycle key (wantedBy key keys) = true) :
    (s.refuse key e (wantedBy key keys)).Wired := by
  have hsome : (s.refuse key e (wantedBy key keys)).refused[key]? = some (wantedBy key keys) :=
    Std.ExtTreeMap.getElem?_insert_self
  have hadmitted : Expr.Admitted s.options.maxRangeCells
      (s.refuse key e (wantedBy key keys)).expressions[key]? keys := by
    rwa [Sheet.refuse, getElem?_withExpression, if_pos rfl]
  refine h.rewire (refuse_rewired s key e _) (DependencyIndex.wouldCycle_empty _ _) hadmitted
    (fun keys' hkeys' ↦ ?_) ?_
  · rw [hsome] at hkeys'
    -- nothing asked for closes no circle, so a refused cell asks for something
    refine ⟨(Option.some.inj hkeys').symm, fun hempty ↦ ?_⟩
    rw [Option.some.inj hkeys', hempty, DependencyIndex.wouldCycle_empty] at hcheck
    cases hcheck
  · rw [if_pos (by simp [Std.ExtTreeMap.mem_iff_isSome_getElem?, hsome])]

theorem Wired.connect (h : s.Wired) (hsome : s.refused[key]? = some edges)
    (hcheck : s.index.wouldCycle key edges = false) : (s.connect key edges).Wired := by
  have hnone : (s.connect key edges).refused[key]? = none := Std.ExtTreeMap.getElem?_erase_self
  refine h.rewire (connect_rewired s key edges) hcheck (h.admitted key) (fun keys' hkeys' ↦ ?_) ?_
  · rw [hnone] at hkeys'
    cases hkeys'
  · rw [if_neg fun hmem ↦ by simp [Std.ExtTreeMap.mem_iff_isSome_getElem?, hnone] at hmem]
    exact (h.refused_eq key edges hsome).1

/-! ## Edges of a wired sheet -/

theorem Wired.precedents_eq_asked (h : s.Wired) (c : String) :
    s.index.precedents c = if c ∈ s.refused ∨ c ∈ s.asked c then ∅ else s.asked c := by
  rw [h.precedents_eq]
  by_cases hrefused : c ∈ s.refused
  · rw [if_pos hrefused, if_pos (Or.inl hrefused)]
  · by_cases hself : c ∈ s.asked c
    · rw [if_neg hrefused, if_pos (Or.inr hself), wanted, wantedBy_of_mem hself]
    · rw [if_neg hrefused, if_neg (not_or.mpr ⟨hrefused, hself⟩), wanted_of_not_mem hself]

theorem Wired.asked_of_refused (h : s.Wired) (hc : s.refused[c]? = some keys) :
    s.asked c = keys ∧ keys ≠ ∅ ∧ c ∉ keys := by
  obtain ⟨heq, hne⟩ := h.refused_eq c keys hc
  have hself : c ∉ s.asked c := by
    intro hmem
    rw [wanted, wantedBy_of_mem hmem] at heq
    exact hne heq
  rw [wanted_of_not_mem hself] at heq
  exact ⟨heq.symm, hne, heq ▸ hself⟩

theorem Wired.asked_of_mem_refused (h : s.Wired) (hc : c ∈ s.refused) :
    s.asked c ≠ ∅ ∧ c ∉ s.asked c := by
  obtain ⟨hasked, hne, hself⟩ := h.asked_of_refused (Std.ExtTreeMap.getElem?_eq_some_getElem hc)
  exact ⟨hasked.symm ▸ hne, hasked.symm ▸ hself⟩

theorem mem_expressions_of_mem_asked (ha : a ∈ s.asked c) : c ∈ s.expressions := by
  by_contra hnot
  rw [asked_of_none (Std.ExtTreeMap.getElem?_eq_none hnot)] at ha
  exact Std.ExtTreeSet.not_mem_empty ha

theorem Wired.mem_expressions_of_refused (h : s.Wired) (hc : c ∈ s.refused) :
    c ∈ s.expressions := by
  by_contra hnot
  exact (h.asked_of_mem_refused hc).1 (asked_of_none (Std.ExtTreeMap.getElem?_eq_none hnot))

theorem Wired.mem_precedents_iff (h : s.Wired) :
    a ∈ s.index.precedents c ↔ c ∉ s.refused ∧ c ∉ s.asked c ∧ a ∈ s.asked c := by
  rw [h.precedents_eq_asked, ← and_assoc, ← not_or]
  by_cases hc : c ∈ s.refused ∨ c ∈ s.asked c
  · rw [if_pos hc]
    exact ⟨fun ha ↦ absurd ha Std.ExtTreeSet.not_mem_empty, fun ha ↦ absurd hc ha.1⟩
  · rw [if_neg hc]
    exact ⟨fun ha ↦ ⟨hc, ha⟩, And.right⟩

theorem Wired.leads_iff (h : s.Wired) :
    s.index.dependentLinks.Leads a c ↔ c ∉ s.refused ∧ c ∉ s.asked c ∧ a ∈ s.asked c :=
  (h.consistent.mem_dependents_iff a c).trans h.mem_precedents_iff

end Sheet

end FormulaSheet
