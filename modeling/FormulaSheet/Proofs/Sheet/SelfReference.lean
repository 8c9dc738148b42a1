import FormulaSheet.Proofs.Sheet.Names

/-!
# Ranges that cover their own cell

A range that covers the cell of its formula is found out twice. Evaluation reads the name of the
cell and compares column and row with the corners of the range. When the formula is stored the keys
of the range are listed, all of them, and the key of the cell is looked up in the list. Reading and
writing are inverse to each other on the ranges that come from a text, so the two always agree.

## Edges that are dropped

A formula that mentions its own cell is stored without edges. It refers to the cell, of which
evaluation takes no notice, or it has a range that evaluation reports. What has been dropped can be
told from what has been refused, and from a formula that asks for nothing.
-/

namespace FormulaSheet

/-! ## What evaluation reports -/

namespace Context

variable {ctx : Context} {r : Range}

/-- Evaluation reports the range as one that covers the cell. -/
def Reports (ctx : Context) (r : Range) : Prop :=
  (Expr.range r).eval ctx = .error ("Self referencing cell: " ++ ctx.cell)

theorem isCovered_iff :
    ctx.isCovered r = true ↔ ∃ a, Address.parse ctx.cell = .ok a ∧ r.contains a = true := by
  rw [isCovered]
  cases Address.parse ctx.cell with
  | ok a => simp
  | error fault => simp

theorem reports_iff :
    ctx.Reports r ↔ ∃ a, Address.parse ctx.cell = .ok a ∧ r.contains a = true := by
  rw [← isCovered_iff, Reports, Expr.eval, rangeValue]
  by_cases hcovered : ctx.isCovered r = true
  · rw [if_pos hcovered]
    exact iff_of_true rfl hcovered
  · rw [if_neg hcovered]
    exact iff_of_false nofun hcovered

end Context

namespace Expr

open Address (canonicalKey)

variable {limit : UInt64} {e : Expr} {r : Range} {a : Address} {keys : Keys} {text cell : String}

/-! ## What is listed -/

theorem exists_keys_range_iff (h : r.Countable) :
    (∃ keys, (Expr.range r).keys limit = .ok keys) ↔ r.height * r.width ≤ limit.toNat := by
  rw [Expr.keys, addKeys, ← Nat.not_lt, ← h.lt_cellCount_iff]
  by_cases habove : limit < r.cellCount
  · simp [habove]
  · simp [habove]

theorem canonicalKey_mem_keys_range_iff (h : r.Ordered)
    (hread : ∀ a, r.contains a = true → a.col.toNat < Column.limit)
    (hkeys : (Expr.range r).keys limit = .ok keys) :
    canonicalKey cell ∈ keys ↔ ∃ a, Address.parse cell = .ok a ∧ r.contains a = true := by
  have hordered : ∀ q ∈ (Expr.range r).ranges, q.Ordered := by
    rw [ranges, List.forall_mem_singleton]
    exact h
  rw [mem_keys_iff_mentions hordered hkeys]
  constructor
  · rintro ⟨a, hmentions, hkey⟩
    cases hmentions with
    | range hcontains =>
      exact ⟨a, (Address.key_eq_canonicalKey_iff (hread a hcontains)).mp hkey, hcontains⟩
  · rintro ⟨a, hcell, hcontains⟩
    exact ⟨a, .range hcontains, (Address.canonicalKey_of_parse hcell).symm⟩

/-! ## References and ranges -/

/-- The expression refers to the cell at the address. -/
inductive Refers : Expr → Address → Prop where
  /-- A reference refers to its cell. -/
  | cell (a : Address) : Refers (.cell a) a
  /-- A call refers to what its arguments refer to. -/
  | arg {name : String} {args : List Expr} {arg : Expr} {a : Address} (harg : arg ∈ args)
      (h : Refers arg a) : Refers (.call name args) a

theorem Refers.mentions (h : e.Refers a) : e.Mentions a := by
  induction h with
  | cell a => exact .cell a
  | arg harg _ ih => exact .arg harg ih

theorem mentions_of_mem_ranges (ha : r.contains a = true) :
    (e : Expr) → r ∈ e.ranges → e.Mentions a
  | .number _, hr => absurd hr List.not_mem_nil
  | .text _, hr => absurd hr List.not_mem_nil
  | .failure _, hr => absurd hr List.not_mem_nil
  | .cell _, hr => absurd hr List.not_mem_nil
  | .range q, hr => by
    obtain rfl : r = q := List.mem_singleton.mp hr
    exact .range ha
  | .call _ args, hr => by
    obtain ⟨arg, harg, hr⟩ := mem_argRanges.mp hr
    exact .arg harg (mentions_of_mem_ranges ha arg hr)

/-- **What is mentioned** is referred to, or some range contains it. -/
theorem mentions_iff : e.Mentions a ↔ e.Refers a ∨ ∃ r ∈ e.ranges, r.contains a = true := by
  constructor
  · intro h
    induction h with
    | cell a => exact Or.inl (.cell a)
    | range h => exact Or.inr ⟨_, List.mem_singleton_self _, h⟩
    | arg harg _ ih =>
      rcases ih with hrefers | ⟨r, hr, hcontains⟩
      · exact Or.inl (.arg harg hrefers)
      · exact Or.inr ⟨r, mem_argRanges.mpr ⟨_, harg, hr⟩, hcontains⟩
  · rintro (hrefers | ⟨r, hr, hcontains⟩)
    · exact hrefers.mentions
    · exact mentions_of_mem_ranges hcontains e hr

/-- **The two agree.** In the formula of a text, evaluation reports a range when and only when the
key of the cell is among the keys of the range. -/
theorem reports_iff_mem_keys (he : parse text = some e) (hr : r ∈ e.ranges)
    (hkeys : (Expr.range r).keys limit = .ok keys) (ctx : Context) :
    ctx.Reports r ↔ canonicalKey ctx.cell ∈ keys := by
  have hordered : r.Ordered := (countable_of_parse he r hr).ordered
  have hread : ∀ a, r.contains a = true → a.col.toNat < Column.limit := fun a ha ↦
    col_lt_of_parse he a (mentions_of_mem_ranges ha e hr)
  rw [Context.reports_iff, canonicalKey_mem_keys_range_iff hordered hread hkeys]

end Expr

namespace Sheet

open Address (canonicalKey)

variable {s : Sheet} {cell : String} {e : Expr}

/-! ## Edges that are dropped -/

/-- The formula of the cell asks for edges, and the cell has none, although it is not refused. -/
structure Dropped (s : Sheet) (cell : String) : Prop where
  /-- The formula mentions an address. -/
  asks : ∃ e a, s.expression? cell = some e ∧ e.Mentions a
  /-- The cell has no edges. -/
  precedents_eq : s.precedents cell = []
  /-- The cell is not refused. -/
  not_refused : canonicalKey cell ∉ s.refusedCells

theorem precedents_eq_nil_iff :
    s.precedents cell = [] ↔ s.index.precedents (canonicalKey cell) = ∅ := by
  rw [precedents, ← List.isEmpty_iff, Std.ExtTreeSet.isEmpty_toList, Std.ExtTreeSet.isEmpty_iff]

theorem Orderly.dropped_iff_mentions (h : s.Orderly) (he : s.expression? cell = some e) :
    s.Dropped cell ↔ ∃ a, Address.parse cell = .ok a ∧ e.Mentions a := by
  have hw : s.Wired := h.intact.wired
  have hedges := hw.precedents_eq_asked (canonicalKey cell)
  rw [← h.canonicalKey_mem_asked_iff he]
  constructor
  · rintro ⟨⟨e', a, he', ha⟩, hnil, hrefused⟩
    by_contra hself
    rw [mem_refusedCells] at hrefused
    rw [precedents_eq_nil_iff, hedges, if_neg (not_or.mpr ⟨hrefused, hself⟩)] at hnil
    have hmem : a.key ∈ s.asked (canonicalKey cell) := hw.mem_asked_iff.mpr ⟨e', he', a, ha, rfl⟩
    exact Std.ExtTreeSet.not_mem_empty (hnil ▸ hmem)
  · intro hself
    obtain ⟨a, -, ha⟩ := (h.canonicalKey_mem_asked_iff he).mp hself
    refine ⟨⟨e, a, he, ha⟩, ?_, fun hrefused ↦ ?_⟩
    · rw [precedents_eq_nil_iff, hedges, if_pos (Or.inr hself)]
    · exact (hw.asked_of_mem_refused (mem_refusedCells.mp hrefused)).2 hself

/-- **Why edges have been dropped:** the formula refers to the cell, or evaluation reports one of
its ranges. -/
theorem Orderly.dropped_iff (h : s.Orderly) (he : s.expression? cell = some e) :
    s.Dropped cell ↔ (∃ a, Address.parse cell = .ok a ∧ e.Refers a) ∨
      ∃ r ∈ e.ranges, Context.Reports ⟨canonicalKey cell, s.values, s.functions⟩ r := by
  rw [h.dropped_iff_mentions he]
  simp only [Context.reports_iff, Address.parse_canonicalKey_iff, Expr.mentions_iff]
  constructor
  · rintro ⟨a, ha, hrefers | ⟨r, hr, hcontains⟩⟩
    · exact Or.inl ⟨a, ha, hrefers⟩
    · exact Or.inr ⟨r, hr, a, ha, hcontains⟩
  · rintro (⟨a, ha, hrefers⟩ | ⟨r, hr, a, ha, hcontains⟩)
    · exact ⟨a, ha, Or.inl hrefers⟩
    · exact ⟨a, ha, Or.inr ⟨r, hr, hcontains⟩⟩

/-! ## The result -/

/-- **Ranges that cover their own cell** are found out by evaluation and by the list of keys alike,
whatever the name of the cell is. The keys of a range can be listed if it has no more cells than the
limit.

So in a reachable sheet, and after an update of one, the edges of a formula have been dropped when
and only when it refers to its own cell or evaluation reports one of its ranges. -/
theorem run_selfReference (functions : Registry) (options : SheetOptions) (ops : List Operation) :
    let s := (fresh functions options).run ops
    (∀ text e r, Expr.parse text = some e → r ∈ e.ranges → ∀ limit,
      ((∃ keys, (Expr.range r).keys limit = .ok keys) ↔ r.height * r.width ≤ limit.toNat) ∧
      ∀ keys, (Expr.range r).keys limit = .ok keys →
        ∀ ctx : Context, ctx.Reports r ↔ canonicalKey ctx.cell ∈ keys) ∧
    (∀ cell e, s.expression? cell = some e →
      (s.Dropped cell ↔ (∃ a, Address.parse cell = .ok a ∧ e.Refers a) ∨
        ∃ r ∈ e.ranges, Context.Reports ⟨canonicalKey cell, s.values, s.functions⟩ r)) ∧
    (∀ cell text e after, Expr.parse text = some e → s.tryUpdate cell text = .ok after →
      (after.Dropped cell ↔ (∃ a, Address.parse cell = .ok a ∧ e.Refers a) ∨
        ∃ r ∈ e.ranges, Context.Reports ⟨canonicalKey cell, after.values, after.functions⟩ r)) := by
  intro s
  refine ⟨fun text e r he hr limit ↦ ⟨?_, fun keys hkeys ↦ Expr.reports_iff_mem_keys he hr hkeys⟩,
    fun cell e ↦ (orderly_run functions options ops).dropped_iff, fun cell text e after he hok ↦ ?_⟩
  · exact Expr.exists_keys_range_iff (Expr.countable_of_parse he r hr)
  · have hafter : after = (fresh functions options).run (ops ++ [.tryUpdate cell text]) := by
      rw [run_concat, perform, hok]
    have hformula : after.expression? cell = some e :=
      ((expression_of_tryUpdate hok).1 (Or.inl rfl)).trans he
    refine Orderly.dropped_iff ?_ hformula
    rw [hafter]
    exact orderly_run functions options (ops ++ [.tryUpdate cell text])

/-- The upper of two cells is given the range of both, under a name with a zero too many. The right
neighbour could have been. -/
theorem run_selfReference_pair :
    let s := (fresh .empty {}).run []
    ∃ keys after, (Expr.range pair).keys ({} : SheetOptions).maxRangeCells = .ok keys ∧
      s.tryUpdate "A01" "A1:A2" = .ok after ∧
      Context.Reports ⟨"A01", s.values, s.functions⟩ pair ∧ canonicalKey "A01" ∈ keys ∧
      ¬Context.Reports ⟨"B1", s.values, s.functions⟩ pair ∧ canonicalKey "B1" ∉ keys ∧
      after.Dropped "A01" := by
  intro s
  obtain ⟨hagree, -, hdropped⟩ := run_selfReference .empty {} []
  have hmem : pair ∈ (Expr.range pair).ranges := List.mem_singleton_self _
  obtain ⟨hlimit, hkeys⟩ := hagree _ _ _ parse_pair hmem ({} : SheetOptions).maxRangeCells
  obtain ⟨keys, hok⟩ := hlimit.mpr (by decide)
  have hformula : Expr.formulaKeys s.options.maxRangeCells (Expr.parse "A1:A2") = .ok keys := by
    rw [parse_pair]
    exact hok
  have hupdate : s.tryUpdate "A01" "A1:A2" = .ok _ := tryUpdate_of_keys hformula
  have hright : Address.parse "B1" = .ok ⟨1, 1⟩ := by cbv
  have hreport : Context.Reports ⟨"A01", s.values, s.functions⟩ pair :=
    Context.reports_iff.mpr ⟨_, parse_a01, by decide⟩
  have hsilent : ¬Context.Reports ⟨"B1", s.values, s.functions⟩ pair := by
    rw [Context.reports_iff]
    rintro ⟨a, ha, hcontains⟩
    obtain rfl := Except.ok.inj (hright.symm.trans ha)
    exact absurd hcontains (by decide)
  refine ⟨keys, _, hok, hupdate, hreport, (hkeys keys hok _).mp hreport, hsilent,
    fun h ↦ hsilent ((hkeys keys hok _).mpr h), (hdropped _ _ _ _ parse_pair hupdate).mpr ?_⟩
  refine Or.inr ⟨pair, hmem, Context.reports_iff.mpr ⟨⟨0, 1⟩, ?_, by decide⟩⟩
  exact Address.parse_canonicalKey_iff.mpr parse_a01

end Sheet

end FormulaSheet
