import FormulaSheet.Proofs.Formula.Errors
import FormulaSheet.Proofs.Sheet.Shown

/-!
# How errors spread

The error of a refused cell spreads to the cells that depend on it as any error does, through
references, ranges and nested calls. Two questions about this have answers that hold after every
run with the functions that are always there.

* *Does it get everywhere?* It does: no cell downstream of a refused one has anything but an error.
  This goes on when a refused cell has been asked for and shows something else. It reads a cell that
  depends on it, so what it shows then is an error again.
* *Is it ever left behind?* An error that names a circle was read from a cell, that cell had read it
  from another, and this ends, for the index has no circle. Where it ends is the refused cell, or a
  cell that reads itself. The latter has no edges and is evaluated once, against the value that it
  had before, so it can keep the error of a circle that is gone.

The second answer is for runs in which no cell is asked for.
-/

namespace FormulaSheet

namespace Sheet

open Relation

variable {s : Sheet} {a c : String} {keys : Keys}

/-! ## Errors get everywhere -/

theorem isError_formulaValue (hstrict : s.functions.Strict)
    (hadmitted : Expr.Admitted s.options.maxRangeCells s.expressions[c]? keys) (ha : a ∈ keys)
    (herror : (s.values.get a).isError = true) : (s.formulaValue c).isError = true := by
  obtain ⟨e, hformula, b, hb, rfl⟩ := hadmitted.mem_iff.mp ha
  obtain ⟨v, hv, hverror⟩ : ∃ v ∈ (e.eval ⟨c, s.values, s.functions⟩).leaves, v.isError = true :=
    Expr.exists_error_of_address hstrict herror e hb
  cases harray : (e.eval ⟨c, s.values, s.functions⟩).isArray with
  | true =>
    rw [formulaValue_of_isArray hformula harray]
    rfl
  | false =>
    rw [Value.leaves_of_not_isArray harray, List.mem_singleton] at hv
    rwa [formulaValue_of_not_isArray hformula harray, ← hv]

theorem Intact.isError_of_reaches (h : s.Intact) (hstrict : s.functions.Strict)
    (herror : (s.values.get a).isError = true) (hac : s.index.dependentLinks.Reaches a c) :
    (s.values.get c).isError = true := by
  have hstep : ∀ {b d : String}, (s.values.get b).isError = true →
      s.index.dependentLinks.Leads b d → (s.values.get d).isError = true := by
    intro b d hb hbd
    obtain ⟨hrefused, hself, hread⟩ := h.wired.leads_iff.mp hbd
    rw [h.current d ⟨hrefused, hself⟩]
    exact isError_formulaValue hstrict (h.wired.admitted d) hread hb
  induction hac with
  | single hac => exact hstep herror hac
  | tail _ hbc ih => exact hstep ih hbc

/-- A refused cell reads a cell that depends on it. If it has an error then so has that one, and the
formula of the refused cell comes to an error. -/
theorem Intact.isError_formulaValue_of_refused (h : s.Intact) (he : s.Exact)
    (hstrict : s.functions.Strict) (hc : c ∈ s.refused)
    (herror : (s.values.get c).isError = true) : (s.formulaValue c).isError = true := by
  obtain ⟨d, hd, hreach⟩ := he.reaches_asked h.wired hc
  exact isError_formulaValue hstrict (h.wired.admitted c) hd
    (h.isError_of_reaches hstrict herror hreach)

theorem isError_of_mem_refused {functions : Registry} (hstrict : functions.Strict)
    {options : SheetOptions} {ops : List Operation}
    (hc : c ∈ ((fresh functions options).run ops).refused) :
    (((fresh functions options).run ops).values.get c).isError = true := by
  induction ops using List.reverseRecOn with
  | nil => exact absurd hc Std.ExtTreeMap.not_mem_empty
  | append_singleton ops op ih =>
    have h := intact_run functions options ops
    rw [run_concat] at hc ⊢
    rcases h.get_perform op hc with herror | ⟨hold, ⟨-, hasked⟩ | ⟨-, hkept⟩⟩
    · rw [herror]
      rfl
    · rw [hasked]
      rw [← functions_run functions options ops] at hstrict
      exact h.isError_formulaValue_of_refused (exact_run functions options ops) hstrict hold
        (ih hold)
    · rw [hkept]
      exact ih hold

/-- **Errors are not swallowed.** After every run with the functions that are always there, refused
cells have errors, and so have all that depend on one. -/
theorem run_isError_of_refused (options : SheetOptions) (ops : List Operation) (c : String) :
    let s := (fresh .builtin options).run ops
    (c ∈ s.refusedCells ∨
      ∃ r ∈ s.refusedCells, TransGen (fun a b ↦ b ∈ s.index.dependents a) r c) →
    (s.values.get c).isError = true := by
  intro s hc
  have h : s.Intact := intact_run .builtin options ops
  have hstrict : s.functions.Strict :=
    (functions_run .builtin options ops).symm ▸ Registry.builtin_strict
  rcases hc with hc | ⟨r, hr, hrc⟩
  · exact isError_of_mem_refused Registry.builtin_strict (mem_refusedCells.mp hc)
  · have herror : (s.values.get r).isError = true :=
      isError_of_mem_refused Registry.builtin_strict (mem_refusedCells.mp hr)
    exact h.isError_of_reaches hstrict herror hrc

/-- In the example the refused cell is asked for, and it and the cell that depends on it have
errors. -/
theorem isError_circle_asked :
    let s := (fresh .builtin {}).run (circle ++ [.recalculate "B1"])
    "B1" ∈ s.refusedCells ∧ TransGen (fun a b ↦ b ∈ s.index.dependents a) "B1" "A1" ∧
      (s.value "B1").isError = true ∧ (s.value "A1").isError = true := by
  intro s
  have hs : s = ((fresh .builtin {}).run circle).recalculateKey "B1" := run_circle_asked .builtin {}
  have hcells : s.refusedCells = ["B1"] := refusedCells_circle_asked .builtin {}
  have hrefused : "B1" ∈ s.refusedCells := by
    rw [hcells]
    exact List.mem_singleton_self _
  have hdepends : TransGen (fun a b ↦ b ∈ s.index.dependents a) "B1" "A1" := by
    refine .single ?_
    rw [hs, recalculateKey_eq]
    exact leads_circle .builtin {}
  have hbelow : ∃ r ∈ s.refusedCells, TransGen (fun a b ↦ b ∈ s.index.dependents a) r "A1" :=
    ⟨"B1", hrefused, hdepends⟩
  have herrors := run_isError_of_refused {} (circle ++ [.recalculate "B1"])
  refine ⟨hrefused, hdepends, ?_, ?_⟩
  · rw [value, canonicalKey_b1]
    exact herrors "B1" (Or.inl hrefused)
  · rw [value, canonicalKey_a1]
    exact herrors "A1" (Or.inr hbelow)

/-! ## Errors come from somewhere -/

variable {d : String}

/-- With honest functions the error of a refused cell is what a formula comes to only if a cell that
it reads has that error. -/
theorem exists_mem_of_circular (hflat : s.Flat)
    (hhonest : s.functions.Honest (EvalFault.circularReference d).message)
    (hadmitted : Expr.Admitted s.options.maxRangeCells s.expressions[c]? keys)
    (hvalue : s.formulaValue c = .fault (.circularReference d)) :
    ∃ a ∈ keys, s.values.get a = .fault (.circularReference d) := by
  cases hformula : s.expressions[c]? with
  | none =>
    rw [formulaValue_of_none hformula] at hvalue
    cases hvalue
  | some e =>
    cases harray : (e.eval ⟨c, s.values, s.functions⟩).isArray with
    | true =>
      rw [formulaValue_of_isArray hformula harray] at hvalue
      exact absurd (Value.error.inj hvalue) (ne_circular (by decide) d)
    | false =>
      rw [formulaValue_of_not_isArray hformula harray] at hvalue
      have hmem : .fault (.circularReference d) ∈ (e.eval ⟨c, s.values, s.functions⟩).leaves := by
        rw [Value.leaves_of_not_isArray harray, hvalue]
        exact List.mem_singleton_self _
      obtain ⟨a, ha, hleaf⟩ :=
        Expr.exists_address_of_circular hhonest e (hadmitted.not_circular e hformula d) hmem
      -- what the cell holds is its value, for no cell holds an array
      rw [Value.leaves_of_not_isArray (hflat a.key), List.mem_singleton] at hleaf
      exact ⟨a.key, hadmitted.mem_iff.mpr ⟨e, hformula, a, ha, rfl⟩, hleaf.symm⟩

/-- **Where an error ends** that is followed down the index: at the refused cell that it names, or
at a cell that reads itself. -/
theorem Intact.exists_origin (h : s.Intact) (hflat : s.Flat)
    (hhonest : s.functions.Honest (EvalFault.circularReference d).message)
    (hshown : ∀ c ∈ s.refused, s.values.get c = .fault (.circularReference c))
    (hvalue : s.values.get c = .fault (.circularReference d)) :
    d ∈ s.refused ∨ ∃ r, ReflTransGen s.index.dependentLinks.Leads r c ∧ r ∈ s.asked r ∧
      s.values.get r = .fault (.circularReference d) := by
  induction c using (h.wired.acyclic.wellFounded_down h.wired.consistent).induction with
  | _ c ih =>
    by_cases hrefused : c ∈ s.refused
    · rw [hshown c hrefused] at hvalue
      obtain rfl := circularReference_injective (Value.error.inj hvalue)
      exact Or.inl hrefused
    by_cases hself : c ∈ s.asked c
    · exact Or.inr ⟨c, .refl, hself, hvalue⟩
    · rw [h.current c ⟨hrefused, hself⟩] at hvalue
      obtain ⟨a, ha, hread⟩ :=
        exists_mem_of_circular hflat hhonest (h.wired.admitted c) hvalue
      have hlead : s.index.dependentLinks.Leads a c := h.wired.leads_iff.mpr ⟨hrefused, hself, ha⟩
      exact (ih a hlead hread).imp_right fun ⟨r, hra, hr⟩ ↦ ⟨r, hra.tail hlead, hr⟩

/-- **No errors out of nowhere.** After every run with the functions that are always there in which
no cell is asked for, a cell that names another in the error of a circle does so because that other
one is refused, or it has the error from a cell that reads itself. -/
theorem run_refused_of_circular (options : SheetOptions) (ops : List Operation) (c d : String) :
    let s := (fresh .builtin options).run ops
    (∀ cell, .recalculate cell ∉ ops) →
    s.values.get c = .error ("Circular reference: " ++ d) →
    d ∈ s.refusedCells ∨
      ∃ r keys, ReflTransGen (fun a b ↦ b ∈ s.index.dependents a) r c ∧
        Expr.formulaKeys options.maxRangeCells s.expressions[r]? = .ok keys ∧ r ∈ keys ∧
        s.values.get r = .error ("Circular reference: " ++ d) := by
  intro s hops hvalue
  have h : s.Intact := intact_run .builtin options ops
  have hfunctions : s.functions = .builtin := functions_run .builtin options ops
  have hoptions : s.options = options := options_run .builtin options ops
  have hhonest : s.functions.Honest (EvalFault.circularReference d).message :=
    hfunctions.symm ▸ Registry.builtin_honest d
  have hshown : ∀ c ∈ s.refused, s.values.get c = .fault (.circularReference c) := fun c hc ↦
    get_run_of_not_asked hops hc
  rcases h.exists_origin (flat_run .builtin options ops) hhonest hshown hvalue with
    hrefused | ⟨r, hrc, hself, hr⟩
  · exact Or.inl (mem_refusedCells.mpr hrefused)
  · refine Or.inr ⟨r, s.asked r, hrc, ?_, hself, hr⟩
    rw [← hoptions]
    exact (h.wired.admitted r).keys_eq

/-- In the example the first cell has the error of the second, which is refused. -/
theorem refused_circle_of_value :
    let s := (fresh .builtin {}).run circle
    (∀ cell, .recalculate cell ∉ circle) ∧ s.value "A1" = .error "Circular reference: B1" ∧
      ("B1" ∈ s.refusedCells ∨
        ∃ r keys, ReflTransGen (fun a b ↦ b ∈ s.index.dependents a) r "A1" ∧
          Expr.formulaKeys 1000000 s.expressions[r]? = .ok keys ∧ r ∈ keys ∧
          s.values.get r = .error "Circular reference: B1") := by
  intro s
  have hops : ∀ cell, .recalculate cell ∉ circle := by simp [circle]
  have hvalue : s.values.get "A1" = .error "Circular reference: B1" := get_circle_a1 .builtin {}
  refine ⟨hops, ?_, run_refused_of_circular {} circle "A1" "B1" hops hvalue⟩
  rw [value, canonicalKey_a1]
  exact hvalue

private theorem run_circle_self (functions : Registry) (options : SheetOptions) :
    (fresh functions options).run (circle ++ [.update "A1" "A1"])
      = ((fresh functions options).run circle).update "A1" "A1" := run_concat _ _ _

private theorem wants_circle_self {functions : Registry} {options : SheetOptions} {a b : String}
    (hab : (((fresh functions options).run circle).update "A1" "A1").Wants a b) :
    a = "B1" ∧ b = "A1" := by
  have hok : ∃ after, ((fresh functions options).run circle).tryUpdate "A1" "A1" = .ok after :=
    ⟨_, tryUpdate_of_keys (formulaKeys_a1 _)⟩
  have hspelled := (spelled_circle functions options).update hok
  obtain ⟨hself, hread⟩ := hab
  rw [hspelled.mem_asked_iff, reads_written (formulaKeys_a1 _), canonicalKey_a1,
    Keys.mem_singleton] at hself hread
  by_cases ha : "A1" = a
  · rw [if_pos ha] at hself
    exact absurd ha.symm hself
  · rw [if_neg ha, reads_circle] at hread
    exact hread.resolve_left fun h ↦ ha h.1.symm

/-- **An error that is left behind.** When the first cell of the example is made to read itself
there is no circle any more and no cell is refused. The cell has the error still. -/
theorem value_circle_self :
    let s := (fresh .builtin {}).run (circle ++ [.update "A1" "A1"])
    s.refusedCells = [] ∧ s.value "A1" = .error "Circular reference: B1" := by
  intro s
  have hs : s = ((fresh .builtin {}).run circle).update "A1" "A1" := run_circle_self .builtin {}
  have hw : s.Wired := (intact_run .builtin {} _).wired
  have he : s.Exact := exact_run .builtin {} _
  constructor
  · rw [refusedCells_eq_nil_iff, he.refused_eq_empty_iff hw, hs]
    exact not_circle_of_one_link (x := "B1") (y := "A1") (by decide) fun _ _ ↦ wants_circle_self
  · have h := intact_run .builtin {} circle
    have hkeys := formulaKeys_a1 ((fresh .builtin {}).run circle).options.maxRangeCells
    have hformula : (((fresh .builtin {}).run circle).accept "A1" (Expr.parse "A1")
        ∅).expressions["A1"]? = some (.cell ⟨0, 1⟩) := by
      rw [accept, getElem?_withExpression, if_pos rfl, parse_a1]
    have hvalue : (((fresh .builtin {}).run circle).accept "A1" (Expr.parse "A1")
        ∅).formulaValue "A1" = .error "Circular reference: B1" := by
      rw [formulaValue_of_some hformula, Expr.eval, key_a1, accept, get_circle_a1]
      rfl
    rw [value, canonicalKey_a1, hs, update_eq_install hkeys, canonicalKey_a1,
      h.get_install_of_reads_self (.of_parse hkeys) (Keys.mem_singleton.mpr rfl), hvalue]

end Sheet

end FormulaSheet
