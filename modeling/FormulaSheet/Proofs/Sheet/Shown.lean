import FormulaSheet.Proofs.Sheet.Reachable
import FormulaSheet.Proofs.Sheet.Untracked

/-!
# What refused cells show

The error of a circle is filed when a formula is refused, and no evaluation comes to the cell as
long as it is refused, unless somebody asks for the cell itself. Then the formula is evaluated like
any other, and the error is gone although the circle is not.

So the value of a refused cell is told by its history: it is the error of its circle, or what its
formula came to when the cell was last asked for.

## An example

`A1` is made to read `B1`, and `B1`, which is made to call a function of `A1`, is refused for it.
-/

namespace FormulaSheet

namespace Sheet

open Relation

variable {s t : Sheet} {c : String}

/-! ## One operation -/

theorem Intact.get_installs (h : s.Intact) (hst : ReflTransGen Installs s t) (hc : c ∈ t.refused) :
    t.values.get c = .fault (.circularReference c) ∨
      c ∈ s.refused ∧ t.values.get c = s.values.get c := by
  suffices t.Intact ∧ (c ∈ t.refused → t.values.get c = .fault (.circularReference c) ∨
      c ∈ s.refused ∧ t.values.get c = s.values.get c) from this.2 hc
  clear hc
  induction hst with
  | refl => exact ⟨h, fun hc ↦ Or.inr ⟨hc, rfl⟩⟩
  | @tail t u _ hlast ih =>
    obtain ⟨key, e, keys, he, rfl⟩ := hlast
    obtain ⟨ht, ih⟩ := ih
    refine ⟨ht.install key he, fun hc ↦ ?_⟩
    rcases ht.get_install he hc with ⟨-, hvalue⟩ | ⟨hold, hvalue⟩
    · exact Or.inl hvalue
    · rw [hvalue]
      exact ih hold

/-- The operation asks for the cell filed under a key. -/
def Operation.Asks (op : Operation) (c : String) : Prop :=
  ∃ cell, op = .recalculate cell ∧ Address.canonicalKey cell = c

/-- **The step.** After an operation a refused cell shows its error, or it was refused before. In
the latter case it has the value that it had, unless it was asked for. -/
theorem Intact.get_perform (h : s.Intact) (op : Operation) (hc : c ∈ (s.perform op).refused) :
    (s.perform op).values.get c = .fault (.circularReference c) ∨
      c ∈ s.refused ∧ (op.Asks c ∧ (s.perform op).values.get c = s.formulaValue c ∨
        ¬op.Asks c ∧ (s.perform op).values.get c = s.values.get c) := by
  by_cases hasks : op.Asks c
  · obtain ⟨cell, rfl, rfl⟩ := hasks
    rw [perform, recalculate] at hc ⊢
    rw [refused_recalculateKey] at hc
    exact Or.inr ⟨hc, Or.inl ⟨⟨cell, rfl, rfl⟩, get_recalculateKey_self s _⟩⟩
  rcases perform_cases s op with hinstalls | ⟨cell, rfl, heq⟩
  · exact (h.get_installs hinstalls hc).imp_right fun hkept ↦
      ⟨hkept.1, Or.inr ⟨hasks, hkept.2⟩⟩
  · have hkey : c ≠ Address.canonicalKey cell := fun hkey ↦ hasks ⟨cell, rfl, hkey.symm⟩
    rw [heq] at hc ⊢
    rw [refused_recalculateKey] at hc
    refine Or.inr ⟨hc, Or.inr ⟨hasks, ?_⟩⟩
    exact h.wired.get_recalculateKey_of_ne (fun htracked ↦ htracked.1 hc) hkey

/-! ## Runs -/

variable {ops : List Operation} {op : Operation} {value : Value} {i : ℕ}

/-- The cell was last asked for by operation `i`, when its formula came to `value`, and it was
refused then and has been ever since. -/
structure AskedAt (s : Sheet) (ops : List Operation) (c : String) (value : Value) (i : ℕ) :
    Prop where
  /-- The operation asks for the cell. -/
  asks : ∃ op, ops[i]? = some op ∧ op.Asks c
  /-- No later one does. -/
  last : ∀ j op, ops[j]? = some op → op.Asks c → j ≤ i
  /-- This is what the formula came to. -/
  value_eq : value = (s.run (ops.take i)).formulaValue c
  /-- The cell is refused, before the operation and since. -/
  refused : ∀ n, i ≤ n → c ∈ (s.run (ops.take n)).refused

theorem AskedAt.lt_length (h : AskedAt s ops c value i) : i < ops.length := by
  obtain ⟨op, hop, -⟩ := h.asks
  exact (List.getElem?_eq_some_iff.mp hop).1

/-- Nothing of this is changed by an operation that does not ask for the cell and leaves it
refused. -/
theorem AskedAt.concat (h : AskedAt s ops c value i) (hop : ¬op.Asks c)
    (hc : c ∈ (s.run (ops ++ [op])).refused) : AskedAt s (ops ++ [op]) c value i where
  asks := by
    rw [List.getElem?_append_left h.lt_length]
    exact h.asks
  last j op' hj hasks := by
    rcases Nat.lt_or_ge j ops.length with hshort | hlong
    · rw [List.getElem?_append_left hshort] at hj
      exact h.last j op' hj hasks
    · rw [List.getElem?_append_right hlong] at hj
      obtain rfl := List.mem_singleton.mp (List.mem_of_getElem? hj)
      exact absurd hasks hop
  value_eq := by
    rw [List.take_append_of_le_length h.lt_length.le]
    exact h.value_eq
  refused n hn := by
    rcases Nat.lt_or_ge ops.length n with hlong | hshort
    · rwa [List.take_of_length_le (by rw [List.length_append]; exact hlong)]
    · rw [List.take_append_of_le_length hshort]
      exact h.refused n hn

theorem askedAt_length (hop : op.Asks c) (hold : c ∈ (s.run ops).refused)
    (hc : c ∈ (s.run (ops ++ [op])).refused) :
    AskedAt s (ops ++ [op]) c ((s.run ops).formulaValue c) ops.length where
  asks := ⟨op, List.getElem?_concat_length, hop⟩
  last j op' hj _ := by
    have hlt : j < (ops ++ [op]).length := (List.getElem?_eq_some_iff.mp hj).1
    rw [List.length_append] at hlt
    exact Nat.le_of_lt_succ hlt
  value_eq := by rw [List.take_left]
  refused n hn := by
    rcases hn.eq_or_lt with rfl | hlong
    · rwa [List.take_left]
    · rwa [List.take_of_length_le (by rw [List.length_append]; exact hlong)]

/-- **After a run** a refused cell shows its error, or what its formula came to when the cell was
last asked for. -/
theorem get_run {functions : Registry} {options : SheetOptions}
    (hc : c ∈ ((fresh functions options).run ops).refused) :
    ((fresh functions options).run ops).values.get c = .fault (.circularReference c) ∨
      ∃ i, AskedAt (fresh functions options) ops c
        (((fresh functions options).run ops).values.get c) i := by
  induction ops using List.reverseRecOn with
  | nil => exact absurd hc Std.ExtTreeMap.not_mem_empty
  | append_singleton ops op ih =>
    have hperform : c ∈ (((fresh functions options).run ops).perform op).refused :=
      run_concat _ ops op ▸ hc
    rw [run_concat _ ops op]
    rcases (intact_run functions options ops).get_perform op hperform with
      herror | ⟨hold, ⟨hop, hvalue⟩ | ⟨hop, hkept⟩⟩
    · exact Or.inl herror
    · rw [hvalue]
      exact Or.inr ⟨ops.length, askedAt_length hop hold hc⟩
    · rw [hkept]
      exact (ih hold).imp_right fun ⟨i, hi⟩ ↦ ⟨i, hi.concat hop hc⟩

theorem get_run_of_not_asked {functions : Registry} {options : SheetOptions}
    (hops : ∀ cell, .recalculate cell ∉ ops)
    (hc : c ∈ ((fresh functions options).run ops).refused) :
    ((fresh functions options).run ops).values.get c = .fault (.circularReference c) := by
  refine (get_run hc).resolve_right fun ⟨i, hi⟩ ↦ ?_
  obtain ⟨_, hi, cell, rfl, -⟩ := hi.asks
  exact hops cell (List.mem_of_getElem? hi)

/-! ## The example -/

/-- Two cells that would read each other. -/
def circle : List Operation := [.update "A1" "B1", .update "B1" "(F A1)"]

private theorem parse_f : Expr.parse "(F A1)" = some (.call "F" [.cell ⟨0, 1⟩]) := by cbv

private theorem formulaKeys_f (limit : UInt64) :
    Expr.formulaKeys limit (Expr.parse "(F A1)") = .ok {"A1"} := by
  rw [parse_f, Expr.formulaKeys, Expr.keys, Expr.addKeys, Expr.addArgKeys, Expr.addKeys, key_a1,
    Std.ExtTreeSet.singleton_eq_insert]
  rfl

private theorem accepted_circle (limit : UInt64) {text : String}
    (h : text = "A1" ∨ text = "B1" ∨ text = "(F A1)") : Accepted limit text := by
  rcases h with rfl | rfl | rfl
  · exact ⟨_, formulaKeys_a1 limit⟩
  · exact ⟨_, formulaKeys_b1 limit⟩
  · exact ⟨_, formulaKeys_f limit⟩

theorem spelled_circle (functions : Registry) (options : SheetOptions) :
    Spelled (lastTexts circle) ((fresh functions options).run circle) :=
  (spelled_fresh functions options).run
    (acceptsRun_iff.mpr (by simp [circle, Operation.writes, accepted_circle]))

theorem lastTexts_circle_b1 : lastTexts circle "B1" = "(F A1)" := by
  change written (written (fun _ ↦ "") ("A1", "B1")) ("B1", "(F A1)") "B1" = _
  rw [written, if_pos canonicalKey_b1]

theorem lastTexts_circle_a1 : lastTexts circle "A1" = "B1" := by
  change written (written (fun _ ↦ "") ("A1", "B1")) ("B1", "(F A1)") "A1" = _
  rw [written, canonicalKey_b1, if_neg (by decide), written, if_pos canonicalKey_a1]

theorem reads_circle {limit : UInt64} {a b : String} :
    Reads limit (lastTexts circle) a b ↔ a = "A1" ∧ b = "B1" ∨ a = "B1" ∧ b = "A1" := by
  change Reads limit (written (written (fun _ ↦ "") ("A1", "B1")) ("B1", "(F A1)")) a b ↔ _
  rw [reads_written (formulaKeys_f limit), canonicalKey_b1, reads_first, Keys.mem_singleton]
  by_cases hb : "B1" = a
  · subst hb
    simp
  · simp [hb, Ne.symm hb]

private theorem refused_first (functions : Registry) (options : SheetOptions) :
    ((fresh functions options).run [.update "A1" "B1"]).refused = ∅ := by
  have hspelled : Spelled (written (fun _ ↦ "") ("A1", "B1"))
      ((fresh functions options).run [.update "A1" "B1"]) :=
    (spelled_fresh functions options).run
      (acceptsRun_iff.mpr (by simp [Operation.writes, accepted_circle]))
  have hfree := hspelled.circleFree
    (not_circle_of_one_link (by decide) fun _ _ ↦ reads_first.mp)
  exact hfree.refused_eq (intact_run functions options _).wired (exact_run functions options _)

private theorem eq_of_mem_refused_circle {functions : Registry} {options : SheetOptions}
    {c : String} (hc : c ∈ ((fresh functions options).run circle).refused) : c = "B1" := by
  have h := intact_run functions options [.update "A1" "B1"]
  change c ∈ (((fresh functions options).run [.update "A1" "B1"]).update "B1" "(F A1)").refused
    at hc
  rw [update_eq_install (formulaKeys_f _), canonicalKey_b1] at hc
  rcases h.get_install (.of_parse (formulaKeys_f _)) hc with ⟨hkey, -⟩ | ⟨hold, -⟩
  · exact hkey
  · rw [refused_first] at hold
    exact absurd hold Std.ExtTreeMap.not_mem_empty

theorem mem_asked_circle {functions : Registry} {options : SheetOptions} {a b : String} :
    b ∈ ((fresh functions options).run circle).asked a ↔
      a = "A1" ∧ b = "B1" ∨ a = "B1" ∧ b = "A1" :=
  (spelled_circle functions options).mem_asked_iff.trans reads_circle

theorem refusedCells_circle (functions : Registry) (options : SheetOptions) :
    ((fresh functions options).run circle).refusedCells = ["B1"] := by
  have hmem : ∀ c ∈ ((fresh functions options).run circle).refusedCells, c = "B1" := fun c hc ↦
    eq_of_mem_refused_circle (mem_refusedCells.mp hc)
  have hsome : ((fresh functions options).run circle).refusedCells ≠ [] := by
    have hw := (intact_run functions options circle).wired
    have hwants : TransGen ((fresh functions options).run circle).Wants "A1" "A1" :=
      .head (b := "B1") (by simp [Wants, mem_asked_circle])
        (.single (by simp [Wants, mem_asked_circle]))
    rw [Ne, refusedCells_eq_nil_iff, (exact_run functions options circle).refused_eq_empty_iff hw]
    exact fun hacyclic ↦ hacyclic "A1" hwants
  obtain ⟨c, hc⟩ := List.exists_mem_of_ne_nil _ hsome
  obtain rfl := hmem c hc
  refine List.perm_singleton.mp ((List.perm_ext_iff_of_nodup Std.ExtTreeMap.nodup_keys
    (List.nodup_singleton _)).mpr fun a ↦ ?_)
  rw [List.mem_singleton]
  exact ⟨hmem a, fun ha ↦ ha ▸ hc⟩

theorem leads_circle (functions : Registry) (options : SheetOptions) :
    ((fresh functions options).run circle).index.dependentLinks.Leads "B1" "A1" := by
  refine (intact_run functions options circle).wired.leads_iff.mpr ⟨?_, ?_, ?_⟩
  · rw [← mem_refusedCells, refusedCells_circle]
    decide
  · simp [mem_asked_circle]
  · simp [mem_asked_circle]

theorem run_circle_asked (functions : Registry) (options : SheetOptions) :
    (fresh functions options).run (circle ++ [.recalculate "B1"])
      = ((fresh functions options).run circle).recalculateKey "B1" := by
  rw [run_concat, perform, recalculate, canonicalKey_b1]

theorem refusedCells_circle_asked (functions : Registry) (options : SheetOptions) :
    ((fresh functions options).run (circle ++ [.recalculate "B1"])).refusedCells = ["B1"] := by
  rw [run_circle_asked, refusedCells, refused_recalculateKey]
  exact refusedCells_circle functions options

theorem get_circle_a1 (functions : Registry) (options : SheetOptions) :
    ((fresh functions options).run circle).values.get "A1"
      = .fault (.circularReference "B1") := by
  have h := intact_run functions options circle
  have hrefused : "B1" ∈ ((fresh functions options).run circle).refused := by
    rw [← mem_refusedCells, refusedCells_circle]
    exact List.mem_singleton_self _
  have hformula : ((fresh functions options).run circle).expressions["A1"]?
      = some (.cell ⟨1, 1⟩) := by
    rw [spelled_circle, lastTexts_circle_a1, parse_b1]
  rw [h.current "A1" (h.wired.tracked_of_leads (leads_circle functions options)),
    formulaValue_of_some hformula, Expr.eval, key_b1,
    get_run_of_not_asked (by simp [circle]) hrefused]
  rfl

/-! ## Values -/

/-- **What a refused cell shows.** After every run a refused cell has the error of its circle,
unless it has been asked for since it was refused; then it has the value that its formula came to
when it was. -/
theorem run_value_of_refused (functions : Registry) (options : SheetOptions) (ops : List Operation)
    (c : String) :
    let s := (fresh functions options).run ops
    c ∈ s.refusedCells →
    s.values.get c = .error ("Circular reference: " ++ c) ∨
      ∃ i, AskedAt (fresh functions options) ops c (s.values.get c) i := by
  intro s hc
  exact get_run (mem_refusedCells.mp hc)

/-- In the example the second cell is refused and shows it. -/
theorem value_refused_circle :
    let s := (fresh .empty {}).run circle
    "B1" ∈ s.refusedCells ∧ s.value "B1" = .error "Circular reference: B1" := by
  intro s
  have hrefused : "B1" ∈ s.refusedCells := by
    rw [refusedCells_circle]
    exact List.mem_singleton_self _
  refine ⟨hrefused, ?_⟩
  rw [value, canonicalKey_b1]
  rcases run_value_of_refused .empty {} circle "B1" hrefused with hvalue | ⟨i, hi⟩
  · exact hvalue
  · obtain ⟨_, hi, cell, rfl, -⟩ := hi.asks
    exact absurd (List.mem_of_getElem? hi) (by simp [circle])

/-- Asked for, it shows what its formula comes to and not the error of its circle, though it is
still refused. -/
theorem value_refused_circle_asked :
    let s := (fresh .empty {}).run (circle ++ [.recalculate "B1"])
    s.refusedCells = ["B1"] ∧ s.value "B1" = .error "Unknown function F" ∧
      s.value "B1" ≠ .error "Circular reference: B1" := by
  intro s
  have hs : s = ((fresh .empty {}).run circle).recalculateKey "B1" := run_circle_asked .empty {}
  have hformula : ((fresh .empty {}).run circle).expressions["B1"]?
      = some (.call "F" [.cell ⟨0, 1⟩]) := by
    rw [spelled_circle, lastTexts_circle_b1, parse_f]
  have hfunctions : ((fresh .empty {}).run circle).functions.get? "F" = none := by
    rw [functions_run]
    exact Std.ExtTreeMap.getElem?_empty
  have hvalue : s.value "B1" = .error "Unknown function F" := by
    rw [value, canonicalKey_b1, hs, get_recalculateKey_self, formulaValue_of_some hformula,
      Expr.eval, hfunctions]
    rfl
  refine ⟨refusedCells_circle_asked .empty {}, hvalue, ?_⟩
  rw [hvalue]
  exact fun heq ↦ absurd (Value.error.inj heq) (by decide)

end Sheet

end FormulaSheet
