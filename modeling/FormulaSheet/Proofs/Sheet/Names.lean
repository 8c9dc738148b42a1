import FormulaSheet.Proofs.Sheet.Filing

/-!
# Cells and their names

A sheet comes to know a name by its key, so the spellings of an address can be exchanged in whatever
it is told or asked. No other names can: a formula that is put into a cell is found under the names
of this cell alone.

## Names that are no address

A text that is no address, malformed or out of bounds, is a name for a cell of its own. Formulas
mention addresses, so no formula reads this cell. It may read others, and then it shows what they
come to, but nothing leads out of it. It lies on no circle and is never refused, and what is put
into it concerns no other cell. The refused ones are no exception: the chain that keeps one of them
waiting does not lead through such a cell, and so it is there afterwards.
-/

namespace FormulaSheet

namespace Sheet

open Relation
open Address (SameCell canonicalKey)

variable {s t u : Sheet} {x y name c text : String} {e : Option Expr} {keys : Keys}

/-! ## One cell -/

/-- The names can be exchanged in whatever the sheet is told or asked. -/
structure Interchangeable (s : Sheet) (x y : String) : Prop where
  /-- An update has the same result, be it a sheet or a failure. -/
  tryUpdate_eq : ∀ text, s.tryUpdate x text = s.tryUpdate y text
  /-- So has one that does not report failures. -/
  update_eq : ∀ text, s.update x text = s.update y text
  /-- An evaluation has the same result. -/
  recalculate_eq : s.recalculate x = s.recalculate y
  /-- The values are the same. -/
  value_eq : s.value x = s.value y
  /-- The formulas are the same. -/
  expression_eq : s.expression? x = s.expression? y
  /-- The same cells read them. -/
  dependents_eq : s.dependents x = s.dependents y
  /-- They read the same cells. -/
  precedents_eq : s.precedents x = s.precedents y

theorem interchangeable_of_sameCell (s : Sheet) (h : SameCell x y) : s.Interchangeable x y := by
  have hkey : canonicalKey x = canonicalKey y := Address.canonicalKey_eq_iff.mpr h
  have htry : ∀ text, s.tryUpdate x text = s.tryUpdate y text := fun text ↦ by
    simp only [tryUpdate, hkey]
  exact {
    tryUpdate_eq := htry
    update_eq text := by simp only [update, hkey]
    recalculate_eq := by rw [recalculate, recalculate, hkey]
    value_eq := by rw [value, value, hkey]
    expression_eq := by rw [expression?, expression?, hkey]
    dependents_eq := by rw [dependents, dependents, hkey]
    precedents_eq := by rw [precedents, precedents, hkey] }

theorem expression_of_tryUpdate (h : s.tryUpdate x text = .ok t) :
    (SameCell x y → t.expression? y = Expr.parse text) ∧
      (¬SameCell x y → t.expression? y = s.expression? y) := by
  obtain ⟨keys, -, rfl⟩ := tryUpdate_eq_install h
  rw [expression?, getElem?_expressions_install, ← Address.canonicalKey_eq_iff, eq_comm]
  exact ⟨fun hkey ↦ if_pos hkey, fun hkey ↦ if_neg hkey⟩

/-- **Names of one cell** are those that can be exchanged. -/
theorem interchangeable_iff : s.Interchangeable x y ↔ SameCell x y := by
  refine ⟨fun h ↦ ?_, interchangeable_of_sameCell s⟩
  by_contra hnot
  -- `y` would have every formula that is put into `x`, and keep the one it has
  have hkept : ∀ text keys,
      Expr.formulaKeys s.options.maxRangeCells (Expr.parse text) = .ok keys →
        Expr.parse text = s.expression? y := by
    intro text keys hkeys
    have htry : s.tryUpdate x text = .ok _ := tryUpdate_of_keys hkeys
    have htry' := h.tryUpdate_eq text ▸ htry
    rw [← (expression_of_tryUpdate htry').1 (Or.inl rfl)]
    exact (expression_of_tryUpdate htry).2 hnot
  have hempty : Expr.formulaKeys s.options.maxRangeCells (Expr.parse "") = .ok ∅ := by
    rw [parse_empty, Expr.formulaKeys]
  have hsame := (hkept "" _ hempty).trans (hkept "A1" _ (formulaKeys_a1 _)).symm
  rw [parse_empty, parse_a1] at hsame
  cases hsame

/-! ## Operations -/

/-- The operations differ in the spelling of names only. -/
inductive Operation.Respelled : Operation → Operation → Prop where
  /-- The name of the cell is respelled. -/
  | update {x y : String} (text : String) (h : SameCell x y) :
    Respelled (.update x text) (.update y text)
  /-- The name of the cell is respelled. -/
  | tryUpdate {x y : String} (text : String) (h : SameCell x y) :
    Respelled (.tryUpdate x text) (.tryUpdate y text)
  /-- The names of cells are respelled. -/
  | updateAll {us vs : List (String × String)}
    (h : List.Forall₂ (fun u v ↦ SameCell u.1 v.1 ∧ u.2 = v.2) us vs) :
    Respelled (.updateAll us) (.updateAll vs)
  /-- The name of the cell is respelled. -/
  | recalculate {x y : String} (h : SameCell x y) : Respelled (.recalculate x) (.recalculate y)

theorem updateAll_congr {us vs : List (String × String)}
    (h : List.Forall₂ (fun u v ↦ SameCell u.1 v.1 ∧ u.2 = v.2) us vs) (s : Sheet) :
    s.updateAll us = s.updateAll vs := by
  induction h generalizing s with
  | nil => rfl
  | @cons u v us vs huv _ ih =>
    calc s.updateAll (u :: us) = (s.update u.1 u.2).updateAll us := rfl
      _ = (s.update v.1 v.2).updateAll us := by
        rw [huv.2, (interchangeable_of_sameCell s huv.1).update_eq]
      _ = (s.update v.1 v.2).updateAll vs := ih _

theorem perform_congr {op op' : Operation} (h : op.Respelled op') (s : Sheet) :
    s.perform op = s.perform op' := by
  cases h with
  | update text h => exact (interchangeable_of_sameCell s h).update_eq text
  | tryUpdate text h => simp only [perform, (interchangeable_of_sameCell s h).tryUpdate_eq text]
  | updateAll h => exact updateAll_congr h s
  | recalculate h => exact (interchangeable_of_sameCell s h).recalculate_eq

/-- **Respelled runs** end in the same sheet. -/
theorem run_congr {ops ops' : List Operation} (h : List.Forall₂ Operation.Respelled ops ops')
    (s : Sheet) : s.run ops = s.run ops' := by
  induction h generalizing s with
  | nil => rfl
  | cons hop _ ih => rw [run_cons, run_cons, perform_congr hop, ih]

/-! ## Names that are no address -/

/-- The name is not that of an address. -/
def Foreign (name : String) : Prop := ∃ fault, Address.parse name = .error fault

theorem Foreign.canonicalKey_eq (h : Foreign name) : canonicalKey name = name := by
  obtain ⟨fault, hfault⟩ := h
  exact Address.canonicalKey_of_fault hfault

theorem Foreign.not_parse (h : Foreign name) (a : Address) : Address.parse name ≠ .ok a := by
  obtain ⟨fault, hfault⟩ := h
  rw [hfault]
  nofun

theorem Foreign.canonicalKey_ne (h : Foreign name) (hne : x ≠ name) : canonicalKey x ≠ name := by
  intro hkey
  rw [← h.canonicalKey_eq, Address.canonicalKey_eq_iff] at hkey
  rcases hkey with hsame | ⟨a, -, hparse⟩
  · exact hne hsame
  · exact h.not_parse a hparse

/-- What every run keeps. -/
structure Orderly (s : Sheet) : Prop where
  /-- Edges and values are what the formulas call for. -/
  intact : s.Intact
  /-- No refused cell could be given its edges. -/
  exact : s.Exact
  /-- Formulas are filed under canonical keys. -/
  filed : s.Filed

theorem orderly_run (functions : Registry) (options : SheetOptions) (ops : List Operation) :
    ((fresh functions options).run ops).Orderly :=
  ⟨intact_run functions options ops, exact_run functions options ops,
    filed_run functions options ops⟩

theorem Orderly.update (h : s.Orderly) (cell text : String) : (s.update cell text).Orderly := by
  have hfiled := h.filed.update cell text
  rcases update_cases s cell text with heq | ⟨e, keys, he, heq⟩
  · rw [heq]
    exact h
  · rw [heq] at hfiled ⊢
    exact ⟨h.intact.install _ he, exact_install s _ e _, hfiled⟩

theorem Orderly.recalculate (h : s.Orderly) (cell : String) : (s.recalculate cell).Orderly :=
  ⟨h.intact.recalculateKey _, h.exact.recalculateKey _, h.filed.recalculate cell⟩

theorem Orderly.run (h : s.Orderly) (more : List Operation) : (s.run more).Orderly :=
  run_induction_names (Q := fun _ ↦ True) (fun _ cell text _ h ↦ h.update cell text)
    (fun _ cell _ h ↦ h.recalculate cell) (fun _ _ _ _ ↦ trivial) h

/-- The names of the cells that the formula of a cell reads. -/
theorem Orderly.canonicalKey_mem_asked_iff {e : Expr} (h : s.Orderly)
    (he : s.expression? x = some e) :
    canonicalKey y ∈ s.asked (canonicalKey x) ↔ ∃ a, Address.parse y = .ok a ∧ e.Mentions a := by
  rw [h.filed.canonicalKey_mem_asked_iff h.intact.wired]
  constructor
  · rintro ⟨e', a, he', hy, ha⟩
    obtain rfl := Option.some.inj (he.symm.trans he')
    exact ⟨a, hy, ha⟩
  · exact fun ⟨a, hy, ha⟩ ↦ ⟨e, a, he, hy, ha⟩

theorem Orderly.canonicalKey_mem_precedents_iff {e : Expr} (h : s.Orderly)
    (he : s.expression? x = some e) (hrefused : canonicalKey x ∉ s.refused)
    (hself : ∀ a, Address.parse x = .ok a → ¬e.Mentions a) :
    canonicalKey y ∈ s.precedents x ↔ ∃ a, Address.parse y = .ok a ∧ e.Mentions a := by
  have hnot : canonicalKey x ∉ s.asked (canonicalKey x) := by
    rw [h.canonicalKey_mem_asked_iff he]
    exact fun ⟨a, hx, ha⟩ ↦ hself a hx ha
  rw [precedents, Std.ExtTreeSet.mem_toList, h.intact.wired.mem_precedents_iff,
    ← h.canonicalKey_mem_asked_iff he]
  exact ⟨fun hmem ↦ hmem.2.2, fun hmem ↦ ⟨hrefused, hnot, hmem⟩⟩

theorem Orderly.not_mem_asked (h : s.Orderly) (hname : Foreign name) : name ∉ s.asked c := by
  intro hmem
  obtain ⟨a, -, hparse⟩ := h.filed.parse_of_mem_asked h.intact.wired hmem
  exact hname.not_parse a hparse

theorem Orderly.not_leads (h : s.Orderly) (hname : Foreign name) :
    ¬s.index.dependentLinks.Leads name c :=
  fun hlead ↦ h.not_mem_asked hname (h.intact.wired.leads_iff.mp hlead).2.2

theorem Orderly.not_reaches (h : s.Orderly) (hname : Foreign name) :
    ¬s.index.dependentLinks.Reaches name c := by
  intro hreach
  obtain ⟨b, hlead, -⟩ := TransGen.head'_iff.mp hreach
  exact h.not_leads hname hlead

theorem Orderly.eq_of_reaches (h : s.Orderly) (hname : Foreign name)
    (hreach : ReflTransGen s.index.dependentLinks.Leads name c) : c = name := by
  rcases hreach.cases_head with rfl | ⟨b, hlead, -⟩
  · rfl
  · exact absurd hlead (h.not_leads hname)

theorem Orderly.not_mem_refused (h : s.Orderly) (hname : Foreign name) : name ∉ s.refused := by
  intro hmem
  -- a refused cell reaches a cell that it asks for, and this one reaches none
  obtain ⟨d, -, hreach⟩ := h.exact.reaches_asked h.intact.wired hmem
  exact h.not_reaches hname hreach

/-! ## What is put into a foreign cell -/

/-- From the one sheet to the other the cell keeps its formula, its value, its edges and its
refusal. -/
structure Keeps (s t : Sheet) (c : String) : Prop where
  /-- The formula is the same. -/
  expression_eq : t.expressions[c]? = s.expressions[c]?
  /-- The value is the same. -/
  value_eq : t.values.get c = s.values.get c
  /-- The edges are the same. -/
  precedents_eq : t.index.precedents c = s.index.precedents c
  /-- The cell is refused in both sheets or in none. -/
  refused_iff : c ∈ t.refused ↔ c ∈ s.refused

theorem Keeps.refl (s : Sheet) (c : String) : Keeps s s c := ⟨rfl, rfl, rfl, Iff.rfl⟩

theorem Keeps.trans (h : Keeps s t c) (h' : Keeps t u c) : Keeps s u c :=
  ⟨h'.expression_eq.trans h.expression_eq, h'.value_eq.trans h.value_eq,
    h'.precedents_eq.trans h.precedents_eq, h'.refused_iff.trans h.refused_iff⟩

/-- An installation in a foreign cell releases no other. -/
theorem Orderly.mem_refused_install_iff (h : s.Orderly) (hname : Foreign name)
    (he : Expr.Admitted s.options.maxRangeCells e keys)
    (ht : (s.install name e (wantedBy name keys)).Orderly) :
    c ∈ (s.install name e (wantedBy name keys)).refused ↔ c ∈ s.refused := by
  constructor
  · intro hc
    refine (h.intact.mem_refused_of_install he hc).resolve_left ?_
    rintro rfl
    exact ht.not_mem_refused hname hc
  · intro hc
    by_contra hnot
    have hne : c ≠ name := fun hkey ↦ h.not_mem_refused hname (hkey ▸ hc)
    obtain ⟨d, hd, hreach⟩ := h.exact.reaches_asked h.intact.wired hc
    have hself := (h.intact.wired.asked_of_mem_refused hc).2
    have hsame := asked_install_of_ne (s := s) (e := e) (wantedBy name keys) hne
    have hlast : (s.install name e (wantedBy name keys)).index.dependentLinks.Leads d c :=
      ht.intact.wired.leads_iff.mpr ⟨hnot, hsame.symm ▸ hself, hsame.symm ▸ hd⟩
    -- the chain that kept the cell waiting is still there, for it does not go through `name`
    rcases transGen_or_through (fun _ _ hb ↦ h.intact.leads_install he hb) hreach with
      hchain | ⟨-, hrest⟩
    · exact ht.intact.wired.acyclic c (hchain.tail hlast)
    · exact h.not_mem_asked hname (h.eq_of_reaches hname hrest ▸ hd)

theorem Orderly.keeps_install (h : s.Orderly) (hname : Foreign name)
    (he : Expr.Admitted s.options.maxRangeCells e keys)
    (ht : (s.install name e (wantedBy name keys)).Orderly) (hne : c ≠ name) :
    Keeps s (s.install name e (wantedBy name keys)) c := by
  have hreleased : ∀ d, ¬Released s (s.install name e (wantedBy name keys)) name d :=
    fun d hd ↦ hd.2.2 ((h.mem_refused_install_iff hname he ht).mpr hd.2.1)
  refine ⟨?_, h.intact.get_install_of_not_touched he ?_,
    h.intact.precedents_install he hne (hreleased c), h.mem_refused_install_iff hname he ht⟩
  · rw [getElem?_expressions_install, if_neg hne]
  · rintro ⟨a, rfl | ha, hreach⟩
    · exact hne (ht.eq_of_reaches hname hreach)
    · exact hreleased a ha

theorem Orderly.keeps_update (h : s.Orderly) (hname : Foreign name) (hne : c ≠ name)
    (text : String) : Keeps s (s.update name text) c := by
  have ht := h.update name text
  rcases update_cases s name text with heq | ⟨e, keys, he, heq⟩
  · rw [heq]
    exact .refl s c
  · rw [heq, hname.canonicalKey_eq] at ht ⊢
    exact h.keeps_install hname he ht hne

theorem Orderly.keeps_recalculate (h : s.Orderly) (hname : Foreign name) (hne : c ≠ name) :
    Keeps s (s.recalculate name) c := by
  have hvalue := get_recalculateKey_of_not_reaches hne (h.not_reaches (c := c) hname)
  rw [Sheet.recalculate, hname.canonicalKey_eq, recalculateKey_eq]
  exact ⟨rfl, hvalue, rfl, Iff.rfl⟩

/-- **The run.** What is done to foreign cells concerns no other. -/
theorem Orderly.keeps_run (h : s.Orderly) {more : List Operation}
    (hnames : ∀ op ∈ more, ∀ name ∈ op.names, Foreign name ∧ c ≠ name) :
    Keeps s (s.run more) c := by
  refine (run_induction_names (P := fun t ↦ t.Orderly ∧ Keeps s t c)
    (fun t name text hname ht ↦ ⟨ht.1.update name text, ?_⟩)
    (fun t name hname ht ↦ ⟨ht.1.recalculate name, ?_⟩) hnames ⟨h, .refl s c⟩).2
  · exact ht.2.trans (ht.1.keeps_update hname.1 hname.2 text)
  · exact ht.2.trans (ht.1.keeps_recalculate hname.1 hname.2)

/-! ## What is put into other cells -/

theorem expressions_update_of_ne (hne : canonicalKey name ≠ c) (text : String) :
    (s.update name text).expressions[c]? = s.expressions[c]? := by
  rcases update_cases s name text with heq | ⟨e, keys, -, heq⟩
  · rw [heq]
  · rw [heq, getElem?_expressions_install, if_neg (Ne.symm hne)]

theorem expression_run (s : Sheet) {more : List Operation}
    (hnames : ∀ op ∈ more, ∀ name ∈ op.names, ¬SameCell name x) :
    (s.run more).expression? x = s.expression? x := by
  refine run_induction_names (P := fun t ↦ t.expression? x = s.expression? x)
    (Q := fun name ↦ canonicalKey name ≠ canonicalKey x) (fun t name text hne ht ↦ ?_)
    (fun t name _ ht ↦ ?_) (fun op hop name hname ↦ ?_) rfl
  · exact (expressions_update_of_ne hne text).trans ht
  · rw [recalculate, recalculateKey_eq]
    exact ht
  · exact mt Address.canonicalKey_eq_iff.mp (hnames op hop name hname)

theorem Orderly.precedents_eq_asked (h : s.Orderly) (hname : Foreign name) :
    s.index.precedents name = s.asked name := by
  rw [h.intact.wired.precedents_eq_asked, if_neg]
  exact not_or.mpr ⟨h.not_mem_refused hname, h.not_mem_asked hname⟩

theorem Orderly.precedents_eq_of_foreign (h : s.Orderly) (ht : t.Orderly)
    (hname : Foreign name) (hoptions : t.options = s.options)
    (hexpression : t.expression? name = s.expression? name) :
    t.precedents name = s.precedents name := by
  rw [expression?, expression?, hname.canonicalKey_eq] at hexpression
  rw [precedents, precedents, hname.canonicalKey_eq, h.precedents_eq_asked hname,
    ht.precedents_eq_asked hname, asked_congr hoptions hexpression]

/-! ## The result -/

/-- **Cells and their names.** The key of an address is each of its spellings without superfluous
zeros, and a spelling itself. So bringing a name to its key twice is bringing it there once, and two
names have the same key when they are the same or spell one address.

In a reachable sheet exactly the names of one cell can be exchanged, and runs that differ in
spellings end in the same sheet. All keys that are listed are canonical. A formula is found under
all names of its cell, and is kept when only other cells are written or evaluated. The cell has
edges from the addresses that the formula mentions, by all their names.

A cell whose name is no address is read by none, and never refused. It keeps its edges as it keeps
its formula, and what is done to such cells concerns no other. -/
theorem run_names (functions : Registry) (options : SheetOptions) (ops : List Operation) :
    let s := (fresh functions options).run ops
    (∀ text a, Address.parse text = .ok a →
      a.key = Address.withoutZeros text ∧ Address.parse a.key = .ok a) ∧
    (∀ x, canonicalKey (canonicalKey x) = canonicalKey x) ∧
    (∀ x y, canonicalKey x = canonicalKey y ↔ SameCell x y) ∧
    (∀ x y, s.Interchangeable x y ↔ SameCell x y) ∧
    (∀ more more', List.Forall₂ Operation.Respelled more more' → s.run more = s.run more') ∧
    (∀ key, s.Lists key → canonicalKey key = key) ∧
    (∀ x y text after, SameCell x y → s.tryUpdate x text = .ok after →
      after.expression? y = Expr.parse text) ∧
    (∀ more x, (∀ op ∈ more, ∀ name ∈ op.names, ¬SameCell name x) →
      (s.run more).expression? x = s.expression? x ∧
        (Foreign x → (s.run more).precedents x = s.precedents x)) ∧
    (∀ x y e, s.expression? x = some e → canonicalKey x ∉ s.refusedCells →
      (∀ a, Address.parse x = .ok a → ¬e.Mentions a) →
      (canonicalKey y ∈ s.precedents x ↔ ∃ a, Address.parse y = .ok a ∧ e.Mentions a)) ∧
    (∀ name, Foreign name → s.dependents name = [] ∧ name ∉ s.refusedCells) ∧
    (∀ more x, (∀ op ∈ more, ∀ name ∈ op.names, Foreign name ∧ x ≠ name) →
      Keeps s (s.run more) (canonicalKey x)) := by
  intro s
  have h : s.Orderly := orderly_run functions options ops
  refine ⟨fun text a hparse ↦ ⟨Address.key_of_parse hparse, Address.parse_key_of_parse hparse⟩,
    Address.canonicalKey_canonicalKey, fun x y ↦ Address.canonicalKey_eq_iff,
    fun x y ↦ interchangeable_iff, fun more more' hmore ↦ run_congr hmore s,
    fun key ↦ h.filed.canonicalKey_of_lists h.intact,
    fun x y text after hsame hok ↦ (expression_of_tryUpdate hok).1 hsame,
    fun more x hmore ↦ ⟨expression_run s hmore, fun hname ↦ ?_⟩,
    fun x y e he hrefused ↦ h.canonicalKey_mem_precedents_iff he (mt mem_refusedCells.mpr hrefused),
    fun name hname ↦ ⟨?_, mt mem_refusedCells.mp (h.not_mem_refused hname)⟩,
    fun more x hmore ↦ h.keeps_run fun op hop name hmem ↦ ?_⟩
  · have hoptions : (s.run more).options = s.options := (settings_run s more).2
    exact h.precedents_eq_of_foreign (h.run more) hname hoptions (expression_run s hmore)
  · refine List.eq_nil_iff_forall_not_mem.mpr fun c hc ↦ ?_
    rw [dependents, Std.ExtTreeSet.mem_toList, hname.canonicalKey_eq] at hc
    exact h.not_leads hname hc
  · obtain ⟨hname, hne⟩ := hmore op hop name hmem
    exact ⟨hname, hname.canonicalKey_ne hne⟩

theorem parse_a01 : Address.parse "A01" = .ok ⟨0, 1⟩ := by cbv

private theorem foreign_past_last_row : Foreign "A4294967296" := by
  have hform : Address.HasForm "A4294967296" := by decide
  have hsplit : Address.split "A4294967296" = (['A'], "4294967296".toList) := by decide
  have hcol : Column.ofLetters (String.ofList ['A']) = .ok 0 := by cbv
  have hrow : Address.readRow "A4294967296" "4294967296".toList
      = .error (.outOfBounds "A4294967296") := by
    rw [Address.readRow]
    exact if_neg (by decide)
  refine ⟨.outOfBounds "A4294967296", ?_⟩
  rw [Address.parse, if_pos hform, hsplit, hcol, hrow]
  rfl

/-- The row of the name is one past the last, so it is no address, and what is put under this name
leaves the refused cell as it is. With a zero more the names of the two cells of the example are
names of these cells still. -/
theorem run_names_circle :
    let s := (fresh .empty {}).run circle
    Foreign "A4294967296" ∧ s.Interchangeable "A01" "A1" ∧
      ¬s.Interchangeable "A4294967296" "A1" ∧
      s.run [.update "A01" "", .recalculate "B01"] = s.run [.update "A1" "", .recalculate "B1"] ∧
      "B1" ∈ (s.run [.update "A4294967296" "A1"]).refusedCells ∧
      s.dependents "A4294967296" = [] := by
  intro s
  have hforeign : Foreign "A4294967296" := foreign_past_last_row
  have ha : SameCell "A01" "A1" := Or.inr ⟨⟨0, 1⟩, parse_a01, by cbv⟩
  have hb : SameCell "B01" "B1" := Or.inr ⟨⟨1, 1⟩, by cbv, by cbv⟩
  obtain ⟨-, -, -, hnames, hruns, -, -, -, -, hforeigns, hkeeps⟩ := run_names .empty {} circle
  refine ⟨hforeign, (hnames _ _).mpr ha, fun h ↦ ?_, ?_, ?_, (hforeigns _ hforeign).1⟩
  · rcases (hnames _ _).mp h with heq | ⟨a, hparse, -⟩
    · exact absurd heq (by decide)
    · exact hforeign.not_parse a hparse
  · exact hruns _ _ (.cons (.update "" ha) (.cons (.recalculate hb) .nil))
  · have hsame := hkeeps [.update "A4294967296" "A1"] "B1" (by
      intro op hop name hname
      obtain rfl := List.mem_singleton.mp hop
      obtain rfl := List.mem_singleton.mp hname
      exact ⟨hforeign, by decide⟩)
    rw [canonicalKey_b1] at hsame
    rw [mem_refusedCells, hsame.refused_iff, ← mem_refusedCells, refusedCells_circle]
    exact List.mem_cons_self

end Sheet

end FormulaSheet
