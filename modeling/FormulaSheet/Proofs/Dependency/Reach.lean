import FormulaSheet.Dependency.Search
import Mathlib.Logic.Relation

/-!
# Reaching along links

One cell leads to another when the second is in the entry of the first; it reaches another when a
chain of one or more such steps leads there. `Links.reaches` decides whether a cell of a set is
reached.

## The entry that is used up

The search takes the entry of a cell away when it opens the cell. Nothing is lost by that: a chain
that comes back to an opened cell can be cut at its last visit there, and what is left of it starts
at one of the cells that the entry held. This is `reaches_erase`, and the only thing to be proved
about the search.
-/

namespace FormulaSheet

/-! ## Look-ups after a change -/

section

variable {β : Type} (entries : Std.ExtTreeMap String β) (a b : String)

theorem getElem?_erase_key : (entries.erase a)[b]? = if b = a then none else entries[b]? := by
  rw [Std.ExtTreeMap.getElem?_erase]
  simp only [Std.compare_eq_iff_eq, @eq_comm _ a b]

theorem getElem?_insert_key (v : β) :
    (entries.insert a v)[b]? = if b = a then some v else entries[b]? := by
  rw [Std.ExtTreeMap.getElem?_insert]
  simp only [Std.compare_eq_iff_eq, @eq_comm _ a b]

theorem mem_erase_key : b ∈ entries.erase a ↔ b ≠ a ∧ b ∈ entries := by
  rw [Std.ExtTreeMap.mem_erase, ne_eq, Std.compare_eq_iff_eq, ne_eq, eq_comm]

theorem mem_insert_key (v : β) : b ∈ entries.insert a v ↔ b = a ∨ b ∈ entries := by
  rw [Std.ExtTreeMap.mem_insert, Std.compare_eq_iff_eq, eq_comm]

variable {entries a} {v : β}

theorem erase_key_eq_self (h : a ∉ entries) : entries.erase a = entries := by
  refine Std.ExtTreeMap.ext_getElem? fun b ↦ ?_
  rw [getElem?_erase_key]
  split
  next hb => rw [hb, Std.ExtTreeMap.getElem?_eq_none h]
  next => rfl

theorem insert_key_eq_self (h : entries[a]? = some v) : entries.insert a v = entries := by
  refine Std.ExtTreeMap.ext_getElem? fun b ↦ ?_
  rw [getElem?_insert_key]
  split
  next hb => rw [hb, h]
  next => rfl

theorem insert_key_erase_key : (entries.erase a).insert a v = entries.insert a v := by
  refine Std.ExtTreeMap.ext_getElem? fun b ↦ ?_
  rw [getElem?_insert_key, getElem?_insert_key, getElem?_erase_key]
  split
  next => rfl
  next => rfl

end

namespace Links

/-! ## Steps and chains -/

/-- The second cell is one of those that the first leads to. -/
def Leads (links : Links) (a b : String) : Prop := b ∈ links.next a

theorem next_eq_getD (links : Links) (a : String) : links.next a = links[a]?.getD ∅ :=
  Std.ExtTreeMap.getD_eq_getD_getElem?

theorem next_of_getElem? {links : Links} {a : String} {keys : Keys} (h : links[a]? = some keys) :
    links.next a = keys := by
  rw [next_eq_getD, h, Option.getD_some]

theorem next_of_none {links : Links} {a : String} (h : links[a]? = none) : links.next a = ∅ := by
  rw [next_eq_getD, h, Option.getD_none]

theorem not_leads_of_none {links : Links} {a b : String} (h : links[a]? = none) :
    ¬links.Leads a b := by
  rw [Leads, next_of_none h]
  exact Std.ExtTreeSet.not_mem_empty

theorem leads_erase {links : Links} {a b c : String} :
    Leads (links.erase c) a b ↔ a ≠ c ∧ links.Leads a b := by
  rw [Leads, next_eq_getD, getElem?_erase_key, Leads, next_eq_getD]
  by_cases h : a = c
  · rw [if_pos h]
    exact ⟨fun hb ↦ absurd hb Std.ExtTreeSet.not_mem_empty, fun hb ↦ absurd h hb.1⟩
  · rw [if_neg h]
    exact ⟨fun hb ↦ ⟨h, hb⟩, And.right⟩

/-- The second cell is reached from the first in one step or more. -/
def Reaches (links : Links) : String → String → Prop := Relation.TransGen links.Leads

theorem not_reaches_of_none {links : Links} {a b : String} (h : links[a]? = none) :
    ¬links.Reaches a b := by
  intro hab
  obtain ⟨c, hac, -⟩ := Relation.TransGen.head'_iff.mp hab
  exact not_leads_of_none h hac

/-! ## Doing without one entry -/

/-- A chain that does not use the entry of `c` is one that does; a chain that uses it can be cut at
its last visit to `c`. -/
theorem reaches_erase {links : Links} {a b c : String} :
    links.Reaches a b → Reaches (links.erase c) a b ∨ links.Leads c b ∨
      ∃ d, links.Leads c d ∧ Reaches (links.erase c) d b := by
  intro h
  induction h with
  | @single b hab =>
    by_cases hac : a = c
    · exact Or.inr (Or.inl (hac ▸ hab))
    · exact Or.inl (.single (leads_erase.mpr ⟨hac, hab⟩))
  | @tail x b _ hxb ih =>
    by_cases hxc : x = c
    · exact Or.inr (Or.inl (hxc ▸ hxb))
    · have hstep : Leads (links.erase c) x b := leads_erase.mpr ⟨hxc, hxb⟩
      rcases ih with hax | hcx | ⟨d, hcd, hdx⟩
      · exact Or.inl (hax.tail hstep)
      · exact Or.inr (Or.inr ⟨x, hcx, .single hstep⟩)
      · exact Or.inr (Or.inr ⟨d, hcd, hdx.tail hstep⟩)

theorem reaches_of_erase {links : Links} {a b c : String} (h : Reaches (links.erase c) a b) :
    links.Reaches a b :=
  Relation.TransGen.mono (p := links.Leads) (fun _ _ hab ↦ (leads_erase.mp hab).2) _ _ h

/-! ## The search -/

/-- **What the search answers.** One of the waiting cells reaches one of the targets. -/
theorem reaches_iff (targets : Keys) (links : Links) (waiting : List String) :
    reaches targets links waiting = true ↔ ∃ a ∈ waiting, ∃ b ∈ targets, links.Reaches a b := by
  fun_induction reaches targets links waiting with
  | case1 => simp
  | case2 links cell waiting hnone ih =>
    rw [ih]
    constructor
    · rintro ⟨a, ha, b, hb, hab⟩
      exact ⟨a, List.mem_cons_of_mem _ ha, b, hb, hab⟩
    · rintro ⟨a, ha, b, hb, hab⟩
      rcases List.mem_cons.mp ha with rfl | ha
      · exact absurd hab (not_reaches_of_none hnone)
      · exact ⟨a, ha, b, hb, hab⟩
  | case3 links cell waiting keys hsome ih =>
    have hleads : ∀ b, links.Leads cell b ↔ b ∈ keys := by
      intro b
      rw [Leads, next_of_getElem? hsome]
    have hmem : ∀ b, b ∈ keys.toList ↔ b ∈ keys := fun _ ↦ Std.ExtTreeSet.mem_toList
    rw [Bool.or_eq_true, ih, List.any_eq_true]
    constructor
    · rintro (⟨b, hb, hbt⟩ | ⟨a, ha, b, hb, hab⟩)
      · have hcell := (hleads b).mpr ((hmem b).mp hb)
        exact ⟨cell, List.mem_cons_self, b, Std.ExtTreeSet.contains_iff_mem.mp hbt, .single hcell⟩
      · rcases List.mem_append.mp ha with ha | ha
        · have hcell := (hleads a).mpr ((hmem a).mp ha)
          exact ⟨cell, List.mem_cons_self, b, hb, .head hcell (reaches_of_erase hab)⟩
        · exact ⟨a, List.mem_cons_of_mem _ ha, b, hb, reaches_of_erase hab⟩
    · rintro ⟨a, ha, b, hb, hab⟩
      -- a chain that uses the entry of `cell` begins again at its last visit there
      rcases reaches_erase (c := cell) hab with hab' | hcb | ⟨d, hcd, hdb⟩
      · rcases List.mem_cons.mp ha with rfl | ha
        · exact absurd hab' (not_reaches_of_none Std.ExtTreeMap.getElem?_erase_self)
        · exact Or.inr ⟨a, List.mem_append_right _ ha, b, hb, hab'⟩
      · exact Or.inl ⟨b, (hmem b).mpr ((hleads b).mp hcb), Std.ExtTreeSet.contains_iff_mem.mpr hb⟩
      · exact Or.inr ⟨d, List.mem_append_left _ ((hmem d).mpr ((hleads d).mp hcd)), b, hb, hdb⟩

end Links

end FormulaSheet
