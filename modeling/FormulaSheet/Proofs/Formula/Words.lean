import FormulaSheet.Proofs.Formula.Grammar

/-!
# Words and names

A word is recognised by the form it has as a whole: digits, two forms of an address around a colon,
or one such form. A range by itself is read in another way: its text is cut at the first colon,
wherever that is, and both parts are read. `byForm` is the first way, spelled out as a scan from
left to right, and `halves?_eq_some_iff` says which words it takes for ranges.

The two ways meet because the form of an address has no colon in it. A text with a second colon has
one in the part behind the first, and nothing but the two corners is left if there is none. So
exactly the names of cells and ranges are read as references and ranges, and what names nothing is
refused by all three readers.
-/

namespace FormulaSheet

/-! ## Forms -/

namespace Address

variable {text : String} {cs form rest : List Char}

/-- Letters and digits, at least one of each. -/
def IsForm (cs : List Char) : Prop :=
  ∃ letters digits, cs = letters ++ digits ∧
    (letters ≠ [] ∧ ∀ c ∈ letters, Column.isLetter c = true) ∧
    (digits ≠ [] ∧ ∀ c ∈ digits, isDigit c = true)

theorem hasForm_iff_isForm : HasForm text ↔ IsForm text.toList := by
  constructor
  · rintro ⟨hletters, hdigits⟩
    exact ⟨_, _, toList_eq_split text, ⟨hletters, fun _ ↦ isLetter_of_mem_split⟩,
      isDigits_iff.mp hdigits⟩
  · rintro ⟨letters, digits, htext, ⟨hletters, hallLetters⟩, hdigits, hallDigits⟩
    rw [HasForm, split_of_append htext hallLetters hallDigits]
    exact ⟨hletters, isDigits_iff.mpr ⟨hdigits, hallDigits⟩⟩

theorem IsForm.colon_not_mem (h : IsForm cs) : ∀ c ∈ cs, c ≠ ':' := by
  obtain ⟨letters, digits, rfl, ⟨-, hletters⟩, -, hdigits⟩ := h
  exact Range.colon_not_mem_of_append hletters hdigits

/-- The form of an address in front, with all the digits that belong to it, and what follows. -/
def scanForm (cs : List Char) : Option (List Char × List Char) :=
  let letters := cs.takeWhile Column.isLetter
  let behind := cs.dropWhile Column.isLetter
  let digits := behind.takeWhile isDigit
  if letters = [] ∨ digits = [] then none
  else some (letters ++ digits, behind.dropWhile isDigit)

/-- What is scanned is the form, and it goes on as long as there are digits. -/
theorem scanForm_eq_some_iff :
    scanForm cs = some (form, rest) ↔
      cs = form ++ rest ∧ IsForm form ∧ ∀ c ∈ rest.head?, isDigit c = false := by
  rw [scanForm]
  constructor
  · intro h
    split at h
    next => cases h
    next hne =>
      obtain ⟨hletters, hdigits⟩ := not_or.mp hne
      obtain ⟨rfl, rfl⟩ := Prod.mk.inj (Option.some.inj h)
      refine ⟨?_, ⟨_, _, rfl, ⟨hletters, ?_⟩, hdigits, ?_⟩, fun c hc ↦ ?_⟩
      · rw [List.append_assoc, List.takeWhile_append_dropWhile, List.takeWhile_append_dropWhile]
      · exact List.all_eq_true.mp List.all_takeWhile
      · exact List.all_eq_true.mp List.all_takeWhile
      · exact eq_false_of_mem_head?_dropWhile hc
  · rintro ⟨rfl, ⟨letters, digits, rfl, ⟨hletters, hallLetters⟩, hdigits, hallDigits⟩, hrest⟩
    have hhead : ∀ c ∈ (digits ++ rest).head?, Column.isLetter c = false := fun c hc ↦ by
      rw [List.head?_append_of_ne_nil _ hdigits] at hc
      exact isLetter_of_isDigit (hallDigits c (List.mem_of_mem_head? hc))
    rw [List.append_assoc, takeWhile_append_eq hallLetters hhead,
      dropWhile_append_eq hallLetters hhead, takeWhile_append_eq hallDigits hrest,
      dropWhile_append_eq hallDigits hrest, if_neg (not_or.mpr ⟨hletters, hdigits⟩)]

end Address

namespace Expr

open Address (IsForm scanForm)

variable {word first last : String}

/-! ## Words by their form -/

/-- The halves of a word that has the form of a range. -/
def halves? (word : String) : Option (String × String) :=
  match scanForm word.toList with
  | some (first, ':' :: rest) =>
    match scanForm rest with
    | some (last, []) => some (String.ofList first, String.ofList last)
    | _ => none
  | _ => none

/-- The form of a range is that of two addresses around a colon. -/
theorem halves?_eq_some_iff :
    halves? word = some (first, last) ↔
      word = first ++ ":" ++ last ∧ Address.HasForm first ∧ Address.HasForm last := by
  rw [Address.hasForm_iff_isForm, Address.hasForm_iff_isForm]
  constructor
  · intro h
    rw [halves?] at h
    split at h
    next front rest hfront =>
      split at h
      next back hback =>
        obtain ⟨rfl, rfl⟩ := Prod.mk.inj (Option.some.inj h)
        obtain ⟨hword, hfirst, -⟩ := Address.scanForm_eq_some_iff.mp hfront
        obtain ⟨rfl, hlast, -⟩ := Address.scanForm_eq_some_iff.mp hback
        rw [String.toList_ofList, String.toList_ofList, ← String.toList_inj, hword]
        exact ⟨by simp, hfirst, hlast⟩
      next => cases h
    next => cases h
  · rintro ⟨rfl, hfirst, hlast⟩
    have hfront :
        scanForm (first ++ ":" ++ last).toList = some (first.toList, ':' :: last.toList) :=
      Address.scanForm_eq_some_iff.mpr ⟨by simp, hfirst, by simp [Address.isDigit]⟩
    have hback : scanForm last.toList = some (last.toList, []) :=
      Address.scanForm_eq_some_iff.mpr ⟨by simp, hlast, by simp⟩
    simp only [halves?, hfront, hback, String.ofList_toList]

/-- Reads a word by the form that it has as a whole. -/
def byForm (word : String) : Except ParseFault Expr :=
  if Address.isDigits word.toList then
    .ok (.number (Binary64.ofNat (Nat.ofDigitChars 10 word.toList 0)))
  else match halves? word with
    | some (first, last) => do
      let first ← (Address.parse first).mapError .address
      let last ← (Address.parse last).mapError .address
      ((Range.ofCorners first last).mapError .address).map .range
    | none =>
      if Address.HasForm word then ((Address.parse word).mapError .address).map .cell
      else .error (.unknownValue word)

theorem not_hasForm_of_halves? (h : halves? word = some (first, last)) :
    ¬Address.HasForm word := by
  obtain ⟨rfl, -, -⟩ := halves?_eq_some_iff.mp h
  rw [Address.hasForm_iff_isForm]
  exact fun hform ↦ hform.colon_not_mem ':' (by simp) rfl

theorem split_eq_of_halves? (h : halves? word = some (first, last)) :
    Range.split word = some (first, last) := by
  obtain ⟨rfl, hfirst, -⟩ := halves?_eq_some_iff.mp h
  exact Range.split_of_append (Address.hasForm_iff_isForm.mp hfirst).colon_not_mem

/-- **Words are read by their form**, with the same faults. -/
theorem ofWord_eq_byForm (word : String) : ofWord word = byForm word := by
  rw [ofWord, byForm]
  congr 1
  cases hhalves : halves? word with
  | some halves =>
    obtain ⟨first, last⟩ := halves
    have hforms := (halves?_eq_some_iff.mp hhalves).2
    rw [if_neg (not_hasForm_of_halves? hhalves), split_eq_of_halves? hhalves]
    dsimp only
    rw [if_pos hforms, Range.parse, split_eq_of_halves? hhalves]
    dsimp only
    cases Address.parse first with
    | error cause => rfl
    | ok a =>
      cases Address.parse last with
      | error cause => rfl
      | ok b => rfl
  | none =>
    congr 1
    cases hsplit : Range.split word with
    | none => rfl
    | some parts =>
      obtain ⟨first, last⟩ := parts
      refine if_neg fun hforms ↦ ?_
      have hsome := halves?_eq_some_iff.mpr ⟨Range.eq_of_split hsplit, hforms⟩
      rw [hhalves] at hsome
      cases hsome

end Expr

/-! ## Texts that name nothing -/

namespace Address

variable {text : String} {a : Address}

/-- The form of an address with a column or a row too large to be read. -/
def IsOutside (cs : List Char) : Prop :=
  ∃ letters digits, cs = letters ++ digits ∧
    (letters ≠ [] ∧ ∀ c ∈ letters, Column.isLetter c = true) ∧
    (digits ≠ [] ∧ ∀ c ∈ digits, isDigit c = true) ∧
    (Column.limit < Column.value letters ∨ UInt32.size ≤ Nat.ofDigitChars 10 digits 0)

theorem IsOutside.isForm {cs : List Char} (h : IsOutside cs) : IsForm cs := by
  obtain ⟨letters, digits, hcs, hletters, hdigits, -⟩ := h
  exact ⟨letters, digits, hcs, hletters, hdigits⟩

theorem Names.unique {b : Address} (ha : a.Names text) (hb : b.Names text) : a = b := by
  have hparse := parse_eq_ok_iff.mpr ha
  rw [parse_eq_ok_iff.mpr hb] at hparse
  exact (Except.ok.inj hparse).symm

theorem IsOutside.not_names (h : IsOutside text.toList) : ¬a.Names text := by
  obtain ⟨letters, digits, htext, ⟨-, hletters⟩, ⟨-, hdigits⟩, houtside⟩ := h
  rintro ⟨letters', digits', htext', hnamed⟩
  have hsplit := split_of_append htext hletters hdigits
  rw [split_of_append htext' hnamed.isLetter hnamed.isDigit] at hsplit
  obtain ⟨rfl, rfl⟩ := Prod.mk.inj hsplit
  rcases houtside with hcol | hrow
  · have hlt := hnamed.col_lt
    rw [hnamed.value_eq] at hcol
    omega
  · have hlt := a.row.toNat_lt_size
    rw [hnamed.ofDigitChars_eq] at hrow
    omega

end Address

namespace Range

variable {text first last : String} {r : Range} {a : Address}

theorem Names.count_colon (h : r.Names text) : text.toList.count ':' = 1 := by
  obtain ⟨first, last, rfl, hfirst, hlast, -⟩ := h
  have hnone : ∀ {a : Address} {part : String}, a.Names part → part.toList.count ':' = 0 :=
    fun hpart ↦ List.count_eq_zero.mpr fun hmem ↦ colon_not_mem_of_names hpart ':' hmem rfl
  simp [List.count_append, hnone hfirst, hnone hlast]

theorem Names.of_append (h : r.Names (first ++ ":" ++ last)) :
    r.first.Names first ∧ r.last.Names last ∧ r.Ordered := by
  have hcount := h.count_colon
  rw [String.toList_append, String.toList_append, List.count_append, List.count_append] at hcount
  have hcolon : ":".toList.count ':' = 1 := by decide
  have hnone : first.toList.count ':' = 0 := by omega
  have hsplit : split (first ++ ":" ++ last) = some (first, last) := split_of_append
    fun c hc hcolon ↦ List.count_eq_zero.mp hnone (hcolon ▸ hc)
  obtain ⟨first', last', htext, hfirst, hlast, hordered⟩ := h
  rw [htext, split_of_append (colon_not_mem_of_names hfirst)] at hsplit
  obtain ⟨rfl, rfl⟩ := Prod.mk.inj (Option.some.inj hsplit)
  exact ⟨hfirst, hlast, hordered⟩

/-- Texts that look like the name of a cell or a range and are none. -/
inductive Nameless (text : String) : Prop
  /-- There is more than one colon. -/
  | colons (h : 2 ≤ text.toList.count ':')
  /-- It would be a cell, but a column or a row is too large. -/
  | outside (h : Address.IsOutside text.toList)
  /-- It would be a range, but in a corner a column or a row is too large. -/
  | corner {first last : String} (htext : text = first ++ ":" ++ last)
    (h : Address.IsOutside first.toList ∨ Address.IsOutside last.toList)
  /-- On one side of a colon there are digits only. -/
  | digits {first last : String} (htext : text = first ++ ":" ++ last)
    (h : Address.isDigits first.toList = true ∨ Address.isDigits last.toList = true)
  /-- The corners are not in order. -/
  | reversed {first last : String} {a b : Address} (htext : text = first ++ ":" ++ last)
    (hfirst : a.Names first) (hlast : b.Names last) (h : b.col < a.col ∨ b.row < a.row)

theorem not_names_of_isDigits (h : Address.isDigits text.toList = true) : ¬a.Names text := by
  intro hnames
  rw [hnames.hasForm.isDigits_eq_false] at h
  cases h

namespace Nameless

/-- All but one kind of these texts have a colon. -/
theorem outside_or_colon_mem (h : Nameless text) :
    Address.IsOutside text.toList ∨ ':' ∈ text.toList := by
  cases h with
  | colons hcolons => exact Or.inr (List.count_pos_iff.mp (Nat.lt_of_lt_of_le Nat.two_pos hcolons))
  | outside houtside => exact Or.inl houtside
  | corner htext | digits htext | reversed htext => exact Or.inr (by simp [htext])

theorem isDigits_eq_false (h : Nameless text) : Address.isDigits text.toList = false := by
  rcases h.outside_or_colon_mem with houtside | hcolon
  · exact (Address.hasForm_iff_isForm.mpr houtside.isForm).isDigits_eq_false
  · rw [Bool.eq_false_iff, ne_eq, Address.isDigits_iff]
    exact fun hdigits ↦ colon_ne_of_isDigit (hdigits.2 ':' hcolon) rfl

theorem not_names_address (h : Nameless text) : ¬a.Names text := by
  rcases h.outside_or_colon_mem with houtside | hcolon
  · exact houtside.not_names
  · exact fun hnames ↦ colon_not_mem_of_names hnames ':' hcolon rfl

theorem not_names (h : Nameless text) : ¬r.Names text := by
  intro hnames
  cases h with
  | colons hcolons =>
    rw [hnames.count_colon] at hcolons
    omega
  | outside houtside =>
    have hcolon : ':' ∈ text.toList := List.count_pos_iff.mp (hnames.count_colon ▸ Nat.one_pos)
    exact houtside.isForm.colon_not_mem ':' hcolon rfl
  | corner htext houtside =>
    subst htext
    obtain ⟨hfirst, hlast, -⟩ := hnames.of_append
    exact houtside.elim (fun h ↦ h.not_names hfirst) fun h ↦ h.not_names hlast
  | digits htext hdigits =>
    subst htext
    obtain ⟨hfirst, hlast, -⟩ := hnames.of_append
    exact hdigits.elim (fun h ↦ not_names_of_isDigits h hfirst)
      fun h ↦ not_names_of_isDigits h hlast
  | reversed htext ha hb hreversed =>
    subst htext
    obtain ⟨hfirst, hlast, hcols, hrows⟩ := hnames.of_append
    rw [ha.unique hfirst, hb.unique hlast] at hreversed
    exact hreversed.elim (UInt32.not_lt.mpr hcols) (UInt32.not_lt.mpr hrows)

end Nameless

end Range

/-! ## Words that are names -/

namespace Expr

/-- **Words and names.** A word is read by its form. It is read as a reference if and only if it is
read as an address, to this address, and as a range if and only if it is read as this range. A text
that looks like a name and is none is refused by all three readers. -/
theorem ofWord_iff_parse (text : String) :
    ofWord text = byForm text ∧
    (∀ a, ofWord text = .ok (.cell a) ↔ Address.parse text = .ok a) ∧
    (∀ r, ofWord text = .ok (.range r) ↔ Range.parse text = .ok r) ∧
    (Range.Nameless text →
      (∀ e, ofWord text ≠ .ok e) ∧ (∀ a, Address.parse text ≠ .ok a) ∧
        ∀ r, Range.parse text ≠ .ok r) := by
  simp only [ne_eq, ofWord_eq_ok_iff, Address.parse_eq_ok_iff, Range.parse_eq_ok_iff]
  refine ⟨ofWord_eq_byForm text, fun a ↦ ⟨fun h ↦ ?_, .cell⟩, fun r ↦ ⟨fun h ↦ ?_, .range⟩,
    fun h ↦ ⟨fun e hdenotes ↦ ?_, fun a ↦ h.not_names_address, fun r ↦ h.not_names⟩⟩
  · cases h with
    | cell hnames => exact hnames
  · cases h with
    | range hnames => exact hnames
  · cases hdenotes with
    | number hdigits =>
      rw [h.isDigits_eq_false] at hdigits
      cases hdigits
    | cell hnames => exact h.not_names_address hnames
    | range hnames => exact h.not_names hnames

/-- A reference and a range with leading zeros, and a text of each kind that names nothing. -/
theorem ofWord_iff_parse_zeros :
    (ofWord "AB07" = .ok (.cell ⟨27, 7⟩) ∧ Address.parse "AB07" = .ok ⟨27, 7⟩) ∧
    (ofWord "A0:AB07" = .ok (.range ⟨⟨0, 0⟩, ⟨27, 7⟩⟩) ∧
      Range.parse "A0:AB07" = .ok ⟨⟨0, 0⟩, ⟨27, 7⟩⟩) ∧
    ∀ text ∈ ["A1:B2:C3", "A4294967296", "A1:MWLQKWV1", "A1:12", "B1:A2"],
      Range.Nameless text ∧ (∀ e, ofWord text ≠ .ok e) ∧ ∀ r, Range.parse text ≠ .ok r := by
  have hcell : Address.parse "AB07" = .ok ⟨27, 7⟩ := by decide
  have hrange : Range.parse "A0:AB07" = .ok ⟨⟨0, 0⟩, ⟨27, 7⟩⟩ := by decide
  have hcolons : Range.Nameless "A1:B2:C3" := .colons (by decide)
  have hrow : Range.Nameless "A4294967296" :=
    .outside ⟨['A'], "4294967296".toList, rfl, ⟨by decide, List.all_eq_true.mp rfl⟩,
      ⟨by decide, List.all_eq_true.mp rfl⟩, Or.inr (by decide)⟩
  have hcol : Range.Nameless "A1:MWLQKWV1" :=
    @Range.Nameless.corner _ "A1" "MWLQKWV1" rfl
      (Or.inr ⟨"MWLQKWV".toList, ['1'], rfl, ⟨by decide, List.all_eq_true.mp rfl⟩,
        ⟨by decide, List.all_eq_true.mp rfl⟩, Or.inl (by decide)⟩)
  have hdigits : Range.Nameless "A1:12" :=
    @Range.Nameless.digits _ "A1" "12" rfl (Or.inr (by decide))
  have hb1 : Address.parse "B1" = .ok ⟨1, 1⟩ := by decide
  have ha2 : Address.parse "A2" = .ok ⟨0, 2⟩ := by decide
  have hreversed : Range.Nameless "B1:A2" :=
    @Range.Nameless.reversed _ "B1" "A2" _ _ rfl (Address.parse_eq_ok_iff.mp hb1)
      (Address.parse_eq_ok_iff.mp ha2) (Or.inl (by decide))
  refine ⟨⟨((ofWord_iff_parse _).2.1 _).mpr hcell, hcell⟩,
    ⟨((ofWord_iff_parse _).2.2.1 _).mpr hrange, hrange⟩, ?_⟩
  have hrefused : ∀ {text : String}, Range.Nameless text →
      Range.Nameless text ∧ (∀ e, ofWord text ≠ .ok e) ∧ ∀ r, Range.parse text ≠ .ok r :=
    fun h ↦ ⟨h, ((ofWord_iff_parse _).2.2.2 h).1, ((ofWord_iff_parse _).2.2.2 h).2.2⟩
  simp only [List.forall_mem_cons, List.not_mem_nil, false_imp_iff, implies_true, and_true]
  exact ⟨hrefused hcolons, hrefused hrow, hrefused hcol, hrefused hdigits, hrefused hreversed⟩

end Expr

end FormulaSheet
