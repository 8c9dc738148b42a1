import FormulaSheet.Proofs.Formula.Written
import Mathlib.Data.List.Chain

/-!
# Tokens with gaps between them

`Writes` says which characters write given tokens, and leaves open which tokens can be written. Here
tokens are put down one by one, each in its own spelling and followed by a gap of any length, and
the text is taken apart into just these tokens. Two things are asked. The tokens must be regular:
other tokens are found in no text. And two words that follow each other must be kept apart by at
least one character, since otherwise they are one word. Everywhere else the gaps may be empty: a
parenthesis or a quote ends a word, and itself needs no end.
-/

namespace FormulaSheet.Token

variable {gap : List Char} {row : List (Token × List Char)}

/-! ## Regular tokens -/

instance (word : String) : Decidable (IsWord word) :=
  decidable_of_iff (word.toList ≠ [] ∧ word.toList.any isBreak = false)
    ⟨fun h ↦ ⟨h.1, by simpa using h.2⟩, fun h ↦ ⟨h.1, by simpa using h.2⟩⟩

instance (cs : List Char) : Decidable (IsSqueezed cs) :=
  decidable_of_iff (squeeze cs = cs) ⟨fun h ↦ h ▸ isSqueezed_squeeze cs, fun h ↦ h.squeeze_eq⟩

instance : DecidablePred IsRegular
  | .openParen => .isTrue trivial
  | .closeParen => .isTrue trivial
  | .quoted s => inferInstanceAs (Decidable ('"' ∉ s.toList ∧ IsSqueezed s.toList))
  | .value word => inferInstanceAs (Decidable (IsWord word))

/-! ## Rows of tokens -/

/-- The characters are a gap, which may be empty. -/
def IsGap (cs : List Char) : Prop := ∀ c ∈ cs, isGap c = true

instance (cs : List Char) : Decidable (IsGap cs) :=
  decidable_of_iff (cs.all isGap = true) List.all_eq_true

/-- Whether a token is a word. -/
def isValue : Token → Bool
  | .value _ => true
  | .openParen => false
  | .closeParen => false
  | .quoted _ => false

/-- How a token is spelled. -/
def spelling : Token → List Char
  | .openParen => ['(']
  | .closeParen => [')']
  | .quoted s => '"' :: (s.toList ++ ['"'])
  | .value word => word.toList

/-- The tokens of a row, each with the gap behind it. -/
def spell (row : List (Token × List Char)) : List Char :=
  row.flatMap fun p ↦ p.1.spelling ++ p.2

/-- The text of a row behind a first gap. -/
def layOut (gap : List Char) (row : List (Token × List Char)) : String :=
  String.ofList (gap ++ spell row)

/-- Two neighbours in a row do not run into each other: between words there is a gap. -/
def Apart (p q : Token × List Char) : Prop :=
  p.1.isValue = true → q.1.isValue = true → p.2 ≠ []

instance : DecidableRel Apart := fun p q ↦
  inferInstanceAs (Decidable (p.1.isValue = true → q.1.isValue = true → p.2 ≠ []))

theorem spell_cons (p : Token × List Char) (row : List (Token × List Char)) :
    spell (p :: row) = p.1.spelling ++ (p.2 ++ spell row) := by
  rw [spell, List.flatMap_cons, ← spell, List.append_assoc]

/-! ## What rows write -/

theorem Writes.gaps {ts : List Token} {cs : List Char} (hgap : IsGap gap) (h : Writes ts cs) :
    Writes ts (gap ++ cs) := by
  induction gap with
  | nil => exact h
  | cons c gap ih =>
    rw [IsGap, List.forall_mem_cons] at hgap
    exact .gap hgap.1 (ih hgap.2)

theorem isBreak_of_mem_head?_spelling {t : Token} (ht : t.isValue = false) (cs : List Char) :
    ∀ c ∈ (t.spelling ++ cs).head?, isBreak c = true := by
  intro c hc
  rw [isBreak_iff]
  cases t with
  | openParen => exact .inr (.inl (Option.some.inj hc).symm)
  | closeParen => exact .inr (.inr (.inl (Option.some.inj hc).symm))
  | quoted s => exact .inr (.inr (.inr (Option.some.inj hc).symm))
  | value word => cases ht

theorem isBreak_of_mem_head?_spell {word : String} (hgap : IsGap gap)
    (hapart : ((value word, gap) :: row).IsChain Apart) :
    ∀ c ∈ (gap ++ spell row).head?, isBreak c = true := by
  cases gap with
  | cons c gap =>
    intro d hd
    obtain rfl : c = d := Option.some.inj hd
    exact isBreak_iff.mpr (.inl (hgap c List.mem_cons_self))
  | nil =>
    cases row with
    | nil => exact fun c hc ↦ absurd hc (by simp [spell])
    | cons q row =>
      rw [List.isChain_cons_cons] at hapart
      have hvalue : q.1.isValue = false :=
        Bool.eq_false_iff.mpr fun hvalue ↦ hapart.1 rfl hvalue rfl
      rw [List.nil_append, spell_cons]
      exact isBreak_of_mem_head?_spelling hvalue _

theorem writes_spell (hregular : ∀ p ∈ row, p.1.IsRegular) (hgaps : ∀ p ∈ row, IsGap p.2)
    (hapart : row.IsChain Apart) : Writes (row.map Prod.fst) (spell row) := by
  induction row with
  | nil => exact .nil
  | cons p row ih =>
    rw [List.forall_mem_cons] at hregular hgaps
    obtain ⟨t, gap⟩ := p
    have hrest : Writes (row.map Prod.fst) (gap ++ spell row) :=
      (ih hregular.2 hgaps.2 hapart.tail).gaps hgaps.1
    rw [List.map_cons, spell_cons]
    cases t with
    | openParen => exact hrest.openParen
    | closeParen => exact hrest.closeParen
    | quoted s =>
      obtain ⟨hquote, hsqueezed⟩ := hregular.1
      have hquoted := hrest.quoted hquote
      rw [hsqueezed.squeeze_eq, String.ofList_toList] at hquoted
      simpa [spelling] using hquoted
    | value word =>
      exact hrest.value hregular.1 (isBreak_of_mem_head?_spell hgaps.1 hapart)

/-! ## Taking rows apart -/

/-- **Tokens and gaps.** The tokens of a text are regular. Conversely, if regular tokens are written
one behind the other, with gaps wherever one likes but at least between two words that follow each
other, then the text is taken apart into just these tokens. -/
theorem ofText_layOut :
    (∀ text ts, ofText text = .ok ts → ∀ t ∈ ts, t.IsRegular) ∧
      ∀ gap row, (∀ t ∈ row.map Prod.fst, t.IsRegular) → IsGap gap →
        (∀ between ∈ row.map Prod.snd, IsGap between) → row.IsChain Apart →
        ofText (layOut gap row) = .ok (row.map Prod.fst) := by
  refine ⟨fun text ts hts ↦ (ofText_eq_ok_iff.mp hts).isRegular,
    fun gap row hregular hgap hgaps hapart ↦ ?_⟩
  rw [List.forall_mem_map] at hregular hgaps
  rw [ofText_eq_ok_iff, layOut, String.toList_ofList]
  exact (writes_spell hregular hgaps hapart).gaps hgap

/-- Words, a quoted text and a parenthesis, with no gap where there need be none. -/
theorem ofText_layOut_dense :
    let row := [(.value "é", []), (.quoted "(a b", []), (.value "1", ['\t', '\n']),
      (.value "A1", []), (.openParen, [])]
    layOut [' '] row = " é\"(a b\"1\t\nA1(" ∧
      ofText " é\"(a b\"1\t\nA1(" =
        .ok [.value "é", .quoted "(a b", .value "1", .value "A1", .openParen] ∧
      (value "é").IsRegular ∧ (quoted "(a b").IsRegular := by
  intro row
  have htext : layOut [' '] row = " é\"(a b\"1\t\nA1(" := by decide
  have hread := ofText_layOut.2 [' '] row (by decide) (by decide) (by decide) (by decide)
  rw [htext] at hread
  have hregular := ofText_layOut.1 _ _ hread
  exact ⟨htext, hread, hregular _ (by simp [row]), hregular _ (by simp [row])⟩

end FormulaSheet.Token
