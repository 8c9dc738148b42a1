import FormulaSheet.Proofs.Formula.Written
import FormulaSheet.Text.Upper
import Mathlib.Data.Nat.Bitwise

/-!
# Capitals of capitals

Capital letters are their own capitals, so that putting a text into capitals twice is the same as
doing it once. None of them is a gap, a parenthesis or a quote, so that words stay words.

Outside ASCII both are properties of the tables: no capital in them is a letter in them, and every
capital that is ASCII is one of the twenty-six. The first is about two lists of more than a thousand
codes each. They are compared as sets, a set of codes being a number whose bits are its members.
-/

namespace FormulaSheet

namespace Upper

open Token (isBreak)

/-! ## Sets of codes -/

/-- The codes as the bits of a number. -/
def codeSet (codes : List Nat) : Nat := codes.foldr (fun n set ↦ 1 <<< n ||| set) 0

theorem testBit_codeSet {codes : List Nat} {n : Nat} (h : n ∈ codes) :
    (codeSet codes).testBit n = true := by
  induction codes with
  | nil => exact absurd h List.not_mem_nil
  | cons m codes ih =>
    rw [codeSet, List.foldr_cons, ← codeSet, Nat.testBit_lor, Bool.or_eq_true]
    rcases List.mem_cons.mp h with rfl | h
    · left
      rw [Nat.one_shiftLeft, Nat.testBit_two_pow_self]
    · exact .inr (ih h)

/-- Sets without a common bit have no common member. -/
theorem not_mem_of_codeSet {as bs : List Nat} (h : codeSet as &&& codeSet bs = 0) {n : Nat}
    (ha : n ∈ as) : n ∉ bs := by
  intro hb
  have hbit : (codeSet as &&& codeSet bs).testBit n = true := by
    rw [Nat.testBit_land, testBit_codeSet ha, testBit_codeSet hb, Bool.and_true]
  rw [h, Nat.zero_testBit] at hbit
  cases hbit

/-! ## The tables -/

/-- The places of the letters of a run, counted from the first. -/
def Run.places (r : Run) : List Nat :=
  (List.range (r.last - r.first + 1)).filter (· % r.step == 0)

/-- The letters in the tables. -/
def letters : List Nat :=
  (runs.flatMap fun r ↦ r.places.map (r.first + ·)) ++ expansions.map (·.1)

/-- The capitals in the tables. -/
def capitals : List Nat :=
  (runs.flatMap fun r ↦ r.places.map (r.image + ·)) ++ expansions.flatMap (·.2)

theorem not_mem_letters {n : Nat} (h : n ∈ capitals) : n ∉ letters :=
  -- each list is gone through once; comparing them pairwise would take a million steps
  not_mem_of_codeSet (by decide +kernel) h

theorem expansions_ne_nil : ∀ p ∈ expansions, p.2 ≠ [] := by
  decide

theorem capitals_all : (capitals.all fun n ↦
    n.isValidChar && ((65 ≤ n && n ≤ 90) || 128 ≤ n)) = true := by
  decide +kernel

theorem Run.mem_places {r : Run} {n : Nat} (h : r.covers n = true) : n - r.first ∈ r.places := by
  rw [covers, Bool.and_eq_true, Bool.and_eq_true, decide_eq_true_eq, decide_eq_true_eq] at h
  rw [places, List.mem_filter, List.mem_range]
  exact ⟨by omega, h.2⟩

theorem mem_letters_of_covers {r : Run} (hr : r ∈ runs) {n : Nat} (h : r.covers n = true) :
    n ∈ letters := by
  have hfirst : r.first ≤ n := by
    rw [Run.covers, Bool.and_eq_true, Bool.and_eq_true, decide_eq_true_eq] at h
    exact h.1.1
  refine List.mem_append_left _ (List.mem_flatMap.mpr ⟨r, hr, List.mem_map.mpr ?_⟩)
  exact ⟨n - r.first, Run.mem_places h, Nat.add_sub_cancel' hfirst⟩

theorem mem_capitals_of_covers {r : Run} (hr : r ∈ runs) {n : Nat} (h : r.covers n = true) :
    r.image + (n - r.first) ∈ capitals := by
  refine List.mem_append_left _ (List.mem_flatMap.mpr ⟨r, hr, List.mem_map.mpr ?_⟩)
  exact ⟨n - r.first, Run.mem_places h, rfl⟩

theorem mem_of_lookup {n : Nat} {codes : List Nat} (h : expansions.lookup n = some codes) :
    (n, codes) ∈ expansions := by
  obtain ⟨before, after, hsplit, -⟩ := List.lookup_eq_some_iff.mp h
  rw [hsplit]
  exact List.mem_append_right _ List.mem_cons_self

theorem mem_capitals_of_lookup {m n : Nat} {codes : List Nat}
    (h : expansions.lookup m = some codes) (hn : n ∈ codes) : n ∈ capitals := by
  refine List.mem_append_right _ (List.mem_flatMap.mpr ⟨(m, codes), ?_, hn⟩)
  exact mem_of_lookup h

/-! ## Characters -/

theorem ofChar_of_not_mem {c : Char} (hc : 128 ≤ c.toNat) (h : c.toNat ∉ letters) :
    ofChar c = [c] := by
  have hlookup : expansions.lookup c.toNat = none := by
    rw [List.lookup_eq_none_iff]
    intro p hp
    rw [bne_iff_ne]
    exact fun heq ↦ h (List.mem_append_right _ (heq ▸ List.mem_map_of_mem hp))
  have hfind : runs.find? (·.covers c.toNat) = none := by
    rw [List.find?_eq_none]
    exact fun r hr hcovers ↦ h (mem_letters_of_covers hr hcovers)
  rw [ofChar, if_neg (Nat.not_lt.mpr hc), hlookup, hfind]

/-- Every character that the mapping leads to is a character of ASCII, a capital from the tables or
the character that it started from. -/
theorem ofChar_cases {c d : Char} (h : d ∈ ofChar c) :
    (c.toNat < 128 ∧ d = c.toUpper) ∨ (∃ n ∈ capitals, d = Char.ofNat n) ∨
      (d = c ∧ ofChar c = [c]) := by
  rw [ofChar] at h
  split at h
  next hascii => exact .inl ⟨hascii, List.mem_singleton.mp h⟩
  next hascii =>
    split at h
    next codes hlookup =>
      obtain ⟨n, hn, rfl⟩ := List.mem_map.mp h
      exact .inr (.inl ⟨n, mem_capitals_of_lookup hlookup hn, rfl⟩)
    next hlookup =>
      split at h
      next r hfind =>
        have hcovers : r.covers c.toNat = true :=
          List.find?_some (p := fun r : Run ↦ r.covers c.toNat) hfind
        have hcapital := mem_capitals_of_covers (List.mem_of_find?_eq_some hfind) hcovers
        exact .inr (.inl ⟨_, hcapital, List.mem_singleton.mp h⟩)
      next hfind =>
        rw [ofChar, if_neg hascii, hlookup, hfind]
        exact .inr (.inr ⟨List.mem_singleton.mp h, rfl⟩)

theorem toNat_of_mem_capitals {n : Nat} (h : n ∈ capitals) :
    (Char.ofNat n).toNat = n ∧ (65 ≤ n ∧ n ≤ 90 ∨ 128 ≤ n) := by
  have hn := List.all_eq_true.mp capitals_all n h
  simp only [Bool.and_eq_true, Bool.or_eq_true, decide_eq_true_eq] at hn
  refine ⟨?_, hn.2⟩
  rw [Char.ofNat, dif_pos hn.1]
  rfl

theorem ofChar_ofNat_of_mem {n : Nat} (h : n ∈ capitals) :
    ofChar (Char.ofNat n) = [Char.ofNat n] := by
  obtain ⟨hcode, ⟨hfirst, hlast⟩ | hlarge⟩ := toNat_of_mem_capitals h
  · have hascii : ∀ n < 91, 65 ≤ n → ofChar (Char.ofNat n) = [Char.ofNat n] := by decide
    exact hascii n (Nat.lt_succ_of_le hlast) hfirst
  · rw [← hcode] at hlarge h
    exact ofChar_of_not_mem hlarge (not_mem_letters h)

theorem isBreak_ofNat_of_mem {n : Nat} (h : n ∈ capitals) : isBreak (Char.ofNat n) = false := by
  obtain ⟨hcode, hn⟩ := toNat_of_mem_capitals h
  refine Token.isBreak_eq_false (p := fun c ↦ 65 ≤ c.toNat) (by decide) ?_
  rw [hcode, decide_eq_true_eq]
  omega

theorem ofChar_of_mem {c d : Char} (h : d ∈ ofChar c) : ofChar d = [d] := by
  rcases ofChar_cases h with ⟨hc, rfl⟩ | ⟨n, hn, rfl⟩ | ⟨rfl, hd⟩
  · have hascii : ∀ n < 128, ofChar (Char.ofNat n).toUpper = [(Char.ofNat n).toUpper] := by decide
    have hfixed := hascii c.toNat hc
    rwa [Char.ofNat_toNat] at hfixed
  · exact ofChar_ofNat_of_mem hn
  · exact hd

theorem isBreak_of_mem {c d : Char} (hc : isBreak c = false) (h : d ∈ ofChar c) :
    isBreak d = false := by
  rcases ofChar_cases h with ⟨hascii, rfl⟩ | ⟨n, hn, rfl⟩ | ⟨rfl, -⟩
  · have hall : ∀ n < 128, isBreak (Char.ofNat n) = false →
        isBreak (Char.ofNat n).toUpper = false := by decide
    have hupper := hall c.toNat hascii
    rw [Char.ofNat_toNat] at hupper
    exact hupper hc
  · exact isBreak_ofNat_of_mem hn
  · exact hc

theorem ofChar_ne_nil (c : Char) : ofChar c ≠ [] := by
  rw [ofChar]
  split
  next => exact List.cons_ne_nil _ _
  next =>
    split
    next codes hlookup =>
      exact fun hnil ↦ expansions_ne_nil _ (mem_of_lookup hlookup) (List.map_eq_nil_iff.mp hnil)
    next =>
      split
      next => exact List.cons_ne_nil _ _
      next => exact List.cons_ne_nil _ _

theorem ofChars_eq_self {cs : List Char} (h : ∀ c ∈ cs, ofChar c = [c]) : ofChars cs = cs := by
  induction cs with
  | nil => rfl
  | cons c cs ih =>
    rw [List.forall_mem_cons] at h
    rw [ofChars, List.flatMap_cons, h.1, ← ofChars, ih h.2, List.singleton_append]

end Upper

/-! ## Texts -/

/-- **Capitals of capitals.** A text in capitals is its own capital form. -/
theorem upper_upper (s : String) : upper (upper s) = upper s := by
  have hfixed : ∀ c ∈ Upper.ofChars s.toList, Upper.ofChar c = [c] := fun c hc ↦ by
    obtain ⟨b, -, hb⟩ := List.mem_flatMap.mp hc
    exact Upper.ofChar_of_mem hb
  rw [upper, upper, String.toList_ofList, Upper.ofChars_eq_self hfixed]

theorem Token.IsWord.upper {word : String} (h : IsWord word) : IsWord (upper word) where
  ne_nil := by
    obtain ⟨c, cs, hcs⟩ := List.exists_cons_of_ne_nil h.ne_nil
    rw [FormulaSheet.upper, String.toList_ofList, hcs, Upper.ofChars, List.flatMap_cons]
    exact List.append_ne_nil_of_left_ne_nil (Upper.ofChar_ne_nil c) _
  isBreak_eq c hc := by
    rw [FormulaSheet.upper, String.toList_ofList] at hc
    obtain ⟨b, hb, hc⟩ := List.mem_flatMap.mp hc
    exact Upper.isBreak_of_mem (h.isBreak_eq b hb) hc

end FormulaSheet
