import FormulaSheet.Proofs.Formula.Parsed
import FormulaSheet.Proofs.Text.Cutting

/-!
# Names of cells and ranges

What it is for a text to name a cell is said here without a reader: letters, the numeral of the
column counted from one, and digits, the numeral of the row. `Address.parse_eq_ok_iff` and
`Range.parse_eq_ok_iff` say that reading finds exactly this.

## The last column

Numerals up to `Column.limit` are read, so that the last column has no name. All other addresses
are named by their keys, since the value of the numeral of a number is the number.
-/

namespace FormulaSheet

namespace Column

variable {name : String} {letters cs : List Char} {col : UInt32} {n m : Nat}

/-! ## The value of letters -/

/-- The numeral that goes on from the value `n` with these letters. -/
def valueFrom (n : Nat) (letters : List Char) : Nat := letters.foldl (fun n c ↦ n * 26 + digit c) n

/-- The number that letters stand for. -/
def value (letters : List Char) : Nat := valueFrom 0 letters

theorem valueFrom_cons (n : Nat) (c : Char) (cs : List Char) :
    valueFrom n (c :: cs) = valueFrom (n * 26 + digit c) cs := rfl

theorem valueFrom_append (n : Nat) (cs ds : List Char) :
    valueFrom n (cs ++ ds) = valueFrom (valueFrom n cs) ds :=
  List.foldl_append

theorem le_valueFrom (n : Nat) (cs : List Char) : n ≤ valueFrom n cs := by
  induction cs generalizing n with
  | nil => exact Nat.le_refl n
  | cons c cs ih =>
    refine Nat.le_trans ?_ (ih (n * 26 + digit c))
    omega

theorem digit_pos (c : Char) : 0 < digit c := Nat.succ_pos _

theorem value_pos (h : letters ≠ []) : 0 < value letters := by
  obtain ⟨c, cs, rfl⟩ := List.exists_cons_of_ne_nil h
  refine Nat.lt_of_lt_of_le ?_ (le_valueFrom (0 * 26 + digit c) cs)
  have := digit_pos c
  omega

/-- Reading letters comes to their value, unless it passes the limit. -/
theorem readFrom_eq_ok_iff (hn : n ≤ limit) :
    readFrom name n cs = .ok m ↔
      (∀ c ∈ cs, isLetter c = true) ∧ valueFrom n cs = m ∧ m ≤ limit := by
  induction cs generalizing n with
  | nil =>
    rw [readFrom, Except.ok.injEq, valueFrom, List.foldl_nil]
    constructor
    · rintro rfl
      exact ⟨fun c hc ↦ absurd hc List.not_mem_nil, rfl, hn⟩
    · exact fun h ↦ h.2.1
  | cons c cs ih =>
    rw [readFrom, List.forall_mem_cons, valueFrom_cons]
    by_cases hletter : isLetter c = true
    · rw [if_pos hletter, and_iff_right hletter]
      dsimp only
      by_cases hlimit : limit < n * 26 + digit c
      · rw [if_pos hlimit]
        refine iff_of_false (fun hok ↦ by cases hok) fun h ↦ ?_
        -- further letters only make the value greater
        have := le_valueFrom (n * 26 + digit c) cs
        omega
      · rw [if_neg hlimit]
        exact ih (Nat.not_lt.mp hlimit)
    · rw [if_neg hletter]
      exact iff_of_false (fun hok ↦ by cases hok) fun h ↦ hletter h.1.1

theorem ofLetters_eq_ok_iff :
    ofLetters (String.ofList letters) = .ok col ↔
      letters ≠ [] ∧ (∀ c ∈ letters, isLetter c = true) ∧ value letters = col.toNat + 1 ∧
        col.toNat < limit := by
  rw [ofLetters]
  have hempty : (String.ofList letters).isEmpty = true ↔ letters = [] := by simp
  by_cases hnil : letters = []
  · rw [if_pos (hempty.mpr hnil)]
    exact iff_of_false (fun hok ↦ by cases hok) fun h ↦ h.1 hnil
  · rw [if_neg (mt hempty.mp hnil), map_eq_ok_iff, String.toList_ofList, and_iff_right hnil]
    simp only [readFrom_eq_ok_iff (Nat.zero_le limit)]
    have hpos := value_pos hnil
    constructor
    · rintro ⟨n, ⟨hletters, rfl, hle⟩, rfl⟩
      rw [← value] at hle ⊢
      have hlt : value letters - 1 < UInt32.size := by
        rw [limit] at hle
        omega
      rw [UInt32.toNat_ofNat_of_lt' hlt]
      exact ⟨hletters, by omega, by omega⟩
    · rintro ⟨hletters, hvalue, hlt⟩
      refine ⟨value letters, ⟨hletters, rfl, by omega⟩, ?_⟩
      rw [hvalue, Nat.add_sub_cancel]
      exact UInt32.ofNat_toNat

/-! ## The numeral of a number -/

theorem isLetter_letter {d : Nat} (hd : d < 26) : isLetter (letter d) = true := by
  have hall : ∀ d < 26, isLetter (letter d) = true := by decide
  exact hall d hd

theorem digit_letter {d : Nat} (hd : d < 26) : digit (letter d) = d + 1 := by
  have hall : ∀ d < 26, digit (letter d) = d + 1 := by decide
  exact hall d hd

theorem isLetter_of_mem_numeral (n : Nat) : ∀ c ∈ numeral n, isLetter c = true := by
  fun_induction numeral n with
  | case1 => exact fun c hc ↦ absurd hc List.not_mem_nil
  | case2 n hn ih =>
    rw [List.forall_mem_append, List.forall_mem_singleton]
    exact ⟨ih, isLetter_letter (Nat.mod_lt _ (by decide))⟩

theorem value_numeral (n : Nat) : value (numeral n) = n := by
  fun_induction numeral n with
  | case1 => rfl
  | case2 n hn ih =>
    rw [value, valueFrom_append, ← value, ih, valueFrom_cons,
      digit_letter (Nat.mod_lt _ (by decide))]
    change (n - 1) / 26 * 26 + ((n - 1) % 26 + 1) = n
    omega

theorem numeral_ne_nil (hn : n ≠ 0) : numeral n ≠ [] := by
  rw [numeral, if_neg hn]
  exact List.append_ne_nil_of_right_ne_nil _ (List.cons_ne_nil _ _)

end Column

namespace Address

variable {text : String} {letters digits : List Char} {a : Address}

/-! ## Addresses -/

theorem isDigits_iff {cs : List Char} :
    isDigits cs = true ↔ cs ≠ [] ∧ ∀ c ∈ cs, isDigit c = true := by
  simp [isDigits, List.isEmpty_eq_false_iff]

/-- Letters and digits that name an address: the numerals of its column, counted from one, and of
its row. -/
structure NamedBy (a : Address) (letters digits : List Char) : Prop where
  /-- There is a letter. -/
  letters_ne : letters ≠ []
  /-- The letters are capital. -/
  isLetter : ∀ c ∈ letters, Column.isLetter c = true
  /-- There is a digit. -/
  digits_ne : digits ≠ []
  /-- The digits are those from zero to nine. -/
  isDigit : ∀ c ∈ digits, Address.isDigit c = true
  /-- The letters are the numeral of the column. -/
  value_eq : Column.value letters = a.col.toNat + 1
  /-- It is not the last column. -/
  col_lt : a.col.toNat < Column.limit
  /-- The digits are a numeral of the row. -/
  ofDigitChars_eq : Nat.ofDigitChars 10 digits 0 = a.row.toNat

/-- The text names the address. -/
def Names (a : Address) (text : String) : Prop :=
  ∃ letters digits, text.toList = letters ++ digits ∧ a.NamedBy letters digits

theorem isLetter_of_isDigit {c : Char} (h : isDigit c = true) : Column.isLetter c = false := by
  rw [isDigit_iff] at h
  rw [Bool.eq_false_iff, ne_eq, Column.isLetter_iff]
  rintro ⟨hle, -⟩
  exact absurd (Char.le_trans hle h.2) (by decide)

theorem split_of_append (htext : text.toList = letters ++ digits)
    (hletters : ∀ c ∈ letters, Column.isLetter c = true)
    (hdigits : ∀ c ∈ digits, isDigit c = true) : split text = (letters, digits) := by
  have hhead : ∀ c ∈ digits.head?, Column.isLetter c = false := fun c hc ↦
    isLetter_of_isDigit (hdigits c (List.mem_of_mem_head? hc))
  rw [split, htext, takeWhile_append_eq hletters hhead, dropWhile_append_eq hletters hhead]

theorem toList_eq_split (text : String) : text.toList = (split text).1 ++ (split text).2 :=
  List.takeWhile_append_dropWhile.symm

theorem isLetter_of_mem_split {c : Char} (hc : c ∈ (split text).1) : Column.isLetter c = true :=
  List.all_eq_true.mp (List.all_takeWhile (l := text.toList)) c hc

theorem readRow_eq_ok_iff {whole : String} {row : UInt32} :
    readRow whole digits = .ok row ↔ Nat.ofDigitChars 10 digits 0 = row.toNat := by
  rw [readRow]
  by_cases hlt : Nat.ofDigitChars 10 digits 0 < UInt32.size
  · rw [if_pos hlt, Except.ok.injEq]
    constructor
    · rintro rfl
      rw [UInt32.toNat_ofNat_of_lt' hlt]
    · intro h
      rw [h]
      exact UInt32.ofNat_toNat
  · rw [if_neg hlt]
    exact iff_of_false (fun hok ↦ by cases hok) fun h ↦ hlt (h ▸ row.toNat_lt_size)

/-- **Reading addresses.** A text is read as the address that it names. -/
theorem parse_eq_ok_iff : parse text = .ok a ↔ a.Names text := by
  constructor
  · intro h
    rw [parse] at h
    split at h
    next hform =>
      obtain ⟨col, hcol, hrest⟩ := bind_eq_ok_iff.mp h
      obtain ⟨row, hrow, ha⟩ := bind_eq_ok_iff.mp hrest
      obtain rfl : (⟨col, row⟩ : Address) = a := Except.ok.inj ha
      obtain ⟨-, -, hvalue, hlt⟩ := Column.ofLetters_eq_ok_iff.mp hcol
      obtain ⟨hdigits, hall⟩ := isDigits_iff.mp hform.2
      exact ⟨_, _, toList_eq_split text, hform.1, fun c ↦ isLetter_of_mem_split, hdigits, hall,
        hvalue, hlt, readRow_eq_ok_iff.mp hrow⟩
    next => cases h
  · rintro ⟨letters, digits, htext, h⟩
    have hsplit := split_of_append htext h.isLetter h.isDigit
    have hform : HasForm text := by
      rw [HasForm, hsplit]
      exact ⟨h.letters_ne, isDigits_iff.mpr ⟨h.digits_ne, h.isDigit⟩⟩
    have hcol : Column.ofLetters (String.ofList letters) = .ok a.col :=
      Column.ofLetters_eq_ok_iff.mpr ⟨h.letters_ne, h.isLetter, h.value_eq, h.col_lt⟩
    have hrow : readRow text digits = .ok a.row := readRow_eq_ok_iff.mpr h.ofDigitChars_eq
    rw [parse, if_pos hform, hsplit]
    dsimp only
    rw [hcol, hrow]
    rfl

theorem Names.hasForm (h : a.Names text) : HasForm text := by
  have hparse := parse_eq_ok_iff.mpr h
  rw [parse] at hparse
  split at hparse
  next hform => exact hform
  next => cases hparse

theorem HasForm.isDigits_eq_false (h : HasForm text) : isDigits text.toList = false := by
  rw [Bool.eq_false_iff, ne_eq, isDigits_iff, toList_eq_split text]
  rintro ⟨-, hall⟩
  obtain ⟨c, cs, hcs⟩ := List.exists_cons_of_ne_nil h.1
  have hmem : c ∈ (split text).1 := hcs ▸ List.mem_cons_self
  have hletter := isLetter_of_mem_split hmem
  rw [isLetter_of_isDigit (hall c (List.mem_append_left _ hmem))] at hletter
  cases hletter

/-! ## Keys -/

theorem isDigit_of_isDigit {c : Char} (h : c.isDigit = true) : isDigit c = true := by
  rw [Char.isDigit, Bool.and_eq_true, decide_eq_true_eq, decide_eq_true_eq] at h
  exact isDigit_iff.mpr h

theorem isDigit_of_mem_toDigits {n : Nat} {c : Char} (hc : c ∈ Nat.toDigits 10 n) :
    isDigit c = true :=
  isDigit_of_isDigit (Nat.isDigit_of_mem_toDigits (by decide) (by decide) hc)

theorem isDigits_toDigits (n : Nat) : isDigits (Nat.toDigits 10 n) = true :=
  isDigits_iff.mpr ⟨Nat.toDigits_ne_nil, fun _ ↦ isDigit_of_mem_toDigits⟩

theorem toList_key (a : Address) :
    a.key.toList = Column.numeral (a.col.toNat + 1) ++ Nat.toDigits 10 a.row.toNat := by
  rw [key, Column.letters, String.toList_append, String.toList_ofList, Nat.toList_repr]

theorem names_key (h : a.col.toNat < Column.limit) : a.Names a.key :=
  ⟨_, _, toList_key a, Column.numeral_ne_nil (Nat.succ_ne_zero _),
    Column.isLetter_of_mem_numeral _, Nat.toDigits_ne_nil, fun _ ↦ isDigit_of_mem_toDigits,
    Column.value_numeral _, h, Nat.ofDigitChars_ten_toDigits⟩

theorem parse_key_of_lt (h : a.col.toNat < Column.limit) : parse a.key = .ok a :=
  parse_eq_ok_iff.mpr (names_key h)

end Address

namespace Range

variable {text first last : String} {r : Range}

/-! ## Ranges -/

/-- The text names the range: its corners, with a colon between them. -/
def Names (r : Range) (text : String) : Prop :=
  ∃ first last, text = first ++ ":" ++ last ∧ r.first.Names first ∧ r.last.Names last ∧ r.Ordered

theorem colon_ne_of_isLetter {c : Char} (h : Column.isLetter c = true) : c ≠ ':' := by
  rintro rfl
  exact absurd h (by decide)

theorem colon_ne_of_isDigit {c : Char} (h : Address.isDigit c = true) : c ≠ ':' := by
  rintro rfl
  exact absurd h (by decide)

theorem colon_not_mem_of_append {letters digits : List Char}
    (hletters : ∀ c ∈ letters, Column.isLetter c = true)
    (hdigits : ∀ c ∈ digits, Address.isDigit c = true) : ∀ c ∈ letters ++ digits, c ≠ ':' := by
  rw [List.forall_mem_append]
  exact ⟨fun c hc ↦ colon_ne_of_isLetter (hletters c hc),
    fun c hc ↦ colon_ne_of_isDigit (hdigits c hc)⟩

theorem colon_not_mem_of_names {a : Address} (h : a.Names text) : ∀ c ∈ text.toList, c ≠ ':' := by
  obtain ⟨letters, digits, htext, h⟩ := h
  rw [htext]
  exact colon_not_mem_of_append h.isLetter h.isDigit

theorem split_of_append (h : ∀ c ∈ first.toList, c ≠ ':') :
    split (first ++ ":" ++ last) = some (first, last) := by
  have hlist : (first ++ ":" ++ last).toList = first.toList ++ ':' :: last.toList := by simp
  have hfirst : ∀ c ∈ first.toList, (c != ':') = true := fun c hc ↦ bne_iff_ne.mpr (h c hc)
  rw [split, hlist, takeWhile_append_eq hfirst (by simp), dropWhile_append_eq hfirst (by simp)]
  simp

theorem eq_of_split (h : split text = some (first, last)) : text = first ++ ":" ++ last := by
  rw [split] at h
  split at h
  next => cases h
  next c after hdrop =>
    obtain ⟨rfl, rfl⟩ := Prod.mk.inj (Option.some.inj h)
    have hhead : c ∈ (text.toList.dropWhile (· != ':')).head? := by
      rw [hdrop]
      rfl
    have hc : c = ':' := by simpa using eq_false_of_mem_head?_dropWhile hhead
    have hcut := List.takeWhile_append_dropWhile (p := (· != ':')) (l := text.toList)
    rw [hdrop, hc] at hcut
    rw [← String.toList_inj]
    simpa using hcut.symm

/-- **Reading ranges.** A text is read as the range that it names. -/
theorem parse_eq_ok_iff : parse text = .ok r ↔ r.Names text := by
  rw [parse]
  split
  next hsplit =>
    refine iff_of_false (fun hok ↦ by cases hok) ?_
    rintro ⟨first, last, rfl, hfirst, -, -⟩
    rw [split_of_append (colon_not_mem_of_names hfirst)] at hsplit
    cases hsplit
  next first last hsplit =>
    simp only [bind_eq_ok_iff, Address.parse_eq_ok_iff, ofCorners_eq_ok_iff]
    constructor
    · rintro ⟨a, ha, b, hb, rfl, hordered⟩
      exact ⟨first, last, eq_of_split hsplit, ha, hb, hordered⟩
    · rintro ⟨first', last', rfl, hfirst, hlast, hordered⟩
      rw [split_of_append (colon_not_mem_of_names hfirst)] at hsplit
      obtain ⟨rfl, rfl⟩ := Prod.mk.inj (Option.some.inj hsplit)
      exact ⟨_, hfirst, _, hlast, rfl, hordered⟩

theorem names_text (h : r.Ordered) (hlast : r.last.col.toNat < Column.limit) :
    r.Names r.text := by
  have hfirst : r.first.col.toNat < Column.limit :=
    Nat.lt_of_le_of_lt (UInt32.le_iff_toNat_le.mp h.1) hlast
  exact ⟨_, _, rfl, Address.names_key hfirst, Address.names_key hlast, h⟩

end Range

end FormulaSheet
