import FormulaSheet.Proofs.Text.Trimming
import FormulaSheet.Sheet.File
import Mathlib.Data.List.Basic

/-!
# Laying out sheet files

A sheet file is written line by line, and a line is blank, a comment, or the name and the formula of
a cell with white space around them. `Line` holds a line with all its white space, so that a text
can be put together from lines and be taken apart again.

## What a pair of name and formula must be like

A name ends at the first white space and must not be taken for a comment. A formula ends with its
line, and white space at its ends is lost. Nothing else is asked: a formula may hold comment signs
and runs of white space, a carriage return among them, and it may be missing.

Every text is laid out in this way, by some lines. So there are no other pairs that are read from a
file, and no other texts from which given pairs are read.
-/

namespace FormulaSheet

namespace SheetFile

/-! ## Names and formulas -/

/-- White space that does not end the line. -/
def IsGap (cs : List Char) : Prop := ∀ c ∈ cs, isBlank c = true ∧ c ≠ '\n'

instance (cs : List Char) : Decidable (IsGap cs) :=
  decidable_of_iff (cs.all fun c ↦ isBlank c && c != '\n') (by simp [IsGap])

/-- A name that can stand in a sheet file. -/
structure IsName (name : String) : Prop where
  /-- It is not empty. -/
  ne_nil : name.toList ≠ []
  /-- There is no white space in it. -/
  not_blank : ∀ c ∈ name.toList, isBlank c = false
  /-- It does not look like a comment. -/
  not_comment : name.toList.head? ≠ some '#'

instance (name : String) : Decidable (IsName name) :=
  decidable_of_iff (name.toList ≠ [] ∧ name.toList.all (!isBlank ·) ∧ name.toList.head? ≠ some '#')
    ⟨fun h ↦ ⟨h.1, by simpa using h.2.1, h.2.2⟩, fun h ↦ ⟨h.1, by simpa using h.2, h.3⟩⟩

/-- A formula that can stand in a sheet file. -/
structure IsFormula (formula : String) : Prop where
  /-- It does not begin with white space. -/
  first_not_blank : ∀ c ∈ formula.toList.head?, isBlank c = false
  /-- It does not end with white space. -/
  last_not_blank : ∀ c ∈ formula.toList.getLast?, isBlank c = false
  /-- It is on one line. -/
  newline_not_mem : '\n' ∉ formula.toList

theorem isFormula_iff {formula : String} :
    IsFormula formula ↔
      trimBlanks formula.toList = formula.toList ∧ '\n' ∉ formula.toList := by
  constructor
  · intro h
    have htrim := trimBlanks_append (List.forall_mem_nil _) (List.forall_mem_nil _)
      h.first_not_blank h.last_not_blank
    rw [List.nil_append, List.append_nil] at htrim
    exact ⟨htrim, h.newline_not_mem⟩
  · rintro ⟨htrim, hnewline⟩
    obtain ⟨-, -, -, -, -, hfirst, hlast⟩ := exists_eq_trimBlanks formula.toList
    rw [htrim] at hfirst hlast
    exact ⟨hfirst, hlast, hnewline⟩

instance (formula : String) : Decidable (IsFormula formula) := decidable_of_iff _ isFormula_iff.symm

/-- A name and a formula that can stand on a line. -/
def IsEntry (p : String × String) : Prop := IsName p.1 ∧ IsFormula p.2

instance : DecidablePred IsEntry := fun p ↦ inferInstanceAs (Decidable (IsName p.1 ∧ IsFormula p.2))

/-! ## Lines -/

/-- A line with its white space. -/
inductive Line where
  /-- White space only. -/
  | blank (gap : List Char)
  /-- A comment, with white space in front. -/
  | comment (indent remark : List Char)
  /-- A name and a formula, with white space in front, between, and behind. -/
  | entry (indent : List Char) (p : String × String) (gap trail : List Char)

namespace Line

/-- The characters of a line. -/
def chars : Line → List Char
  | blank gap => gap
  | comment indent remark => indent ++ '#' :: remark
  | entry indent p gap trail => indent ++ (p.1.toList ++ (gap ++ (p.2.toList ++ trail)))

/-- The name and the formula on a line. -/
def pair? : Line → Option (String × String)
  | blank _ => none
  | comment _ _ => none
  | entry _ p _ _ => some p

/-- Only white space stands where white space belongs, on one line, and a formula is kept apart from
its name. -/
def IsSpaced : Line → Prop
  | blank gap => IsGap gap
  | comment indent remark => IsGap indent ∧ '\n' ∉ remark
  | entry indent p gap trail => IsGap indent ∧ IsGap gap ∧ IsGap trail ∧ (gap = [] → p.2 = "")

instance : DecidablePred IsSpaced
  | blank gap => inferInstanceAs (Decidable (IsGap gap))
  | comment indent remark => inferInstanceAs (Decidable (IsGap indent ∧ '\n' ∉ remark))
  | entry indent p gap trail =>
    inferInstanceAs (Decidable (IsGap indent ∧ IsGap gap ∧ IsGap trail ∧ (gap = [] → p.2 = "")))

end Line

/-- The ways to end a line. -/
inductive LineEnd where
  /-- A line feed. -/
  | lineFeed
  /-- A carriage return and a line feed. -/
  | carriageReturn

/-- The characters at the end of a line. -/
def LineEnd.chars : LineEnd → List Char
  | lineFeed => ['\n']
  | carriageReturn => ['\r', '\n']

/-- The text of some lines, each with its end, and a last one without. -/
def layOut (rows : List (Line × LineEnd)) (last : Line) : String :=
  String.ofList (rows.flatMap (fun row ↦ row.1.chars ++ row.2.chars) ++ last.chars)

/-- The names and formulas on some lines and a last one. -/
def pairs (rows : List (Line × LineEnd)) (last : Line) : List (String × String) :=
  (rows.map Prod.fst ++ [last]).filterMap Line.pair?

/-! ## Taking texts apart -/

variable {cs line : List Char}

theorem lines_cons_of_ne {c : Char} {rest : List (List Char)} (hc : c ≠ '\n')
    (h : lines cs = line :: rest) : lines (c :: cs) = (c :: line) :: rest := by
  rw [lines_cons, h]
  exact if_neg hc

theorem lines_append_newline (hline : '\n' ∉ line) (cs : List Char) :
    lines (line ++ '\n' :: cs) = line :: lines cs := by
  induction line with
  | nil => rfl
  | cons c line ih =>
    rw [List.mem_cons, not_or] at hline
    exact lines_cons_of_ne (Ne.symm hline.1) (ih hline.2)

theorem lines_of_newline_not_mem (hline : '\n' ∉ line) : lines line = [line] := by
  induction line with
  | nil => rfl
  | cons c line ih =>
    rw [List.mem_cons, not_or] at hline
    exact lines_cons_of_ne (Ne.symm hline.1) (ih hline.2)

/-- **Induction on lines.** A text is one line, or a line that is ended and another text. -/
theorem lines_induction {P : List Char → Prop} (hlast : ∀ line, '\n' ∉ line → P line)
    (hline : ∀ line cs, '\n' ∉ line → P cs → P (line ++ '\n' :: cs)) (cs : List Char) : P cs := by
  by_cases hmem : '\n' ∈ cs
  · obtain ⟨line, rest, hcs, hnewline⟩ := List.eq_append_cons_of_mem hmem
    have hshorter : rest.length < cs.length := by
      rw [hcs, List.length_append, List.length_cons]
      omega
    rw [hcs]
    exact hline line rest hnewline (lines_induction hlast hline rest)
  · exact hlast cs hmem
termination_by cs.length

/-! ## Reading lines -/

theorem entry?_of_nil (h : trimBlanks line = []) : entry? line = none := by
  unfold entry?
  rw [h]

theorem entry?_of_comment {remark : List Char} (h : trimBlanks line = '#' :: remark) :
    entry? line = none := by
  unfold entry?
  rw [h]
  rfl

/-- A line that begins with a name holds this cell, and the rest is its formula. -/
theorem entry?_of_name {name : String} {rest : List Char} (hname : IsName name)
    (hrest : ∀ c ∈ rest.head?, isBlank c = true) (h : trimBlanks line = name.toList ++ rest) :
    entry? line = some (name, String.ofList (trimBlanks rest)) := by
  have hword : ∀ c ∈ name.toList, (!isBlank c) = true := fun c hc ↦ by
    rw [hname.not_blank c hc]
    rfl
  have hend : ∀ c ∈ rest.head?, (!isBlank c) = false := fun c hc ↦ by
    rw [hrest c hc]
    rfl
  unfold entry?
  split
  next hnil =>
    rw [hnil] at h
    exact absurd (List.append_eq_nil_iff.mp h.symm).1 hname.ne_nil
  next remark hcomment =>
    obtain ⟨c, cs, hcs⟩ := List.exists_cons_of_ne_nil hname.ne_nil
    rw [hcomment, hcs, List.cons_append, List.cons.injEq] at h
    refine absurd ?_ hname.not_comment
    rw [hcs, ← h.1, List.head?_cons]
  next =>
    rw [h, takeWhile_append_eq hword hend, dropWhile_append_eq hword hend, String.ofList_toList]

/-! ## Reading what has been laid out -/

section

variable {indent gap trail : List Char} {name formula : String}

theorem entry?_of_alone (hindent : ∀ c ∈ indent, isBlank c = true) (hname : IsName name)
    (htrail : ∀ c ∈ trail, isBlank c = true) :
    entry? (indent ++ (name.toList ++ trail)) = some (name, "") := by
  have htrim : trimBlanks (indent ++ (name.toList ++ trail)) = name.toList ++ [] := by
    rw [List.append_nil]
    exact trimBlanks_append hindent htrail
      (fun c hc ↦ hname.not_blank c (List.mem_of_mem_head? hc))
      fun c hc ↦ hname.not_blank c (List.mem_of_mem_getLast? hc)
  exact entry?_of_name hname (by simp) htrim

theorem entry?_of_formula (hindent : ∀ c ∈ indent, isBlank c = true) (hname : IsName name)
    (hgap : ∀ c ∈ gap, isBlank c = true) (hgap_ne : gap ≠ []) (hformula : IsFormula formula)
    (hne : formula.toList ≠ []) (htrail : ∀ c ∈ trail, isBlank c = true) :
    entry? (indent ++ (name.toList ++ (gap ++ (formula.toList ++ trail)))) =
      some (name, formula) := by
  have hfirst : ∀ c ∈ (name.toList ++ (gap ++ formula.toList)).head?, isBlank c = false := by
    intro c hc
    rw [List.head?_append_of_ne_nil _ hname.ne_nil] at hc
    exact hname.not_blank c (List.mem_of_mem_head? hc)
  have hlast : ∀ c ∈ (name.toList ++ (gap ++ formula.toList)).getLast?, isBlank c = false := by
    intro c hc
    rw [← List.append_assoc, List.getLast?_append_of_ne_nil _ hne] at hc
    exact hformula.last_not_blank c hc
  have htrim : trimBlanks (indent ++ (name.toList ++ (gap ++ (formula.toList ++ trail))))
      = name.toList ++ (gap ++ formula.toList) := by
    have happend := trimBlanks_append hindent htrail hfirst hlast
    rwa [List.append_assoc, List.append_assoc] at happend
  have hrest : ∀ c ∈ (gap ++ formula.toList).head?, isBlank c = true := by
    intro c hc
    rw [List.head?_append_of_ne_nil _ hgap_ne] at hc
    exact hgap c (List.mem_of_mem_head? hc)
  have hbehind : trimBlanks (gap ++ formula.toList) = formula.toList := by
    have happend := trimBlanks_append hgap (List.forall_mem_nil _) hformula.first_not_blank
      hformula.last_not_blank
    rwa [List.append_nil] at happend
  rw [entry?_of_name hname hrest htrim, hbehind, String.ofList_toList]

end

theorem IsGap.isBlank (h : IsGap cs) : ∀ c ∈ cs, FormulaSheet.isBlank c = true :=
  fun c hc ↦ (h c hc).1

theorem IsGap.newline_not_mem (h : IsGap cs) : '\n' ∉ cs := fun hmem ↦ (h _ hmem).2 rfl

theorem isGap_of_newline_not_mem (hblank : ∀ c ∈ cs, isBlank c = true) (h : '\n' ∉ cs) :
    IsGap cs :=
  fun c hc ↦ ⟨hblank c hc, fun hnewline ↦ h (hnewline ▸ hc)⟩

theorem isGap_append {ds : List Char} (hcs : IsGap cs) (hds : IsGap ds) : IsGap (cs ++ ds) :=
  List.forall_mem_append.mpr ⟨hcs, hds⟩

theorem isName_takeWhile {c : Char} (hblank : isBlank c = false) (hcomment : c ≠ '#') :
    IsName (String.ofList ((c :: cs).takeWhile (!isBlank ·))) := by
  have hfirst : (c :: cs).takeWhile (!isBlank ·) = c :: cs.takeWhile (!isBlank ·) :=
    List.takeWhile_cons_of_pos (by simp [hblank])
  constructor <;> rw [String.toList_ofList]
  · rw [hfirst]
    exact List.cons_ne_nil _ _
  · intro d hd
    simpa using List.all_eq_true.mp List.all_takeWhile d hd
  · rw [hfirst, List.head?_cons]
    exact fun hsome ↦ hcomment (Option.some.inj hsome)

/-- What follows a name is white space and a formula. -/
theorem exists_gap_formula (hfirst : ∀ c ∈ cs.head?, isBlank c = true) (hnewline : '\n' ∉ cs) :
    ∃ gap formula trail, cs = gap ++ (formula.toList ++ trail) ∧ IsFormula formula ∧ IsGap gap ∧
      IsGap trail ∧ (gap = [] → formula = "") := by
  obtain ⟨gap, trail, hcs, hgap, htrail, hfirst', hlast⟩ := exists_eq_trimBlanks cs
  rw [hcs, List.mem_append, List.mem_append, not_or, not_or] at hnewline
  obtain ⟨hgapLine, hformulaLine, htrailLine⟩ := hnewline
  refine ⟨gap, String.ofList (trimBlanks cs), trail, ?_, ?_, isGap_of_newline_not_mem hgap hgapLine,
    isGap_of_newline_not_mem htrail htrailLine, fun hnil ↦ ?_⟩
  · rwa [String.toList_ofList]
  · constructor <;> rw [String.toList_ofList]
    · exact hfirst'
    · exact hlast
    · exact hformulaLine
  · -- the first character is white space, which can only be that of the gap
    rw [← String.toList_eq_nil_iff, String.toList_ofList]
    cases htrim : trimBlanks cs with
    | nil => rfl
    | cons d ds =>
      rw [hnil, htrim] at hcs
      have hblank : isBlank d = true := hfirst d (by rw [hcs]; rfl)
      rw [hfirst' d (by rw [htrim]; rfl)] at hblank
      cases hblank

theorem exists_name_formula {c : Char} (hblank : isBlank c = false) (hcomment : c ≠ '#')
    (hnewline : '\n' ∉ c :: cs) :
    ∃ p gap trail, c :: cs = p.1.toList ++ (gap ++ (p.2.toList ++ trail)) ∧ IsEntry p ∧ IsGap gap ∧
      IsGap trail ∧ (gap = [] → p.2 = "") := by
  have hcut : c :: cs = (c :: cs).takeWhile (!isBlank ·) ++ (c :: cs).dropWhile (!isBlank ·) :=
    List.takeWhile_append_dropWhile.symm
  have hrest : ∀ d ∈ ((c :: cs).dropWhile (!isBlank ·)).head?, isBlank d = true := fun d hd ↦ by
    simpa using eq_false_of_mem_head?_dropWhile hd
  have hrestLine : '\n' ∉ (c :: cs).dropWhile (!isBlank ·) := fun hmem ↦
    hnewline ((List.dropWhile_sublist _).mem hmem)
  obtain ⟨gap, formula, trail, heq, hformula, hgap, htrail, halone⟩ :=
    exists_gap_formula hrest hrestLine
  refine ⟨(String.ofList ((c :: cs).takeWhile (!isBlank ·)), formula), gap, trail, ?_,
    ⟨isName_takeWhile hblank hcomment, hformula⟩, hgap, htrail, halone⟩
  rw [← heq, String.toList_ofList]
  exact hcut

namespace Line

variable {l : Line}

/-- **Reading a line** finds what is written on it. -/
theorem entry?_chars (hspaced : l.IsSpaced) (hentry : ∀ p ∈ l.pair?, IsEntry p) :
    entry? l.chars = l.pair? := by
  cases l with
  | blank gap => exact entry?_of_nil (trimBlanks_of_forall hspaced.isBlank)
  | comment indent remark =>
    have htrim : trimBlanks (comment indent remark).chars = '#' :: _ :=
      (trimBlanks_append_left hspaced.1.isBlank).trans (trimBlanks_cons (by decide))
    exact entry?_of_comment htrim
  | entry indent p gap trail =>
    obtain ⟨hindent, hgap, htrail, halone⟩ := hspaced
    obtain ⟨hname, hformula⟩ := hentry p rfl
    obtain ⟨name, formula⟩ := p
    by_cases hnil : formula = ""
    · -- the white space behind the name is at the end of the line
      subst hnil
      exact entry?_of_alone hindent.isBlank hname (isGap_append hgap htrail).isBlank
    · exact entry?_of_formula hindent.isBlank hname hgap.isBlank (mt halone hnil) hformula
        (mt String.toList_eq_nil_iff.mp hnil) htrail.isBlank

theorem newline_not_mem_chars (hspaced : l.IsSpaced) (hentry : ∀ p ∈ l.pair?, IsEntry p) :
    '\n' ∉ l.chars := by
  cases l with
  | blank gap => exact hspaced.newline_not_mem
  | comment indent remark =>
    rw [chars, List.mem_append, List.mem_cons, not_or, not_or]
    exact ⟨hspaced.1.newline_not_mem, by decide, hspaced.2⟩
  | entry indent p gap trail =>
    obtain ⟨hindent, hgap, htrail, -⟩ := hspaced
    obtain ⟨hname, hformula⟩ := hentry p rfl
    have hnewline : '\n' ∉ p.1.toList := fun hmem ↦
      absurd (hname.not_blank _ hmem) (by decide)
    simp only [chars, List.mem_append, not_or]
    exact ⟨hindent.newline_not_mem, hnewline, hgap.newline_not_mem, hformula.newline_not_mem,
      htrail.newline_not_mem⟩

/-- White space added at the end of a line. -/
def addTrail (l : Line) (cs : List Char) : Line :=
  match l with
  | blank gap => blank (gap ++ cs)
  | comment indent remark => comment indent (remark ++ cs)
  | entry indent p gap trail => entry indent p gap (trail ++ cs)

theorem chars_addTrail (l : Line) (cs : List Char) : (l.addTrail cs).chars = l.chars ++ cs := by
  cases l with
  | blank | comment | entry => simp [addTrail, chars]

theorem pair?_addTrail (l : Line) (cs : List Char) : (l.addTrail cs).pair? = l.pair? := by
  cases l with
  | blank | comment | entry => rfl

theorem IsSpaced.addTrail (h : l.IsSpaced) (hcs : IsGap cs) : (l.addTrail cs).IsSpaced := by
  cases l with
  | blank gap => exact isGap_append h hcs
  | comment indent remark =>
    refine ⟨h.1, fun hmem ↦ ?_⟩
    exact (List.mem_append.mp hmem).elim h.2 hcs.newline_not_mem
  | entry indent p gap trail => exact ⟨h.1, h.2.1, isGap_append h.2.2.1 hcs, h.2.2.2⟩

/-- **Every text without a line feed** is a line. -/
theorem exists_chars_eq (hcs : '\n' ∉ cs) :
    ∃ l : Line, l.chars = cs ∧ l.IsSpaced ∧ ∀ p ∈ l.pair?, IsEntry p := by
  obtain ⟨lead, trail, heq, hlead, htrail, hfirst, -⟩ := exists_eq_trimBlanks cs
  rw [heq, List.mem_append, List.mem_append, not_or, not_or] at hcs
  obtain ⟨hcsLead, hcsMiddle, hcsTrail⟩ := hcs
  have hindent : IsGap lead := isGap_of_newline_not_mem hlead hcsLead
  have hend : IsGap trail := isGap_of_newline_not_mem htrail hcsTrail
  cases hmiddle : trimBlanks cs with
  | nil =>
    refine ⟨blank cs, rfl, ?_, fun p hp ↦ nomatch hp⟩
    rw [heq, hmiddle]
    exact isGap_append hindent hend
  | cons c rest =>
    rw [hmiddle] at heq hcsMiddle hfirst
    by_cases hc : c = '#'
    · subst hc
      refine ⟨comment lead (rest ++ trail), heq.symm, ⟨hindent, ?_⟩, fun p hp ↦ nomatch hp⟩
      rw [List.mem_append, not_or]
      exact ⟨fun hmem ↦ hcsMiddle (List.mem_cons_of_mem _ hmem), hcsTrail⟩
    · have hnotBlank : isBlank c = false := hfirst c rfl
      obtain ⟨p, gap, trail', hrest, hp, hgap, htrail', halone⟩ :=
        exists_name_formula hnotBlank hc hcsMiddle
      refine ⟨entry lead p gap (trail' ++ trail), ?_, ⟨hindent, hgap, isGap_append htrail' hend,
        halone⟩, fun q hq ↦ Option.some.inj hq ▸ hp⟩
      rw [heq, hrest, chars]
      simp only [List.append_assoc]

end Line

/-! ## Files -/

/-- What stands in front of the line feed at the end of a line. -/
def LineEnd.carry : LineEnd → List Char
  | lineFeed => []
  | carriageReturn => ['\r']

theorem LineEnd.chars_eq (e : LineEnd) : e.chars = e.carry ++ ['\n'] := by
  cases e with
  | lineFeed | carriageReturn => rfl

theorem LineEnd.isGap_carry (e : LineEnd) : IsGap e.carry := by
  cases e with
  | lineFeed => exact fun c hc ↦ nomatch hc
  | carriageReturn =>
    intro c hc
    rw [List.mem_singleton.mp hc]
    decide

variable {rows : List (Line × LineEnd)} {last : Line}

theorem toList_layOut_cons (row : Line × LineEnd) (rows : List (Line × LineEnd)) (last : Line) :
    (layOut (row :: rows) last).toList
      = (row.1.addTrail row.2.carry).chars ++ '\n' :: (layOut rows last).toList := by
  simp [layOut, Line.chars_addTrail, LineEnd.chars_eq]

theorem pairs_cons (row : Line × LineEnd) (rows : List (Line × LineEnd)) (last : Line) :
    pairs (row :: rows) last = row.1.pair?.toList ++ pairs rows last := by
  rw [pairs, List.map_cons, List.cons_append, List.filterMap_cons]
  cases row.1.pair? with
  | none => rfl
  | some p => rfl

theorem parse_layOut_eq (hrows : ∀ row ∈ rows, row.1.IsSpaced) (hlast : last.IsSpaced)
    (hpairs : ∀ p ∈ pairs rows last, IsEntry p) : parse (layOut rows last) = pairs rows last := by
  rw [parse]
  induction rows with
  | nil =>
    have hentry : ∀ p ∈ last.pair?, IsEntry p := fun p hp ↦
      hpairs p (List.mem_filterMap.mpr ⟨last, List.mem_cons_self, hp⟩)
    have htext : (layOut [] last).toList = last.chars := by simp [layOut]
    rw [htext, lines_of_newline_not_mem (Line.newline_not_mem_chars hlast hentry)]
    simp [pairs, List.filterMap_cons, Line.entry?_chars hlast hentry]
  | cons row rows ih =>
    rw [pairs_cons, List.forall_mem_append] at hpairs
    rw [List.forall_mem_cons] at hrows
    have hspaced := hrows.1.addTrail row.2.isGap_carry
    have hentry : ∀ p ∈ (row.1.addTrail row.2.carry).pair?, IsEntry p := fun p hp ↦ by
      rw [Line.pair?_addTrail] at hp
      exact hpairs.1 p (Option.mem_toList.mpr hp)
    rw [toList_layOut_cons, lines_append_newline (Line.newline_not_mem_chars hspaced hentry),
      pairs_cons, List.filterMap_cons, ih hrows.2 hpairs.2, Line.entry?_chars hspaced hentry,
      Line.pair?_addTrail]
    cases row.1.pair? with
    | none => rfl
    | some p => rfl

theorem exists_layOut_eq (cs : List Char) :
    ∃ rows last, String.ofList cs = layOut rows last ∧ (∀ row ∈ rows, row.1.IsSpaced) ∧
      last.IsSpaced ∧ ∀ p ∈ pairs rows last, IsEntry p := by
  induction cs using lines_induction with
  | hlast line hline =>
    obtain ⟨l, rfl, hspaced, hentry⟩ := Line.exists_chars_eq hline
    refine ⟨[], l, rfl, List.forall_mem_nil _, hspaced, fun p hp ↦ hentry p ?_⟩
    simpa [pairs] using hp
  | hline line cs hline ih =>
    obtain ⟨l, rfl, hspaced, hentry⟩ := Line.exists_chars_eq hline
    obtain ⟨rows, last, htext, hrows, hlast, hpairs⟩ := ih
    refine ⟨(l, .lineFeed) :: rows, last, ?_, ?_, hlast, ?_⟩
    · rw [← String.toList_inj, String.toList_ofList, toList_layOut_cons, ← htext,
        String.toList_ofList, Line.chars_addTrail, LineEnd.carry, List.append_nil]
    · rw [List.forall_mem_cons]
      exact ⟨hspaced, hrows⟩
    · rw [pairs_cons, List.forall_mem_append]
      exact ⟨fun p hp ↦ hentry p (Option.mem_toList.mp hp), hpairs⟩

/-- **Sheet files.** Whatever is read from a text are names without white space that do not look
like comments, and formulas that are on one line with no white space at their ends. Conversely, if
such names and formulas are written line by line, with white space around them, blank lines,
comments and line ends of both kinds, then just these are read. And every text is written in this
way. -/
theorem parse_layOut :
    (∀ text, ∀ p ∈ parse text, IsEntry p) ∧
    (∀ entries, (∀ p ∈ entries, IsEntry p) → ∀ rows last, pairs rows last = entries →
      (∀ row ∈ rows, row.1.IsSpaced) → last.IsSpaced → parse (layOut rows last) = entries) ∧
    ∀ text, ∃ rows last, text = layOut rows last ∧ pairs rows last = parse text ∧
      (∀ row ∈ rows, row.1.IsSpaced) ∧ last.IsSpaced := by
  have hall : ∀ text, ∃ rows last, text = layOut rows last ∧ pairs rows last = parse text ∧
      (∀ row ∈ rows, row.1.IsSpaced) ∧ last.IsSpaced ∧ ∀ p ∈ pairs rows last, IsEntry p := by
    intro text
    obtain ⟨rows, last, htext, hrows, hlast, hpairs⟩ := exists_layOut_eq text.toList
    rw [String.ofList_toList] at htext
    exact ⟨rows, last, htext, htext ▸ (parse_layOut_eq hrows hlast hpairs).symm, hrows, hlast,
      hpairs⟩
  refine ⟨fun text p hp ↦ ?_, fun entries hentries rows last hpairs hrows hlast ↦ ?_,
    fun text ↦ ?_⟩
  · obtain ⟨rows, last, -, hpairs, -, -, hentries⟩ := hall text
    exact hentries p (hpairs ▸ hp)
  · subst hpairs
    exact parse_layOut_eq hrows hlast hentries
  · obtain ⟨rows, last, htext, hpairs, hrows, hlast, -⟩ := hall text
    exact ⟨rows, last, htext, hpairs, hrows, hlast⟩

/-- Comments, blank lines, both line ends, white space of several kinds, a formula that looks like a
comment and has a carriage return in it, and a name alone at the end. -/
theorem parse_layOut_mixed :
    let rows : List (Line × LineEnd) :=
      [(.comment [] " totals".toList, .lineFeed), (.entry [] ("A1", "2") [' '] [], .carriageReturn),
        (.blank ['\u3000'], .lineFeed),
        (.entry [' '] ("A2", "#\r  \"x\"") ['\t', '\r'] ['\x0c'], .lineFeed)]
    let text := "# totals\nA1 2\r\n\u3000\n A2\t\r#\r  \"x\"\x0c\nB1"
    (∀ p ∈ pairs rows (.entry [] ("B1", "") [] []), IsEntry p) ∧
      layOut rows (.entry [] ("B1", "") [] []) = text ∧
      parse text = [("A1", "2"), ("A2", "#\r  \"x\""), ("B1", "")] := by
  intro rows text
  have hentries : ∀ p ∈ pairs rows (.entry [] ("B1", "") [] []), IsEntry p := by decide
  have htext : layOut rows (.entry [] ("B1", "") [] []) = text := by decide
  have hparse := parse_layOut.2.1 _ hentries rows _ rfl (by decide) (by decide)
  rw [htext] at hparse
  exact ⟨hentries, htext, hparse⟩

end SheetFile

end FormulaSheet
