import FormulaSheet.Proofs.Formula.Grammar
import FormulaSheet.Proofs.Number.Plain
import FormulaSheet.Proofs.Text.Capitals
import Mathlib

/-!
# Canonical text

The canonical text of an expression is read as the expression again, under conditions on what is
in it that are also necessary. They are of two kinds.

## What can be written

An expression is writable if the tokens that it should have can be written at all: no text in it has
a quote or superfluous gaps, all names are words in capitals, all addresses and ranges have names,
and no part of it is a failure. Of a writable expression the canonical text has just these tokens.
Everything that is read is writable. So what is not writable has a canonical text that is read as
something else, if it is read at all.

## What can be read

The tokens of a writable expression make up this expression and no other, and do so exactly if all
numbers in it are whole; a number that is not is written as a word that denotes nothing. Nesting is
the only other obstacle. Numbers that were read themselves are whole unless they are infinite.
-/

namespace FormulaSheet.Expr

/-! ## Numbers of an expression -/

mutual

/-- The numbers in an expression, from left to right. -/
def numbers : Expr → List Float
  | .number x => [x]
  | .call _ args => argNumbers args
  | .text _ => []
  | .cell _ => []
  | .range _ => []
  | .failure _ => []

/-- The numbers in arguments, from left to right. -/
def argNumbers : List Expr → List Float
  | [] => []
  | arg :: args => arg.numbers ++ argNumbers args

end

theorem forall_mem_argNumbers {P : Float → Prop} {args : List Expr} :
    (∀ x ∈ argNumbers args, P x) ↔ ∀ arg ∈ args, ∀ x ∈ arg.numbers, P x := by
  induction args with
  | nil => simp [argNumbers]
  | cons arg args ih => rw [argNumbers, List.forall_mem_append, List.forall_mem_cons, ih]

/-! ## Tokens of an expression -/

mutual

/-- The tokens that an expression should have. A failure has none. -/
def tokens : Expr → List Token
  | .number x => [.value (NumberFormat.plain.write x)]
  | .text s => [.quoted s]
  | .cell a => [.value a.key]
  | .range r => [.value r.text]
  | .call name args => .openParen :: .value name :: ((argTokens args).flatten ++ [.closeParen])
  | .failure _ => []

/-- The tokens of arguments, one by one. -/
def argTokens : List Expr → List (List Token)
  | [] => []
  | arg :: args => arg.tokens :: argTokens args

end

/-- The expression has tokens that can be written and read. -/
inductive IsWritable : Expr → Prop
  | number (x : Float) : IsWritable (.number x)
  | text {s : String} (hquote : '"' ∉ s.toList) (hgaps : Token.IsSqueezed s.toList) :
    IsWritable (.text s)
  | cell {a : Address} (hcol : a.col.toNat < Column.limit) : IsWritable (.cell a)
  | range {r : Range} (hfirst : r.first.col.toNat < Column.limit)
    (hlast : r.last.col.toNat < Column.limit) (hordered : r.Ordered) : IsWritable (.range r)
  | call {name : String} {args : List Expr} (hname : Token.IsWord name)
    (hupper : upper name = name) (hargs : ∀ arg ∈ args, IsWritable arg) :
    IsWritable (.call name args)

/-! ## Words -/

/-- Whether a character is a letter or a digit of a name, or the colon of a range. -/
def isNameChar (c : Char) : Bool := Column.isLetter c || Address.isDigit c || c == ':'

theorem isNameChar_of_names {a : Address} {text : String} (h : a.Names text) :
    ∀ c ∈ text.toList, isNameChar c = true := by
  obtain ⟨letters, digits, htext, h⟩ := h
  rw [htext, List.forall_mem_append]
  constructor
  · exact fun c hc ↦ by simp [isNameChar, h.isLetter c hc]
  · exact fun c hc ↦ by simp [isNameChar, h.isDigit c hc]

theorem Denotes.isNameChar {word : String} {e : Expr} (h : Denotes word e) :
    ∀ c ∈ word.toList, isNameChar c = true := by
  cases h with
  | number hdigits =>
    exact fun c hc ↦ by simp [Expr.isNameChar, (Address.isDigits_iff.mp hdigits).2 c hc]
  | cell ha => exact isNameChar_of_names ha
  | range hr =>
    obtain ⟨first, last, rfl, hfirst, hlast, -⟩ := hr
    have hcolon : ":".toList.all Expr.isNameChar = true := by decide
    rw [String.toList_append, String.toList_append, List.forall_mem_append,
      List.forall_mem_append]
    exact ⟨⟨isNameChar_of_names hfirst, List.all_eq_true.mp hcolon⟩, isNameChar_of_names hlast⟩

theorem Denotes.isWord {word : String} {e : Expr} (h : Denotes word e) : Token.IsWord word where
  ne_nil := by
    cases h with
    | number hdigits => exact (Address.isDigits_iff.mp hdigits).1
    | cell ha =>
      obtain ⟨letters, digits, htext, ha⟩ := ha
      rw [htext]
      exact List.append_ne_nil_of_left_ne_nil ha.letters_ne _
    | range hr =>
      obtain ⟨first, last, rfl, -⟩ := hr
      simp
  isBreak_eq c hc := Token.isBreak_eq_false (p := Expr.isNameChar) (by decide) (h.isNameChar c hc)

theorem Denotes.iff_eq {word : String} {e e' : Expr} (h : Denotes word e) :
    Denotes word e' ↔ e' = e := by
  rw [← ofWord_eq_ok_iff] at h ⊢
  rw [h, Except.ok.injEq, eq_comm]

theorem denotes_repr (n : Nat) : Denotes (Nat.repr n) (.number (Binary64.ofNat n)) := by
  have hdenotes : Denotes (Nat.repr n) (.number _) :=
    .number (by rw [Nat.toList_repr]; exact Address.isDigits_toDigits n)
  rwa [Nat.toList_repr, Nat.ofDigitChars_ten_toDigits] at hdenotes

theorem denotes_write {x : Float} (h : Binary64.IsWhole x) :
    Denotes (NumberFormat.plain.write x) (.number x) := by
  obtain ⟨n, htext, rfl⟩ := NumberFormat.write_of_isWhole h
  rw [htext]
  exact denotes_repr n

/-- **Numbers.** The plain text of a number denotes the number if it is whole, and else nothing. -/
theorem denotes_write_iff {x : Float} {e : Expr} :
    Denotes (NumberFormat.plain.write x) e ↔ e = .number x ∧ Binary64.IsWhole x := by
  constructor
  · intro h
    have hwhole : Binary64.IsWhole x := by
      by_contra hnot
      obtain ⟨c, hc, hmark⟩ := NumberFormat.exists_mark hnot
      have hmarks : NumberFormat.marks.any isNameChar = false := by decide
      exact List.any_eq_false.mp hmarks c hmark (h.isNameChar c hc)
    exact ⟨(denotes_write hwhole).iff_eq.mp h, hwhole⟩
  · rintro ⟨rfl, hwhole⟩
    exact denotes_write hwhole

/-! ## Writing expressions -/

/-- The characters write the tokens wherever what follows would end a word. -/
def WritesInFront (ts : List Token) (cs : List Char) : Prop :=
  ∀ ⦃ts' cs'⦄, Token.Writes ts' cs' → (∀ c ∈ cs'.head?, Token.isBreak c = true) →
    Token.Writes (ts ++ ts') (cs ++ cs')

theorem writesInFront_value {word : String} (h : Token.IsWord word) :
    WritesInFront [.value word] word.toList :=
  fun _ _ hrest hnext ↦ .value h hnext hrest

theorem writesInFront_quoted {s : String} (hquote : '"' ∉ s.toList)
    (hgaps : Token.IsSqueezed s.toList) :
    WritesInFront [.quoted s] ("\"" ++ s ++ "\"").toList := by
  intro ts cs hrest _
  have hquoted := hrest.quoted hquote
  rw [hgaps.squeeze_eq, String.ofList_toList] at hquoted
  simpa using hquoted

theorem isBreak_of_mem_head? (args : List Expr) {cs : List Char}
    (h : ∀ c ∈ cs.head?, Token.isBreak c = true) :
    ∀ c ∈ ((renderArgs args).toList ++ cs).head?, Token.isBreak c = true := by
  cases args with
  | nil => exact h
  | cons arg args =>
    intro c hc
    obtain rfl : c = ' ' := by simpa [renderArgs, eq_comm] using hc
    decide

theorem writesInFront_renderArgs {args : List Expr}
    (h : ∀ arg ∈ args, WritesInFront arg.tokens arg.render.toList) :
    WritesInFront (argTokens args).flatten (renderArgs args).toList := by
  induction args with
  | nil => exact fun _ _ hrest _ ↦ hrest
  | cons arg args ih =>
    intro ts cs hrest hnext
    rw [List.forall_mem_cons] at h
    have hargs := h.1 (ih h.2 hrest hnext) (isBreak_of_mem_head? args hnext)
    have hspace := hargs.gap (c := ' ') (by decide)
    simpa [argTokens, renderArgs] using hspace

theorem isWord_key {a : Address} (h : a.col.toNat < Column.limit) : Token.IsWord a.key :=
  (Denotes.cell (Address.names_key h)).isWord

theorem isWord_text {r : Range} (h : r.Ordered) (hlast : r.last.col.toNat < Column.limit) :
    Token.IsWord r.text :=
  (Denotes.range (Range.names_text h hlast)).isWord

theorem IsWritable.writesInFront {e : Expr} (h : IsWritable e) :
    WritesInFront e.tokens e.render.toList := by
  induction h with
  | number x => exact writesInFront_value (NumberFormat.isWord_write x)
  | text hquote hgaps => exact writesInFront_quoted hquote hgaps
  | cell hcol => exact writesInFront_value (isWord_key hcol)
  | range _ hlast hordered => exact writesInFront_value (isWord_text hordered hlast)
  | @call name args hname _ _ ih =>
    intro ts cs hrest _
    -- from the right: the parenthesis ends the last argument, each argument the one before it
    have hclose := hrest.closeParen
    have hbreak : ∀ c ∈ (')' :: cs).head?, Token.isBreak c = true := by simp; decide
    have hargs := writesInFront_renderArgs ih hclose hbreak
    have hcall := (hargs.value hname (isBreak_of_mem_head? args hbreak)).openParen
    simpa [tokens, render] using hcall

/-- **Canonical text.** The canonical text of an expression has the tokens that it should have. -/
theorem IsWritable.ofText_render {e : Expr} (h : IsWritable e) :
    Token.ofText e.render = .ok e.tokens := by
  rw [Token.ofText_eq_ok_iff]
  simpa using h.writesInFront .nil (by simp)

/-! ## Reading expressions -/

theorem isArgument_of_mem_argTokens {args : List Expr}
    (h : ∀ arg ∈ args, IsArgument arg.tokens) : ∀ slice ∈ argTokens args, IsArgument slice := by
  induction args with
  | nil => exact fun slice hslice ↦ absurd hslice List.not_mem_nil
  | cons arg args ih =>
    rw [List.forall_mem_cons] at h
    exact List.forall_mem_cons.mpr ⟨h.1, ih h.2⟩

theorem IsWritable.isArgument {e : Expr} (h : IsWritable e) : IsArgument e.tokens := by
  induction h with
  | number => exact .value _
  | text => exact .quoted _
  | cell => exact .value _
  | range => exact .value _
  | call _ _ _ ih => exact .call (isArgument_of_mem_argTokens ih) _

theorem forall₂_derives_iff {args : List Expr} (h : ∀ arg ∈ args, ∀ e,
      Derives arg.tokens e ↔ e = arg ∧ ∀ x ∈ arg.numbers, Binary64.IsWhole x) {args' : List Expr} :
    List.Forall₂ Derives (argTokens args) args' ↔
      args' = args ∧ ∀ x ∈ argNumbers args, Binary64.IsWhole x := by
  induction args generalizing args' with
  | nil => simp [argTokens, argNumbers]
  | cons arg args ih =>
    rw [List.forall_mem_cons] at h
    rw [argTokens, List.forall₂_cons_left_iff, argNumbers, List.forall_mem_append]
    simp only [h.1, ih h.2]
    constructor
    · rintro ⟨_, _, ⟨rfl, harg⟩, ⟨rfl, hargs⟩, rfl⟩
      exact ⟨rfl, harg, hargs⟩
    · rintro ⟨rfl, harg, hargs⟩
      exact ⟨arg, args, ⟨rfl, harg⟩, ⟨rfl, hargs⟩, rfl⟩

/-- The tokens of an expression make up no other expression, and this one if its numbers are
whole. -/
theorem IsWritable.derives_iff {e : Expr} (h : IsWritable e) :
    ∀ e', Derives e.tokens e' ↔ e' = e ∧ ∀ x ∈ e.numbers, Binary64.IsWhole x := by
  induction h with
  | number x =>
    intro e'
    rw [tokens, derives_word_iff, denotes_write_iff, numbers, List.forall_mem_singleton]
  | text =>
    intro e'
    rw [tokens, derives_text_iff, numbers, and_iff_left (List.forall_mem_nil _)]
  | cell hcol =>
    intro e'
    rw [tokens, derives_word_iff, (Denotes.cell (Address.names_key hcol)).iff_eq, numbers,
      and_iff_left (List.forall_mem_nil _)]
  | range _ hlast hordered =>
    intro e'
    rw [tokens, derives_word_iff, (Denotes.range (Range.names_text hordered hlast)).iff_eq,
      numbers, and_iff_left (List.forall_mem_nil _)]
  | @call name args _ hupper hargs ih =>
    intro e'
    rw [tokens, derives_call_iff (isArgument_of_mem_argTokens fun arg harg ↦
      (hargs arg harg).isArgument), numbers, hupper]
    -- each argument derives itself only, so the arguments are the only list that theirs derive
    simp only [forall₂_derives_iff ih]
    constructor
    · rintro ⟨_, ⟨rfl, hwhole⟩, rfl⟩
      exact ⟨rfl, hwhole⟩
    · rintro ⟨rfl, hwhole⟩
      exact ⟨args, ⟨rfl, hwhole⟩, rfl⟩

/-- **Reading canonical text.** Where an expression can be written, its canonical text is read as
no other expression, and as this one if its numbers are whole and it is not nested too deeply. -/
theorem IsWritable.parse?_render_iff {e e' : Expr} (h : IsWritable e) :
    parse? e.render = .ok (some e') ↔
      e' = e ∧ (∀ x ∈ e.numbers, Binary64.IsWhole x) ∧ e.depth ≤ maxNesting := by
  rw [parse?_eq_some_iff, h.ofText_render]
  constructor
  · rintro ⟨ts, hts, hderives, hdepth⟩
    obtain rfl := Except.ok.inj hts
    obtain ⟨rfl, hwhole⟩ := (h.derives_iff e').mp hderives
    exact ⟨rfl, hwhole, hdepth⟩
  · rintro ⟨rfl, hwhole, hdepth⟩
    exact ⟨_, rfl, (h.derives_iff e').mpr ⟨rfl, hwhole⟩, hdepth⟩

/-! ## What is read -/

theorem Denotes.isWritable {word : String} {e : Expr} (h : Denotes word e) : IsWritable e := by
  cases h with
  | number => exact .number _
  | cell ha =>
    obtain ⟨_, _, -, ha⟩ := ha
    exact .cell ha.col_lt
  | range hr =>
    obtain ⟨_, _, -, ⟨_, _, -, hfirst⟩, ⟨_, _, -, hlast⟩, hordered⟩ := hr
    exact .range hfirst.col_lt hlast.col_lt hordered

theorem isWritable_of_derives {ts : List Token} {e : Expr} (h : Derives ts e) :
    (∀ t ∈ ts, t.IsRegular) → IsWritable e := by
  refine h.induct (P := fun ts e ↦ (∀ t ∈ ts, t.IsRegular) → IsWritable e)
    (fun hword _ ↦ hword.isWritable) (fun s hts ↦ ?_) fun name slices args _ ih hts ↦ ?_
  · obtain ⟨hquote, hgaps⟩ := hts _ List.mem_cons_self
    exact .text hquote hgaps
  · rw [List.forall_mem_cons, List.forall_mem_cons, List.forall_mem_append] at hts
    obtain ⟨-, hname, hslices, -⟩ := hts
    refine .call (Token.IsWord.upper hname) (upper_upper name) fun arg harg ↦ ?_
    obtain ⟨slice, hslice, hwritable⟩ := exists_of_mem_right ih harg
    exact hwritable fun t ht ↦ hslices t (List.mem_flatten.mpr ⟨slice, hslice, ht⟩)

theorem isWritable_of_parse? {text : String} {e : Expr} (h : parse? text = .ok (some e)) :
    IsWritable e := by
  obtain ⟨ts, hts, hderives, -⟩ := parse?_eq_some_iff.mp h
  exact isWritable_of_derives hderives (Token.ofText_eq_ok_iff.mp hts).isRegular

theorem exists_ofNat_of_derives {ts : List Token} {e : Expr} (h : Derives ts e) :
    ∀ x ∈ e.numbers, ∃ n, x = Binary64.ofNat n := by
  refine h.induct (P := fun _ e ↦ ∀ x ∈ e.numbers, ∃ n, x = Binary64.ofNat n)
    (fun hword ↦ ?_) (fun _ ↦ ?_) fun name slices args _ ih ↦ ?_
  · cases hword with
    | number => exact List.forall_mem_singleton.mpr ⟨_, rfl⟩
    | cell => exact List.forall_mem_nil _
    | range => exact List.forall_mem_nil _
  · exact List.forall_mem_nil _
  · refine forall_mem_argNumbers.mpr fun arg harg ↦ ?_
    obtain ⟨_, -, hnumbers⟩ := exists_of_mem_right ih harg
    exact hnumbers

/-! ## Equal expressions -/

theorem sameArgs_iff {args args' : List Expr} :
    sameArgs args args' = true ↔ List.Forall₂ (fun arg arg' ↦ arg.same arg' = true) args args' := by
  induction args generalizing args' with
  | nil =>
    cases args' with
    | nil => simp [sameArgs]
    | cons => simp [sameArgs]
  | cons arg args ih =>
    cases args' with
    | nil => simp [sameArgs]
    | cons arg' args' => rw [sameArgs, Bool.and_eq_true, ih, List.forall₂_cons]

theorem IsWritable.of_same {e : Expr} (h : IsWritable e) :
    ∀ {e' : Expr}, e.same e' = true → IsWritable e' := by
  induction h with
  | number x =>
    intro e' hsame
    cases e' with
    | number y => exact .number y
    | _ => simp [same] at hsame
  | text hquote hgaps =>
    intro e' hsame
    cases e' with
    | text t =>
      rw [same, beq_iff_eq] at hsame
      exact .text (hsame ▸ hquote) (hsame ▸ hgaps)
    | _ => simp [same] at hsame
  | cell hcol =>
    intro e' hsame
    cases e' with
    | cell b =>
      rw [same, beq_iff_eq] at hsame
      exact .cell (hsame ▸ hcol)
    | _ => simp [same] at hsame
  | range hfirst hlast hordered =>
    intro e' hsame
    cases e' with
    | range q =>
      rw [same, beq_iff_eq] at hsame
      exact .range (hsame ▸ hfirst) (hsame ▸ hlast) (hsame ▸ hordered)
    | _ => simp [same] at hsame
  | call hname hupper _ ih =>
    intro e' hsame
    cases e' with
    | call name' args' =>
      rw [same, Bool.and_eq_true, beq_iff_eq, sameArgs_iff] at hsame
      obtain ⟨rfl, hargs⟩ := hsame
      refine .call hname hupper fun arg' harg' ↦ ?_
      obtain ⟨arg, harg, hsame⟩ := exists_of_mem_right hargs harg'
      exact ih arg harg hsame
    | _ => simp [same] at hsame

/-- An expression without failures is equal to itself if its numbers are. -/
theorem IsWritable.same_self {e : Expr} (h : IsWritable e) :
    (∀ x ∈ e.numbers, (x == x) = true) → e.same e = true := by
  induction h with
  | number x =>
    intro hnumbers
    rw [same]
    exact hnumbers x (List.mem_singleton_self x)
  | text => simp [same]
  | cell => simp [same]
  | range => simp [same]
  | call _ _ _ ih =>
    intro hnumbers
    rw [numbers, forall_mem_argNumbers] at hnumbers
    rw [same, beq_self_eq_true, Bool.true_and, sameArgs_iff, List.forall₂_same]
    exact fun arg harg ↦ ih arg harg (hnumbers arg harg)

/-! ## Reading back -/

/-- The expression can be printed: written, with whole numbers only, and not too deep. -/
structure IsPrintable (e : Expr) : Prop where
  /-- Its tokens can be written. -/
  writable : e.IsWritable
  /-- Its numbers are natural numbers. -/
  whole : ∀ x ∈ e.numbers, Binary64.IsWhole x
  /-- No part lies too deep. -/
  depth_le : e.depth ≤ maxNesting

/-- **Reading back expressions.** The canonical text of an expression is read as the expression, or
as one equal to it, exactly if the expression can be printed. -/
theorem reparses_iff_isPrintable (e : Expr) :
    (parse? e.render = .ok (some e) ↔ e.IsPrintable) ∧
      ((∃ e', parse? e.render = .ok (some e') ∧ e'.same e = true) ↔ e.IsPrintable) := by
  -- what is read can be written, and so can what is equal to it; the rest is told by reading
  have hprints : ∀ e', parse? e.render = .ok (some e') → e'.same e = true → e.IsPrintable := by
    intro e' hparse hsame
    have hwritable := (isWritable_of_parse? hparse).of_same hsame
    obtain ⟨-, hwhole, hdepth⟩ := hwritable.parse?_render_iff.mp hparse
    exact ⟨hwritable, hwhole, hdepth⟩
  have hreads (h : e.IsPrintable) : parse? e.render = .ok (some e) :=
    h.writable.parse?_render_iff.mpr ⟨rfl, h.whole, h.depth_le⟩
  have hself (h : e.IsPrintable) : e.same e = true :=
    h.writable.same_self fun x hx ↦ Binary64.beq_self (h.whole x hx).finite.le
  refine ⟨⟨fun h ↦ ?_, hreads⟩, fun ⟨e', hparse, hsame⟩ ↦ hprints e' hparse hsame,
    fun h ↦ ⟨e, hreads h, hself h⟩⟩
  have hwritable := isWritable_of_parse? h
  obtain ⟨-, hwhole, hdepth⟩ := hwritable.parse?_render_iff.mp h
  exact ⟨hwritable, hwhole, hdepth⟩

/-- **Reading back formulas.** The canonical text of an expression that was read is read as no
other expression, and as this one exactly if no number in it is infinite. -/
theorem reparses_iff_of_parses {text : String} {e : Expr} (h : parse? text = .ok (some e))
    (e' : Expr) : parse? e.render = .ok (some e') ↔
      e' = e ∧ ∀ x ∈ e.numbers, Binary64.IsFinite x := by
  obtain ⟨ts, -, hderives, hdepth⟩ := parse?_eq_some_iff.mp h
  rw [(isWritable_of_parse? h).parse?_render_iff, and_iff_left hdepth]
  refine and_congr_right fun _ ↦ forall₂_congr fun x hx ↦ ?_
  obtain ⟨n, rfl⟩ := exists_ofNat_of_derives hderives x hx
  exact Binary64.isWhole_ofNat_iff n

private theorem parse?_loose : parse? "( sum  007 \"a  b\")" =
    .ok (some (.call "SUM" [.number (Binary64.ofNat 7), .text "a b"])) := by
  have htokens : Token.ofText "( sum  007 \"a  b\")" = .ok (.openParen :: .value "sum"
      :: ([[.value "007"], [.quoted "a b"]].flatten ++ [.closeParen])) := by cbv
  have hname : upper "sum" = "SUM" := by cbv
  have hdigits : Nat.ofDigitChars 10 "007".toList 0 = 7 := by decide
  have hnumber : Derives [.value "007"] (.number (Binary64.ofNat 7)) :=
    hdigits ▸ .word (.number (by decide))
  rw [parse?_eq_some_iff, ← hname]
  exact ⟨_, htokens, .call "sum" (.cons hnumber (.cons (.text "a b") .nil)), by decide⟩

/-- A text with superfluous gaps, a name in small letters and leading zeros. -/
theorem reparses_loose :
    parse? "( sum  007 \"a  b\")" =
      .ok (some (.call "SUM" [.number (Binary64.ofNat 7), .text "a b"])) ∧
    parse? (Expr.call "SUM" [.number (Binary64.ofNat 7), .text "a b"]).render =
      .ok (some (.call "SUM" [.number (Binary64.ofNat 7), .text "a b"])) := by
  refine ⟨parse?_loose, (reparses_iff_of_parses parse?_loose _).mpr ⟨rfl, fun x hx ↦ ?_⟩⟩
  obtain rfl : x = Binary64.ofNat 7 := by simpa [numbers, argNumbers] using hx
  rw [Binary64.IsFinite, Binary64.pattern_ofNat]
  decide +kernel

/-- A number that is too large for a double. -/
def huge : Nat := Nat.pow 10 309

/-- The numeral of a number that is too large is read as infinity, and the canonical text of
infinity is not read. -/
theorem not_reparses_huge :
    parse? (Nat.repr huge) = .ok (some (.number (Binary64.ofNat huge))) ∧
      parse? (Expr.number (Binary64.ofNat huge)).render = .error (.unknownValue "inf") := by
  have hnumber := denotes_repr huge
  have htokens : Token.ofText (Nat.repr huge) = .ok [.value (Nat.repr huge)] := by
    rw [Token.ofText_eq_ok_iff]
    simpa using writesInFront_value hnumber.isWord .nil (by simp)
  have hdepth : (Expr.number (Binary64.ofNat huge)).depth ≤ maxNesting := by
    rw [depth]
    exact Nat.zero_le _
  have hnearest : Binary64.nearest huge 1 = Binary64.infinity := by decide +kernel
  have hrender : (Expr.number (Binary64.ofNat huge)).render = "inf" := by
    rw [render, NumberFormat.write, Binary64.pattern_ofNat, hnearest, if_neg (Nat.lt_irrefl _),
      if_pos rfl, Binary64.isNegative_ofNat]
    rfl
  refine ⟨parse?_eq_some_iff.mpr ⟨_, htokens, .word hnumber, hdepth⟩, ?_⟩
  rw [hrender]
  cbv

end FormulaSheet.Expr
