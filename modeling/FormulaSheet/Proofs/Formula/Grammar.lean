import FormulaSheet.Proofs.Grid.Naming
import Mathlib.Data.List.Forall2

/-!
# The grammar of formulas

A formula is a word that denotes something, a quoted text, or a parenthesis, a name, formulas one
behind the other and the closing parenthesis. `Derives` is this grammar, with no word about how it
is read; that formulas must not be nested too deeply is no matter of the grammar but of `depth`.

## Cutting and deriving

Reading does not go down into a call as the grammar does. It first cuts the tokens behind the name
into slices by counting parentheses, and reads each slice afterwards. The two meet in `IsArgument`:
tokens that the cutting takes for one argument where no parenthesis is open, and passes over without
a change of depth elsewhere. Whatever derives an expression is such a stretch, so that a call is cut
where the grammar has its arguments, and conversely a call that closes has been cut into slices
that make up all its tokens.
-/

namespace FormulaSheet

/-! ## Lists of results without a fault -/

theorem mapM_eq_ok_iff {α β ε : Type} {f : α → Except ε β} {as : List α} {bs : List β} :
    as.mapM f = .ok bs ↔ List.Forall₂ (fun a b ↦ f a = .ok b) as bs := by
  induction as generalizing bs with
  | nil =>
    rw [List.mapM_nil, List.forall₂_nil_left_iff]
    constructor
    · exact fun h ↦ (Except.ok.inj h).symm
    · rintro rfl
      rfl
  | cons a as ih =>
    rw [List.mapM_cons, bind_eq_ok_iff, List.forall₂_cons_left_iff]
    simp only [bind_eq_ok_iff, ih]
    constructor
    · rintro ⟨b, hb, cs, hcs, heq⟩
      exact ⟨b, cs, hb, hcs, (Except.ok.inj heq).symm⟩
    · rintro ⟨b, cs, hb, hcs, rfl⟩
      exact ⟨b, hb, cs, hcs, rfl⟩

theorem exists_of_mem_left {α β : Type} {R : α → β → Prop} {as : List α} {bs : List β}
    (h : List.Forall₂ R as bs) {a : α} (ha : a ∈ as) : ∃ b ∈ bs, R a b := by
  induction h with
  | nil => exact absurd ha List.not_mem_nil
  | cons hab _ ih =>
    rcases List.mem_cons.mp ha with rfl | ha
    · exact ⟨_, List.mem_cons_self, hab⟩
    · obtain ⟨b, hb, hR⟩ := ih ha
      exact ⟨b, List.mem_cons_of_mem _ hb, hR⟩

theorem exists_of_mem_right {α β : Type} {R : α → β → Prop} {as : List α} {bs : List β}
    (h : List.Forall₂ R as bs) {b : β} (hb : b ∈ bs) : ∃ a ∈ as, R a b :=
  exists_of_mem_left (List.Forall₂.flip h) hb

theorem forall₂_of_mem {α β : Type} {R S : α → β → Prop} {as : List α} {bs : List β}
    (h : List.Forall₂ R as bs) (himp : ∀ a, ∀ b ∈ bs, R a b → S a b) : List.Forall₂ S as bs := by
  induction h with
  | nil => exact .nil
  | cons hab _ ih =>
    exact .cons (himp _ _ List.mem_cons_self hab)
      (ih fun a b hb ↦ himp a b (List.mem_cons_of_mem _ hb))

namespace Expr

/-! ## Words -/

/-- What a word denotes: digits a number, the double nearest to theirs, and the name of a cell or
of a range that. -/
inductive Denotes : String → Expr → Prop
  | number {word : String} (h : Address.isDigits word.toList = true) :
    Denotes word (.number (Binary64.ofNat (Nat.ofDigitChars 10 word.toList 0)))
  | cell {word : String} {a : Address} (h : a.Names word) : Denotes word (.cell a)
  | range {word : String} {r : Range} (h : r.Names word) : Denotes word (.range r)

theorem not_hasForm_of_names {word : String} {r : Range} (h : r.Names word) :
    ¬Address.HasForm word := by
  obtain ⟨first, last, rfl, -, -, -⟩ := h
  intro hform
  have hcolon : ':' ∈ (first ++ ":" ++ last).toList := by simp
  rw [Address.toList_eq_split] at hcolon
  exact Range.colon_not_mem_of_append (fun _ ↦ Address.isLetter_of_mem_split)
    (Address.isDigits_iff.mp hform.2).2 ':' hcolon rfl

theorem isDigits_eq_false_of_names {word : String} {r : Range} (h : r.Names word) :
    Address.isDigits word.toList = false := by
  obtain ⟨first, last, rfl, -, -, -⟩ := h
  rw [Bool.eq_false_iff, ne_eq, Address.isDigits_iff]
  exact fun hall ↦ Range.colon_ne_of_isDigit (hall.2 ':' (by simp)) rfl

/-- **Reading words.** A word is read as what it denotes. -/
theorem ofWord_eq_ok_iff {word : String} {e : Expr} : ofWord word = .ok e ↔ Denotes word e := by
  rw [ofWord]
  constructor
  · intro h
    split at h
    next hdigits =>
      obtain rfl := Except.ok.inj h
      exact .number hdigits
    next =>
      split at h
      next =>
        obtain ⟨a, ha, rfl⟩ := map_eq_ok_iff.mp h
        exact .cell (Address.parse_eq_ok_iff.mp (mapError_eq_ok_iff.mp ha))
      next =>
        split at h
        next =>
          split at h
          next =>
            obtain ⟨r, hr, rfl⟩ := map_eq_ok_iff.mp h
            exact .range (Range.parse_eq_ok_iff.mp (mapError_eq_ok_iff.mp hr))
          next => cases h
        next => cases h
  · intro h
    cases h with
    | number hdigits => rw [if_pos hdigits]
    | cell ha =>
      rw [ha.hasForm.isDigits_eq_false, if_neg Bool.false_ne_true, if_pos ha.hasForm,
        Address.parse_eq_ok_iff.mpr ha]
      rfl
    | range hr =>
      -- the colon rules out the other two forms
      rw [isDigits_eq_false_of_names hr, if_neg Bool.false_ne_true,
        if_neg (not_hasForm_of_names hr), Range.parse_eq_ok_iff.mpr hr]
      obtain ⟨first, last, rfl, hfirst, hlast, -⟩ := hr
      rw [Range.split_of_append (Range.colon_not_mem_of_names hfirst)]
      dsimp only
      rw [if_pos ⟨hfirst.hasForm, hlast.hasForm⟩]
      rfl

/-! ## Formulas -/

/-- The tokens make up the expression. -/
inductive Derives : List Token → Expr → Prop
  | word {word : String} {e : Expr} (h : Denotes word e) : Derives [.value word] e
  | text (s : String) : Derives [.quoted s] (.text s)
  | call (name : String) {slices : List (List Token)} {args : List Expr}
    (h : List.Forall₂ Derives slices args) :
    Derives (.openParen :: .value name :: (slices.flatten ++ [.closeParen]))
      (.call (upper name) args)

/-- Induction over a derivation and those of the arguments in it. -/
theorem Derives.induct {P : List Token → Expr → Prop}
    (word : ∀ {word e}, Denotes word e → P [.value word] e)
    (text : ∀ s, P [.quoted s] (.text s))
    (call : ∀ name {slices args}, List.Forall₂ Derives slices args → List.Forall₂ P slices args →
      P (.openParen :: .value name :: (slices.flatten ++ [.closeParen])) (.call (upper name) args))
    {ts : List Token} {e : Expr} (h : Derives ts e) : P ts e :=
  @Derives.rec (fun ts e _ ↦ P ts e) (fun slices args _ ↦ List.Forall₂ P slices args)
    word text call .nil (fun _ _ hhead htail ↦ .cons hhead htail) ts e h

mutual

/-- How deep an expression goes: itself it lies at depth zero, and an argument one deeper than its
call. -/
def depth : Expr → Nat
  | .call _ args => argsDepth args
  | .number _ => 0
  | .text _ => 0
  | .cell _ => 0
  | .range _ => 0
  | .failure _ => 0

/-- How deep arguments go, below the call. -/
def argsDepth : List Expr → Nat
  | [] => 0
  | arg :: args => max (arg.depth + 1) (argsDepth args)

end

theorem argsDepth_le_iff {args : List Expr} {n : Nat} :
    argsDepth args ≤ n ↔ ∀ arg ∈ args, arg.depth < n := by
  induction args with
  | nil => simp [argsDepth]
  | cons arg args ih => rw [argsDepth, Nat.max_le, ih, List.forall_mem_cons, Nat.succ_le_iff]

theorem Denotes.depth_eq {word : String} {e : Expr} (h : Denotes word e) : e.depth = 0 := by
  cases h with
  | number => rw [depth]
  | cell => rw [depth]
  | range => rw [depth]

/-! ## What is cut out as one argument -/

/-- The tokens are taken for one argument where no parenthesis is open, and passed over where one
is. -/
structure IsArgument (ts : List Token) : Prop where
  /-- Where no parenthesis is open. -/
  outer : ∀ found rest,
    cutArguments found [] 0 (ts ++ rest) = cutArguments (ts :: found) [] 0 rest
  /-- Where one is. -/
  inner : ∀ found current depth rest, cutArguments found current (depth + 1) (ts ++ rest)
    = cutArguments found (ts.reverse ++ current) (depth + 1) rest

theorem IsArgument.value (word : String) : IsArgument [.value word] :=
  ⟨fun _ _ ↦ rfl, fun _ _ _ _ ↦ rfl⟩

theorem IsArgument.quoted (s : String) : IsArgument [.quoted s] :=
  ⟨fun _ _ ↦ rfl, fun _ _ _ _ ↦ rfl⟩

section

variable {slices : List (List Token)} (h : ∀ slice ∈ slices, IsArgument slice)

include h

theorem cutArguments_flatten_outer (found : List (List Token)) (rest : List Token) :
    cutArguments found [] 0 (slices.flatten ++ rest)
      = cutArguments (slices.reverse ++ found) [] 0 rest := by
  induction slices generalizing found with
  | nil => rfl
  | cons slice slices ih =>
    rw [List.forall_mem_cons] at h
    rw [List.flatten_cons, List.append_assoc, h.1.outer, ih h.2, List.reverse_cons,
      List.append_assoc, List.singleton_append]

theorem cutArguments_flatten_inner (found : List (List Token)) (current : List Token) (depth : Nat)
    (rest : List Token) : cutArguments found current (depth + 1) (slices.flatten ++ rest)
      = cutArguments found (slices.flatten.reverse ++ current) (depth + 1) rest := by
  induction slices generalizing current with
  | nil => rfl
  | cons slice slices ih =>
    rw [List.forall_mem_cons] at h
    rw [List.flatten_cons, List.append_assoc, h.1.inner, ih h.2, List.reverse_append,
      List.append_assoc]

theorem IsArgument.call (name : String) :
    IsArgument (.openParen :: .value name :: (slices.flatten ++ [.closeParen])) where
  outer found rest := by
    simp only [List.cons_append, List.append_assoc, List.nil_append, cutArguments]
    rw [cutArguments_flatten_inner h, cutArguments]
    simp
  inner found current depth rest := by
    simp only [List.cons_append, List.append_assoc, List.nil_append, cutArguments]
    rw [cutArguments_flatten_inner h, cutArguments]
    simp

/-- Arguments one behind the other are cut apart again. -/
theorem splitArguments_flatten :
    splitArguments (slices.flatten ++ [.closeParen]) = (slices, .closed []) := by
  rw [splitArguments, cutArguments_flatten_outer h, cutArguments, List.append_nil,
    List.reverse_reverse]

end

/-- Conversely, the slices of a call that closes are all its tokens, in order. -/
theorem flatten_of_cutArguments {slices : List (List Token)} {rest : List Token} :
    ∀ {ts : List Token} {found : List (List Token)} {current : List Token} {depth : Nat},
      (depth = 0 → current = []) → cutArguments found current depth ts = (slices, .closed rest) →
      found.reverse.flatten ++ current.reverse ++ ts = slices.flatten ++ .closeParen :: rest := by
  intro ts found current depth
  -- what is kept is the row of all tokens: the slices found, the one under way, and those to come
  fun_induction cutArguments found current depth ts with
  | case1 => exact fun _ h ↦ nomatch (Prod.mk.inj h).2
  | case2 found current depth ts ih =>
    intro _ h
    simpa using ih nofun h
  | case3 found current ts =>
    intro hcurrent h
    obtain ⟨rfl, hrest⟩ := Prod.mk.inj h
    rw [hcurrent rfl, CallEnd.closed.inj hrest]
    simp
  | case4 found current ts ih =>
    intro _ h
    simpa using ih (fun _ ↦ rfl) h
  | case5 found current ts depth ih =>
    intro _ h
    simpa using ih nofun h
  | case6 found current t ts _ _ ih =>
    intro _ h
    simpa using ih (fun _ ↦ rfl) h
  | case7 found current depth t ts _ _ _ ih =>
    intro _ h
    simpa using ih nofun h

theorem flatten_of_splitArguments {ts rest : List Token} {slices : List (List Token)}
    (h : splitArguments ts = (slices, .closed rest)) : ts = slices.flatten ++ .closeParen :: rest :=
  flatten_of_cutArguments (fun _ ↦ rfl) h

/-! ## Reading a call -/

theorem ofTokens_call (levels : Nat) (name : String) {slices : List (List Token)}
    (h : ∀ slice ∈ slices, IsArgument slice) :
    ofTokens (levels + 1) (.openParen :: .value name :: (slices.flatten ++ [.closeParen]))
      = (slices.mapM (ofTokens levels)).map (named name) := by
  rw [ofTokens, splitArguments_flatten h]
  dsimp only
  cases slices.mapM (ofTokens levels) with
  | error fault => rfl
  | ok args => rfl

theorem Derives.isArgument {ts : List Token} {e : Expr} (h : Derives ts e) : IsArgument ts := by
  refine h.induct (P := fun ts _ ↦ IsArgument ts) (fun _ ↦ .value _) .quoted
    fun name _ _ _ ih ↦ .call (fun slice hslice ↦ ?_) name
  obtain ⟨arg, -, harg⟩ := exists_of_mem_left ih hslice
  exact harg

theorem isArgument_of_mem {slices : List (List Token)} {args : List Expr}
    (h : List.Forall₂ Derives slices args) : ∀ slice ∈ slices, IsArgument slice := by
  intro slice hslice
  obtain ⟨arg, -, hderives⟩ := exists_of_mem_left h hslice
  exact hderives.isArgument

theorem derives_word_iff {word : String} {e : Expr} : Derives [.value word] e ↔ Denotes word e := by
  refine ⟨fun h ↦ ?_, .word⟩
  cases h with
  | word hword => exact hword

theorem derives_text_iff {s : String} {e : Expr} : Derives [.quoted s] e ↔ e = .text s := by
  constructor
  · intro h
    cases h with
    | text => rfl
  · rintro rfl
    exact .text s

theorem derives_call_iff {name : String} {slices : List (List Token)} {e : Expr}
    (h : ∀ slice ∈ slices, IsArgument slice) :
    Derives (.openParen :: .value name :: (slices.flatten ++ [.closeParen])) e ↔
      ∃ args, List.Forall₂ Derives slices args ∧ e = .call (upper name) args := by
  constructor
  · intro hcall
    generalize hts : Token.openParen :: .value name :: (slices.flatten ++ [.closeParen]) = ts
      at hcall
    cases hcall with
    | word => cases hts
    | text => cases hts
    | @call name' slices' args hargs =>
      obtain ⟨hname, hflatten⟩ := List.cons.inj (List.cons.inj hts).2
      -- both rows of slices are what the cutting makes of the same tokens
      have hslices : slices = slices' := by
        have hsplit := splitArguments_flatten h
        rw [hflatten, splitArguments_flatten (isArgument_of_mem hargs)] at hsplit
        exact (Prod.mk.inj hsplit).1.symm
      rw [hslices, Token.value.inj hname]
      exact ⟨args, hargs, rfl⟩
  · rintro ⟨args, hargs, rfl⟩
    exact .call name hargs

/-! ## Reading formulas -/

theorem derives_of_ofTokens {levels : Nat} : ∀ {ts : List Token} {e : Expr},
    ofTokens levels ts = .ok e → Derives ts e ∧ e.depth < levels := by
  -- slices are read with one level less than the call that they belong to
  induction levels with
  | zero =>
    intro ts e h
    rw [ofTokens] at h
    cases h
  | succ levels ih =>
    intro ts e h
    rw [ofTokens.eq_def] at h
    dsimp only at h
    split at h
    all_goals try cases h
    next word _ =>
      have hword := ofWord_eq_ok_iff.mp h
      rw [hword.depth_eq]
      exact ⟨.word hword, Nat.succ_pos _⟩
    next s _ =>
      rw [depth]
      exact ⟨.text s, Nat.succ_pos _⟩
    next levels' name rest hlevels =>
      obtain rfl := Nat.succ.inj hlevels
      split at h
      · cases h
      next args hargs =>
        split at h
        all_goals try cases h
        next hending =>
          have hslices := mapM_eq_ok_iff.mp hargs
          have hsplit : rest = (splitArguments rest).1.flatten ++ [.closeParen] :=
            flatten_of_splitArguments (Prod.ext rfl hending)
          rw [hsplit, named, depth, Nat.lt_succ_iff, argsDepth_le_iff]
          refine ⟨.call name (hslices.imp fun _ _ hslice ↦ (ih hslice).1), fun arg harg ↦ ?_⟩
          obtain ⟨slice, -, hslice⟩ := exists_of_mem_right hslices harg
          exact (ih hslice).2

theorem ofTokens_of_derives {levels : Nat} {ts : List Token} {e : Expr} (h : Derives ts e)
    (hdepth : e.depth < levels) : ofTokens levels ts = .ok e := by
  revert levels
  refine h.induct (P := fun ts e ↦ ∀ {levels}, e.depth < levels → ofTokens levels ts = .ok e)
    (fun hword _ hdepth ↦ ?_) (fun s _ hdepth ↦ ?_) (fun name slices args hargs ih _ hdepth ↦ ?_)
  all_goals obtain ⟨levels, rfl⟩ := Nat.exists_eq_succ_of_ne_zero (Nat.ne_zero_of_lt hdepth)
  · exact ofWord_eq_ok_iff.mpr hword
  · rfl
  · rw [depth, Nat.lt_succ_iff, argsDepth_le_iff] at hdepth
    have hread : slices.mapM (ofTokens levels) = .ok args :=
      mapM_eq_ok_iff.mpr (forall₂_of_mem ih fun _ arg harg hlevels ↦ hlevels (hdepth arg harg))
    rw [ofTokens_call levels name (isArgument_of_mem hargs), hread]
    rfl

/-- **The grammar.** With so many levels, the tokens are read as the expressions that they make up
and that go less deep. -/
theorem ofTokens_eq_ok_iff {levels : Nat} {ts : List Token} {e : Expr} :
    ofTokens levels ts = .ok e ↔ Derives ts e ∧ e.depth < levels :=
  ⟨derives_of_ofTokens, fun h ↦ ofTokens_of_derives h.1 h.2⟩

variable {text : String} {e : Expr}

theorem parse?_eq_some_iff : parse? text = .ok (some e) ↔
    ∃ ts, Token.ofText text = .ok ts ∧ Derives ts e ∧ e.depth ≤ maxNesting := by
  simp only [← Nat.lt_succ_iff, ← ofTokens_eq_ok_iff]
  rw [parse?]
  split
  next fault hfault =>
    rw [hfault]
    refine iff_of_false (fun hok ↦ by cases hok) ?_
    rintro ⟨ts, hts, -⟩
    cases hts
  next hnil =>
    rw [hnil]
    refine iff_of_false (fun hok ↦ by cases hok) ?_
    rintro ⟨ts, hts, h⟩
    obtain rfl := Except.ok.inj hts
    cases h
  next ts _ hts =>
    rw [hts, map_eq_ok_iff]
    constructor
    · rintro ⟨e', he', hsome⟩
      obtain rfl := Option.some.inj hsome
      exact ⟨ts, rfl, he'⟩
    · rintro ⟨ts', hts', h⟩
      obtain rfl := Except.ok.inj hts'
      exact ⟨e, h, rfl⟩

theorem parse?_eq_none_iff : parse? text = .ok none ↔ Token.ofText text = .ok [] := by
  rw [parse?]
  split
  next fault hfault =>
    rw [hfault]
    exact iff_of_false (fun hok ↦ by cases hok) fun hok ↦ by cases hok
  next hnil =>
    rw [hnil]
    exact iff_of_true rfl rfl
  next ts hne hts =>
    rw [hts]
    refine iff_of_false (fun h ↦ ?_) (fun h ↦ hne (Except.ok.inj h))
    obtain ⟨e, -, he⟩ := map_eq_ok_iff.mp h
    cases he

/-- **What is read.** A text is read as no formula exactly if it has no tokens, and as an expression
exactly if its tokens make up the expression, no part of which lies too deep. -/
theorem parses_iff_derives (text : String) :
    (parse? text = .ok none ↔ Token.ofText text = .ok []) ∧
      ∀ e, parse? text = .ok (some e) ↔
        ∃ ts, Token.ofText text = .ok ts ∧ Derives ts e ∧ e.depth ≤ maxNesting := by
  exact ⟨parse?_eq_none_iff, fun e ↦ parse?_eq_some_iff⟩

end Expr

end FormulaSheet
