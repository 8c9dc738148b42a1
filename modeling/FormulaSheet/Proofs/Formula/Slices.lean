import FormulaSheet.Proofs.Formula.Faults

/-!
# Slices

The tokens of a call are cut into slices, and each slice is read as an argument. A slice is a word
or a quoted text by itself, or it runs from a parenthesis to its match, whatever stands between the
two; this holds for all tokens, also for those that are no expression.

## Why the cutting finds matching parentheses

While a slice is under way, its tokens so far are a stretch with some open parentheses, and between
two of them, and behind the last, all parentheses match. This is `Opened`. Each token keeps it: a
closing parenthesis joins what stands on its two sides into one balanced stretch, and the last one
ends the slice.

## Faults of slices

A slice is an expression or it fails for what is in it: it is not empty, nothing follows its word or
its call, and its parentheses close. So the faults that blame the outline of an expression come from
the outermost one.
-/

namespace FormulaSheet

namespace Expr

variable {ts rest inside slice current after : List Token} {slices found : List (List Token)}
  {t : Token} {depth levels : Nat} {fault : ParseFault}

/-! ## Matching parentheses -/

/-- Every parenthesis among the tokens has its match. -/
inductive Balanced : List Token → Prop
  | nil : Balanced []
  | value (word : String) {ts : List Token} (h : Balanced ts) : Balanced (.value word :: ts)
  | quoted (s : String) {ts : List Token} (h : Balanced ts) : Balanced (.quoted s :: ts)
  | parens {inside ts : List Token} (hinside : Balanced inside) (h : Balanced ts) :
    Balanced (.openParen :: (inside ++ .closeParen :: ts))

/-- The tokens are a word, a quoted text, or all from a parenthesis to its match. -/
inductive IsSlice : List Token → Prop
  | value (word : String) : IsSlice [.value word]
  | quoted (s : String) : IsSlice [.quoted s]
  | parens {inside : List Token} (h : Balanced inside) :
    IsSlice (.openParen :: (inside ++ [.closeParen]))

theorem Balanced.append (h : Balanced ts) (hrest : Balanced rest) : Balanced (ts ++ rest) := by
  induction h with
  | nil => exact hrest
  | value word _ ih => exact ih.value word
  | quoted s _ ih => exact ih.quoted s
  | parens hinside _ _ ih => simpa using hinside.parens ih

theorem IsSlice.balanced (h : IsSlice slice) : Balanced slice := by
  cases h with
  | value word => exact .value word .nil
  | quoted s => exact .quoted s .nil
  | parens h => exact h.parens .nil

theorem IsSlice.ne_nil (h : IsSlice slice) : slice ≠ [] := by
  cases h with
  | value => exact List.cons_ne_nil _ _
  | quoted => exact List.cons_ne_nil _ _
  | parens => exact List.cons_ne_nil _ _

theorem isSlice_singleton (hopen : t ≠ .openParen) (hclose : t ≠ .closeParen) : IsSlice [t] := by
  cases t with
  | openParen => exact absurd rfl hopen
  | closeParen => exact absurd rfl hclose
  | value word => exact .value word
  | quoted s => exact .quoted s

theorem balanced_flatten (h : ∀ slice ∈ slices, IsSlice slice) : Balanced slices.flatten := by
  induction slices with
  | nil => exact .nil
  | cons slice slices ih =>
    rw [List.forall_mem_cons] at h
    exact h.1.balanced.append (ih h.2)

theorem Balanced.exists_slices (h : Balanced ts) :
    ∃ slices : List (List Token), (∀ slice ∈ slices, IsSlice slice) ∧ ts = slices.flatten := by
  induction h with
  | nil => exact ⟨[], List.forall_mem_nil _, rfl⟩
  | value word _ ih =>
    obtain ⟨slices, hslices, rfl⟩ := ih
    exact ⟨_ :: slices, List.forall_mem_cons.mpr ⟨.value word, hslices⟩, rfl⟩
  | quoted s _ ih =>
    obtain ⟨slices, hslices, rfl⟩ := ih
    exact ⟨_ :: slices, List.forall_mem_cons.mpr ⟨.quoted s, hslices⟩, rfl⟩
  | parens hinside _ _ ih =>
    obtain ⟨slices, hslices, rfl⟩ := ih
    exact ⟨_ :: slices, List.forall_mem_cons.mpr ⟨.parens hinside, hslices⟩, by simp⟩

/-! ## Slices are arguments -/

theorem Balanced.cutArguments_append (h : Balanced ts) (found : List (List Token))
    (current : List Token) (depth : Nat) (rest : List Token) :
    cutArguments found current (depth + 1) (ts ++ rest)
      = cutArguments found (ts.reverse ++ current) (depth + 1) rest := by
  induction h generalizing current depth rest with
  | nil => rfl
  | value word _ ih =>
    rw [List.reverse_cons, List.append_assoc]
    exact ih (.value word :: current) depth rest
  | quoted s _ ih =>
    rw [List.reverse_cons, List.append_assoc]
    exact ih (.quoted s :: current) depth rest
  | parens _ _ ih ihrest =>
    rw [List.cons_append, cutArguments, List.append_assoc, ih, List.cons_append, cutArguments,
      ihrest]
    simp

theorem IsSlice.isArgument (h : IsSlice slice) : IsArgument slice := by
  cases h with
  | value word => exact .value word
  | quoted s => exact .quoted s
  | parens h =>
    refine ⟨fun found rest ↦ ?_, fun found current depth rest ↦ ?_⟩
    · rw [List.cons_append, cutArguments, List.append_assoc, h.cutArguments_append,
        List.singleton_append, cutArguments]
      simp
    · rw [List.cons_append, cutArguments, List.append_assoc, h.cutArguments_append,
        List.singleton_append, cutArguments]
      simp

/-- Slices are cut apart again, whatever follows the parenthesis behind them. -/
theorem splitArguments_of_slices (h : ∀ slice ∈ slices, IsSlice slice) (after : List Token) :
    splitArguments (slices.flatten ++ .closeParen :: after) = (slices, .closed after) := by
  rw [splitArguments, cutArguments_flatten_outer fun slice hslice ↦ (h slice hslice).isArgument,
    cutArguments, List.append_nil, List.reverse_reverse]

/-! ## Arguments are slices -/

/-- So many parentheses are open among the tokens. The first token is one of them, and all others
have their matches. -/
def Opened : Nat → List Token → Prop
  | 0, ts => ts = []
  | depth + 1, ts => ∃ outside inside, ts = outside ++ .openParen :: inside ∧
    Opened depth outside ∧ Balanced inside

theorem Opened.openParen (h : Opened depth ts) : Opened (depth + 1) (ts ++ [.openParen]) :=
  ⟨ts, [], rfl, h, .nil⟩

theorem Opened.append (h : Opened (depth + 1) ts) (hrest : Balanced rest) :
    Opened (depth + 1) (ts ++ rest) := by
  obtain ⟨outside, inside, rfl, houtside, hinside⟩ := h
  exact ⟨outside, inside ++ rest, by simp, houtside, hinside.append hrest⟩

theorem Opened.closeParen (h : Opened (depth + 2) ts) :
    Opened (depth + 1) (ts ++ [.closeParen]) := by
  obtain ⟨outside, inside, rfl, houtside, hinside⟩ := h
  have hparens : Balanced (.openParen :: (inside ++ [.closeParen])) := hinside.parens .nil
  simpa using houtside.append hparens

theorem Opened.isSlice (h : Opened 1 ts) : IsSlice (ts ++ [.closeParen]) := by
  obtain ⟨outside, inside, rfl, rfl, hinside⟩ := h
  simpa using IsSlice.parens hinside

theorem isSlice_of_mem_cutArguments (hcurrent : Opened depth current.reverse)
    (hfound : ∀ slice ∈ found, IsSlice slice) :
    ∀ slice ∈ (cutArguments found current depth ts).1, IsSlice slice := by
  fun_induction cutArguments found current depth ts with
  | case1 => exact fun slice hslice ↦ hfound slice (List.mem_reverse.mp hslice)
  | case2 found current depth ts ih =>
    refine ih ?_ hfound
    rw [List.reverse_cons]
    exact hcurrent.openParen
  | case3 => exact fun slice hslice ↦ hfound slice (List.mem_reverse.mp hslice)
  | case4 found current ts ih =>
    refine ih rfl (List.forall_mem_cons.mpr ⟨?_, hfound⟩)
    rw [List.reverse_cons]
    exact hcurrent.isSlice
  | case5 found current ts depth ih =>
    refine ih ?_ hfound
    rw [List.reverse_cons]
    exact hcurrent.closeParen
  | case6 found current t ts hopen hclose ih =>
    -- outside all parentheses a token is an argument by itself
    refine ih rfl (List.forall_mem_cons.mpr ⟨?_, hfound⟩)
    obtain rfl : current = [] := List.reverse_eq_nil_iff.mp hcurrent
    exact isSlice_singleton hopen hclose
  | case7 found current depth t ts hopen hclose hclose' ih =>
    have hne : t ≠ .closeParen := fun h ↦ by
      cases depth with
      | zero => exact hclose rfl h
      | succ depth => exact hclose' depth rfl h
    refine ih ?_ hfound
    rw [List.reverse_cons]
    exact hcurrent.append (isSlice_singleton hopen hne).balanced

theorem isSlice_of_mem_splitArguments : ∀ slice ∈ (splitArguments ts).1, IsSlice slice :=
  isSlice_of_mem_cutArguments (show Opened 0 _ from rfl) (List.forall_mem_nil _)

theorem splitArguments_eq_closed_iff : (splitArguments ts).2 = .closed after ↔
    ∃ inside, Balanced inside ∧ ts = inside ++ .closeParen :: after := by
  constructor
  · intro h
    exact ⟨_, balanced_flatten isSlice_of_mem_splitArguments,
      flatten_of_splitArguments (Prod.ext rfl h)⟩
  · rintro ⟨inside, hinside, rfl⟩
    obtain ⟨slices, hslices, rfl⟩ := hinside.exists_slices
    rw [splitArguments_of_slices hslices]

theorem splitArguments_eq_unclosed_iff : (splitArguments ts).2 = .unclosed ↔
    ∀ inside after, Balanced inside → ts ≠ inside ++ .closeParen :: after := by
  cases hend : (splitArguments ts).2 with
  | closed after =>
    obtain ⟨inside, hinside, hts⟩ := splitArguments_eq_closed_iff.mp hend
    exact iff_of_false (fun h ↦ by cases h) fun h ↦ h inside after hinside hts
  | unclosed =>
    refine iff_of_true rfl fun inside after hinside hts ↦ ?_
    rw [splitArguments_eq_closed_iff.mpr ⟨inside, hinside, hts⟩] at hend
    cases hend

theorem Balanced.splitArguments_eq_closed {name : String} (h : Balanced inside)
    (hts : inside ++ [.closeParen] = .value name :: ts) : (splitArguments ts).2 = .closed [] := by
  cases h with
  | nil => cases hts
  | value word h =>
    obtain ⟨-, rfl⟩ := List.cons.inj hts
    exact splitArguments_eq_closed_iff.mpr ⟨_, h, rfl⟩
  | quoted => cases hts
  | parens => cases hts

end Expr

/-! ## The outline of an expression -/

/-- Whether a fault blames the outline of an expression: where it begins and ends. -/
def ParseFault.isOutline : ParseFault → Bool
  | .emptyExpression => true
  | .unexpectedCloseParen => true
  | .trailingTokens => true
  | .trailingAfterCall => true
  | .unmatchedParen => true
  | .unterminatedString => false
  | .tooDeep _ => false
  | .missingFunctionName => false
  | .unknownValue _ => false
  | .address _ => false

namespace Expr

theorem isOutline_of_ofWord {word : String} (h : ofWord word = .error fault) :
    fault.isOutline = false := by
  rcases fault_of_ofWord h with rfl | ⟨cause, rfl⟩
  · rfl
  · rfl

/-- **Slices have an outline.** A slice may be no expression, but not because of where it begins or
ends. -/
theorem IsSlice.isOutline_eq_false (h : IsSlice slice)
    (herror : ofTokens levels slice = .error fault) : fault.isOutline = false := by
  -- the fault of a call is that of a slice, which has one level less
  induction levels generalizing slice with
  | zero =>
    rw [ofTokens] at herror
    cases herror
    rfl
  | succ levels ih =>
    have hfails := ofTokens_eq_error_iff.mp herror
    cases h with
    | value word =>
      cases hfails with
      | word hword => exact isOutline_of_ofWord hword
    | quoted s => cases hfails
    | @parens inside hinside =>
      generalize hts : inside ++ [.closeParen] = ts at hfails
      cases hfails with
      | noName => rfl
      | argument hslices _ hslice =>
        exact ih (isSlice_of_mem_splitArguments _ (by rw [hslices]; simp)) hslice
      | afterCall _ hend =>
        rw [hinside.splitArguments_eq_closed hts] at hend
        cases hend
      | unclosed _ hend =>
        rw [hinside.splitArguments_eq_closed hts] at hend
        cases hend

/-- The slices among the tokens, if these begin a call. -/
def slicesOf : List Token → List (List Token)
  | .openParen :: .value _ :: rest => (splitArguments rest).1
  | _ => []

/-- What is wrong with the outline of tokens, of which there is at least one. -/
inductive Misshapen : List Token → ParseFault → Prop
  /-- The first closes a parenthesis. -/
  | closeParen (rest : List Token) : Misshapen (.closeParen :: rest) .unexpectedCloseParen
  /-- Something follows a word. -/
  | afterWord (word : String) (t : Token) (rest : List Token) :
    Misshapen (.value word :: t :: rest) .trailingTokens
  /-- Something follows a quoted text. -/
  | afterText (s : String) (t : Token) (rest : List Token) :
    Misshapen (.quoted s :: t :: rest) .trailingTokens
  /-- Something follows the match of the first parenthesis. -/
  | afterCall (name : String) {inside : List Token} (h : Balanced inside) (t : Token)
    (rest : List Token) : Misshapen
      (.openParen :: .value name :: (inside ++ .closeParen :: t :: rest)) .trailingAfterCall
  /-- The first parenthesis has no match. -/
  | unclosed (name : String) {rest : List Token}
    (h : ∀ inside after, Balanced inside → rest ≠ inside ++ .closeParen :: after) :
    Misshapen (.openParen :: .value name :: rest) .unmatchedParen

theorem Misshapen.isOutline (h : Misshapen ts fault) : fault.isOutline = true := by
  cases h with
  | closeParen => rfl
  | afterWord => rfl
  | afterText => rfl
  | afterCall => rfl
  | unclosed => rfl

/-- **The outline.** What is blamed for its outline is the expression itself: a slice is never
blamed for it, and all slices of a call are read before the end of the call is looked at. -/
theorem ofTokens_eq_outline_iff (hts : ts ≠ []) :
    ofTokens (levels + 1) ts = .error fault ∧ fault.isOutline = true ↔
      Misshapen ts fault ∧ ∀ slice ∈ slicesOf ts, ∃ arg, ofTokens levels slice = .ok arg := by
  rw [ofTokens_eq_error_iff]
  constructor
  · rintro ⟨hfails, houtline⟩
    cases hfails with
    | empty => exact absurd rfl hts
    | closeParen rest => exact ⟨.closeParen rest, List.forall_mem_nil _⟩
    | afterWord word t rest => exact ⟨.afterWord word t rest, List.forall_mem_nil _⟩
    | afterText s t rest => exact ⟨.afterText s t rest, List.forall_mem_nil _⟩
    | word hword =>
      rw [isOutline_of_ofWord hword] at houtline
      cases houtline
    | noName => cases houtline
    | @argument _ rest slice before after _ hslices _ hslice =>
      -- what has been cut out is a slice, which is not blamed for its outline
      have hmem : slice ∈ (splitArguments rest).1 := by rw [hslices]; simp
      rw [(isSlice_of_mem_splitArguments slice hmem).isOutline_eq_false hslice] at houtline
      cases houtline
    | afterCall hargs hend =>
      obtain ⟨inside, hinside, rfl⟩ := splitArguments_eq_closed_iff.mp hend
      exact ⟨.afterCall _ hinside _ _, exists_mapM_eq_ok_iff.mp ⟨_, hargs⟩⟩
    | unclosed hargs hend =>
      exact ⟨.unclosed _ (splitArguments_eq_unclosed_iff.mp hend),
        exists_mapM_eq_ok_iff.mp ⟨_, hargs⟩⟩
  · rintro ⟨hshape, hslices⟩
    refine ⟨?_, hshape.isOutline⟩
    cases hshape with
    | closeParen rest => exact .closeParen rest
    | afterWord word t rest => exact .afterWord word t rest
    | afterText s t rest => exact .afterText s t rest
    | afterCall name hinside t rest =>
      obtain ⟨args, hargs⟩ := exists_mapM_eq_ok_iff.mpr hslices
      exact .afterCall hargs (splitArguments_eq_closed_iff.mpr ⟨_, hinside, rfl⟩)
    | unclosed name h =>
      obtain ⟨args, hargs⟩ := exists_mapM_eq_ok_iff.mpr hslices
      exact .unclosed hargs (splitArguments_eq_unclosed_iff.mpr h)

end Expr

end FormulaSheet
