import FormulaSheet.Proofs.Formula.Grammar
import FormulaSheet.Proofs.Formula.Written
import Mathlib.Algebra.Ring.Parity

/-!
# Where faults come from

A text can fail while it is taken apart into tokens and while the tokens are read. The first happens
if a quote does not close, and this is a matter of counting: each quote either opens or closes, so
the number of quotes is odd. The second is told by `Fails`, one case for each way in which tokens
are no expression: the fault of a call is that of its first faulty argument, and only if all
arguments are expressions it is looked at how the call ends.

The two do not mix. The tokens are read only after the text has been taken apart, and no tokens are
blamed for a quote.
-/

namespace FormulaSheet

/-! ## Results with a fault -/

section

variable {α β ε ε' : Type} {fault : ε}

theorem bind_eq_error_iff {x : Except ε α} {f : α → Except ε β} :
    (x >>= f) = .error fault ↔ x = .error fault ∨ ∃ a, x = .ok a ∧ f a = .error fault := by
  cases x with
  | error fault => simp [bind, Except.bind]
  | ok a => simp [bind, Except.bind]

theorem map_eq_error_iff {x : Except ε α} {f : α → β} :
    x.map f = .error fault ↔ x = .error fault := by
  cases x with
  | error fault => simp [Except.map]
  | ok a => simp [Except.map]

theorem mapError_eq_error_iff {x : Except ε α} {f : ε → ε'} {fault' : ε'} :
    x.mapError f = .error fault' ↔ ∃ fault, x = .error fault ∧ f fault = fault' := by
  cases x with
  | error fault => simp [Except.mapError]
  | ok a => simp [Except.mapError]

theorem mapM_eq_error_iff {f : α → Except ε β} {as : List α} :
    as.mapM f = .error fault ↔ ∃ before a after, as = before ++ a :: after ∧
      (∀ b ∈ before, ∃ c, f b = .ok c) ∧ f a = .error fault := by
  induction as with
  | nil =>
    refine iff_of_false (fun h ↦ by cases h) ?_
    rintro ⟨before, a, after, h, -⟩
    exact List.append_ne_nil_of_right_ne_nil before (List.cons_ne_nil a after) h.symm
  | cons b as ih =>
    rw [List.mapM_cons]
    simp only [bind_eq_error_iff, ih]
    constructor
    · rintro (hb | ⟨c, hc, ⟨before, a, after, rfl, hbefore, ha⟩ | ⟨cs, -, h⟩⟩)
      · exact ⟨[], b, as, rfl, List.forall_mem_nil _, hb⟩
      · exact ⟨b :: before, a, after, rfl, List.forall_mem_cons.mpr ⟨⟨c, hc⟩, hbefore⟩, ha⟩
      · cases h
    · rintro ⟨before, a, after, h, hbefore, ha⟩
      cases before with
      | nil =>
        obtain ⟨rfl, -⟩ := List.cons.inj h
        exact .inl ha
      | cons b' before =>
        obtain ⟨rfl, rfl⟩ := List.cons.inj h
        rw [List.forall_mem_cons] at hbefore
        obtain ⟨c, hc⟩ := hbefore.1
        exact .inr ⟨c, hc, .inl ⟨before, a, after, rfl, hbefore.2, ha⟩⟩

theorem exists_mapM_eq_ok_iff {f : α → Except ε β} {as : List α} :
    (∃ bs, as.mapM f = .ok bs) ↔ ∀ a ∈ as, ∃ b, f a = .ok b := by
  constructor
  · rintro ⟨bs, hbs⟩ a ha
    obtain ⟨b, -, hb⟩ := exists_of_mem_left (mapM_eq_ok_iff.mp hbs) ha
    exact ⟨b, hb⟩
  · intro h
    cases hall : as.mapM f with
    | ok bs => exact ⟨bs, rfl⟩
    | error fault =>
      obtain ⟨before, a, after, rfl, -, ha⟩ := mapM_eq_error_iff.mp hall
      obtain ⟨b, hb⟩ := h a (by simp)
      rw [ha] at hb
      cases hb

theorem mapM_eq_error {f : α → Except ε β} {as : List α}
    (hsame : ∀ a ∈ as, (∃ b, f a = .ok b) ∨ f a = .error fault)
    (hsome : ∃ a ∈ as, f a = .error fault) : as.mapM f = .error fault := by
  obtain ⟨a, ha, herror⟩ := hsome
  cases hall : as.mapM f with
  | ok bs =>
    obtain ⟨b, hb⟩ := exists_mapM_eq_ok_iff.mp ⟨bs, hall⟩ a ha
    rw [herror] at hb
    cases hb
  | error fault' =>
    obtain ⟨before, a', after, rfl, -, ha'⟩ := mapM_eq_error_iff.mp hall
    rcases hsame a' (by simp) with ⟨b, hb⟩ | hfault
    · rw [ha'] at hb
      cases hb
    · rw [Except.error.inj (ha'.symm.trans hfault)]

end

/-! ## Quotes -/

namespace Token

variable {found : List Token} {cs : List Char} {fault : ParseFault}

theorem count_squeeze (cs : List Char) : (squeeze cs).count '"' = cs.count '"' := by
  induction cs with
  | nil => rfl
  | cons c cs ih =>
    cases hc : isGap c with
    | false => rw [squeeze_cons_of_not_gap hc, List.count_cons, List.count_cons, ih]
    | true =>
      have hquote : c ≠ '"' := by
        rintro rfl
        exact absurd hc (by decide)
      rw [List.count_cons_of_ne hquote, ← ih]
      rcases squeeze_cons_of_gap hc cs with ⟨-, h⟩ | ⟨-, h⟩
      · rw [h]
      · rw [h, List.count_cons_of_ne (by decide)]

theorem count_dropWhile {p : Char → Bool} (hp : p '"' = false) (cs : List Char) :
    (cs.dropWhile p).count '"' = cs.count '"' := by
  have hnone : (cs.takeWhile p).count '"' = 0 := by
    refine List.count_eq_zero.mpr fun hmem ↦ ?_
    rw [List.mem_takeWhile_imp hmem] at hp
    cases hp
  have hsplit := congrArg (List.count '"') (List.takeWhile_append_dropWhile (p := p) (l := cs))
  rwa [List.count_append, hnone, Nat.zero_add] at hsplit

/-- The scan fails if the number of quotes ahead of it is odd, and in no other way. -/
theorem scan_eq_error_iff : scan found cs = .error fault ↔
    fault = .unterminatedString ∧ Odd (cs.count '"') := by
  -- outside of quoted texts: a quoted text takes two quotes away, and all else takes none
  fun_induction scan found cs with
  | case1 found =>
    refine iff_of_false (fun h ↦ by cases h) ?_
    rintro ⟨-, h⟩
    exact absurd h (by decide)
  | case2 found rest ih => rw [ih, List.count_cons_of_ne (by decide)]
  | case3 found rest _ ih => rw [ih, List.count_cons_of_ne (by decide)]
  | case4 found rest _ _ ih => rw [ih, List.count_cons_of_ne (by decide)]
  | case5 found rest hnil =>
    have hrest := count_dropWhile (p := (· != '"')) rfl rest
    rw [hnil, List.count_nil] at hrest
    rw [List.count_cons_self, ← hrest, and_iff_left (by decide), Except.error.injEq, eq_comm]
  | case6 found rest c after hcons _ _ _ ih =>
    have hrest := count_dropWhile (p := (· != '"')) rfl rest
    have hhead : c ∈ (rest.dropWhile (· != '"')).head? := by
      rw [hcons]
      rfl
    have hquote : c = '"' := by simpa using eq_false_of_mem_head?_dropWhile hhead
    rw [hcons, hquote, List.count_cons_self] at hrest
    have htwo : Even (1 + 1) := by decide
    rw [ih, List.count_cons_self, ← hrest, add_assoc, Nat.odd_add, iff_true_right htwo]
  | case7 found c rest _ _ _ hquote ih =>
    rw [ih, List.count_cons_of_ne hquote, count_dropWhile (by decide)]

/-- **Quotes.** A text cannot be taken apart if the number of its quotes is odd, since one of them
does not close, and there is no other reason. -/
theorem ofText_eq_error_iff {text : String} : ofText text = .error fault ↔
    fault = .unterminatedString ∧ Odd (text.toList.count '"') := by
  rw [ofText, scan_eq_error_iff, count_squeeze]

end Token

namespace Expr

variable {levels : Nat} {ts : List Token} {fault : ParseFault}

/-! ## Words -/

theorem fault_of_ofWord {word : String} (h : ofWord word = .error fault) :
    fault = .unknownValue word ∨ ∃ cause, fault = .address cause := by
  rw [ofWord] at h
  split at h
  next => cases h
  next =>
    split at h
    next =>
      obtain ⟨cause, -, hcause⟩ := mapError_eq_error_iff.mp (map_eq_error_iff.mp h)
      exact .inr ⟨cause, hcause.symm⟩
    next =>
      split at h
      next =>
        split at h
        next =>
          obtain ⟨cause, -, hcause⟩ := mapError_eq_error_iff.mp (map_eq_error_iff.mp h)
          exact .inr ⟨cause, hcause.symm⟩
        next => exact .inl (Except.error.inj h).symm
      next => exact .inl (Except.error.inj h).symm

/-! ## Tokens that are no expression -/

/-- The tokens are no expression, for this reason. So many levels are left below them. -/
inductive Fails (levels : Nat) : List Token → ParseFault → Prop
  /-- There are none. -/
  | empty : Fails levels [] .emptyExpression
  /-- The first closes a parenthesis. -/
  | closeParen (rest : List Token) : Fails levels (.closeParen :: rest) .unexpectedCloseParen
  /-- Something follows a word. -/
  | afterWord (word : String) (t : Token) (rest : List Token) :
    Fails levels (.value word :: t :: rest) .trailingTokens
  /-- Something follows a quoted text. -/
  | afterText (s : String) (t : Token) (rest : List Token) :
    Fails levels (.quoted s :: t :: rest) .trailingTokens
  /-- A word denotes nothing. -/
  | word {word : String} {fault : ParseFault} (h : ofWord word = .error fault) :
    Fails levels [.value word] fault
  /-- A call has no name. -/
  | noName {rest : List Token} (h : ∀ name after, rest ≠ .value name :: after) :
    Fails levels (.openParen :: rest) .missingFunctionName
  /-- An argument fails, and none before it. -/
  | argument {name : String} {rest slice : List Token} {before after : List (List Token)}
    {fault : ParseFault} (hslices : (splitArguments rest).1 = before ++ slice :: after)
    (hbefore : ∀ slice ∈ before, ∃ arg, ofTokens levels slice = .ok arg)
    (hslice : ofTokens levels slice = .error fault) :
    Fails levels (.openParen :: .value name :: rest) fault
  /-- The arguments are expressions, and something follows the call. -/
  | afterCall {name : String} {rest after : List Token} {args : List Expr} {t : Token}
    (hargs : (splitArguments rest).1.mapM (ofTokens levels) = .ok args)
    (hend : (splitArguments rest).2 = .closed (t :: after)) :
    Fails levels (.openParen :: .value name :: rest) .trailingAfterCall
  /-- The arguments are expressions, and the call does not close. -/
  | unclosed {name : String} {rest : List Token} {args : List Expr}
    (hargs : (splitArguments rest).1.mapM (ofTokens levels) = .ok args)
    (hend : (splitArguments rest).2 = .unclosed) :
    Fails levels (.openParen :: .value name :: rest) .unmatchedParen

/-- **Faults.** Tokens are read as a fault exactly if they are no expression for this reason. -/
theorem ofTokens_eq_error_iff :
    ofTokens (levels + 1) ts = .error fault ↔ Fails levels ts fault := by
  constructor
  · intro h
    rw [ofTokens.eq_def] at h
    dsimp only at h
    split at h
    next hlevels => cases hlevels
    next =>
      cases h
      exact .empty
    next rest _ =>
      cases h
      exact .closeParen rest
    next word _ => exact .word h
    next => cases h
    next word t rest _ =>
      cases h
      exact .afterWord word t rest
    next s t rest _ =>
      cases h
      exact .afterText s t rest
    next levels' name rest hlevels =>
      obtain rfl := Nat.succ.inj hlevels
      -- all arguments are read before the end of the call is looked at
      split at h
      next fault' hargs =>
        obtain rfl := Except.error.inj h
        obtain ⟨before, slice, after, hslices, hbefore, hslice⟩ := mapM_eq_error_iff.mp hargs
        exact .argument hslices hbefore hslice
      next args hargs =>
        split at h
        next => cases h
        next hend =>
          cases h
          exact .afterCall hargs hend
        next hend =>
          cases h
          exact .unclosed hargs hend
    next rest hname hlevels =>
      cases h
      exact .noName hname
  · intro h
    cases h with
    | empty => rfl
    | closeParen => rfl
    | afterWord => rfl
    | afterText => rfl
    | word h => exact h
    | noName h =>
      rw [ofTokens]
      exact h
    | argument hslices hbefore hslice =>
      have hargs := mapM_eq_error_iff.mpr ⟨_, _, _, hslices, hbefore, hslice⟩
      simp only [ofTokens, hargs]
    | afterCall hargs hend => simp only [ofTokens, hargs, hend]
    | unclosed hargs hend => simp only [ofTokens, hargs, hend]

/-! ## Quotes that do not close -/

theorem ofTokens_ne_unterminated (levels : Nat) :
    ∀ ts, ofTokens levels ts ≠ .error .unterminatedString := by
  induction levels with
  | zero =>
    intro ts h
    rw [ofTokens] at h
    cases h
  | succ levels ih =>
    intro ts h
    cases ofTokens_eq_error_iff.mp h with
    | word hword =>
      rcases fault_of_ofWord hword with hfault | ⟨cause, hfault⟩
      · cases hfault
      · cases hfault
    | argument _ _ hslice => exact ih _ hslice

/-- **Quotes that do not close.** A text cannot be taken apart exactly if the number of its quotes
is odd, and the fault is always the same. It is that of the formula too, whatever else is wrong with
the text, and no formula has it for another reason. Where the number is even, the text is taken
apart, and the tokens make up all of it. -/
theorem unterminated_iff_odd_quotes (text : String) :
    (∀ fault, Token.ofText text = .error fault ↔
      fault = .unterminatedString ∧ Odd (text.toList.count '"')) ∧
    (parse? text = .error .unterminatedString ↔ Odd (text.toList.count '"')) ∧
    ((∃ ts, Token.ofText text = .ok ts ∧ Token.Writes ts text.toList) ↔
      Even (text.toList.count '"')) := by
  have hodd : Token.ofText text = .error .unterminatedString ↔ Odd (text.toList.count '"') := by
    rw [Token.ofText_eq_error_iff, and_iff_right rfl]
  refine ⟨fun fault ↦ Token.ofText_eq_error_iff, ?_, ?_⟩
  · rw [← hodd, parse?]
    split
    next fault hfault => rw [hfault, Except.error.injEq, Except.error.injEq]
    next hnil =>
      rw [hnil]
      exact iff_of_false (fun h ↦ by cases h) fun h ↦ by cases h
    next ts _ hts =>
      rw [hts, map_eq_error_iff]
      exact iff_of_false (ofTokens_ne_unterminated _ ts) fun h ↦ by cases h
  · rw [← Nat.not_odd_iff_even, ← hodd]
    cases htext : Token.ofText text with
    | error fault =>
      rw [(Token.ofText_eq_error_iff.mp htext).1]
      refine iff_of_false ?_ fun h ↦ h rfl
      rintro ⟨ts, hts, -⟩
      cases hts
    | ok ts =>
      exact iff_of_true ⟨ts, rfl, Token.ofText_eq_ok_iff.mp htext⟩ fun h ↦ by cases h

end Expr

end FormulaSheet
