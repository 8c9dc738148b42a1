import FormulaSheet.Proofs.Formula.Slices
import Mathlib.Logic.Relation

/-!
# A call in one pass

`ofTokens` first cuts the tokens of a call into slices and reads them afterwards. The usual way to
do the same is one loop over the positions of the tokens. It counts the parentheses that are open,
that of the call among them, and keeps the position where the argument under way begins. When only
the parenthesis of the call is open behind a token, the tokens up to this one are an argument, which
is read on the spot; when none is open, the call has ended.

Here the loop is a step on `Turn`s. A step gives nothing if the loop has ended, and also where it
would have to count below zero or to take tokens from positions that do not exist. The loop is shown
to come to the answer of `ofTokens`, so neither ever happens.

## The invariant

At each place the tokens of the argument under way are open by one parenthesis less than is counted.
So there is always one to be closed, and when the count comes back to one the argument is a slice.
-/

namespace FormulaSheet

open Relation

namespace Expr

/-! ## The loop -/

/-- Where the loop is among the tokens of a call. -/
structure Place where
  /-- The position of the token to be looked at. -/
  index : Nat
  /-- The position where the argument under way begins. -/
  start : Nat
  /-- How many parentheses are open, that of the call among them. -/
  openParens : Nat

/-- Behind the parenthesis and the name. -/
def Place.first : Place := ⟨2, 2, 1⟩

/-- How many parentheses are open behind a token; nothing if one closes where none is open. -/
def countParens? (openParens : Nat) : Token → Option Nat
  | .openParen => some (openParens + 1)
  | .closeParen => if openParens = 0 then none else some (openParens - 1)
  | .value _ => some openParens
  | .quoted _ => some openParens

/-- The tokens from one position to another, both included; nothing if there are no such
positions. -/
def slice? (ts : List Token) (start index : Nat) : Option (List Token) :=
  if start ≤ index + 1 ∧ index < ts.length then some ((ts.take (index + 1)).drop start) else none

/-- What the loop has come to. -/
inductive Turn where
  /-- It is at a place. The arguments before it have been read, the latest first. -/
  | looking (place : Place) (args : List Expr)
  /-- It has ended. -/
  | ended (result : Except ParseFault Expr)

namespace Turn

/-- Looks at one of the tokens of a call. Arguments are read by `read`. -/
def step (read : List Token → Except ParseFault Expr) (name : String) (ts : List Token) :
    Turn → Option Turn
  | ended _ => none
  | looking p args =>
    match ts[p.index]? with
    | none => some (ended (.error .unmatchedParen))
    | some t => do
      let openParens ← countParens? p.openParens t
      if openParens = 1 then
        let slice ← slice? ts p.start p.index
        match read slice with
        | .error fault => some (ended (.error fault))
        | .ok arg => some (looking ⟨p.index + 1, p.index + 1, openParens⟩ (arg :: args))
      else if openParens = 0 then
        if p.index + 1 = ts.length then some (ended (.ok (named name args.reverse)))
        else some (ended (.error .trailingAfterCall))
      else some (looking ⟨p.index + 1, p.start, openParens⟩ args)

/-- The loop comes from the first turn to the second. -/
def Runs (read : List Token → Except ParseFault Expr) (name : String) (ts : List Token) :
    Turn → Turn → Prop :=
  ReflTransGen fun turn turn' ↦ turn.step read name ts = some turn'

end Turn

variable {read : List Token → Except ParseFault Expr} {name : String} {ts rest current : List Token}
  {found : List (List Token)} {args : List Expr} {t : Token} {p : Place} {start index : Nat}
  {levels depth openParens : Nat}

theorem countParens?_of_ne (hopen : t ≠ .openParen) (hclose : t ≠ .closeParen) (n : Nat) :
    countParens? n t = some n := by
  cases t with
  | openParen => exact absurd rfl hopen
  | closeParen => exact absurd rfl hclose
  | value => rfl
  | quoted => rfl

/-! ## Positions -/

theorem getElem?_of_drop (h : ts.drop index = t :: rest) : ts[index]? = some t := by
  rw [← List.head?_drop, h, List.head?_cons]

theorem drop_succ_of_drop (h : ts.drop index = t :: rest) : ts.drop (index + 1) = rest := by
  rw [← List.tail_drop, h, List.tail_cons]

theorem drop_take_succ (hstart : start ≤ index) (ht : ts[index]? = some t) :
    (ts.take (index + 1)).drop start = (ts.take index).drop start ++ [t] := by
  obtain ⟨hlt, -⟩ := List.getElem?_eq_some_iff.mp ht
  rw [List.take_add_one, ht, Option.toList_some, List.drop_append_of_le_length]
  rw [List.length_take]
  omega

theorem slice?_eq (hstart : start ≤ index) (ht : ts[index]? = some t) :
    slice? ts start index = some ((ts.take index).drop start ++ [t]) := by
  obtain ⟨hlt, -⟩ := List.getElem?_eq_some_iff.mp ht
  rw [slice?, if_pos ⟨by omega, hlt⟩, drop_take_succ hstart ht]

/-! ## The invariant -/

/-- What holds at every place that the loop comes to. -/
structure Sound (ts : List Token) (p : Place) : Prop where
  /-- The argument under way begins at the place or before it. -/
  start_le : p.start ≤ p.index
  /-- The parenthesis of the call is open. -/
  pos : 0 < p.openParens
  /-- All other open parentheses are in the argument under way. -/
  opened : Opened (p.openParens - 1) ((ts.take p.index).drop p.start)

/-- **Counting.** At a token the count does not fall below zero. If it comes to one, the tokens up
to this one are in bounds and are a slice; and the invariant is kept unless it comes to zero. -/
theorem Sound.count (h : Sound ts p) (ht : ts[p.index]? = some t) :
    ∃ openParens, countParens? p.openParens t = some openParens ∧
      (openParens = 1 → ∃ slice, slice? ts p.start p.index = some slice ∧ IsSlice slice) ∧
      (1 < openParens → Sound ts ⟨p.index + 1, p.start, openParens⟩) := by
  obtain ⟨index, start, openParens⟩ := p
  obtain ⟨hstart, hpos, hopened⟩ := h
  dsimp only at ht hstart hpos hopened ⊢
  rw [slice?_eq hstart ht]
  obtain ⟨depth, rfl⟩ : ∃ depth, openParens = depth + 1 := ⟨openParens - 1, by omega⟩
  rw [Nat.add_sub_cancel] at hopened
  have hnext {depth' : Nat} (h : Opened depth' ((ts.take index).drop start ++ [t])) :
      Sound ts ⟨index + 1, start, depth' + 1⟩ :=
    ⟨hstart.trans (Nat.le_succ index), Nat.succ_pos depth',
      by rwa [drop_take_succ hstart ht, Nat.add_sub_cancel]⟩
  -- an opening parenthesis is in the argument under way, whatever the count
  by_cases hopen : t = .openParen
  · subst hopen
    exact ⟨depth + 2, rfl, fun hone ↦ by omega, fun _ ↦ hnext hopened.openParen⟩
  -- a closing one ends the argument if only that of the call stays open
  by_cases hclose : t = .closeParen
  · subst hclose
    refine ⟨depth, rfl, fun hone ↦ ?_, fun hlt ↦ ?_⟩
    · obtain rfl := hone
      exact ⟨_, rfl, hopened.isSlice⟩
    · obtain ⟨depth, rfl⟩ : ∃ d, depth = d + 2 := ⟨depth - 2, by omega⟩
      exact hnext hopened.closeParen
  -- any other token is an argument by itself, or inside one
  have hsingle : IsSlice [t] := isSlice_singleton hopen hclose
  refine ⟨depth + 1, countParens?_of_ne hopen hclose _, fun hone ↦ ?_, fun hlt ↦ ?_⟩
  · obtain rfl : depth = 0 := by omega
    rw [show (ts.take index).drop start = [] from hopened, List.nil_append]
    exact ⟨_, rfl, hsingle⟩
  · obtain ⟨depth, rfl⟩ : ∃ d, depth = d + 1 := ⟨depth - 1, by omega⟩
    exact hnext (hopened.append hsingle.balanced)

theorem Sound.behind (index : Nat) (ts : List Token) : Sound ts ⟨index, index, 1⟩ where
  start_le := le_rfl
  pos := Nat.one_pos
  opened := List.drop_eq_nil_of_le (List.length_take_le _ _)

/-! ## Steps -/

namespace Turn

theorem step_of_none (ht : ts[p.index]? = none) :
    (looking p args).step read name ts = some (ended (.error .unmatchedParen)) := by
  rw [step, ht]

theorem step_of_lt (ht : ts[p.index]? = some t)
    (hcount : countParens? p.openParens t = some openParens) (hlt : 1 < openParens) :
    (looking p args).step read name ts
      = some (looking ⟨p.index + 1, p.start, openParens⟩ args) := by
  simp only [step, ht, hcount, Option.bind_eq_bind, Option.bind_some]
  rw [if_neg (by omega), if_neg (by omega)]

theorem step_of_one {slice : List Token} (ht : ts[p.index]? = some t)
    (hcount : countParens? p.openParens t = some 1)
    (hslice : slice? ts p.start p.index = some slice) :
    (looking p args).step read name ts = some (match read slice with
      | .error fault => ended (.error fault)
      | .ok arg => looking ⟨p.index + 1, p.index + 1, 1⟩ (arg :: args)) := by
  simp only [step, ht, hcount, hslice, Option.bind_eq_bind, Option.bind_some, if_pos]
  cases read slice with
  | error fault => rfl
  | ok arg => rfl

theorem step_of_zero (ht : ts[p.index]? = some t)
    (hcount : countParens? p.openParens t = some 0) :
    (looking p args).step read name ts = some (ended (if p.index + 1 = ts.length
      then .ok (named name args.reverse) else .error .trailingAfterCall)) := by
  simp only [step, ht, hcount, Option.bind_eq_bind, Option.bind_some]
  rw [if_neg Nat.zero_ne_one, if_pos trivial, apply_ite ended, apply_ite some]

/-- What the invariant is while the loop goes on. -/
def IsSound (ts : List Token) : Turn → Prop
  | looking p _ => Sound ts p
  | ended _ => True

theorem IsSound.step {turn turn' : Turn} (h : turn.IsSound ts)
    (hstep : turn.step read name ts = some turn') : turn'.IsSound ts := by
  cases turn with
  | ended => cases hstep
  | looking p args =>
    cases ht : ts[p.index]? with
    | none =>
      rw [step_of_none ht] at hstep
      obtain rfl := Option.some.inj hstep
      trivial
    | some t =>
      obtain ⟨openParens, hcount, hone, hlt⟩ := Sound.count h ht
      -- the token ends the call, the argument, or neither
      rcases Nat.lt_trichotomy openParens 1 with hzero | rfl | hmore
      · obtain rfl : openParens = 0 := by omega
        rw [step_of_zero ht hcount] at hstep
        obtain rfl := Option.some.inj hstep
        trivial
      · obtain ⟨slice, hslice, -⟩ := hone rfl
        rw [step_of_one ht hcount hslice] at hstep
        obtain rfl := Option.some.inj hstep
        cases read slice with
        | error fault => trivial
        | ok arg => exact Sound.behind _ ts
      · rw [step_of_lt ht hcount hmore] at hstep
        obtain rfl := Option.some.inj hstep
        exact hlt hmore

theorem IsSound.runs {turn turn' : Turn} (h : turn.IsSound ts)
    (hruns : Runs read name ts turn turn') : turn'.IsSound ts := by
  induction hruns with
  | refl => exact h
  | tail _ hstep ih => exact ih.step hstep

end Turn

/-! ## The answer -/

/-- What becomes of a call that has been cut into slices. -/
def callResult (read : List Token → Except ParseFault Expr) (name : String) :
    List (List Token) × CallEnd → Except ParseFault Expr
  | (slices, ending) =>
    match slices.mapM read with
    | .error fault => .error fault
    | .ok args =>
      match ending with
      | .closed [] => .ok (named name args)
      | .closed (_ :: _) => .error .trailingAfterCall
      | .unclosed => .error .unmatchedParen

theorem ofTokens_call_eq (levels : Nat) (name : String) (rest : List Token) :
    ofTokens (levels + 1) (.openParen :: .value name :: rest)
      = callResult (ofTokens levels) name (splitArguments rest) := by
  rw [ofTokens]
  rfl

theorem prefix_cutArguments (found : List (List Token)) (current : List Token) (depth : Nat)
    (ts : List Token) : found.reverse <+: (cutArguments found current depth ts).1 := by
  have hstep (slice : List Token) (found : List (List Token)) :
      found.reverse <+: (slice :: found).reverse :=
    List.reverse_prefix.mpr (List.suffix_cons slice found)
  fun_induction cutArguments found current depth ts with
  | case1 => exact List.prefix_rfl
  | case2 found current depth ts ih => exact ih
  | case3 => exact List.prefix_rfl
  | case4 found current ts ih => exact (hstep _ found).trans ih
  | case5 found current ts depth ih => exact ih
  | case6 found current t ts _ _ ih => exact (hstep _ found).trans ih
  | case7 found current depth t ts _ _ _ ih => exact ih

theorem callResult_of_error {slice : List Token} {fault : ParseFault}
    (hargs : List.Forall₂ (fun slice arg ↦ read slice = .ok arg) found args)
    (hslice : read slice = .error fault) (depth : Nat) (rest : List Token) :
    callResult read name (cutArguments (slice :: found) [] depth rest) = .error fault := by
  obtain ⟨later, hlater⟩ := prefix_cutArguments (slice :: found) [] depth rest
  have hfault : (cutArguments (slice :: found) [] depth rest).1.mapM read = .error fault := by
    rw [← hlater, List.reverse_cons, List.append_assoc, mapM_eq_error_iff]
    refine ⟨found.reverse, slice, later, rfl, fun s hs ↦ ?_, hslice⟩
    obtain ⟨arg, -, harg⟩ := exists_of_mem_left hargs (List.mem_reverse.mp hs)
    exact ⟨arg, harg⟩
  rw [callResult, hfault]

/-- The loop is where the cutting is, and has read the slices that have been found. -/
structure Follows (read : List Token → Except ParseFault Expr) (ts : List Token) (p : Place)
    (args : List Expr) (found : List (List Token)) (current : List Token) (depth : Nat)
    (rest : List Token) : Prop where
  /-- The same tokens are still to be looked at. -/
  rest_eq : ts.drop p.index = rest
  /-- The argument under way begins at the place or before it. -/
  start_le : p.start ≤ p.index
  /-- It has the same tokens so far. -/
  current_eq : (ts.take p.index).drop p.start = current.reverse
  /-- The loop counts one parenthesis more, that of the call. -/
  open_eq : p.openParens = depth + 1
  /-- The slices have been read. -/
  read_eq : List.Forall₂ (fun slice arg ↦ read slice = .ok arg) found args

namespace Follows

theorem getElem?_eq (h : Follows read ts p args found current depth (t :: rest)) :
    ts[p.index]? = some t :=
  getElem?_of_drop h.rest_eq

theorem slice?_eq (h : Follows read ts p args found current depth (t :: rest)) :
    slice? ts p.start p.index = some (t :: current).reverse := by
  rw [Expr.slice?_eq h.start_le h.getElem?_eq, h.current_eq, List.reverse_cons]

theorem pass (h : Follows read ts p args found current depth (t :: rest)) (depth' : Nat) :
    Follows read ts ⟨p.index + 1, p.start, depth' + 1⟩ args found (t :: current) depth' rest where
  rest_eq := drop_succ_of_drop h.rest_eq
  start_le := h.start_le.trans (Nat.le_succ _)
  current_eq := by
    rw [drop_take_succ h.start_le h.getElem?_eq, h.current_eq, List.reverse_cons]
  open_eq := rfl
  read_eq := h.read_eq

theorem argument {arg : Expr} (h : Follows read ts p args found current depth (t :: rest))
    (harg : read (t :: current).reverse = .ok arg) :
    Follows read ts ⟨p.index + 1, p.index + 1, 1⟩ (arg :: args) ((t :: current).reverse :: found)
      [] 0 rest where
  rest_eq := drop_succ_of_drop h.rest_eq
  start_le := le_rfl
  current_eq := List.drop_eq_nil_of_le (List.length_take_le _ _)
  open_eq := rfl
  read_eq := .cons harg h.read_eq

/-- Behind a token that does not end an argument, the loop goes on like the cutting. -/
theorem runs_pass {turn : Turn} (h : Follows read ts p args found current depth (t :: rest))
    {depth' : Nat} (hcount : countParens? (depth + 1) t = some (depth' + 2))
    (hruns : Follows read ts ⟨p.index + 1, p.start, depth' + 2⟩ args found (t :: current)
      (depth' + 1) rest →
      Turn.Runs read name ts (.looking ⟨p.index + 1, p.start, depth' + 2⟩ args) turn) :
    Turn.Runs read name ts (.looking p args) turn := by
  rw [← h.open_eq] at hcount
  exact (hruns (h.pass (depth' + 1))).head (Turn.step_of_lt h.getElem?_eq hcount (by omega))

/-- Behind a token that ends an argument, the loop goes on like the cutting, unless the argument
fails. -/
theorem runs_argument (h : Follows read ts p args found current depth (t :: rest))
    (hcount : countParens? (depth + 1) t = some 1)
    (hruns : ∀ {q args}, Follows read ts q args ((t :: current).reverse :: found) [] 0 rest →
      Turn.Runs read name ts (.looking q args) (.ended
        (callResult read name (cutArguments ((t :: current).reverse :: found) [] 0 rest)))) :
    Turn.Runs read name ts (.looking p args) (.ended
      (callResult read name (cutArguments ((t :: current).reverse :: found) [] 0 rest))) := by
  rw [← h.open_eq] at hcount
  have hstep : (Turn.looking p args).step read name ts = some _ :=
    Turn.step_of_one h.getElem?_eq hcount h.slice?_eq
  cases harg : read (t :: current).reverse with
  | error fault =>
    rw [harg] at hstep
    rw [callResult_of_error h.read_eq harg]
    exact .single hstep
  | ok arg =>
    rw [harg] at hstep
    exact (hruns (h.argument harg)).head hstep

theorem mapM_eq (h : Follows read ts p args found current depth rest) :
    found.reverse.mapM read = .ok args.reverse :=
  mapM_eq_ok_iff.mpr (List.forall₂_reverse_iff.mpr h.read_eq)

theorem runs_unclosed (h : Follows read ts p args found current depth []) :
    Turn.Runs read name ts (.looking p args)
      (.ended (callResult read name (found.reverse, .unclosed))) := by
  have hnone : ts[p.index]? = none := List.getElem?_eq_none (List.drop_eq_nil_iff.mp h.rest_eq)
  rw [callResult, h.mapM_eq]
  exact .single (Turn.step_of_none hnone)

theorem runs_closed (h : Follows read ts p args found current 0 (.closeParen :: rest)) :
    Turn.Runs read name ts (.looking p args)
      (.ended (callResult read name (found.reverse, .closed rest))) := by
  have hcount : countParens? p.openParens .closeParen = some 0 := by rw [h.open_eq]; rfl
  have hlength : p.index + 1 = ts.length ↔ rest = [] := by
    obtain ⟨hlt, -⟩ := List.getElem?_eq_some_iff.mp h.getElem?_eq
    rw [← drop_succ_of_drop h.rest_eq, List.drop_eq_nil_iff]
    omega
  have hstep : (Turn.looking p args).step read name ts = some _ :=
    Turn.step_of_zero h.getElem?_eq hcount
  rw [callResult, h.mapM_eq]
  cases rest with
  | nil =>
    rw [if_pos (hlength.mpr rfl)] at hstep
    exact .single hstep
  | cons t after =>
    rw [if_neg fun heq ↦ List.cons_ne_nil t after (hlength.mp heq)] at hstep
    exact .single hstep

/-- **The loop ends** with the answer. -/
theorem runs (h : Follows read ts p args found current depth rest) :
    Turn.Runs read name ts (.looking p args)
      (.ended (callResult read name (cutArguments found current depth rest))) := by
  fun_induction cutArguments found current depth rest generalizing p args with
  | case1 found current depth => exact h.runs_unclosed
  | case2 found current depth rest ih => exact h.runs_pass rfl ih
  | case3 found current rest => exact h.runs_closed
  | case4 found current rest ih => exact h.runs_argument rfl ih
  | case5 found current rest depth ih => exact h.runs_pass rfl ih
  | case6 found current t rest hopen hclose ih =>
    exact h.runs_argument (countParens?_of_ne hopen hclose _) ih
  | case7 found current depth t rest hopen hclose hclose' ih =>
    have hne : t ≠ .closeParen := fun ht ↦ by
      cases depth with
      | zero => exact hclose rfl ht
      | succ depth => exact hclose' depth rfl ht
    exact h.runs_pass (countParens?_of_ne hopen hne _) ih

end Follows

/-- Over the tokens of a call, the loop comes to what `ofTokens` makes of them. -/
theorem runs_ofTokens (levels : Nat) (name : String) (rest : List Token) :
    Turn.Runs (ofTokens levels) name (.openParen :: .value name :: rest) (.looking .first [])
      (.ended (ofTokens (levels + 1) (.openParen :: .value name :: rest))) := by
  rw [ofTokens_call_eq]
  exact Follows.runs ⟨rfl, le_rfl, rfl, rfl, .nil⟩

/-- Wherever the loop comes to, counting goes on. An argument that ends there is a slice, and is not
blamed for its outline. -/
theorem exists_countParens?_of_runs {levels : Nat} {name : String} {ts : List Token} {p : Place}
    {args : List Expr} {t : Token}
    (hruns : Turn.Runs (ofTokens levels) name ts (.looking .first []) (.looking p args))
    (ht : ts[p.index]? = some t) :
    ∃ openParens, countParens? p.openParens t = some openParens ∧
      (openParens = 1 → ∃ slice, slice? ts p.start p.index = some slice ∧ slice ≠ [] ∧
        IsSlice slice ∧
        ∀ fault, ofTokens levels slice = .error fault → fault.isOutline = false) := by
  have hfirst : (Turn.looking .first []).IsSound ts := Sound.behind 2 ts
  have hsound : Sound ts p := hfirst.runs hruns
  obtain ⟨openParens, hcount, hone, -⟩ := hsound.count ht
  refine ⟨openParens, hcount, fun h ↦ ?_⟩
  obtain ⟨slice, hslice, hshape⟩ := hone h
  exact ⟨slice, hslice, hshape.ne_nil, hshape, fun fault ↦ hshape.isOutline_eq_false⟩

theorem parse?_eq_outline_iff {text : String} {fault : ParseFault} :
    parse? text = .error fault ∧ fault.isOutline = true ↔ ∃ ts, Token.ofText text = .ok ts ∧
      Misshapen ts fault ∧ ∀ slice ∈ slicesOf ts, ∃ arg, ofTokens maxNesting slice = .ok arg := by
  rw [parse?]
  cases htext : Token.ofText text with
  | error fault' =>
    obtain ⟨rfl, -⟩ := Token.ofText_eq_error_iff.mp htext
    refine iff_of_false ?_ ?_
    · rintro ⟨h, houtline⟩
      cases h
      cases houtline
    · rintro ⟨ts, hts, -⟩
      cases hts
  | ok ts =>
    cases ts with
    | nil =>
      refine iff_of_false ?_ ?_
      · rintro ⟨h, -⟩
        cases h
      · rintro ⟨ts, hts, hshape, -⟩
        cases hts
        cases hshape
    | cons t rest =>
      simp only [map_eq_error_iff, Except.ok.injEq, exists_eq_left']
      exact ofTokens_eq_outline_iff (List.cons_ne_nil t rest)

/-- **Arguments are slices.** In every call, whatever its tokens are, the loop comes to the answer.
On the way it never counts below zero, and the arguments it takes are in bounds and not empty: each
is a word, a quoted text, or all from a parenthesis to its match, and is not blamed for its outline.
So nothing is read from no tokens, and who is told of a bad outline is told about the whole text. -/
theorem slices_of_calls (text : String) :
    (∀ levels name rest ts, ts = .openParen :: .value name :: rest →
      Turn.Runs (ofTokens levels) name ts (.looking .first []) (.ended (ofTokens (levels + 1) ts)) ∧
      ∀ p args, Turn.Runs (ofTokens levels) name ts (.looking .first []) (.looking p args) →
        ∀ t, ts[p.index]? = some t → ∃ openParens, countParens? p.openParens t = some openParens ∧
          (openParens = 1 → ∃ slice, slice? ts p.start p.index = some slice ∧ slice ≠ [] ∧
            IsSlice slice ∧
            ∀ fault, ofTokens levels slice = .error fault → fault.isOutline = false)) ∧
    parse? text ≠ .error .emptyExpression ∧
    ∀ fault, parse? text = .error fault ∧ fault.isOutline = true ↔
      ∃ ts, Token.ofText text = .ok ts ∧ Misshapen ts fault ∧
        ∀ slice ∈ slicesOf ts, ∃ arg, ofTokens maxNesting slice = .ok arg := by
  refine ⟨?_, fun hempty ↦ ?_, fun fault ↦ parse?_eq_outline_iff⟩
  · rintro levels name rest ts rfl
    exact ⟨runs_ofTokens levels name rest, fun p args hruns t ht ↦
      exists_countParens?_of_runs hruns ht⟩
  · obtain ⟨ts, -, hshape, -⟩ := parse?_eq_outline_iff.mp ⟨hempty, rfl⟩
    cases hshape

/-- An argument of a call that is followed by a word. -/
theorem slices_of_calls_followed :
    let ts : List Token := [.openParen, .value "F", .openParen, .value "G", .closeParen,
      .quoted "a", .closeParen, .value "2"]
    Token.ofText "(F (G) \"a\") 2" = .ok ts ∧
      IsSlice [.openParen, .value "G", .closeParen] ∧
      parse? "(F (G) \"a\") 2" = .error .trailingAfterCall := by
  intro ts
  have htext : Token.ofText "(F (G) \"a\") 2" = .ok ts := by cbv
  obtain ⟨hcalls, -, houtline⟩ := slices_of_calls "(F (G) \"a\") 2"
  have hruns : Turn.Runs (ofTokens maxNesting) "F" ts (.looking .first [])
      (.looking ⟨4, 2, 2⟩ []) := .tail (.single rfl) rfl
  obtain ⟨openParens, hcount, hone⟩ :=
    (hcalls maxNesting "F" _ ts rfl).2 _ _ hruns .closeParen rfl
  obtain ⟨slice, hslice, -, hshape, -⟩ := hone (Option.some.inj hcount).symm
  obtain rfl := Option.some.inj hslice
  have hname : Balanced [.value "G"] := .value "G" .nil
  have hinside : Balanced [.openParen, .value "G", .closeParen, .quoted "a"] :=
    hname.parens (.quoted "a" .nil)
  have hslices : ∀ slice ∈ slicesOf ts, ∃ arg, ofTokens maxNesting slice = .ok arg := by
    rw [show slicesOf ts = [[.openParen, .value "G", .closeParen], [.quoted "a"]] from rfl,
      List.forall_mem_cons, List.forall_mem_singleton]
    exact ⟨⟨named "G" [], rfl⟩, ⟨.text "a", rfl⟩⟩
  exact ⟨htext, hshape,
    ((houtline .trailingAfterCall).mpr ⟨ts, htext, .afterCall "F" hinside _ [], hslices⟩).1⟩

end Expr
end FormulaSheet
