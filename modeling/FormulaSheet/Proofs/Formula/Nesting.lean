import FormulaSheet.Proofs.Formula.Canonical
import FormulaSheet.Proofs.Formula.Faults
import FormulaSheet.Proofs.Formula.Spacing

/-!
# Nested calls

Formulas in which more than `maxNesting` calls lie inside one another are meant to be refused. What
the parser counts is something else. It numbers expressions by how deep they lie, the outermost one
being at zero, and refuses what lies deeper than `maxNesting`, whether it is a call or not.

## Calls and arguments

An expression with the number `n` lies inside `n` calls. If it is a call itself, then `n + 1` calls
are nested; and if this call has an argument, there is an expression with the number `n + 1`. So
the calls that the parser counts are those that have arguments. A call without arguments is one more
than it counts, but only where it is innermost.

## The call that is spared

Hence a formula with one call too many is spared if none of its innermost calls has an argument. All
others are refused as they should be.
-/

namespace FormulaSheet.Expr

/-! ## Calls inside one another -/

mutual

/-- How many calls of an expression lie inside one another. -/
def nesting : Expr → Nat
  | .call _ args => argsNesting args + 1
  | .number _ => 0
  | .text _ => 0
  | .cell _ => 0
  | .range _ => 0
  | .failure _ => 0

/-- How many calls of some arguments lie inside one another. -/
def argsNesting : List Expr → Nat
  | [] => 0
  | arg :: args => max arg.nesting (argsNesting args)

end

/-- An expression is part of another one and lies inside so many of its calls. -/
inductive Inside : Nat → Expr → Expr → Prop
  | self (e : Expr) : Inside 0 e e
  | arg {n : Nat} {name : String} {args : List Expr} {arg part : Expr} (harg : arg ∈ args)
    (h : Inside n arg part) : Inside (n + 1) (.call name args) part

variable {e part inner : Expr} {args : List Expr} {name : String} {n : Nat}

theorem lt_argsNesting_iff : n < argsNesting args ↔ ∃ arg ∈ args, n < arg.nesting := by
  induction args with
  | nil => simp [argsNesting]
  | cons arg args ih => rw [argsNesting, lt_max_iff, ih, List.exists_mem_cons_iff]

theorem lt_argsDepth_iff : n < argsDepth args ↔ ∃ arg ∈ args, n ≤ arg.depth := by
  rw [← Nat.not_le, argsDepth_le_iff]
  simp only [not_forall, Nat.not_lt, exists_prop]

theorem inside_zero_iff : Inside 0 e part ↔ part = e := by
  constructor
  · intro h
    cases h with
    | self => rfl
  · rintro rfl
    exact .self part

theorem inside_succ_iff : Inside (n + 1) e part ↔
    ∃ name args, e = .call name args ∧ ∃ arg ∈ args, Inside n arg part := by
  constructor
  · intro h
    cases h with
    | arg harg h => exact ⟨_, _, rfl, _, harg, h⟩
  · rintro ⟨name, args, rfl, arg, harg, h⟩
    exact .arg harg h

/-- What is counted by going down the arguments is counted by the calls that are innermost. `P` says
which of these count. -/
theorem lt_iff_exists_inside {count : Expr → Nat} {P : List Expr → Prop}
    (hzero : ∀ {e}, 0 < count e ↔ ∃ name args, e = .call name args ∧ P args)
    (hsucc : ∀ {e n}, n + 1 < count e ↔
      ∃ name args, e = .call name args ∧ ∃ arg ∈ args, n < count arg) :
    n < count e ↔ ∃ name args, Inside n e (.call name args) ∧ P args := by
  induction n generalizing e with
  | zero => simp only [hzero, inside_zero_iff, eq_comm]
  | succ n ih =>
    rw [hsucc]
    simp only [inside_succ_iff, ih]
    constructor
    · rintro ⟨name, args, rfl, arg, harg, name', args', hinside, hargs'⟩
      exact ⟨name', args', ⟨name, args, rfl, arg, harg, hinside⟩, hargs'⟩
    · rintro ⟨name', args', ⟨name, args, rfl, arg, harg, hinside⟩, hargs'⟩
      exact ⟨name, args, rfl, arg, harg, name', args', hinside, hargs'⟩

/-- **Nesting.** More than `n` calls lie inside one another if one of them lies inside `n` calls. -/
theorem lt_nesting_iff : n < e.nesting ↔ ∃ name args, Inside n e (.call name args) := by
  have hcalls : n < e.nesting ↔ ∃ name args, Inside n e (.call name args) ∧ True := by
    refine lt_iff_exists_inside (fun {e} ↦ ?_) (fun {e n} ↦ ?_)
    · cases e with
      | call => simp [nesting]
      | _ => simp [nesting]
    · cases e with
      | call => simp [nesting, lt_argsNesting_iff]
      | _ => simp [nesting]
  simpa only [and_true] using hcalls

/-- **Depth.** An expression goes deeper than `n` if a call with an argument lies inside `n`
calls. -/
theorem lt_depth_iff :
    n < e.depth ↔ ∃ name args, Inside n e (.call name args) ∧ args ≠ [] := by
  refine lt_iff_exists_inside (fun {e} ↦ ?_) (fun {e n} ↦ ?_)
  · cases e with
    | call => simp [depth, lt_argsDepth_iff, List.eq_nil_iff_forall_not_mem]
    | _ => simp [depth]
  · cases e with
    | call => simp [depth, lt_argsDepth_iff]
    | _ => simp [depth]

theorem Inside.le_depth (h : Inside n e part) : n ≤ e.depth := by
  induction h with
  | self => exact Nat.zero_le _
  | arg harg _ ih =>
    rw [depth, Nat.succ_le_iff, lt_argsDepth_iff]
    exact ⟨_, harg, ih⟩

theorem depth_le_nesting (e : Expr) : e.depth ≤ e.nesting := by
  by_contra! h
  obtain ⟨name, args, hinside, -⟩ := lt_depth_iff.mp h
  exact Nat.lt_irrefl _ (lt_nesting_iff.mpr ⟨name, args, hinside⟩)

theorem nesting_le_depth_add_one (e : Expr) : e.nesting ≤ e.depth + 1 := by
  by_contra! h
  obtain ⟨name, args, hinside⟩ := lt_nesting_iff.mp h
  exact Nat.lt_irrefl _ hinside.le_depth

/-! ## What is refused -/

theorem ofTokens_of_le_depth {levels : Nat} {ts : List Token} (h : Derives ts e)
    (hdepth : levels ≤ e.depth) : ofTokens levels ts = .error (.tooDeep maxNesting) := by
  -- what a call is refused for is an argument, which has one level less
  induction levels generalizing ts e with
  | zero => rw [ofTokens]
  | succ levels ih =>
    cases h with
    | word hword =>
      rw [hword.depth_eq] at hdepth
      exact absurd hdepth (Nat.not_succ_le_zero _)
    | text s =>
      rw [depth] at hdepth
      exact absurd hdepth (Nat.not_succ_le_zero _)
    | call name hargs =>
      rw [depth, Nat.succ_le_iff, lt_argsDepth_iff] at hdepth
      obtain ⟨deep, hmem, hdeep⟩ := hdepth
      obtain ⟨slice, hslice, hderives⟩ := exists_of_mem_right hargs hmem
      rw [ofTokens_call levels name (isArgument_of_mem hargs), map_eq_error_iff]
      refine mapM_eq_error (fun slice' hslice' ↦ ?_) ⟨slice, hslice, ih hderives hdeep⟩
      obtain ⟨arg, -, harg⟩ := exists_of_mem_left hargs hslice'
      rcases Nat.lt_or_ge arg.depth levels with hlt | hle
      · exact .inl ⟨arg, ofTokens_of_derives harg hlt⟩
      · exact .inr (ih harg hle)

/-- A text that makes up an expression is refused if this is too deep, and read otherwise. -/
theorem parse?_of_derives {text : String} {ts : List Token} (hts : Token.ofText text = .ok ts)
    (h : Derives ts e) : parse? text =
      if e.depth ≤ maxNesting then .ok (some e) else .error (.tooDeep maxNesting) := by
  split
  next hdepth => exact parse?_eq_some_iff.mpr ⟨ts, hts, h, hdepth⟩
  next hdepth =>
    have hrefused := ofTokens_of_le_depth h (Nat.not_le.mp hdepth)
    rw [parse?, hts]
    cases ts with
    | nil => cases h
    | cons t rest => exact map_eq_error_iff.mpr hrefused

/-- The expression nests one call too many, and no call inside `maxNesting` others has an
argument. -/
def Spared (e : Expr) : Prop :=
  e.nesting = maxNesting + 1 ∧ ∀ name args, Inside maxNesting e (.call name args) → args = []

theorem depth_le_iff : e.depth ≤ maxNesting ↔ e.nesting ≤ maxNesting ∨ e.Spared := by
  constructor
  · intro h
    rcases Nat.lt_or_ge maxNesting e.nesting with hlt | hle
    · have hnesting := nesting_le_depth_add_one e
      refine .inr ⟨by omega, fun name args hinside ↦ ?_⟩
      by_contra! hargs
      exact Nat.not_lt.mpr h (lt_depth_iff.mpr ⟨name, args, hinside, hargs⟩)
    · exact .inl hle
  · rintro (h | ⟨-, hinner⟩)
    · exact (depth_le_nesting e).trans h
    · by_contra! h
      obtain ⟨name, args, hinside, hargs⟩ := lt_depth_iff.mp h
      exact hargs (hinner name args hinside)

/-- **The limit.** An expression that is read nests at most `maxNesting` calls, unless it is spared.
A text that makes up an expression is refused as too deep exactly if this nests more than
`maxNesting` calls and is not spared, and is read as the expression otherwise. -/
theorem nesting_of_parses (text : String) :
    (∀ e, parse? text = .ok (some e) → e.nesting ≤ maxNesting ∨ e.Spared) ∧
      ∀ ts e, Token.ofText text = .ok ts → Derives ts e →
        (parse? text = .error (.tooDeep maxNesting) ↔ maxNesting < e.nesting ∧ ¬e.Spared) ∧
        (parse? text = .ok (some e) ↔ e.nesting ≤ maxNesting ∨ e.Spared) := by
  refine ⟨fun e he ↦ ?_, fun ts e hts h ↦ ?_⟩
  · obtain ⟨ts, -, -, hdepth⟩ := parse?_eq_some_iff.mp he
    exact depth_le_iff.mp hdepth
  · rw [parse?_of_derives hts h, ← Nat.not_le, ← not_or, ← depth_le_iff]
    split
    next hdepth => exact ⟨iff_of_false nofun (not_not_intro hdepth), iff_of_true rfl hdepth⟩
    next hdepth => exact ⟨iff_of_true rfl hdepth, iff_of_false nofun hdepth⟩

/-! ## Towers of calls -/

/-- An expression inside so many calls, each of which has no other argument. -/
def tower (inner : Expr) : Nat → Expr
  | 0 => inner
  | n + 1 => .call "F" [tower inner n]

theorem nesting_tower (inner : Expr) (n : Nat) : (tower inner n).nesting = inner.nesting + n := by
  induction n with
  | zero => rfl
  | succ n ih => simp only [tower, nesting, argsNesting, ih, Nat.max_zero, Nat.add_assoc]

theorem depth_tower (inner : Expr) (n : Nat) : (tower inner n).depth = inner.depth + n := by
  induction n with
  | zero => rfl
  | succ n ih => simp only [tower, depth, argsDepth, ih, Nat.max_zero, Nat.add_assoc]

theorem inside_tower (inner : Expr) (n : Nat) : Inside n (tower inner n) inner := by
  induction n with
  | zero => exact .self inner
  | succ n ih => exact .arg List.mem_cons_self ih

theorem numbers_tower (inner : Expr) (n : Nat) : (tower inner n).numbers = inner.numbers := by
  induction n with
  | zero => rfl
  | succ n ih => simp only [tower, numbers, argNumbers, ih, List.append_nil]

theorem IsWritable.call_F (hargs : ∀ arg ∈ args, arg.IsWritable) :
    (Expr.call "F" args).IsWritable :=
  .call (by decide) (by cbv) hargs

theorem IsWritable.tower (h : inner.IsWritable) (n : Nat) : (inner.tower n).IsWritable := by
  induction n with
  | zero => exact h
  | succ n ih => exact .call_F (List.forall_mem_singleton.mpr ih)

theorem derives_tower (h : inner.IsWritable) (hnumbers : inner.numbers = []) (n : Nat) :
    Derives (inner.tower n).tokens (inner.tower n) := by
  refine ((h.tower n).derives_iff _).mpr ⟨rfl, ?_⟩
  rw [numbers_tower, hnumbers]
  exact List.forall_mem_nil _

/-- With an argument innermost, the limit is met exactly. -/
theorem nesting_of_parses_tower :
    let full := tower (.text "a") maxNesting
    let tall := tower (.call "F" [.text "a"]) maxNesting
    (full.nesting = maxNesting ∧ parse? full.render = .ok (some full)) ∧
      tall.nesting = maxNesting + 1 ∧ parse? tall.render = .error (.tooDeep maxNesting) := by
  intro full tall
  have htext : (Expr.text "a").IsWritable := .text (by decide) (by decide)
  have hcall : (Expr.call "F" [.text "a"]).IsWritable :=
    .call_F (List.forall_mem_singleton.mpr htext)
  have hfull : full.nesting = maxNesting := by rw [nesting_tower, nesting, Nat.zero_add]
  have htall : tall.nesting = maxNesting + 1 := by
    rw [nesting_tower, nesting, argsNesting, argsNesting, nesting, Nat.add_comm]
    rfl
  have hspared : ¬tall.Spared := fun h ↦
    List.cons_ne_nil _ _ (h.2 "F" [.text "a"] (inside_tower _ maxNesting))
  obtain ⟨-, hread⟩ := (nesting_of_parses full.render).2 _ _
    (htext.tower maxNesting).ofText_render (derives_tower htext rfl maxNesting)
  obtain ⟨hrefused, -⟩ := (nesting_of_parses tall.render).2 _ _
    (hcall.tower maxNesting).ofText_render (derives_tower hcall rfl maxNesting)
  exact ⟨⟨hfull, hread.mpr (.inl hfull.le)⟩, htall,
    hrefused.mpr ⟨htall ▸ Nat.lt_succ_self maxNesting, hspared⟩⟩

/-- Without an argument innermost, one call too many is read. -/
theorem parses_spared_tower :
    let e := tower (.call "F" []) maxNesting
    maxNesting < e.nesting ∧ Token.ofText e.render = .ok e.tokens ∧ Derives e.tokens e ∧
      parse? e.render = .ok (some e) := by
  intro e
  have hcall : (Expr.call "F" []).IsWritable := .call_F (List.forall_mem_nil _)
  have hnesting : e.nesting = maxNesting + 1 := by
    rw [nesting_tower, nesting, argsNesting, Nat.zero_add, Nat.add_comm]
  have hdepth : e.depth = maxNesting := by rw [depth_tower, depth, argsDepth, Nat.zero_add]
  have hderives := derives_tower hcall rfl maxNesting
  have htokens := (hcall.tower maxNesting).ofText_render
  refine ⟨hnesting ▸ Nat.lt_succ_self maxNesting, htokens, hderives, ?_⟩
  rw [parse?_of_derives htokens hderives, if_pos hdepth.le]

end FormulaSheet.Expr
