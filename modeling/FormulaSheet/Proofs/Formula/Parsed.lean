import FormulaSheet.Formula.Parser
import FormulaSheet.Proofs.Formula.Reads

/-!
# Formulas that come from text

The last column has a name that can be written and not read, so no text names a range of all
columns, and every range that is read is countable. This carries over to formulas: all their ranges
come from words, and a text that is no formula is kept as a failure, which has none.
-/

namespace FormulaSheet

/-! ## Results without a fault -/

section

variable {α β ε ε' : Type}

theorem bind_eq_ok_iff {x : Except ε α} {f : α → Except ε β} {b : β} :
    (x >>= f) = .ok b ↔ ∃ a, x = .ok a ∧ f a = .ok b := by
  cases x with
  | error fault => simp [bind, Except.bind]
  | ok a => simp [bind, Except.bind]

theorem map_eq_ok_iff {x : Except ε α} {f : α → β} {b : β} :
    x.map f = .ok b ↔ ∃ a, x = .ok a ∧ f a = b := by
  cases x with
  | error fault => simp [Except.map]
  | ok a => simp [Except.map]

theorem mapError_eq_ok_iff {x : Except ε α} {f : ε → ε'} {a : α} :
    x.mapError f = .ok a ↔ x = .ok a := by
  cases x with
  | error fault => exact iff_of_false nofun nofun
  | ok a => exact ⟨fun h ↦ congrArg _ (Except.ok.inj h), fun h ↦ congrArg _ (Except.ok.inj h)⟩

theorem exists_of_mem_mapM {f : α → Except ε β} {b : β} :
    ∀ {as : List α} {bs : List β}, as.mapM f = .ok bs → b ∈ bs → ∃ a ∈ as, f a = .ok b := by
  intro as
  induction as with
  | nil =>
    intro bs h hb
    obtain rfl : [] = bs := Except.ok.inj h
    exact absurd hb List.not_mem_nil
  | cons a as ih =>
    intro bs h hb
    rw [List.mapM_cons] at h
    obtain ⟨c, ha, hrest⟩ := bind_eq_ok_iff.mp h
    obtain ⟨cs, has, hbs⟩ := bind_eq_ok_iff.mp hrest
    obtain rfl : c :: cs = bs := Except.ok.inj hbs
    rcases List.mem_cons.mp hb with rfl | hb
    · exact ⟨a, List.mem_cons_self, ha⟩
    · obtain ⟨a', ha', hb'⟩ := ih has hb
      exact ⟨a', List.mem_cons_of_mem _ ha', hb'⟩

end

/-! ## Addresses -/

namespace Column

private theorem readFrom_le {name : String} {cs : List Char} : ∀ {n m : Nat}, n ≤ limit →
    readFrom name n cs = .ok m → m ≤ limit := by
  induction cs with
  | nil =>
    intro n m hn h
    rw [readFrom, Except.ok.injEq] at h
    exact h ▸ hn
  | cons c cs ih =>
    intro n m hn h
    rw [readFrom] at h
    by_cases hletter : isLetter c = true
    · rw [if_pos hletter] at h
      by_cases hlimit : limit < n * 26 + digit c
      · rw [if_pos hlimit] at h
        cases h
      · rw [if_neg hlimit] at h
        exact ih (Nat.not_lt.mp hlimit) h
    · rw [if_neg hletter] at h
      cases h

theorem lt_of_ofLetters {name : String} {col : UInt32} (h : ofLetters name = .ok col) :
    col.toNat < limit := by
  rw [ofLetters] at h
  split at h
  · cases h
  · obtain ⟨n, hread, rfl⟩ := map_eq_ok_iff.mp h
    have hn : n ≤ limit := readFrom_le (Nat.zero_le _) hread
    rw [limit, UInt32.size] at hn ⊢
    rw [UInt32.toNat_ofNat_of_lt' (by rw [UInt32.size]; omega)]
    omega

end Column

theorem Address.col_lt_of_parse {text : String} {a : Address} (h : parse text = .ok a) :
    a.col.toNat < Column.limit := by
  rw [parse] at h
  split at h
  · obtain ⟨col, hcol, hrest⟩ := bind_eq_ok_iff.mp h
    obtain ⟨row, -, ha⟩ := bind_eq_ok_iff.mp hrest
    obtain rfl : (⟨col, row⟩ : Address) = a := Except.ok.inj ha
    exact Column.lt_of_ofLetters hcol
  · cases h

/-! ## Ranges -/

theorem Range.Ordered.countable {r : Range} (h : r.Ordered)
    (hcol : r.last.col.toNat < Column.limit) : r.Countable where
  ordered := h
  area_lt := by
    have hheight : r.height ≤ UInt32.size := by
      have := r.last.row.toNat_lt_size
      rw [height]
      omega
    have hwidth : r.width ≤ Column.limit := by
      rw [width]
      omega
    calc r.height * r.width ≤ UInt32.size * Column.limit := Nat.mul_le_mul hheight hwidth
      _ < UInt64.size := by decide

theorem Range.ordered_of_parse {text : String} {r : Range} (h : parse text = .ok r) :
    r.Ordered ∧ r.last.col.toNat < Column.limit := by
  rw [parse] at h
  split at h
  · cases h
  · obtain ⟨a, -, hrest⟩ := bind_eq_ok_iff.mp h
    obtain ⟨b, hlast, hr⟩ := bind_eq_ok_iff.mp hrest
    obtain ⟨rfl, hordered⟩ := ofCorners_eq_ok_iff.mp hr
    exact ⟨hordered, Address.col_lt_of_parse hlast⟩

theorem Range.countable_of_parse {text : String} {r : Range} (h : parse text = .ok r) :
    r.Countable := by
  obtain ⟨hordered, hlast⟩ := ordered_of_parse h
  exact hordered.countable hlast

/-! ## Expressions -/

namespace Expr

theorem countable_of_ofWord {word : String} {e : Expr} (h : ofWord word = .ok e) :
    ∀ r ∈ e.ranges, r.Countable := by
  intro r hr
  rw [ofWord] at h
  split at h
  · obtain rfl := Except.ok.inj h
    exact absurd hr List.not_mem_nil
  split at h
  · obtain ⟨a, -, rfl⟩ := map_eq_ok_iff.mp h
    exact absurd hr List.not_mem_nil
  split at h
  · split at h
    · obtain ⟨r', hrange, rfl⟩ := map_eq_ok_iff.mp h
      obtain rfl := List.mem_singleton.mp hr
      exact Range.countable_of_parse (mapError_eq_ok_iff.mp hrange)
    · cases h
  · cases h

/-- **Induction on what is read.** What holds of words and texts, and of calls when it holds of
their arguments, holds of every expression that is read. -/
theorem ofTokens_induction {P : Expr → Prop} (hword : ∀ word e, ofWord word = .ok e → P e)
    (htext : ∀ s, P (.text s)) (hcall : ∀ name args, (∀ arg ∈ args, P arg) → P (.call name args)) :
    ∀ {levels : Nat} {ts : List Token} {e : Expr}, ofTokens levels ts = .ok e → P e := by
  intro levels
  -- the arguments of a call are read with one level less
  induction levels with
  | zero =>
    intro ts e h
    rw [ofTokens] at h
    cases h
  | succ levels ih =>
    intro ts e h
    rw [ofTokens.eq_def] at h
    dsimp only at h
    split at h
    all_goals try cases h
    next word _ => exact hword word e h
    next s _ => exact htext s
    next levels' name rest hlevels =>
      obtain rfl := Nat.succ.inj hlevels
      split at h
      · cases h
      next args hargs =>
        split at h
        all_goals try cases h
        refine hcall _ args fun arg harg ↦ ?_
        obtain ⟨slice, -, hslice⟩ := exists_of_mem_mapM hargs harg
        exact ih hslice

/-- **Induction on formulas from text.** A text without a fault is an expression that is read, and
any other text is a failure. -/
theorem parse_induction {P : Expr → Prop} (hword : ∀ word e, ofWord word = .ok e → P e)
    (htext : ∀ s, P (.text s)) (hcall : ∀ name args, (∀ arg ∈ args, P arg) → P (.call name args))
    (hfailure : ∀ message, P (.failure message)) {text : String} {e : Expr}
    (h : parse text = some e) : P e := by
  rw [parse] at h
  split at h
  next e' hparse =>
    subst h
    rw [parse?] at hparse
    split at hparse
    · cases hparse
    · cases hparse
    · obtain ⟨e', htokens, he⟩ := map_eq_ok_iff.mp hparse
      obtain rfl := Option.some.inj he
      exact ofTokens_induction hword htext hcall htokens
  next fault _ =>
    obtain rfl := Option.some.inj h
    exact hfailure fault.message

/-- **Formulas from text.** Every range in the formula of a text is countable. -/
theorem countable_of_parse {text : String} {e : Expr} (h : parse text = some e) :
    ∀ r ∈ e.ranges, r.Countable := by
  refine parse_induction (P := fun e ↦ ∀ r ∈ e.ranges, r.Countable)
    (fun _ _ ↦ countable_of_ofWord) (fun s r hr ↦ absurd hr List.not_mem_nil)
    (fun name args hargs r hr ↦ ?_) (fun message r hr ↦ absurd hr List.not_mem_nil) h
  obtain ⟨arg, harg, hr⟩ := mem_argRanges.mp hr
  exact hargs arg harg r hr

end Expr

end FormulaSheet
