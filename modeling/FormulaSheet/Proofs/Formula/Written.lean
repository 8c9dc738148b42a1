import FormulaSheet.Formula.Token
import FormulaSheet.Proofs.Text.Cutting

/-!
# Tokens written as text

`Writes ts cs` says that the characters `cs` write the tokens `ts`: each token by itself, and gaps
between them wherever one likes. Only a word must be followed by something that ends it. The text
between two quotes is written by any text that comes to it when its gaps are squeezed.

Taking a text apart finds exactly the tokens that it writes, `ofText_eq_ok_iff`. Each way of writing
a token first is one step of `scan` on the squeezed text, and the six steps serve both directions:
what is written is scanned, and a text is written as far as it can be scanned.
-/

namespace FormulaSheet.Token

variable {found ts : List Token} {word cs ds inside : List Char} {c : Char}

/-! ## Gaps -/

theorem squeezeCons_of_not_gap (hc : isGap c = false) (cs : List Char) :
    squeezeCons c cs = c :: cs := by
  unfold squeezeCons
  rw [hc, if_neg Bool.false_ne_true]

theorem squeezeCons_space (hc : isGap c = true) (cs : List Char) :
    squeezeCons c (' ' :: cs) = ' ' :: cs := by
  unfold squeezeCons
  rw [if_pos hc]
  rfl

theorem squeezeCons_of_gap (hc : isGap c = true) (cs : List Char) (h : ∀ tail, cs ≠ ' ' :: tail) :
    squeezeCons c cs = ' ' :: cs := by
  unfold squeezeCons
  rw [if_pos hc]
  split
  next => exact absurd rfl (h _)
  next => rfl

theorem ne_space_of_not_gap (hc : isGap c = false) : c ≠ ' ' := by
  rintro rfl
  exact absurd hc (by decide)

theorem squeeze_cons_of_gap (hc : isGap c = true) (cs : List Char) :
    (∃ tail, squeeze cs = ' ' :: tail) ∧ squeeze (c :: cs) = squeeze cs ∨
      (∀ tail, squeeze cs ≠ ' ' :: tail) ∧ squeeze (c :: cs) = ' ' :: squeeze cs := by
  rw [squeeze_cons]
  by_cases h : ∃ tail, squeeze cs = ' ' :: tail
  · obtain ⟨tail, htail⟩ := h
    rw [htail, squeezeCons_space hc]
    exact .inl ⟨⟨tail, rfl⟩, rfl⟩
  · have hne := not_exists.mp h
    exact .inr ⟨hne, squeezeCons_of_gap hc _ hne⟩

theorem squeeze_cons_of_not_gap (hc : isGap c = false) (cs : List Char) :
    squeeze (c :: cs) = c :: squeeze cs :=
  squeezeCons_of_not_gap hc _

theorem squeeze_append_of_not_gap (h : ∀ c ∈ cs, isGap c = false) (ds : List Char) :
    squeeze (cs ++ ds) = cs ++ squeeze ds := by
  induction cs with
  | nil => rfl
  | cons c cs ih =>
    rw [List.forall_mem_cons] at h
    rw [List.cons_append, squeeze_cons_of_not_gap h.1, ih h.2, List.cons_append]

/-- What stands on the two sides of a character that is no gap is squeezed by itself. -/
theorem squeeze_append (hc : isGap c = false) (cs ds : List Char) :
    squeeze (cs ++ c :: ds) = squeeze cs ++ c :: squeeze ds := by
  induction cs with
  | nil => exact squeeze_cons_of_not_gap hc ds
  | cons d cs ih =>
    rw [List.cons_append, squeeze_cons, ih, squeeze_cons]
    cases hd : isGap d with
    | false => rw [squeezeCons_of_not_gap hd, squeezeCons_of_not_gap hd, List.cons_append]
    | true =>
      -- whether the gap is merged depends on the head of what follows; that is `c`, which is no
      -- gap, or stands in `squeeze cs` already
      generalize squeeze cs = es
      have hspace := ne_space_of_not_gap hc
      cases es with
      | nil =>
        rw [List.nil_append, squeezeCons_of_gap hd (c :: squeeze ds) (by simp [hspace]),
          squeezeCons_of_gap hd [] (by simp)]
        rfl
      | cons e es =>
        by_cases he : e = ' '
        · rw [he, squeezeCons_space hd, List.cons_append, squeezeCons_space hd]
        · rw [List.cons_append, squeezeCons_of_gap hd (e :: es) (by simp [he]),
            squeezeCons_of_gap hd _ (by simp [he])]
          rfl

theorem mem_of_mem_squeeze : ∀ {c}, c ∈ squeeze cs → c = ' ' ∨ c ∈ cs := by
  induction cs with
  | nil => exact fun hc ↦ absurd hc List.not_mem_nil
  | cons d cs ih =>
    intro c hc
    cases hd : isGap d with
    | false =>
      rw [squeeze_cons_of_not_gap hd, List.mem_cons] at hc
      rcases hc with rfl | hc
      · exact .inr List.mem_cons_self
      · exact (ih hc).imp_right (List.mem_cons_of_mem _)
    | true =>
      rcases squeeze_cons_of_gap hd cs with ⟨-, hcs⟩ | ⟨-, hcs⟩
      · exact (ih (hcs ▸ hc)).imp_right (List.mem_cons_of_mem _)
      · rw [hcs, List.mem_cons] at hc
        rcases hc with rfl | hc
        · exact .inl rfl
        · exact (ih hc).imp_right (List.mem_cons_of_mem _)

/-! ## Words -/

/-- Whether a character is in no word. -/
def isBreak (c : Char) : Bool := isGap c || endsWord c

theorem isBreak_iff : isBreak c = true ↔ isGap c = true ∨ c = '(' ∨ c = ')' ∨ c = '"' := by
  grind [isBreak, endsWord, isGap]

/-- The breaks. -/
def breaks : List Char := [' ', '\t', '\n', '\r', '(', ')', '"']

theorem mem_breaks_of_isBreak (h : isBreak c = true) : c ∈ breaks := by
  rw [isBreak_iff] at h
  grind [breaks, isGap]

theorem isBreak_eq_false {p : Char → Bool} (hp : breaks.any p = false) (hc : p c = true) :
    isBreak c = false := by
  rw [Bool.eq_false_iff]
  exact fun hbreak ↦ List.any_eq_false.mp hp c (mem_breaks_of_isBreak hbreak) hc

theorem isBreak_of_any {cs : List Char} (h : cs.any isBreak = false) :
    ∀ c ∈ cs, isBreak c = false :=
  fun c hc ↦ Bool.eq_false_iff.mpr (List.any_eq_false.mp h c hc)

/-- A word: it is not empty, and no character in it is a break. -/
structure IsWord (word : String) : Prop where
  /-- There is a character. -/
  ne_nil : word.toList ≠ []
  /-- None is a break. -/
  isBreak_eq : ∀ c ∈ word.toList, isBreak c = false

/-- A text that squeezing leaves as it is: its only gaps are single spaces. -/
structure IsSqueezed (cs : List Char) : Prop where
  /-- All gaps are spaces. -/
  gap : ∀ c ∈ cs, isGap c = true → c = ' '
  /-- No two spaces stand side by side. -/
  single : ¬[' ', ' '] <:+: cs

namespace IsSqueezed

theorem cons (hc : isGap c = false) (h : IsSqueezed cs) : IsSqueezed (c :: cs) where
  gap d hd := by
    rcases List.mem_cons.mp hd with rfl | hd
    · rw [hc]
      exact nofun
    · exact h.gap d hd
  single hinfix := by
    rcases List.infix_cons_iff.mp hinfix with hprefix | hinfix
    · exact ne_space_of_not_gap hc (List.cons_prefix_cons.mp hprefix).1.symm
    · exact h.single hinfix

theorem space (hne : ∀ tail, cs ≠ ' ' :: tail) (h : IsSqueezed cs) : IsSqueezed (' ' :: cs) where
  gap d hd := by
    rcases List.mem_cons.mp hd with rfl | hd
    · exact fun _ ↦ rfl
    · exact h.gap d hd
  single hinfix := by
    rcases List.infix_cons_iff.mp hinfix with hprefix | hinfix
    · obtain ⟨tail, htail⟩ := (List.cons_prefix_cons.mp hprefix).2
      exact hne tail htail.symm
    · exact h.single hinfix

theorem squeeze_eq (h : IsSqueezed cs) : squeeze cs = cs := by
  induction cs with
  | nil => rfl
  | cons c cs ih =>
    have htail : IsSqueezed cs := ⟨fun d hd ↦ h.gap d (List.mem_cons_of_mem _ hd),
      fun hinfix ↦ h.single (List.infix_cons hinfix)⟩
    cases hc : isGap c with
    | false => rw [squeeze_cons_of_not_gap hc, ih htail]
    | true =>
      obtain rfl := h.gap c List.mem_cons_self hc
      rw [squeeze_cons, ih htail]
      refine squeezeCons_of_gap hc cs fun tail htail ↦ h.single ?_
      rw [htail]
      exact List.IsPrefix.isInfix ⟨tail, rfl⟩

end IsSqueezed

theorem isSqueezed_squeeze (cs : List Char) : IsSqueezed (squeeze cs) := by
  induction cs with
  | nil => exact ⟨fun c hc ↦ absurd hc List.not_mem_nil, by decide⟩
  | cons c cs ih =>
    cases hc : isGap c with
    | false =>
      rw [squeeze_cons_of_not_gap hc]
      exact ih.cons hc
    | true =>
      rcases squeeze_cons_of_gap hc cs with ⟨-, hcs⟩ | ⟨hne, hcs⟩
      · rw [hcs]
        exact ih
      · rw [hcs]
        exact ih.space hne

/-- The tokens that a text can have: words, and quoted texts without a quote that are squeezed. -/
def IsRegular : Token → Prop
  | .openParen => True
  | .closeParen => True
  | .quoted s => '"' ∉ s.toList ∧ IsSqueezed s.toList
  | .value word => IsWord word

/-! ## Writing -/

/-- The characters write the tokens. -/
inductive Writes : List Token → List Char → Prop
  | nil : Writes [] []
  | gap {ts : List Token} {c : Char} {cs : List Char} (hc : isGap c = true) (h : Writes ts cs) :
    Writes ts (c :: cs)
  | openParen {ts : List Token} {cs : List Char} (h : Writes ts cs) :
    Writes (.openParen :: ts) ('(' :: cs)
  | closeParen {ts : List Token} {cs : List Char} (h : Writes ts cs) :
    Writes (.closeParen :: ts) (')' :: cs)
  | quoted {ts : List Token} {inside cs : List Char} (hinside : '"' ∉ inside) (h : Writes ts cs) :
    Writes (.quoted (String.ofList (squeeze inside)) :: ts) ('"' :: (inside ++ '"' :: cs))
  | value {ts : List Token} {word : String} {cs : List Char} (hword : IsWord word)
    (hnext : ∀ c ∈ cs.head?, isBreak c = true) (h : Writes ts cs) :
    Writes (.value word :: ts) (word.toList ++ cs)

theorem Writes.isRegular (h : Writes ts cs) : ∀ t ∈ ts, t.IsRegular := by
  induction h with
  | nil => exact fun t ht ↦ absurd ht List.not_mem_nil
  | gap _ _ ih => exact ih
  | openParen _ ih => exact List.forall_mem_cons.mpr ⟨trivial, ih⟩
  | closeParen _ ih => exact List.forall_mem_cons.mpr ⟨trivial, ih⟩
  | @quoted ts inside cs hinside _ ih =>
    refine List.forall_mem_cons.mpr ⟨?_, ih⟩
    rw [IsRegular, String.toList_ofList]
    refine ⟨fun hquote ↦ ?_, isSqueezed_squeeze inside⟩
    rcases mem_of_mem_squeeze hquote with h | h
    · exact absurd h (by decide)
    · exact hinside h
  | value hword _ _ ih => exact List.forall_mem_cons.mpr ⟨hword, ih⟩

/-! ## Steps of the scan -/

theorem scan_gap (found : List Token) (hc : isGap c = true) (cs : List Char) :
    scan found (squeeze (c :: cs)) = scan found (squeeze cs) := by
  rcases squeeze_cons_of_gap hc cs with ⟨-, h⟩ | ⟨-, h⟩
  · rw [h]
  · rw [h, scan, if_pos rfl]

theorem scan_openParen (found : List Token) (cs : List Char) :
    scan found (squeeze ('(' :: cs)) = scan (.openParen :: found) (squeeze cs) := by
  rw [squeeze_cons_of_not_gap (by decide), scan, if_neg (by decide), if_pos rfl]

theorem scan_closeParen (found : List Token) (cs : List Char) :
    scan found (squeeze (')' :: cs)) = scan (.closeParen :: found) (squeeze cs) := by
  rw [squeeze_cons_of_not_gap (by decide), scan, if_neg (by decide), if_neg (by decide), if_pos rfl]

theorem quote_not_mem_squeeze (h : '"' ∉ cs) : '"' ∉ squeeze cs := fun hmem ↦
  (mem_of_mem_squeeze hmem).elim (by decide) h

theorem scan_quoted (found : List Token) (h : '"' ∉ inside) (cs : List Char) :
    scan found (squeeze ('"' :: (inside ++ '"' :: cs)))
      = scan (.quoted (String.ofList (squeeze inside)) :: found) (squeeze cs) := by
  have hinside : ∀ c ∈ squeeze inside, (c != '"') = true := fun c hc ↦
    bne_iff_ne.mpr fun hquote ↦ quote_not_mem_squeeze h (hquote ▸ hc)
  have hdrop : (squeeze inside ++ '"' :: squeeze cs).dropWhile (· != '"') = '"' :: squeeze cs :=
    dropWhile_append_eq hinside (by simp)
  rw [squeeze_cons_of_not_gap (by decide), squeeze_append (by decide), scan, if_neg (by decide),
    if_neg (by decide), if_neg (by decide), if_pos rfl, takeWhile_append_eq hinside (by simp)]
  split
  next hnil =>
    rw [hdrop] at hnil
    cases hnil
  next hcons =>
    rw [hdrop] at hcons
    rw [(List.cons.inj hcons).2]

theorem scan_unterminated (found : List Token) (h : '"' ∉ cs) :
    scan found (squeeze ('"' :: cs)) = .error .unterminatedString := by
  have hdrop : (squeeze cs).dropWhile (· != '"') = [] :=
    List.dropWhile_eq_nil_iff.mpr fun c hc ↦
      bne_iff_ne.mpr fun hquote ↦ quote_not_mem_squeeze h (hquote ▸ hc)
  rw [squeeze_cons_of_not_gap (by decide), scan, if_neg (by decide), if_neg (by decide),
    if_neg (by decide), if_pos rfl]
  split
  next => rfl
  next hcons =>
    rw [hdrop] at hcons
    cases hcons

theorem isGap_of_isBreak (hc : isBreak c = false) : isGap c = false :=
  (Bool.or_eq_false_iff.mp hc).1

theorem endsWord_of_isBreak (hc : isBreak c = false) : endsWord c = false :=
  (Bool.or_eq_false_iff.mp hc).2

theorem head?_squeeze_cons_of_gap (hc : isGap c = true) (cs : List Char) :
    (squeeze (c :: cs)).head? = some ' ' := by
  rcases squeeze_cons_of_gap hc cs with ⟨⟨tail, htail⟩, h⟩ | ⟨-, h⟩
  · rw [h, htail, List.head?_cons]
  · rw [h, List.head?_cons]

/-- What follows a word in a text still ends it when the text has been squeezed. -/
theorem endsWord_of_mem_head?_squeeze (h : ∀ c ∈ cs.head?, isBreak c = true) :
    ∀ c ∈ (squeeze cs).head?, endsWord c = true := by
  cases cs with
  | nil => exact fun c hc ↦ absurd hc (by simp [squeeze])
  | cons d cs =>
    intro c hc
    cases hd : isGap d with
    | true =>
      rw [head?_squeeze_cons_of_gap hd, Option.mem_some_iff] at hc
      rw [← hc]
      decide
    | false =>
      rw [squeeze_cons_of_not_gap hd, List.head?_cons, Option.mem_some_iff] at hc
      have hbreak := h d rfl
      rw [isBreak, hd, Bool.false_or] at hbreak
      exact hc ▸ hbreak

theorem scan_value (found : List Token) {word : String} (hword : IsWord word)
    (hnext : ∀ c ∈ cs.head?, isBreak c = true) :
    scan found (squeeze (word.toList ++ cs)) = scan (.value word :: found) (squeeze cs) := by
  have hends : ∀ d ∈ (squeeze cs).head?, (!endsWord d) = false := fun d hd ↦ by
    rw [endsWord_of_mem_head?_squeeze hnext d hd, Bool.not_true]
  have hgaps : ∀ c ∈ word.toList, isGap c = false := fun c hc ↦
    isGap_of_isBreak (hword.isBreak_eq c hc)
  obtain ⟨c, w, hw⟩ := List.exists_cons_of_ne_nil hword.ne_nil
  rw [squeeze_append_of_not_gap hgaps, hw, List.cons_append]
  have hc : isBreak c = false := hword.isBreak_eq c (by simp [hw])
  have hspace := ne_space_of_not_gap (isGap_of_isBreak hc)
  rw [Bool.eq_false_iff, ne_eq, isBreak_iff, not_or, not_or, not_or] at hc
  have hrest : ∀ d ∈ w, (!endsWord d) = true := fun d hd ↦ by
    rw [endsWord_of_isBreak (hword.isBreak_eq d (by simp [hw, hd])), Bool.not_false]
  rw [scan, if_neg hspace, if_neg hc.2.1, if_neg hc.2.2.1, if_neg hc.2.2.2,
    takeWhile_append_eq hrest hends, dropWhile_append_eq hrest hends, ← hw, String.ofList_toList]

/-! ## What a text writes -/

theorem Writes.scan_eq (h : Writes ts cs) (found : List Token) :
    scan found (squeeze cs) = .ok (found.reverse ++ ts) := by
  induction h generalizing found with
  | nil => rw [squeeze, List.foldr_nil, scan, List.append_nil]
  | gap hc _ ih => rw [scan_gap found hc, ih]
  | openParen _ ih => rw [scan_openParen, ih, List.reverse_cons, List.append_assoc]; rfl
  | closeParen _ ih => rw [scan_closeParen, ih, List.reverse_cons, List.append_assoc]; rfl
  | quoted hinside _ ih =>
    rw [scan_quoted found hinside, ih, List.reverse_cons, List.append_assoc]; rfl
  | value hword hnext _ ih =>
    rw [scan_value found hword hnext, ih, List.reverse_cons, List.append_assoc]; rfl

theorem exists_word (hc : isBreak c = false) (cs : List Char) : ∃ word after,
    c :: cs = String.toList word ++ after ∧ IsWord word ∧
      (∀ d ∈ after.head?, isBreak d = true) ∧ after.length < (c :: cs).length := by
  have htake : ∀ d ∈ c :: cs.takeWhile (!isBreak ·), isBreak d = false := by
    refine List.forall_mem_cons.mpr ⟨hc, fun d hd ↦ ?_⟩
    simpa using List.mem_takeWhile_imp hd
  refine ⟨String.ofList (c :: cs.takeWhile (!isBreak ·)), cs.dropWhile (!isBreak ·), ?_, ⟨?_, ?_⟩,
    fun d hd ↦ ?_, ?_⟩
  · rw [String.toList_ofList, List.cons_append, List.takeWhile_append_dropWhile]
  · rw [String.toList_ofList]
    exact List.cons_ne_nil _ _
  · rw [String.toList_ofList]
    exact htake
  · simpa using eq_false_of_mem_head?_dropWhile hd
  · have := (List.dropWhile_sublist (!isBreak ·) (l := cs)).length_le
    rw [List.length_cons]
    omega

theorem writes_or_unterminated (cs : List Char) :
    (∃ ts, Writes ts cs) ∨ ∀ found, scan found (squeeze cs) = .error .unterminatedString := by
  -- on the length, since a word or a quoted text is passed over in one step
  induction hn : cs.length using Nat.strongRecOn generalizing cs with
  | ind n ih =>
    subst hn
    cases cs with
    | nil => exact .inl ⟨[], .nil⟩
    | cons c rest =>
      have ih' := ih rest.length (Nat.lt_succ_self _) rest rfl
      by_cases hgap : isGap c = true
      · exact ih'.imp (fun ⟨ts, h⟩ ↦ ⟨ts, h.gap hgap⟩)
          fun h found ↦ (scan_gap found hgap rest).trans (h found)
      by_cases hopen : c = '('
      · subst hopen
        exact ih'.imp (fun ⟨ts, h⟩ ↦ ⟨_, h.openParen⟩)
          fun h found ↦ (scan_openParen found rest).trans (h _)
      by_cases hclose : c = ')'
      · subst hclose
        exact ih'.imp (fun ⟨ts, h⟩ ↦ ⟨_, h.closeParen⟩)
          fun h found ↦ (scan_closeParen found rest).trans (h _)
      by_cases hquote : c = '"'
      · subst hquote
        by_cases hmem : '"' ∈ rest
        · obtain ⟨inside, after, rfl, hinside⟩ := List.eq_append_cons_of_mem hmem
          refine (ih after.length ?_ after rfl).imp (fun ⟨ts, h⟩ ↦ ⟨_, h.quoted hinside⟩)
            fun h found ↦ (scan_quoted found hinside after).trans (h _)
          simp only [List.length_cons, List.length_append]
          omega
        · exact .inr fun found ↦ scan_unterminated found hmem
      have hbreak : isBreak c = false := by
        rw [Bool.eq_false_iff, ne_eq, isBreak_iff]
        exact not_or.mpr ⟨hgap, not_or.mpr ⟨hopen, not_or.mpr ⟨hclose, hquote⟩⟩⟩
      obtain ⟨word, after, hrest, hword, hnext, hlen⟩ := exists_word hbreak rest
      rw [hrest]
      exact (ih after.length hlen after rfl).imp (fun ⟨ts, h⟩ ↦ ⟨_, h.value hword hnext⟩)
        fun h found ↦ (scan_value found hword hnext).trans (h _)

/-- **Tokens and text.** A text is taken apart into the tokens that it writes. -/
theorem ofText_eq_ok_iff {text : String} : ofText text = .ok ts ↔ Writes ts text.toList := by
  have hscan {ts' : List Token} (h : Writes ts' text.toList) : ofText text = .ok ts' := h.scan_eq []
  refine ⟨fun h ↦ ?_, hscan⟩
  -- the scan has one outcome, so the tokens that the text writes are those that were found
  rcases writes_or_unterminated text.toList with ⟨ts', hts'⟩ | hfault
  · rw [hscan hts'] at h
    exact Except.ok.inj h ▸ hts'
  · rw [ofText, hfault] at h
    cases h

end FormulaSheet.Token
