import LogGuard.Import.Declaration
import LogGuard.Proofs.Call.Shape
import LogGuard.Proofs.Import.Anchor
import Mathlib.Data.List.DropRight

/-!
# The shape of an import declaration

`IsDeclaration` says which texts are import declarations, without the search for them: the word
`import`, a clause, a quoted specifier, blanks and a semicolon that may be left out. The recogniser
reads the longest one at the front of a text: it finds one where there is one, and reads at least
as far (`exists_of_isDeclaration`, `exists_isDeclaration`). Where a declaration ends does not depend
on its clause, only on the first character that may not stand in a clause (`after_declaration?`). So
a declaration that begins on a later line of another one ends where that one ends
(`declaration?_of_line`).
-/

namespace LogGuard.Import

open Call
open Unicode (isWhiteSpace isWord)

variable {t rest clause : Text}

/-- A text that can stand between quotes. -/
def Quotable (t : Text) : Prop :=
  ∀ c ∈ t, isQuote c = false ∧ c ≠ '\n'

instance (t : Text) : Decidable (Quotable t) :=
  List.decidableBAll _ t

/-- A clause that names what is imported: it ends with the word `from`, but for white space. -/
def NamesImports (clause : Text) : Prop :=
  ∃ names blank, clause = names ++ "from".toList ++ blank ∧ Blank blank ∧
    (∀ c ∈ names, endsClause c = false) ∧ ∃ c ∈ names.getLast?, isWord c = false

/-- The text is an import declaration: the word `import`, a clause or white space, a specifier
between quotes, blanks and perhaps a semicolon. -/
inductive IsDeclaration : Text → Prop
  | intro {clause inside blanks terminator : Text} {opening closing : Char}
    (boundary : startsInWord clause = false) (clause_cases : Blank clause ∨ NamesImports clause)
    (opening_quote : isQuote opening = true) (inside_ne : inside ≠ [])
    (inside_quotable : Quotable inside) (closing_quote : isQuote closing = true)
    (blanks_blank : ∀ c ∈ blanks, isBlank c = true)
    (terminator_cases : terminator = [] ∨ terminator = [';']) :
    IsDeclaration ("import".toList ++ clause ++ opening :: inside ++ closing :: blanks ++
      terminator)

/-! ## The parts of a declaration -/

/-- A quoted specifier is a quote, a text that is not empty and can stand between quotes, and one
more quote. -/
theorem specifier?_eq_some_iff :
    specifier? t = some rest ↔
      ∃ opening inside closing, t = opening :: inside ++ closing :: rest ∧
        isQuote opening = true ∧ inside ≠ [] ∧ Quotable inside ∧ isQuote closing = true := by
  constructor
  · intro h
    cases t with
    | nil => contradiction
    | cons opening t =>
      simp only [specifier?] at h
      split at h
      · rename_i hfront
        rw [Bool.and_eq_true, Bool.not_eq_true', List.isEmpty_eq_false_iff] at hfront
        split at h
        · rename_i closing _ hback
          split at h
          · rename_i hclosing
            obtain rfl := Option.some.inj h
            refine ⟨opening, _, closing, ?_, hfront.1, hfront.2, fun c hc => ?_, hclosing⟩
            · rw [List.cons_append, ← hback, List.takeWhile_append_dropWhile]
            · simpa using List.mem_takeWhile_imp hc
          · contradiction
        · contradiction
      · contradiction
  · rintro ⟨opening, inside, closing, rfl, hopening, hne, hinside, hclosing⟩
    have hall : ∀ c ∈ inside, (!isQuote c && c != '\n') = true := fun c hc => by
      simp [hinside c hc]
    have htake : (inside ++ closing :: rest).takeWhile (fun c => !isQuote c && c != '\n') =
        inside := by
      rw [List.takeWhile_append_of_pos hall]
      simp [hclosing]
    have hdrop : (inside ++ closing :: rest).dropWhile (fun c => !isQuote c && c != '\n') =
        closing :: rest := by
      rw [List.dropWhile_append_of_pos hall]
      simp [hclosing]
    simp [specifier?, htake, hdrop, hopening, hclosing, hne]

/-- A text is searched for characters that end a clause. -/
theorem forall_endsClause (h : t.any endsClause = false) : ∀ c ∈ t, endsClause c = false :=
  fun c hc => by simpa using List.any_eq_false.mp h c hc

/-- A quote ends a clause. -/
theorem endsClause_of_isQuote {c : Char} (hc : isQuote c = true) : endsClause c = true := by
  simp [endsClause, hc]

/-- White space does not end a clause. -/
theorem endsClause_of_isWhiteSpace {c : Char} (hc : isWhiteSpace c = true) :
    endsClause c = false := by
  by_contra hne
  simp only [endsClause, isQuote, Bool.not_eq_false, Bool.or_eq_true, beq_iff_eq] at hne
  rcases hne with ((rfl | rfl) | rfl) | rfl | rfl <;> exact absurd hc (by decide)

/-- A clause ends with `from` exactly if it names what is imported. -/
theorem endsWithFrom_iff (hclause : ∀ c ∈ clause, endsClause c = false) :
    endsWithFrom clause = true ↔ NamesImports clause := by
  constructor
  · intro h
    unfold endsWithFrom at h
    split at h
    · rename_i c names hback
      -- Last character first, the clause is white space, `from`, a character `c` and the rest.
      have hreverse : clause = names.reverse ++ [c] ++ "from".toList ++
          (clause.reverse.takeWhile isWhiteSpace).reverse := by
        have hsplit := List.takeWhile_append_dropWhile (p := isWhiteSpace) (l := clause.reverse)
        rw [hback] at hsplit
        simpa using congrArg List.reverse hsplit.symm
      refine ⟨names.reverse ++ [c], _, hreverse, ?_, fun d hd => hclause d ?_, c, ?_, ?_⟩
      · exact fun d hd => blank_takeWhile _ d (List.mem_reverse.mp hd)
      · rw [hreverse]
        exact List.mem_append_left _ (List.mem_append_left _ hd)
      · simp
      · simpa using h
    · contradiction
  · rintro ⟨names, blank, rfl, hblank, -, c, hlast, hc⟩
    obtain ⟨names, rfl⟩ := List.getLast?_eq_some_iff.mp hlast
    have hreverse : (names ++ [c] ++ "from".toList ++ blank).reverse =
        blank.reverse ++ 'm' :: 'o' :: 'r' :: 'f' :: c :: names.reverse := by
      simp
    have hdrop : (names ++ [c] ++ "from".toList ++ blank).reverse.dropWhile isWhiteSpace =
        'm' :: 'o' :: 'r' :: 'f' :: c :: names.reverse := by
      rw [hreverse]
      exact Blank.dropWhile_append (fun d hd => hblank d (List.mem_reverse.mp hd)) (by simp; decide)
    simp only [endsWithFrom, hdrop, hc, Bool.not_false]

/-- The recogniser accepts a clause that is white space or names what is imported. -/
theorem isClause_iff (hclause : ∀ c ∈ clause, endsClause c = false) :
    isClause clause = true ↔ Blank clause ∨ NamesImports clause := by
  rw [isClause, Bool.or_eq_true, List.all_eq_true, endsWithFrom_iff hclause]
  rfl

/-- No character of a clause ends it. -/
theorem endsClause_of_clause (hclause : Blank clause ∨ NamesImports clause) :
    ∀ c ∈ clause, endsClause c = false := by
  have hblank {w : Text} (hw : Blank w) : ∀ c ∈ w, endsClause c = false := fun c hc =>
    endsClause_of_isWhiteSpace (hw c hc)
  rcases hclause with hclause | ⟨names, blank, rfl, hw, hnames, -⟩
  · exact hblank hclause
  · have hfrom : ∀ c ∈ "from".toList, endsClause c = false := forall_endsClause (by decide)
    simp only [List.forall_mem_append]
    exact ⟨⟨hnames, hfrom⟩, hblank hw⟩

/-- A terminator is blanks and perhaps a semicolon. -/
theorem exists_terminator (h : dropTerminator t = rest) :
    ∃ blanks terminator, t = blanks ++ terminator ++ rest ∧
      (∀ c ∈ blanks, isBlank c = true) ∧ (terminator = [] ∨ terminator = [';']) := by
  have hsplit := (List.takeWhile_append_dropWhile (p := isBlank) (l := t)).symm
  have hblanks : ∀ c ∈ t.takeWhile isBlank, isBlank c = true := fun c hc =>
    List.mem_takeWhile_imp hc
  unfold dropTerminator at h
  split at h
  · rename_i hback
    rw [hback, h] at hsplit
    exact ⟨_, [';'], by simpa using hsplit, hblanks, .inr rfl⟩
  · rw [h] at hsplit
    exact ⟨_, [], by simpa using hsplit, hblanks, .inl rfl⟩

/-- At least the blanks and the semicolon are dropped. -/
theorem dropTerminator_append_suffix {blanks terminator : Text}
    (hblanks : ∀ c ∈ blanks, isBlank c = true)
    (hterminator : terminator = [] ∨ terminator = [';']) (rest : Text) :
    dropTerminator (blanks ++ terminator ++ rest) <:+ rest := by
  have hdrop : (blanks ++ terminator ++ rest).dropWhile isBlank =
      (terminator ++ rest).dropWhile isBlank := by
    rw [List.append_assoc, List.dropWhile_append_of_pos hblanks]
  rcases hterminator with rfl | rfl
  · have hsame : dropTerminator (blanks ++ [] ++ rest) = dropTerminator rest := by
      rw [dropTerminator, hdrop, dropTerminator, List.nil_append]
    rw [hsame]
    exact dropTerminator_suffix rest
  · have hsemicolon : ([';'] ++ rest).dropWhile isBlank = ';' :: rest := rfl
    rw [dropTerminator, hdrop, hsemicolon]
    exact List.suffix_rfl

/-! ## The recogniser reads the longest declaration -/

/-- What the recogniser asks for, part by part. -/
theorem declaration?_eq_some :
    declaration? t = some rest ↔
      ∃ afterWord r, "import".toList.isPrefixOf? t = some afterWord ∧
        startsInWord afterWord = false ∧
        isClause (afterWord.takeWhile fun c => !endsClause c) = true ∧
        specifier? (afterWord.dropWhile fun c => !endsClause c) = some r ∧
        dropTerminator r = rest := by
  simp [declaration?, Option.bind_eq_some_iff, guard]

/-- What the recogniser reads is a declaration. -/
theorem exists_isDeclaration (h : declaration? t = some rest) :
    ∃ d, t = d ++ rest ∧ IsDeclaration d := by
  obtain ⟨afterWord, r, hword, hboundary, hclause, hspecifier, hrest⟩ := declaration?_eq_some.mp h
  obtain ⟨opening, inside, closing, hdrop, hopening, hne, hinside, hclosing⟩ :=
    specifier?_eq_some_iff.mp hspecifier
  obtain ⟨blanks, terminator, rfl, hblanks, hterminator⟩ := exists_terminator hrest
  have hsplit := (List.takeWhile_append_dropWhile (p := fun c => !endsClause c)
    (l := afterWord)).symm
  have hin : ∀ c ∈ afterWord.takeWhile (fun c => !endsClause c), endsClause c = false :=
    fun c hc => by simpa using List.mem_takeWhile_imp hc
  rw [hdrop] at hsplit
  generalize afterWord.takeWhile (fun c => !endsClause c) = clause at hclause hin hsplit
  have hboundary' : startsInWord clause = false := by
    cases clause with
    | nil => rfl
    | cons c clause => rwa [hsplit] at hboundary
  refine ⟨_, ?_, .intro hboundary' ((isClause_iff hin).mp hclause) hopening hne hinside hclosing
    hblanks hterminator⟩
  rw [eq_append_of_isPrefixOf? hword, hsplit]
  simp

/-- No quote continues a word. -/
theorem isWord_of_isQuote {c : Char} (hc : isQuote c = true) : isWord c = false := by
  have hcases : c = '\'' ∨ c = '"' := by simpa [isQuote] using hc
  rcases hcases with rfl | rfl <;> decide

/-- The recogniser accepts a clause with a specifier after it and drops the terminator. -/
theorem declaration?_of_clause {r after : Text} (hboundary : startsInWord clause = false)
    (hclause : Blank clause ∨ NamesImports clause) (hspecifier : specifier? r = some after) :
    declaration? ("import".toList ++ clause ++ r) = some (dropTerminator after) := by
  have hin := endsClause_of_clause hclause
  have hkept : ∀ c ∈ clause, (!endsClause c) = true := fun c hc => by simp [hin c hc]
  obtain ⟨opening, inside, closing, rfl, hopening, -⟩ := specifier?_eq_some_iff.mp hspecifier
  have hout : endsClause opening = true := endsClause_of_isQuote hopening
  refine declaration?_eq_some.mpr ⟨clause ++ (opening :: inside ++ closing :: after), _, ?_, ?_, ?_,
    ?_, rfl⟩
  · rw [List.append_assoc]
    exact isPrefixOf?_append _ _
  · cases clause with
    | nil => exact isWord_of_isQuote hopening
    | cons c clause => exact hboundary
  · rw [List.takeWhile_append_of_pos hkept, List.cons_append,
      List.takeWhile_cons_of_neg (by simp [hout]), List.append_nil]
    exact (isClause_iff hin).mpr hclause
  · rw [List.dropWhile_append_of_pos hkept, List.cons_append,
      List.dropWhile_cons_of_neg (by simp [hout])]
    exact hspecifier

/-- Where a text begins with a declaration, the recogniser finds one that ends there or later. -/
theorem exists_of_isDeclaration {d : Text} (h : IsDeclaration d) (rest : Text) :
    ∃ after, declaration? (d ++ rest) = some after ∧ after <:+ rest := by
  obtain ⟨hboundary, hclause, hopening, hne, hinside, hclosing, hblanks, hterminator⟩ := h
  rename_i clause inside blanks terminator opening closing
  have hspecifier : specifier? (opening :: inside ++ closing :: (blanks ++ terminator ++ rest)) =
      some (blanks ++ terminator ++ rest) :=
    specifier?_eq_some_iff.mpr ⟨opening, inside, closing, rfl, hopening, hne, hinside, hclosing⟩
  have hread := declaration?_of_clause hboundary hclause hspecifier
  refine ⟨_, ?_, dropTerminator_append_suffix hblanks hterminator rest⟩
  rw [← hread]
  congr 1
  simp

/-! ## Where a declaration ends -/

/-- Where a declaration ends is decided by what stands from the first character on that may not
stand in a clause. -/
theorem after_declaration? (h : declaration? t = some rest) :
    (specifier? (t.dropWhile fun c => !endsClause c)).map dropTerminator = some rest := by
  obtain ⟨afterWord, r, hword, -, -, hspecifier, rfl⟩ := declaration?_eq_some.mp h
  have hin : ∀ c ∈ "import".toList, (!endsClause c) = true := List.all_eq_true.mp (by decide)
  rw [eq_append_of_isPrefixOf? hword, List.dropWhile_append_of_pos hin, hspecifier,
    Option.map_some]

/-- A line that begins after a text without a line feed begins in what follows. -/
theorem exists_line_after {q after w u : Text} (hq : '\n' ∉ q) (h : q ++ after = w ++ '\n' :: u) :
    ∃ w', w = q ++ w' ∧ after = w' ++ '\n' :: u := by
  rcases List.append_eq_append_iff.mp h with ⟨w', hw, hafter⟩ | ⟨x, hq', hu⟩
  · exact ⟨w', hw, hafter⟩
  · cases x with
    | nil => exact ⟨[], by simpa using hq'.symm, hu.symm⟩
    | cons c x =>
      obtain ⟨rfl, -⟩ := List.cons.inj hu
      exact absurd (hq' ▸ List.mem_append_right w List.mem_cons_self) hq

/-- A declaration has no line feed after its clause, where the recogniser looks for the specifier.
-/
theorem exists_of_after_declaration? (h : declaration? t = some rest) :
    ∃ q, t.dropWhile (fun c => !endsClause c) = q ++ rest ∧ '\n' ∉ q := by
  obtain ⟨r, hspecifier, hrest⟩ := Option.map_eq_some_iff.mp (after_declaration? h)
  obtain ⟨opening, inside, closing, hdrop, hopening, -, hinside, hclosing⟩ :=
    specifier?_eq_some_iff.mp hspecifier
  obtain ⟨blanks, terminator, rfl, hblanks, hterminator⟩ := exists_terminator hrest
  have hquote {c : Char} (hc : isQuote c = true) : '\n' ≠ c := by
    rintro rfl
    contradiction
  have hin : '\n' ∉ inside := fun hmem => (hinside _ hmem).2 rfl
  have hblank : '\n' ∉ blanks := fun hmem => absurd (hblanks _ hmem) (by decide)
  have hend : '\n' ∉ terminator := by rcases hterminator with rfl | rfl <;> decide
  refine ⟨opening :: inside ++ closing :: (blanks ++ terminator), by simp [hdrop], ?_⟩
  simp [hquote hopening, hquote hclosing, hin, hblank, hend]

/-- A line that begins in a declaration, behind its first, begins in the clause. A line that begins
elsewhere begins after the declaration. -/
theorem line_cases {w u after : Text} (h : declaration? t = some after)
    (hline : t = w ++ '\n' :: u) :
    (∃ w', after = w' ++ '\n' :: u) ∨
      ∃ x, (t.takeWhile fun c => !endsClause c) = w ++ '\n' :: x ∧
        u = x ++ t.dropWhile fun c => !endsClause c := by
  obtain ⟨q, hq, hnone⟩ := exists_of_after_declaration? h
  have hsplit := List.takeWhile_append_dropWhile (p := fun c => !endsClause c) (l := t)
  rcases List.append_eq_append_iff.mp (hsplit.trans hline) with ⟨x, -, hs⟩ | ⟨x, hclause, hu⟩
  · obtain ⟨w', -, hw'⟩ := exists_line_after hnone (hq.symm.trans hs)
    exact .inl ⟨w', hw'⟩
  · cases x with
    | nil =>
      obtain ⟨w', -, hw'⟩ := exists_line_after (w := []) hnone (hq.symm.trans hu.symm)
      exact .inl ⟨w', hw'⟩
    | cons c x =>
      rw [List.cons_append, List.cons.injEq] at hu
      obtain ⟨rfl, hu⟩ := hu
      exact .inr ⟨x, hclause, hu⟩

/-- No character of a part of the clause ends it. -/
theorem endsClause_of_part {w x : Text}
    (h : (t.takeWhile fun c => !endsClause c) = w ++ '\n' :: x) :
    ∀ c ∈ x, (!endsClause c) = true := by
  intro c hc
  have hmem : c ∈ w ++ '\n' :: x := by simp [hc]
  exact List.mem_takeWhile_imp (p := fun c => !endsClause c) (h ▸ hmem)

/-- Where a line begins in a declaration, behind its first, another declaration that begins there
ends where it ends. A line that begins elsewhere begins after it. -/
theorem declaration?_of_line {w u after : Text} (h : declaration? t = some after)
    (hline : t = w ++ '\n' :: u) :
    (∃ w', after = w' ++ '\n' :: u) ∨ ∀ rest, declaration? u = some rest → rest = after := by
  rcases line_cases h hline with hafter | ⟨x, hclause, hu⟩
  · exact .inl hafter
  · -- The line begins in the clause, so both have the same specifier.
    have hsame : u.dropWhile (fun c => !endsClause c) = t.dropWhile fun c => !endsClause c := by
      rw [hu, List.dropWhile_append_of_pos (endsClause_of_part hclause), List.dropWhile_idempotent]
    refine .inr fun rest hrest => ?_
    have hafter := after_declaration? hrest
    rw [hsame, after_declaration? h, Option.some.injEq] at hafter
    exact hafter.symm

/-- A clause that names what is imported still does without its front, if this ends in a character
that `from` does not have and a space comes after it. -/
theorem NamesImports.of_append {p y : Text} {c : Char} (h : NamesImports (p ++ [c] ++ ' ' :: y))
    (hfrom : c ∉ "from".toList) (hblank : isWhiteSpace c = false) : NamesImports (' ' :: y) := by
  obtain ⟨names, blank, hsplit, hblanks, hnames, hlast⟩ := h
  have hspace : ' ' :: y ≠ "from".toList ++ blank := by simp
  rw [List.append_assoc names] at hsplit
  rcases List.append_eq_append_iff.mp hsplit with ⟨z, rfl, hz⟩ | ⟨z, hz, hback⟩
  · obtain ⟨d, hd, hd'⟩ := hlast
    refine ⟨z, blank, by rw [hz, List.append_assoc], hblanks, fun e he => hnames e (by simp [he]),
      d, ?_, hd'⟩
    rw [List.getLast?_append_of_ne_nil _ fun hnil => by simp [hnil] at hz] at hd
    exact hd
  · -- The front reaches into `from` or the white space after it, but `c` is in neither of them.
    exfalso
    rcases List.eq_nil_or_concat' z with rfl | ⟨z, d, rfl⟩
    · exact hspace hback.symm
    · rw [← List.append_assoc] at hz
      obtain rfl : c = d := by simpa using (List.append_inj' hz rfl).2
      have hmem : c ∈ "from".toList ++ blank := hback ▸ by simp
      rcases List.mem_append.mp hmem with hc | hc
      · exact hfrom hc
      · rw [hblanks c hc] at hblank
        contradiction

/-- A word none of whose characters ends a clause ends before a character that does. -/
theorem exists_of_clause_word {word x r v : Text} {c : Char}
    (hword : ∀ c ∈ word, endsClause c = false) (hc : endsClause c = true)
    (h : word ++ v = x ++ c :: r) : ∃ y, x = word ++ y := by
  rcases List.append_eq_append_iff.mp h with ⟨y, hy, -⟩ | ⟨z, rfl, hz⟩
  · exact ⟨y, hy⟩
  · cases z with
    | nil => exact ⟨[], by simp⟩
    | cons d z =>
      obtain ⟨rfl, -⟩ := List.cons.inj hz
      rw [hword c (by simp)] at hc
      contradiction

/-- Where a line of a clause, behind its first, begins with `import` and a space, the clause names
what is imported and still does from the space on. -/
theorem namesImports_of_importLine {w y : Text} (hin : ∀ c ∈ clause, endsClause c = false)
    (hclause : isClause clause = true)
    (hline : "import".toList ++ clause = w ++ '\n' :: ("import ".toList ++ y)) :
    NamesImports (' ' :: y) := by
  have hsplit : "import".toList ++ clause = w ++ '\n' :: "impor".toList ++ 't' :: ' ' :: y := by
    simpa using hline
  obtain ⟨p, rfl⟩ : ∃ p, clause = p ++ ['t'] ++ ' ' :: y := by
    rcases List.append_eq_append_iff.mp hsplit with ⟨p, -, hp⟩ | ⟨p, hp, -⟩
    · exact ⟨p, by simpa using hp⟩
    · have hmem : '\n' ∈ "import".toList := hp ▸ by simp
      exact absurd hmem (by decide)
  rcases (isClause_iff hin).mp hclause with hblank | hnames
  · exact absurd (hblank 't' (by simp)) (by decide)
  · exact hnames.of_append (by decide) (by decide)

/-- Where a line that begins in a declaration, behind its first, begins with `import` and a space,
so does another declaration, which ends where it ends. -/
theorem declaration?_of_importLine {w u after : Text} (h : declaration? t = some after)
    (hline : t = w ++ '\n' :: u) (himport : "import ".toList <+: u) :
    (∃ w', after = w' ++ '\n' :: u) ∨ declaration? u = some after := by
  rcases line_cases h hline with hafter | ⟨x, hpart, hu⟩
  · exact .inl hafter
  obtain ⟨afterWord, r, hword, -, hclause, hspecifier, hrest⟩ := declaration?_eq_some.mp h
  have hin : ∀ c ∈ "import".toList, (!endsClause c) = true := List.all_eq_true.mp (by decide)
  have ht := eq_append_of_isPrefixOf? hword
  rw [ht, List.takeWhile_append_of_pos hin] at hpart
  rw [ht, List.dropWhile_append_of_pos hin] at hu
  obtain ⟨opening, inside, closing, hdrop, hopening, -⟩ := specifier?_eq_some_iff.mp hspecifier
  -- The word and the space stand in the clause, which the quote ends.
  obtain ⟨v, hv⟩ := himport
  obtain ⟨y, rfl⟩ : ∃ y, x = "import ".toList ++ y :=
    exists_of_clause_word (forall_endsClause (by decide)) (endsClause_of_isQuote hopening)
      (by rw [hv, hu, hdrop, List.cons_append])
  have hnames : NamesImports (' ' :: y) := by
    refine namesImports_of_importLine (fun c hc => ?_) hclause hpart
    simpa using List.mem_takeWhile_imp (p := fun c => !endsClause c) hc
  have hspace : startsInWord (' ' :: y) = false := by
    show isWord ' ' = false
    decide
  have hread := declaration?_of_clause hspace (.inr hnames) hspecifier
  rw [hu, ← hrest]
  exact .inr hread

end LogGuard.Import
