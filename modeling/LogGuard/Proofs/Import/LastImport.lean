import LogGuard.Proofs.Call.Occurrence
import LogGuard.Proofs.Import.Declaration
import Mathlib.Order.Bounds.Basic

/-!
# The last import of a text

The search for the last import reads declarations one after another from left to right and never
looks into one that it has read. It finds the place where a declaration ends last, of all
declarations that begin a line (`afterLastDeclaration?_spec`): a declaration that begins within
another one ends where that one ends. If there is no declaration, it finds the last line that begins
with `import` and a space (`lastImportLine?_spec`). `anchorOffset?_eq_iff` puts both together.
-/

namespace LogGuard.Import

open Text (byteLength byteLength_append)

variable {t u rest front d : Text} {c : Char} {b : Bool}

/-- The text ends where a line begins. -/
def EndsLine (front : Text) : Prop :=
  front = [] ∨ ∃ w, front = w ++ ['\n']

/-- The declaration `d` begins a line of the text, after `front`. -/
def DeclarationAt (t front d : Text) : Prop :=
  front ++ d <+: t ∧ EndsLine front ∧ IsDeclaration d

/-- A line of the text begins with `import` and a space, after `front`. -/
def ImportLineAt (t front : Text) : Prop :=
  front ++ "import ".toList <+: t ∧ EndsLine front

/-- The offsets at which declarations end that begin a line of the text. -/
def declarationEnds (t : Text) : Set Nat :=
  {n | ∃ front d, DeclarationAt t front d ∧ byteLength (front ++ d) = n}

/-- The offsets of the lines of the text that begin with `import` and a space. -/
def importLines (t : Text) : Set Nat :=
  {n | ∃ front, ImportLineAt t front ∧ byteLength front = n}

/-- The place of the last import: where the declaration ends that ends last of all that begin a
line or, without a declaration, where the last line begins that begins with `import` and a space. -/
def IsLastImport (t : Text) (place : Nat) : Prop :=
  IsGreatest (declarationEnds t) place ∨
    declarationEnds t = ∅ ∧ IsGreatest (importLines t) place

/-- The line that holds the offset `place` of the text ends at `offset`. -/
def LineEndsAt (t : Text) (place offset : Nat) : Prop :=
  ∃ before line after, t = before ++ line ++ after ∧ byteLength before = place ∧
    byteLength (before ++ line) = offset ∧ '\n' ∉ line ∧
    (after = [] ∨ ∃ rest, after = '\n' :: rest)

/-! ## Beginnings of lines -/

/-- A line of the text begins with `u`, the rest of the text. The front of the text counts only if
`b` tells that it begins a line. -/
def BeginsLine (b : Bool) (t u : Text) : Prop :=
  ∃ front, t = front ++ u ∧ EndsLine front ∧ (front = [] → b = true)

/-- A line of the text begins with a declaration that the recogniser reads up to `rest`. -/
def Declares (b : Bool) (t rest : Text) : Prop :=
  ∃ u, BeginsLine b t u ∧ declaration? u = some rest

theorem endsLine_cons : EndsLine (c :: front) ↔ EndsLine front ∧ (front = [] → c = '\n') := by
  cases front with
  | nil =>
    have hlast : (∃ w, [c] = w ++ ['\n']) ↔ c = '\n' :=
      ⟨fun ⟨w, hw⟩ => by simpa using congrArg List.getLast? hw, fun hc => ⟨[], by rw [hc]; rfl⟩⟩
    simp [EndsLine, hlast]
  | cons d front => simp [EndsLine, List.cons_eq_append_iff]

/-- The front of a text begins a line or a line begins after its first character. -/
theorem beginsLine_cons :
    BeginsLine b (c :: t) u ↔ (b = true ∧ u = c :: t) ∨ BeginsLine (c == '\n') t u := by
  constructor
  · rintro ⟨front, ht, hfront, hb⟩
    cases front with
    | nil => exact .inl ⟨hb rfl, ht.symm⟩
    | cons d front =>
      obtain ⟨rfl, rfl⟩ := List.cons.inj ht
      obtain ⟨hfront, hc⟩ := endsLine_cons.mp hfront
      exact .inr ⟨front, rfl, hfront, by simpa using hc⟩
  · rintro (⟨hb, rfl⟩ | ⟨front, rfl, hfront, hc⟩)
    · exact ⟨[], rfl, .inl rfl, fun _ => hb⟩
    · exact ⟨c :: front, rfl, endsLine_cons.mpr ⟨hfront, by simpa using hc⟩, by simp⟩

theorem beginsLine_nil (h : BeginsLine b [] u) : u = [] := by
  obtain ⟨front, ht, -, -⟩ := h
  exact (List.append_eq_nil_iff.mp ht.symm).2

/-- A line that begins a text begins it or comes after a line feed. -/
theorem BeginsLine.cases (h : BeginsLine b t u) : u = t ∨ ∃ w, t = w ++ '\n' :: u := by
  obtain ⟨front, rfl, rfl | ⟨w, rfl⟩, -⟩ := h
  · exact .inl rfl
  · exact .inr ⟨w, by simp⟩

/-- After a line feed a line begins. -/
theorem beginsLine_of_line (w u : Text) : BeginsLine b (w ++ '\n' :: u) u :=
  ⟨w ++ ['\n'], by simp, .inr ⟨w, rfl⟩, by simp⟩

/-- If the front of the text does not count, a line begins after a line feed. -/
theorem beginsLine_false_iff : BeginsLine false t u ↔ ∃ w, t = w ++ '\n' :: u := by
  constructor
  · rintro ⟨front, rfl, hfront, hne⟩
    obtain ⟨w, rfl⟩ := hfront.resolve_left fun h => by simpa using hne h
    exact ⟨w, by simp⟩
  · rintro ⟨w, rfl⟩
    exact beginsLine_of_line w u

/-! ## The search for the last declaration -/

theorem declares_cons :
    Declares b (c :: t) rest ↔
      (b = true ∧ declaration? (c :: t) = some rest) ∨ Declares (c == '\n') t rest := by
  constructor
  · rintro ⟨u, hu, h⟩
    rcases beginsLine_cons.mp hu with ⟨hb, rfl⟩ | hu
    · exact .inl ⟨hb, h⟩
    · exact .inr ⟨u, hu, h⟩
  · rintro (⟨hb, h⟩ | ⟨u, hu, h⟩)
    · exact ⟨_, beginsLine_cons.mpr (.inl ⟨hb, rfl⟩), h⟩
    · exact ⟨u, beginsLine_cons.mpr (.inr hu), h⟩

theorem not_declares_nil : ¬Declares b [] rest := by
  rintro ⟨u, hu, h⟩
  rw [beginsLine_nil hu] at h
  contradiction

/-- A declaration that begins on a line of a text that begins with one ends where this one ends or
begins after it. -/
theorem Declares.after {after : Text} (h : Declares b t rest) (ht : declaration? t = some after) :
    rest = after ∨ Declares false after rest := by
  obtain ⟨u, hu, hrest⟩ := h
  rcases hu.cases with rfl | ⟨w, hw⟩
  · exact .inl (Option.some.inj (hrest.symm.trans ht))
  · rcases declaration?_of_line ht hw with ⟨w', rfl⟩ | hsame
    · exact .inr ⟨u, beginsLine_of_line w' u, hrest⟩
    · exact .inl (hsame rest hrest)

/-- After a declaration the text goes on with its end. -/
theorem Declares.suffix (h : Declares b t rest) : rest <:+ t := by
  obtain ⟨u, ⟨front, rfl, -, -⟩, hrest⟩ := h
  exact (declaration?_suffix hrest).trans (List.suffix_append front u)

/-- What begins a line after a part of a text begins a line of the text. -/
theorem Declares.of_suffix (h : Declares false u rest) (hsuffix : u <:+ t) : Declares b t rest := by
  obtain ⟨v, ⟨front, rfl, hfront, hne⟩, hrest⟩ := h
  obtain ⟨w, rfl⟩ := hsuffix
  obtain ⟨front, rfl⟩ := hfront.resolve_left fun h => by simpa using hne h
  exact ⟨v, by simpa using beginsLine_of_line (w ++ front) v, hrest⟩

/-- The search finds the declaration that ends last. -/
theorem afterLastDeclaration?_spec (b : Bool) (t : Text) :
    (∀ rest, afterLastDeclaration? b t = some rest →
      Declares b t rest ∧ ∀ rest', Declares b t rest' → rest <:+ rest') ∧
    (afterLastDeclaration? b t = none → ∀ rest, ¬Declares b t rest) := by
  induction b, t using afterLastDeclaration?.induct with
  | case1 b => simp [afterLastDeclaration?, not_declares_nil]
  | case2 b c tail hnone ih =>
    have hfound : afterLastDeclaration? b (c :: tail) =
        afterLastDeclaration? (c == '\n') tail := by
      rw [afterLastDeclaration?]
      split <;> simp_all
    have hdeclares {rest : Text} :
        Declares b (c :: tail) rest ↔ Declares (c == '\n') tail rest := by
      rw [declares_cons, or_iff_right]
      rintro ⟨rfl, h⟩
      simp [h] at hnone
    simpa only [hfound, hdeclares] using ih
  | case3 b c tail after hafter ih =>
    obtain ⟨rfl, hafter⟩ : b = true ∧ declaration? (c :: tail) = some after := by
      split at hafter
      · exact ⟨‹_›, hafter⟩
      · contradiction
    have hfound : afterLastDeclaration? true (c :: tail) =
        (afterLastDeclaration? false after).or (some after) := by
      rw [afterLastDeclaration?]
      split <;> simp_all
    -- The search skips what begins within the declaration, which ends where the declaration does.
    have hhere : Declares true (c :: tail) after :=
      declares_cons.mpr (.inl ⟨rfl, hafter⟩)
    have hsuffix : after <:+ c :: tail := declaration?_suffix hafter
    rw [hfound]
    cases hlater : afterLastDeclaration? false after with
    | none =>
      refine ⟨fun rest hrest => ?_, by simp⟩
      obtain rfl := Option.some.inj hrest
      refine ⟨hhere, fun rest' hrest' => ?_⟩
      rcases hrest'.after hafter with rfl | hrest'
      · exact List.suffix_rfl
      · exact absurd hrest' (ih.2 hlater rest')
    | some last =>
      obtain ⟨hlast, hgreatest⟩ := ih.1 last hlater
      refine ⟨fun rest hrest => ?_, by simp⟩
      obtain rfl := Option.some.inj hrest
      refine ⟨hlast.of_suffix hsuffix, fun rest' hrest' => ?_⟩
      rcases hrest'.after hafter with rfl | hrest'
      · exact afterLastDeclaration?_suffix hlater
      · exact hgreatest rest' hrest'

/-- The search finds the last line that begins with `import` and a space. -/
theorem lastImportLine?_spec (b : Bool) (t : Text) :
    (∀ line, lastImportLine? b t = some line →
      (BeginsLine b t line ∧ "import ".toList <+: line) ∧
        ∀ u, BeginsLine b t u → "import ".toList <+: u → line <:+ u) ∧
    (lastImportLine? b t = none → ∀ u, BeginsLine b t u → ¬"import ".toList <+: u) := by
  induction t generalizing b with
  | nil =>
    refine ⟨fun line hline => by contradiction, fun _ u hu => ?_⟩
    rw [beginsLine_nil hu]
    decide
  | cons c tail ih =>
    simp only [lastImportLine?, Option.orElse_eq_orElse, Option.orElse_eq_or, beginsLine_cons]
    cases hlater : lastImportLine? (c == '\n') tail with
    | some last =>
      obtain ⟨⟨hlast, himport⟩, hgreatest⟩ := (ih _).1 last hlater
      refine ⟨fun line hline => ?_, fun hnone => by contradiction⟩
      obtain rfl := Option.some.inj hline
      refine ⟨⟨.inr hlast, himport⟩, ?_⟩
      rintro u (⟨-, rfl⟩ | hu) hbefore
      · exact (lastImportLine?_suffix hlater).trans (List.suffix_cons c tail)
      · exact hgreatest u hu hbefore
    | none =>
      have hnone := (ih _).2 hlater
      rw [Option.none_or]
      split
      · rename_i hfront
        rw [Bool.and_eq_true, List.isPrefixOf_iff_prefix] at hfront
        refine ⟨fun line hline => ?_, fun hnone => by contradiction⟩
        obtain rfl := Option.some.inj hline
        refine ⟨⟨.inl ⟨hfront.1, rfl⟩, hfront.2⟩, ?_⟩
        rintro u (⟨-, rfl⟩ | hu) hbefore
        · exact List.suffix_rfl
        · exact absurd hbefore (hnone u hu)
      · rename_i hfront
        rw [Bool.and_eq_true, List.isPrefixOf_iff_prefix] at hfront
        refine ⟨fun line hline => by contradiction, fun _ u hu hbefore => ?_⟩
        rcases hu with ⟨hb, rfl⟩ | hu
        · exact hfront ⟨hb, hbefore⟩
        · exact hnone u hu hbefore

/-! ## Offsets -/

/-- What the recogniser reads stands at the beginning of a line. -/
theorem Declares.exists_declarationAt (h : Declares b t rest) :
    ∃ front d, t = front ++ d ++ rest ∧ DeclarationAt t front d ∧ (front = [] → b = true) := by
  obtain ⟨u, ⟨front, rfl, hfront, hb⟩, hrest⟩ := h
  obtain ⟨d, rfl, hd⟩ := exists_isDeclaration hrest
  exact ⟨front, d, by simp, ⟨⟨rest, by simp⟩, hfront, hd⟩, hb⟩

/-- Where a declaration begins a line, the recogniser reads at least up to its end. -/
theorem DeclarationAt.exists_declares (h : DeclarationAt t front d) (hb : front = [] → b = true) :
    ∃ head rest, t = head ++ rest ∧ front ++ d <+: head ∧ Declares b t rest := by
  obtain ⟨⟨after, rfl⟩, hfront, hd⟩ := h
  obtain ⟨rest, hrest, w, rfl⟩ := exists_of_isDeclaration hd after
  exact ⟨front ++ d ++ w, rest, by simp, List.prefix_append _ _, d ++ (w ++ rest),
    ⟨front, by simp, hfront, hb⟩, hrest⟩

variable {head line : Text}

/-- The end of the declaration that the search finds is the largest. -/
theorem isGreatest_declarationEnds (h : afterLastDeclaration? true (head ++ rest) = some rest) :
    IsGreatest (declarationEnds (head ++ rest)) (byteLength head) := by
  obtain ⟨hdeclares, hlast⟩ := (afterLastDeclaration?_spec true _).1 rest h
  constructor
  · obtain ⟨front, d, ht, hd, -⟩ := hdeclares.exists_declarationAt
    obtain rfl := List.append_cancel_right ht
    exact ⟨front, d, hd, rfl⟩
  · rintro n ⟨front, d, hd, rfl⟩
    obtain ⟨head', rest', ht, hbefore, hrest'⟩ := hd.exists_declares fun _ => rfl
    obtain ⟨w, rfl⟩ := hlast rest' hrest'
    rw [← List.append_assoc] at ht
    obtain rfl := List.append_cancel_right ht
    exact Text.byteLength_mono (hbefore.trans (List.prefix_append _ _))

/-- If the search finds no declaration, then none begins a line. -/
theorem declarationEnds_eq_empty (h : afterLastDeclaration? true t = none) :
    declarationEnds t = ∅ := by
  rw [Set.eq_empty_iff_forall_notMem]
  rintro n ⟨front, d, hd, -⟩
  obtain ⟨-, rest, -, -, hrest⟩ := hd.exists_declares fun _ => rfl
  exact (afterLastDeclaration?_spec true t).2 h rest hrest

/-- The line that the search finds has the largest offset. -/
theorem isGreatest_importLines (h : lastImportLine? true (head ++ line) = some line) :
    IsGreatest (importLines (head ++ line)) (byteLength head) := by
  obtain ⟨⟨⟨front, ht, hfront, -⟩, himport⟩, hlast⟩ := (lastImportLine?_spec true _).1 line h
  obtain rfl := List.append_cancel_right ht
  constructor
  · exact ⟨head, ⟨(List.prefix_append_right_inj head).mpr himport, hfront⟩, rfl⟩
  · rintro n ⟨front, ⟨⟨rest, ht⟩, hfront⟩, rfl⟩
    rw [List.append_assoc] at ht
    obtain ⟨w, hw⟩ := hlast _ ⟨front, ht.symm, hfront, fun _ => rfl⟩ (List.prefix_append _ rest)
    rw [← hw, ← List.append_assoc] at ht
    obtain rfl := List.append_cancel_right ht
    exact Text.byteLength_mono (List.prefix_append _ _)

/-- If the search finds no line, then none begins with `import` and a space. -/
theorem importLines_eq_empty (h : lastImportLine? true t = none) : importLines t = ∅ := by
  rw [Set.eq_empty_iff_forall_notMem]
  rintro n ⟨front, ⟨⟨rest, ht⟩, hfront⟩, -⟩
  rw [List.append_assoc] at ht
  exact (lastImportLine?_spec true t).2 h _ ⟨front, ht.symm, hfront, fun _ => rfl⟩
    (List.prefix_append _ rest)

/-- The line on which the rest of a text begins ends at the next line feed. -/
theorem lineEndsAt_takeWhile (head rest : Text) :
    LineEndsAt (head ++ rest) (byteLength head)
      (byteLength (head ++ rest.takeWhile (· != '\n'))) := by
  refine ⟨head, _, rest.dropWhile (· != '\n'), ?_, rfl, rfl, fun hmem => ?_, dropWhile_line rest⟩
  · rw [List.append_assoc, List.takeWhile_append_dropWhile]
  · simpa using List.mem_takeWhile_imp hmem

/-- A text up to the next line feed is the line at its front. -/
theorem takeWhile_line {after : Text} (hline : '\n' ∉ line)
    (hafter : after = [] ∨ ∃ rest, after = '\n' :: rest) :
    (line ++ after).takeWhile (· != '\n') = line := by
  have hall : ∀ c ∈ line, (c != '\n') = true := fun c hc => by
    rw [bne_iff_ne]
    rintro rfl
    exact hline hc
  rw [List.takeWhile_append_of_pos hall]
  rcases hafter with rfl | ⟨rest, rfl⟩
  · exact List.append_nil line
  · simp

/-- A line ends at one place. -/
theorem LineEndsAt.unique {place offset offset' : Nat} (h : LineEndsAt t place offset)
    (h' : LineEndsAt t place offset') : offset = offset' := by
  obtain ⟨before, line, after, rfl, hplace, rfl, hline, hafter⟩ := h
  obtain ⟨before', line', after', ht, rfl, rfl, hline', hafter'⟩ := h'
  rw [List.append_assoc, List.append_assoc] at ht
  obtain rfl := Call.eq_of_byteLength_eq ht hplace
  have hsame := congrArg (List.takeWhile (· != '\n')) (List.append_cancel_left ht)
  rw [takeWhile_line hline hafter, takeWhile_line hline' hafter'] at hsame
  rw [hsame]

/-- There is one last import. -/
theorem IsLastImport.unique {place place' : Nat} (h : IsLastImport t place)
    (h' : IsLastImport t place') : place = place' := by
  rcases h with h | ⟨hempty, h⟩ <;> rcases h' with h' | ⟨hempty', h'⟩
  · exact h.unique h'
  · simpa [hempty'] using h.1
  · simpa [hempty] using h'.1
  · exact h.unique h'

theorem IsLastImport.not_empty {place : Nat} (h : IsLastImport t place) :
    ¬(declarationEnds t = ∅ ∧ importLines t = ∅) := by
  rintro ⟨hdeclarations, hlines⟩
  rcases h with h | ⟨-, h⟩
  · simpa [hdeclarations] using h.1
  · simpa [hlines] using h.1

/-- No declaration ends after the last import. -/
theorem IsLastImport.le {place n : Nat} (h : IsLastImport t place) (hn : n ∈ declarationEnds t) :
    n ≤ place := by
  rcases h with h | ⟨hempty, -⟩
  · exact h.2 hn
  · simp [hempty] at hn

/-- A line ends after each place on it, at the end of a front part of the text. -/
theorem LineEndsAt.between {place offset : Nat} (h : LineEndsAt t place offset) :
    place ≤ offset ∧ ∃ head, head <+: t ∧ byteLength head = offset := by
  obtain ⟨before, line, after, rfl, rfl, rfl, -, -⟩ := h
  exact ⟨Text.byteLength_mono (List.prefix_append before line), _,
    List.prefix_append _ after, rfl⟩

/-- The anchor is found at the end of the line of the last import. -/
theorem anchorOffset?_cases (t : Text) :
    (∃ place offset, anchorOffset? t = some offset ∧ LineEndsAt t place offset ∧
      IsLastImport t place) ∨
    anchorOffset? t = none ∧ declarationEnds t = ∅ ∧ importLines t = ∅ := by
  cases hdeclaration : afterLastDeclaration? true t with
  | some rest =>
    obtain ⟨head, rfl⟩ := afterLastDeclaration?_suffix hdeclaration
    refine .inl ⟨_, _, ?_, lineEndsAt_takeWhile head rest,
      .inl (isGreatest_declarationEnds hdeclaration)⟩
    rw [anchorOffset?, anchor?_of_lastImport (by rw [hdeclaration]; rfl), Option.map_some]
  | none =>
    have hempty := declarationEnds_eq_empty hdeclaration
    cases hline : lastImportLine? true t with
    | some line =>
      obtain ⟨head, rfl⟩ := lastImportLine?_suffix hline
      refine .inl ⟨_, _, ?_, lineEndsAt_takeWhile head line,
        .inr ⟨hempty, isGreatest_importLines hline⟩⟩
      rw [anchorOffset?, anchor?_of_lastImport (by rw [hdeclaration, hline]; rfl), Option.map_some]
    | none =>
      refine .inr ⟨?_, hempty, importLines_eq_empty hline⟩
      rw [anchorOffset?, anchor?, anchorTail?, hdeclaration, hline]
      rfl

/-- An import is inserted at the end of the line on which the declaration ends that ends last of
all declarations that begin a line. Without a declaration it is inserted at the end of the last line
that begins with `import` and a space, and nowhere if there is no such line. The place is the end of
a front part of the text, so that it lies within the text and between two characters, and no
declaration ends after it. -/
theorem anchorOffset?_eq_iff (t : Text) :
    (∀ offset, anchorOffset? t = some offset ↔
      ∃ place, LineEndsAt t place offset ∧ IsLastImport t place) ∧
    (anchorOffset? t = none ↔ declarationEnds t = ∅ ∧ importLines t = ∅) ∧
    ∀ offset ∈ anchorOffset? t, (∀ n ∈ declarationEnds t, n ≤ offset) ∧
      ∃ head, head <+: t ∧ byteLength head = offset := by
  rcases anchorOffset?_cases t with ⟨place, found, hfound, hline, hlast⟩ | ⟨hnone, hempty⟩
  · have hbetween := hline.between
    rw [hfound]
    refine ⟨fun offset => ⟨?_, ?_⟩, ⟨by simp, fun hempty => ?_⟩, fun offset hoffset => ?_⟩
    · intro h
      obtain rfl := Option.some.inj h
      exact ⟨place, hline, hlast⟩
    · rintro ⟨place', hline', hlast'⟩
      obtain rfl := hlast.unique hlast'
      rw [hline.unique hline']
    · exact absurd hempty hlast.not_empty
    · obtain rfl := Option.some.inj hoffset
      exact ⟨fun n hn => (hlast.le hn).trans hbetween.1, hbetween.2⟩
  · rw [hnone]
    refine ⟨fun offset => ⟨by simp, ?_⟩, by simp [hempty], by simp⟩
    rintro ⟨place, -, hlast⟩
    exact absurd hempty hlast.not_empty

example : anchorOffset? "import a\nimport b from 'b';\nrun();\n".toList = some 27 := by
  decide +kernel

end LogGuard.Import
