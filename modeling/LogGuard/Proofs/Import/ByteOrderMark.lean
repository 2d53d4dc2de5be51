import LogGuard.Proofs.Import.Insertion
import LogGuard.Proofs.Import.LastImport
import LogGuard.Proofs.Text.Lines

/-!
# Byte order marks

A byte order mark at the front of a text is neither white space nor part of a name, so it hides no
call (`Sanitized.of_mark`). But with the mark in front no import begins the text. This does not
matter if another import comes after the one that begins the text (`lastImport?_cases`). Otherwise
the new import goes elsewhere or nowhere. `sanitize_mark_iff` says that nothing else changes.
-/

namespace LogGuard

open Import

variable {t line head tail : Text}

/-- The character that a text may begin with to tell its encoding. -/
def byteOrderMark : Char :=
  '\uFEFF'

/-- A sanitised text with a byte order mark in front. -/
def Sanitized.marked (s : Sanitized) : Sanitized :=
  { s with text := byteOrderMark :: s.text }

/-- The last import of the text begins it: no declaration begins a later line, and the text begins
with a declaration or is alone among its lines in beginning with `import` and a space. -/
def LastImportFirst (t : Text) : Prop :=
  (∀ front d, DeclarationAt t front d → front = []) ∧
    ((∃ d, DeclarationAt t [] d) ∨
      ImportLineAt t [] ∧ ∀ front, ImportLineAt t front → front = [])

/-! ## The calls of a marked text -/

namespace Call

/-- A byte order mark at the front of a text hides nothing after it. -/
theorem sameView_mark : SameView [byteOrderMark] [] := by
  intro u
  cases u with
  | nil => decide +kernel
  | cons c u =>
    have hmark : [byteOrderMark].find? (fun d => Text.isLineEnd d || !Unicode.isWhiteSpace d) =
        some byteOrderMark := by decide
    simp only [List.cons_append, startsExpression, List.find?_append, hmark, List.append_nil]
    cases u.find? fun d => Text.isLineEnd d || !Unicode.isWhiteSpace d with
    | none => rfl
    | some d => rfl

/-- A marked text has the calls of the text, after the mark. -/
theorem pieces_mark (t : Text) :
    pieces (byteOrderMark :: t) = .plain byteOrderMark :: pieces t := by
  have hnone : ∀ m, ¬CallAt [] (byteOrderMark :: t) m := by
    rintro m ⟨hm, -⟩
    rw [match?_cons_of_ne (by decide)] at hm
    contradiction
  rw [pieces, piecesFrom_plain hnone, piecesFrom_congr sameView_mark, pieces]

end Call

/-- A marked text is sanitised as the text, with the mark in front. -/
theorem Sanitized.of_mark (t : Text) (status : ImportStatus) :
    Sanitized.of (byteOrderMark :: t) status = (Sanitized.of t status).marked := by
  rw [Sanitized.of, Sanitized.of, Call.replaceAll, Call.count, Call.pieces_mark]
  rfl

/-! ## The last import after the first line -/

namespace Import

/-- What the searches for the last import find if the front of the text begins a line only if
`b`. -/
def lastImport? (b : Bool) (t : Text) : Option Text :=
  afterLastDeclaration? b t <|> lastImportLine? b t

/-- No declaration begins a later line exactly if the search after the first line finds none. -/
theorem forall_declarationAt_iff :
    (∀ front d, DeclarationAt t front d → front = []) ↔ afterLastDeclaration? false t = none := by
  constructor
  · intro h
    by_contra hne
    obtain ⟨rest, hrest⟩ := Option.ne_none_iff_exists'.mp hne
    obtain ⟨front, d, -, hd, hfront⟩ :=
      ((afterLastDeclaration?_spec false t).1 rest hrest).1.exists_declarationAt
    simpa using hfront (h front d hd)
  · intro h front d hd
    by_contra hne
    obtain ⟨-, rest, -, -, hrest⟩ := hd.exists_declares (b := false) fun hfront => absurd hfront hne
    exact (afterLastDeclaration?_spec false t).2 h rest hrest

/-- A declaration begins the text exactly if the recogniser finds one. -/
theorem exists_declarationAt_iff :
    (∃ d, DeclarationAt t [] d) ↔ ∃ rest, declaration? t = some rest := by
  constructor
  · rintro ⟨d, ⟨rest, rfl⟩, -, hd⟩
    obtain ⟨after, hafter, -⟩ := exists_of_isDeclaration hd rest
    exact ⟨after, hafter⟩
  · rintro ⟨rest, hrest⟩
    obtain ⟨d, rfl, hd⟩ := exists_isDeclaration hrest
    exact ⟨d, ⟨rest, rfl⟩, .inl rfl, hd⟩

/-- No later line begins with `import` and a space exactly if the search after the first line finds
none. -/
theorem forall_importLineAt_iff :
    (∀ front, ImportLineAt t front → front = []) ↔ lastImportLine? false t = none := by
  constructor
  · intro h
    by_contra hne
    obtain ⟨line, hline⟩ := Option.ne_none_iff_exists'.mp hne
    obtain ⟨⟨⟨front, rfl, hfront, hb⟩, himport⟩, -⟩ := (lastImportLine?_spec false t).1 line hline
    simpa using hb (h front ⟨(List.prefix_append_right_inj front).mpr himport, hfront⟩)
  · rintro h front ⟨⟨rest, ht⟩, hfront⟩
    by_contra hne
    rw [List.append_assoc] at ht
    exact (lastImportLine?_spec false t).2 h _
      ⟨front, ht.symm, hfront, fun hnil => absurd hnil hne⟩ (List.prefix_append _ rest)

theorem lastImportFirst_iff :
    LastImportFirst t ↔ afterLastDeclaration? false t = none ∧
      ((∃ rest, declaration? t = some rest) ∨
        "import ".toList <+: t ∧ lastImportLine? false t = none) := by
  have hline : ImportLineAt t [] ↔ "import ".toList <+: t := by simp [ImportLineAt, EndsLine]
  rw [LastImportFirst, forall_declarationAt_iff, exists_declarationAt_iff, forall_importLineAt_iff,
    hline]

/-- A declaration begins the text or a later line. -/
theorem Declares.cases {rest : Text} (h : Declares true t rest) :
    declaration? t = some rest ∨ Declares false t rest := by
  obtain ⟨u, hu, hrest⟩ := h
  rcases hu.cases with rfl | hline
  · exact .inl hrest
  · exact .inr ⟨u, beginsLine_false_iff.mpr hline, hrest⟩

/-- Of the declarations of a text, the one that ends last of those on later lines ends last. -/
theorem afterLastDeclaration?_of_later {rest : Text}
    (h : afterLastDeclaration? false t = some rest) :
    afterLastDeclaration? true t = some rest := by
  obtain ⟨hlater, hleast⟩ := (afterLastDeclaration?_spec false t).1 rest h
  have hdeclares : Declares true t rest := hlater.of_suffix List.suffix_rfl
  cases hfound : afterLastDeclaration? true t with
  | none => exact absurd hdeclares ((afterLastDeclaration?_spec true t).2 hfound rest)
  | some last =>
    obtain ⟨hlast, hleast'⟩ := (afterLastDeclaration?_spec true t).1 last hfound
    have hsuffix : rest <:+ last := by
      rcases hlast.cases with hfront | hlast
      · -- A later declaration ends where the one at the front does, or after it.
        rcases hlater.after hfront with rfl | hafter
        · exact List.suffix_rfl
        · exact hafter.suffix
      · exact hleast last hlast
    rw [hsuffix.eq_of_length_le (hleast' rest hdeclares).length_le]

/-- Without a declaration on a later line, the one at the front of the text is the last. -/
theorem afterLastDeclaration?_of_first (h : afterLastDeclaration? false t = none) :
    afterLastDeclaration? true t = declaration? t := by
  have hlater := (afterLastDeclaration?_spec false t).2 h
  cases hfound : afterLastDeclaration? true t with
  | none =>
    symm
    by_contra hne
    obtain ⟨rest, hrest⟩ := Option.ne_none_iff_exists'.mp hne
    exact (afterLastDeclaration?_spec true t).2 hfound rest
      ⟨t, ⟨[], rfl, .inl rfl, fun _ => rfl⟩, hrest⟩
  | some rest =>
    rcases ((afterLastDeclaration?_spec true t).1 rest hfound).1.cases with hrest | hrest
    · exact hrest.symm
    · exact absurd hrest (hlater rest)

/-- Of the lines that begin with `import` and a space, the last of the later ones is the last; if
there is none, the first line of the text may be. -/
theorem lastImportLine?_true (t : Text) :
    lastImportLine? true t =
      (lastImportLine? false t).or (if "import ".toList <+: t then some t else none) := by
  cases t with
  | nil => rfl
  | cons c tail =>
    simp only [lastImportLine?]
    generalize "import ".toList = word
    simp [Option.orElse_eq_or, List.isPrefixOf_iff_prefix]

/-- The last import stands on a later line, and then it is the last of the later lines, or it begins
the text. In this case the search after the first line finds nothing, or it finds a line that begins
with `import` and a space behind the declaration that begins the text. -/
theorem lastImport?_cases (t : Text) :
    (¬LastImportFirst t ∧ lastImport? false t = lastImport? true t) ∨
    (LastImportFirst t ∧ ∃ rest, lastImport? true t = some rest ∧
      ∀ line, lastImport? false t = some line →
        ∃ w, rest = w ++ '\n' :: line ∧ "import ".toList <+: line) := by
  rw [lastImportFirst_iff]
  unfold lastImport?
  cases hlater : afterLastDeclaration? false t with
  | some rest => simp [afterLastDeclaration?_of_later hlater]
  | none =>
    rw [afterLastDeclaration?_of_first hlater]
    cases hfirst : declaration? t with
    | some rest =>
      refine .inr ⟨⟨rfl, .inl ⟨rest, rfl⟩⟩, rest, rfl, fun line hline => ?_⟩
      obtain ⟨⟨hbegins, himport⟩, -⟩ := (lastImportLine?_spec false t).1 line hline
      obtain ⟨w, hw⟩ := beginsLine_false_iff.mp hbegins
      -- If the line began within the declaration, it would be one as well, on a later line.
      rcases declaration?_of_importLine hfirst hw himport with ⟨w', hw'⟩ | hsame
      · exact ⟨w', hw', himport⟩
      · exact absurd ⟨line, hbegins, hsame⟩ ((afterLastDeclaration?_spec false t).2 hlater rest)
    | none =>
      cases hline : lastImportLine? false t with
      | some line =>
        refine .inl ⟨?_, by rw [lastImportLine?_true, hline, Option.some_or]⟩
        rintro ⟨-, ⟨rest, hrest⟩ | ⟨-, hnone⟩⟩ <;> contradiction
      | none =>
        simp only [lastImportLine?_true, hline, Option.none_or]
        by_cases himport : "import ".toList <+: t
        · rw [if_pos himport]
          exact .inr ⟨⟨trivial, .inr ⟨himport, trivial⟩⟩, t, rfl, nofun⟩
        · rw [if_neg himport]
          refine .inl ⟨?_, rfl⟩
          rintro ⟨-, ⟨rest, hrest⟩ | ⟨h, -⟩⟩
          · contradiction
          · exact himport h

/-! ## The anchor of a marked text -/

/-- No word that begins with an `i` stands at the front of a marked text. -/
theorem not_prefix_mark {word : Text} (hword : word.head? = some 'i') (t : Text) :
    ¬word <+: byteOrderMark :: t := by
  rintro ⟨v, hv⟩
  have hhead := congrArg List.head? hv
  rw [List.head?_append, hword, Option.some_or, List.head?_cons] at hhead
  exact absurd (Option.some.inj hhead) (by decide)

/-- In a marked text the searches find what they find in the text after its first line. -/
theorem lastImport?_mark (t : Text) :
    lastImport? true (byteOrderMark :: t) = lastImport? false t := by
  have hmark : (byteOrderMark == '\n') = false := by decide
  have hdeclaration : afterLastDeclaration? true (byteOrderMark :: t) =
      afterLastDeclaration? false t := by
    rw [afterLastDeclaration?]
    split
    · rw [hmark]
    · rename_i rest hrest
      obtain ⟨afterWord, -, hword, -⟩ := declaration?_eq_some.mp hrest
      exact absurd ⟨afterWord, (Call.eq_append_of_isPrefixOf? hword).symm⟩
        (not_prefix_mark (by decide) t)
  have hline : lastImportLine? true (byteOrderMark :: t) = lastImportLine? false t := by
    rw [lastImportLine?_true, if_neg (not_prefix_mark (by decide) t), Option.or_none,
      lastImportLine?, hmark, Bool.false_and, if_neg (by decide), Option.orElse_eq_orElse,
      Option.orElse_eq_or, Option.or_none]
  rw [lastImport?, lastImport?, hdeclaration, hline]

theorem anchor?_eq_none (h : lastImport? true t = none) : anchor? t = none := by
  have htail : anchorTail? t = none := Option.map_eq_none_iff.mpr h
  rw [anchor?, htail, Option.map_none]

/-- If the last import does not begin the text, then a marked text has the anchor of the text. -/
theorem anchor?_mark (h : lastImport? false t = lastImport? true t) :
    anchor? (byteOrderMark :: t) =
      (anchor? t).map fun (head, tail) => (byteOrderMark :: head, tail) := by
  have hmark := (lastImport?_mark t).trans h
  cases hlast : lastImport? true t with
  | none =>
    rw [anchor?_eq_none hlast, anchor?_eq_none (hmark.trans hlast), Option.map_none]
  | some line =>
    obtain ⟨front, rfl⟩ := lastImport_suffix hlast
    have hmarked : lastImport? true (byteOrderMark :: front ++ line) = some line :=
      hmark.trans hlast
    rw [anchor?_of_lastImport hlast, Option.map_some]
    exact anchor?_of_lastImport hmarked

/-- Then a line is inserted where it is inserted into the text. -/
theorem insert?_mark (h : lastImport? false t = lastImport? true t) (line : Text) :
    insert? (byteOrderMark :: t) line = (insert? t line).map (byteOrderMark :: ·) := by
  rw [insert?, insert?, anchor?_mark h, Option.map_map, Option.map_map]
  congr 1
  funext ⟨head, tail⟩
  rcases List.eq_nil_or_concat' head with rfl | ⟨front, c, rfl⟩
  · rfl
  · have hlast : (byteOrderMark :: (front ++ [c])).getLast? = some c := by
      rw [← List.cons_append, List.getLast?_concat]
    have hinit : (byteOrderMark :: (front ++ [c])).dropLast = byteOrderMark :: front := by
      rw [← List.cons_append, List.dropLast_concat]
    simp only [Function.comp_apply, hlast, hinit, List.getLast?_concat, List.dropLast_concat]
    split <;> rfl

/-- The first line of a text does not reach beyond a line feed. -/
theorem takeWhile_line_isPrefix (w rest : Text) :
    (w ++ '\n' :: rest).takeWhile (· != '\n') <+: w := by
  induction w with
  | nil => simp
  | cons c w ih =>
    rw [List.cons_append, List.takeWhile_cons]
    split
    · exact List.cons_prefix_cons.mpr ⟨rfl, ih⟩
    · exact List.nil_prefix

/-- If the last import begins the text, then the anchor of a marked text is behind another import, if
there is one, so that more letters `i` stand before it. -/
theorem exists_anchor?_of_first (h : LastImportFirst t) :
    ∃ head tail, anchor? t = some (head, tail) ∧
      ∀ head' tail', anchor? (byteOrderMark :: t) = some (head', tail') →
        head.count 'i' < head'.count 'i' := by
  rcases lastImport?_cases t with ⟨hnot, -⟩ | ⟨-, rest, hrest, hlater⟩
  · exact absurd h hnot
  obtain ⟨front, rfl⟩ := lastImport_suffix hrest
  refine ⟨_, _, anchor?_of_lastImport hrest, fun head' tail' hanchor => ?_⟩
  cases hlast : lastImport? true (byteOrderMark :: (front ++ rest)) with
  | none => simp [anchor?_eq_none hlast] at hanchor
  | some line =>
    obtain ⟨w, rfl, himport⟩ := hlater line ((lastImport?_mark _).symm.trans hlast)
    have hsplit : byteOrderMark :: (front ++ (w ++ '\n' :: line)) =
        byteOrderMark :: front ++ w ++ ['\n'] ++ line := by
      simp
    rw [hsplit] at hlast hanchor
    rw [anchor?_of_lastImport hlast, Option.some.injEq, Prod.mk.injEq] at hanchor
    obtain ⟨rfl, -⟩ := hanchor
    -- The later line is another one and has the `i` of its word.
    have hbefore : ((w ++ '\n' :: line).takeWhile (· != '\n')).count 'i' ≤ w.count 'i' :=
      (takeWhile_line_isPrefix w line).sublist.count_le 'i'
    have hword : 0 < (line.takeWhile (· != '\n')).count 'i' := by
      obtain ⟨v, rfl⟩ := himport
      have hopen : ∀ c ∈ "import ".toList, (c != '\n') = true := List.all_eq_true.mp (by decide)
      rw [List.takeWhile_append_of_pos hopen, List.count_pos_iff]
      exact List.mem_append_left _ (by decide)
    calc (front ++ (w ++ '\n' :: line).takeWhile (· != '\n')).count 'i'
        ≤ front.count 'i' + w.count 'i' := by rw [List.count_append]; omega
      _ ≤ (byteOrderMark :: front ++ w ++ ['\n']).count 'i' := by
        simp only [List.cons_append, List.count_append, List.count_cons]
        omega
      _ < (byteOrderMark :: front ++ w ++ ['\n'] ++ line.takeWhile (· != '\n')).count 'i' :=
        (Nat.lt_add_of_pos_right hword).trans_eq List.count_append.symm

end Import

/-! ## Sanitising a marked text -/

/-- In two readings of a text a line that is longer than what stands before it begins at one place.
-/
theorem eq_of_run {a a' b b' : Text} (hline : '\n' ∉ line) (ha : a.length ≤ line.length)
    (ha' : a'.length ≤ line.length)
    (h : a ++ '\n' :: (line ++ b) = a' ++ '\n' :: (line ++ b')) : a = a' := by
  wlog hle : a.length ≤ a'.length generalizing a a' b b'
  · exact (this ha' ha h.symm (by omega)).symm
  rcases List.append_eq_append_iff.mp h with ⟨z, rfl, hz⟩ | ⟨z, rfl, -⟩
  · cases z with
    | nil => simp
    | cons c z =>
      rw [List.cons_append, List.cons.injEq] at hz
      obtain ⟨w, rfl, -⟩ := exists_line_after hline hz.2
      simp only [List.length_append, List.length_cons] at ha'
      omega
  · rw [List.length_append] at hle
    simp [List.length_eq_zero_iff.mp (by omega : z.length = 0)]

/-- A line goes after the anchor, behind a line feed. -/
theorem exists_insert? (h : anchor? t = some (head, tail)) (line : Text) :
    ∃ back, insert? t line = some (head ++ ['\n'] ++ line ++ back) ∧
      (back = [] ∨ ∃ c rest, back = c :: rest ∧ Text.isLineEnd c = true) := by
  obtain ⟨out, hout⟩ : ∃ out, insert? t line = some out := by
    rw [insert?, h]
    exact ⟨_, rfl⟩
  obtain ⟨head', tail', hanchor, hcases⟩ := insert?_spec hout
  rw [h, Option.some.injEq, Prod.mk.injEq] at hanchor
  obtain ⟨rfl, rfl⟩ := hanchor
  rcases hcases with ⟨-, rfl⟩ | ⟨front, rfl, rfl⟩
  · refine ⟨tail, hout, ?_⟩
    rcases (anchor?_spec h).2 with rfl | ⟨rest, rfl⟩
    · exact .inl rfl
    · exact .inr ⟨'\n', rest, rfl, by decide⟩
  · exact ⟨'\r' :: tail, by simpa using hout, .inr ⟨'\r', tail, rfl, by decide⟩⟩

/-- A line of one letter that no call has. -/
theorem inert_replicate {n : Nat} (hn : n ≠ 0) : Inert (List.replicate n 'x') := by
  obtain ⟨n, rfl⟩ := Nat.exists_eq_succ_of_ne_zero hn
  have henclosed : Enclosed (List.replicate (n + 1) 'x') :=
    ⟨⟨'x', _, List.replicate_succ, by decide⟩, ⟨_, 'x', List.replicate_succ', by decide⟩⟩
  exact ⟨henclosed, by simp [List.mem_replicate]⟩

/-- A text with an inserted line is sanitised to the line after the sanitised text up to the anchor.
-/
theorem exists_replaceAll_insert? (h : anchor? t = some (head, tail)) (hline : Inert line) :
    ∃ out back, insert? t line = some out ∧
      Call.replaceAll out = Call.replaceFrom [] head ++ '\n' :: (line ++ back) := by
  obtain ⟨back, hinsert, hback⟩ := exists_insert? h line
  refine ⟨_, Call.replaceFrom head.reverse back, hinsert, ?_⟩
  rw [Call.replaceAll, pieces_line hline.toEnclosed (.inl rfl) hback, hline.pieces_eq]
  simp [Call.replaceFrom, List.flatMap_map, Call.Piece.safe]

/-- With a byte order mark in front a text mentions what it mentions without. -/
theorem mentions_mark {moduleName : Text} (h : byteOrderMark ∉ moduleName) (t : Text) :
    Text.mentions moduleName (byteOrderMark :: t) = Text.mentions moduleName t := by
  rw [Bool.eq_iff_iff, Text.mentions_iff, Text.mentions_iff, List.infix_cons_iff,
    or_iff_right_iff_imp]
  rintro ⟨v, hv⟩
  cases moduleName with
  | nil => exact List.nil_infix
  | cons c moduleName =>
    obtain ⟨rfl, -⟩ := List.cons.inj hv
    exact absurd List.mem_cons_self h

/-- If the last import begins a text that does not mention the module, then there is a declaration
with which a marked text is not treated as the text. -/
theorem exists_declaration_of_first {ε : Type} {moduleName : Text}
    (hname : byteOrderMark ∉ moduleName) (habsent : Text.mentions moduleName t = false)
    (h : LastImportFirst t) :
    ∃ declaration : Except ε Text, sanitize moduleName (byteOrderMark :: t) declaration ≠
      (sanitize moduleName t declaration).map Sanitized.marked := by
  have habsent' := (mentions_mark hname t).trans habsent
  obtain ⟨head, tail, hanchor, hlater⟩ := exists_anchor?_of_first h
  cases hmarked : anchor? (byteOrderMark :: t) with
  | none =>
    obtain ⟨back, hinsert, -⟩ := exists_insert? hanchor []
    refine ⟨.ok [], fun hsame => ?_⟩
    have hnone : insert? (byteOrderMark :: t) [] = none := by rw [insert?, hmarked, Option.map_none]
    rw [sanitize_unanchored habsent' hnone, sanitize_inserted habsent hinsert] at hsame
    simpa [Sanitized.of, Sanitized.marked] using congrArg Sanitized.status (Except.ok.inj hsame)
  | some anchor =>
    obtain ⟨head', tail'⟩ := anchor
    -- The line is longer than what comes before it, so it shows where it was put.
    let n := (Call.replaceFrom [] head).length + (Call.replaceFrom [] head').length + 1
    have hinert : Inert (List.replicate n 'x') := inert_replicate (Nat.succ_ne_zero _)
    obtain ⟨out, back, hinsert, hout⟩ := exists_replaceAll_insert? hanchor hinert
    obtain ⟨out', back', hinsert', hout'⟩ := exists_replaceAll_insert? hmarked hinert
    refine ⟨.ok (List.replicate n 'x'), fun hsame => ?_⟩
    rw [sanitize_inserted habsent' hinsert', sanitize_inserted habsent hinsert] at hsame
    have htext : Call.replaceAll out' = byteOrderMark :: Call.replaceAll out :=
      congrArg Sanitized.text (Except.ok.inj hsame)
    rw [hout, hout', ← List.cons_append] at htext
    have hlength : (byteOrderMark :: Call.replaceFrom [] head).length ≤
        (List.replicate n 'x').length := by
      rw [List.length_replicate, List.length_cons]
      omega
    have hlength' : (Call.replaceFrom [] head').length ≤ (List.replicate n 'x').length := by
      rw [List.length_replicate]
      omega
    have hheads : Call.replaceFrom [] head' = byteOrderMark :: Call.replaceFrom [] head :=
      eq_of_run (by simp [List.mem_replicate]) hlength' hlength htext
    have hkept (u : Text) : (Call.replaceFrom [] u).count 'i' = u.count 'i' :=
      Call.count_replaceFrom (by decide) (fun method => by cases method <;> decide) [] u
    have hcount := congrArg (List.count 'i') hheads
    rw [List.count_cons_of_ne (by decide), hkept, hkept] at hcount
    exact (hlater head' tail' hmarked).ne' hcount

/-- A text is sanitised alike with a byte order mark in front and without, whatever the declaration,
exactly if the text mentions the module or its last import does not begin it. -/
theorem sanitize_mark_iff {ε : Type} {moduleName : Text} (hname : byteOrderMark ∉ moduleName)
    (t : Text) :
    (∀ declaration : Except ε Text, sanitize moduleName (byteOrderMark :: t) declaration =
      (sanitize moduleName t declaration).map Sanitized.marked) ↔
    Text.mentions moduleName t = true ∨ ¬LastImportFirst t := by
  constructor
  · intro h
    by_contra hneither
    rw [not_or, not_not, Bool.not_eq_true] at hneither
    obtain ⟨declaration, hne⟩ := exists_declaration_of_first (ε := ε) hname hneither.1 hneither.2
    exact hne (h declaration)
  · intro h declaration
    cases hmention : Text.mentions moduleName t with
    | true =>
      rw [sanitize_present hmention, sanitize_present ((mentions_mark hname t).trans hmention),
        Sanitized.of_mark]
      rfl
    | false =>
      have hsame : lastImport? false t = lastImport? true t := by
        rcases lastImport?_cases t with ⟨-, hsame⟩ | ⟨hfirst, -⟩
        · exact hsame
        · simp [hmention, hfirst] at h
      have hmention' := (mentions_mark hname t).trans hmention
      cases declaration with
      | error e =>
        rw [sanitize_error hmention, sanitize_error hmention']
        rfl
      | ok line =>
        have hinsert' := insert?_mark hsame line
        cases hinsert : insert? t line with
        | none =>
          rw [hinsert, Option.map_none] at hinsert'
          rw [sanitize_unanchored hmention hinsert, sanitize_unanchored hmention' hinsert',
            Sanitized.of_mark]
          rfl
        | some out =>
          rw [hinsert, Option.map_some] at hinsert'
          rw [sanitize_inserted hmention hinsert, sanitize_inserted hmention' hinsert',
            Sanitized.of_mark]
          rfl

/-- A text with a second import is sanitised alike with a byte order mark. -/
theorem sanitize_mark_iff_of_second_import :
    byteOrderMark ∉ "securityUtils".toList ∧
    sanitize "securityUtils".toList
        (byteOrderMark :: "import a from 'a';\nimport b from 'b';\nconsole.log(1);\n".toList)
        (.ok (declarationText "./utils".toList) : Except Empty Text) =
      (sanitize "securityUtils".toList
        "import a from 'a';\nimport b from 'b';\nconsole.log(1);\n".toList
        (.ok (declarationText "./utils".toList) : Except Empty Text)).map Sanitized.marked := by
  have hname : byteOrderMark ∉ "securityUtils".toList := by decide
  have hlater : afterLastDeclaration? false
      "import a from 'a';\nimport b from 'b';\nconsole.log(1);\n".toList ≠ none := by
    decide +kernel
  have hlast : ¬LastImportFirst
      "import a from 'a';\nimport b from 'b';\nconsole.log(1);\n".toList :=
    fun hfirst => hlater (lastImportFirst_iff.mp hfirst).1
  exact ⟨hname, (sanitize_mark_iff hname _).mpr (.inr hlast) _⟩

/-- With a byte order mark in front of its only import a text gets no import of the safe functions.
-/
theorem marked_text_unanchored :
    byteOrderMark ∉ "securityUtils".toList ∧
    sanitize "securityUtils".toList "import a from 'a';\nconsole.log(1);\n".toList
        (.ok (declarationText "./utils".toList) : Except Empty Text) =
      .ok ⟨"import a from 'a';\n".toList ++ declarationText "./utils".toList ++
        "\nsafeLog(1);\n".toList, 1, .inserted⟩ ∧
    sanitize "securityUtils".toList
        (byteOrderMark :: "import a from 'a';\nconsole.log(1);\n".toList)
        (.ok (declarationText "./utils".toList) : Except Empty Text) =
      .ok ⟨byteOrderMark :: "import a from 'a';\nsafeLog(1);\n".toList, 1, .unanchored⟩ := by
  decide +kernel

end LogGuard
