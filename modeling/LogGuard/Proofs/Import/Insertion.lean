import LogGuard.Import.Specifier
import LogGuard.Proofs.Call.Straddling
import LogGuard.Proofs.Import.Anchor
import LogGuard.Proofs.Sanitize

/-!
# An inserted line and the calls around it

A line that is `Enclosed` begins and ends with characters that no call has, so no call runs into it
from the lines around it. If it is put before a line end or at the end of a text, it also leaves the
view of the text after it as it was. So the calls of the text with the line are its own and those of
the two parts of the original text, between which it is put (`pieces_between`). The latter are the
calls of the original text unless one of them straddles the place. If the line has no parenthesis
either, it is `Inert` and has no call of its own. An import declaration is inert
(`inert_declarationText`), and `calls_kept_iff` says what its insertion does to the calls of a text.
-/

namespace LogGuard

/-- No call runs into the line from outside. -/
structure Enclosed (line : Text) : Prop where
  /-- The first character belongs to no call. -/
  first : ∃ c rest, line = c :: rest ∧ Call.isCallChar c = false
  /-- The last character belongs to no call. -/
  last : ∃ rest c, line = rest ++ [c] ∧ Call.isCallChar c = false

/-- An enclosed line that has no call of its own, for want of a parenthesis. -/
structure Inert (line : Text) : Prop extends Enclosed line where
  paren : '(' ∉ line

/-- The text `out` is `front ++ back` with `line` on a line of its own in between. -/
structure LineBetween (line front back out : Text) : Prop where
  /-- The line comes after a line end. -/
  newline : ∃ newline, (newline = ['\n'] ∨ newline = ['\r', '\n']) ∧
    out = front ++ newline ++ line ++ back
  /-- The line comes before a line end or at the end of the text. -/
  back : back = [] ∨ ∃ c rest, back = c :: rest ∧ Text.isLineEnd c = true

/-- No call runs into an import of the safe functions from outside. -/
theorem enclosed_declarationText (specifier : Text) :
    Enclosed (Import.declarationText specifier) := by
  unfold Import.declarationText
  generalize Import.safeNames = names
  constructor
  · exact ⟨'i', _, rfl, by decide⟩
  · exact ⟨"import \x7b ".toList ++ names ++ " \x7d from '".toList ++ specifier ++ ['\''], ';',
      by simp, by decide⟩

/-- The import of the safe functions from a module without a parenthesis in its specifier is inert.
-/
theorem inert_declarationText {specifier : Text} (h : '(' ∉ specifier) :
    Inert (Import.declarationText specifier) := by
  refine ⟨enclosed_declarationText specifier, ?_⟩
  have hnames : '(' ∉ Import.safeNames := by decide
  unfold Import.declarationText
  generalize Import.safeNames = names at hnames ⊢
  simp [hnames, h]

/-! ## The calls around an inserted line -/

open Call

/-- Whatever stands before a line end, the text from there on has the same calls. -/
theorem piecesFrom_lineEnd {c : Char} (hc : Text.isLineEnd c = true) (before before' t : Text) :
    piecesFrom before (c :: t) = piecesFrom before' (c :: t) := by
  have hnone : 'c' ∉ [c] := by
    simp only [List.mem_singleton]
    rintro rfl
    contradiction
  have hview : SameView ([c].reverse ++ before) ([c].reverse ++ before') :=
    sameView_cons (by simp [hc]) (by simp [hc]) before before'
  show piecesFrom before ([c] ++ t) = piecesFrom before' ([c] ++ t)
  rw [piecesFrom_append hnone, piecesFrom_append hnone, piecesFrom_congr hview]

variable {line front back out : Text}

/-- A line has the same calls after a line end as alone. -/
theorem piecesFrom_after_lineEnd {c : Char} (hc : Text.isLineEnd c = true) (before t : Text) :
    piecesFrom (c :: before) t = pieces t :=
  piecesFrom_congr (sameView_lineEnd hc before) t

/-- The calls of a text with a line between two parts are those of the line and of the parts. -/
theorem pieces_line {newline : Text} (hline : Enclosed line)
    (hnewline : newline = ['\n'] ∨ newline = ['\r', '\n'])
    (hback : back = [] ∨ ∃ c rest, back = c :: rest ∧ Text.isLineEnd c = true) :
    pieces (front ++ newline ++ line ++ back) =
      piecesFrom [] front ++ newline.map .plain ++ pieces line ++
        piecesFrom front.reverse back := by
  obtain ⟨first, rest, hfirst, hfirst'⟩ := hline.first
  obtain ⟨init, last, hlast, hlast'⟩ := hline.last
  have hnone : '(' ∉ newline ∧ 'c' ∉ newline := by
    rcases hnewline with rfl | rfl <;> decide
  obtain ⟨before, hreverse⟩ : ∃ before, newline.reverse ++ (front.reverse ++ []) =
      '\n' :: before := by
    rcases hnewline with rfl | rfl <;> exact ⟨_, rfl⟩
  have hbefore : ¬Straddles [] front (newline ++ line ++ back) := by
    rw [hfirst, List.append_assoc]
    exact not_straddles_append hnone.1 hfirst' [] front (rest ++ back)
  have hafter : ¬Straddles (front.reverse ++ []) (newline ++ line) back := by
    rw [hlast, ← List.append_assoc]
    exact not_straddles_concat hlast' _ _ _
  have hmiddle : piecesFrom (front.reverse ++ []) (newline ++ line) =
      newline.map .plain ++ pieces line := by
    rw [piecesFrom_append hnone.2, hreverse, piecesFrom_after_lineEnd (by decide)]
  -- The line end at the front of `back` hides from it that a line was inserted.
  have hend : piecesFrom ((newline ++ line).reverse ++ (front.reverse ++ [])) back =
      piecesFrom front.reverse back := by
    rcases hback with rfl | ⟨c, rest, rfl, hc⟩
    · rw [piecesFrom, piecesFrom]
    · exact piecesFrom_lineEnd hc _ _ _
  have hassoc : front ++ newline ++ line ++ back = front ++ (newline ++ line ++ back) := by simp
  rw [pieces, hassoc, piecesFrom_append_cut hbefore, piecesFrom_append_cut hafter, hmiddle, hend]
  simp only [List.append_assoc]

/-- The calls of a text with an inserted line are those of the line and of the parts around it. -/
theorem pieces_between (hline : Enclosed line) (h : LineBetween line front back out) :
    ∃ newline, (newline = ['\n'] ∨ newline = ['\r', '\n']) ∧
      pieces out = piecesFrom [] front ++ newline.map .plain ++ pieces line ++
        piecesFrom front.reverse back := by
  obtain ⟨⟨newline, hnewline, rfl⟩, hback⟩ := h
  exact ⟨newline, hnewline, pieces_line hline hnewline hback⟩

/-- Replacing the calls of a text with an inserted line replaces those of the line and of the two
parts around it. -/
theorem replaceAll_enclosed (hline : Enclosed line) (h : LineBetween line front back out) :
    LineBetween (replaceAll line) (replaceFrom [] front) (replaceFrom front.reverse back)
      (replaceAll out) := by
  obtain ⟨newline, hnewline, hpieces⟩ := pieces_between hline h
  constructor
  · refine ⟨newline, hnewline, ?_⟩
    rw [replaceAll, hpieces]
    simp [replaceAll, replaceFrom, List.flatMap_map, Piece.safe]
  · rcases h.back with rfl | ⟨c, rest, rfl, hc⟩
    · exact .inl (replaceFrom_nil _)
    · have hnone : ∀ m, ¬CallAt front.reverse (c :: rest) m := by
        rintro m ⟨hm, -⟩
        rw [match?_cons_of_ne (by rintro rfl; contradiction)] at hm
        contradiction
      exact .inr ⟨c, _, replaceFrom_plain hnone, hc⟩

/-- An inert line has no call. -/
theorem Inert.pieces_eq (hline : Inert line) : pieces line = line.map .plain :=
  piecesFrom_of_notMem (fun h => h.mem.1) hline.paren []

/-- A text with an inserted line has as many calls as the two parts around it. -/
theorem count_between (hline : Inert line) (h : LineBetween line front back out) :
    count out = countFrom [] front + countFrom front.reverse back := by
  obtain ⟨newline, -, hpieces⟩ := pieces_between hline.toEnclosed h
  rw [count, hpieces, hline.pieces_eq]
  simp only [List.countP_append, countP_map_plain, Nat.add_zero]
  rfl

/-- Replacing the calls of a text with an inserted line replaces those of the two parts. -/
theorem replaceAll_between (hline : Inert line) (h : LineBetween line front back out) :
    LineBetween line (replaceFrom [] front) (replaceFrom front.reverse back) (replaceAll out) := by
  have hkept := replaceAll_enclosed hline.toEnclosed h
  rwa [replaceAll_eq_self_of_pieces hline.pieces_eq] at hkept

/-! ## The place of an import -/

/-- A call straddles a carriage return or neither side of it: a call that goes on after white space
ends with a parenthesis. -/
theorem straddles_concat_cr {before front tail : Text} :
    Straddles before (front ++ ['\r']) tail ↔ Straddles before front ('\r' :: tail) := by
  constructor
  · rintro ⟨u, v, m, hhead, hv, hcall, hrest⟩
    have hspells := spells_of_match? hcall.1
    obtain ⟨token, htoken, -, -⟩ := hspells.head
    obtain ⟨x, d, rfl⟩ := (List.eq_nil_or_concat' v).resolve_left hv
    rw [← List.append_assoc] at hhead
    obtain ⟨rfl, hlast⟩ := List.append_inj' hhead rfl
    obtain rfl : '\r' = d := by simpa using hlast
    -- The carriage return is not the first character of the call, which is a `c`.
    refine ⟨u, x, m, rfl, ?_, by simpa using hcall, by simp; omega⟩
    rintro rfl
    have htext := hspells.text
    simp [htoken] at htext
  · rintro ⟨u, v, m, rfl, hv, hcall, hrest⟩
    have hspells := spells_of_match? hcall.1
    obtain ⟨w, hw, hdivided, htail⟩ := hspells.divided hrest
    obtain ⟨-, -, x, rfl⟩ := hspells.parts hdivided hv hw
    -- It is not the last one either, so the call goes on after it.
    refine ⟨u, v ++ ['\r'], m, by simp, by simp, by simpa using hcall, ?_⟩
    cases x with
    | nil => simp at htail
    | cons d x =>
      have hlength := congrArg List.length htail
      simp only [List.length_append, List.length_cons] at hlength
      omega

/-- The inserted line divides the text. A call straddles the place where it does if it straddles the
anchor. -/
theorem insert?_between {t : Text} (h : Import.insert? t line = some out) :
    ∃ head tail front back, Import.anchor? t = some (head, tail) ∧ t = front ++ back ∧
      LineBetween line front back out ∧ (Straddles [] front back ↔ Straddles [] head tail) := by
  obtain ⟨head, tail, hanchor, hout⟩ := Import.insert?_spec h
  obtain ⟨rfl, htail⟩ := Import.anchor?_spec hanchor
  rcases hout with ⟨-, rfl⟩ | ⟨front, rfl, rfl⟩
  · refine ⟨head, tail, head, tail, hanchor, rfl, ⟨⟨_, .inl rfl, rfl⟩, ?_⟩, Iff.rfl⟩
    rcases htail with rfl | ⟨rest, rfl⟩
    · exact .inl rfl
    · exact .inr ⟨'\n', rest, rfl, by decide⟩
  · exact ⟨_, tail, front, '\r' :: tail, hanchor, by simp,
      ⟨⟨_, .inr rfl, rfl⟩, .inr ⟨'\r', tail, rfl, by decide⟩⟩, straddles_concat_cr.symm⟩

/-- Where no call straddles the place, replacing the calls of the two parts replaces all. -/
theorem replaceFrom_append_cut {before : Text} (h : ¬Straddles before front back) :
    replaceFrom before (front ++ back) =
      replaceFrom before front ++ replaceFrom (front.reverse ++ before) back := by
  simp only [replaceFrom, piecesFrom_append_cut h, List.flatMap_append]

/-- The number of calls and the text are kept under an insertion that no call straddles. If nothing
is inserted, they are those of the original text. If the import is, then the calls are counted and
the text is as expected exactly if no call of the original text straddles the anchor; a call that
does is torn apart and neither counted nor replaced. -/
theorem calls_kept_iff {ε : Type} (moduleName specifier t : Text) (s : Sanitized)
    (hparen : '(' ∉ specifier)
    (h : sanitize moduleName t (.ok (Import.declarationText specifier) : Except ε Text) = .ok s) :
    (s.status ≠ .inserted → s.calls = Call.count t ∧ s.text = Call.replaceAll t) ∧
    (s.status = .inserted → ∃ head tail, Import.anchor? t = some (head, tail) ∧
      ((s.calls = Call.count t ∧ ∃ newline a b, (newline = ['\n'] ∨ newline = ['\r', '\n']) ∧
          s.text = a ++ newline ++ Import.declarationText specifier ++ b ∧
          a ++ b = Call.replaceAll t) ↔
        ¬Straddles [] head tail) ∧
      (Straddles [] head tail → s.calls + 1 = Call.count t)) := by
  have hline := inert_declarationText hparen
  rcases sanitize_eq_ok_iff.mp h with
    ⟨-, rfl⟩ | ⟨-, _, hdeclaration, ⟨extended, hinsert, rfl⟩ | ⟨-, rfl⟩⟩
  · exact ⟨fun _ => ⟨rfl, rfl⟩, fun hstatus => by simp [Sanitized.of] at hstatus⟩
  · obtain rfl := Except.ok.inj hdeclaration
    refine ⟨fun hstatus => absurd rfl hstatus, fun _ => ?_⟩
    obtain ⟨head, tail, front, back, hanchor, rfl, hbetween, hstraddles⟩ := insert?_between hinsert
    refine ⟨head, tail, hanchor, ?_⟩
    have hcount : (Sanitized.of extended .inserted).calls =
        countFrom [] front + countFrom front.reverse back := count_between hline hbetween
    rw [← hstraddles, hcount, count_eq]
    have hlost : Straddles [] front back →
        countFrom [] front + countFrom front.reverse back + 1 = countFrom [] (front ++ back) :=
      fun hs => by rw [countFrom_straddling hs, List.append_nil]
    refine ⟨⟨?_, fun hs => ⟨?_, ?_⟩⟩, hlost⟩
    · rintro ⟨hkept, -⟩ hs
      have := hlost hs
      omega
    · rw [countFrom_append_cut hs, List.append_nil]
    · obtain ⟨newline, hnewline, htext⟩ := (replaceAll_between hline hbetween).newline
      refine ⟨newline, _, _, hnewline, htext, ?_⟩
      rw [replaceAll_eq, replaceFrom_append_cut hs, List.append_nil]
  · exact ⟨fun _ => ⟨rfl, rfl⟩, fun hstatus => by simp [Sanitized.of] at hstatus⟩

/-- The call after an import that ends with a carriage return and a line feed is kept. -/
theorem calls_kept_iff_of_crlf :
    '(' ∉ "./utils".toList ∧
    ∃ s, sanitize "securityUtils".toList "import a from 'a';\r\nconsole.warn(a);".toList
        (.ok (Import.declarationText "./utils".toList) : Except Empty Text) = .ok s ∧
      s.calls = Call.count "import a from 'a';\r\nconsole.warn(a);".toList ∧
      ∃ newline a b, (newline = ['\n'] ∨ newline = ['\r', '\n']) ∧
        s.text = a ++ newline ++ Import.declarationText "./utils".toList ++ b ∧
        a ++ b = Call.replaceAll "import a from 'a';\r\nconsole.warn(a);".toList := by
  have hparen : '(' ∉ "./utils".toList := by decide
  have hsanitize : sanitize "securityUtils".toList "import a from 'a';\r\nconsole.warn(a);".toList
      (.ok (Import.declarationText "./utils".toList) : Except Empty Text) =
        .ok ⟨"import a from 'a';\r\n".toList ++ Import.declarationText "./utils".toList ++
          "\r\nsafeWarn(a);".toList, 1, .inserted⟩ := by
    decide +kernel
  have hanchor : Import.anchor? "import a from 'a';\r\nconsole.warn(a);".toList =
      some ("import a from 'a';\r".toList, "\nconsole.warn(a);".toList) := by
    decide +kernel
  obtain ⟨head, tail, hanchor', hkept, -⟩ := (calls_kept_iff _ _ _ _ hparen hsanitize).2 rfl
  rw [hanchor, Option.some.injEq, Prod.mk.injEq] at hanchor'
  obtain ⟨rfl, rfl⟩ := hanchor'
  have hcut : ¬Straddles [] ("import a from 'a';".toList ++ ['\r'])
      "\nconsole.warn(a);".toList := by
    rw [straddles_concat_cr]
    exact not_straddles_concat (c := ';') (by decide) [] "import a from 'a'".toList _
  exact ⟨hparen, _, hsanitize, hkept.mpr hcut⟩

/-- A call that goes on after the line of the last import is torn apart by the new one. -/
theorem torn_call :
    '(' ∉ "./utils".toList ∧
    sanitize "securityUtils".toList "import x from 'y'; console\n.log(1)".toList
        (.ok (Import.declarationText "./utils".toList) : Except Empty Text) =
      .ok ⟨"import x from 'y'; console\n".toList ++ Import.declarationText "./utils".toList ++
        "\n.log(1)".toList, 0, .inserted⟩ ∧
    Call.count "import x from 'y'; console\n.log(1)".toList = 1 := by
  decide +kernel

end LogGuard
