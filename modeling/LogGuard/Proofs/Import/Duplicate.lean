import LogGuard.Proofs.Import.InertLine

/-!
# No second import

An inserted import is one more line of the text (`count_lines_between`), and no line of a text that
does not mention the module is such an import. So there is one afterwards, and no run after that
inserts another one, as the line mentions the module. It is kept by all of them, whatever they
replace and whatever is edited between them, as long as the edits keep it (`Descends.count_lines`).
-/

namespace LogGuard

open Text (lines IsLine)

variable {line front back out t u moduleName specifier : Text}

/-- The texts that `t` becomes by being sanitised, whatever the declaration, and by edits that keep
the number of lines equal to `line`. -/
inductive Descends (moduleName line t : Text) : Text → Prop where
  /-- Nothing has been done to the text. -/
  | start : Descends moduleName line t t
  /-- The text was edited. -/
  | edited {u v} (h : Descends moduleName line t u)
    (hcount : (lines v).count line = (lines u).count line) : Descends moduleName line t v
  /-- The text was sanitised. -/
  | sanitized {u s} {ε : Type} {declaration : Except ε Text} (h : Descends moduleName line t u)
    (hs : sanitize moduleName u declaration = .ok s) : Descends moduleName line t s.text

/-- The import from a specifier without a line end is a line. -/
theorem isLine_declarationText (h : IsLine specifier) :
    IsLine (Import.declarationText specifier) := by
  have hnames : IsLine Import.safeNames := by decide
  have hfront : IsLine "import \x7b ".toList := by decide
  have hmiddle : IsLine " \x7d from '".toList := by decide
  have hback : IsLine "';".toList := by decide
  unfold Import.declarationText
  simp only [IsLine, List.forall_mem_append] at hnames hfront hmiddle hback h ⊢
  exact ⟨⟨⟨⟨hfront, hnames⟩, hmiddle⟩, h⟩, hback⟩

/-- An inserted line is one more line of the text. -/
theorem count_lines_between (hne : line ≠ []) (hline : IsLine line)
    (h : LineBetween line front back out) :
    (lines out).count line = (lines (front ++ back)).count line + 1 := by
  obtain ⟨⟨newline, hnewline, rfl⟩, hback⟩ := h
  have hfront : (lines (front ++ newline ++ line ++ back)).count line =
      (lines front).count line + (lines (line ++ back)).count line := by
    rcases hnewline with rfl | rfl
    · have hassoc : front ++ ['\n'] ++ line ++ back = front ++ '\n' :: (line ++ back) := by simp
      rw [hassoc, Text.lines_append_cons (by decide), List.count_append]
    · have hassoc : front ++ ['\r', '\n'] ++ line ++ back =
          front ++ '\r' :: ([] ++ '\n' :: (line ++ back)) := by simp
      -- The line between the carriage return and the line feed is empty.
      rw [hassoc, Text.lines_append_cons (by decide),
        Text.lines_line_cons Text.isLine_nil (by decide), List.count_append,
        List.count_cons_of_ne (Ne.symm hne)]
  rw [hfront]
  rcases hback with rfl | ⟨c, rest, rfl, hc⟩
  · rw [List.append_nil, List.append_nil, Text.lines_of_isLine hline, List.count_singleton_self]
  · rw [Text.lines_line_cons hline hc, Text.lines_append_cons hc, List.count_append,
      List.count_cons_self, Nat.add_assoc]

/-- A text mentions whatever a stretch of it mentions. -/
theorem mentions_of_stretch (hline : Text.mentions moduleName line = true) (h : line <:+: t) :
    Text.mentions moduleName t = true :=
  Text.mentions_iff.mpr ((Text.mentions_iff.mp hline).trans h)

/-- A text with the line in it is only rid of its calls. -/
theorem sanitize_of_stretch {ε : Type} {declaration : Except ε Text}
    (hline : Text.mentions moduleName line = true) (h : line <:+: t) :
    sanitize moduleName t declaration = .ok (.of t .present) :=
  sanitize_present (mentions_of_stretch hline h)

/-- If the line stands in a text once, then it does so after any number of runs and edits. -/
theorem Descends.count_lines (hinert : Inert line) (hline : Text.mentions moduleName line = true)
    (hcount : (lines t).count line = 1) (h : Descends moduleName line t u) :
    (lines u).count line = 1 := by
  induction h with
  | start => exact hcount
  | edited _ hkept ih => exact hkept.trans ih
  | @sanitized u s ε declaration _ hs ih =>
    have hmem : line ∈ lines u := List.count_pos_iff.mp (by omega)
    have hpresent := hs.symm.trans (sanitize_of_stretch hline (Text.infix_of_mem_lines hmem))
    obtain rfl := Except.ok.inj hpresent
    exact (count_lines_replaceAll hinert u).trans ih

/-- An import that is inserted stands on a line of its own, the only one that is equal to it, and
the text mentions the module. From then on nothing is inserted: in every text that still has the
line only the calls are replaced. However often the text is edited around the line and sanitised
again, the line stands there once. -/
theorem inserted_once {ε : Type} {s : Sanitized} (hparen : '(' ∉ specifier)
    (hspecifier : IsLine specifier) (hname : Text.mentions moduleName specifier = true)
    (h : sanitize moduleName t (.ok (Import.declarationText specifier) : Except ε Text) = .ok s)
    (hinserted : s.status = .inserted) :
    let line := Import.declarationText specifier
    (∃ front back, LineBetween line front back s.text) ∧ (lines s.text).count line = 1 ∧
      Text.mentions moduleName s.text = true ∧
      (∀ later, line <:+: later → ∀ (ε' : Type) (declaration : Except ε' Text),
        sanitize moduleName later declaration =
          .ok ⟨Call.replaceAll later, Call.count later, .present⟩) ∧
      ∀ later, Descends moduleName line s.text later → (lines later).count line = 1 := by
  intro line
  have hinert : Inert line := inert_declarationText hparen
  have hisLine : IsLine line := isLine_declarationText hspecifier
  have hmention : Text.mentions moduleName line = true :=
    mentions_of_stretch hname ⟨_, "';".toList, rfl⟩
  have hne : line ≠ [] := by
    obtain ⟨c, rest, hline, -⟩ := hinert.first
    rw [hline]
    exact List.cons_ne_nil c rest
  rcases sanitize_eq_ok_iff.mp h with
    ⟨-, rfl⟩ | ⟨hnone, _, hdeclaration, ⟨extended, hinsert, rfl⟩ | ⟨-, rfl⟩⟩
  · contradiction
  · obtain rfl := Except.ok.inj hdeclaration
    obtain ⟨-, -, front, back, -, rfl, hbetween, -⟩ := insert?_between hinsert
    -- The original text does not mention the module, so it has no such line.
    have hbefore : (lines (front ++ back)).count line = 0 := by
      refine List.count_eq_zero.mpr fun hmem => ?_
      rw [mentions_of_stretch hmention (Text.infix_of_mem_lines hmem)] at hnone
      contradiction
    have hcount : (lines (Call.replaceAll extended)).count line = 1 := by
      rw [count_lines_replaceAll hinert, count_lines_between hne hisLine hbetween, hbefore]
    have hmem : line ∈ lines (Call.replaceAll extended) := List.count_pos_iff.mp (by omega)
    exact ⟨⟨_, _, replaceAll_between hinert hbetween⟩, hcount,
      mentions_of_stretch hmention (Text.infix_of_mem_lines hmem),
      fun later hlater _ _ => sanitize_of_stretch hmention hlater,
      fun later hlater => hlater.count_lines hinert hmention hcount⟩
  · contradiction

/-- The import goes into a file with carriage returns, in which a call runs over two lines. Another
call is added later, and no other import. -/
theorem inserted_once_of_crlf :
    let module := "securityUtils".toList
    let specifier := "../utils/securityUtils".toList
    let line := Import.declarationText specifier
    let later := "import a from 'a';\r\n".toList ++ line ++
      "\r\nsafeLog (a);\r\nconsole.warn(2);".toList
    '(' ∉ specifier ∧ IsLine specifier ∧ Text.mentions module specifier = true ∧
      ∃ s, sanitize module "import a from 'a';\r\nconsole\r\n.log (a);".toList
          (.ok line : Except Empty Text) = .ok s ∧ s.status = .inserted ∧
        (lines s.text).count line = 1 ∧
        sanitize module later (.error () : Except Unit Text) =
          .ok ⟨"import a from 'a';\r\n".toList ++ line ++
            "\r\nsafeLog (a);\r\nsafeWarn(2);".toList, 1, .present⟩ := by
  intro module specifier line later
  have hparen : '(' ∉ specifier := by decide
  have hspecifier : IsLine specifier := by decide
  have hname : Text.mentions module specifier = true := by decide +kernel
  have hsanitize : sanitize module "import a from 'a';\r\nconsole\r\n.log (a);".toList
      (.ok line : Except Empty Text) =
        .ok ⟨"import a from 'a';\r\n".toList ++ line ++ "\r\nsafeLog (a);".toList, 1,
          .inserted⟩ := by
    decide +kernel
  have hlater : line <:+: later := ⟨_, _, rfl⟩
  obtain ⟨-, hcount, -, hpresent, -⟩ :=
    inserted_once hparen hspecifier hname hsanitize rfl
  refine ⟨hparen, hspecifier, hname, _, hsanitize, rfl, hcount, ?_⟩
  rw [hpresent later hlater Unit]
  decide +kernel

end LogGuard
