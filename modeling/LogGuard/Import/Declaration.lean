import LogGuard.Call.Pattern

/-!
# Import declarations

`Import.declaration?` recognises an import declaration at the front of a text and returns the text
after it. A declaration is the word `import`, an optional clause that ends with the word `from`, a
quoted module specifier without a line break, and an optional semicolon after blanks. The clause may
span lines; it holds no semicolon, quote or parenthesis, so the first of these after `import` opens
the specifier.
-/

namespace LogGuard.Import

open Unicode

/-- A quote around a module specifier. Any of the two closes what any of the two has opened. -/
def isQuote (c : Char) : Bool :=
  c == '\'' || c == '"'

/-- A character that ends the clause between `import` and the specifier. -/
def endsClause (c : Char) : Bool :=
  c == ';' || c == '(' || c == ')' || isQuote c

/-- A blank on the same line. -/
def isBlank (c : Char) : Bool :=
  c == ' ' || c == '\t'

/-- Whether a text begins with a character that continues a word. -/
def startsInWord : Text → Bool
  | [] => false
  | c :: _ => isWord c

/-- Whether a clause ends with `from` as a word of its own, but for white space. -/
def endsWithFrom (clause : Text) : Bool :=
  match clause.reverse.dropWhile isWhiteSpace with
  | 'm' :: 'o' :: 'r' :: 'f' :: c :: _ => !isWord c
  | _ => false

/-- Whether the text between `import` and the specifier is blank or a clause that ends with `from`.
-/
def isClause (clause : Text) : Bool :=
  clause.all isWhiteSpace || endsWithFrom clause

/-- The text after a quoted specifier, which is not empty and stays on its line. -/
def specifier? : Text → Option Text
  | [] => none
  | c :: t =>
    let inside := fun d => !isQuote d && d != '\n'
    if isQuote c && !(t.takeWhile inside).isEmpty then
      match t.dropWhile inside with
      | d :: rest => if isQuote d then some rest else none
      | [] => none
    else none

/-- Drops blanks and then a semicolon, if there is one. -/
def dropTerminator (t : Text) : Text :=
  match t.dropWhile isBlank with
  | ';' :: rest => rest
  | rest => rest

/-- The text after the import declaration at the front of a text. -/
def declaration? (t : Text) : Option Text := do
  let afterWord ← "import".toList.isPrefixOf? t
  guard (!startsInWord afterWord)
  let inClause := fun c => !endsClause c
  guard (isClause (afterWord.takeWhile inClause))
  let rest ← specifier? (afterWord.dropWhile inClause)
  some (dropTerminator rest)

/-- What follows a specifier is shorter than the text that begins with it. -/
theorem length_lt_of_specifier? {t rest : Text} (h : specifier? t = some rest) :
    rest.length < t.length := by
  cases t with
  | nil => simp [specifier?] at h
  | cons c t =>
    simp only [specifier?] at h
    split at h
    · split at h
      · rename_i d r hd
        have hle := (List.dropWhile_suffix (l := t) fun d => !isQuote d && d != '\n').length_le
        rw [hd] at hle
        split at h
        · simp only [Option.some.injEq] at h
          subst h
          simp only [List.length_cons] at hle ⊢
          omega
        · simp at h
      · simp at h
    · simp at h

/-- Dropping a terminator makes no text longer. -/
theorem length_dropTerminator_le (t : Text) : (dropTerminator t).length ≤ t.length := by
  have hle := (List.dropWhile_suffix (l := t) isBlank).length_le
  simp only [dropTerminator]
  split
  · rename_i h
    rw [h] at hle
    simp only [List.length_cons] at hle
    omega
  · exact hle

/-- What follows a declaration follows its specifier and a terminator. -/
theorem exists_of_declaration? {t rest : Text} (h : declaration? t = some rest) :
    ∃ afterWord r, "import".toList.isPrefixOf? t = some afterWord ∧
      specifier? (afterWord.dropWhile fun c => !endsClause c) = some r ∧
      dropTerminator r = rest := by
  unfold declaration? at h
  obtain ⟨afterWord, hword, h⟩ := Option.bind_eq_some_iff.mp h
  obtain ⟨_, -, h⟩ := Option.bind_eq_some_iff.mp h
  obtain ⟨_, -, h⟩ := Option.bind_eq_some_iff.mp h
  obtain ⟨r, hspecifier, h⟩ := Option.bind_eq_some_iff.mp h
  exact ⟨afterWord, r, hword, hspecifier, Option.some.inj h⟩

/-- What follows a declaration is shorter than the text that begins with it. -/
theorem length_lt_of_declaration? {t rest : Text} (h : declaration? t = some rest) :
    rest.length < t.length := by
  obtain ⟨afterWord, r, h1, h2, h3⟩ := exists_of_declaration? h
  have e1 := congrArg List.length (Call.eq_append_of_isPrefixOf? h1)
  have e2 := length_lt_of_specifier? h2
  have e3 := length_dropTerminator_le r
  have e4 := (List.dropWhile_suffix (l := afterWord) fun c => !endsClause c).length_le
  rw [h3] at e3
  simp only [List.length_append] at e1
  omega

end LogGuard.Import
