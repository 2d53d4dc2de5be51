import LogGuard.Proofs.Import.LastImport

/-!
# Imports between the braces of another one

An import may list what it imports between braces, on lines of their own. The anchor lies between
the braces exactly if the last import of the text lies in this import, before a line break between
the braces (`between_braces_iff`). That is not so if the list has no semicolon, quote or
parenthesis, for then the import is a declaration and ends after the braces. A comment in the list
may have them. Then the import is no declaration but a line that begins with `import` and a space,
and the anchor may be at the end of this line, right after the brace (`between_braces`).
-/

namespace LogGuard.Import

open Text (byteLength byteLength_append byteLength_cons byteLength_mono prefix_of_byteLength_le)

variable {t front head inner word rest members module : Text} {place offset : Nat}

/-- An import that lists its members between braces, up to the list. -/
def listOpening : Text :=
  "import".toList ++ [' ', '\x7b']

/-- An import that lists its members between braces, from the end of the list on. -/
def listClosing (module : Text) : Text :=
  ['\x7d', ' '] ++ "from".toList ++ [' ', '\''] ++ module ++ ['\'']

/-- The anchor of the text lies in the part `inner` that comes after `head`. -/
def AnchorWithin (t head inner : Text) : Prop :=
  ∃ offset ∈ anchorOffset? t, byteLength head ≤ offset ∧ offset ≤ byteLength (head ++ inner)

/-! ## Places on a line -/

namespace LineEndsAt

/-- A line ends before a line feed that comes after a place on it. -/
theorem le_of_lineFeed (h : LineEndsAt t place offset) (ht : t = head ++ '\n' :: rest)
    (hplace : place ≤ byteLength head) : offset ≤ byteLength head := by
  obtain ⟨before, line, after, rfl, rfl, rfl, hline, -⟩ := h
  obtain ⟨w, rfl⟩ := prefix_of_byteLength_le
    ((List.prefix_append before line).trans (List.prefix_append _ after))
    (ht ▸ List.prefix_append head _) hplace
  rw [List.append_assoc, List.append_assoc] at ht
  obtain ⟨w', rfl, -⟩ := exists_line_after hline (List.append_cancel_left ht)
  exact byteLength_mono ⟨w', by simp⟩

/-- A line goes on over text without a line feed. -/
theorem le_of_notMem (h : LineEndsAt t place offset) (ht : front ++ word <+: t)
    (hword : '\n' ∉ word) (hplace : byteLength front ≤ place) :
    byteLength (front ++ word) ≤ offset := by
  obtain ⟨before, line, after, rfl, rfl, rfl, -, hafter⟩ := h
  by_contra hlt
  have hline := List.prefix_append (before ++ line) after
  obtain ⟨w, rfl⟩ := prefix_of_byteLength_le ((List.prefix_append front word).trans ht)
    ((List.prefix_append before line).trans hline) hplace
  -- If the line ended earlier, then it did with a line feed of `word`.
  obtain ⟨x, hx⟩ := prefix_of_byteLength_le hline ht (by omega)
  obtain ⟨y, hy⟩ := ht
  rw [← hx, List.append_assoc (front ++ w ++ line), List.append_cancel_left_eq] at hy
  rw [List.append_assoc, List.append_assoc, List.append_cancel_left_eq] at hx
  cases x with
  | nil => exact hlt (by rw [← hx]; simp)
  | cons c x =>
    rcases hafter with rfl | ⟨_, rfl⟩
    · simp at hy
    · obtain ⟨rfl, -⟩ := List.cons.inj hy
      exact hword (by simp [← hx])

/-- A line that ends after the beginning of another one begins there or later. -/
theorem le_of_endsLine (h : LineEndsAt t place offset) (ht : front <+: t)
    (hfront : EndsLine front) (hoffset : byteLength front ≤ offset) :
    byteLength front ≤ place := by
  obtain ⟨before, line, after, rfl, rfl, rfl, hline, -⟩ := h
  by_contra hlt
  have hends := List.prefix_append (before ++ line) after
  obtain ⟨x, rfl⟩ := prefix_of_byteLength_le ((List.prefix_append before line).trans hends) ht
    (by omega)
  obtain ⟨y, hy⟩ := prefix_of_byteLength_le ht hends hoffset
  rw [List.append_assoc, List.append_cancel_left_eq] at hy
  rcases List.eq_nil_or_concat' x with rfl | ⟨x, c, rfl⟩
  · simp at hlt
  · rcases hfront with hnil | ⟨w, hw⟩
    · simp at hnil
    · rw [← List.append_assoc] at hw
      obtain rfl : c = '\n' := by simpa using (List.append_inj' hw rfl).2
      exact hline (by simp [← hy])

/-- A line that ends in a part of the text ends with a line feed of it, if that part goes before
another character. -/
theorem exists_lineFeed (h : LineEndsAt t place offset) {c : Char}
    (ht : t = head ++ inner ++ c :: rest) (hc : c ≠ '\n') (hhead : byteLength head ≤ offset)
    (hinner : offset ≤ byteLength (head ++ inner)) :
    ∃ begun last, inner = begun ++ '\n' :: last ∧ offset = byteLength (head ++ begun) := by
  obtain ⟨before, line, after, rfl, rfl, rfl, -, hafter⟩ := h
  have hends := List.prefix_append (before ++ line) after
  have hpart : head ++ inner <+: before ++ line ++ after := ⟨c :: rest, ht.symm⟩
  obtain ⟨begun, hbegun⟩ := prefix_of_byteLength_le ((List.prefix_append head inner).trans hpart)
    hends hhead
  obtain ⟨last, hlast⟩ := prefix_of_byteLength_le hends hpart hinner
  rw [← hlast, ← hbegun, List.append_assoc (head ++ begun), List.append_cancel_left_eq] at ht
  rw [← hbegun, List.append_assoc, List.append_cancel_left_eq] at hlast
  cases last with
  | nil =>
    rcases hafter with rfl | ⟨_, rfl⟩
    · simp at ht
    · exact absurd (List.cons.inj ht).1.symm hc
  | cons d last =>
    rcases hafter with rfl | ⟨_, rfl⟩
    · simp at ht
    · obtain ⟨rfl, -⟩ := List.cons.inj ht
      exact ⟨begun, last, hlast.symm, by rw [hbegun]⟩

end LineEndsAt

/-! ## The anchor and the list of an import -/

/-- What stands between the word `import` and the specifier of an import with a list. -/
def listClause (members : Text) : Text :=
  ' ' :: '\x7b' :: members ++ ['\x7d', ' '] ++ "from".toList ++ [' ']

/-- A list without a semicolon, quote or parenthesis names what is imported. -/
theorem namesImports_listClause (hmembers : ∀ c ∈ members, endsClause c = false) :
    NamesImports (listClause members) := by
  have hblank : Call.Blank [' '] := List.forall_mem_singleton.mpr (by decide)
  have hfront : ∀ c ∈ [' ', '\x7b'], endsClause c = false := forall_endsClause (by decide)
  have hback : ∀ c ∈ ['\x7d', ' '], endsClause c = false := forall_endsClause (by decide)
  refine ⟨' ' :: '\x7b' :: (members ++ ['\x7d', ' ']), [' '], rfl, hblank, ?_, ' ', ?_, by decide⟩
  · show ∀ c ∈ [' ', '\x7b'] ++ members ++ ['\x7d', ' '], endsClause c = false
    simp only [List.forall_mem_append]
    exact ⟨⟨hfront, hmembers⟩, hback⟩
  · rw [← List.cons_append, ← List.cons_append, List.getLast?_append]
    rfl

/-- An import whose list has no semicolon, quote or parenthesis is a declaration. -/
theorem isDeclaration_list (hmembers : ∀ c ∈ members, endsClause c = false) (hne : module ≠ [])
    (hmodule : Quotable module) :
    IsDeclaration (listOpening ++ members ++ listClosing module) := by
  have htext : listOpening ++ members ++ listClosing module =
      "import".toList ++ listClause members ++ '\'' :: module ++ '\'' :: [] ++ [] := by
    unfold listOpening listClosing listClause
    generalize "import".toList = word, "from".toList = link
    simp
  have hboundary : startsInWord (listClause members) = false := by
    show Unicode.isWord ' ' = false
    decide
  have hquote : isQuote '\'' = true := by decide
  have hclause := namesImports_listClause hmembers
  rw [htext]
  generalize listClause members = clause at hboundary hclause
  exact .intro hboundary (.inr hclause) hquote hne hmodule hquote nofun (.inl rfl)

/-- The anchor of a text lies between the braces of an import exactly if the last import of the text
lies in this one, before a line break between the braces. If the list has no semicolon, quote or
parenthesis, it does not. -/
theorem between_braces_iff (hfront : EndsLine front) (members module rest : Text) :
    let head := front ++ listOpening
    let t := head ++ members ++ listClosing module ++ rest
    (AnchorWithin t head members ↔
      ∃ place begun last, IsLastImport t place ∧ members = begun ++ '\n' :: last ∧
        byteLength front ≤ place ∧ place ≤ byteLength (head ++ begun)) ∧
    ((∀ c ∈ members, endsClause c = false) → module ≠ [] → Quotable module →
      ¬AnchorWithin t head members) := by
  intro head t
  have hhead : front ++ listOpening <+: t :=
    ⟨members ++ listClosing module ++ rest, by simp [t, head]⟩
  have hbrace : t = head ++ members ++ '\x7d' ::
      (' ' :: "from".toList ++ [' ', '\''] ++ module ++ ['\''] ++ rest) := by
    simp [t, listClosing]
  have hiff : AnchorWithin t head members ↔
      ∃ place begun last, IsLastImport t place ∧ members = begun ++ '\n' :: last ∧
        byteLength front ≤ place ∧ place ≤ byteLength (head ++ begun) := by
    constructor
    · rintro ⟨offset, hoffset, hle, hge⟩
      rcases anchorOffset?_cases t with ⟨place, _, hfound, hline, hlast⟩ | ⟨hnone, -⟩
      · obtain rfl := Option.some.inj (hoffset.symm.trans hfound)
        -- A line that ends in the list ends with one of its line feeds. It begins where this import
        -- does or later, since another line ends right before that.
        have hbefore : byteLength front ≤ byteLength head :=
          byteLength_mono (List.prefix_append front listOpening)
        have hplace := hline.le_of_endsLine ((List.prefix_append front _).trans hhead) hfront
          (hbefore.trans hle)
        obtain ⟨begun, last, hmembers, rfl⟩ := hline.exists_lineFeed hbrace (by decide) hle hge
        exact ⟨place, begun, last, hlast, hmembers, hplace, hline.between.1⟩
      · simp [hnone] at hoffset
    · rintro ⟨place, begun, last, hlast, hmembers, hplace, hbegun⟩
      rcases anchorOffset?_cases t with ⟨place', offset, hfound, hline, hlast'⟩ | ⟨-, hempty⟩
      · obtain rfl := hlast.unique hlast'
        have hsplit : t = head ++ begun ++ '\n' :: (last ++ listClosing module ++ rest) := by
          simp [t, hmembers]
        -- From the front of the import on, the line runs over the brace, and it does not run over
        -- the line feed.
        have hnone : '\n' ∉ listOpening := by decide
        refine ⟨offset, hfound, hline.le_of_notMem hhead hnone hplace,
          (hline.le_of_lineFeed hsplit hbegun).trans (byteLength_mono ?_)⟩
        rw [hmembers, ← List.append_assoc]
        exact List.prefix_append _ _
      · exact absurd hempty hlast.not_empty
  refine ⟨hiff, fun hmembers hne hmodule hwithin => ?_⟩
  obtain ⟨place, begun, last, hlast, rfl, -, hplace⟩ := hiff.mp hwithin
  -- The import is a declaration, so the last import does not come before its end.
  have hdeclaration : DeclarationAt t front
      (listOpening ++ (begun ++ '\n' :: last) ++ listClosing module) :=
    ⟨⟨rest, by simp [t, head]⟩, hfront, isDeclaration_list hmembers hne hmodule⟩
  have hend := hlast.le ⟨front, _, hdeclaration, rfl⟩
  have hlength : byteLength (head ++ begun) < byteLength (front ++
      (listOpening ++ (begun ++ '\n' :: last) ++ listClosing module)) := by
    simp only [head, byteLength_append, byteLength_cons]
    have := Char.utf8Size_pos '\n'
    omega
  omega

/-- An import with a list over several lines is followed by the new one. -/
theorem between_braces_iff_of_plain_list :
    EndsLine [] ∧
    ¬AnchorWithin (listOpening ++ "\n  View,\n  Text,\n".toList ++ listClosing "react".toList ++
      ";\nrun();\n".toList) listOpening "\n  View,\n  Text,\n".toList := by
  have hfront : EndsLine [] := .inl rfl
  have hiff := between_braces_iff hfront "\n  View,\n  Text,\n".toList "react".toList
    ";\nrun();\n".toList
  exact ⟨hfront, hiff.2 (forall_endsClause (by decide)) (by decide) (by decide)⟩

/-- A new import is put between the braces of an import that has a quote in a comment. -/
theorem between_braces :
    '\x7d' ∉ "\n  View, // it's wide\n  Text,\n".toList ∧ Quotable "react".toList ∧
    AnchorWithin (listOpening ++ "\n  View, // it's wide\n  Text,\n".toList ++
        listClosing "react".toList ++ ";\nrun();\n".toList)
      listOpening "\n  View, // it's wide\n  Text,\n".toList := by
  have hoffset : anchorOffset? (listOpening ++ "\n  View, // it's wide\n  Text,\n".toList ++
      listClosing "react".toList ++ ";\nrun();\n".toList) = some 8 := by
    decide +kernel
  exact ⟨by decide, by decide, 8, hoffset, by decide⟩

end LogGuard.Import
