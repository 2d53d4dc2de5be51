import LogGuard.Import.Anchor

/-!
# Where an import is put

The recognisers of import declarations only ever return the end of the text they read, so the
anchor divides the text, right before a line end or at its end (`anchor?_spec`). Where that line end
is a carriage return and a line feed, an inserted line goes in front of both (`insert?_spec`).
-/

namespace LogGuard.Import

/-- What follows a specifier is the end of the text. -/
theorem specifier?_suffix {t rest : Text} (h : specifier? t = some rest) : rest <:+ t := by
  cases t with
  | nil => simp [specifier?] at h
  | cons c t =>
    simp only [specifier?] at h
    split at h
    · split at h
      · rename_i d r hd
        have hr : r <:+ t :=
          (List.suffix_cons d r).trans (hd ▸ List.dropWhile_suffix fun d => !isQuote d && d != '\n')
        split at h
        · obtain rfl := Option.some.inj h
          exact hr.trans (List.suffix_cons c t)
        · contradiction
      · contradiction
    · contradiction

/-- Dropping a terminator leaves the end of the text. -/
theorem dropTerminator_suffix (t : Text) : dropTerminator t <:+ t := by
  have hblank : t.dropWhile isBlank <:+ t := List.dropWhile_suffix isBlank
  unfold dropTerminator
  split
  · rename_i rest hrest
    exact (List.suffix_cons ';' rest).trans (hrest ▸ hblank)
  · exact hblank

/-- What follows a declaration is the end of the text. -/
theorem declaration?_suffix {t rest : Text} (h : declaration? t = some rest) : rest <:+ t := by
  obtain ⟨afterWord, r, hword, hspecifier, rfl⟩ := exists_of_declaration? h
  have hr : r <:+ afterWord := (specifier?_suffix hspecifier).trans (List.dropWhile_suffix _)
  have hafterWord : afterWord <:+ t := ⟨_, (Call.eq_append_of_isPrefixOf? hword).symm⟩
  exact (dropTerminator_suffix r).trans (hr.trans hafterWord)

/-- What follows the last declaration is the end of the text. -/
theorem afterLastDeclaration?_suffix {atLineStart : Bool} {t rest : Text}
    (h : afterLastDeclaration? atLineStart t = some rest) : rest <:+ t := by
  -- The cases are those of the search: no declaration begins here, or it goes on after one.
  induction atLineStart, t using afterLastDeclaration?.induct generalizing rest with
  | case1 atLineStart => simp [afterLastDeclaration?] at h
  | case2 atLineStart c tail hnone ih =>
    have hlater : afterLastDeclaration? (c == '\n') tail = some rest := by
      rw [afterLastDeclaration?] at h
      split at h <;> simp_all
    exact (ih hlater).trans (List.suffix_cons c tail)
  | case3 atLineStart c tail after hafter ih =>
    have hsuffix : after <:+ c :: tail := by
      split at hafter
      · exact declaration?_suffix hafter
      · contradiction
    have hnext : (afterLastDeclaration? false after <|> some after) = some rest := by
      rw [afterLastDeclaration?] at h
      split at h <;> simp_all
    simp only [Option.orElse_eq_orElse, Option.orElse_eq_or, Option.or_eq_some_iff] at hnext
    rcases hnext with hlater | ⟨-, hthis⟩
    · exact (ih hlater).trans hsuffix
    · exact Option.some.inj hthis ▸ hsuffix

/-- The last line with an import begins at an end of the text. -/
theorem lastImportLine?_suffix {atLineStart : Bool} {t line : Text}
    (h : lastImportLine? atLineStart t = some line) : line <:+ t := by
  induction t generalizing atLineStart with
  | nil => simp [lastImportLine?] at h
  | cons c tail ih =>
    simp only [lastImportLine?, Option.orElse_eq_orElse, Option.orElse_eq_or,
      Option.or_eq_some_iff] at h
    rcases h with hlater | ⟨-, hthis⟩
    · exact (ih hlater).trans (List.suffix_cons c tail)
    · split at hthis
      · exact (Option.some.inj hthis).symm ▸ List.suffix_rfl
      · contradiction

/-- What the searches for the last import find is the end of the text. -/
theorem lastImport_suffix {t line : Text}
    (h : (afterLastDeclaration? true t <|> lastImportLine? true t) = some line) : line <:+ t := by
  simp only [Option.orElse_eq_orElse, Option.orElse_eq_or, Option.or_eq_some_iff] at h
  rcases h with hdeclaration | ⟨-, himport⟩
  · exact afterLastDeclaration?_suffix hdeclaration
  · exact lastImportLine?_suffix himport

/-- The anchor is the end of the line on which the found rest of the text begins. -/
theorem anchor?_of_lastImport {front line : Text}
    (h : (afterLastDeclaration? true (front ++ line) <|> lastImportLine? true (front ++ line)) =
      some line) :
    anchor? (front ++ line) =
      some (front ++ line.takeWhile (· != '\n'), line.dropWhile (· != '\n')) := by
  have htail : anchorTail? (front ++ line) = some (line.dropWhile (· != '\n')) := by
    rw [anchorTail?, h, Option.map_some]
  have hdivided : front ++ line =
      front ++ line.takeWhile (· != '\n') ++ line.dropWhile (· != '\n') := by
    rw [List.append_assoc, List.takeWhile_append_dropWhile]
  -- The text is cut by length, which is the same as cutting it before the line end.
  have htake : (front ++ line).take
      ((front ++ line).length - (line.dropWhile (· != '\n')).length) =
        front ++ line.takeWhile (· != '\n') := by
    rw [hdivided, List.length_append, Nat.add_sub_cancel]
    exact List.take_left
  rw [anchor?, htail, Option.map_some, htake]

/-- After the line a text is at its end or goes on with a line feed. -/
theorem dropWhile_line (t : Text) :
    t.dropWhile (· != '\n') = [] ∨ ∃ rest, t.dropWhile (· != '\n') = '\n' :: rest := by
  cases hdrop : t.dropWhile (· != '\n') with
  | nil => exact .inl rfl
  | cons c rest =>
    have hc := List.head?_dropWhile_not (· != '\n') t
    simp only [hdrop, List.head?_cons, bne_eq_false_iff_eq] at hc
    exact .inr ⟨rest, by rw [hc]⟩

/-- The anchor divides a text at its end or before a line feed. -/
theorem anchor?_spec {t head tail : Text} (h : anchor? t = some (head, tail)) :
    t = head ++ tail ∧ (tail = [] ∨ ∃ rest, tail = '\n' :: rest) := by
  obtain ⟨tail', htail, -⟩ := Option.map_eq_some_iff.mp h
  obtain ⟨line, hline, -⟩ := Option.map_eq_some_iff.mp htail
  obtain ⟨front, rfl⟩ := lastImport_suffix hline
  rw [anchor?_of_lastImport hline, Option.some.injEq, Prod.mk.injEq] at h
  obtain ⟨rfl, rfl⟩ := h
  exact ⟨by rw [List.append_assoc, List.takeWhile_append_dropWhile], dropWhile_line line⟩

/-- An inserted line has a line end in front of it, that with which the line before it ended. -/
theorem insert?_spec {t line out : Text} (h : insert? t line = some out) :
    ∃ head tail, anchor? t = some (head, tail) ∧
      (head.getLast? ≠ some '\r' ∧ out = head ++ ['\n'] ++ line ++ tail ∨
        ∃ front, head = front ++ ['\r'] ∧ out = front ++ ['\r', '\n'] ++ line ++ '\r' :: tail) := by
  obtain ⟨⟨head, tail⟩, hanchor, hout⟩ := Option.map_eq_some_iff.mp h
  refine ⟨head, tail, hanchor, ?_⟩
  dsimp only at hout
  split at hout
  · rename_i hlast
    right
    obtain ⟨front, rfl⟩ := List.getLast?_eq_some_iff.mp (beq_iff_eq.mp hlast)
    exact ⟨front, rfl, by simpa using hout.symm⟩
  · rename_i hlast
    left
    exact ⟨fun hcr => hlast (beq_iff_eq.mpr hcr), by simpa using hout.symm⟩

end LogGuard.Import
