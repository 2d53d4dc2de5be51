import LogGuard.Text.Basic

/-!
# Lines of a text

A text is divided into lines at its line ends (`Text.lines`), so that a carriage return and a line
feed have an empty line between them. A line is a stretch of the text (`infix_of_mem_lines`). What a
text mentions are its stretches as well (`mentions_iff`).
-/

namespace LogGuard.Text

/-- The lines of a text. -/
def lines (t : Text) : List Text :=
  t.splitOnP isLineEnd

/-- A text without a line end. -/
def IsLine (t : Text) : Prop :=
  ∀ c ∈ t, isLineEnd c = false

instance (t : Text) : Decidable (IsLine t) :=
  List.decidableBAll _ t

variable {c : Char} {w line t needle : Text}

theorem IsLine.concat (hw : IsLine w) (hc : isLineEnd c = false) : IsLine (w ++ [c]) := by
  intro d hd
  rcases List.mem_append.mp hd with hd | hd
  · exact hw d hd
  · rwa [List.mem_singleton.mp hd]

theorem isLine_nil : IsLine [] := by
  simp [IsLine]

/-- Without a line end a text is one line. -/
theorem lines_of_isLine (h : IsLine t) : lines t = [t] :=
  List.splitOnP_eq_singleton h

/-- A line end divides the lines. -/
theorem lines_append_cons (hc : isLineEnd c = true) (front back : Text) :
    lines (front ++ c :: back) = lines front ++ lines back :=
  List.splitOnP_append_cons front back hc

/-- The first line ends at the first line end. -/
theorem lines_line_cons (hw : IsLine w) (hc : isLineEnd c = true) (back : Text) :
    lines (w ++ c :: back) = w :: lines back := by
  rw [lines_append_cons hc, lines_of_isLine hw, List.singleton_append]

/-- A line is a stretch of the text. -/
theorem infix_of_mem_lines (h : line ∈ lines t) : line <:+: t := by
  -- The induction goes along the text after `w`, what was read of the line so far.
  have hopen (t : Text) : ∀ w, IsLine w → line ∈ lines (w ++ t) → line <:+: w ++ t := by
    induction t with
    | nil =>
      intro w hw hmem
      rw [List.append_nil, lines_of_isLine hw, List.mem_singleton] at hmem
      rw [hmem]
      exact (List.prefix_append w []).isInfix
    | cons c t ih =>
      intro w hw hmem
      cases hc : isLineEnd c with
      | true =>
        rw [lines_line_cons hw hc, List.mem_cons] at hmem
        rcases hmem with rfl | hlater
        · exact (List.prefix_append _ _).isInfix
        · exact (ih [] isLine_nil hlater).trans
            ((List.suffix_cons c t).trans (List.suffix_append w _)).isInfix
      | false => simpa using ih (w ++ [c]) (hw.concat hc) (by simpa using hmem)
  exact hopen t [] isLine_nil h

/-- What a text mentions are its stretches. -/
theorem mentions_iff : mentions needle t = true ↔ needle <:+: t := by
  induction t with
  | nil => rw [mentions, List.isEmpty_iff, List.infix_nil]
  | cons c t ih =>
    rw [mentions, Bool.or_eq_true, ih, List.isPrefixOf_iff_prefix, List.infix_cons_iff]

end LogGuard.Text
