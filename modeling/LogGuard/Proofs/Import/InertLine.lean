import LogGuard.Proofs.Import.Insertion
import LogGuard.Proofs.Text.Lines

/-!
# Inert lines of a replaced text

Replacing calls keeps the inert lines: a text has such a line as often as the replaced text
(`count_lines_replaceAll`). No inert line is taken apart, as no call runs into it. None comes about
either: a line with a safe name goes on with white space up to the parenthesis of the call, so it
has the parenthesis or breaks off with a character of the call.
-/

namespace LogGuard

open Call
open Text (lines IsLine)

/-- What was read of a line ends with a character of calls, if it is not empty. -/
def BreaksOff (w : Text) : Prop :=
  ∀ rest c, w = rest ++ [c] → isCallChar c = true

variable {line w v t : Text}

theorem breaksOff_nil : BreaksOff [] := by
  simp [BreaksOff]

theorem breaksOff_concat {c : Char} (hc : isCallChar c = true) (w : Text) :
    BreaksOff (w ++ [c]) := by
  intro rest d heq
  obtain rfl : c = d := by simpa using (List.append_inj' heq rfl).2
  exact hc

/-- An inert line does not break off. -/
theorem Inert.ne_of_breaksOff (hline : Inert line) (hw : BreaksOff w) : w ≠ line := by
  rintro rfl
  obtain ⟨rest, c, heq, hc⟩ := hline.last
  rw [hw rest c heq] at hc
  contradiction

/-- A line end completes the line before it. -/
theorem count_lines_newLine (line : Text) (hw : IsLine w) {c : Char}
    (hc : Text.isLineEnd c = true) (t : Text) :
    (lines (w ++ c :: t)).count line = (lines t).count line + if w = line then 1 else 0 := by
  rw [Text.lines_line_cons hw hc, List.count_cons]
  simp only [beq_iff_eq]

/-- Characters of calls complete no inert line, and they leave one that breaks off. -/
theorem exists_count_lines (hline : Inert line) (hv : ∀ c ∈ v, isCallChar c = true)
    (hw : IsLine w) (hoff : BreaksOff w) (t : Text) :
    ∃ w', IsLine w' ∧ BreaksOff w' ∧
      (lines (w ++ (v ++ t))).count line = (lines (w' ++ t)).count line := by
  induction v generalizing w with
  | nil => exact ⟨w, hw, hoff, rfl⟩
  | cons c v ih =>
    obtain ⟨hc, hv⟩ := List.forall_mem_cons.mp hv
    cases hend : Text.isLineEnd c with
    | true =>
      obtain ⟨w', hw', hoff', hcount⟩ := ih hv Text.isLine_nil breaksOff_nil
      refine ⟨w', hw', hoff', ?_⟩
      rw [← hcount, List.cons_append, count_lines_newLine line hw hend,
        if_neg (hline.ne_of_breaksOff hoff)]
      rfl
    | false =>
      obtain ⟨w', hw', hoff', hcount⟩ := ih hv (hw.concat hend) (breaksOff_concat hc w)
      refine ⟨w', hw', hoff', ?_⟩
      rw [← hcount]
      simp

/-! ## The open line of a text and of the replaced one -/

/-- What was read of a line in a text and in the replaced one, in front of `t`. Where they differ
there was a call, of which the parenthesis comes next or was read already. -/
inductive Alike (t w w' : Text) : Prop where
  /-- There was no call. -/
  | same (h : w = w')
  /-- There was a token, and a parenthesis comes next. -/
  | opening (hw : BreaksOff w) (hw' : BreaksOff w')
    (ht : ∃ blank rest, Blank blank ∧ t = blank ++ '(' :: rest)
  /-- There was a parenthesis. -/
  | called (hw : '(' ∈ w) (hw' : '(' ∈ w')

variable {w' : Text}

/-- Both are the inert line or none of them is. -/
theorem Alike.eq_iff (hline : Inert line) (h : Alike t w w') : w' = line ↔ w = line := by
  cases h with
  | same h => rw [h]
  | opening hw hw' =>
    exact iff_of_false (hline.ne_of_breaksOff hw') (hline.ne_of_breaksOff hw)
  | called hw hw' =>
    constructor
    · rintro rfl
      exact absurd hw' hline.paren
    · rintro rfl
      exact absurd hw hline.paren

/-- One more character of the line is read in both. -/
theorem Alike.more {c : Char} (h : Alike (c :: t) w w') : Alike t (w ++ [c]) (w' ++ [c]) := by
  cases h with
  | same h => exact .same (by rw [h])
  | opening _ _ ht =>
    obtain ⟨blank, rest, hblank, ht⟩ := ht
    cases blank with
    | nil =>
      obtain ⟨rfl, -⟩ := List.cons.inj ht
      exact .called (by simp) (by simp)
    | cons d blank =>
      obtain ⟨rfl, htail⟩ := List.cons.inj ht
      obtain ⟨hc, hblank⟩ := List.forall_mem_cons.mp hblank
      have hcall : isCallChar c = true := by simp [isCallChar, hc]
      exact .opening (breaksOff_concat hcall w) (breaksOff_concat hcall w')
        ⟨blank, rest, hblank, htail⟩
  | called hw hw' => exact .called (by simp [hw]) (by simp [hw'])

/-- The last letter of a safe name is one of calls. -/
theorem breaksOff_safeName (method : Method) (w : Text) : BreaksOff (w ++ method.safeName) := by
  obtain ⟨rest, c, hname, hc⟩ :
      ∃ rest c, method.safeName = rest ++ [c] ∧ isCallChar c = true := by
    cases method
    · exact ⟨"safeLo".toList, 'g', rfl, by simp [isCallChar]⟩
    · exact ⟨"safeErro".toList, 'r', rfl, by simp [isCallChar]⟩
    · exact ⟨"safeWar".toList, 'n', rfl, by simp [isCallChar]⟩
  rw [hname, ← List.append_assoc]
  exact breaksOff_concat hc _

/-- A safe name has no line end. -/
theorem isLine_safeName (method : Method) : IsLine method.safeName := by
  cases method <;> decide

/-- As often as it stands in a text, an inert line stands in the replaced text. -/
theorem count_lines_replaceFrom (hline : Inert line) (before t : Text) :
    ∀ w w', IsLine w → IsLine w' → Alike t w w' →
      (lines (w' ++ replaceFrom before t)).count line = (lines (w ++ t)).count line := by
  induction before, t using scan_induction with
  | nil before =>
    intro w w' hw hw' halike
    rw [replaceFrom_nil, List.append_nil, List.append_nil, Text.lines_of_isLine hw,
      Text.lines_of_isLine hw', List.count_singleton, List.count_singleton]
    simp only [beq_iff_eq, halike.eq_iff hline]
  | plain before c tail hplain ih =>
    intro w w' hw hw' halike
    rw [replaceFrom_plain hplain]
    cases hend : Text.isLineEnd c with
    | true =>
      rw [count_lines_newLine line hw hend, count_lines_newLine line hw' hend]
      have hnext := ih [] [] Text.isLine_nil Text.isLine_nil (.same rfl)
      rw [List.nil_append, List.nil_append] at hnext
      simp only [hnext, halike.eq_iff hline]
    | false =>
      have hnext := ih _ _ (hw.concat hend) (hw'.concat hend) halike.more
      simpa using hnext
  | call before t m hcall ih =>
    intro w w' hw hw' _
    have hspells := spells_of_match? hcall.1
    obtain ⟨token, htoken, -, -⟩ := hspells.head
    obtain ⟨blank, hblank, hopening⟩ := hspells.opening
    -- What stood before the token in its line does not matter any more.
    have hchars : ∀ c ∈ token, isCallChar c = true := fun c hc =>
      hspells.isCallChar c (by simp [htoken, hc])
    obtain ⟨v, hv, hoff, hcount⟩ := exists_count_lines hline hchars
      (hw.concat (c := 'c') (by decide)) (breaksOff_concat (by decide) w) (m.opening ++ m.rest)
    have ht : w ++ t = w ++ ['c'] ++ (token ++ (m.opening ++ m.rest)) := by
      rw [hspells.text, htoken]
      simp
    have hnext := ih v (w' ++ m.method.safeName) hv
      (List.forall_mem_append.mpr ⟨hw', isLine_safeName m.method⟩)
      (.opening hoff (breaksOff_safeName _ w') ⟨blank, m.rest, hblank, by simp [hopening]⟩)
    rw [replaceFrom_call hcall, ← List.append_assoc, hnext, ht, hcount]

/-- As often as it stands in a text, an inert line stands in the replaced text. -/
theorem count_lines_replaceAll (hline : Inert line) (t : Text) :
    (lines (replaceAll t)).count line = (lines t).count line := by
  rw [replaceAll_eq]
  exact count_lines_replaceFrom hline [] t [] [] Text.isLine_nil Text.isLine_nil (.same rfl)

end LogGuard
