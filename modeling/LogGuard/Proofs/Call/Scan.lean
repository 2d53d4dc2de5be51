import LogGuard.Proofs.Call.Shape

/-!
# Scanning position by position

`piecesFrom` reads a call as a whole and goes on after it. No other call begins inside a call, so
the scan may as well go on right after the token, character by character: `piecesFrom_call` and
`piecesFrom_plain` say so, and `scan_induction` is the induction that follows these two steps.

Of the text before it, a scan only sees what `startsExpression` sees. `SameView` relates two texts
that look the same from everywhere after them, and `piecesFrom_congr` shows that the scan does not
tell them apart. A text hides all that stands before its last line end or before a last letter of a
name (`sameView_cons`).
-/

namespace LogGuard.Call

open Unicode

/-- A call that is to be replaced begins at `t`, where `before` is the text in front of it, last
character first. -/
def CallAt (before t : Text) (m : Match) : Prop :=
  match? t = some m ∧ startsExpression before = true

/-! ## The steps of a scan -/

/-- Only a `c` begins a call. -/
theorem match?_cons_of_ne {c : Char} (hc : c ≠ 'c') (t : Text) : match? (c :: t) = none := by
  by_contra hne
  obtain ⟨m, hm⟩ := Option.ne_none_iff_exists'.mp hne
  have h := spells_of_match? hm
  obtain ⟨token, htoken, -, -⟩ := h.head
  have htext := h.text
  simp only [htoken, List.cons_append, List.cons.injEq] at htext
  exact hc htext.1

/-- Characters at which no call begins are kept one by one. -/
theorem piecesFrom_append {w : Text} (hw : 'c' ∉ w) (before t : Text) :
    piecesFrom before (w ++ t) = w.map .plain ++ piecesFrom (w.reverse ++ before) t := by
  induction w generalizing before with
  | nil => rfl
  | cons c w ih =>
    simp only [List.mem_cons, not_or] at hw
    rw [List.cons_append, piecesFrom]
    split
    · rw [ih hw.2]
      simp
    · rename_i m hm
      rw [match?_cons_of_ne (Ne.symm hw.1)] at hm
      contradiction

/-- At a call the scan finds its token and goes on right after it. -/
theorem piecesFrom_call {before t : Text} {m : Match} (h : CallAt before t m) :
    piecesFrom before t =
      .call m.method m.token :: piecesFrom (m.token.reverse ++ before) (m.opening ++ m.rest) := by
  obtain ⟨hm, hstart⟩ := h
  obtain ⟨token, htoken, -, hopening⟩ := (spells_of_match? hm).head
  cases t with
  | nil => simp [match?, isPrefixOf?_cons_nil] at hm
  | cons c tail =>
    -- The scan reads on after the opening, in which there is no `c`.
    rw [piecesFrom, piecesFrom_append hopening]
    split
    · rename_i hnone
      rw [hm] at hnone
      contradiction
    · rename_i m' hm'
      obtain rfl : m = m' := Option.some.inj (hm.symm.trans hm')
      simp [hstart]

/-- Elsewhere the scan keeps one character. -/
theorem piecesFrom_plain {before : Text} {c : Char} {tail : Text}
    (h : ∀ m, ¬CallAt before (c :: tail) m) :
    piecesFrom before (c :: tail) = .plain c :: piecesFrom (c :: before) tail := by
  rw [piecesFrom]
  split
  · rfl
  · rename_i m hm
    have hstart : startsExpression before = false := by
      by_contra hne
      exact h m ⟨hm, by simpa using hne⟩
    have hspells := spells_of_match? hm
    obtain ⟨token, htoken, htail, hopening⟩ := hspells.head
    have htext := hspells.text
    simp only [htoken, List.cons_append, List.cons.injEq] at htext
    obtain ⟨rfl, rfl⟩ := htext
    -- A call that is not replaced is kept as a whole: beyond its first character it has no `c`.
    have hkept : 'c' ∉ token ++ m.opening := by simp [htail, hopening]
    rw [piecesFrom_append hkept]
    simp [hstart, htoken]

/-- Induction along a scan: a text is empty, or it begins with a character that is kept, or with a
call that is to be replaced. -/
@[elab_as_elim]
theorem scan_induction {motive : Text → Text → Prop}
    (nil : ∀ before, motive before [])
    (plain : ∀ before c tail, (∀ m, ¬CallAt before (c :: tail) m) →
      motive (c :: before) tail → motive before (c :: tail))
    (call : ∀ before t m, CallAt before t m →
      motive (m.token.reverse ++ before) (m.opening ++ m.rest) → motive before t)
    (before t : Text) : motive before t := by
  induction hn : t.length using Nat.strongRecOn generalizing before t with
  | ind n ih =>
    cases t with
    | nil => exact nil before
    | cons c tail =>
      by_cases h : ∃ m, CallAt before (c :: tail) m
      · obtain ⟨m, hm⟩ := h
        refine call before _ m hm (ih _ ?_ _ _ rfl)
        have hspells := spells_of_match? hm.1
        obtain ⟨token, htoken, -, -⟩ := hspells.head
        have hlength := congrArg List.length hspells.text
        simp only [htoken, List.length_append, List.length_cons] at hlength hn ⊢
        omega
      · refine plain before c tail (not_exists.mp h) (ih _ ?_ _ _ rfl)
        simp only [List.length_cons] at hn
        omega

/-- The pieces of a text make up the text. -/
theorem source_piecesFrom (before t : Text) : (piecesFrom before t).flatMap Piece.source = t := by
  induction before, t using scan_induction with
  | nil before => rw [piecesFrom, List.flatMap_nil]
  | plain before c tail hplain ih =>
    rw [piecesFrom_plain hplain, List.flatMap_cons, ih]
    rfl
  | call before t m hcall ih =>
    rw [piecesFrom_call hcall, List.flatMap_cons, ih]
    simpa [Piece.source] using (spells_of_match? hcall.1).text.symm

/-- A text without a character that every call has is kept as it is. -/
theorem piecesFrom_of_notMem {c : Char} (hc : ∀ {t m}, Match.Spells m t → c ∈ t) {t : Text}
    (ht : c ∉ t) (before : Text) : piecesFrom before t = t.map .plain := by
  induction t generalizing before with
  | nil => rw [piecesFrom, List.map_nil]
  | cons d t ih =>
    have hnone : ∀ m, ¬CallAt before (d :: t) m := fun m hm => ht (hc (spells_of_match? hm.1))
    rw [piecesFrom_plain hnone, ih (List.not_mem_of_not_mem_cons ht), List.map_cons]

/-! ## What a scan sees of the text before it -/

/-- From everywhere after them, two texts look the same to `startsExpression`. Both are given last
character first. -/
def SameView (before before' : Text) : Prop :=
  ∀ u, startsExpression (u ++ before) = startsExpression (u ++ before')

theorem SameView.refl (before : Text) : SameView before before :=
  fun _ => rfl

theorem SameView.symm {before before' : Text} (h : SameView before before') :
    SameView before' before :=
  fun u => (h u).symm

theorem SameView.trans {before before' before'' : Text} (h : SameView before before')
    (h' : SameView before' before'') : SameView before before'' :=
  fun u => (h u).trans (h' u)

/-- The same text after both does not change that they look the same. -/
theorem SameView.append {before before' : Text} (h : SameView before before') (u : Text) :
    SameView (u ++ before) (u ++ before') := fun v => by
  rw [← List.append_assoc, ← List.append_assoc, h]

/-- A line end is white space. -/
theorem isWhiteSpace_of_isLineEnd {c : Char} (h : Text.isLineEnd c = true) :
    isWhiteSpace c = true := by
  rcases Text.isLineEnd_iff.mp h with rfl | rfl <;> decide

/-- A line end or an identifier character without white space hides what stands before it. -/
theorem sameView_cons {c : Char} (hfind : (Text.isLineEnd c || !isWhiteSpace c) = true)
    (hfront : (isIdentifier c || Text.isLineEnd c) = true) (before before' : Text) :
    SameView (c :: before) (c :: before') := by
  intro u
  cases u with
  | nil =>
    -- Right after it, `c` is a character of a name or ends a line, and nothing else is looked at.
    simp only [List.nil_append, startsExpression]
    split
    · rfl
    · rename_i hno
      have hend : Text.isLineEnd c = true := by
        simp only [Bool.or_eq_true] at hno hfront
        exact hfront.resolve_left fun hid => hno (Or.inl hid)
      simp [hend]
  | cons d u =>
    -- Further on, the search for the last character of the line ends at `c` at the latest.
    have hstop (x : Text) : (u ++ c :: x).find? (fun d => Text.isLineEnd d || !isWhiteSpace d) =
        (u ++ [c]).find? fun d => Text.isLineEnd d || !isWhiteSpace d := by
      simp only [List.find?_append, List.find?_cons, hfind]
    simp only [List.cons_append, startsExpression, hstop]

/-- After a line end a text looks as it does alone. -/
theorem sameView_lineEnd {c : Char} (hc : Text.isLineEnd c = true) (before : Text) :
    SameView (c :: before) [] := by
  intro u
  rw [sameView_cons (by simp [hc]) (by simp [hc]) before [] u]
  have hcases := Text.isLineEnd_iff.mp hc
  cases u with
  | nil => rcases hcases with rfl | rfl <;> decide
  | cons d u =>
    have hne : (some c != some '.') = (none != some '.') := by
      rcases hcases with rfl | rfl <;> decide
    -- If nothing else ends the search, then the line end does, as the front of the text would.
    have hstop : [c].find? (fun d => Text.isLineEnd d || !isWhiteSpace d) = some c := by
      simp [hc]
    simp only [List.cons_append, List.append_nil, startsExpression, List.find?_append, hstop]
    cases u.find? fun d => Text.isLineEnd d || !isWhiteSpace d with
    | none => simp only [Option.none_or, hne]
    | some e => rfl

/-- Two characters that are no white space hide what stands before them. -/
theorem sameView_cons_cons {c d : Char} (hc : (Text.isLineEnd c || !isWhiteSpace c) = true)
    (hd : (Text.isLineEnd d || !isWhiteSpace d) = true) (before before' : Text) :
    SameView (c :: d :: before) (c :: d :: before') := by
  intro u
  cases u with
  | nil => simp only [List.nil_append, startsExpression, List.find?_cons, hd]
  | cons e u =>
    -- The search for the last character of the line ends at `c` at the latest.
    have hstop (x : Text) : (u ++ c :: x).find? (fun d => Text.isLineEnd d || !isWhiteSpace d) =
        (u ++ [c]).find? fun d => Text.isLineEnd d || !isWhiteSpace d := by
      simp only [List.find?_append, List.find?_cons, hc]
    simp only [List.cons_append, startsExpression, hstop]

/-- Where a call is to be replaced depends on the view only. -/
theorem CallAt.congr {before before' t : Text} {m : Match} (h : SameView before before') :
    CallAt before t m ↔ CallAt before' t m := by
  have hview := h []
  simp only [List.nil_append] at hview
  rw [CallAt, CallAt, hview]

/-- The scan of a text depends on the view only. -/
theorem piecesFrom_congr {before before' : Text} (h : SameView before before') (t : Text) :
    piecesFrom before t = piecesFrom before' t := by
  induction before, t using scan_induction generalizing before' with
  | nil before => rw [piecesFrom, piecesFrom]
  | plain before c tail hplain ih =>
    have htail : piecesFrom (c :: before) tail = piecesFrom (c :: before') tail :=
      ih (h.append [c])
    rw [piecesFrom_plain hplain, piecesFrom_plain fun m hm => hplain m ((CallAt.congr h).mpr hm),
      htail]
  | call before t m hcall ih =>
    rw [piecesFrom_call hcall, piecesFrom_call ((CallAt.congr h).mp hcall), ih (h.append _)]

end LogGuard.Call
