import LogGuard.Proofs.Call.Replacement
import Mathlib.Data.List.Basic

/-!
# Cutting a text in two

A call straddles a cut of a text if it begins before the cut and ends after it. The calls of a text
that is cut where none straddles are the calls of its two parts (`piecesFrom_append_cut`). A call
that straddles the cut is lost by it: the two parts have one call less (`countFrom_straddling`).
Where a text is cut next to characters that no call has, none straddles the cut
(`not_straddles_append`, `not_straddles_concat`).
-/

namespace LogGuard.Call

/-- A call that is to be replaced begins in `head`, which stands after `before`, and ends in
`tail`. -/
def Straddles (before head tail : Text) : Prop :=
  ∃ u v m, head = u ++ v ∧ v ≠ [] ∧ CallAt (u.reverse ++ before) (v ++ tail) m ∧
    m.rest.length < tail.length

/-- A call that straddles a cut is divided by it. -/
theorem Match.Spells.divided {v tail : Text} {m : Match} (h : m.Spells (v ++ tail))
    (hrest : m.rest.length < tail.length) :
    ∃ w, w ≠ [] ∧ m.token ++ m.opening = v ++ w ∧ tail = w ++ m.rest := by
  rcases List.append_eq_append_iff.mp h.text with ⟨w, hcall, htail⟩ | ⟨w, -, hrest'⟩
  · refine ⟨w, ?_, hcall, htail⟩
    rintro rfl
    simp [htail] at hrest
  · have hlength := congrArg List.length hrest'
    simp only [List.length_append] at hlength
    omega

/-- Of a call that is divided, the first part has no parenthesis and the second no `c`; the
parenthesis ends it. -/
theorem Match.Spells.parts {t v w : Text} {m : Match} (h : m.Spells t)
    (hcall : m.token ++ m.opening = v ++ w) (hv : v ≠ []) (hw : w ≠ []) :
    '(' ∉ v ∧ 'c' ∉ w ∧ ∃ x, w = x ++ ['('] := by
  obtain ⟨token, htoken, htail, hopening⟩ := h.head
  obtain ⟨hparen, o, ho, ho'⟩ := h.paren_notMem_token
  obtain ⟨x, d, rfl⟩ := (List.eq_nil_or_concat' w).resolve_left hw
  obtain ⟨c, v, rfl⟩ := List.exists_cons_of_ne_nil hv
  have hend := hcall
  rw [ho, ← List.append_assoc, ← List.append_assoc] at hend
  obtain ⟨hfront, hlast⟩ := List.append_inj' hend rfl
  obtain rfl : '(' = d := by simpa using hlast
  refine ⟨fun hmem => ?_, fun hmem => ?_, x, rfl⟩
  · have hmem' : '(' ∈ m.token ++ o := hfront ▸ List.mem_append_left x hmem
    simp [hparen, ho'] at hmem'
  · have hback : token ++ m.opening = v ++ (x ++ ['(']) := by
      simp only [htoken, List.cons_append, List.cons.injEq] at hcall
      exact hcall.2
    have hmem' : 'c' ∈ token ++ m.opening := hback ▸ List.mem_append_right v hmem
    simp [htail, hopening] at hmem'

/-- A call that does not reach beyond the end of a text is a call of that text. -/
theorem Match.Spells.of_append {t tail : Text} {m : Match} (h : m.Spells (t ++ tail))
    (hrest : tail.length ≤ m.rest.length) :
    ∃ rest, ({ m with rest := rest } : Match).Spells t ∧ m.rest = rest ++ tail := by
  rcases List.append_eq_append_iff.mp h.text with ⟨w, hcall, htail⟩ | ⟨rest, ht, hrest'⟩
  · have hlength := congrArg List.length htail
    simp only [List.length_append] at hlength
    obtain rfl : w = [] := List.length_eq_zero_iff.mp (by omega)
    exact ⟨[], ⟨h.token, h.opening, by simpa using hcall.symm⟩, by simpa using htail.symm⟩
  · exact ⟨rest, ⟨h.token, h.opening, ht⟩, hrest'⟩

/-- What straddles the cut of a text straddles it in the text with more in front. -/
theorem Straddles.append {before w head tail : Text}
    (h : Straddles (w.reverse ++ before) head tail) : Straddles before (w ++ head) tail := by
  obtain ⟨u, v, m, rfl, hv, hcall, hrest⟩ := h
  exact ⟨w ++ u, v, m, by simp, hv, by simpa using hcall, hrest⟩

/-- Where no call straddles the cut, the text is divided as its parts are. -/
theorem piecesFrom_append_cut {before head tail : Text} (h : ¬Straddles before head tail) :
    piecesFrom before (head ++ tail) =
      piecesFrom before head ++ piecesFrom (head.reverse ++ before) tail := by
  induction before, head using scan_induction with
  | nil before =>
    have hnil : piecesFrom before [] = [] := by rw [piecesFrom]
    rw [hnil]
    rfl
  | plain before c head hplain ih =>
    -- A call of the whole that begins here straddles the cut or is a call of the first part.
    have hnone : ∀ m, ¬CallAt before (c :: (head ++ tail)) m := by
      rintro m ⟨hm, hstart⟩
      by_cases hrest : m.rest.length < tail.length
      · exact h ⟨[], c :: head, m, rfl, by simp, ⟨hm, hstart⟩, hrest⟩
      · obtain ⟨rest, hspells, -⟩ :=
          Match.Spells.of_append (t := c :: head) (spells_of_match? hm) (not_lt.mp hrest)
        exact hplain _ ⟨match?_of_spells hspells, hstart⟩
    have hcut : ¬Straddles (c :: before) head tail := fun hs => h (Straddles.append (w := [c]) hs)
    rw [List.cons_append, piecesFrom_plain hnone, piecesFrom_plain hplain, ih hcut]
    simp
  | call before head m hcall ih =>
    have htext : head = m.token ++ (m.opening ++ m.rest) := by
      simpa using (spells_of_match? hcall.1).text
    have hcut : ¬Straddles (m.token.reverse ++ before) (m.opening ++ m.rest) tail := fun hs =>
      h (htext ▸ hs.append)
    have hcall' := piecesFrom_call ⟨match?_append hcall.1 tail, hcall.2⟩
    dsimp only at hcall'
    have hreverse : head.reverse ++ before =
        (m.opening ++ m.rest).reverse ++ (m.token.reverse ++ before) := by
      simp [htext]
    rw [hcall', piecesFrom_call hcall, ← List.append_assoc, ih hcut, hreverse, List.cons_append]

/-! ## Cuts that no call straddles -/

/-- No call runs over a character that no call has, unless it ends before it. -/
theorem not_straddles_append {w : Text} (hw : '(' ∉ w) {c : Char} (hc : isCallChar c = false)
    (before head tail : Text) : ¬Straddles before head (w ++ c :: tail) := by
  rintro ⟨u, v, m, -, hv, ⟨hm, -⟩, hrest⟩
  have hspells := spells_of_match? hm
  obtain ⟨x, hx, hcall, htail⟩ := hspells.divided hrest
  obtain ⟨-, -, x, rfl⟩ := hspells.parts hcall hv hx
  have hmem : c ∉ x ++ ['('] := fun hcx => by
    have := hspells.isCallChar c (hcall ▸ List.mem_append_right v hcx)
    simp [hc] at this
  -- What is left of the call ends with a parenthesis, so it is longer than `w` and reaches `c`.
  rcases List.append_eq_append_iff.mp htail with ⟨y, hy, hy'⟩ | ⟨y, rfl, -⟩
  · cases y with
    | nil =>
      rw [List.append_nil] at hy
      exact hw (hy ▸ List.mem_append_right x (List.mem_singleton_self '('))
    | cons d y =>
      obtain ⟨rfl, -⟩ := List.cons.inj hy'
      exact hmem (hy ▸ List.mem_append_right w List.mem_cons_self)
  · exact hw (by simp)

/-- No call begins in a text that ends with a character that no call has and ends after it. -/
theorem not_straddles_concat {c : Char} (hc : isCallChar c = false) (before head tail : Text) :
    ¬Straddles before (head ++ [c]) tail := by
  rintro ⟨u, v, m, hhead, hv, ⟨hm, -⟩, hrest⟩
  have hspells := spells_of_match? hm
  obtain ⟨w, -, hcall, -⟩ := hspells.divided hrest
  obtain ⟨x, d, rfl⟩ := (List.eq_nil_or_concat' v).resolve_left hv
  rw [← List.append_assoc] at hhead
  obtain rfl : c = d := by simpa using (List.append_inj' hhead rfl).2
  have := hspells.isCallChar c (hcall ▸ by simp)
  simp [hc] at this

/-- No call straddles the place where another one begins. -/
theorem not_straddles_c (before head tail : Text) : ¬Straddles before head ('c' :: tail) := by
  rintro ⟨u, v, m, -, hv, ⟨hm, -⟩, hrest⟩
  have hspells := spells_of_match? hm
  obtain ⟨w, hw, hcall, htail⟩ := hspells.divided hrest
  obtain ⟨-, hc, -⟩ := hspells.parts hcall hv hw
  obtain ⟨d, w, rfl⟩ := List.exists_cons_of_ne_nil hw
  obtain ⟨rfl, -⟩ := List.cons.inj htail
  exact hc List.mem_cons_self

/-! ## The call that a cut loses -/

/-- The number of calls of the text `t` after `before`. -/
def countFrom (before t : Text) : Nat :=
  (piecesFrom before t).countP Piece.isCall

theorem count_eq (t : Text) : count t = countFrom [] t :=
  rfl

/-- Plain characters are no calls. -/
@[simp]
theorem countP_map_plain (w : Text) : (w.map Piece.plain).countP Piece.isCall = 0 := by
  induction w with
  | nil => rfl
  | cons c w ih => simp [Piece.isCall]

/-- A text without a parenthesis counts nothing. -/
theorem countFrom_of_paren_notMem {t : Text} (ht : '(' ∉ t) (before : Text) :
    countFrom before t = 0 := by
  rw [countFrom, piecesFrom_of_notMem (fun h => h.mem.1) ht, countP_map_plain]

/-- Where no call straddles the cut, each call belongs to one of the parts. -/
theorem countFrom_append_cut {before head tail : Text} (h : ¬Straddles before head tail) :
    countFrom before (head ++ tail) =
      countFrom before head + countFrom (head.reverse ++ before) tail := by
  simp only [countFrom, piecesFrom_append_cut h, List.countP_append]

/-- A call that straddles the cut belongs to none of the parts. -/
theorem countFrom_straddling {before head tail : Text} (h : Straddles before head tail) :
    countFrom before (head ++ tail) =
      countFrom before head + countFrom (head.reverse ++ before) tail + 1 := by
  obtain ⟨u, v, m, rfl, hv, hcall, hrest⟩ := h
  have hspells := spells_of_match? hcall.1
  obtain ⟨w, hw, hdivided, htail⟩ := hspells.divided hrest
  obtain ⟨hparen, hc, -⟩ := hspells.parts hdivided hv hw
  obtain ⟨token, htoken, -, hopening⟩ := hspells.head
  -- Both the whole call and its first part begin with the `c`, where the text is cut first.
  obtain ⟨v', rfl⟩ : ∃ v', v = 'c' :: v' := by
    obtain ⟨c, v', rfl⟩ := List.exists_cons_of_ne_nil hv
    simp only [htoken, List.cons_append, List.cons.injEq] at hdivided
    exact ⟨v', by rw [hdivided.1]⟩
  -- Before the call the whole and its first part count the same, and the rest of the first part
  -- counts nothing.
  have hwhole : countFrom before (u ++ ('c' :: v' ++ tail)) =
      countFrom before u + countFrom (u.reverse ++ before) ('c' :: v' ++ tail) :=
    countFrom_append_cut (not_straddles_c _ _ _)
  have hfirst : countFrom before (u ++ 'c' :: v') = countFrom before u := by
    rw [countFrom_append_cut (not_straddles_c _ _ _), countFrom_of_paren_notMem hparen,
      Nat.add_zero]
  -- The second part begins with what is left of the call. After it the scan goes on as it does
  -- after the call in the whole.
  have hsame : w.reverse ++ ((u ++ 'c' :: v').reverse ++ before) =
      m.opening.reverse ++ (m.token.reverse ++ (u.reverse ++ before)) := by
    have hreverse := congrArg List.reverse hdivided
    simp only [List.reverse_append] at hreverse
    simp only [List.reverse_append, ← List.append_assoc, hreverse]
  have hsecond : countFrom ((u ++ 'c' :: v').reverse ++ before) tail =
      countFrom (m.opening.reverse ++ (m.token.reverse ++ (u.reverse ++ before))) m.rest := by
    rw [htail, countFrom, piecesFrom_append hc, hsame, List.countP_append, countP_map_plain,
      Nat.zero_add, countFrom]
  -- In the whole the call is counted.
  have hcounted : countFrom (u.reverse ++ before) ('c' :: v' ++ tail) =
      countFrom (m.opening.reverse ++ (m.token.reverse ++ (u.reverse ++ before))) m.rest + 1 := by
    rw [countFrom, piecesFrom_call hcall, piecesFrom_append hopening,
      List.countP_cons_of_pos (by rfl), List.countP_append, countP_map_plain, Nat.zero_add,
      countFrom]
  rw [List.append_assoc, hwhole, hfirst, hsecond, hcounted]
  omega

end LogGuard.Call
