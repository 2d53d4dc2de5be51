import LogGuard.Proofs.Call.Scan

/-!
# No call is left

A text whose calls have been replaced has no call (`pieces_replaceAll`). A call in the replaced text
would have to lie in the text that was kept: it has no `sa` in it, so it overlaps no safe name
(`match?_replaceFrom`). So it is a call of the original text as well, and there it was not to be
replaced. But then it is not to be replaced in the new text either, since the last letter of a safe
name is that of the method, and hides what stands before it (`sameView_safeName`).
-/

namespace LogGuard.Call

open Unicode

/-- The text `t` with the token of every call replaced, where `before` is the text in front of it,
last character first. -/
def replaceFrom (before t : Text) : Text :=
  (piecesFrom before t).flatMap Piece.safe

@[simp]
theorem replaceFrom_nil (before : Text) : replaceFrom before [] = [] := by
  rw [replaceFrom, piecesFrom, List.flatMap_nil]

/-- Where no call begins, one character is kept. -/
theorem replaceFrom_plain {before : Text} {c : Char} {tail : Text}
    (h : ∀ m, ¬CallAt before (c :: tail) m) :
    replaceFrom before (c :: tail) = c :: replaceFrom (c :: before) tail := by
  rw [replaceFrom, piecesFrom_plain h, List.flatMap_cons]
  rfl

/-- The token of a call gives way to the safe name. -/
theorem replaceFrom_call {before t : Text} {m : Match} (h : CallAt before t m) :
    replaceFrom before t =
      m.method.safeName ++ replaceFrom (m.token.reverse ++ before) (m.opening ++ m.rest) := by
  rw [replaceFrom, piecesFrom_call h, List.flatMap_cons]
  rfl

/-- Characters at which no call begins are kept. -/
theorem replaceFrom_append {w : Text} (hw : 'c' ∉ w) (before t : Text) :
    replaceFrom before (w ++ t) = w ++ replaceFrom (w.reverse ++ before) t := by
  rw [replaceFrom, piecesFrom_append hw, List.flatMap_append, List.flatMap_map]
  simp [Piece.safe, replaceFrom]

/-- Every safe name begins with `sa`. -/
theorem Method.prefix_safeName (method : Method) : "sa".toList <+: method.safeName := by
  cases method <;> decide

/-- A safe name has no `c`. -/
theorem Method.c_notMem_safeName (method : Method) : 'c' ∉ method.safeName := by
  cases method <;> decide

/-- A method and its safe name end with the same letter. -/
theorem Method.exists_last (method : Method) :
    ∃ word safeWord c, method.name = word ++ [c] ∧ method.safeName = safeWord ++ [c] ∧
      isWhiteSpace c = false ∧ isIdentifier c = true := by
  cases method
  · exact ⟨"lo".toList, "safeLo".toList, 'g', by decide⟩
  · exact ⟨"erro".toList, "safeErro".toList, 'r', by decide⟩
  · exact ⟨"war".toList, "safeWar".toList, 'n', by decide⟩

/-- A character that neither a call nor a safe name has is kept wherever it stands. -/
theorem count_replaceFrom {c : Char} (hc : isCallChar c = false)
    (hsafe : ∀ method : Method, c ∉ method.safeName) (before t : Text) :
    (replaceFrom before t).count c = t.count c := by
  induction before, t using scan_induction with
  | nil before => rw [replaceFrom_nil]
  | plain before d tail hplain ih =>
    rw [replaceFrom_plain hplain, List.count_cons, ih, List.count_cons]
  | call before t m hcall ih =>
    have hspells := spells_of_match? hcall.1
    have htoken : c ∉ m.token := fun hmem => by
      have := hspells.isCallChar c (List.mem_append_left m.opening hmem)
      simp [hc] at this
    have hsafe' := List.count_eq_zero.mpr (hsafe m.method)
    have htoken' := List.count_eq_zero.mpr htoken
    rw [replaceFrom_call hcall, List.count_append, ih, hsafe', hspells.text]
    simp only [List.count_append, htoken', Nat.zero_add]

/-! ## Calls of the replaced text lie in kept text -/

/-- The first character of a replaced text is kept unless a safe name begins there. -/
theorem replaceFrom_eq_cons {before t out : Text} {c : Char}
    (h : replaceFrom before t = c :: out) (hsafe : ¬"sa".toList <+: c :: out) :
    ∃ tail, t = c :: tail ∧ out = replaceFrom (c :: before) tail := by
  cases t with
  | nil => simp at h
  | cons d tail =>
    by_cases hcall : ∃ m, CallAt before (d :: tail) m
    · obtain ⟨m, hm⟩ := hcall
      rw [replaceFrom_call hm] at h
      exact absurd (h ▸ m.method.prefix_safeName.trans (List.prefix_append _ _)) hsafe
    · rw [replaceFrom_plain (not_exists.mp hcall), List.cons.injEq] at h
      obtain ⟨rfl, rfl⟩ := h
      exact ⟨tail, rfl, rfl⟩

/-- Text without an `s` is kept text. -/
theorem replaceFrom_eq_append {w : Text} (hw : 's' ∉ w) {before t out : Text}
    (h : replaceFrom before t = w ++ out) :
    ∃ rest, t = w ++ rest ∧ out = replaceFrom (w.reverse ++ before) rest := by
  induction w generalizing before t with
  | nil => exact ⟨t, rfl, h.symm⟩
  | cons c w ih =>
    simp only [List.mem_cons, not_or] at hw
    have hsafe : ¬"sa".toList <+: c :: (w ++ out) := by
      simp [List.cons_prefix_cons, hw.1]
    obtain ⟨tail, rfl, htail⟩ := replaceFrom_eq_cons h hsafe
    obtain ⟨rest, rfl, hrest⟩ := ih hw.2 htail.symm
    exact ⟨rest, rfl, by simp [hrest]⟩

/-- A call of the replaced text stands in the original text. -/
theorem match?_replaceFrom {before t : Text} {m : Match}
    (h : match? (replaceFrom before t) = some m) :
    ∃ rest, match? t = some { m with rest := rest } := by
  have hspells := spells_of_match? h
  obtain ⟨⟨w₁, w₂, h₁, h₂, htoken⟩, ⟨w₃, h₃, hopening⟩, htext⟩ := spells_of_match? h
  have hs : isWhiteSpace 's' = false := by decide
  have hname : 's' ∉ m.method.name := by cases m.method <;> decide
  -- The only `s` of a call is the one in `console`, and an `o` follows it.
  have hsplit : replaceFrom before t = "con".toList ++
      's' :: ("ole".toList ++ w₁ ++ '.' :: w₂ ++ m.method.name ++ w₃ ++ ['('] ++ m.rest) := by
    simp [htext, htoken, hopening]
  obtain ⟨t₁, rfl, h₁'⟩ := replaceFrom_eq_append (by decide) hsplit
  obtain ⟨t₂, rfl, h₂'⟩ := replaceFrom_eq_cons h₁'.symm (by simp [List.cons_prefix_cons])
  obtain ⟨rest, rfl, -⟩ := replaceFrom_eq_append
    (by simp [h₁.notMem hs, h₂.notMem hs, h₃.notMem hs, hname]) h₂'.symm
  exact ⟨rest, match?_of_spells ⟨hspells.token, hspells.opening, by simp [htoken, hopening]⟩⟩

/-! ## The replaced text looks the same -/

/-- After the token of a call a scan sees what it sees after the safe name. -/
theorem sameView_safeName {t : Text} {m : Match} (h : m.Spells t) (before before' : Text) :
    SameView (m.token.reverse ++ before) (m.method.safeName.reverse ++ before') := by
  obtain ⟨⟨w₁, w₂, -, -, htoken⟩, -, -⟩ := h
  obtain ⟨word, safeWord, c, hname, hsafe, hwhite, hid⟩ := m.method.exists_last
  -- Last character first, both begin with the last letter of the method.
  simp only [htoken, hname, hsafe, List.reverse_append, List.reverse_singleton,
    List.cons_append]
  exact sameView_cons (by simp [hwhite]) (by simp [hid]) _ _

/-- Nothing of a replaced text is to be replaced. -/
theorem piecesFrom_replaceFrom {before before' : Text} (h : SameView before before') (t : Text) :
    piecesFrom before' (replaceFrom before t) = (replaceFrom before t).map .plain := by
  induction before, t using scan_induction generalizing before' with
  | nil before => rw [replaceFrom_nil, piecesFrom, List.map_nil]
  | plain before c tail hplain ih =>
    have hout := replaceFrom_plain hplain
    -- A call here would be one of the original text, to be replaced in the same view.
    have hnone : ∀ m, ¬CallAt before' (c :: replaceFrom (c :: before) tail) m := by
      intro m hm
      obtain ⟨hmatch, hstart⟩ := (CallAt.congr h).mpr hm
      rw [← hout] at hmatch
      obtain ⟨rest, hrest⟩ := match?_replaceFrom hmatch
      exact hplain _ ⟨hrest, hstart⟩
    have htail : SameView (c :: before) (c :: before') := h.append [c]
    rw [hout, piecesFrom_plain hnone, ih htail, List.map_cons]
  | call before t m hcall ih =>
    -- No call begins in the safe name, and after it the view is that after the token.
    rw [replaceFrom_call hcall, piecesFrom_append m.method.c_notMem_safeName,
      ih (sameView_safeName (spells_of_match? hcall.1) before before'), List.map_append]

theorem replaceAll_eq (t : Text) : replaceAll t = replaceFrom [] t :=
  rfl

/-- Nothing of a replaced text is to be replaced. -/
theorem pieces_replaceAll (t : Text) : pieces (replaceAll t) = (replaceAll t).map .plain :=
  piecesFrom_replaceFrom (.refl []) t

/-- A text of plain characters has no call. -/
theorem occursIn_eq_false_of_pieces {t : Text} (h : pieces t = t.map .plain) :
    occursIn t = false := by
  simp [occursIn, h, Piece.isCall]

/-- A text without a call has plain characters only. -/
theorem piecesFrom_of_no_call {before t : Text}
    (h : (piecesFrom before t).any Piece.isCall = false) : piecesFrom before t = t.map .plain := by
  induction before, t using scan_induction with
  | nil before => rw [piecesFrom, List.map_nil]
  | plain before c tail hplain ih =>
    rw [piecesFrom_plain hplain] at h ⊢
    rw [ih h, List.map_cons]
  | call before t m hcall ih =>
    rw [piecesFrom_call hcall] at h
    contradiction

/-- A text of plain characters stays as it is. -/
theorem replaceAll_eq_self_of_pieces {t : Text} (h : pieces t = t.map .plain) :
    replaceAll t = t := by
  simp [replaceAll, h, List.flatMap_map, Piece.safe]

/-- A text without a call stays as it is. -/
theorem replaceAll_eq_self {t : Text} (h : occursIn t = false) : replaceAll t = t :=
  replaceAll_eq_self_of_pieces (piecesFrom_of_no_call h)

end LogGuard.Call
