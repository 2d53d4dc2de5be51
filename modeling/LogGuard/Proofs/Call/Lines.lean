import LogGuard.Proofs.Call.Straddling
import Mathlib.Data.List.Infix

/-!
# Calls line by line

Two texts with a line feed between them have the calls of both, unless a call begins in the first
text and ends in the second (`SpansBreak`). No call of the whole text straddles the line feed then
(`SpansBreak.of_straddles`), so that it can be cut there, and the line feed hides from the second
text what stands before it (`pieces_lineFeed`). The calls of the second text are found as many bytes
further on as the first text and the line feed take (`calls_by_line`).
-/

namespace LogGuard.Call

open Text (byteLength)

variable {a b : Text}

/-! ## Calls of two texts -/

/-- The same call in a text that has `n` bytes more in front. -/
def Site.shift (n : Nat) (site : Site) : Site :=
  ⟨site.method, site.start + n, site.stop + n⟩

/-- If a text begins `n` bytes further on, so do its calls. -/
theorem sitesFrom_add (offset n : Nat) (pieces : List Piece) :
    sitesFrom (offset + n) pieces = (sitesFrom offset pieces).map (Site.shift n) := by
  induction pieces generalizing offset with
  | nil => rfl
  | cons piece rest ih =>
    cases piece with
    | plain c => rw [sitesFrom, sitesFrom, ← ih, Nat.add_right_comm]
    | call method token =>
      rw [sitesFrom, sitesFrom, List.map_cons, ← ih, Site.shift, Nat.add_right_comm]

/-- More pieces add their calls, which begin after the text that the first pieces stand for. -/
theorem sitesFrom_append (offset : Nat) (pieces more : List Piece) :
    sitesFrom offset (pieces ++ more) =
      sitesFrom offset pieces ++
        sitesFrom (offset + byteLength (pieces.flatMap Piece.source)) more := by
  induction pieces generalizing offset with
  | nil => rfl
  | cons piece rest ih =>
    cases piece with
    | plain c =>
      rw [List.cons_append, sitesFrom, sitesFrom, ih]
      simp [Piece.source, Nat.add_assoc]
    | call method token =>
      rw [List.cons_append, sitesFrom, sitesFrom, ih]
      simp [Piece.source, Nat.add_assoc]

/-- A text that no call straddles at a line feed is divided as what is before the line feed and what
is after it are. -/
theorem pieces_lineFeed (h : ¬Straddles [] a ('\n' :: b)) :
    pieces (a ++ '\n' :: b) = pieces a ++ .plain '\n' :: pieces b := by
  have hc : 'c' ∉ ['\n'] := by decide
  have hfeed : piecesFrom (a.reverse ++ []) ('\n' :: b) =
      .plain '\n' :: piecesFrom ('\n' :: (a.reverse ++ [])) b := piecesFrom_append hc _ _
  -- The look-behind stops at the line feed.
  have hafter : piecesFrom ('\n' :: (a.reverse ++ [])) b = pieces b :=
    piecesFrom_congr (sameView_lineEnd (by decide) _) b
  calc pieces (a ++ '\n' :: b)
      = pieces a ++ piecesFrom (a.reverse ++ []) ('\n' :: b) := piecesFrom_append_cut h
    _ = pieces a ++ .plain '\n' :: pieces b := by rw [hfeed, hafter]

/-! ## Calls over a line feed -/

/-- The shape of a call begins in `a` and ends in `b`, where a line feed is between the two. -/
def SpansBreak (a b : Text) : Prop :=
  ∃ u v w m, a = u ++ v ∧ v ≠ [] ∧ b = w ++ m.rest ∧ w ≠ [] ∧ Match.Spells m (v ++ '\n' :: b)

/-- Such a call is recognised at one of the places of `a` and leaves less than `b`. -/
theorem spansBreak_iff :
    SpansBreak a b ↔ ∃ v ∈ a.tails, v ≠ [] ∧
      ∃ m ∈ match? (v ++ '\n' :: b), m.rest.length < b.length := by
  constructor
  · rintro ⟨u, v, w, m, rfl, hv, hb, hw, hspells⟩
    have htail : v ∈ (u ++ v).tails := (List.mem_tails _ _).mpr (List.suffix_append u v)
    refine ⟨v, htail, hv, m, match?_of_spells hspells, ?_⟩
    have hpos := List.length_pos_iff.mpr hw
    have hlength := congrArg List.length hb
    rw [List.length_append] at hlength
    omega
  · rintro ⟨v, hmem, hv, m, hmatch, hrest⟩
    obtain ⟨u, rfl⟩ := (List.mem_tails _ _).mp hmem
    have hspells := spells_of_match? hmatch
    have hwhole : m.rest <:+ v ++ '\n' :: b := hspells.text ▸ List.suffix_append _ _
    have hback : b <:+ v ++ '\n' :: b := (List.suffix_cons _ _).trans (List.suffix_append _ _)
    obtain ⟨w, hw⟩ := List.suffix_of_suffix_length_le hwhole hback hrest.le
    refine ⟨u, v, w, m, rfl, hv, hw.symm, ?_, hspells⟩
    rintro rfl
    simp [← hw] at hrest

instance (a b : Text) : Decidable (SpansBreak a b) :=
  decidable_of_iff
    (a.tails.any (fun v => !v.isEmpty &&
      (match? (v ++ '\n' :: b)).any fun m => decide (m.rest.length < b.length)) = true)
    (by rw [spansBreak_iff]; simp [Option.any_eq_true])

/-- A call that straddles the line feed goes on after it, since it ends with a parenthesis. -/
theorem SpansBreak.of_straddles (h : Straddles [] a ('\n' :: b)) : SpansBreak a b := by
  obtain ⟨u, v, m, rfl, hv, hcall, hrest⟩ := h
  have hspells := spells_of_match? hcall.1
  obtain ⟨x, hx, hdivided, htail⟩ := hspells.divided hrest
  obtain ⟨-, -, y, rfl⟩ := hspells.parts hdivided hv hx
  -- After `v` the call goes on with a line feed, which is not its parenthesis.
  cases y with
  | nil => simp at htail
  | cons c w =>
    obtain ⟨-, hb⟩ := List.cons.inj htail
    exact ⟨u, v, w ++ ['('], m, rfl, hv, hb, by simp, hspells⟩

/-- If no call begins in a text and ends in another one on the lines after it, the calls of both
together are those of the first and then those of the second, further on by the bytes of the first
and of the line feed. Replacing the calls of both together replaces them in each. -/
theorem calls_by_line (h : ¬SpansBreak a b) :
    sites (a ++ '\n' :: b) = sites a ++ (sites b).map (Site.shift (byteLength a + 1)) ∧
      replaceAll (a ++ '\n' :: b) = replaceAll a ++ '\n' :: replaceAll b := by
  have hpieces := pieces_lineFeed fun hs => h (.of_straddles hs)
  have hfeed : '\n'.utf8Size = 1 := by decide
  constructor
  · rw [sites, hpieces, sitesFrom_append, sitesFrom, pieces, source_piecesFrom, hfeed,
      Nat.add_assoc, sitesFrom_add]
    rfl
  · rw [replaceAll, hpieces, List.flatMap_append, List.flatMap_cons]
    rfl

/-- A dot and white space at the end of a line hide no call on the next one. -/
theorem calls_by_line_of_dot :
    let a := "import c from 'c'; // The console.\u00a0".toList
    let b := "\u3000console.warn\n(c); console.log(console.error(1))".toList
    ¬SpansBreak a b ∧
      sites (a ++ '\n' :: b) = [⟨.warn, 40, 52⟩, ⟨.log, 58, 69⟩, ⟨.error, 70, 83⟩] ∧
      replaceAll (a ++ '\n' :: b) =
        a ++ '\n' :: "\u3000safeWarn\n(c); safeLog(safeError(1))".toList := by
  intro a b
  have h : ¬SpansBreak a b := by decide +kernel
  obtain ⟨hsites, hreplaced⟩ := calls_by_line h
  refine ⟨h, ?_, ?_⟩
  · rw [hsites]
    decide +kernel
  · rw [hreplaced]
    decide +kernel

example : SpansBreak "console".toList ".log(1)".toList ∧
    sites "console\n.log(1)".toList = [⟨.log, 0, 12⟩] ∧ sites ".log(1)".toList = [] := by
  decide +kernel

end LogGuard.Call
