import LogGuard.Proofs.Call.Scan
import Mathlib.Data.List.Basic

/-!
# Where calls are found

The calls found in a text are the occurrences of their shape at which an expression starts: no other
call begins inside a call, so that a scan that goes on after each call misses none
(`mem_sitesFrom_iff`). Whether an expression starts is decided by the end of the text before it
(`startsExpression_reverse_iff`). It does not after a name, nor after a dot with white space on the
same line. It does not after any other character either if that one follows such a dot, as the
parenthesis in `f?.(console.log(x))` does (`EndsInHiddenDot`), so that this call is not found
(`found_iff`).
-/

namespace LogGuard.Call

open Unicode
open Text (byteLength byteLength_cons byteLength_append)

variable {before t rest : Text} {m : Match} {c : Char}

/-- The text ends with a character of a name. -/
def EndsInIdentifier (t : Text) : Prop :=
  ∃ c ∈ t.getLast?, isIdentifier c = true

/-- The last character on the last line of the text, white space left aside, is a dot. -/
def EndsInDot (t : Text) : Prop :=
  ∃ front w, t = front ++ '.' :: w ∧
    ∀ c ∈ w, isWhiteSpace c = true ∧ Text.isLineEnd c = false

/-- The text ends with a character that is no white space, and what stands before that one ends with
a dot. -/
def EndsInHiddenDot (t : Text) : Prop :=
  ∃ c ∈ t.getLast?, isWhiteSpace c = false ∧ EndsInDot t.dropLast

/-! ## The text before a call -/

/-- The search backwards for the last character on a line finds a dot if the text ends in one. -/
theorem find?_reverse_eq_dot_iff :
    t.reverse.find? (fun d => Text.isLineEnd d || !isWhiteSpace d) = some '.' ↔ EndsInDot t := by
  rw [List.find?_eq_some_iff_append]
  constructor
  · rintro ⟨-, w, front, hreverse, hw⟩
    refine ⟨front.reverse, w.reverse, ?_, fun c hc => ?_⟩
    · rw [← List.reverse_reverse t, hreverse]
      simp
    · have hskipped := hw c (List.mem_reverse.mp hc)
      simp only [Bool.not_or, Bool.not_not, Bool.and_eq_true, Bool.not_eq_true'] at hskipped
      exact hskipped.symm
  · rintro ⟨front, w, rfl, hw⟩
    refine ⟨by decide, w.reverse, front.reverse, by simp, fun c hc => ?_⟩
    obtain ⟨hwhite, hend⟩ := hw c (List.mem_reverse.mp hc)
    simp [hwhite, hend]

instance (t : Text) : Decidable (EndsInIdentifier t) :=
  decidable_of_iff (t.getLast?.any isIdentifier = true)
    (by simp [EndsInIdentifier, Option.any_eq_true])

instance (t : Text) : Decidable (EndsInDot t) :=
  decidable_of_iff _ find?_reverse_eq_dot_iff

instance (t : Text) : Decidable (EndsInHiddenDot t) :=
  decidable_of_iff
    (t.getLast?.any (fun c => !isWhiteSpace c && decide (EndsInDot t.dropLast)) = true)
    (by simp [EndsInHiddenDot, Option.any_eq_true])

/-- A text ends in a dot if its last character is one, or if that is white space on the line of
one. -/
theorem endsInDot_concat :
    EndsInDot (t ++ [c]) ↔
      c = '.' ∨ isWhiteSpace c = true ∧ Text.isLineEnd c = false ∧ EndsInDot t := by
  rw [← find?_reverse_eq_dot_iff, ← find?_reverse_eq_dot_iff, List.reverse_append,
    List.reverse_singleton, List.singleton_append, List.find?_cons]
  split
  · rename_i hstop
    rw [Option.some.injEq]
    refine ⟨.inl, fun h => h.resolve_right ?_⟩
    rintro ⟨hwhite, hend, -⟩
    simp [hwhite, hend] at hstop
  · rename_i hgo
    simp only [Bool.or_eq_false_iff, Bool.not_eq_false'] at hgo
    rw [← and_assoc, and_iff_right hgo.symm, or_iff_right]
    rintro rfl
    exact absurd hgo.2 (by decide)

/-- An expression starts after a text that ends neither in a name nor in a dot nor in a hidden
dot. -/
theorem startsExpression_reverse_iff (before : Text) :
    startsExpression before.reverse = true ↔
      ¬EndsInIdentifier before ∧ ¬EndsInDot before ∧ ¬EndsInHiddenDot before := by
  rcases List.eq_nil_or_concat' before with rfl | ⟨front, c, rfl⟩
  · simp [startsExpression, EndsInIdentifier, EndsInDot, EndsInHiddenDot]
  · have hidentifier : EndsInIdentifier (front ++ [c]) ↔ isIdentifier c = true := by
      simp [EndsInIdentifier]
    have hhidden : EndsInHiddenDot (front ++ [c]) ↔ isWhiteSpace c = false ∧ EndsInDot front := by
      simp [EndsInHiddenDot]
    rw [hidentifier, endsInDot_concat, hhidden, List.reverse_append, List.reverse_singleton,
      List.singleton_append, startsExpression]
    split
    · rename_i hstop
      simp only [Bool.or_eq_true, beq_iff_eq] at hstop
      simp only [Bool.false_eq_true, false_iff]
      rintro ⟨hname, hdot, -⟩
      exact hstop.elim hname fun h => hdot (.inl h)
    · rename_i hgo
      simp only [Bool.or_eq_true, beq_iff_eq, not_or] at hgo
      split
      · -- A line end is white space, and hides whatever stands before it.
        rename_i hend
        have hwhite := isWhiteSpace_of_isLineEnd hend
        simp [hgo, hend, hwhite]
      · rename_i hend
        rw [bne_iff_ne, ne_eq, find?_reverse_eq_dot_iff]
        cases hwhite : isWhiteSpace c <;> simp [hgo, hend]

/-! ## The calls of a text -/

/-- No call begins after the first character of a token, so that a text that is cut at a call has
the whole token before the cut or is not cut in it at all. -/
theorem exists_of_callAt_append {w u : Text} (hw : 'c' ∉ w) {m : Match}
    (h : w ++ t = u ++ rest) (hcall : match? rest = some m) :
    ∃ v, u = w ++ v ∧ t = v ++ rest := by
  rcases List.append_eq_append_iff.mp h with ⟨v, hu, ht⟩ | ⟨v, hw', hrest⟩
  · exact ⟨v, hu, ht⟩
  · obtain ⟨token, htoken, -, -⟩ := (spells_of_match? hcall).head
    have htext := (spells_of_match? hcall).text
    rw [htoken, hrest] at htext
    cases v with
    | nil => exact ⟨[], by simpa using hw'.symm, by simpa using hrest.symm⟩
    | cons c v =>
      simp only [List.cons_append, List.cons.injEq] at htext
      simp [hw', htext.1] at hw

/-- The calls found in a text are those at the cuts where a call begins. -/
theorem mem_sitesFrom_iff (offset : Nat) (before t : Text) (site : Site) :
    site ∈ sitesFrom offset (piecesFrom before t) ↔
      ∃ u rest m, t = u ++ rest ∧ CallAt (u.reverse ++ before) rest m ∧
        site = ⟨m.method, offset + byteLength u, offset + byteLength u + byteLength m.token⟩ := by
  induction before, t using scan_induction generalizing offset with
  | nil before =>
    rw [piecesFrom]
    simp only [sitesFrom, List.not_mem_nil, false_iff]
    rintro ⟨u, rest, m, htext, ⟨hmatch, -⟩, -⟩
    obtain rfl : rest = [] := (List.append_eq_nil_iff.mp htext.symm).2
    contradiction
  | plain before c tail hplain ih =>
    rw [piecesFrom_plain hplain, sitesFrom, ih]
    constructor
    · rintro ⟨u, rest, m, rfl, hcall, rfl⟩
      exact ⟨c :: u, rest, m, rfl, by simpa using hcall, by simp [Nat.add_assoc]⟩
    · rintro ⟨u, rest, m, htext, hcall, rfl⟩
      cases u with
      | nil => exact absurd (htext ▸ hcall) (hplain m)
      | cons d u =>
        obtain ⟨rfl, rfl⟩ := List.cons.inj htext
        exact ⟨u, rest, m, rfl, by simpa using hcall, by simp [Nat.add_assoc]⟩
  | call before t m hcall ih =>
    have htext : t = m.token ++ (m.opening ++ m.rest) := by
      simpa using (spells_of_match? hcall.1).text
    obtain ⟨token, htoken, hc, -⟩ := (spells_of_match? hcall.1).head
    rw [piecesFrom_call hcall, sitesFrom, List.mem_cons, ih]
    constructor
    · rintro (rfl | ⟨u, rest, m', hrest, hcall', rfl⟩)
      · exact ⟨[], t, m, rfl, hcall, by simp⟩
      · refine ⟨m.token ++ u, rest, m', by rw [htext, hrest, List.append_assoc], ?_, ?_⟩
        · simpa using hcall'
        · simp [Nat.add_assoc]
    · rintro ⟨u, rest, m', hcut, hcall', rfl⟩
      cases u with
      | nil =>
        -- At the front of the text there is one call only.
        obtain rfl : t = rest := hcut
        obtain rfl : m = m' := Option.some.inj (hcall.1.symm.trans hcall'.1)
        exact .inl (by simp)
      | cons d u =>
        rw [htext, htoken] at hcut
        obtain ⟨rfl, htail⟩ := List.cons.inj hcut
        obtain ⟨v, rfl, hrest⟩ := exists_of_callAt_append hc htail hcall'.1
        refine .inr ⟨v, rest, m', hrest, ?_, ?_⟩
        · simpa [htoken] using hcall'
        · simp [htoken, Nat.add_assoc]

/-- The calls found in a whole text. -/
theorem mem_sites_iff (t : Text) (site : Site) :
    site ∈ sites t ↔ ∃ u rest m, t = u ++ rest ∧ CallAt u.reverse rest m ∧
      site = ⟨m.method, byteLength u, byteLength u + byteLength m.token⟩ := by
  rw [sites, pieces, mem_sitesFrom_iff]
  simp only [List.append_nil, Nat.zero_add]

/-- A text is determined by its length among the front parts of a text. -/
theorem eq_of_byteLength_eq {u rest' : Text} (h : before ++ rest = u ++ rest')
    (hlength : byteLength before = byteLength u) : before = u := by
  induction before generalizing u with
  | nil =>
    cases u with
    | nil => rfl
    | cons c u =>
      have hpos := c.utf8Size_pos
      rw [Text.byteLength_nil, byteLength_cons] at hlength
      omega
  | cons c before ih =>
    cases u with
    | nil =>
      have hpos := c.utf8Size_pos
      rw [Text.byteLength_nil, byteLength_cons] at hlength
      omega
    | cons d u =>
      obtain ⟨rfl, htail⟩ := List.cons.inj h
      rw [byteLength_cons, byteLength_cons, Nat.add_left_cancel_iff] at hlength
      rw [ih htail hlength]

/-- Where the shape of a call occurs in a text, the call is found there, with its method and token,
exactly if what stands before it ends neither in a name nor in a dot on the same line nor in another
character after such a dot. Nothing else is found at this place. -/
theorem found_iff (h : m.Spells rest) (before : Text) :
    let found := sites (before ++ rest)
    let site : Site := ⟨m.method, byteLength before, byteLength (before ++ m.token)⟩
    (site ∈ found ↔
        ¬EndsInIdentifier before ∧ ¬EndsInDot before ∧ ¬EndsInHiddenDot before) ∧
      ∀ other ∈ found, other.start = byteLength before → other = site := by
  intro found site
  -- The only call that can be found at this place is the one that occurs there.
  have hhere : ∀ other ∈ found, other.start = byteLength before →
      other = site ∧ startsExpression before.reverse = true := by
    intro other hother hstart
    obtain ⟨u, rest', m', hcut, ⟨hmatch, hstarts⟩, rfl⟩ := (mem_sites_iff _ other).mp hother
    obtain rfl := eq_of_byteLength_eq hcut hstart.symm
    obtain rfl := List.append_cancel_left hcut
    obtain rfl : m = m' := Option.some.inj ((match?_of_spells h).symm.trans hmatch)
    exact ⟨by simp [site], hstarts⟩
  refine ⟨?_, fun other hother hstart => (hhere other hother hstart).1⟩
  rw [← startsExpression_reverse_iff]
  constructor
  · exact fun hfound => (hhere site hfound rfl).2
  · intro hstarts
    refine (mem_sites_iff _ site).mpr ⟨before, rest, m, rfl, ⟨match?_of_spells h, hstarts⟩, ?_⟩
    simp [site]

/-- A call with a line end in it is found after a parenthesis, since the dot before the parenthesis
ends another line. -/
theorem found_iff_of_parenthesis :
    let before := "// Done.\nf(".toList
    let rest := "console\n  .warn (x))".toList
    let m : Match := ⟨.warn, "console\n  .warn".toList, " (".toList, "x))".toList⟩
    m.Spells rest ∧ ¬EndsInIdentifier before ∧ ¬EndsInDot before ∧ ¬EndsInHiddenDot before ∧
      ⟨.warn, 11, 26⟩ ∈ sites (before ++ rest) := by
  intro before rest m
  have hspells : m.Spells rest := spells_of_match? (by rfl)
  have hstarts : ¬EndsInIdentifier before ∧ ¬EndsInDot before ∧ ¬EndsInHiddenDot before := by
    decide +kernel
  exact ⟨hspells, hstarts.1, hstarts.2.1, hstarts.2.2, (found_iff hspells before).1.mpr hstarts⟩

/-- A call in the arguments of an optional call is not found, although the last character before it
is the parenthesis. -/
theorem hidden_call :
    let before := "cb?.(".toList
    let rest := "console.log(x))".toList
    (∃ m : Match, m.Spells rest) ∧ ¬EndsInIdentifier before ∧ ¬EndsInDot before ∧
      sites (before ++ rest) = [] ∧ replaceAll (before ++ rest) = before ++ rest := by
  intro before rest
  have hspells : ∃ m : Match, m.Spells rest :=
    ⟨⟨.log, "console.log".toList, "(".toList, "x))".toList⟩, spells_of_match? (by rfl)⟩
  exact ⟨hspells, by decide +kernel⟩

end LogGuard.Call
