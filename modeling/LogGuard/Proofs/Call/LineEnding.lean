import LogGuard.Proofs.Call.Scan
import LogGuard.Proofs.Text.Lines

/-!
# Calls under either line ending

Lines end with a line feed alone or with a carriage return in front of it; `Text.crlf` turns the
first form into the second. Both characters are white space, so a call is recognised in the one form
where it is in the other (`match?_crlf`). Both end a line, so the text before a place looks the same
in both forms (`SameView.crlf`). Hence the pieces of the converted text are the converted pieces of
the text (`piecesFrom_crlf`). `calls_crlf` reads off them that the calls are the same, each moved by
the carriage returns in front of it, and that replacing them and converting may be done in either
order.
-/

namespace LogGuard.Text

/-- The text with one more carriage return in front of every line feed. -/
def crlf (t : Text) : Text :=
  t.flatMap fun c => if c = '\n' then ['\r', '\n'] else [c]

/-- The number of line feeds among the characters that begin before the byte `offset`. -/
def lineFeedsBefore : Text → Nat → Nat
  | [], _ => 0
  | c :: t, offset =>
    if offset = 0 then 0
    else (if c = '\n' then 1 else 0) + lineFeedsBefore t (offset - c.utf8Size)

variable {c : Char}

@[simp]
theorem crlf_nil : crlf [] = [] :=
  rfl

theorem crlf_cons_lineFeed (t : Text) : crlf ('\n' :: t) = '\r' :: '\n' :: crlf t :=
  rfl

theorem crlf_cons_of_ne (hc : c ≠ '\n') (t : Text) : crlf (c :: t) = c :: crlf t := by
  rw [crlf, List.flatMap_cons, if_neg hc]
  rfl

theorem crlf_append (s t : Text) : crlf (s ++ t) = crlf s ++ crlf t :=
  List.flatMap_append

/-- A part at the front of a text takes one more byte for each of its line feeds. -/
theorem byteLength_crlf (s t : Text) :
    byteLength (crlf s) = byteLength s + lineFeedsBefore (s ++ t) (byteLength s) := by
  induction s with
  | nil => cases t <;> rfl
  | cons c s ih =>
    have hpos := c.utf8Size_pos
    rw [List.cons_append, lineFeedsBefore, byteLength_cons, if_neg (by omega),
      Nat.add_sub_cancel_left]
    by_cases hc : c = '\n'
    · subst hc
      have hreturn : '\r'.utf8Size = 1 := by decide
      rw [crlf_cons_lineFeed, byteLength_cons, byteLength_cons, ih, hreturn, if_pos rfl]
      omega
    · rw [crlf_cons_of_ne hc, byteLength_cons, ih, if_neg hc]
      omega

end LogGuard.Text

namespace LogGuard.Call

open Unicode
open Text (byteLength IsLine lineFeedsBefore)

variable {before before' : Text} {word : Text}

/-! ## Recognising a call -/

/-- The match of the converted text. -/
def Match.crlf (m : Match) : Match :=
  ⟨m.method, Text.crlf m.token, Text.crlf m.opening, Text.crlf m.rest⟩

/-- A word on one line is found where it was. -/
theorem isPrefixOf?_crlf (hword : IsLine word) (t : Text) :
    word.isPrefixOf? (Text.crlf t) = (word.isPrefixOf? t).map Text.crlf := by
  induction word generalizing t with
  | nil => rfl
  | cons c word ih =>
    obtain ⟨hc, hword⟩ := List.forall_mem_cons.mp hword
    have hreturn : c ≠ '\r' := by rintro rfl; contradiction
    have hfeed : c ≠ '\n' := by rintro rfl; contradiction
    cases t with
    | nil => rfl
    | cons d t =>
      by_cases hd : d = '\n'
      · subst hd
        rw [Text.crlf_cons_lineFeed, isPrefixOf?_cons_cons, isPrefixOf?_cons_cons,
          if_neg (by simpa using hreturn), if_neg (by simpa using hfeed)]
        rfl
      · rw [Text.crlf_cons_of_ne hd, isPrefixOf?_cons_cons, isPrefixOf?_cons_cons, ih hword]
        split <;> rfl

/-- What follows the white space at the front is converted with the text. -/
theorem dropWhile_crlf (t : Text) :
    (Text.crlf t).dropWhile isWhiteSpace = Text.crlf (t.dropWhile isWhiteSpace) := by
  induction t with
  | nil => rfl
  | cons c t ih =>
    by_cases hc : c = '\n'
    · subst hc
      have hreturn := isWhiteSpace_of_isLineEnd (c := '\r') rfl
      have hfeed := isWhiteSpace_of_isLineEnd (c := '\n') rfl
      rw [Text.crlf_cons_lineFeed, List.dropWhile_cons_of_pos hreturn,
        List.dropWhile_cons_of_pos hfeed, List.dropWhile_cons_of_pos hfeed, ih]
    · rw [Text.crlf_cons_of_ne hc, List.dropWhile_cons, List.dropWhile_cons, ih]
      split
      · rfl
      · rw [Text.crlf_cons_of_ne hc]

/-- The white space at the front is converted with the text. -/
theorem takeWhile_crlf (t : Text) :
    (Text.crlf t).takeWhile isWhiteSpace = Text.crlf (t.takeWhile isWhiteSpace) := by
  -- Both stand in front of what is left when the white space is dropped.
  have hboth : (Text.crlf t).takeWhile isWhiteSpace ++ Text.crlf (t.dropWhile isWhiteSpace) =
      Text.crlf (t.takeWhile isWhiteSpace) ++ Text.crlf (t.dropWhile isWhiteSpace) := by
    rw [← Text.crlf_append, List.takeWhile_append_dropWhile, ← dropWhile_crlf,
      List.takeWhile_append_dropWhile]
  exact List.append_cancel_right hboth

theorem method?_crlf (t : Text) :
    method? (Text.crlf t) = (method? t).map (Prod.map id Text.crlf) := by
  have hname (method : Method) : IsLine method.name := by cases method <;> decide
  rw [method?, method?, List.map_findSome?]
  congr 1
  funext method
  rw [isPrefixOf?_crlf (hname method), Option.map_map, Function.comp_apply, Option.map_map]
  rfl

/-- If each of two steps is the same but for a conversion, so are both together. -/
theorem bind_map_eq {α β γ δ : Type} {x : Option α} {f : α → β} {g : β → Option γ}
    {h : α → Option δ} {k : δ → γ} (hstep : ∀ a, g (f a) = (h a).map k) :
    (x.map f).bind g = (x.bind h).map k := by
  cases x with
  | none => rfl
  | some a => exact hstep a

/-- A call is recognised in the converted text where it is in the text. -/
theorem match?_crlf (t : Text) : match? (Text.crlf t) = (match? t).map Match.crlf := by
  have hobject : IsLine "console".toList := by decide
  have hdot : IsLine ['.'] := by decide
  have hparen : IsLine ['('] := by decide
  have hname (method : Method) : Text.crlf method.name = method.name := by cases method <;> rfl
  -- Each part of the call is found where it was, and what it leaves of the text is converted.
  simp only [match?, Option.bind_eq_bind]
  rw [isPrefixOf?_crlf hobject]
  refine bind_map_eq fun afterObject => ?_
  rw [dropWhile_crlf, isPrefixOf?_crlf hdot]
  refine bind_map_eq fun afterDot => ?_
  rw [dropWhile_crlf, method?_crlf]
  refine bind_map_eq fun found => ?_
  obtain ⟨method, afterMethod⟩ := found
  dsimp only [Prod.map_apply, id]
  rw [dropWhile_crlf, isPrefixOf?_crlf hparen]
  refine bind_map_eq fun rest => ?_
  have htoken : Text.crlf ("console".toList ++ afterObject.takeWhile isWhiteSpace ++ '.' ::
      afterDot.takeWhile isWhiteSpace ++ method.name) =
      "console".toList ++ (Text.crlf afterObject).takeWhile isWhiteSpace ++ '.' ::
      (Text.crlf afterDot).takeWhile isWhiteSpace ++ method.name := by
    rw [Text.crlf_append, Text.crlf_append, Text.crlf_append, takeWhile_crlf, takeWhile_crlf,
      hname, Text.crlf_cons_of_ne (by decide)]
    rfl
  have hopening : Text.crlf (afterMethod.takeWhile isWhiteSpace ++ ['(']) =
      (Text.crlf afterMethod).takeWhile isWhiteSpace ++ ['('] := by
    rw [Text.crlf_append, takeWhile_crlf]
    rfl
  rw [Option.map_some, Match.crlf, htoken, hopening]

/-! ## Scanning the converted text -/

/-- After a text everything looks as it does after the converted text. -/
theorem SameView.crlf (h : SameView before before') (w : Text) :
    SameView (w.reverse ++ before) ((Text.crlf w).reverse ++ before') := by
  induction w generalizing before before' with
  | nil => exact h
  | cons c w ih =>
    by_cases hc : c = '\n'
    · subst hc
      -- Nothing in front of a line feed is seen from after it.
      have hend : Text.isLineEnd '\n' = true := by decide
      have hfeed : SameView ('\n' :: before) ('\n' :: '\r' :: before') :=
        (sameView_lineEnd hend _).trans (sameView_lineEnd hend _).symm
      simpa [Text.crlf_cons_lineFeed] using ih hfeed
    · simpa [Text.crlf_cons_of_ne hc] using ih (h.append [c])

/-- The pieces that a piece becomes when the text is converted. -/
def Piece.crlf : Piece → List Piece
  | .plain c => (Text.crlf [c]).map .plain
  | .call method token => [.call method (Text.crlf token)]

/-- The converted text is divided into the converted pieces. -/
theorem piecesFrom_crlf (h : SameView before before') (t : Text) :
    piecesFrom before' (Text.crlf t) = (piecesFrom before t).flatMap Piece.crlf := by
  induction before, t using scan_induction generalizing before' with
  | nil before => rw [Text.crlf_nil, piecesFrom, piecesFrom, List.flatMap_nil]
  | plain before c tail hplain ih =>
    have htail := ih (h.crlf [c])
    rw [piecesFrom_plain hplain, List.flatMap_cons, ← htail]
    by_cases hc : c = '\n'
    · subst hc
      exact piecesFrom_append (w := ['\r', '\n']) (by decide) before' (Text.crlf tail)
    · -- A call of the converted text is one of the text, in the same view.
      have hnone : ∀ m, ¬CallAt before' (c :: Text.crlf tail) m := by
        rintro m ⟨hm, hstart⟩
        rw [← Text.crlf_cons_of_ne hc, match?_crlf, Option.map_eq_some_iff] at hm
        obtain ⟨m', hm', -⟩ := hm
        exact hplain m' ((CallAt.congr h).mpr ⟨hm', hstart⟩)
      have hkept : Text.crlf [c] = [c] := Text.crlf_cons_of_ne hc []
      rw [Text.crlf_cons_of_ne hc, piecesFrom_plain hnone, Piece.crlf, hkept]
      rfl
  | call before t m hcall ih =>
    have hcall' : CallAt before' (Text.crlf t) m.crlf :=
      ⟨by rw [match?_crlf, hcall.1, Option.map_some], ((CallAt.congr h).mp hcall).2⟩
    rw [piecesFrom_call hcall', piecesFrom_call hcall, List.flatMap_cons, ← ih (h.crlf m.token),
      Text.crlf_append]
    rfl

theorem pieces_crlf (t : Text) : pieces (Text.crlf t) = (pieces t).flatMap Piece.crlf :=
  piecesFrom_crlf (.refl []) t

/-! ## The calls and the replaced text -/

/-- The same call when the text `t` is converted: where it starts and where it stops, one more byte
stands in front for each line feed in front. -/
def Site.crlf (t : Text) (site : Site) : Site :=
  ⟨site.method, site.start + lineFeedsBefore t site.start, site.stop + lineFeedsBefore t site.stop⟩

/-- Plain characters are no sites. -/
theorem sitesFrom_plain_append (offset : Nat) (w : Text) (more : List Piece) :
    sitesFrom offset (w.map .plain ++ more) = sitesFrom (offset + byteLength w) more := by
  induction w generalizing offset with
  | nil => rfl
  | cons c w ih =>
    rw [List.map_cons, List.cons_append, sitesFrom, ih, Text.byteLength_cons, Nat.add_assoc]

/-- The calls among the converted pieces are those among the pieces, in the converted text. -/
theorem sitesFrom_crlf (before : Text) (pieces : List Piece) :
    sitesFrom (byteLength (Text.crlf before)) (pieces.flatMap Piece.crlf) =
      (sitesFrom (byteLength before) pieces).map
        (Site.crlf (before ++ pieces.flatMap Piece.source)) := by
  induction pieces generalizing before with
  | nil => rfl
  | cons piece rest ih =>
    have hafter := ih (before ++ piece.source)
    rw [Text.crlf_append, Text.byteLength_append, Text.byteLength_append] at hafter
    rw [List.flatMap_cons, List.flatMap_cons, ← List.append_assoc]
    cases piece with
    | plain c =>
      rw [Piece.crlf, sitesFrom_plain_append, sitesFrom]
      exact hafter
    | call method token =>
      have hstart := Text.byteLength_crlf before (token ++ rest.flatMap Piece.source)
      have hstop := Text.byteLength_crlf (before ++ token) (rest.flatMap Piece.source)
      rw [Text.crlf_append, Text.byteLength_append, Text.byteLength_append] at hstop
      rw [← List.append_assoc] at hstart
      rw [Piece.crlf, List.singleton_append, sitesFrom, sitesFrom, List.map_cons, Site.crlf,
        Piece.source, ← hstart, ← hstop]
      exact congrArg _ hafter

/-- What takes the place of a piece is converted with it. -/
theorem Piece.safe_crlf (piece : Piece) :
    piece.crlf.flatMap Piece.safe = Text.crlf piece.safe := by
  cases piece with
  | plain c =>
    rw [Piece.crlf, List.flatMap_map]
    exact List.flatMap_singleton' _
  | call method token => cases method <;> rfl

/-- A carriage return in front of every line feed changes no call. The converted text has the calls
of the text, one for one and in the same order, of the same methods, each further on by the carriage
returns put in front of it and longer by those put into its token. Replacing the calls of the
converted text gives what converting the replaced text gives. -/
theorem calls_crlf (t : Text) :
    sites (Text.crlf t) = (sites t).map (Site.crlf t) ∧
      replaceAll (Text.crlf t) = Text.crlf (replaceAll t) := by
  constructor
  · have hsites := sitesFrom_crlf [] (pieces t)
    have hsource : (pieces t).flatMap Piece.source = t := source_piecesFrom [] t
    rw [hsource, ← pieces_crlf] at hsites
    exact hsites
  · calc replaceAll (Text.crlf t)
        = (pieces t).flatMap fun piece => piece.crlf.flatMap Piece.safe := by
          rw [replaceAll, pieces_crlf, List.flatMap_assoc]
      _ = (pieces t).flatMap fun piece => Text.crlf piece.safe := by
          simp only [Piece.safe_crlf]
      _ = Text.crlf (replaceAll t) := by
          rw [replaceAll, Text.crlf, List.flatMap_assoc]
          rfl

example : sites (Text.crlf "é.\nconsole\n.log(\nconsole.warn(1))".toList) =
    [⟨.log, 5, 18⟩, ⟨.warn, 21, 33⟩] := by
  decide +kernel

end LogGuard.Call
