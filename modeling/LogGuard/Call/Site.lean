import LogGuard.Call.Pattern

/-!
# Call sites

`Call.pieces` reads a text from left to right and divides it into plain characters and the tokens of
the calls that are to be replaced; a recognised call that does not start an expression stays plain.
The rest is read off the pieces: where the calls stand (`Call.sites`), whether there are any
(`Call.occursIn`), and the text with every token replaced (`Call.replaceAll`).
-/

namespace LogGuard.Call

/-- A stretch of a text that has been searched for calls. -/
inductive Piece where
  /-- A character that is kept. -/
  | plain (c : Char)
  /-- The token of a call that is to be replaced. -/
  | call (method : Method) (token : Text)
  deriving DecidableEq, Repr

namespace Piece

/-- The characters of the text that a piece stands for. -/
def source : Piece → Text
  | .plain c => [c]
  | .call _ token => token

/-- The characters that take the place of a piece: the safe name for a call. -/
def safe : Piece → Text
  | .plain c => [c]
  | .call method _ => method.safeName

/-- Whether a piece is a call. -/
def isCall : Piece → Bool
  | .plain _ => false
  | .call .. => true

end Piece

/-- Divides `rest` into pieces, where `before` is the text in front of it, last character first. A
call is read as a whole, so the search goes on after its parenthesis. -/
def piecesFrom (before rest : Text) : List Piece :=
  match rest with
  | [] => []
  | c :: tail =>
    match _h : match? (c :: tail) with
    | none => .plain c :: piecesFrom (c :: before) tail
    | some m =>
      (if startsExpression before then [.call m.method m.token] else m.token.map .plain) ++
        m.opening.map .plain ++ piecesFrom (m.opening.reverse ++ m.token.reverse ++ before) m.rest
  termination_by rest.length
  decreasing_by
  · simp
  · exact length_rest_lt _h

/-- The pieces of a whole text. -/
def pieces (t : Text) : List Piece :=
  piecesFrom [] t

/-- A call found in a text: its method and the bytes from `start` up to `stop` that its token takes,
the parenthesis not included. -/
structure Site where
  method : Method
  start : Nat
  stop : Nat
  deriving DecidableEq, Repr

/-- The calls among the pieces of a text that begins at byte `offset`. -/
def sitesFrom (offset : Nat) : List Piece → List Site
  | [] => []
  | .plain c :: rest => sitesFrom (offset + c.utf8Size) rest
  | .call method token :: rest =>
    let stop := offset + Text.byteLength token
    ⟨method, offset, stop⟩ :: sitesFrom stop rest

/-- The calls of a text in the order in which they stand. -/
def sites (t : Text) : List Site :=
  sitesFrom 0 (pieces t)

/-- Whether a text holds a call that is to be replaced. -/
def occursIn (t : Text) : Bool :=
  (pieces t).any Piece.isCall

/-- The number of calls of a text. -/
def count (t : Text) : Nat :=
  (pieces t).countP Piece.isCall

/-- The text with the token of every call replaced by its safe name. Arguments, parenthesis and the
white space before it stay as they are. -/
def replaceAll (t : Text) : Text :=
  (pieces t).flatMap Piece.safe

end LogGuard.Call
