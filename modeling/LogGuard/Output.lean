import LogGuard.Text.Basic

/-!
# Bounded output

What a run prints goes to an `Output`, which may take only so many bytes. It takes what fits; once
something did not fit it has failed, and takes nothing more.
-/

namespace LogGuard

/-- A place that printed text goes to. -/
structure Output where
  /-- The bytes taken so far. -/
  printed : List UInt8 := []
  /-- The number of bytes that can be taken in all, if that is bounded. -/
  limit : Option Nat := none
  /-- Whether something was printed that did not fit. -/
  failed : Bool := false
  deriving DecidableEq, Repr, Inhabited

namespace Output

/-- Prints bytes, of which only those that fit are taken. -/
def printBytes (o : Output) (bytes : List UInt8) : Output :=
  if o.failed then o
  else
    let all := o.printed ++ bytes
    match o.limit with
    | none => { o with printed := all }
    | some n =>
      if all.length ≤ n then { o with printed := all }
      else { o with printed := all.take n, failed := true }

/-- Prints a text. -/
def print (o : Output) (s : String) : Output :=
  o.printBytes s.toByteArray.data.toList

/-- Prints a text and ends the line. -/
def printLine (o : Output) (s : String) : Output :=
  o.print (s ++ "\n")

end Output

end LogGuard
