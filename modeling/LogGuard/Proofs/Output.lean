import LogGuard.Output

/-!
# Printing on an output

An output that has failed stays as it is, whatever is printed on it (`printLine_of_failed`), and one
that has not has taken all of it (`printed_of_open`). One that takes any number of bytes never fails
(`Unbounded`). Texts are printed as bytes that determine
them (`bytes_injective`). What has become of an empty output depends on the bytes that it was given
alone, and not on the texts that they were printed in: it has taken as many of them as it can, and
has failed if that is not all (`given`).
-/

namespace LogGuard.Output

variable {o : Output}

/-- An output that has failed takes nothing more. -/
theorem printLine_of_failed (h : o.failed = true) (s : String) : o.printLine s = o := by
  rw [printLine, print, printBytes, if_pos h]

/-- An output takes all that is printed. -/
structure Unbounded (o : Output) : Prop where
  limit : o.limit = none
  failed : o.failed = false

namespace Unbounded

theorem empty : Output.Unbounded {} :=
  ⟨rfl, rfl⟩

theorem print (h : o.Unbounded) (s : String) : (o.print s).Unbounded := by
  unfold Output.print printBytes
  rw [h.failed, h.limit]
  exact ⟨rfl, rfl⟩

theorem printLine (h : o.Unbounded) (s : String) : (o.printLine s).Unbounded :=
  h.print (s ++ "\n")

end Unbounded

/-- The bytes of a line. -/
def lineBytes (s : String) : List UInt8 :=
  (s ++ "\n").toByteArray.data.toList

/-- An output that has not failed after a line has taken all of it. -/
theorem printed_of_open {s : String} (h : (o.printLine s).failed = false) :
    (o.printLine s).printed = o.printed ++ lineBytes s := by
  unfold printLine print printBytes at h ⊢
  split at h
  · rename_i hfailed
    rw [hfailed] at h
    contradiction
  · rename_i hopen
    rw [if_neg hopen]
    dsimp only at h ⊢
    split at h
    · rfl
    · split at h
      · rename_i hfits
        rw [if_pos hfits]
        rfl
      · contradiction

/-- The bytes that are printed for a text determine it. -/
theorem bytes_injective {s t : String} (h : s.toByteArray.data.toList = t.toByteArray.data.toList) :
    s = t :=
  String.toByteArray_inj.mp (ByteArray.ext (Array.ext' h))

/-- An output with a limit that was given bytes, all in all. -/
def given (limit : Option Nat) (bytes : List UInt8) : Output :=
  match limit with
  | none => ⟨bytes, none, false⟩
  | some n => ⟨bytes.take n, some n, decide (n < bytes.length)⟩

theorem given_nil (limit : Option Nat) : given limit [] = { limit := limit } := by
  cases limit with
  | none => rfl
  | some n => simp [given]

/-- Printing bytes gives them to the output after the others. -/
theorem printBytes_given (limit : Option Nat) (bytes more : List UInt8) :
    (given limit bytes).printBytes more = given limit (bytes ++ more) := by
  cases limit with
  | none => rfl
  | some n =>
    unfold given printBytes
    dsimp only
    by_cases hfailed : n < bytes.length
    · -- The output has failed, and nothing after the first `n` bytes is taken.
      have hlonger : n < (bytes ++ more).length := by
        rw [List.length_append]
        omega
      simp only [hfailed, hlonger, decide_true, if_true]
      rw [List.take_append_of_le_length (by omega)]
    · have htake : bytes.take n = bytes := List.take_of_length_le (by omega)
      simp only [hfailed, decide_false, Bool.false_eq_true, if_false, htake]
      split
      · rename_i hfits
        rw [List.take_of_length_le hfits, decide_eq_false (by omega)]
      · rename_i hlonger
        rw [decide_eq_true (by omega)]

theorem printLine_given (limit : Option Nat) (bytes : List UInt8) (s : String) :
    (given limit bytes).printLine s = given limit (bytes ++ lineBytes s) :=
  printBytes_given limit bytes _

end LogGuard.Output
