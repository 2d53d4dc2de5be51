import LogGuard.Proofs.Import.Anchor
import Mathlib.Data.List.Chain

/-!
# Line ends around an inserted line

A text is `Crlf` if each of its line feeds comes after a carriage return. `crlf_insert?_iff` says
when it still is with an inserted line: unless the anchor is the end of the text, behind a line that
has not ended. How this line is to end is read off its last character and not off the lines before
it, so that it ends with a line feed alone (`not_crlf_after_open_line`).
-/

namespace LogGuard.Import

open Text (byteLength)

variable {t line front tail out : Text}

/-- Every line feed of the text comes after a carriage return. -/
def Crlf (t : Text) : Prop :=
  ∀ front rest, t = front ++ '\n' :: rest → front.getLast? = some '\r'

/-- In a text with no bare line feed, a character that a line feed follows is a carriage return.
The line feed in front stands for the beginning of the text, after which none may come. -/
theorem crlf_iff_isChain :
    Crlf t ↔ ('\n' :: t).IsChain fun c d => d = '\n' → c = '\r' := by
  rw [List.isChain_iff_forall_rel_of_append_cons_cons]
  constructor
  · rintro h c d front rest ht rfl
    cases front with
    | nil =>
      obtain ⟨-, rfl⟩ := List.cons.inj ht
      simpa using h [] rest rfl
    | cons e front =>
      obtain ⟨-, rfl⟩ := List.cons.inj ht
      simpa using h (front ++ [c]) rest (by simp)
  · rintro h front rest rfl
    rcases List.eq_nil_or_concat' front with rfl | ⟨front, c, rfl⟩
    · have hfirst : '\n' :: ([] ++ '\n' :: rest) = [] ++ '\n' :: '\n' :: rest := rfl
      exact absurd (h hfirst rfl) (by decide)
    · have hsplit : '\n' :: (front ++ [c] ++ '\n' :: rest) =
          '\n' :: front ++ c :: '\n' :: rest := by
        simp
      rw [h hsplit rfl, List.getLast?_concat]

instance (t : Text) : Decidable (Crlf t) :=
  decidable_of_iff _ crlf_iff_isChain.symm

/-- A line between two carriage returns leaves the line feeds as they are. -/
theorem Crlf.insert_line (h : Crlf (front ++ '\r' :: tail)) (hline : '\n' ∉ line) :
    Crlf (front ++ ['\r', '\n'] ++ line ++ '\r' :: tail) := by
  rw [crlf_iff_isChain] at h ⊢
  rw [← List.cons_append, List.isChain_split] at h
  obtain ⟨hfront, htail⟩ := h
  have hrest (c : Char) : (c :: (line ++ '\r' :: tail)).IsChain fun c d => d = '\n' → c = '\r' := by
    induction line generalizing c with
    | nil => exact htail.cons_cons nofun
    | cons d line ih =>
      rw [List.mem_cons, not_or] at hline
      exact (ih hline.2 d).cons_cons fun hd => absurd hd.symm hline.1
  have hbreak : ('\n' :: front ++ '\r' :: '\n' :: (line ++ '\r' :: tail)).IsChain
      fun c d => d = '\n' → c = '\r' :=
    List.isChain_append_cons_cons.mpr ⟨hfront, fun _ => rfl, hrest '\n'⟩
  simpa using hbreak

/-- A line inserted into a text whose line feeds all come after carriage returns leaves it so
exactly unless it goes to the end of the text, behind a line that does not end in a carriage return.
-/
theorem crlf_insert?_iff (h : insert? t line = some out) (ht : Crlf t) (hline : '\n' ∉ line) :
    Crlf out ↔ (anchorOffset? t = some (byteLength t) → t.getLast? = some '\r') := by
  obtain ⟨head, tail, hanchor, hout⟩ := insert?_spec h
  obtain ⟨rfl, htail⟩ := anchor?_spec hanchor
  have hoffset : anchorOffset? (head ++ tail) = some (byteLength head) := by
    rw [anchorOffset?, hanchor, Option.map_some]
  rw [hoffset]
  rcases hout with ⟨hlast, rfl⟩ | ⟨front, rfl, rfl⟩
  · -- The inserted line feed comes after the last character of `head`.
    have hbare : ¬Crlf (head ++ ['\n'] ++ line ++ tail) := fun hcrlf =>
      hlast (hcrlf head (line ++ tail) (by simp))
    rcases htail with rfl | ⟨rest, rfl⟩
    · simp only [List.append_nil] at hbare ⊢
      exact iff_of_false hbare fun hend => hlast (hend trivial)
    · exact absurd (ht head rest rfl) hlast
  · have hcrlf : Crlf (front ++ ['\r', '\n'] ++ line ++ '\r' :: tail) :=
      Crlf.insert_line (by simpa using ht) hline
    refine iff_of_true hcrlf fun hend => ?_
    have hempty : byteLength tail = 0 := by simpa using hend
    cases tail with
    | nil => simp
    | cons c tail => simp [(Char.utf8Size_pos c).ne'] at hempty

/-- Between lines that end with a carriage return and a line feed, so does the inserted one. -/
theorem crlf_insert?_iff_of_closed_line :
    insert? "import a from 'a';\r\nrun();\r\n".toList "import b from 'b';".toList =
      some "import a from 'a';\r\nimport b from 'b';\r\nrun();\r\n".toList ∧
    Crlf "import a from 'a';\r\nrun();\r\n".toList ∧ '\n' ∉ "import b from 'b';".toList ∧
    Crlf "import a from 'a';\r\nimport b from 'b';\r\nrun();\r\n".toList := by
  have hinsert : insert? "import a from 'a';\r\nrun();\r\n".toList "import b from 'b';".toList =
      some "import a from 'a';\r\nimport b from 'b';\r\nrun();\r\n".toList := by
    decide +kernel
  have ht : Crlf "import a from 'a';\r\nrun();\r\n".toList := by decide
  have hline : '\n' ∉ "import b from 'b';".toList := by decide
  have hoffset : anchorOffset? "import a from 'a';\r\nrun();\r\n".toList = some 19 := by
    decide +kernel
  refine ⟨hinsert, ht, hline, (crlf_insert?_iff hinsert ht hline).mpr fun hend => ?_⟩
  rw [hoffset] at hend
  contradiction

/-- After a last line that has not ended, the inserted line comes after a bare line feed, although
the line before ends with a carriage return and a line feed. -/
theorem not_crlf_after_open_line :
    Crlf "// a\r\nimport a from 'a';".toList ∧ '\n' ∈ "// a\r\nimport a from 'a';".toList ∧
    '\n' ∉ "import b from 'b';".toList ∧
    insert? "// a\r\nimport a from 'a';".toList "import b from 'b';".toList =
      some "// a\r\nimport a from 'a';\nimport b from 'b';".toList ∧
    ¬Crlf "// a\r\nimport a from 'a';\nimport b from 'b';".toList := by
  decide +kernel

end LogGuard.Import
