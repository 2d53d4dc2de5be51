import LogGuard.Json.Printer
import LogGuard.Proofs.Json.Grammar
import Mathlib.Tactic.SplitIfs

/-!
# What is written of a JSON document

A value without unreadable texts is written to its end (`complete_render`), and what is written is a
document for it by the grammar (`spells_render`). Of any other value nothing is written or a part
that ends with a space, in front of the text that cannot be written (`endsInSpace_render`).
-/

namespace LogGuard.Json

variable {n : Nat} {t : Text} {v w : Written}

/-! ## Pieces -/

namespace Written

@[simp]
theorem complete_ofText (t : Text) : (ofText t).complete = true :=
  rfl

@[simp]
theorem text_ofText (t : Text) : (ofText t).text = t :=
  rfl

/-- All pieces have to be written to their ends. -/
@[simp]
theorem complete_append (v w : Written) : (v ++ w).complete = (v.complete && w.complete) := by
  change (append v w).complete = _
  unfold append
  cases h : v.complete <;> simp [h]

/-- A piece stands after one that was written to its end. -/
theorem text_append (h : v.complete = true) (w : Written) : (v ++ w).text = v.text ++ w.text := by
  change (append v w).text = _
  rw [append, if_pos h]

/-- Nothing stands after a piece that was not written to its end. -/
theorem append_of_incomplete (h : v.complete = false) (w : Written) : v ++ w = v := by
  change append v w = v
  rw [append, h, if_neg (by decide)]

end Written

open Written (complete_append text_append append_of_incomplete)

/-! ## Tokens -/

/-- A line end with an indentation is white space. -/
theorem isSpace_newLine (n : Nat) : IsSpace (newLine n) := by
  intro c hc
  rcases List.mem_cons.mp hc with rfl | hc
  · decide
  · exact .inl (List.eq_of_mem_replicate hc)

theorem isSpace_nil : IsSpace [] :=
  fun _ hc => absurd hc List.not_mem_nil

theorem isSpace_space : IsSpace [' '] :=
  fun _ hc => .inl (List.mem_singleton.mp hc)

/-- The escape of a control by its code point. -/
theorem unit?_hexPair (h : n < 0x20) : unit? ('0' :: '0' :: Text.hexPair n) = some n := by
  revert n
  decide

/-- A character is written in a form that stands for it. -/
theorem standsFor_escape (c : Char) : StandsFor (escape c) c := by
  unfold escape
  simp only [beq_iff_eq]
  split_ifs with hquote hbackslash hlf hcr htab hbs hff hcontrol
  iterate 7
    subst c
    exact .short (by decide)
  · exact .code (unit?_hexPair hcontrol)
  · exact .itself (by omega) hquote hbackslash

/-- A text is written as a string for it. -/
theorem isString_quote (t : Text) : IsString t (quote t) := by
  refine ⟨t.flatMap escape, ?_, rfl⟩
  induction t with
  | nil => exact .nil
  | cons c rest ih => exact .cons (standsFor_escape c) ih

/-- Only zero is written with a zero in front. -/
theorem eq_zero_of_head?_toDigits (h : (Nat.toDigits 10 n).head? = some '0') : n = 0 := by
  induction n using Nat.strongRecOn with
  | ind n ih =>
    rw [Nat.toDigits_eq_if (by decide)] at h
    split at h
    · rename_i hdigit
      have hzero : ∀ m < 10, [m.digitChar].head? = some '0' → m = 0 := by decide
      exact hzero n hdigit h
    · -- The digits begin with those of the tenth part, which is not zero.
      rw [List.head?_append, Option.or_eq_some_iff] at h
      rcases h with hhead | ⟨hnone, -⟩
      · have := ih (n / 10) (by omega) hhead
        omega
      · exact absurd (List.head?_eq_none_iff.mp hnone) Nat.toDigits_ne_nil

/-- A number is written as one. -/
theorem isNumber_repr (n : Nat) : IsNumber n (Nat.repr n).toList := by
  rw [Nat.repr_eq_ofList_toDigits, String.toList_ofList]
  refine ⟨Nat.toDigits_ne_nil, fun c => Nat.isDigit_of_mem_toDigits (by decide) (Nat.le_refl 10),
    fun h => ?_, Nat.ofDigitChars_ten_toDigits⟩
  rw [eq_zero_of_head?_toDigits h]
  rfl

/-! ## Whole documents -/

mutual

/-- A value is written to its end if all its texts can be written. -/
theorem complete_render (n : Nat) (j : Json) : (render n j).complete = j.isReadable := by
  match j with
  | .bool _ | .number _ | .text _ | .unreadable | .array [] | .object [] => rfl
  | .array (j :: rest) =>
    simp [render, isReadable, areReadable, complete_render _ j, complete_renderItems _ rest]
  | .object ((_, j) :: rest) =>
    simp [render, isReadable, haveReadable, complete_render _ j, complete_renderFields _ rest]

theorem complete_renderItems (n : Nat) (items : List Json) :
    (renderItems n items).complete = areReadable items := by
  match items with
  | [] => rfl
  | j :: rest =>
    simp [renderItems, areReadable, complete_render _ j, complete_renderItems _ rest]

theorem complete_renderFields (n : Nat) (fields : List (Text × Json)) :
    (renderFields n fields).complete = haveReadable fields := by
  match fields with
  | [] => rfl
  | (_, j) :: rest =>
    simp [renderFields, haveReadable, complete_render _ j, complete_renderFields _ rest]

end

/-- White space may be added after a field. -/
theorem SpellsField.append_space {name : Text} {j : Json} (h : SpellsField name j t) {s : Text}
    (hs : IsSpace s) : SpellsField name j (t ++ s) := by
  cases h with
  | @intro _ _ w₁ quoted w₂ w₃ t w₄ hw₁ hname hw₂ hw₃ h hw₄ =>
    have happend : IsSpace (w₄ ++ s) := fun c hc =>
      (List.mem_append.mp hc).elim (hw₄ c) (hs c)
    simpa using SpellsField.intro hw₁ hname hw₂ hw₃ h happend

/-- A name and a value are written as a field. -/
theorem spellsField_render (hn : IsSpace (newLine n)) (name : Text) {j : Json}
    (h : Spells j t) : SpellsField name j (newLine n ++ quote name ++ [':', ' '] ++ t) := by
  simpa using SpellsField.intro hn (isString_quote name) isSpace_nil isSpace_space h isSpace_nil

mutual

/-- A value whose texts can be written is written as a document for it. -/
theorem spells_render (n : Nat) (j : Json) (h : j.isReadable = true) :
    Spells j (render n j).text := by
  match j with
  | .bool b => exact .bool b
  | .number m => exact .number (isNumber_repr m)
  | .text t => exact .text (isString_quote t)
  | .array [] => exact .array (.none isSpace_nil)
  | .object [] => exact .object (.none isSpace_nil)
  | .array (j :: rest) =>
    obtain ⟨hj, hrest⟩ : j.isReadable = true ∧ areReadable rest = true := by
      simpa [isReadable, areReadable] using h
    -- The line ends after the opening bracket and before the closing one belong to the items.
    have hitems := spells_renderItems (n + 2) rest hrest (isSpace_newLine (n + 2))
      (spells_render (n + 2) j hj) (isSpace_newLine n)
    rw [render, text_append (by simp [complete_render, complete_renderItems, hj, hrest]),
      text_append (by simp [complete_render, hj]), text_append rfl]
    simpa using Spells.array hitems
  | .object ((name, j) :: rest) =>
    obtain ⟨hj, hrest⟩ : j.isReadable = true ∧ haveReadable rest = true := by
      simpa [isReadable, haveReadable] using h
    have hfields := spells_renderFields (n + 2) rest hrest
      (spellsField_render (isSpace_newLine (n + 2)) name (spells_render (n + 2) j hj))
      (isSpace_newLine n)
    rw [render, text_append (by simp [complete_render, complete_renderFields, hj, hrest]),
      text_append (by simp [complete_render, hj]), text_append rfl]
    simpa using Spells.object hfields

/-- The items after the first one, which the text `t` spells, are written after it. -/
theorem spells_renderItems (n : Nat) (rest : List Json) (h : areReadable rest = true) {j : Json}
    {w t w' : Text} (hw : IsSpace w) (ht : Spells j t) (hw' : IsSpace w') :
    SpellsItems (j :: rest) (w ++ t ++ (renderItems n rest).text ++ w') := by
  match rest with
  | [] => simpa [renderItems] using SpellsItems.last hw ht hw'
  | k :: rest =>
    obtain ⟨hk, hrest⟩ : k.isReadable = true ∧ areReadable rest = true := by
      simpa [areReadable] using h
    -- The comma comes right after the first item, and the line end belongs to the next one.
    have hitems := spells_renderItems n rest hrest (isSpace_newLine n) (spells_render n k hk) hw'
    rw [renderItems, text_append (by simp [complete_render, hk]), text_append rfl]
    simpa using SpellsItems.more hw ht isSpace_nil hitems

/-- The fields after the first one, which the text `t` spells, are written after it. -/
theorem spells_renderFields (n : Nat) (rest : List (Text × Json)) (h : haveReadable rest = true)
    {name : Text} {j : Json} {t w' : Text} (ht : SpellsField name j t) (hw' : IsSpace w') :
    SpellsFields ((name, j) :: rest) (t ++ (renderFields n rest).text ++ w') := by
  match rest with
  | [] => simpa [renderFields] using SpellsFields.last (ht.append_space hw')
  | (next, k) :: rest =>
    obtain ⟨hk, hrest⟩ : k.isReadable = true ∧ haveReadable rest = true := by
      simpa [haveReadable] using h
    have hfields := spells_renderFields n rest hrest
      (spellsField_render (isSpace_newLine n) next (spells_render n k hk)) hw'
    rw [renderFields, text_append (by simp [complete_render, hk]), text_append rfl]
    simpa using SpellsFields.more ht hfields

end

/-! ## Parts of documents -/

/-- Unless it was written to its end, a piece ends with a space. -/
def Written.EndsInSpace (w : Written) : Prop :=
  w.complete = false → w.text.getLast? = some ' '

open Written (EndsInSpace)

theorem endsInSpace_of_complete (h : w.complete = true) : w.EndsInSpace := by
  intro hincomplete
  rw [h] at hincomplete
  contradiction

theorem endsInSpace_append (hv : v.EndsInSpace) (hw : w.EndsInSpace) : (v ++ w).EndsInSpace := by
  cases hcomplete : v.complete with
  | true =>
    intro hincomplete
    rw [complete_append, hcomplete, Bool.true_and] at hincomplete
    rw [text_append hcomplete, List.getLast?_append, hw hincomplete, Option.some_or]
  | false => rwa [append_of_incomplete hcomplete]

theorem getLast?_newLine (n : Nat) : (newLine (n + 1)).getLast? = some ' ' := by
  simp [newLine, List.getLast?_cons, List.getLast?_replicate]

mutual

/-- Whatever cannot be written of a value, what is written ends with a space if it stands after
one. -/
theorem endsInSpace_render (n : Nat) (j : Json) {t : Text} (ht : t.getLast? = some ' ') :
    (.ofText t ++ render n j : Written).EndsInSpace := by
  match j with
  | .bool _ | .number _ | .text _ | .array [] | .object [] => exact endsInSpace_of_complete rfl
  | .unreadable =>
    -- Nothing is written, so what was written ends with the space in front.
    intro _
    rwa [text_append rfl, render, List.append_nil]
  | .array (j :: rest) =>
    rw [render]
    refine endsInSpace_append (endsInSpace_of_complete rfl) ?_
    refine endsInSpace_append (endsInSpace_append ?_ ?_) (endsInSpace_of_complete rfl)
    · exact endsInSpace_render _ j (by rw [List.getLast?_cons, getLast?_newLine]; rfl)
    · exact endsInSpace_renderItems _ rest
  | .object ((name, j) :: rest) =>
    rw [render]
    refine endsInSpace_append (endsInSpace_of_complete rfl) ?_
    refine endsInSpace_append (endsInSpace_append ?_ ?_) (endsInSpace_of_complete rfl)
    · exact endsInSpace_render _ j (by rw [List.getLast?_append]; rfl)
    · exact endsInSpace_renderFields _ rest

theorem endsInSpace_renderItems (n : Nat) (items : List Json) :
    (renderItems (n + 1) items).EndsInSpace := by
  match items with
  | [] => exact endsInSpace_of_complete rfl
  | j :: rest =>
    rw [renderItems]
    refine endsInSpace_append ?_ (endsInSpace_renderItems n rest)
    exact endsInSpace_render _ j (by rw [List.getLast?_cons, getLast?_newLine]; rfl)

theorem endsInSpace_renderFields (n : Nat) (fields : List (Text × Json)) :
    (renderFields (n + 1) fields).EndsInSpace := by
  match fields with
  | [] => exact endsInSpace_of_complete rfl
  | (name, j) :: rest =>
    rw [renderFields]
    refine endsInSpace_append ?_ (endsInSpace_renderFields n rest)
    exact endsInSpace_render _ j (by rw [List.getLast?_append]; rfl)

end

/-- What is written of a value that cannot be written to its end does not end a line. -/
theorem text_render_ne_line {j : Json} (h : j.isReadable = false) (t : Text) :
    (render n j).text ≠ t ++ ['\n'] := by
  intro htext
  -- The value is written after a space, so that this holds for a value of which nothing is written.
  have hspace : [' '].getLast? = some ' ' := rfl
  have hlast := endsInSpace_render n j hspace (by simp [complete_render, h])
  rw [text_append rfl, htext, ← List.append_assoc, List.getLast?_concat] at hlast
  exact absurd hlast (by decide)

end LogGuard.Json
