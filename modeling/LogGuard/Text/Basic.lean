/-!
# Text

Source text is the list of its characters (`Text`). Positions are offsets in the UTF-8 encoding, so
the offset of a place in a text is the `byteLength` of what stands before it.
-/

namespace LogGuard

/-- Source text as the list of its characters. -/
abbrev Text := List Char

namespace Text

/-- The number of bytes of the UTF-8 encoding. -/
def byteLength : Text → Nat
  | [] => 0
  | c :: rest => c.utf8Size + byteLength rest

/-- Whether `needle` occurs in the text as a run of consecutive characters. -/
def mentions (needle : Text) : Text → Bool
  | [] => needle.isEmpty
  | c :: rest => needle.isPrefixOf (c :: rest) || mentions needle rest

/-- The characters that end a line. -/
def isLineEnd (c : Char) : Bool :=
  c == '\n' || c == '\r'

theorem isLineEnd_iff {c : Char} : isLineEnd c = true ↔ c = '\n' ∨ c = '\r' := by
  simp [isLineEnd]

@[simp]
theorem byteLength_nil : byteLength [] = 0 :=
  rfl

@[simp]
theorem byteLength_cons (c : Char) (t : Text) : byteLength (c :: t) = c.utf8Size + byteLength t :=
  rfl

@[simp]
theorem byteLength_append (s t : Text) : byteLength (s ++ t) = byteLength s + byteLength t := by
  induction s with
  | nil => simp
  | cons c s ih => simp [ih, Nat.add_assoc]

/-- A part at the front of a text takes no more bytes than the text. -/
theorem byteLength_mono {s t : Text} (h : s <+: t) : byteLength s ≤ byteLength t := by
  obtain ⟨w, rfl⟩ := h
  rw [byteLength_append]
  exact Nat.le_add_right _ _

/-- Of two parts at the front of a text, the one with fewer bytes is at the front of the other. -/
theorem prefix_of_byteLength_le {s s' t : Text} (h : s <+: t) (h' : s' <+: t)
    (hlength : byteLength s ≤ byteLength s') : s <+: s' := by
  rcases List.prefix_or_prefix_of_prefix h h' with hshort | ⟨w, rfl⟩
  · exact hshort
  · cases w with
    | nil => simp
    | cons c w =>
      have hpos := c.utf8Size_pos
      rw [byteLength_append, byteLength_cons] at hlength
      omega

end Text

end LogGuard
