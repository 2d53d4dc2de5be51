import LogGuard.Proofs.Import.Intact
import LogGuard.Proofs.Import.LastImport

/-!
# Imports inserted one after the other

An import that is put at the anchor begins a line, and the recogniser reads it to its end
(`declaration?_declarationText_append`). A declaration that begins on an earlier line ends before it
or, if it runs over it, where it ends (`Declares.around`). None begins on a later line, since the
anchor was behind the last one (`not_declares_after_anchor`). So the import is the last one now, and
the end of its line is the new anchor (`anchor?_inserted`). Imports that are inserted one after the
other stand on consecutive lines in this order (`inserted_in_order`).
-/

namespace LogGuard.Import

open Call
open Text (byteLength)

variable {t head tail line written rest after : Text} {b : Bool}

/-- The carriage return that ends the text, if there is one. -/
def carriageReturn (head : Text) : Text :=
  if head.getLast? == some '\r' then ['\r'] else []

/-- The import from a specifier on a line of its own: a line feed comes before it, and `ending` is
what stands at the end of the line before the next line feed. -/
def importLine (ending specifier : Text) : Text :=
  '\n' :: declarationText specifier ++ ending

/-- Inserts the imports from several specifiers one after the other. -/
def insertAll? (t : Text) (specifiers : List Text) : Option Text :=
  specifiers.foldlM (fun t specifier => insert? t (declarationText specifier)) t

/-! ## The line end of an inserted line -/

/-- A text ends with a carriage return or not. -/
theorem carriageReturn_cases (head : Text) :
    (head.getLast? ≠ some '\r' ∧ carriageReturn head = []) ∨
      ∃ front, head = front ++ ['\r'] ∧ carriageReturn head = ['\r'] := by
  by_cases hlast : head.getLast? = some '\r'
  · obtain ⟨front, rfl⟩ := List.getLast?_eq_some_iff.mp hlast
    exact .inr ⟨front, rfl, if_pos (beq_iff_eq.mpr hlast)⟩
  · exact .inl ⟨hlast, if_neg (mt beq_iff_eq.mp hlast)⟩

theorem lineFeed_notMem_carriageReturn (head : Text) : '\n' ∉ carriageReturn head := by
  rcases carriageReturn_cases head with ⟨-, hnone⟩ | ⟨-, -, hsome⟩
  · simp [hnone]
  · simp [hsome]

theorem carriageReturn_suffix (head tail : Text) :
    carriageReturn head ++ tail <:+ head ++ tail := by
  rcases carriageReturn_cases head with ⟨-, hnone⟩ | ⟨front, rfl, hsome⟩
  · rw [hnone]
    exact List.suffix_append head tail
  · rw [hsome, List.append_assoc]
    exact List.suffix_append front _

/-- An inserted line ends as the line before it does. -/
theorem carriageReturn_importLine (head specifier : Text) :
    carriageReturn (head ++ importLine (carriageReturn head) specifier) = carriageReturn head := by
  rcases carriageReturn_cases head with ⟨-, hnone⟩ | ⟨front, -, hsome⟩
  · obtain ⟨front, hline⟩ : ∃ front, importLine [] specifier = front ++ [';'] := by
      unfold importLine declarationText
      generalize safeNames = names
      exact ⟨'\n' :: ("import \x7b ".toList ++ names ++ " \x7d from '".toList ++ specifier ++
        ['\'']), by simp⟩
    rw [hnone, hline, carriageReturn, ← List.append_assoc, List.getLast?_concat]
    rfl
  · rw [hsome, carriageReturn, importLine, ← List.append_assoc, List.getLast?_concat]
    rfl

/-- What comes after an inserted line feed. -/
theorem append_importLine (head ending specifier tail : Text) :
    head ++ importLine ending specifier ++ tail =
      head ++ '\n' :: (declarationText specifier ++ (ending ++ tail)) := by
  simp [importLine]

/-- An import is put on a line of its own at the anchor, which ends as the line before it. -/
theorem insert?_of_anchor? (h : anchor? t = some (head, tail)) (specifier : Text) :
    insert? t (declarationText specifier) =
      some (head ++ importLine (carriageReturn head) specifier ++ tail) := by
  rw [append_importLine, insert?, h, Option.map_some]
  rcases carriageReturn_cases head with ⟨hlast, hnone⟩ | ⟨front, rfl, hsome⟩
  · simp [hlast, hnone]
  · simp [hsome]

/-! ## Declarations around an inserted one -/

theorem EndsLine.of_append {front : Text} (h : EndsLine (front ++ t)) : EndsLine t := by
  induction front with
  | nil => exact h
  | cons c front ih => exact ih (endsLine_cons.mp h).1

/-- A declaration of a text with a line that begins with a declaration ends where that one does, or
it begins on a later line, or it ends before that line. -/
theorem Declares.around {front : Text} (h : Declares b (front ++ '\n' :: line) rest)
    (hline : declaration? line = some after) :
    rest = after ∨ Declares false after rest ∨ ∃ w, rest = w ++ '\n' :: line := by
  obtain ⟨u, ⟨before, hsplit, hends, -⟩, hrest⟩ := h
  have hearlier (x : Text) (hu : u = x ++ '\n' :: line) :
      rest = after ∨ Declares false after rest ∨ ∃ w, rest = w ++ '\n' :: line := by
    rcases declaration?_of_line hrest hu with hbefore | hsame
    · exact .inr (.inr hbefore)
    · exact .inl (hsame after hline).symm
  rcases List.append_eq_append_iff.mp hsplit with ⟨x, rfl, hx⟩ | ⟨x, -, hu⟩
  · cases x with
    | nil => exact hearlier [] hx.symm
    | cons c x =>
      -- The declaration begins on the line or on a later one.
      rw [List.cons_append, List.cons.injEq] at hx
      have hbegins : BeginsLine true line u :=
        ⟨x, hx.2, (endsLine_cons.mp hends.of_append).1, fun _ => rfl⟩
      rcases Declares.after ⟨u, hbegins, hrest⟩ hline with heq | hafter
      · exact .inl heq
      · exact .inr (.inl hafter)
  · exact hearlier x hu

/-- The rest of a text after its last declaration ends with what stands behind the anchor. -/
theorem tail_suffix_of_anchor? (h : anchor? t = some (head, tail))
    (hlast : afterLastDeclaration? true t = some rest) : tail <:+ rest := by
  obtain ⟨front, rfl⟩ := afterLastDeclaration?_suffix hlast
  rw [anchor?_of_lastImport (by rw [hlast]; rfl), Option.some.injEq, Prod.mk.injEq] at h
  rw [← h.2]
  exact List.dropWhile_suffix _

/-- No declaration begins on a line after the anchor. -/
theorem not_declares_after_anchor (h : anchor? t = some (head, tail)) :
    ¬Declares false (carriageReturn head ++ tail) rest := by
  intro hdeclares
  obtain ⟨rfl, -⟩ := anchor?_spec h
  have hwhole : Declares true (head ++ tail) rest :=
    hdeclares.of_suffix (carriageReturn_suffix head tail)
  -- The line would begin after a line feed of `tail`, so that less than `tail` is left after it.
  obtain ⟨u, hu, hrest⟩ := hdeclares
  obtain ⟨w, hw⟩ := beginsLine_false_iff.mp hu
  obtain ⟨w', -, htail⟩ := exists_line_after (lineFeed_notMem_carriageReturn head) hw
  have hshort : rest.length < tail.length := by
    have hle := (declaration?_suffix hrest).length_le
    simp only [htail, List.length_append, List.length_cons]
    omega
  cases hlast : afterLastDeclaration? true (head ++ tail) with
  | none => exact (afterLastDeclaration?_spec true _).2 hlast rest hwhole
  | some last =>
    have hle := (tail_suffix_of_anchor? h hlast).length_le
    have hle' := (((afterLastDeclaration?_spec true _).1 last hlast).2 rest hwhole).length_le
    omega

/-- A declaration that is put at the anchor is the last one. -/
theorem afterLastDeclaration?_inserted (h : anchor? t = some (head, tail))
    (hline : declaration? (line ++ (carriageReturn head ++ tail)) =
      some (carriageReturn head ++ tail)) :
    afterLastDeclaration? true (head ++ '\n' :: (line ++ (carriageReturn head ++ tail))) =
      some (carriageReturn head ++ tail) := by
  have hhere : Declares true (head ++ '\n' :: (line ++ (carriageReturn head ++ tail)))
      (carriageReturn head ++ tail) :=
    ⟨_, beginsLine_of_line head _, hline⟩
  obtain ⟨hfound, hnone⟩ := afterLastDeclaration?_spec true
    (head ++ '\n' :: (line ++ (carriageReturn head ++ tail)))
  cases hlast : afterLastDeclaration? true
      (head ++ '\n' :: (line ++ (carriageReturn head ++ tail))) with
  | none => exact absurd hhere (hnone hlast _)
  | some last =>
    obtain ⟨hdeclares, hleast⟩ := hfound last hlast
    rcases hdeclares.around hline with rfl | hafter | ⟨w, rfl⟩
    · rfl
    · exact absurd hafter (not_declares_after_anchor h)
    · -- A declaration that ends before the line does not end last.
      have hle := (hleast _ hhere).length_le
      simp only [List.length_append, List.length_cons] at hle
      omega

/-! ## The new anchor -/

/-- The recogniser reads the import from a quotable specifier and nothing after it. -/
theorem declaration?_declarationText_append (hne : written ≠ []) (hquotable : Quotable written)
    (rest : Text) : declaration? (declarationText written ++ rest) = some rest := by
  have hsplit : declarationText written ++ rest =
      "import".toList ++ clause ++ ('\'' :: written ++ '\'' :: ';' :: rest) := by
    unfold declarationText clause
    generalize safeNames = names
    simp
  have hclause : Blank clause ∨ NamesImports clause :=
    (isClause_iff (forall_endsClause (by decide))).mp (by decide)
  have hspecifier : specifier? ('\'' :: written ++ '\'' :: ';' :: rest) = some (';' :: rest) :=
    specifier?_eq_some_iff.mpr ⟨'\'', written, '\'', rfl, by decide, hne, hquotable, by decide⟩
  rw [hsplit, declaration?_of_clause (by decide) hclause hspecifier]
  rfl

/-- The import from a quotable specifier stands on one line. -/
theorem lineFeed_notMem_declarationText (hquotable : Quotable written) :
    '\n' ∉ declarationText written := by
  have hnames : '\n' ∉ safeNames := by decide +kernel
  have hspecifier : '\n' ∉ written := fun hmem => (hquotable _ hmem).2 rfl
  unfold declarationText
  generalize safeNames = names at hnames
  simp [hnames, hspecifier]

/-- The end of the line of an inserted import is the new anchor. -/
theorem anchor?_inserted (h : anchor? t = some (head, tail)) (hne : written ≠ [])
    (hquotable : Quotable written) :
    anchor? (head ++ importLine (carriageReturn head) written ++ tail) =
      some (head ++ importLine (carriageReturn head) written, tail) := by
  have hlast := afterLastDeclaration?_inserted h
    (declaration?_declarationText_append hne hquotable (carriageReturn head ++ tail))
  rw [← List.cons_append, ← List.append_assoc] at hlast
  have htake : (carriageReturn head ++ tail).takeWhile (· != '\n') = carriageReturn head :=
    takeWhile_line (lineFeed_notMem_carriageReturn head) (anchor?_spec h).2
  have hdrop : (carriageReturn head ++ tail).dropWhile (· != '\n') = tail := by
    have hwhole := List.takeWhile_append_dropWhile (p := (· != '\n'))
      (l := carriageReturn head ++ tail)
    rw [htake] at hwhole
    exact List.append_cancel_left hwhole
  rw [append_importLine, ← List.cons_append, ← List.append_assoc,
    anchor?_of_lastImport (by rw [hlast]; rfl), htake, hdrop, importLine, List.append_assoc head]

/-- Imports that are inserted one after the other stand on consecutive lines behind the anchor. -/
theorem insertAll?_of_anchor? (h : anchor? t = some (head, tail)) (specifiers : List Text)
    (hspecifiers : ∀ s ∈ specifiers, s ≠ [] ∧ Quotable s) :
    insertAll? t specifiers =
      some (head ++ specifiers.flatMap (importLine (carriageReturn head)) ++ tail) := by
  induction specifiers generalizing t head with
  | nil =>
    rw [List.flatMap_nil, List.append_nil, ← (anchor?_spec h).1]
    rfl
  | cons s specifiers ih =>
    obtain ⟨⟨hne, hquotable⟩, hrest⟩ := List.forall_mem_cons.mp hspecifiers
    have hnext := ih (anchor?_inserted h hne hquotable) hrest
    rw [carriageReturn_importLine] at hnext
    rw [insertAll?, List.foldlM_cons, insert?_of_anchor? h, List.flatMap_cons,
      ← List.append_assoc head]
    exact hnext

/-- An import that is inserted is the last one: in the text with it, the anchor is the end of the
line that it begins. So imports that are inserted one after the other stand on consecutive lines in
this order, where the anchor of the text was, and all other text stays as it was. -/
theorem inserted_in_order (h : (anchorOffset? t).isSome = true) :
    (∀ s, s ≠ [] → Quotable s → ∃ before after offset,
      insert? t (declarationText s) = some (before ++ declarationText s ++ after) ∧
        EndsLine before ∧ anchorOffset? (before ++ declarationText s ++ after) = some offset ∧
        LineEndsAt (before ++ declarationText s ++ after) (byteLength before) offset) ∧
      ∃ head tail, anchor? t = some (head, tail) ∧ t = head ++ tail ∧
        (tail = [] ∨ ∃ rest, tail = '\n' :: rest) ∧
          ∀ specifiers, (∀ s ∈ specifiers, s ≠ [] ∧ Quotable s) →
            insertAll? t specifiers =
              some (head ++ specifiers.flatMap (importLine (carriageReturn head)) ++ tail) := by
  obtain ⟨⟨head, tail⟩, hanchor⟩ : ∃ cut, anchor? t = some cut := by
    rw [anchorOffset?, Option.isSome_map] at h
    exact Option.isSome_iff_exists.mp h
  obtain ⟨ht, htail⟩ := anchor?_spec hanchor
  refine ⟨fun s hne hquotable => ?_, head, tail, hanchor, ht, htail,
    insertAll?_of_anchor? hanchor⟩
  · have hinsert := insert?_of_anchor? hanchor s
    have hnew := anchor?_inserted hanchor hne hquotable
    have hsplit : head ++ importLine (carriageReturn head) s ++ tail =
        head ++ ['\n'] ++ declarationText s ++ (carriageReturn head ++ tail) := by
      rw [append_importLine]
      simp
    have hend : head ++ importLine (carriageReturn head) s =
        head ++ ['\n'] ++ (declarationText s ++ carriageReturn head) := by
      simp [importLine]
    rw [hsplit] at hinsert hnew
    refine ⟨head ++ ['\n'], carriageReturn head ++ tail, _, hinsert, .inr ⟨head, rfl⟩, ?_,
      head ++ ['\n'], declarationText s ++ carriageReturn head, tail, by simp, rfl, rfl, ?_, htail⟩
    · rw [anchorOffset?, hnew, Option.map_some, hend]
    · rw [List.mem_append, not_or]
      exact ⟨lineFeed_notMem_declarationText hquotable, lineFeed_notMem_carriageReturn head⟩

/-- Two imports go behind the line of an import that is never closed, and the second one goes behind
the first, although the recogniser can read the open import on to the first one's end. -/
theorem inserted_in_order_of_open_import :
    (anchorOffset? "import \x7b\r\nrun();".toList).isSome = true ∧
    (∀ s ∈ ["./a".toList, "./b".toList], s ≠ [] ∧ Quotable s) ∧
    insertAll? "import \x7b\r\nrun();".toList ["./a".toList, "./b".toList] =
      some ("import \x7b\r\n".toList ++ declarationText "./a".toList ++
        "\r\n".toList ++ declarationText "./b".toList ++ "\r\nrun();".toList) := by
  have hsome : (anchorOffset? "import \x7b\r\nrun();".toList).isSome = true := by decide +kernel
  have hspecifiers : ∀ s ∈ ["./a".toList, "./b".toList], s ≠ [] ∧ Quotable s := by decide
  have hcut : anchor? "import \x7b\r\nrun();".toList =
      some ("import \x7b\r".toList, "\nrun();".toList) := by decide +kernel
  obtain ⟨-, head, tail, hanchor, -, -, hall⟩ := inserted_in_order hsome
  rw [hcut, Option.some.injEq, Prod.mk.injEq] at hanchor
  obtain ⟨rfl, rfl⟩ := hanchor
  refine ⟨hsome, hspecifiers, (hall _ hspecifiers).trans ?_⟩
  decide +kernel

end LogGuard.Import
