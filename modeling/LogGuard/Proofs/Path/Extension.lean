import LogGuard.Path.Extension
import LogGuard.Proofs.Path.LastSegment
import Mathlib.Data.List.TakeWhile

/-!
# Cutting extensions off

A file name has an extension if something stands before its last dot (`splitExtension_eq_some`). The
path without the extension of its last name is computed in two cuts: of as many bytes as the
extension has, and of the extension that the last name has then. If the path ends with its last name
and not with separators, the two cuts leave its stem (`components_withoutExtension`).
-/

namespace LogGuard.Path

open FileSystem (segments)

/-- A name without a dot has no extension. -/
theorem splitExtension_of_notMem {name : Segment} (h : dot ∉ name) :
    splitExtension name = (name, none) := by
  have hdrop : name.reverse.dropWhile (fun b => b != dot) = [] := by
    rw [List.dropWhile_eq_nil_iff]
    intro b hb
    rw [bne_iff_ne]
    rintro rfl
    exact h (List.mem_reverse.mp hb)
  unfold splitExtension
  dsimp only
  rw [hdrop]

/-- From its end, a name is read up to its last dot. -/
theorem reverse_append_dot {extension : Segment} (h : dot ∉ extension) (stem : Segment) :
    (stem ++ dot :: extension).reverse.dropWhile (fun b => b != dot) = dot :: stem.reverse ∧
      (stem ++ dot :: extension).reverse.takeWhile (fun b => b != dot) = extension.reverse := by
  have hall : ∀ b ∈ extension.reverse, (b != dot) = true := by
    intro b hb
    rw [bne_iff_ne]
    rintro rfl
    exact h (List.mem_reverse.mp hb)
  have hreverse : (stem ++ dot :: extension).reverse =
      extension.reverse ++ dot :: stem.reverse := by
    simp
  rw [hreverse]
  constructor
  · rw [List.dropWhile_append_of_pos hall, List.dropWhile_cons_of_neg (by simp)]
  · rw [List.takeWhile_append_of_pos hall, List.takeWhile_cons_of_neg (by simp), List.append_nil]

/-- A name is cut at its last dot. -/
theorem splitExtension_append {stem extension : Segment} (hstem : stem ≠ [])
    (h : dot ∉ extension) : splitExtension (stem ++ dot :: extension) = (stem, some extension) := by
  obtain ⟨hdrop, htake⟩ := reverse_append_dot h stem
  obtain ⟨b, rest, hrest⟩ := List.exists_cons_of_ne_nil (List.reverse_ne_nil_iff.mpr hstem)
  unfold splitExtension
  dsimp only
  rw [hdrop, htake, hrest]
  dsimp only
  rw [← hrest, List.reverse_reverse, List.reverse_reverse]

/-- A dot at the front of a name begins no extension. -/
theorem splitExtension_hidden {extension : Segment} (h : dot ∉ extension) :
    splitExtension (dot :: extension) = (dot :: extension, none) := by
  obtain ⟨hdrop, -⟩ := reverse_append_dot h []
  rw [List.nil_append, List.reverse_nil] at hdrop
  unfold splitExtension
  dsimp only
  rw [hdrop]

/-- A name has an extension if something stands before its last dot. -/
theorem splitExtension_eq_some {name stem extension : Segment} :
    splitExtension name = (stem, some extension) ↔
      name = stem ++ dot :: extension ∧ stem ≠ [] ∧ dot ∉ extension := by
  constructor
  · intro h
    obtain ⟨last, hlast, rfl | ⟨front, rfl⟩⟩ := exists_last dot name
    · rw [splitExtension_of_notMem hlast] at h
      simp at h
    · rcases front with _ | ⟨b, front⟩
      · rw [List.nil_append, splitExtension_hidden hlast] at h
        simp at h
      · rw [splitExtension_append (by simp) hlast] at h
        obtain ⟨rfl, hextension⟩ := Prod.mk.inj h
        obtain rfl := Option.some.inj hextension
        exact ⟨rfl, by simp, hlast⟩
  · rintro ⟨rfl, hstem, hextension⟩
    exact splitExtension_append hstem hextension

/-! ## The two cuts -/

/-- A path that ends with a name is kept up to the end of the stem of the name. -/
theorem bytes_upToStem {p : Path} {front : List Segment} {name : Segment}
    (h : segments p = front ++ [name]) (hname : component? name = some (.normal name)) :
    ∃ kept, p.bytes = kept ++ name ∧ p.upToStem.bytes = kept ++ (splitExtension name).1 := by
  have hsolid := (component?_eq_normal.mp hname).2.1
  obtain ⟨init, hbody⟩ := body_of_segments h hsolid
  obtain ⟨joined, hjoined⟩ := intercalate_concat init
  refine ⟨p.head ++ joined, ?_, ?_⟩
  · rw [List.append_assoc, ← hjoined, ← hbody]
    exact congrArg bytes (ofParts_body p).symm
  · rw [upToStem, fileName?_of_segments h hname]
    show p.head ++ [separator].intercalate _ = _
    rw [hbody, dropVoidEnd_concat hsolid, List.dropLast_concat, hjoined, List.append_assoc]

/-- The first cut leaves the dot before the extension. -/
theorem exists_of_withoutExtension {p : Path} {front : List Segment} {stem extension : Segment}
    (h : segments p = front ++ [stem ++ dot :: extension]) (hstem : stem ≠ [])
    (hextension : dot ∉ extension)
    (hname : component? (stem ++ dot :: extension) = some (.normal (stem ++ dot :: extension))) :
    ∃ q, p.withoutExtension = q.upToStem ∧ segments q = front ++ [stem ++ [dot]] := by
  obtain ⟨kept, hbytes, -⟩ := bytes_upToStem h hname
  refine ⟨⟨kept ++ (stem ++ [dot])⟩, ?_, ?_⟩
  · have hextension? : p.extension? = some extension := by
      rw [extension?, fileName?_of_segments h hname, Option.bind_some,
        splitExtension_append hstem hextension]
    have hwhole : p.bytes = kept ++ (stem ++ [dot]) ++ extension := by
      rw [hbytes]
      simp
    rw [withoutExtension, hextension?]
    dsimp only
    rw [hwhole, List.length_append, Nat.add_sub_cancel, List.take_left]
  · refine segments_of_bytes h hbytes rfl fun hmem => (bytes_of_segments h).1 ?_
    rcases List.mem_append.mp hmem with hstem' | hdot
    · exact List.mem_append_left _ hstem'
    · exact absurd (List.mem_singleton.mp hdot) (by decide)

/-- Without its extension, a path that ends with a name ends with the stem of the name. If the stem
is a dot, the first cut leaves two dots, which are no name and stay as they are. -/
theorem components_withoutExtension {p : Path} {front : List Segment} {stem extension : Segment}
    (h : segments p = front ++ [stem ++ dot :: extension]) (hstem : stem ≠ [])
    (hextension : dot ∉ extension)
    (hname : component? (stem ++ dot :: extension) = some (.normal (stem ++ dot :: extension))) :
    p.withoutExtension.components = p.start ++ front.filterMap component? ++
      (if stem = [dot] then some .parent else component? stem).toList := by
  have hsolid := (component?_eq_normal.mp hname).2.1
  obtain ⟨q, hcut, hq⟩ := exists_of_withoutExtension h hstem hextension hname
  have hqsolid : isVoid (stem ++ [dot]) = false := by
    unfold isVoid
    rw [Bool.or_eq_false_iff, beq_eq_false_iff_ne]
    exact ⟨by simp, by simpa using hstem⟩
  rw [hcut]
  by_cases hdots : stem = [dot]
  · -- Two dots are no file name, so the second cut does nothing.
    subst hdots
    have hparent : component? ([dot] ++ [dot]) = some .parent := by decide
    have hcomponents := components_of_segments hq
    rw [hparent] at hcomponents
    have hsame : q.upToStem = q := by
      rw [upToStem, fileName?, hcomponents, Option.toList_some, List.getLast?_concat]
    rw [hsame, hcomponents, start_of_segments h hq hsolid hqsolid, if_pos rfl]
  · -- The second cut takes the dot away.
    have hnormal : component? (stem ++ [dot]) = some (.normal (stem ++ [dot])) := by
      refine component?_eq_normal.mpr ⟨rfl, hqsolid, fun heq => hdots ?_⟩
      exact List.append_cancel_right (show stem ++ [dot] = [dot] ++ [dot] from heq)
    have hstemsolid : isVoid stem = false := by
      simp [isVoid, hstem, hdots]
    obtain ⟨kept, hbytes, hkept⟩ := bytes_upToStem hq hnormal
    rw [splitExtension_append hstem (by simp)] at hkept
    have hr : segments q.upToStem = front ++ [stem] :=
      segments_of_bytes hq hbytes hkept fun hmem =>
        (bytes_of_segments hq).1 (List.mem_append_left _ hmem)
    rw [components_of_segments hr, start_of_segments h hr hsolid hstemsolid, if_neg hdots]

end LogGuard.Path
