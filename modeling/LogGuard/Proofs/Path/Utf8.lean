import LogGuard.Settings.Basic

/-!
# The bytes of a text as a path

A text that is taken for a path has the bytes of its UTF-8 encoding. In this encoding the bytes
below 128 stand for characters of their own (`toNat_of_mem_utf8EncodeChar`), so that the separators
of the path are those of the text (`separator_mem_path`, `path_append_separator`).
-/

namespace LogGuard.Settings

/-- The encoding of a text, character by character. -/
theorem path_bytes (t : Text) : (path t).bytes = t.flatMap String.utf8EncodeChar := by
  simp [path, Path.ofString, List.utf8Encode]

/-- Different texts are different paths. -/
theorem path_injective : Function.Injective path := by
  intro s t h
  have hbytes : (String.ofList s).toByteArray.data.toList =
      (String.ofList t).toByteArray.data.toList := congrArg Path.bytes h
  have hdata := ByteArray.ext (Array.ext' hbytes)
  exact String.ofList_injective (String.toByteArray_inj.mp hdata)

theorem path_append (s t : Text) : (path (s ++ t)).bytes = (path s).bytes ++ (path t).bytes := by
  simp only [path_bytes, List.flatMap_append]

/-- The encoding of a text is empty only if the text is. -/
theorem path_bytes_eq_nil {t : Text} : (path t).bytes = [] ↔ t = [] := by
  cases t with
  | nil => simp [path_bytes]
  | cons c t => simp [path_bytes, String.utf8EncodeChar_ne_nil]

/-- A byte below 128 stands for a character of its own. -/
theorem toNat_of_mem_utf8EncodeChar {b : UInt8} (hb : b.toNat < 128) {c : Char}
    (h : b ∈ String.utf8EncodeChar c) : c.toNat = b.toNat := by
  have hhigh {n m : Nat} (hn : 128 ≤ n) (hm : n + m ≤ 256) (k : Nat) (hmpos : 0 < m)
      (heq : b = UInt8.ofNat (k % m + n)) : False := by
    have hlt : k % m < m := Nat.mod_lt k hmpos
    rw [heq, UInt8.toNat_ofNat', Nat.mod_eq_of_lt (by omega)] at hb
    omega
  unfold String.utf8EncodeChar at h
  dsimp only at h
  split at h
  · rename_i hc
    obtain rfl := List.mem_singleton.mp h
    rw [UInt8.toNat_ofNat', Nat.mod_eq_of_lt (by omega)]
    rfl
  · -- All bytes of a longer encoding have their highest bit set.
    exfalso
    split at h
    · simp only [List.mem_cons, List.not_mem_nil, or_false] at h
      rcases h with h | h
      all_goals exact hhigh (by decide) (by decide) _ (by decide) h
    · split at h
      · simp only [List.mem_cons, List.not_mem_nil, or_false] at h
        rcases h with h | h | h
        all_goals exact hhigh (by decide) (by decide) _ (by decide) h
      · simp only [List.mem_cons, List.not_mem_nil, or_false] at h
        rcases h with h | h | h | h
        all_goals exact hhigh (by decide) (by decide) _ (by decide) h

/-- A byte below 128 is in a path if its character is in the text. -/
theorem mem_path_iff {b : UInt8} {c : Char} (hb : b.toNat < 128) (hc : c.toNat = b.toNat)
    (hencoding : b ∈ String.utf8EncodeChar c) {t : Text} : b ∈ (path t).bytes ↔ c ∈ t := by
  rw [path_bytes, List.mem_flatMap]
  constructor
  · rintro ⟨d, hd, hmem⟩
    obtain rfl : d = c := Char.toNat_inj.mp ((toNat_of_mem_utf8EncodeChar hb hmem).trans hc.symm)
    exact hd
  · exact fun h => ⟨c, h, hencoding⟩

/-- The separators of a path are those of its text. -/
theorem separator_mem_path {t : Text} : Path.separator ∈ (path t).bytes ↔ '/' ∈ t :=
  mem_path_iff (by decide) (by decide) (by decide)

/-- The dots of a path are those of its text. -/
theorem dot_mem_path {t : Text} : Path.dot ∈ (path t).bytes ↔ '.' ∈ t :=
  mem_path_iff (by decide) (by decide) (by decide)

/-- A text with a separator is cut there as a path, too. -/
theorem path_append_separator (s t : Text) :
    (path (s ++ '/' :: t)).bytes = (path s).bytes ++ Path.separator :: (path t).bytes := by
  have hslash : (path ['/']).bytes = [Path.separator] := by decide
  rw [List.append_cons, path_append, path_append, hslash, List.append_assoc, List.singleton_append]

/-- Bytes are read as the text whose encoding they are. -/
theorem fromUTF8?_eq_some {bytes : ByteArray} {t : String} :
    String.fromUTF8? bytes = some t ↔ bytes = t.toByteArray := by
  unfold String.fromUTF8?
  constructor
  · intro h
    split at h
    · rw [← Option.some.inj h]
      rfl
    · contradiction
  · rintro rfl
    rw [dif_pos t.isValidUTF8]
    rfl

/-- A path is read as the text that spells it. -/
theorem toString?_eq_some {bytes : List UInt8} {t : String} :
    Path.toString? ⟨bytes⟩ = some t ↔ bytes = (path t.toList).bytes := by
  unfold Path.toString?
  rw [fromUTF8?_eq_some, path, String.ofList_toList, Path.ofString]
  constructor
  · intro h
    rw [← h]
  · rintro rfl
    rfl

end LogGuard.Settings
