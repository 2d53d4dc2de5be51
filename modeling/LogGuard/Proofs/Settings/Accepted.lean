import LogGuard.Settings.Load

/-!
# Accepted settings

`Settings.Accepted` says what a loaded configuration can be relied on for. Wherever settings come
from, they have passed the checks of `Settings.ofRaw` (`accepted_of_load`), and the tokens of what
is to be left out are those of its pattern (`parse_of_load`).
-/

namespace LogGuard.Settings

/-- The settings have passed all checks. -/
structure Accepted (s : Settings) : Prop where
  /-- The safety module is given. -/
  module_ne_nil : s.safetyModule ≠ []
  /-- The safety module is seen from the root of the settings. -/
  module_relative : (path s.safetyModule).isAbsolute = false
  /-- All steps of the safety module are names. -/
  module_normal : ∀ c ∈ (path s.safetyModule).components, ∃ name, c = .normal name
  /-- Some files are looked at. -/
  extensions_ne_nil : s.extensions ≠ []
  /-- No extension is empty or begins with a dot. -/
  extension : ∀ e ∈ s.extensions, e ≠ [] ∧ e.head? ≠ some '.'

/-- A trimmed extension is not empty and does not begin with a dot. -/
theorem of_mem_trimExtensions {extensions : List Text} {e : Text}
    (h : e ∈ trimExtensions extensions) : e ≠ [] ∧ e.head? ≠ some '.' := by
  obtain ⟨hmem, hempty⟩ := List.mem_filter.mp h
  obtain ⟨given, -, rfl⟩ := List.mem_map.mp hmem
  refine ⟨by simpa using hempty, fun hdot => ?_⟩
  have hne := List.head?_dropWhile_not (· == '.') given
  rw [hdot] at hne
  contradiction

/-- A module that passes its check is given, relative and has names only. -/
theorem of_checkModule {module : Text} (h : checkModule module = .ok ()) :
    module ≠ [] ∧ (path module).isAbsolute = false ∧
      ∀ c ∈ (path module).components, ∃ name, c = .normal name := by
  unfold checkModule at h
  split at h
  · contradiction
  · rename_i hrelative
    split at h
    · rename_i hnormal
      simp only [Bool.or_eq_true, List.isEmpty_iff, not_or, Bool.not_eq_true] at hrelative
      refine ⟨hrelative.1, hrelative.2, fun c hc => ?_⟩
      have hmatch := List.all_eq_true.mp hnormal c hc
      split at hmatch
      · rename_i name
        exact ⟨name, rfl⟩
      · contradiction
    · contradiction

/-- Checked settings are accepted. -/
theorem accepted_of_ofRaw {raw : RawSettings} {base : Path} {s : Settings}
    (h : ofRaw raw base = .ok s) : s.Accepted := by
  unfold ofRaw at h
  simp only [bind, Except.bind] at h
  split at h
  · contradiction
  · rename_i hextensions
    split at h
    · contradiction
    · rename_i hmodule
      split at h
      · contradiction
      · obtain rfl := Except.ok.inj h
        have hchecked := of_checkModule hmodule
        exact ⟨hchecked.1, hchecked.2.1, hchecked.2.2, by simpa using hextensions,
          fun e he => of_mem_trimExtensions he⟩

/-- Whatever file they come from, loaded settings are those that some configuration gives. -/
theorem exists_ofRaw_of_load {fs : FileSystem} {file? : Option Path} {s : Settings}
    (h : (load fs file?).1 = .ok s) : ∃ raw base, ofRaw raw base = .ok s := by
  have hbuild {raw : RawSettings} {base : Path} (hb : build raw base = .ok s) :
      ∃ raw base, ofRaw raw base = .ok s := by
    unfold build at hb
    cases hraw : ofRaw raw base with
    | error e =>
      rw [hraw] at hb
      cases hb
    | ok s' =>
      rw [hraw] at hb
      obtain rfl : s' = s := Except.ok.inj hb
      exact ⟨raw, base, hraw⟩
  have hfile {file : Path} (hf : loadFile fs file = .ok s) :
      ∃ raw base, ofRaw raw base = .ok s := by
    unfold loadFile at hf
    split at hf
    · contradiction
    · split at hf
      · contradiction
      · contradiction
      · exact hbuild hf
  unfold load at h
  cases file? with
  | some file => exact hfile h
  | none =>
    dsimp only at h
    split at h
    · exact hfile h
    · exact hbuild (show build {} ⟨[]⟩ = .ok s from h)

/-- Loaded settings are accepted. -/
theorem accepted_of_load {fs : FileSystem} {file? : Option Path} {s : Settings}
    (h : (load fs file?).1 = .ok s) : s.Accepted := by
  obtain ⟨raw, base, hraw⟩ := exists_ofRaw_of_load h
  exact accepted_of_ofRaw hraw

/-- The patterns of files to leave out are read one by one. -/
theorem of_readExclusions {patterns : List Text} {exclude : List Exclusion}
    (h : readExclusions patterns = .ok exclude) :
    ∀ e ∈ exclude, Glob.parse e.pattern = .ok e.tokens := by
  induction patterns generalizing exclude with
  | nil =>
    obtain rfl := Except.ok.inj h
    simp
  | cons pattern rest ih =>
    rw [readExclusions] at h
    split at h
    · contradiction
    · rename_i tokens hparse
      cases hrest : readExclusions rest with
      | error e =>
        rw [hrest] at h
        contradiction
      | ok more =>
        rw [hrest] at h
        obtain rfl := Except.ok.inj h
        intro e he
        rcases List.mem_cons.mp he with rfl | he
        · exact hparse
        · exact ih hrest e he

/-- The tokens of each exclusion of loaded settings are those of its pattern. -/
theorem parse_of_load {fs : FileSystem} {file? : Option Path} {s : Settings}
    (h : (load fs file?).1 = .ok s) : ∀ e ∈ s.exclude, Glob.parse e.pattern = .ok e.tokens := by
  obtain ⟨raw, base, hraw⟩ := exists_ofRaw_of_load h
  unfold ofRaw at hraw
  simp only [bind, Except.bind] at hraw
  split at hraw
  · contradiction
  · split at hraw
    · contradiction
    · split at hraw
      · contradiction
      · rename_i hexclude
        obtain rfl := Except.ok.inj hraw
        exact of_readExclusions hexclude

end LogGuard.Settings
