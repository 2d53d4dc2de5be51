import LogGuard.Import.Resolver
import LogGuard.Proofs.Path.Relative
import LogGuard.Proofs.Path.Utf8
import LogGuard.Proofs.Settings.Accepted
import Mathlib.Data.Set.List

/-!
# What an import resolves to

A specifier is resolved step by step from the directory of the importing file (`resolve`). The one
that is inserted first climbs one directory for each level between the file and the root, which
leads to the root, and then takes the steps of the safety module (`resolve_specifier`). How deep a
file lies is decided by the steps that are left when those of the root are stripped, however root
and file are written (`forFile_eq`); so there is an import for each file below the root and for no
other one (`forFile_spec`).
-/

namespace LogGuard.Import

open FileSystem (segments)
open Settings (path)
open LogGuard.Path (IsName)

variable {root file : Path} {module : Text} {directory names : List Segment}

/-- The directory to which a step leads, as the names on the way to it from the root of the
settings. No step leads out of this root. -/
def stepFrom (directory : List Segment) : Component → Option (List Segment)
  | .root => none
  | .current => some directory
  | .parent => if directory.isEmpty then none else some directory.dropLast
  | .normal name => some (directory ++ [name])

/-- Where a path leads from a directory, step by step. -/
def resolve (directory : List Segment) (p : Path) : Option (List Segment) :=
  p.components.foldlM stepFrom directory

/-! ## Resolving -/

/-- As many steps to the directory above as there are names lead to the root. -/
theorem foldlM_parent (directory : List Segment) :
    (List.replicate directory.length .parent).foldlM stepFrom directory = some [] := by
  induction directory using List.reverseRecOn with
  | nil => rfl
  | append_singleton front name ih =>
    have hstep : stepFrom (front ++ [name]) .parent = some front := by
      rw [stepFrom, if_neg (by simp), List.dropLast_concat]
    rw [List.length_append, List.length_singleton, List.replicate_succ, List.foldlM_cons, hstep]
    exact ih

/-- Names are entered one after the other. -/
theorem foldlM_normal (directory names : List Segment) :
    (names.map .normal).foldlM stepFrom directory = some (directory ++ names) := by
  induction names generalizing directory with
  | nil => exact congrArg some (List.append_nil directory).symm
  | cons name rest ih =>
    rw [List.map_cons, List.foldlM_cons]
    exact (ih (directory ++ [name])).trans (by rw [List.append_assoc, List.singleton_append])

/-! ## The specifier -/

/-- The segment that stands for the directory above. -/
def parentSegment : Segment :=
  [Path.dot, Path.dot]

/-- A segment in front of a text is one in front of its segments. -/
theorem segments_path_cons {first : Text} (hfirst : '/' ∉ first) (t : Text) :
    segments (path (first ++ '/' :: t)) = (path first).bytes :: segments (path t) := by
  rw [segments, Settings.path_append_separator,
    List.splitOn_append_cons_self_of_not_mem (mt Settings.separator_mem_path.mp hfirst), segments]

/-- The segments of a specifier are one for each step up, or a dot, and then those of the module.
-/
theorem segments_specifier (depth : Nat) (module : Text) :
    segments (path (specifier depth module)) =
      (if depth = 0 then [[Path.dot]] else List.replicate depth parentSegment) ++
        segments (path module) := by
  have hdot : '/' ∉ ['.'] := by decide
  have hdots : '/' ∉ ['.', '.'] := by decide
  have hclimb (n : Nat) : segments (path ((List.replicate n "../".toList).flatten ++ module)) =
      List.replicate n parentSegment ++ segments (path module) := by
    induction n with
    | zero => rfl
    | succ n ih =>
      rw [List.replicate_succ, List.flatten_cons, List.append_assoc]
      exact (segments_path_cons hdots _).trans (congrArg _ ih)
  unfold specifier
  split
  · exact segments_path_cons hdot module
  · exact hclimb depth

/-- A module that passes its check begins with a name and has no segment that leads up. -/
theorem segments_of_checkModule (h : Settings.checkModule module = .ok ()) :
    (path module).components = (path module).steps ∧ parentSegment ∉ segments (path module) := by
  obtain ⟨-, -, hnormal⟩ := Settings.of_checkModule h
  have hstart : (path module).start = [] := by
    -- The root of an absolute path is a step that is no name, and so is a leading dot.
    have hnone : ∀ c ∈ (path module).start, ∃ name, c = .normal name := fun c hc =>
      hnormal c (Path.components_eq _ ▸ List.mem_append_left _ hc)
    unfold Path.start at hnone ⊢
    split at hnone
    · obtain ⟨name, hname⟩ := hnone .root (by simp)
      contradiction
    · split at hnone
      · obtain ⟨name, hname⟩ := hnone .current (by simp)
        contradiction
      · simp_all
  have hcomponents := Path.components_eq (path module)
  rw [hstart, List.nil_append] at hcomponents
  refine ⟨hcomponents, fun hmem => ?_⟩
  have hparent : .parent ∈ (path module).components := by
    rw [hcomponents]
    exact List.mem_filterMap.mpr ⟨parentSegment, hmem, by decide⟩
  obtain ⟨name, hname⟩ := hnormal .parent hparent
  contradiction

/-- The steps of a specifier are the steps up, or a dot, and then those of the module. -/
theorem components_specifier (h : Settings.checkModule module = .ok ()) (depth : Nat) :
    (path (specifier depth module)).components =
      (if depth = 0 then [.current] else List.replicate depth .parent) ++
        (path module).components := by
  have hsegments := segments_specifier depth module
  rw [Path.components_eq, (segments_of_checkModule h).1]
  rcases depth with _ | depth
  · -- At the beginning, and only there, the dot segment is a step.
    have hstart : (path (specifier 0 module)).start = [.current] := by
      have hbytes : (path (specifier 0 module)).bytes =
          Path.dot :: Path.separator :: (path module).bytes :=
        Settings.path_append_separator ['.'] module
      unfold Path.start Path.isAbsolute Path.startsWithDot
      rw [hbytes]
      rfl
    rw [hstart, Path.steps, hsegments]
    rfl
  · have hstart : (path (specifier (depth + 1) module)).start = [] :=
      Path.start_of_solid hsegments (by decide)
    have hparent : Path.component? parentSegment = some .parent := by decide
    rw [hstart, Path.steps, hsegments, if_neg (by omega), if_neg (by omega), List.filterMap_append,
      List.filterMap_replicate_of_some hparent]
    rfl

/-- A specifier leads from a directory as deep as it climbs to the module below the root. -/
theorem resolve_specifier (h : Settings.checkModule module = .ok ()) (directory : List Segment) :
    (resolve directory (path (specifier directory.length module))).map (List.map .normal) =
      some (path module).components := by
  obtain ⟨names, hnames⟩ : ∃ names : List Segment,
      names.map .normal = (path module).components := by
    have hrange : (path module).components ∈ Set.range (List.map Component.normal) := by
      rw [Set.range_list_map]
      intro c hc
      obtain ⟨name, rfl⟩ := (Settings.of_checkModule h).2.2 c hc
      exact ⟨name, rfl⟩
    exact hrange
  have hup : (if directory.length = 0 then [.current]
      else List.replicate directory.length .parent).foldlM stepFrom directory = some [] := by
    split
    · rename_i hempty
      rw [List.length_eq_zero_iff.mp hempty]
      rfl
    · exact foldlM_parent directory
  rw [resolve, components_specifier h, List.foldlM_append, hup, ← hnames]
  exact (congrArg _ (foldlM_normal [] names)).trans rfl

/-! ## The import for a file -/

/-- The depth of a path of names is the number of those before the last one. -/
theorem depth_of_names {p : Path} (h : p.components = names.map .normal) (hne : names ≠ []) :
    depth p = .ok (names.length - 1) := by
  have hcount : p.components.countP isNormal = names.length - 1 + 1 := by
    have hpos := List.length_pos_iff.mpr hne
    rw [h, List.countP_map, Nat.sub_add_cancel hpos, List.countP_eq_length]
    exact fun name _ => rfl
  have hall : p.components.all isRootRelative = true := by
    rw [h, List.all_map, List.all_eq_true]
    exact fun name _ => rfl
  rw [depth, if_pos hall, hcount]

/-- For a file below the root, the import depends on the steps that are left of its path. -/
theorem forFile_eq {rest : List Component} (h : file.components = root.components ++ rest)
    (module : Text) :
    ∃ rel, rel.components = rest ∧ forFile root module file =
      (depth rel).map fun depth => declarationText (specifier depth module) := by
  cases hrel : Path.stripPrefix? root file with
  | none => exact absurd ⟨rest, h.symm⟩ (Path.stripPrefix?_eq_none_iff.mp hrel)
  | some rel =>
    have hrest := Path.components_of_stripPrefix? hrel
    refine ⟨rel, List.append_cancel_left (hrest.symm.trans h), ?_⟩
    rw [forFile, locate, hrel]
    dsimp only
    cases depth rel <;> rfl

/-- For a file below the root there is an import. Its specifier begins with a dot segment, has one
segment that leads up for each directory between the root and the file, and none after those, and
leads from the directory of the file to the module. There is none for a file whose path does not
begin with the steps of the root, for the root itself, and for a path that leads up after the steps
of the root. -/
theorem forFile_spec (root : Path) (module : Text) :
    (Settings.checkModule module = .ok () →
      ∀ names, names ≠ [] → (∀ name ∈ names, IsName name) →
        ∃ s, forFile root module (root.join (.ofParts [] names)) = .ok (declarationText s) ∧
          ("./".toList <+: s ∨ "../".toList <+: s) ∧
          (∃ rest, parentSegment ∉ rest ∧
            segments (path s) = List.replicate (names.length - 1) parentSegment ++ rest) ∧
          (resolve names.dropLast (path s)).map (List.map .normal) =
            some (path module).components) ∧
      ∀ file,
        (¬root.components <+: file.components →
          forFile root module file = .error (.outsideRoot file root)) ∧
        (file.components = root.components → forFile root module file = .error .emptyPath) ∧
        (∀ rest, file.components = root.components ++ rest → .parent ∈ rest →
          ∃ rel, rel.components = rest ∧
            forFile root module file = .error (.notRootRelative rel)) := by
  refine ⟨fun hmodule names hne hnames => ?_, fun file => ⟨fun houtside => ?_, fun hroot => ?_,
    fun rest hrest hup => ?_⟩⟩
  · refine ⟨specifier (names.length - 1) module, ?_, ?_, ?_, ?_⟩
    · obtain ⟨rel, hrel, himport⟩ := forFile_eq (Path.components_join root hnames) module
      rw [himport, depth_of_names hrel hne]
      rfl
    · unfold specifier
      split
      · exact .inl (List.prefix_append _ _)
      · rename_i hdeep
        obtain ⟨n, hn⟩ := Nat.exists_eq_succ_of_ne_zero hdeep
        rw [hn, List.replicate_succ, List.flatten_cons, List.append_assoc]
        exact .inr (List.prefix_append _ _)
    · have hnone := (segments_of_checkModule hmodule).2
      rw [segments_specifier]
      split
      · rename_i hzero
        refine ⟨[Path.dot] :: segments (path module), ?_, by rw [hzero]; rfl⟩
        exact List.not_mem_cons_of_ne_of_not_mem (by decide) hnone
      · exact ⟨_, hnone, rfl⟩
    · rw [← List.length_dropLast]
      exact resolve_specifier hmodule names.dropLast
  · rw [forFile, locate, Path.stripPrefix?_eq_none_iff.mpr houtside]
    rfl
  · obtain ⟨rel, hrel, himport⟩ := forFile_eq (hroot.trans (List.append_nil _).symm) module
    rw [himport, depth, hrel]
    rfl
  · obtain ⟨rel, hrel, himport⟩ := forFile_eq hrest module
    have hall : ¬rel.components.all isRootRelative = true := by
      rw [hrel, List.all_eq_true]
      intro hall
      exact absurd (hall .parent hup) (by decide)
    refine ⟨rel, hrel, ?_⟩
    rw [himport, depth, if_neg hall]
    rfl

/-- A root with void segments and a module with a dot inside. The import of a file two levels down
leads to the module, and there is none for the root in another spelling. -/
theorem forFile_spec_of_inner_dot :
    let root := Path.ofString "a//b/"
    let module := "utils/./x".toList
    Settings.checkModule module = .ok () ∧
      (∃ s, forFile root module (.ofString "a//b/src/b.ts") = .ok (declarationText s) ∧
        (resolve [(Path.ofString "src").bytes] (path s)).map (List.map Component.normal) =
          some [.normal (Path.ofString "utils").bytes, .normal (Path.ofString "x").bytes]) ∧
      forFile root module (.ofString "a/c/b.ts") =
        .error (.outsideRoot (.ofString "a/c/b.ts") root) ∧
      forFile root module (.ofString "a/b/.") = .error .emptyPath ∧
      ∃ rel, rel.components = [.parent, .normal (Path.ofString "c.ts").bytes] ∧
        forFile root module (.ofString "a/b/../c.ts") = .error (.notRootRelative rel) := by
  intro root module
  have hmodule : Settings.checkModule module = .ok () := by decide +kernel
  obtain ⟨hbelow, hother⟩ := forFile_spec root module
  have hnames : ∀ name ∈ [(Path.ofString "src").bytes, (Path.ofString "b.ts").bytes],
      IsName name := by
    rintro name hname
    rcases List.mem_pair.mp hname with rfl | rfl
    · exact ⟨by decide, by decide⟩
    · exact ⟨by decide, by decide⟩
  obtain ⟨s, himport, -, -, hresolved⟩ := hbelow hmodule _ (by simp) hnames
  have hsteps : (path module).components =
      [.normal (Path.ofString "utils").bytes, .normal (Path.ofString "x").bytes] := by
    decide +kernel
  exact ⟨hmodule, ⟨s, himport, hsteps ▸ hresolved⟩, (hother _).1 (by decide +kernel),
    (hother _).2.1 (by decide +kernel), (hother _).2.2 _ (by decide +kernel) (by simp)⟩

end LogGuard.Import
