import LogGuard.FileSystem.Edit
import LogGuard.Proofs.Path.LastSegment
import LogGuard.Proofs.Path.Utf8
import LogGuard.Proofs.Run.File
import LogGuard.Proofs.Settings.Accepted

/-!
# The name of the safety module

The name by which a text is searched for the import is cut from the safety module at its last
separator, while the module is checked step by step, where void segments do not count. The two agree
unless the last segment of the module is void, and then the name is void as well
(`Accepted.endsInName_iff_fileName?`). A text with a call mentions any void name, so the import is
never inserted (`mentions_of_not_endsInName`).
-/

namespace LogGuard.Settings

open FileSystem (segments)

/-- The last segment of the module is not void. -/
def EndsInName (module : Text) : Prop :=
  ¬['/'] <:+ module ∧ ¬['/', '.'] <:+ module

/-- The name of a module of one segment is the module. -/
theorem moduleName_eq_self {s : Settings} (h : '/' ∉ s.safetyModule) :
    s.moduleName = s.safetyModule := by
  rw [moduleName, List.splitOn_eq_singleton h]
  rfl

/-- The name of a module is what follows its last separator. -/
theorem moduleName_eq_last {s : Settings} {front last : Text}
    (h : s.safetyModule = front ++ '/' :: last) (hlast : '/' ∉ last) : s.moduleName = last := by
  rw [moduleName, h, Path.splitOn_append_cons hlast, List.getLastD_concat]

/-- A text without a separator is void as a path if it is empty or a dot. -/
theorem isVoid_path {t : Text} : Path.isVoid (path t).bytes = true ↔ t = [] ∨ t = ['.'] := by
  have hdot : (path ['.']).bytes = [Path.dot] := by decide
  unfold Path.isVoid
  rw [Bool.or_eq_true, List.isEmpty_iff, path_bytes_eq_nil, beq_iff_eq]
  refine or_congr Iff.rfl ⟨fun h => path_injective ?_, fun h => h ▸ hdot⟩
  rw [← hdot] at h
  exact congrArg Path.mk h

/-- What follows the last separator of a text is determined. -/
theorem suffix_separator_iff {w front last : Text} (hw : '/' ∉ w) (hlast : '/' ∉ last) :
    '/' :: w <:+ front ++ '/' :: last ↔ last = w := by
  constructor
  · rintro ⟨init, hinit⟩
    exact ((Path.append_cons_inj hw hlast).mp hinit).2.symm
  · rintro rfl
    exact ⟨front, rfl⟩

/-- What follows the last separator decides how a module ends. -/
theorem endsInName_iff {front last : Text} (hlast : '/' ∉ last) :
    EndsInName (front ++ '/' :: last) ↔ last ≠ [] ∧ last ≠ ['.'] :=
  and_congr (not_congr (suffix_separator_iff (by simp) hlast))
    (not_congr (suffix_separator_iff (by simp) hlast))

/-- A module of one segment ends in a name. -/
theorem endsInName_of_notMem {module : Text} (h : '/' ∉ module) : EndsInName module :=
  ⟨fun hs => h (hs.subset (by simp)), fun hs => h (hs.subset (by simp))⟩

variable {s : Settings}

/-- If the last segment of an accepted module is not void, then it is the name that the module leads
to. -/
theorem Accepted.fileName?_last (hs : s.Accepted) {init : List Segment} {last : Segment}
    (hsegments : segments (path s.safetyModule) = init ++ [last])
    (hlast : Path.isVoid last = false) : (path s.safetyModule).fileName? = some last := by
  have hstep := Path.component?_solid hlast
  have hcomponents := Path.components_of_segments hsegments
  rw [hstep, Option.toList_some] at hcomponents
  obtain ⟨name, hname⟩ := hs.module_normal _
    (hcomponents ▸ List.mem_append_right _ List.mem_cons_self)
  rw [hname] at hstep
  obtain rfl := (Path.component?_eq_normal.mp hstep).1
  exact Path.fileName?_of_segments hsegments hstep

/-- The name of an accepted module is the name that it leads to, unless its last segment is void. -/
theorem Accepted.endsInName_iff_fileName? (hs : s.Accepted) :
    EndsInName s.safetyModule ↔
      s.moduleName ≠ [] ∧
        (path s.safetyModule).fileName? = some (path s.moduleName).bytes := by
  obtain ⟨last, hlast, hmodule | ⟨front, hmodule⟩⟩ := Path.exists_last '/' s.safetyModule
  · -- A module of one segment is its own name. It is not a dot, as that is no name.
    have hname : '/' ∉ s.safetyModule := hmodule ▸ hlast
    have hsegments : segments (path s.safetyModule) = [] ++ [(path s.safetyModule).bytes] :=
      List.splitOn_eq_singleton (mt separator_mem_path.mp hname)
    have hvoid : Path.isVoid (path s.safetyModule).bytes = false := by
      by_contra hne
      rcases isVoid_path.mp (by simpa using hne) with hnil | hdot
      · exact hs.module_ne_nil hnil
      · have hcurrent : (path ['.']).components = [.current] := by decide
        obtain ⟨name, hname⟩ := hs.module_normal .current (by rw [hdot, hcurrent]; simp)
        contradiction
    rw [moduleName_eq_self hname]
    exact ⟨fun _ => ⟨hs.module_ne_nil, hs.fileName?_last hsegments hvoid⟩,
      fun _ => endsInName_of_notMem hname⟩
  · -- The last segment of the path has the bytes of the text after the last separator.
    have hsegments : segments (path s.safetyModule) =
        segments (path front) ++ [(path last).bytes] := by
      rw [hmodule, segments, path_append_separator,
        Path.splitOn_append_cons (mt separator_mem_path.mp hlast), segments]
    rw [moduleName_eq_last hmodule hlast]
    constructor
    · intro hends
      rw [hmodule, endsInName_iff hlast] at hends
      have hvoid : Path.isVoid (path last).bytes = false := by
        by_contra hne
        exact not_or.mpr hends (isVoid_path.mp (by simpa using hne))
      exact ⟨hends.1, hs.fileName?_last hsegments hvoid⟩
    · rintro ⟨hne, hfile⟩
      rw [hmodule, endsInName_iff hlast]
      obtain ⟨-, hvoid, -⟩ := Path.component?_eq_normal.mp (Path.component?_of_fileName? hfile)
      refine ⟨hne, fun hdot => ?_⟩
      rw [isVoid_path.mpr (.inr hdot)] at hvoid
      contradiction

/-! ## What the name is for -/

/-- The empty text is mentioned everywhere. -/
theorem mentions_nil (t : Text) : Text.mentions [] t = true := by
  cases t <;> rfl

/-- A text mentions the characters that it has. -/
theorem mentions_singleton {c : Char} {t : Text} (h : c ∈ t) : Text.mentions [c] t = true := by
  induction t with
  | nil => contradiction
  | cons d t ih =>
    rw [Text.mentions]
    rcases List.mem_cons.mp h with rfl | htail
    · simp
    · rw [ih htail, Bool.or_true]

/-- A text with a call mentions the name of a module that does not end in a name. -/
theorem mentions_of_not_endsInName (h : ¬EndsInName s.safetyModule) {t : Text}
    (hcall : Call.occursIn t = true) : Text.mentions s.moduleName t = true := by
  -- Every call has a dot.
  have hdot : '.' ∈ t := by
    by_contra hne
    have hnone := Call.occursIn_eq_false_of_pieces
      (Call.piecesFrom_of_notMem (fun hspells => hspells.mem.2) hne [])
    rw [hcall] at hnone
    contradiction
  obtain ⟨last, hlast, hmodule | ⟨front, hmodule⟩⟩ := Path.exists_last '/' s.safetyModule
  · exact absurd (endsInName_of_notMem (hmodule ▸ hlast)) h
  · rw [moduleName_eq_last hmodule hlast]
    rw [hmodule, endsInName_iff hlast, not_and_or, not_not, not_not] at h
    rcases h with rfl | rfl
    · exact mentions_nil t
    · exact mentions_singleton hdot

/-- A line can be inserted into any text with an anchor. -/
theorem exists_of_anchor {t : Text} (line : Text) (h : (Import.anchor? t).isSome = true) :
    ∃ extended, Import.insert? t line = some extended := by
  rw [← Option.isSome_iff_exists, Import.insert?, Option.isSome_map]
  exact h

/-- The name of the safety module is not empty and is the last step of the module, exactly if the
module does not end in a void segment. In that case the import is inserted into every file with a
call and an anchor that does not mention the last step of the module. Otherwise no import is ever
inserted. -/
theorem moduleName_iff {config : FileSystem} {file? : Option Path} {s : Settings}
    (h : (load config file?).1 = .ok s) :
    (EndsInName s.safetyModule ↔
      s.moduleName ≠ [] ∧
        (path s.safetyModule).fileName? = some (path s.moduleName).bytes) ∧
    (EndsInName s.safetyModule → ∀ name t : Text,
      (path s.safetyModule).fileName? = some (path name).bytes → Text.mentions name t = false →
        Text.mentions s.moduleName t = false ∧
        ∀ (replace : Replacer) (file : Path) (fs fs' : FileSystem) (line : Text),
          fs.readText file = .ok (String.ofList t) → Call.occursIn t = true →
          (Import.anchor? t).isSome = true →
          Import.forFile s.root s.safetyModule file = .ok line →
          ∃ extended, Import.insert? t line = some extended ∧
            (replace fs file (Run.encode (Call.replaceAll extended)) = .ok fs' →
              (Run.file replace s .fix file fs).outcome =
                  .modified (Call.count extended) .inserted ∧
                (Run.file replace s .fix file fs).files = fs')) ∧
    (¬EndsInName s.safetyModule →
      ∀ (replace : Replacer) (mode : RunMode) (file : Path) (fs : FileSystem) (calls : Nat),
        (Run.file replace s mode file fs).outcome ≠ .modified calls .inserted) := by
  have hs := accepted_of_load h
  refine ⟨hs.endsInName_iff_fileName?, fun hends name t hname hmention => ?_, fun hends => ?_⟩
  · obtain ⟨-, hlast⟩ := hs.endsInName_iff_fileName?.mp hends
    obtain rfl : s.moduleName = name := by
      rw [hlast, Option.some.injEq] at hname
      exact path_injective (congrArg Path.mk hname)
    refine ⟨hmention, fun replace file fs fs' line hread hcall hanchor hline => ?_⟩
    obtain ⟨extended, hinsert⟩ := exists_of_anchor line hanchor
    refine ⟨extended, hinsert, fun hreplace => ?_⟩
    have hsanitized : Run.sanitized s file t = .ok (.of extended .inserted) := by
      rw [Run.sanitized, hline]
      exact sanitize_eq_ok_iff.mpr (.inr ⟨hmention, line, rfl, .inl ⟨extended, hinsert, rfl⟩⟩)
    exact (Run.file_step replace s .fix file fs).eq_of_replaced _ _ _ _ hread
      (by simpa using hcall) (by simpa using hsanitized) hreplace
  · intro replace mode file fs calls houtcome
    have hstep := Run.file_step replace s mode file fs
    rw [houtcome] at hstep
    obtain ⟨t, sanitized, -, hcall, hsanitized, -, hstatus⟩ := hstep.exists_of_modified
    rw [Run.sanitized, sanitize_present (mentions_of_not_endsInName hends hcall)] at hsanitized
    obtain rfl := Except.ok.inj hsanitized
    contradiction

/-- A working directory with a configuration in the default file. -/
def configured (document : String) : FileSystem :=
  ⟨.directory FileSystem.directoryMode [(defaultFile.bytes, .file document.toByteArray 0o644)], []⟩

/-- A module with a void segment inside has the name that it leads to. -/
theorem moduleName_iff_of_inner_dot :
    ∃ s, (load (configured "[safe_log_fixer]\nsafety_module = 'lib/./log'") none).1 = .ok s ∧
      EndsInName s.safetyModule ∧ s.moduleName ≠ [] ∧
      (path s.safetyModule).fileName? = some (path s.moduleName).bytes := by
  have hload : (load (configured "[safe_log_fixer]\nsafety_module = 'lib/./log'") none).1 =
      .ok ⟨path defaultRoot, defaultDirs.map path, defaultExtensions, "lib/./log".toList, []⟩ := by
    decide +kernel
  have hends : EndsInName "lib/./log".toList := by
    unfold EndsInName
    decide
  exact ⟨_, hload, hends, (moduleName_iff hload).1.mp hends⟩

/-- A separator at the end of the module empties its name. Every text mentions the empty name, so no
file gets the import. -/
theorem moduleName_eq_nil_of_separator :
    ∃ s, (load (configured "[safe_log_fixer]\nsafety_module = 'utils/securityUtils/'") none).1 =
        .ok s ∧
      s.moduleName = [] ∧
      (path s.safetyModule).fileName? = some (path "securityUtils".toList).bytes ∧
      Text.mentions "securityUtils".toList "import a from 'a';\nconsole.log(a);".toList = false ∧
      sanitize s.moduleName "import a from 'a';\nconsole.log(a);".toList
          (Import.forFile s.root s.safetyModule (.ofString "saknew_frontend/utils/a.ts")) =
        .ok ⟨"import a from 'a';\nsafeLog(a);".toList, 1, .present⟩ := by
  refine ⟨⟨path defaultRoot, defaultDirs.map path, defaultExtensions,
    "utils/securityUtils/".toList, []⟩, ?_⟩
  decide +kernel

end LogGuard.Settings
