import LogGuard.Proofs.Run.Record
import Mathlib.Data.List.Pairwise

/-!
# Files that are processed once

A run processes no two paths with the same steps, and it takes one path for one file. The same file
can be visited by paths with other steps: by a leading dot before a directory if the root is empty,
by `..` or by a link. So no file is processed twice exactly if visited paths that denote the same
file take the same steps (`processed_once_iff`). In a tree without links that holds if the
configured directories add nothing but names to the steps of the root (`spelledAlike_of_plain`).
-/

namespace LogGuard.Run

open FileSystem (eq_append_of_follow pathError?_eq_none)

variable {replace : Replacer} {settings : Settings} {mode : RunMode} {fs : FileSystem}
  {output : Output} {stops : List Stop} {p q : Path}

/-- The configured directories take the steps of the root and then names only. -/
def PlainDirs (settings : Settings) : Prop :=
  ∀ dir ∈ settings.dirs, ∃ names : List Segment,
    (settings.root.join dir).components = settings.root.components ++ names.map .normal

/-! ## The files that are processed -/

/-- Each file of a record is processed once. -/
theorem countP_isProcessed (fs : FileSystem) (stops : List Stop) :
    (entries replace settings mode fs stops).countP Entry.isProcessed = (paths stops).length := by
  induction stops generalizing fs with
  | nil => rfl
  | cons stop rest ih =>
    rw [entries_cons, List.countP_cons, ih]
    cases stop <;> rfl

/-- If the files on the agenda are apart from each other, visited files are spelled alike. -/
theorem spelledAlike_of_agenda (hfs : fs.root.WellFormed)
    (h : (paths (agenda settings fs)).Pairwise fs.Apart) : SpelledAlike settings fs := by
  intro p hp q hq hselects hselects' location hdenotes hdenotes'
  obtain ⟨p', hp', hsame, hlocation⟩ := exists_denotes_of_agenda hfs hp hselects hdenotes
  obtain ⟨q', hq', hsame', hlocation'⟩ := exists_denotes_of_agenda hfs hq hselects' hdenotes'
  -- The paths on the agenda denote the same file, so they are the same.
  obtain rfl : p' = q' := by
    by_contra hne
    exact h.forall hp' hq' hne location hlocation hlocation'
  unfold Path.same at hsame hsame' ⊢
  rw [beq_iff_eq] at hsame hsame' ⊢
  rw [hsame, hsame']

/-- In a tree without links, files below directories that add names to the steps of the root are
spelled alike. -/
theorem spelledAlike_of_plain (hfs : fs.root.WellFormed) (hlinks : fs.root.LinkFree)
    (hdirs : PlainDirs settings) : SpelledAlike settings fs := by
  have hcomponents : ∀ p ∈ visited settings fs, ∃ names : List Segment,
      p.components = settings.root.components ++ names.map .normal := by
    intro p hp
    obtain ⟨dir, hdir, directory, below, content, bits, rfl, hlocate, -, hnames, -⟩ :=
      exists_of_mem_visited hfs hp
    obtain ⟨hzero, hne, -⟩ := pathError?_eq_none.mp (follow_of_locate hlocate).1
    obtain ⟨names, hcomponents⟩ := hdirs dir hdir
    exact ⟨names ++ below, by rw [components_below hne hzero hnames, hcomponents, List.map_append,
      List.append_assoc]⟩
  intro p hp q hq _ _ location hdenotes hdenotes'
  obtain ⟨names, hnames⟩ := hcomponents p hp
  obtain ⟨names', hnames'⟩ := hcomponents q hq
  -- The names lead on from the place to which the steps of the root lead.
  have hplace := eq_append_of_follow hlinks hnames hdenotes
  have hplace' := eq_append_of_follow hlinks hnames' hdenotes'
  have heq : names = names' := List.append_cancel_left (hplace.symm.trans hplace')
  rw [Path.same, hnames, hnames', heq, beq_self_eq_true]

/-- The paths that a run processes are visited, not left out, and no two of them take the same
steps. They denote no file in common if visited paths that denote the same file take the same steps,
and in a complete run, which counts each of them, only if they do. In a tree without links it is so
if the configured directories take the steps of the root and then names only. -/
theorem processed_once_iff (settings : Settings) (hreplace : Faithful replace)
    (hfs : fs.root.WellFormed) (mode : RunMode) (output : Output) :
    let run := tree replace settings mode fs output
    (∀ p ∈ run.seen, p ∈ visited settings fs ∧ selects settings p = true) ∧
      run.seen.Pairwise (fun p q => p.same q = false) ∧
      (SpelledAlike settings fs → run.seen.Pairwise fs.Apart) ∧
      (run.output.failed = false → run.summary.filesProcessed = run.seen.length ∧
        (run.seen.Pairwise fs.Apart → SpelledAlike settings fs)) ∧
      (fs.root.LinkFree → PlainDirs settings → run.seen.Pairwise fs.Apart) := by
  intro run
  obtain ⟨done, hpre, hseen, hall⟩ :
      ∃ done, done <+: paths (agenda settings fs) ∧ run.seen = done.reverse ∧
        (run.output.failed = false → done = paths (agenda settings fs)) := seen_spec hreplace hfs
  have honce (halike : SpelledAlike settings fs) : run.seen.Pairwise fs.Apart := by
    rw [hseen, List.pairwise_reverse]
    exact ((pairwise_apart halike).sublist hpre.sublist).imp FileSystem.Apart.symm
  refine ⟨fun p hp => ?_, ?_, honce, fun hcomplete => ⟨?_, fun hrun => ?_⟩,
    fun hlinks hdirs => honce (spelledAlike_of_plain hfs hlinks hdirs)⟩
  · exact of_mem_seen hreplace hfs hp
  · rw [hseen, List.pairwise_reverse]
    have hnew := pairwise_unseen settings [] (settings.dirs.flatMap (stopsAt settings fs))
    exact hnew.sublist hpre.sublist
  · have hsummary := (tree_carriesOut replace settings mode hreplace hfs output).summary hcomplete
    calc run.summary.filesProcessed
        = 0 + (entries replace settings mode fs (agenda settings fs)).countP Entry.isProcessed := by
          rw [hsummary, filesProcessed_foldl]
          rfl
      _ = (paths (agenda settings fs)).length := by rw [countP_isProcessed, Nat.zero_add]
      _ = run.seen.length := by rw [hseen, List.length_reverse, hall hcomplete]
  · -- All of the agenda was processed, and no file by two of its paths.
    rw [hseen, hall hcomplete, List.pairwise_reverse] at hrun
    exact spelledAlike_of_agenda hfs (hrun.imp FileSystem.Apart.symm)

/-- A root with a name, below which one directory is spelled in two ways. -/
def plainTree : FileSystem :=
  oneFileTree "root = 'app'\ndirs = ['src', './/src/']\n" "app" ["src", "a.ts"] "console.log(1);\n"

/-- A leading dot is no step of its own after a root with a name. -/
theorem processed_once_of_plain_dirs :
    let settings := sampleSettings "app" ["src", ".//src/"] []
    let run := tree FileSystem.replace settings .check plainTree {}
    (Settings.load plainTree none).1 = .ok settings ∧ run.seen.Pairwise plainTree.Apart ∧
      run.summary.filesProcessed = 1 ∧ run.seen.length = 1 := by
  intro settings run
  have hfs : plainTree.root.WellFormed := Node.wellFormed_of_all (by decide +kernel)
  have hlinks : plainTree.root.LinkFree := Node.linkFree_of_all (by decide +kernel)
  have hdirs : PlainDirs settings := by
    intro dir hdir
    obtain rfl | rfl : dir = .ofString "src" ∨ dir = .ofString ".//src/" := by
      simpa [settings, sampleSettings] using hdir
    · exact ⟨[(Path.ofString "src").bytes], by decide +kernel⟩
    · exact ⟨[(Path.ofString "src").bytes], by decide +kernel⟩
  obtain ⟨-, -, -, hcomplete, honce⟩ :=
    processed_once_iff settings faithful_replace hfs .check {}
  have hprocessed : run.summary.filesProcessed = 1 := by decide +kernel
  refine ⟨by decide +kernel, honce hlinks hdirs, hprocessed, ?_⟩
  rw [← hprocessed]
  exact (hcomplete (by decide +kernel)).1.symm

/-- A root without a name, and a directory that is given with a leading dot as well. -/
def dottedTree : FileSystem :=
  oneFileTree "root = ''\ndirs = ['src', './src']\n" "src" ["a.ts"] "console.log(1);\n"

/-- With a leading dot after a root without a name, a file is processed and counted twice. -/
theorem processed_twice :
    let settings := sampleSettings "" ["src", "./src"] []
    let run := tree FileSystem.replace settings .check dottedTree {}
    (Settings.load dottedTree none).1 = .ok settings ∧ dottedTree.root.LinkFree ∧
      run.seen = [.ofString "./src/a.ts", .ofString "src/a.ts"] ∧
      ¬run.seen.Pairwise dottedTree.Apart ∧ run.summary.filesProcessed = 2 ∧
      run.summary.filesModified = 2 ∧ run.summary.callsReplaced = 2 := by
  intro settings run
  have hseen : run.seen = [.ofString "./src/a.ts", .ofString "src/a.ts"] := by decide +kernel
  have hcount : run.summary.filesProcessed = 2 ∧ run.summary.filesModified = 2 ∧
      run.summary.callsReplaced = 2 := by
    decide +kernel
  refine ⟨by decide +kernel, Node.linkFree_of_all (by decide +kernel), hseen, ?_, hcount⟩
  rw [hseen, List.pairwise_pair]
  intro hapart
  let location : Location := [(Path.ofString "src").bytes, (Path.ofString "a.ts").bytes]
  have hdotted : dottedTree.Denotes (.ofString "./src/a.ts") location := rfl
  have hplain : dottedTree.Denotes (.ofString "src/a.ts") location := rfl
  exact hapart location hdotted hplain

end LogGuard.Run
