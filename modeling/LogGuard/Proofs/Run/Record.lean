import LogGuard.FileSystem.Edit
import LogGuard.Proofs.Run.Agenda
import LogGuard.Settings.Load
import Mathlib.Algebra.GroupWithZero.Nat

/-!
# The record of a run

What is found at a stop is decided by what can be read there (`Stop.found`). It becomes the entry in
the record unless a file is to be replaced and cannot be. As long as nothing is replaced the files
stay as they are, so that the record tells what was found in them at the start (`entries_eq_found`).
A file that no path among the stops denotes is kept (`filesAfter_elsewhere`).

The summary of a run counts the entries of its record (`foldl_enter_count`), adds up what is in them
(`foldl_enter_sum`) and lists some of them (`foldl_enter_list`), and entries of one kind leave the
figures of the other kinds as they are (`foldl_enter_frame`).
-/

namespace LogGuard.Run

open FileSystem (SamePlaces)

variable {replace : Replacer} {settings : Settings} {mode : RunMode} {fs fs' : FileSystem}
  {stop : Stop} {stops : List Stop} {record : List Entry}

namespace Entry

/-- The number of calls that were, or would be, replaced. -/
def calls : Entry → Nat
  | processed _ (.modified calls _) => calls
  | _ => 0

/-- Whether a file was processed. -/
def isProcessed : Entry → Bool
  | missing _ => false
  | processed .. => true

/-- Whether a file was, or would be, changed. -/
def isModified : Entry → Bool
  | missing _ => false
  | processed _ outcome => Run.isModified outcome

/-- Whether a file could not be processed. -/
def isFailed : Entry → Bool
  | processed _ (.failed _) => true
  | _ => false

/-- A directory that does not exist. -/
def missing? : Entry → Option Path
  | missing dir => some dir
  | processed .. => none

/-- The root-relative path of a file that was, or would be, changed. -/
def modified? (settings : Settings) : Entry → Option Path
  | processed path (.modified ..) => some (relative settings path)
  | _ => none

/-- A file that could not be processed, and why. -/
def failure? : Entry → Option FileFailure
  | processed path (.failed e) => some ⟨path, e.message⟩
  | _ => none

end Entry

/-- What is found at a stop. -/
def Stop.found (settings : Settings) (fs : FileSystem) : Stop → Entry
  | .missing dir => .missing dir
  | .file path => .processed path (verdict settings path (fs.readText path))

/-- The files at stops are candidates. -/
def Candidates (fs : FileSystem) (stops : List Stop) : Prop :=
  ∀ p ∈ paths stops, Candidate fs p

/-- In a run over the file system that changes files, every file that is to be replaced is. -/
def WritesSucceed (replace : Replacer) (settings : Settings) (fs : FileSystem) : Prop :=
  ∀ path e, .processed path (.failed (.notReplaced e)) ∉
    entries replace settings .fix fs (agenda settings fs)

/-- A working directory with a configuration and one more file, to which `first` and the names in
`rest` lead. -/
def oneFileTree (table : String) (first : String) (rest : List String) (text : String) :
    FileSystem :=
  let config := "[safe_log_fixer]\n" ++ table
  let directory (name : String) (below : Node) : Node :=
    .directory FileSystem.directoryMode [((Path.ofString name).bytes, below)]
  ⟨.directory FileSystem.directoryMode [
    (Settings.defaultFile.bytes, .file (encode config.toList) 0o644),
    ((Path.ofString first).bytes, rest.foldr directory (.file (encode text.toList) 0o644))], []⟩

/-- The settings that a configuration gives with a root, directories and what to leave out. -/
def sampleSettings (root : String) (dirs : List String) (exclude : List Exclusion) : Settings :=
  ⟨.ofString root, dirs.map .ofString, Settings.defaultExtensions, Settings.defaultSafetyModule,
    exclude⟩

/-! ## Carrying out stops -/

theorem Candidates.of_samePlaces (h : Candidates fs stops)
    (hplaces : SamePlaces fs' fs) : Candidates fs' stops :=
  fun p hp => (h p hp).of_samePlaces hplaces

/-- The files on an agenda are candidates. -/
theorem candidates_agenda (hfs : fs.root.WellFormed) : Candidates fs (agenda settings fs) :=
  fun _ hp => candidate_of_mem_visited hfs (of_mem_agenda hp).1

/-- Carrying out a stop leaves all paths leading where they led. -/
theorem carryOut_samePlaces (hreplace : Faithful replace)
    (hstop : ∀ q, stop = .file q → Candidate fs q) :
    SamePlaces (stop.carryOut replace settings mode fs).2 fs := by
  cases stop with
  | missing dir => exact SamePlaces.refl fs
  | file path => exact file_samePlaces hreplace (hstop path rfl)

/-- Carrying out a stop leaves the files as they are that its path does not denote. -/
theorem carryOut_elsewhere (hreplace : Faithful replace)
    (hstop : ∀ q, stop = .file q → Candidate fs q) {location : Location} {content : ByteArray}
    {bits : Nat} (hne : ∀ q, stop = .file q → ¬fs.Denotes q location)
    (hfile : fs.root.get? location = some (.file content bits)) :
    (stop.carryOut replace settings mode fs).2.root.get? location =
      some (.file content bits) := by
  cases stop with
  | missing dir => exact hfile
  | file path =>
    exact file_elsewhere hreplace (hstop path rfl)
      (fun harrive => hne path rfl (FileSystem.denotes_of_arrive harrive)) hfile

/-- A file at the first stop is a candidate. When the stop has been carried out, those at the others
still are. -/
theorem Candidates.of_cons (settings : Settings) (mode : RunMode) (hreplace : Faithful replace)
    (h : Candidates fs (stop :: stops)) :
    (∀ q, stop = .file q → Candidate fs q) ∧
      SamePlaces (stop.carryOut replace settings mode fs).2 fs ∧
      Candidates (stop.carryOut replace settings mode fs).2 stops := by
  obtain ⟨hstop, hrest⟩ := forall_paths_cons.mp h
  have hplaces : SamePlaces (stop.carryOut replace settings mode fs).2 fs :=
    carryOut_samePlaces hreplace hstop
  exact ⟨hstop, hplaces, Candidates.of_samePlaces hrest hplaces⟩

/-- Carrying out stops leaves all paths leading where they led. -/
theorem filesAfter_samePlaces (hreplace : Faithful replace) (hstops : Candidates fs stops) :
    SamePlaces (filesAfter replace settings mode fs stops) fs := by
  induction stops generalizing fs with
  | nil => exact SamePlaces.refl fs
  | cons stop rest ih =>
    obtain ⟨-, hplaces, hrest⟩ := hstops.of_cons settings mode hreplace
    exact (ih hrest).trans hplaces

/-- Carrying out stops leaves the files as they are that no path among the stops denotes. -/
theorem filesAfter_elsewhere (hreplace : Faithful replace) (hstops : Candidates fs stops)
    {location : Location} {content : ByteArray} {bits : Nat}
    (hne : ∀ p ∈ paths stops, ¬fs.Denotes p location)
    (hfile : fs.root.get? location = some (.file content bits)) :
    (filesAfter replace settings mode fs stops).root.get? location =
      some (.file content bits) := by
  induction stops generalizing fs with
  | nil => exact hfile
  | cons stop rest ih =>
    obtain ⟨hstop, hplaces, hrest⟩ := hstops.of_cons settings mode hreplace
    obtain ⟨hfirst, hlater⟩ := forall_paths_cons.mp hne
    refine ih hrest (fun p hp hdenotes => ?_) (carryOut_elsewhere hreplace hstop hfirst hfile)
    exact hlater p hp (hplaces.denotes.mp hdenotes)

/-! ## What is found -/

/-- Where nothing is to be changed, the entry is what is found and the files stay as they are. -/
theorem carryOut_eq_found (h : mode = .check ∨ (stop.found settings fs).isModified = false) :
    stop.carryOut replace settings mode fs = (stop.found settings fs, fs) := by
  cases stop with
  | missing dir => rfl
  | file path =>
    have hstep := file_step replace settings mode path fs
    unfold Stop.carryOut
    dsimp only
    generalize (file replace settings mode path fs).outcome = outcome at hstep ⊢
    generalize (file replace settings mode path fs).files = after at hstep ⊢
    obtain rfl : outcome = verdict settings path (fs.readText path) := by
      rcases hstep.outcome_cases with heq | ⟨hmodified, hmode, -⟩
      · exact heq
      · rcases h with hcheck | hkept
        · rw [hcheck] at hmode
          contradiction
        · rw [Stop.found, Entry.isModified, hmodified] at hkept
          contradiction
    rw [hstep.files_eq h, Stop.found]

/-- Where nothing is to be changed, the record tells what is found and the files stay as they
are. -/
theorem entries_eq_found
    (h : mode = .check ∨ ∀ stop ∈ stops, (stop.found settings fs).isModified = false) :
    entries replace settings mode fs stops = stops.map (Stop.found settings fs) ∧
      filesAfter replace settings mode fs stops = fs := by
  induction stops with
  | nil => exact ⟨rfl, rfl⟩
  | cons stop rest ih =>
    have hstop : stop.carryOut replace settings mode fs = (stop.found settings fs, fs) :=
      carryOut_eq_found (h.imp_right fun h => h stop (by simp))
    obtain ⟨hentries, hfiles⟩ := ih (h.imp_right fun h other hother => h other (by simp [hother]))
    constructor
    · rw [entries_cons, hstop, hentries, List.map_cons]
    · rwa [filesAfter_cons, hstop]

/-- Checking finds out at each stop what is there, and changes nothing. -/
theorem entries_check (fs : FileSystem) (stops : List Stop) :
    entries replace settings .check fs stops = stops.map (Stop.found settings fs) :=
  (entries_eq_found (.inl rfl)).1

/-! ## Figures of the summary -/

/-- A figure of the summary to which no entry adds stays as it was. -/
theorem foldl_enter_frame {α : Type} (figure : Summary → α)
    (h : ∀ e ∈ record, ∀ s, figure (e.enter settings s) = figure s) (s : Summary) :
    figure (record.foldl (Entry.enter settings) s) = figure s := by
  induction record generalizing s with
  | nil => rfl
  | cons e rest ih =>
    rw [List.foldl_cons, ih fun e he => h e (List.mem_cons_of_mem _ he), h e List.mem_cons_self]

/-- A figure of the summary that goes up by some amount with each entry adds up the amounts. -/
theorem foldl_enter_sum (figure : Summary → Nat) (amount : Entry → Nat)
    (h : ∀ e s, figure (e.enter settings s) = figure s + amount e) (record : List Entry)
    (s : Summary) :
    figure (record.foldl (Entry.enter settings) s) = figure s + (record.map amount).sum := by
  induction record generalizing s with
  | nil => rfl
  | cons e rest ih => rw [List.foldl_cons, ih, h, List.map_cons, List.sum_cons, Nat.add_assoc]

/-- A figure of the summary that goes up by one with some of the entries counts them. -/
theorem foldl_enter_count (figure : Summary → Nat) (counts : Entry → Bool)
    (h : ∀ e s, figure (e.enter settings s) = figure s + if counts e then 1 else 0)
    (record : List Entry) (s : Summary) :
    figure (record.foldl (Entry.enter settings) s) = figure s + record.countP counts := by
  have hones : (record.map fun e => if counts e then 1 else 0).sum = record.countP counts := by
    induction record with
    | nil => rfl
    | cons e rest ih => rw [List.map_cons, List.sum_cons, ih, List.countP_cons, Nat.add_comm]
  rw [foldl_enter_sum figure _ h, hones]

/-- The files processed are the entries for files. -/
theorem filesProcessed_foldl (record : List Entry) (s : Summary) :
    (record.foldl (Entry.enter settings) s).filesProcessed =
      s.filesProcessed + record.countP Entry.isProcessed :=
  foldl_enter_count _ _ (fun e _ => by rcases e with _ | ⟨_, _ | _ | _ | _⟩ <;> rfl) record s

/-- The files modified are the entries for files that were, or would be, changed. -/
theorem filesModified_foldl (record : List Entry) (s : Summary) :
    (record.foldl (Entry.enter settings) s).filesModified =
      s.filesModified + record.countP Entry.isModified :=
  foldl_enter_count _ _ (fun e _ => by rcases e with _ | ⟨_, _ | _ | _ | _⟩ <;> rfl) record s

/-- The files with errors are the entries for files that could not be processed. -/
theorem filesErrored_foldl (record : List Entry) (s : Summary) :
    (record.foldl (Entry.enter settings) s).filesErrored =
      s.filesErrored + record.countP Entry.isFailed :=
  foldl_enter_count _ _ (fun e _ => by rcases e with _ | ⟨_, _ | _ | _ | _⟩ <;> rfl) record s

/-- The calls replaced are those of the entries. -/
theorem callsReplaced_foldl (record : List Entry) (s : Summary) :
    (record.foldl (Entry.enter settings) s).callsReplaced =
      s.callsReplaced + (record.map Entry.calls).sum :=
  foldl_enter_sum _ _ (fun e _ => by rcases e with _ | ⟨_, _ | _ | _ | _⟩ <;> rfl) record s

/-- A list of the summary to which some of the entries add an element lists these. -/
theorem foldl_enter_list {α : Type} (figure : Summary → List α) (part : Entry → Option α)
    (h : ∀ e s, figure (e.enter settings s) = figure s ++ (part e).toList)
    (record : List Entry) (s : Summary) :
    figure (record.foldl (Entry.enter settings) s) = figure s ++ record.filterMap part := by
  induction record generalizing s with
  | nil => exact (List.append_nil _).symm
  | cons e rest ih =>
    rw [List.foldl_cons, ih, h, List.append_assoc]
    cases hpart : part e with
    | none => rw [List.filterMap_cons_none hpart, Option.toList_none, List.nil_append]
    | some a => rw [List.filterMap_cons_some hpart, Option.toList_some, List.singleton_append]

/-- The missing directories are those of the entries. -/
theorem missingDirs_foldl (record : List Entry) (s : Summary) :
    (record.foldl (Entry.enter settings) s).missingDirs =
      s.missingDirs ++ record.filterMap Entry.missing? :=
  foldl_enter_list _ _
    (fun e s => by rcases e with _ | ⟨_, _ | _ | _ | _⟩ <;> simp [Entry.enter, Entry.missing?])
    record s

/-- The files listed as modified are those of the entries. -/
theorem modified_foldl (record : List Entry) (s : Summary) :
    (record.foldl (Entry.enter settings) s).modified =
      s.modified ++ record.filterMap (Entry.modified? settings) :=
  foldl_enter_list _ _
    (fun e s => by rcases e with _ | ⟨_, _ | _ | _ | _⟩ <;> simp [Entry.enter, Entry.modified?])
    record s

/-- The failures listed are those of the entries. -/
theorem failures_foldl (record : List Entry) (s : Summary) :
    (record.foldl (Entry.enter settings) s).failures =
      s.failures ++ record.filterMap Entry.failure? :=
  foldl_enter_list _ _
    (fun e s => by rcases e with _ | ⟨_, _ | _ | _ | _⟩ <;> simp [Entry.enter, Entry.failure?])
    record s

end LogGuard.Run
