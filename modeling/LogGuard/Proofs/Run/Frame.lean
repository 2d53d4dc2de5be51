import LogGuard.Proofs.Run.Record

/-!
# What a run changes and what it keeps

A run changes nothing in a tree but what is in regular files: no entry comes or goes, and all
permission bits stay. What is in a file changes only when the file is recorded as changed, and then
the sanitised text is in the place of its text (`file_effect`). A sanitised text has no call, so
that it is not changed again, whatever other paths lead to the file (`SanitizedBy.settled`). So each
file of a tree is kept by a run or was sanitised once, by one of the paths on the agenda
(`filesAfter_effect`), and a run that only examines files keeps them all (`tree_frame`).
-/

namespace LogGuard.Run

open FileSystem (SamePlaces)

variable {replace : Replacer} {settings settings' : Settings} {mode : RunMode}
  {fs fs' : FileSystem} {output : Output} {stop : Stop} {stops : List Stop} {p q : Path}
  {location : Location} {content : ByteArray} {bits : Nat} {s s' : Sanitized}

/-- The record of a run: the entries for the stops that it has carried out. -/
def history (replace : Replacer) (settings : Settings) (mode : RunMode) (fs : FileSystem)
    (output : Output) : List Entry :=
  entries replace settings mode fs (reached replace settings mode output fs (agenda settings fs))

/-- The file at a location, which the path `p` denotes, has a text with a call, and `s` is what
sanitising it for this path leads to. -/
structure SanitizedBy (settings : Settings) (fs : FileSystem) (location : Location)
    (content : ByteArray) (p : Path) (s : Sanitized) : Prop where
  denotes : fs.Denotes p location
  text : ∃ t, content = encode t ∧ Call.occursIn t = true ∧ sanitized settings p t = .ok s

/-! ## One file -/

theorem SanitizedBy.of_samePlaces (h : SanitizedBy settings fs' location content p s)
    (hplaces : SamePlaces fs' fs) : SanitizedBy settings fs location content p s :=
  ⟨hplaces.denotes.mp h.denotes, h.text⟩

/-- A sanitised text has no call. -/
theorem SanitizedBy.occursIn (h : SanitizedBy settings fs location content p s) :
    Call.occursIn s.text = false := by
  obtain ⟨t, -, -, hsanitized⟩ := h.text
  exact occursIn_of_sanitize hsanitized

/-- What was sanitised is not sanitised again, by whatever path and with whatever settings. -/
theorem SanitizedBy.settled (h : SanitizedBy settings fs location content p s) :
    ¬SanitizedBy settings' fs' location (encode s.text) q s' := by
  rintro ⟨-, t, hencode, hcall, -⟩
  obtain rfl : s.text = t := encode_injective hencode
  rw [h.occursIn] at hcall
  contradiction

/-- The sanitised text is not the text of the file. -/
theorem SanitizedBy.ne (h : SanitizedBy settings fs location content p s) :
    encode s.text ≠ content := by
  rintro rfl
  exact h.settled h

/-- Processing a candidate leaves everything as it was, or the file that it denotes is sanitised and
recorded as changed. -/
theorem file_effect (hreplace : Faithful replace) (hp : Candidate fs p) :
    ((mode = .check ∨ isModified (file replace settings mode p fs).outcome = false) ∧
        (file replace settings mode p fs).files = fs) ∨
      mode = .fix ∧ ∃ location content bits s, SanitizedBy settings fs location content p s ∧
        fs.root.get? location = some (.file content bits) ∧
        (file replace settings mode p fs).outcome = .modified s.calls s.status ∧
        (file replace settings mode p fs).files =
          { fs with root := fs.root.put location (.file (encode s.text) bits) } := by
  refine (file_cases hreplace hp).imp_right ?_
  rintro ⟨hmode, location, bits, t, s, harrive, hfile, hcall, hsanitized, houtcome, hput⟩
  have hby : SanitizedBy settings fs location (encode t) p s :=
    ⟨hp.denotes (harrive true), t, rfl, hcall, hsanitized⟩
  exact ⟨hmode, location, encode t, bits, s, hby, hfile, houtcome, hput⟩

/-! ## Several files -/

/-- What has become of the content of the file at a location, given the record of what was done. -/
inductive FileEffect (settings : Settings) (fs : FileSystem) (location : Location)
    (content : ByteArray) (record : List Entry) : ByteArray → Prop where
  /-- No path that denotes the file is recorded as changed. -/
  | kept (h : ∀ p outcome, .processed p outcome ∈ record → fs.Denotes p location →
      isModified outcome = false) :
    FileEffect settings fs location content record content
  /-- A path is recorded as changed, and the file was sanitised for this path. -/
  | sanitized (p : Path) (s : Sanitized) (hby : SanitizedBy settings fs location content p s)
    (hentry : .processed p (.modified s.calls s.status) ∈ record) :
    FileEffect settings fs location content record (encode s.text)

/-- A file that was sanitised is kept from then on. -/
theorem FileEffect.eq_of_sanitized {record : List Entry} {new : ByteArray}
    (hby : SanitizedBy settings' fs' location content p s)
    (h : FileEffect settings fs location (encode s.text) record new) : new = encode s.text := by
  cases h with
  | kept => rfl
  | sanitized q s' hagain => exact absurd hagain hby.settled

/-- What becomes of a file that more is done to. -/
theorem FileEffect.trans {record more : List Entry} {between new : ByteArray}
    (h : FileEffect settings fs location content record between)
    (hmore : FileEffect settings fs' location between more new) (hplaces : SamePlaces fs' fs) :
    FileEffect settings fs location content (record ++ more) new := by
  cases h with
  | kept hkept =>
    cases hmore with
    | kept hkept' =>
      refine .kept fun p outcome hentry hdenotes => ?_
      rcases List.mem_append.mp hentry with hfirst | hlater
      · exact hkept p outcome hfirst hdenotes
      · exact hkept' p outcome hlater (hplaces.denotes.mpr hdenotes)
    | sanitized q s hby hentry =>
      exact .sanitized q s (hby.of_samePlaces hplaces) (List.mem_append_right _ hentry)
  | sanitized q s hby hentry =>
    -- No call is left in the file, so what is done later does not change it again.
    obtain rfl := hmore.eq_of_sanitized hby
    exact .sanitized q s hby (List.mem_append_left _ hentry)

variable (settings)

/-- Carrying out a stop keeps each file or puts its sanitised text in its place, as the entry tells,
and keeps its permission bits. -/
theorem carryOut_effect (hreplace : Faithful replace)
    (hstop : ∀ q, stop = .file q → Candidate fs q)
    (hfile : fs.root.get? location = some (.file content bits)) :
    ∃ new, (stop.carryOut replace settings .fix fs).2.root.get? location = some (.file new bits) ∧
      FileEffect settings fs location content [(stop.carryOut replace settings .fix fs).1]
        new := by
  cases stop with
  | missing dir =>
    exact ⟨content, hfile, .kept fun p outcome hentry => by simp [Stop.carryOut] at hentry⟩
  | file path =>
    rcases file_effect hreplace (hstop path rfl) with
      ⟨hmode, hfiles⟩ | ⟨-, other, content', bits', s, hby, hother, houtcome, hput⟩
    · -- Nothing is changed and nothing is recorded as changed.
      refine ⟨content, by rw [Stop.carryOut, hfiles, hfile], .kept fun p outcome hentry _ => ?_⟩
      obtain ⟨-, rfl⟩ := Entry.processed.inj (List.mem_singleton.mp hentry)
      exact hmode.resolve_left (by decide)
    · by_cases heq : location = other
      · subst heq
        obtain ⟨rfl, rfl⟩ : content = content' ∧ bits = bits' := by simpa [hfile] using hother
        refine ⟨_, ?_, .sanitized path s hby ?_⟩
        · rw [Stop.carryOut, hput]
          exact Node.get?_put_self hfile
        · rw [Stop.carryOut, houtcome]
          exact List.mem_singleton_self _
      · -- The path that is recorded as changed denotes another file.
        refine ⟨content, ?_, .kept fun p outcome hentry hdenotes => ?_⟩
        · rw [Stop.carryOut, hput]
          exact Node.get?_put_file hother hfile rfl heq _
        · obtain ⟨rfl, -⟩ := Entry.processed.inj (List.mem_singleton.mp hentry)
          exact absurd (hdenotes.unique hby.denotes) heq

/-- Carrying out stops keeps each file or puts its sanitised text in its place, as the record tells,
and keeps its permission bits. -/
theorem filesAfter_effect (hreplace : Faithful replace) (hstops : Candidates fs stops)
    (hfile : fs.root.get? location = some (.file content bits)) :
    ∃ new, (filesAfter replace settings .fix fs stops).root.get? location = some (.file new bits) ∧
      FileEffect settings fs location content (entries replace settings .fix fs stops) new := by
  induction stops generalizing fs content with
  | nil => exact ⟨content, hfile, .kept fun p outcome hentry => by contradiction⟩
  | cons stop rest ih =>
    obtain ⟨hstop, hplaces, hrest⟩ := hstops.of_cons settings .fix hreplace
    obtain ⟨between, hbetween, hfirst⟩ := carryOut_effect settings hreplace hstop hfile
    obtain ⟨new, hnew, hlater⟩ := ih hrest hbetween
    exact ⟨new, hnew, hfirst.trans hlater hplaces⟩

/-! ## Whole runs -/

variable {settings}

/-- The path of the file that an entry is about. -/
def Entry.path? : Entry → Option Path
  | missing _ => none
  | processed path _ => some path

/-- A record is about the files among the stops, in order. -/
theorem filterMap_path?_entries (fs : FileSystem) (stops : List Stop) :
    (entries replace settings mode fs stops).filterMap Entry.path? = paths stops := by
  induction stops generalizing fs with
  | nil => rfl
  | cons stop rest ih =>
    rw [entries_cons]
    cases stop with
    | missing dir => exact ih fs
    | file path => exact congrArg (path :: ·) (ih _)

/-- The files that a run has processed are those of its record, the last one first. -/
theorem reverse_seen (hreplace : Faithful replace) (hfs : fs.root.WellFormed) :
    (tree replace settings mode fs output).seen.reverse =
      (history replace settings mode fs output).filterMap Entry.path? := by
  have hrun := tree_carriesOut replace settings mode hreplace hfs output
  rw [history, filterMap_path?_entries, hrun.seen]
  exact (congrArg List.reverse (List.append_nil _)).trans (List.reverse_reverse _)

/-- The files that a run comes to before its output takes no more are on its agenda. -/
theorem mem_agenda_of_reached
    (h : p ∈ paths (reached replace settings mode output fs (agenda settings fs))) :
    p ∈ paths (agenda settings fs) :=
  ((prefix_of_reached ..).filterMap _).subset h

/-- The stops that a run carries out are candidates. -/
theorem candidates_reached (replace : Replacer) (settings : Settings) (mode : RunMode)
    (output : Output) (hfs : fs.root.WellFormed) :
    Candidates fs (reached replace settings mode output fs (agenda settings fs)) :=
  fun _ hp => candidates_agenda hfs _ (mem_agenda_of_reached hp)

/-- A complete run carries out its agenda, and its summary is made of the entries of its record. -/
theorem of_complete (hreplace : Faithful replace) (hfs : fs.root.WellFormed)
    (hopen : (tree replace settings mode fs output).output.failed = false) :
    history replace settings mode fs output =
        entries replace settings mode fs (agenda settings fs) ∧
      (tree replace settings mode fs output).files =
        filesAfter replace settings mode fs (agenda settings fs) ∧
      (tree replace settings mode fs output).summary =
        (history replace settings mode fs output).foldl (Entry.enter settings)
          { dryRun := mode == .check } := by
  have hrun := tree_carriesOut replace settings mode hreplace hfs output
  have hall := hrun.reached_eq hopen
  have hrecord : history replace settings mode fs output =
      entries replace settings mode fs (agenda settings fs) :=
    congrArg (entries replace settings mode fs) hall
  refine ⟨hrecord, ?_, ?_⟩
  · rw [hrun.files, hall]
    rfl
  · rw [hrecord]
    exact hrun.summary hopen

/-- A run that only examines files leaves the file system as it was. A run that changes files leaves
all places as they were and every regular file where it was, with its permission bits. If there is
new content in it, some visited path denotes the file that has an accepted extension and is not left
out, the file has a text with a call, its path is recorded as changed, and the new content is the
text sanitised for this path. If no outcome but failures is recorded for the paths that denote the
file, its content is kept. -/
theorem tree_frame (settings : Settings) (hreplace : Faithful replace) (hfs : fs.root.WellFormed)
    (output : Output) :
    (tree replace settings .check fs output).files = fs ∧
      let run := tree replace settings .fix fs output
      let record := history replace settings .fix fs output
      run.seen.reverse = record.filterMap Entry.path? ∧ SamePlaces run.files fs ∧
        ∀ location content bits, fs.root.get? location = some (.file content bits) →
          ∃ new, run.files.root.get? location = some (.file new bits) ∧
            (new ≠ content → ∃ p s, p ∈ visited settings fs ∧ settings.accepts p = true ∧
              settings.isExcluded (relative settings p) = false ∧
              settings.isSafetyModule (relative settings p) = false ∧
              SanitizedBy settings fs location content p s ∧
              .processed p (.modified s.calls s.status) ∈ record ∧ new = encode s.text) ∧
            ((∀ p outcome, .processed p outcome ∈ record → fs.Denotes p location →
              ∃ e, outcome = .failed e) → new = content) := by
  refine ⟨?_, reverse_seen hreplace hfs, ?_⟩
  · -- Whatever part of the agenda is carried out, examining files changes none.
    rw [(tree_carriesOut replace settings .check hreplace hfs output).files]
    exact (entries_eq_found (.inl rfl)).2
  · have hstops := candidates_reached replace settings .fix output hfs
    have hfiles := (tree_carriesOut replace settings .fix hreplace hfs output).files
    rw [hfiles]
    refine ⟨filesAfter_samePlaces hreplace hstops, fun location content bits hfile => ?_⟩
    obtain ⟨new, hnew, heffect⟩ := filesAfter_effect settings hreplace hstops hfile
    refine ⟨new, hnew, ?_⟩
    cases heffect with
    | kept => exact ⟨fun hne => absurd rfl hne, fun _ => rfl⟩
    | sanitized p s hby hentry =>
      refine ⟨fun _ => ?_, fun hfailed => ?_⟩
      · have hp : p ∈ paths (reached replace settings .fix output fs (agenda settings fs)) := by
          rw [← filterMap_path?_entries]
          exact List.mem_filterMap.mpr ⟨_, hentry, rfl⟩
        obtain ⟨hvisited, hselects⟩ := of_mem_agenda (mem_agenda_of_reached hp)
        obtain ⟨hexcluded, hmodule⟩ : settings.isExcluded (relative settings p) = false ∧
            settings.isSafetyModule (relative settings p) = false := by
          simpa [selects] using hselects
        obtain ⟨dir, -, hbelow⟩ := List.mem_flatMap.mp hvisited
        exact ⟨p, s, hvisited, (mem_filesBelow.mp hbelow).2, hexcluded, hmodule, hby, hentry, rfl⟩
      · obtain ⟨e, hmodified⟩ := hfailed p _ hentry hby.denotes
        contradiction

/-- A working directory with two directories of one file each. The first file is private. -/
def twoFileTree (first second : ByteArray) : FileSystem :=
  let directory (name file : String) (n : Node) : Segment × Node :=
    ((Path.ofString name).bytes,
      .directory FileSystem.directoryMode [((Path.ofString file).bytes, n)])
  ⟨.directory FileSystem.directoryMode [directory "one" "a.ts" (.file first 0o600),
    directory "two" "b.ts" (.file second 0o644)], []⟩

/-- The places of the files of `twoFileTree`. -/
def filePlace (directory file : String) : Location :=
  [(Path.ofString directory).bytes, (Path.ofString file).bytes]

/-- One file is sanitised and stays private, the other one is not UTF-8 and is kept. -/
theorem tree_frame_of_failure :
    let settings := sampleSettings "" ["one", "two"] []
    let fs := twoFileTree (encode "console.log(1);\n".toList) ⟨#[0xC3, 0x28]⟩
    let run := tree FileSystem.replace settings .fix fs {}
    fs.root.WellFormed ∧ (tree FileSystem.replace settings .check fs {}).files = fs ∧
      SamePlaces run.files fs ∧
      run.files.readText (.ofString "one/a.ts") = .ok "safeLog(1);\n" ∧
      (∃ new, run.files.root.get? (filePlace "one" "a.ts") = some (.file new 0o600)) ∧
      run.files.root.get? (filePlace "two" "b.ts") = some (.file ⟨#[0xC3, 0x28]⟩ 0o644) := by
  intro settings fs run
  have hfs : fs.root.WellFormed := Node.wellFormed_of_all (by decide +kernel)
  obtain ⟨hcheck, -, hplaces, hfile⟩ := tree_frame settings faithful_replace hfs {}
  obtain ⟨new, hnew, -⟩ := hfile (filePlace "one" "a.ts") _ _ rfl
  obtain ⟨kept, hkept, -, hfailed⟩ := hfile (filePlace "two" "b.ts") _ _ rfl
  have hrecord : history FileSystem.replace settings .fix fs {} =
      [.processed (.ofString "one/a.ts") (.modified 1 .unanchored),
        .processed (.ofString "two/b.ts")
          (.failed (.unreadable (.ofString "two/b.ts") .notUtf8))] := by
    decide +kernel
  refine ⟨hfs, hcheck, hplaces, by decide +kernel, ⟨new, hnew⟩, ?_⟩
  -- The first path denotes another file, and by the second one the file cannot be read.
  obtain rfl : kept = ⟨#[0xC3, 0x28]⟩ := by
    refine hfailed fun p outcome hentry hdenotes => ?_
    rw [hrecord, List.mem_pair] at hentry
    rcases hentry with heq | heq
    · obtain ⟨rfl, -⟩ := Entry.processed.inj heq
      have hfirst : fs.Denotes (.ofString "one/a.ts") (filePlace "one" "a.ts") := rfl
      exact absurd (hdenotes.unique hfirst) (by decide)
    · obtain ⟨-, rfl⟩ := Entry.processed.inj heq
      exact ⟨_, rfl⟩
  exact hkept

end LogGuard.Run
