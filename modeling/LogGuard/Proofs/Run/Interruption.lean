import LogGuard.Proofs.Run.Frame
import LogGuard.Proofs.Run.Rerun

/-!
# A run that is interrupted

A file is changed before its line is printed, so that an output that takes only so many bytes may
interrupt a run between the two, in the middle of any line. The entry whose line does not fit is the
last one of the run's record (`exists_of_overflow`). What was changed until then is as a whole run
leaves it, since no file is changed twice, and the rest is as it was. A run that starts over from
there finds nothing to be changed at the stops that were carried out (`filesAfter_again`), and goes
on with the others as if it had not been interrupted (`tree_interrupted`).
-/

namespace LogGuard.Run

open FileSystem (SamePlaces)

variable {replace : Replacer} {settings : Settings} {mode : RunMode} {fs fs' : FileSystem}
  {stops more : List Stop} {record : List Entry} {location : Location} {content : ByteArray}
  {bits n : Nat} {before : List UInt8}

/-! ## What is printed -/

/-- The bytes that are printed for an entry. -/
def Entry.bytes (settings : Settings) (mode : RunMode) (e : Entry) : List UInt8 :=
  ((e.line? settings mode).map Output.lineBytes).getD []

/-- The bytes that are printed for a record. -/
def recordBytes (settings : Settings) (mode : RunMode) (record : List Entry) : List UInt8 :=
  record.flatMap (Entry.bytes settings mode)

@[simp]
theorem recordBytes_nil : recordBytes settings mode [] = [] :=
  rfl

@[simp]
theorem recordBytes_cons (e : Entry) (record : List Entry) :
    recordBytes settings mode (e :: record) =
      e.bytes settings mode ++ recordBytes settings mode record :=
  rfl

theorem print_given (limit : Option Nat) (before : List UInt8) (e : Entry) :
    e.print settings mode (Output.given limit before) =
      Output.given limit (before ++ e.bytes settings mode) := by
  unfold Entry.print Entry.bytes
  cases e.line? settings mode with
  | none => exact congrArg (Output.given limit) (List.append_nil before).symm
  | some line => exact Output.printLine_given limit before line

/-- Printing a record gives its bytes to the output. -/
theorem foldl_print_given (limit : Option Nat) (before : List UInt8) (record : List Entry) :
    record.foldl (Entry.print settings mode) (Output.given limit before) =
      Output.given limit (before ++ recordBytes settings mode record) := by
  induction record generalizing before with
  | nil => exact congrArg (Output.given limit) (List.append_nil before).symm
  | cons e rest ih => rw [List.foldl_cons, print_given, ih, recordBytes_cons, List.append_assoc]

/-- An output that has not failed after a record has taken all its bytes. -/
theorem printed_foldl_print {o : Output}
    (h : (record.foldl (Entry.print settings mode) o).failed = false) :
    (record.foldl (Entry.print settings mode) o).printed =
      o.printed ++ recordBytes settings mode record := by
  induction record generalizing o with
  | nil => exact (List.append_nil _).symm
  | cons e rest ih =>
    rw [List.foldl_cons] at h ⊢
    have hopen : (e.print settings mode o).failed = false := by
      by_contra hfailed
      rw [foldl_print_of_failed (by simpa using hfailed)] at h
      exact hfailed h
    have hline : (e.print settings mode o).printed = o.printed ++ e.bytes settings mode := by
      unfold Entry.bytes
      unfold Entry.print at hopen ⊢
      cases hprinted : e.line? settings mode with
      | none => exact (List.append_nil _).symm
      | some line =>
        rw [hprinted] at hopen
        exact Output.printed_of_open hopen
    rw [ih h, hline, recordBytes_cons, List.append_assoc]

/-- The bytes that are printed for a record are those of its lines. -/
theorem recordBytes_eq_flatMap (settings : Settings) (mode : RunMode) (record : List Entry) :
    recordBytes settings mode record =
      (record.filterMap (Entry.line? settings mode)).flatMap Output.lineBytes := by
  induction record with
  | nil => rfl
  | cons e rest ih =>
    rw [recordBytes_cons, ih, Entry.bytes]
    cases hline : e.line? settings mode with
    | none => rw [List.filterMap_cons_none hline]; rfl
    | some line => rw [List.filterMap_cons_some hline, List.flatMap_cons]; rfl

/-- If not all that is printed fits, the last entry that is made is the one whose line does not. -/
theorem exists_of_overflow (hfits : before.length ≤ n)
    (hlonger : n < before.length +
      (recordBytes settings mode (entries replace settings mode fs stops)).length) :
    ∃ done last, entries replace settings mode fs
        (reached replace settings mode (Output.given (some n) before) fs stops) = done ++ [last] ∧
      before.length + (recordBytes settings mode done).length ≤ n ∧
      n < before.length + (recordBytes settings mode (done ++ [last])).length := by
  induction stops generalizing fs before with
  | nil =>
    have hnone : entries replace settings mode fs [] = [] := rfl
    rw [hnone, recordBytes_nil, List.length_nil] at hlonger
    omega
  | cons stop rest ih =>
    have hopen : (Output.given (some n) before).failed = false := decide_eq_false (by omega)
    rw [reached, hopen, if_neg (by decide)]
    dsimp only
    rw [entries_cons] at hlonger ⊢
    rw [print_given]
    generalize (stop.carryOut replace settings mode fs).1 = e at hlonger ⊢
    generalize (stop.carryOut replace settings mode fs).2 = after at hlonger ⊢
    rw [recordBytes_cons, List.length_append] at hlonger
    have hlength : (before ++ e.bytes settings mode).length =
        before.length + (e.bytes settings mode).length := List.length_append
    by_cases hline : before.length + (e.bytes settings mode).length ≤ n
    · -- The line fits, so it is a later one that does not.
      obtain ⟨done, last, hentries, hdone, hlast⟩ :=
        @ih after (before ++ e.bytes settings mode) (by omega) (by omega)
      refine ⟨e :: done, last, congrArg (e :: ·) hentries, ?_, ?_⟩
      · rw [recordBytes_cons, List.length_append]
        omega
      · rw [List.cons_append, recordBytes_cons, List.length_append]
        omega
    · -- The output fails with the line for this stop, and nothing more is carried out.
      have hfailed : (Output.given (some n) (before ++ e.bytes settings mode)).failed = true :=
        decide_eq_true (by omega)
      rw [reached_of_failed hfailed]
      refine ⟨[], e, rfl, hfits, ?_⟩
      rw [List.nil_append, recordBytes_cons, recordBytes_nil, List.append_nil]
      omega

/-- What has become of the output of a run depends on the bytes for its agenda. -/
theorem tree_output (hreplace : Faithful replace) (hfs : fs.root.WellFormed)
    (limit : Option Nat) :
    (tree replace settings mode fs { limit := limit }).output =
      Output.given limit
        (recordBytes settings mode (entries replace settings mode fs (agenda settings fs))) := by
  -- A run stops printing when its output fails, but an output that has failed takes nothing anyway.
  have hrun := tree_carriesOut replace settings mode hreplace hfs (Output.given limit [])
  rw [← Output.given_nil, hrun.output]
  exact foldl_print_given limit [] _

/-! ## Starting over -/

/-- A file that was changed at the first stops is kept at the others. -/
theorem filesAfter_part (settings : Settings) (hreplace : Faithful replace)
    (hstops : Candidates fs (stops ++ more))
    (hfile : fs.root.get? location = some (.file content bits)) :
    ∃ new, (filesAfter replace settings .fix fs stops).root.get? location =
        some (.file new bits) ∧
      FileEffect settings fs location content (entries replace settings .fix fs stops) new ∧
      (new = content ∨
        (filesAfter replace settings .fix fs (stops ++ more)).root.get? location =
          some (.file new bits)) := by
  obtain ⟨hfirst, hmore⟩ : Candidates fs stops ∧ Candidates fs more :=
    forall_paths_append.mp hstops
  have hplaces : SamePlaces (filesAfter replace settings .fix fs stops) fs :=
    filesAfter_samePlaces hreplace hfirst
  obtain ⟨new, hnew, heffect⟩ := filesAfter_effect settings hreplace hfirst hfile
  refine ⟨new, hnew, heffect, ?_⟩
  cases heffect with
  | kept => exact .inl rfl
  | sanitized p s hby hentry =>
    -- The other stops find no call in the file.
    obtain ⟨final, hfinal, hlater⟩ :=
      filesAfter_effect settings hreplace (hmore.of_samePlaces hplaces) hnew
    obtain rfl := hlater.eq_of_sanitized hby
    rw [filesAfter_append]
    exact .inr hfinal

/-- What was carried out, with every write successful, changes nothing when it is done again. -/
theorem filesAfter_again (hreplace : Faithful replace) (hstops : Candidates fs stops)
    (hwrites : ∀ path e, .processed path (.failed (.notReplaced e)) ∉
      entries replace settings .fix fs stops) :
    filesAfter replace settings .fix (filesAfter replace settings .fix fs stops) stops =
      filesAfter replace settings .fix fs stops :=
  (entries_eq_found (.inr fun _ hstop => (found_settled hreplace hstops hwrites hstop).1)).2

/-- Stops have the same effect if the first of them were carried out before. -/
theorem filesAfter_resume (hreplace : Faithful replace) (hstops : Candidates fs stops)
    (hwrites : ∀ path e, .processed path (.failed (.notReplaced e)) ∉
      entries replace settings .fix fs (stops ++ more)) :
    filesAfter replace settings .fix (filesAfter replace settings .fix fs stops) (stops ++ more) =
      filesAfter replace settings .fix fs (stops ++ more) := by
  rw [filesAfter_append, filesAfter_append, filesAfter_again hreplace hstops]
  intro path e hentry
  rw [entries_append] at hwrites
  exact hwrites path e (List.mem_append_left _ hentry)

/-- A run whose output takes everything is complete. -/
theorem complete_of_unlimited (settings : Settings) (mode : RunMode) (hreplace : Faithful replace)
    (hfs : fs.root.WellFormed) : (tree replace settings mode fs {}).output.failed = false := by
  rw [tree_output hreplace hfs none]
  rfl

/-- Let the output of a run take `n` bytes, and let every file that is to be replaced be replaced.
If that is enough for all that a whole run prints, the run ends as the whole one. Otherwise the run
has printed the first `n` bytes, and the record of what it has processed ends with the entry whose
line does not fit. All places are as they were. Each file was sanitised by a path of the record and
is as the whole run leaves it, or no path that denotes it is recorded as changed and it is as it
was. A whole run from there leaves all files as the whole run from the start. -/
theorem tree_interrupted (settings : Settings) (hreplace : Faithful replace)
    (hfs : fs.root.WellFormed) (hwrites : WritesSucceed replace settings fs) (n : Nat) :
    let whole := tree replace settings .fix fs {}
    let part := tree replace settings .fix fs { limit := some n }
    let record := history replace settings .fix fs { limit := some n }
    whole.output.failed = false ∧
      (whole.output.printed.length ≤ n →
        part.output.failed = false ∧ part.output.printed = whole.output.printed ∧
          part.summary = whole.summary ∧ part.files = whole.files) ∧
      (n < whole.output.printed.length →
        part.output.failed = true ∧ part.output.printed = whole.output.printed.take n ∧
          (∃ done last, record = done ++ [last] ∧ record <+: history replace settings .fix fs {} ∧
            (recordBytes settings .fix done).length ≤ n ∧
            n < (recordBytes settings .fix record).length) ∧
          part.seen.reverse = record.filterMap Entry.path? ∧ SamePlaces part.files fs ∧
          (∀ location content bits, fs.root.get? location = some (.file content bits) →
            ∃ new, part.files.root.get? location = some (.file new bits) ∧
              FileEffect settings fs location content record new ∧
              (new = content ∨ whole.files.root.get? location = some (.file new bits))) ∧
          (tree replace settings .fix part.files {}).files = whole.files) := by
  intro whole part record
  have hopen : whole.output.failed = false := complete_of_unlimited settings .fix hreplace hfs
  obtain ⟨hrecord, hwhole, hsummary⟩ := of_complete hreplace hfs hopen
  have hall : whole.output = Output.given none
      (recordBytes settings .fix (entries replace settings .fix fs (agenda settings fs))) :=
    tree_output hreplace hfs none
  have hpart : part.output = Output.given (some n)
      (recordBytes settings .fix (entries replace settings .fix fs (agenda settings fs))) :=
    tree_output hreplace hfs (some n)
  have hrun := tree_carriesOut replace settings .fix hreplace hfs { limit := some n }
  rw [hall, hpart]
  refine ⟨rfl, fun hfits => ?_, fun hlonger => ?_⟩
  · have hpartOpen : part.output.failed = false := by
      rw [hpart]
      exact decide_eq_false (Nat.not_lt.mpr hfits)
    obtain ⟨hrecord', hfiles', hsummary'⟩ := of_complete hreplace hfs hpartOpen
    refine ⟨hpart ▸ hpartOpen, List.take_of_length_le hfits, ?_, hfiles'.trans hwhole.symm⟩
    rw [hsummary', hsummary, hrecord', hrecord]
  · -- The agenda goes on after the stops that were carried out.
    obtain ⟨stops, hreached⟩ : ∃ stops,
        reached replace settings .fix { limit := some n } fs (agenda settings fs) = stops :=
      ⟨_, rfl⟩
    have hstops : Candidates fs stops := hreached ▸ candidates_reached replace settings .fix _ hfs
    have hfiles : part.files = filesAfter replace settings .fix fs stops := hreached ▸ hrun.files
    have hentries : record = entries replace settings .fix fs stops :=
      congrArg (entries replace settings .fix fs) hreached
    obtain ⟨more, hagenda⟩ : stops <+: agenda settings fs := hreached ▸ prefix_of_reached ..
    have hplaces : SamePlaces part.files fs := by
      rw [hfiles]
      exact filesAfter_samePlaces hreplace hstops
    refine ⟨decide_eq_true hlonger, rfl, ?_, reverse_seen hreplace hfs, hplaces,
      fun location content bits hfile => ?_, ?_⟩
    · obtain ⟨done, last, hlast, hdone, hnext⟩ :=
        @exists_of_overflow replace settings .fix fs (agenda settings fs) n [] (Nat.zero_le n)
          (by rwa [List.length_nil, Nat.zero_add])
      rw [Output.given_nil, hreached, ← hentries] at hlast
      rw [List.length_nil, Nat.zero_add, ← hlast] at hnext
      rw [List.length_nil, Nat.zero_add] at hdone
      refine ⟨done, last, hlast, ?_, hdone, hnext⟩
      rw [hrecord, ← hagenda, entries_append, hentries]
      exact List.prefix_append _ _
    · rw [hfiles, hentries, hwhole, ← hagenda]
      exact filesAfter_part settings hreplace (hagenda ▸ candidates_agenda hfs) hfile
    · have hagain : agenda settings part.files = agenda settings fs := agenda_congr hplaces
      have hwf : part.files.root.WellFormed := hfs.of_blank hplaces.blank
      have hcomplete := complete_of_unlimited settings .fix hreplace hwf
      rw [(of_complete hreplace hwf hcomplete).2.1, hagain, hwhole, hfiles, ← hagenda]
      exact filesAfter_resume hreplace hstops fun path e => hagenda ▸ hwrites path e

/-- The output fails in the first line. The file that the line is about is sanitised, the other one
is not, and the next run goes on with it. -/
theorem tree_interrupted_at_first_line :
    let settings := sampleSettings "" ["one", "two"] []
    let fs := twoFileTree (encode "console.log(1);\n".toList) (encode "console.log(2);\n".toList)
    let whole := tree FileSystem.replace settings .fix fs {}
    let part := tree FileSystem.replace settings .fix fs { limit := some 3 }
    fs.root.WellFormed ∧ WritesSucceed FileSystem.replace settings fs ∧
      3 < whole.output.printed.length ∧ part.output.failed = true ∧
      part.output.printed = whole.output.printed.take 3 ∧
      part.files.readText (.ofString "one/a.ts") = .ok "safeLog(1);\n" ∧
      part.files.readText (.ofString "two/b.ts") = .ok "console.log(2);\n" ∧
      whole.files.readText (.ofString "two/b.ts") = .ok "safeLog(2);\n" ∧
      (tree FileSystem.replace settings .fix part.files {}).files = whole.files := by
  intro settings fs whole part
  have hfs : fs.root.WellFormed := Node.wellFormed_of_all (by decide +kernel)
  have hwrites : WritesSucceed FileSystem.replace settings fs := by
    have hrecord : entries FileSystem.replace settings .fix fs (agenda settings fs) =
        [.processed (.ofString "one/a.ts") (.modified 1 .unanchored),
          .processed (.ofString "two/b.ts") (.modified 1 .unanchored)] := by
      decide +kernel
    intro path e
    rw [hrecord]
    simp
  have hlonger : 3 < whole.output.printed.length := by decide +kernel
  obtain ⟨hfailed, hprinted, -, -, -, -, hresumed⟩ :=
    (tree_interrupted settings faithful_replace hfs hwrites 3).2.2 hlonger
  exact ⟨hfs, hwrites, hlonger, hfailed, hprinted, by decide +kernel, by decide +kernel,
    by decide +kernel, hresumed⟩

end LogGuard.Run
