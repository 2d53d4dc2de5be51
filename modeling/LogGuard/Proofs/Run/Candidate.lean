import LogGuard.Proofs.FileSystem.Denotes
import LogGuard.Proofs.Path.LastSegment
import LogGuard.Proofs.Path.Utf8
import LogGuard.Proofs.Run.File
import LogGuard.Run.Tree

/-!
# Candidate files

A path that a walk has met ends with a name and leads to a regular file, unless it is too long to be
followed (`Candidate`). Processing it leaves the file system as it was or puts the sanitised text in
the place of that file (`file_cases`), so the same paths still lead to the same places afterwards.
Other candidates read as before unless they lead to that file, too (`readText_file`). Candidates
that take the same steps are the same file (`Candidate.arrive_of_same`).
-/

namespace LogGuard.Run

open FileSystem (SamePlaces maxPath pathError?_eq_none segments)

variable {settings : Settings} {fs fs' : FileSystem} {p q : Path} {location : Location}

/-- A path that ends with a name and leads to a regular file, if it can be followed. -/
structure Candidate (fs : FileSystem) (p : Path) : Prop where
  name : ∃ front name, segments p = front ++ [name] ∧ Path.component? name = some (.normal name)
  file : p.bytes.length ≤ maxPath → ∃ location content mode,
    (∀ followLast, fs.arrive followLast p = .reached location) ∧
      fs.root.get? location = some (.file content mode)

/-- A file below a directory was met on the walk there, and its path has an accepted extension. -/
theorem mem_filesBelow {dir : Path} :
    p ∈ filesBelow settings fs dir ↔ .file p ∈ fs.walk dir ∧ settings.accepts p = true := by
  unfold filesBelow candidates
  rw [List.mem_filterMap]
  constructor
  · rintro ⟨visit, hvisit, hp⟩
    split at hp
    · split at hp
      · rename_i haccepts
        obtain rfl := Option.some.inj hp
        exact ⟨hvisit, haccepts⟩
      · contradiction
    · contradiction
  · rintro ⟨hvisit, haccepts⟩
    exact ⟨.file p, hvisit, by simp [haccepts]⟩

/-- A path that leads somewhere is short enough to be followed. -/
theorem short_of_arrive {followLast : Bool} (h : fs.arrive followLast p = .reached location) :
    p.bytes.length ≤ maxPath := by
  unfold FileSystem.arrive at h
  split at h
  · contradiction
  · rename_i hvalid
    exact (pathError?_eq_none.mp hvalid).2.2

/-- Whatever a walk in a well-formed tree has met is a candidate. -/
theorem candidate_of_mem (hfs : fs.root.WellFormed) {dir : Path}
    (h : p ∈ filesBelow settings fs dir) : Candidate fs p := by
  obtain ⟨directory, names, content, mode, rfl, hlocate, hne, hnames, hfile⟩ :=
    exists_of_mem_walk hfs (mem_filesBelow.mp h).1
  exact ⟨segments_below hlocate hne hnames, fun hshort =>
    ⟨_, content, mode, arrive_below hlocate hne hnames hfile hshort, hfile⟩⟩

/-- Where the same paths lead to the same places, the same paths are candidates. -/
theorem Candidate.of_samePlaces (hp : Candidate fs p) (h : SamePlaces fs' fs) :
    Candidate fs' p := by
  refine ⟨hp.name, fun hshort => ?_⟩
  obtain ⟨location, content, mode, harrive, hfile⟩ := hp.file hshort
  obtain ⟨content', hfile'⟩ := h.exists_file hfile
  exact ⟨location, content', mode, fun followLast => by rw [h.arrive, harrive], hfile'⟩

/-- A candidate denotes the file to which it leads. -/
theorem Candidate.denotes (hp : Candidate fs p) (h : fs.arrive true p = .reached location) :
    fs.Denotes p location := by
  obtain ⟨location', _, _, harrive, -⟩ := hp.file (short_of_arrive h)
  obtain rfl := Arrival.reached.inj (h.symm.trans (harrive true))
  exact FileSystem.denotes_of_arrive (harrive false)

/-- Candidates that take the same steps lead to the same file. -/
theorem Candidate.arrive_of_same (hq : Candidate fs q) (hshort : q.bytes.length ≤ maxPath)
    (hsame : p.same q = true) {content : ByteArray} {mode : Nat}
    (hp : fs.arrive false p = .reached location)
    (hfile : fs.root.get? location = some (.file content mode)) :
    ∀ followLast, fs.arrive followLast q = .reached location := by
  obtain ⟨location', content', mode', harrive, hfile'⟩ := hq.file hshort
  have hdenotes : fs.Denotes q location :=
    (FileSystem.denotes_of_arrive hp).of_same hfile hq.name hsame
  obtain rfl := hdenotes.unique (FileSystem.denotes_of_arrive (harrive false))
  exact harrive

/-! ## Processing a candidate -/

/-- A way of replacing files that does what replacing a file does, if it succeeds. -/
def Faithful (replace : Replacer) : Prop :=
  ∀ fs p content fs', replace fs p content = .ok fs' → fs.replace p content = .ok fs'

/-- Replacing files as such is faithful. -/
theorem faithful_replace : Faithful FileSystem.replace :=
  fun _ _ _ _ h => h

/-- The text of a regular file that a path leads to. -/
theorem readText_eq_ok_iff {content : ByteArray} {mode : Nat} {t : String}
    (hp : fs.arrive true p = .reached location)
    (hfile : fs.root.get? location = some (.file content mode)) :
    fs.readText p = .ok t ↔ ownerReads mode = true ∧ content = encode t.toList := by
  have hnode : fs.node p = .ok (.file content mode) := by
    unfold FileSystem.node FileSystem.locate
    rw [hp]
    simp [hfile]
  unfold FileSystem.readText FileSystem.read
  rw [hnode, encode, String.ofList_toList, ← Settings.fromUTF8?_eq_some]
  rcases hutf8 : String.fromUTF8? content with _ | read <;>
    by_cases hreads : ownerReads mode = true <;> simp [hreads, hutf8]

/-- A path that can be read can be followed. -/
theorem short_of_readText {t : String} (h : fs.readText p = .ok t) :
    p.bytes.length ≤ maxPath := by
  obtain ⟨n, hnode⟩ : ∃ n, fs.node p = .ok n := by
    unfold FileSystem.readText FileSystem.read at h
    rcases hnode : fs.node p with e | n
    · simp [hnode] at h
    · exact ⟨n, rfl⟩
  obtain ⟨location, hlocate, -⟩ := exists_of_node hnode
  exact (pathError?_eq_none.mp (follow_of_locate hlocate).1).2.2

/-- Where the same paths lead to the same places, a path reads differently only if it leads to a
file with other content. -/
theorem readText_congr (h : SamePlaces fs' fs)
    (hget : ∀ location, fs.arrive true p = .reached location →
      fs'.root.get? location = fs.root.get? location) : fs'.readText p = fs.readText p := by
  have hnode : fs'.node p = fs.node p := by
    unfold FileSystem.node FileSystem.locate
    rw [h.arrive]
    cases harrive : fs.arrive true p with
    | reached location => simp [hget location harrive]
    | absent => rfl
    | link => rfl
    | failed => rfl
  unfold FileSystem.readText FileSystem.read
  rw [hnode]

variable {replace : Replacer} {mode : RunMode} {content : ByteArray} {bits : Nat}

/-- Replacing the file at a candidate changes what can be read at the paths that lead to that file,
and at no other candidate. -/
theorem readText_replaced (hreplace : Faithful replace) (hq : Candidate fs q) {t : String}
    {s : Text} (hread : fs.readText q = .ok t) (hdone : replace fs q (encode s) = .ok fs') :
    ∃ location, fs.arrive true q = .reached location ∧
      (∀ p, fs.arrive true p = .reached location → fs'.readText p = .ok (String.ofList s)) ∧
      ∀ p, Candidate fs p → fs.arrive true p ≠ .reached location →
        fs'.readText p = fs.readText p := by
  obtain ⟨location, content, bits, harrive, hfile⟩ := hq.file (short_of_readText hread)
  obtain ⟨hreads, -⟩ := (readText_eq_ok_iff (harrive true) hfile).mp hread
  obtain rfl := FileSystem.replace_eq_ok (harrive false) hfile (hreplace _ _ _ _ hdone)
  have hplaces : SamePlaces { fs with root := fs.root.put location (.file (encode s) bits) } fs :=
    ⟨Node.blank_put hfile _, rfl⟩
  refine ⟨location, harrive true, fun p hp => ?_, fun p hp hne => ?_⟩
  · rw [← hplaces.arrive] at hp
    exact (readText_eq_ok_iff hp (Node.get?_put_self hfile)).mpr
      ⟨hreads, by rw [String.toList_ofList]⟩
  · refine readText_congr hplaces fun other hother => ?_
    obtain ⟨_, content', bits', harrive', hfile'⟩ := hp.file (short_of_arrive hother)
    obtain rfl := Arrival.reached.inj (hother.symm.trans (harrive' true))
    rw [hfile']
    exact Node.get?_put_file hfile hfile' rfl (fun heq => hne (heq ▸ hother)) _

/-- Processing a candidate leaves what can be read at another one as it is, or both lead to the same
file and a text without a call is in its place. -/
theorem readText_file (hreplace : Faithful replace) (hq : Candidate fs q) (hp : Candidate fs p) :
    (file replace settings mode q fs).files.readText p = fs.readText p ∨
      (∃ location, fs.arrive true q = .reached location ∧ fs.arrive true p = .reached location) ∧
        ∃ t, Call.occursIn t = false ∧
          (file replace settings mode q fs).files.readText p = .ok (String.ofList t) := by
  have hstep := file_step replace settings mode q fs
  generalize (file replace settings mode q fs).outcome = outcome at hstep
  generalize (file replace settings mode q fs).files = after at hstep ⊢
  cases hstep with
  | replaced hread _ hsanitized _ hdone =>
    obtain ⟨location, harrive, hsame, hother⟩ := readText_replaced hreplace hq hread hdone
    by_cases harrive' : fs.arrive true p = .reached location
    · exact .inr ⟨⟨location, harrive, harrive'⟩, _, occursIn_of_sanitize hsanitized,
        hsame p harrive'⟩
    · exact .inl (hother p hp harrive')
  | _ => exact .inl rfl

/-- Processing a candidate leaves everything as it was, or the file is to be changed, is recorded as
changed and has its sanitised text in its place. -/
theorem file_cases (hreplace : Faithful replace) (hp : Candidate fs p) :
    ((mode = .check ∨ isModified (file replace settings mode p fs).outcome = false) ∧
        (file replace settings mode p fs).files = fs) ∨
      mode = .fix ∧ ∃ location bits t s,
        (∀ followLast, fs.arrive followLast p = .reached location) ∧
        fs.root.get? location = some (.file (encode t) bits) ∧ Call.occursIn t = true ∧
        sanitized settings p t = .ok s ∧
        (file replace settings mode p fs).outcome = .modified s.calls s.status ∧
        (file replace settings mode p fs).files =
          { fs with root := fs.root.put location (.file (encode s.text) bits) } := by
  have hstep := file_step replace settings mode p fs
  generalize (file replace settings mode p fs).outcome = outcome at hstep ⊢
  generalize (file replace settings mode p fs).files = after at hstep ⊢
  cases hstep with
  | unreadable => exact .inl ⟨.inr rfl, rfl⟩
  | clean => exact .inl ⟨.inr rfl, rfl⟩
  | unresolved => exact .inl ⟨.inr rfl, rfl⟩
  | examined _ _ _ hmode => exact .inl ⟨.inl hmode, rfl⟩
  | notReplaced => exact .inl ⟨.inr rfl, rfl⟩
  | replaced hread hcall hsanitized hmode hdone =>
    obtain ⟨location, content, bits, harrive, hfile⟩ := hp.file (short_of_readText hread)
    obtain ⟨-, rfl⟩ := (readText_eq_ok_iff (harrive true) hfile).mp hread
    refine .inr ⟨hmode, location, bits, _, _, harrive, hfile, hcall, hsanitized, rfl, ?_⟩
    exact FileSystem.replace_eq_ok (harrive false) hfile (hreplace _ _ _ _ hdone)

/-- Processing a candidate leaves all paths leading where they led. -/
theorem file_samePlaces (hreplace : Faithful replace) (hp : Candidate fs p) :
    SamePlaces (file replace settings mode p fs).files fs := by
  rcases file_cases hreplace hp with
    ⟨-, hsame⟩ | ⟨-, location, bits, t, s, -, hfile, -, -, -, hput⟩
  · rw [hsame]
    exact SamePlaces.refl fs
  · rw [hput]
    exact ⟨Node.blank_put hfile _, rfl⟩

/-- Processing a candidate leaves the files as they are to which it does not lead. -/
theorem file_elsewhere (hreplace : Faithful replace) (hp : Candidate fs p)
    (hne : fs.arrive false p ≠ .reached location)
    (hfile : fs.root.get? location = some (.file content bits)) :
    (file replace settings mode p fs).files.root.get? location = some (.file content bits) := by
  rcases file_cases hreplace hp with
    ⟨-, hsame⟩ | ⟨-, other, bits', t, s, harrive, hother, -, -, -, hput⟩
  · rw [hsame]
    exact hfile
  · rw [hput]
    refine Node.get?_put_file hother hfile rfl ?_ _
    rintro rfl
    exact hne (harrive false)

end LogGuard.Run
