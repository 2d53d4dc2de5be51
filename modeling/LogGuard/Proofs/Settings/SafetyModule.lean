import LogGuard.Proofs.Path.Extension
import LogGuard.Proofs.Path.Utf8
import LogGuard.Proofs.Settings.Accepted

/-!
# Which paths lead to the safety module

A path is taken for the source of the safety module if it has one of the configured extensions and
is the module without it. For a path that ends with a name this says which steps it takes: those of
the module, with the extension appended to the last one (`isSafetyModule_iff`). An extension with a
dot of its own is never recognised, as only what follows the last dot of a name is its extension.
-/

namespace LogGuard.Settings

open FileSystem (segments)

/-- The steps of the safety module with an extension appended to the last one. -/
def SourceSteps (s : Settings) (e : Text) (steps : List Component) : Prop :=
  ∃ front name, (path s.safetyModule).components = front ++ [.normal name] ∧
    steps = front ++ [.normal (name ++ Path.dot :: (path e).bytes)]

/-- A path takes the steps of the safety module with a configured extension that has no dot of its
own. -/
def SpellsModule (s : Settings) (p : Path) : Prop :=
  ∃ e ∈ s.extensions, '.' ∉ e ∧ s.SourceSteps e p.components

variable {s : Settings} {p : Path}

/-- A name is looked at if what follows its last dot is a configured extension. -/
theorem accepts_iff {name : Segment} (hname : p.fileName? = some name) :
    s.accepts p = true ↔
      ∃ stem, ∃ e ∈ s.extensions, name = stem ++ Path.dot :: (path e).bytes ∧ stem ≠ [] ∧
        '.' ∉ e := by
  unfold accepts Path.extension?
  rw [hname, Option.bind_some]
  constructor
  · intro h
    split at h
    · rename_i e he
      obtain ⟨extension, hsplit, hread⟩ := Option.bind_eq_some_iff.mp he
      rw [toString?_eq_some] at hread
      obtain ⟨hcut, hstem, hdot⟩ := Path.splitExtension_eq_some.mp (Prod.ext rfl hsplit)
      refine ⟨_, e.toList, by simpa [hasExtension] using h, hread ▸ hcut, hstem, ?_⟩
      rwa [hread, dot_mem_path] at hdot
    · contradiction
  · rintro ⟨stem, e, he, rfl, hstem, hdot⟩
    have hread : Path.toString? ⟨(path e).bytes⟩ = some (String.ofList e) := by
      rw [toString?_eq_some, String.toList_ofList]
    rw [Path.splitExtension_append hstem (mt dot_mem_path.mp hdot), Option.bind_some, hread]
    simpa [hasExtension] using he

/-- The path without steps is not the source of the module. -/
theorem isSafetyModule_of_nil (hp : p.components = []) :
    s.isSafetyModule p = false ∧ ¬s.SpellsModule p := by
  constructor
  · have hextension : p.extension? = none := by
      rw [Path.extension?, Path.fileName?, hp]
      rfl
    rw [isSafetyModule, accepts, hextension]
    simp
  · rintro ⟨e, -, -, front, name, -, hcomponents⟩
    rw [hp] at hcomponents
    simp at hcomponents

/-- A path that ends with a name is taken for the source of an accepted module exactly if it takes
the steps of the module with an extension. -/
theorem Accepted.isSafetyModule_iff (hs : s.Accepted) {front : List Segment} {name : Segment}
    (h : segments p = front ++ [name]) (hname : Path.component? name = some (.normal name)) :
    s.isSafetyModule p = true ↔ s.SpellsModule p := by
  have hcomponents := Path.components_of_segments h
  rw [hname, Option.toList_some] at hcomponents
  rw [isSafetyModule, Bool.and_eq_true, accepts_iff (Path.fileName?_of_segments h hname)]
  constructor
  · rintro ⟨hsame, stem, e, he, rfl, hstem, hdot⟩
    rw [Path.same, beq_iff_eq,
      Path.components_withoutExtension h hstem (mt dot_mem_path.mp hdot) hname] at hsame
    refine ⟨e, he, hdot, _, stem, ?_, hcomponents⟩
    -- Only names are steps of the module, so the stem is one.
    have hnormal := hs.module_normal
    rw [← hsame] at hnormal ⊢
    split at hnormal
    · obtain ⟨other, hother⟩ := hnormal .parent (by simp)
      contradiction
    · rename_i hone
      rw [Path.component?_solid (by simp [Path.isVoid, hstem, hone])] at hnormal ⊢
      split at hnormal
      · obtain ⟨other, hother⟩ := hnormal .parent (by simp)
        contradiction
      · rename_i htwo
        rw [if_neg hone, if_neg htwo, Option.toList_some]
  · rintro ⟨e, he, hdot, front', stem, hmodule, hsteps⟩
    -- The last step of the module is a name, so it is neither empty nor a dot.
    have hstem : Path.component? stem = some (.normal stem) :=
      Path.component?_of_mem (p := path s.safetyModule) (by rw [hmodule]; simp)
    obtain ⟨-, hsolid, -⟩ := Path.component?_eq_normal.mp hstem
    have hstem_ne : stem ≠ [] ∧ stem ≠ [Path.dot] := by simpa [Path.isVoid] using hsolid
    rw [hcomponents] at hsteps
    obtain ⟨rfl, hlast⟩ := List.append_inj' hsteps rfl
    obtain rfl : name = stem ++ Path.dot :: (path e).bytes := by simpa using hlast
    refine ⟨?_, stem, e, he, rfl, hstem_ne.1, hdot⟩
    rw [Path.same, beq_iff_eq, hmodule,
      Path.components_withoutExtension h hstem_ne.1 (mt dot_mem_path.mp hdot) hname,
      if_neg hstem_ne.2, hstem, Option.toList_some]

end LogGuard.Settings
