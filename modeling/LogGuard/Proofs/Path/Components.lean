import LogGuard.FileSystem.Resolve
import Mathlib.Data.List.Basic
import Mathlib.Data.List.Induction

/-!
# The steps of a path

`Path.components` leaves out the head of a path before it reads the segments. Since the head would
give void segments, the components are those of all segments after what the path starts from
(`components_eq`). Paths are then cut and put together segment by segment: the lemmas about the last
segment (`exists_last`) and about joined paths (`segments_join`, `start_join`) say how.
-/

namespace LogGuard.Path

open FileSystem (segments)

/-- What a path starts from, as a step. -/
def start (p : Path) : List Component :=
  if p.isAbsolute then [.root] else if p.startsWithDot then [.current] else []

/-- The steps that the segments of a path stand for. -/
def steps (p : Path) : List Component :=
  (segments p).filterMap component?

/-- Void segments stand for no step. -/
theorem component?_void {s : Segment} (h : isVoid s = true) : component? s = none := by
  rw [component?, if_pos h]

/-- No name is void, and no name leads to the directory above. -/
theorem component?_eq_normal {s name : Segment} :
    component? s = some (.normal name) ↔
      s = name ∧ isVoid name = false ∧ name ≠ [dot, dot] := by
  unfold component?
  split
  · rename_i hvoid
    refine ⟨fun h => by contradiction, ?_⟩
    rintro ⟨rfl, hname, -⟩
    simp [hvoid] at hname
  · rename_i hvoid
    split
    · rename_i hparent
      refine ⟨fun h => by simp at h, ?_⟩
      rintro ⟨rfl, -, hname⟩
      exact absurd (beq_iff_eq.mp hparent) hname
    · rename_i hparent
      simp only [Option.some.injEq, Component.normal.injEq]
      refine ⟨?_, fun h => h.1⟩
      rintro rfl
      exact ⟨rfl, by simpa using hvoid, by simpa using hparent⟩

/-- After the same steps, the same steps are the same names. -/
theorem names_eq_of_append {front : List Component} {names names' : List Segment}
    (h : front ++ names.map .normal = front ++ names'.map .normal) : names = names' :=
  List.map_injective_iff.mpr (fun _ _ => Component.normal.inj) (List.append_cancel_left h)

/-- A segment stands for a name or for the directory above, or for nothing. -/
theorem component?_mem {s : Segment} {c : Component} (h : component? s = some c) :
    c = .parent ∨ ∃ name, c = .normal name := by
  unfold component? at h
  split at h
  · contradiction
  · split at h
    · exact .inl (Option.some.inj h).symm
    · exact .inr ⟨s, (Option.some.inj h).symm⟩

/-- The steps of a path are what it starts from and what its segments stand for. -/
theorem components_eq (p : Path) : p.components = p.start ++ p.steps := by
  obtain ⟨bytes⟩ := p
  unfold components start steps body head segments
  cases bytes with
  | nil => rfl
  | cons b rest =>
    by_cases habsolute : b = separator
    · -- Before the first separator there is an empty segment, which stands for nothing.
      subst habsolute
      simp [isAbsolute, List.splitOn_cons_eq_if_modifyHead,
        List.filterMap_cons_none (component?_void (s := []) rfl)]
    · by_cases hdot : startsWithDot ⟨b :: rest⟩ = true
      · -- The first segment is a dot, which is void as well.
        have hhead : isAbsolute ⟨b :: rest⟩ = false := by simp [isAbsolute, habsolute]
        cases rest with
        | nil =>
          obtain rfl : b = dot := by simpa [startsWithDot] using hdot
          rfl
        | cons c rest =>
          obtain ⟨rfl, rfl⟩ : b = dot ∧ c = separator := by simpa [startsWithDot] using hdot
          simp [hhead, hdot, List.splitOn_cons_eq_if_modifyHead, habsolute,
            List.filterMap_cons_none (component?_void (s := []) rfl),
            List.filterMap_cons_none (component?_void (s := [dot]) rfl)]
      · simp [isAbsolute, habsolute, hdot]

/-! ## Solid segments -/

/-- The segments that are not void. -/
def solid (path : List Segment) : List Segment :=
  path.filter fun s => !isVoid s

theorem solid_cons_of_void {s : Segment} (h : isVoid s = true) (rest : List Segment) :
    solid (s :: rest) = solid rest :=
  List.filter_cons_of_neg (by simp [h])

theorem solid_cons_of_solid {s : Segment} (h : isVoid s = false) (rest : List Segment) :
    solid (s :: rest) = s :: solid rest :=
  List.filter_cons_of_pos (by simp [h])

theorem solid_append (front rest : List Segment) :
    solid (front ++ rest) = solid front ++ solid rest :=
  List.filter_append front rest

/-- Dropping void segments at the end keeps the solid ones. -/
theorem solid_dropVoidEnd (path : List Segment) : solid (dropVoidEnd path) = solid path := by
  induction path using List.reverseRecOn with
  | nil => rfl
  | append_singleton front s ih =>
    unfold dropVoidEnd at ih ⊢
    rw [List.reverse_append, List.reverse_singleton, List.singleton_append]
    by_cases hvoid : isVoid s = true
    · rw [List.dropWhile_cons_of_pos hvoid, ih, solid_append, solid_cons_of_void hvoid]
      simp [solid]
    · rw [List.dropWhile_cons_of_neg hvoid, List.reverse_cons, List.reverse_reverse]

/-- What is left after void segments at the end are dropped is the front of the segments. -/
theorem dropVoidEnd_prefix_self (path : List Segment) : dropVoidEnd path <+: path := by
  unfold dropVoidEnd
  rw [← List.reverse_suffix, List.reverse_reverse]
  exact List.dropWhile_suffix _

/-- Segments that do not end with a void one end as they are. -/
theorem dropVoidEnd_concat {s : Segment} (h : isVoid s = false) (front : List Segment) :
    dropVoidEnd (front ++ [s]) = front ++ [s] := by
  unfold dropVoidEnd
  rw [List.reverse_append, List.reverse_singleton, List.singleton_append,
    List.dropWhile_cons_of_neg (by simp [h]), List.reverse_cons, List.reverse_reverse]

/-- A solid segment stands for a step. -/
theorem component?_solid {s : Segment} (h : isVoid s = false) :
    component? s = some (if s == [dot, dot] then .parent else .normal s) := by
  rw [component?, if_neg (by simp [h])]
  split <;> rfl

/-- The steps of a path are those of its solid segments. -/
theorem steps_eq_map_solid (path : List Segment) :
    path.filterMap component? = (solid path).map fun s =>
      if s == [dot, dot] then .parent else .normal s := by
  induction path with
  | nil => rfl
  | cons s rest ih =>
    by_cases hvoid : isVoid s = true
    · rw [List.filterMap_cons_none (component?_void hvoid), solid_cons_of_void hvoid, ih]
    · have hsolid : isVoid s = false := by simpa using hvoid
      rw [List.filterMap_cons_some (component?_solid hsolid), solid_cons_of_solid hsolid,
        List.map_cons, ih]

/-- Paths with the same steps have the same solid segments. -/
theorem solid_eq_of_steps {p q : Path} (h : p.steps = q.steps) :
    solid (segments p) = solid (segments q) := by
  unfold steps at h
  rw [steps_eq_map_solid, steps_eq_map_solid] at h
  refine List.map_injective_iff.mpr ?_ h
  intro s t hst
  dsimp only at hst
  split at hst <;> split at hst
  · rename_i hs ht
    rw [beq_iff_eq.mp hs, beq_iff_eq.mp ht]
  · contradiction
  · contradiction
  · exact Component.normal.inj hst

/-- The components of a path determine what it starts from and its steps. -/
theorem start_eq_and_steps_eq {p q : Path} (h : p.components = q.components) :
    p.start = q.start ∧ p.steps = q.steps := by
  let isStart : Component → Bool := fun c => c == .root || c == .current
  have hstart (r : Path) : r.components.filter isStart = r.start := by
    rw [components_eq, List.filter_append]
    have hsteps : r.steps.filter isStart = [] := by
      rw [List.filter_eq_nil_iff]
      intro c hc
      obtain ⟨s, -, hs⟩ := List.mem_filterMap.mp hc
      rcases component?_mem hs with rfl | ⟨name, rfl⟩ <;> simp [isStart]
    rw [hsteps, List.append_nil, start]
    split
    · rfl
    · split <;> rfl
  -- Only the start has steps that are a root or a dot.
  have hsame : p.start = q.start := by
    rw [← hstart p, ← hstart q, h]
  rw [components_eq, components_eq, hsame] at h
  exact ⟨hsame, List.append_cancel_left h⟩

/-- What a path starts from says whether it is absolute. -/
theorem isAbsolute_of_start {p q : Path} (h : p.start = q.start) : p.isAbsolute = q.isAbsolute := by
  have hroot (r : Path) : r.isAbsolute = true ↔ r.start = [.root] := by
    unfold start
    split
    · simp_all
    · split <;> simp_all
  rw [Bool.eq_iff_iff, hroot p, hroot q, h]

/-- What a path starts from stands in its head. -/
theorem head_of_start {p q : Path} (h : p.start = q.start) : p.head = q.head := by
  have habsolute := isAbsolute_of_start h
  unfold start at h
  unfold head
  rw [habsolute] at h ⊢
  cases habs : q.isAbsolute <;> cases hp : p.startsWithDot <;> cases hq : q.startsWithDot <;>
    simp [habs, hp, hq] at h ⊢

/-! ## The last segment -/

/-- A list that is cut after a separator gives one more part. -/
theorem splitOn_append_cons {α : Type} [BEq α] [LawfulBEq α] {a : α} {last : List α}
    (h : a ∉ last) (front : List α) :
    (front ++ a :: last).splitOn a = front.splitOn a ++ [last] := by
  rw [List.splitOn_append_cons_self, List.splitOn_eq_singleton h]

/-- A list is cut at its last separator in one way. -/
theorem append_cons_inj {α : Type} [DecidableEq α] {a : α} {front front' last last' : List α}
    (h : a ∉ last) (h' : a ∉ last') :
    front ++ a :: last = front' ++ a :: last' ↔ front = front' ∧ last = last' := by
  constructor
  · intro heq
    have hsplit := congrArg (List.splitOn a) heq
    rw [splitOn_append_cons h, splitOn_append_cons h'] at hsplit
    obtain rfl : last = last' := by simpa using (List.append_inj' hsplit rfl).2
    exact ⟨List.append_cancel_right heq, rfl⟩
  · rintro ⟨rfl, rfl⟩
    rfl

/-- A list ends with a part that has no separator. -/
theorem exists_last {α : Type} [DecidableEq α] (a : α) (l : List α) :
    ∃ last, a ∉ last ∧ (l = last ∨ ∃ front, l = front ++ a :: last) := by
  by_cases h : a ∈ l.reverse
  · obtain ⟨last, front, hl, hlast⟩ := List.eq_append_cons_of_mem h
    refine ⟨last.reverse, by simpa using hlast, .inr ⟨front.reverse, ?_⟩⟩
    have := congrArg List.reverse hl
    simpa using this
  · exact ⟨l, by simpa using h, .inl rfl⟩

/-- The names among the steps of a path are not void. -/
theorem component?_of_mem {p : Path} {name : Segment} (h : .normal name ∈ p.components) :
    component? name = some (.normal name) := by
  rw [components_eq, List.mem_append] at h
  rcases h with hstart | hsteps
  · unfold start at hstart
    split at hstart
    · simp at hstart
    · split at hstart <;> simp at hstart
  · obtain ⟨s, -, hs⟩ := List.mem_filterMap.mp hsteps
    obtain rfl := (component?_eq_normal.mp hs).1
    exact hs

/-- The name that a path leads to is not void. -/
theorem component?_of_fileName? {p : Path} {name : Segment} (h : p.fileName? = some name) :
    component? name = some (.normal name) := by
  unfold fileName? at h
  split at h
  · rename_i last hlast
    obtain rfl := Option.some.inj h
    exact component?_of_mem (List.mem_of_getLast? hlast)
  · contradiction

/-! ## Paths that are cut -/

/-- No part of a list that is cut has a separator. -/
theorem notMem_of_mem_splitOn {α : Type} [DecidableEq α] {a : α} {l part : List α}
    (h : part ∈ l.splitOn a) : a ∉ part := by
  induction l generalizing part with
  | nil =>
    rw [List.splitOn_nil, List.mem_singleton] at h
    simp [h]
  | cons b l ih =>
    rw [List.splitOn_cons_eq_if_modifyHead] at h
    split at h
    · rcases List.mem_cons.mp h with rfl | hrest
      · simp
      · exact ih hrest
    · rename_i hb
      obtain ⟨first, rest, hsplit⟩ := List.exists_cons_of_ne_nil (List.splitOn_ne_nil a l)
      rw [hsplit, List.modifyHead_cons] at h
      rcases List.mem_cons.mp h with rfl | hrest
      · have hfirst := ih (show first ∈ l.splitOn a by simp [hsplit])
        simp only [List.mem_cons, not_or]
        exact ⟨fun heq => hb (by simp [heq]), hfirst⟩
      · exact ih (by simp [hsplit, hrest])

/-- What a path starts from, and how the body begins after a dot. -/
theorem head_cases (p : Path) :
    (p.head = [separator] ∧ p.isAbsolute = true) ∨
      (p.head = [dot] ∧ p.isAbsolute = false ∧ ∃ rest, p.body = [] :: rest) ∨
      (p.head = [] ∧ p.isAbsolute = false) := by
  unfold body head
  by_cases habsolute : p.isAbsolute = true
  · exact .inl ⟨by rw [if_pos habsolute], habsolute⟩
  · have hrelative : p.isAbsolute = false := by simpa using habsolute
    by_cases hdot : p.startsWithDot = true
    · refine .inr (.inl ⟨by rw [if_neg habsolute, if_pos hdot], hrelative, ?_⟩)
      rw [if_neg habsolute, if_pos hdot]
      obtain ⟨bytes⟩ := p
      rcases bytes with _ | ⟨b, _ | ⟨c, rest⟩⟩
      · contradiction
      · exact ⟨[], rfl⟩
      · simp only [startsWithDot, Bool.and_eq_true, beq_iff_eq] at hdot
        obtain ⟨rfl, rfl⟩ := hdot
        exact ⟨rest.splitOn separator, by simp [List.splitOn_cons_eq_if_modifyHead]⟩
    · exact .inr (.inr ⟨by rw [if_neg habsolute, if_neg hdot], hrelative⟩)

/-- The head of a path stands at its front. -/
theorem head_prefix_bytes (p : Path) : p.head <+: p.bytes := by
  obtain ⟨bytes⟩ := p
  unfold head
  split
  · rename_i habsolute
    rcases bytes with _ | ⟨b, rest⟩
    · contradiction
    · obtain rfl : b = separator := by simpa [isAbsolute] using habsolute
      exact ⟨rest, rfl⟩
  · split
    · rename_i hdot
      rcases bytes with _ | ⟨b, _ | ⟨c, rest⟩⟩
      · contradiction
      · obtain rfl : b = dot := by simpa [startsWithDot] using hdot
        exact ⟨[], rfl⟩
      · simp only [startsWithDot, Bool.and_eq_true, beq_iff_eq] at hdot
        obtain ⟨rfl, -⟩ := hdot
        exact ⟨c :: rest, rfl⟩
    · exact List.nil_prefix

/-- A path consists of its head and its body. -/
theorem ofParts_body (p : Path) : ofParts p.head p.body = p := by
  have hbytes := List.prefix_iff_eq_append.mp (head_prefix_bytes p)
  unfold ofParts body
  rw [List.intercalate_splitOn, hbytes]

/-- The first of several parts make up the front of what all of them make up. -/
theorem intercalate_mono {a : UInt8} {xs ys : List Segment} (h : xs <+: ys) :
    [a].intercalate xs <+: [a].intercalate ys := by
  obtain ⟨zs, rfl⟩ := h
  induction xs with
  | nil => exact List.nil_prefix
  | cons x xs ih =>
    rcases xs with _ | ⟨x', xs⟩
    · rw [List.intercalate_singleton]
      rcases zs with _ | ⟨z, zs⟩
      · simp
      · rw [List.singleton_append, List.intercalate_cons_cons, List.append_assoc]
        exact List.prefix_append _ _
    · simp only [List.cons_append] at ih ⊢
      rw [List.intercalate_cons_cons, List.intercalate_cons_cons]
      exact (List.prefix_append_right_inj _).mpr ih

/-- A path that is cut after some segments of its body has these segments. -/
theorem cut_spec {p : Path} {xs : List Segment} (h : xs <+: p.body) :
    (ofParts p.head xs).bytes <+: p.bytes ∧
      solid (segments (ofParts p.head xs)) = solid xs := by
  have hseparator : ∀ x ∈ xs, separator ∉ x := fun x hx => notMem_of_mem_splitOn (h.subset hx)
  constructor
  · conv => rhs; rw [← ofParts_body p]
    exact (List.prefix_append_right_inj _).mpr (intercalate_mono h)
  · rcases xs with _ | ⟨x, xs⟩
    · rcases head_cases p with ⟨hhead, -⟩ | ⟨hhead, -⟩ | ⟨hhead, -⟩ <;> rw [hhead] <;> decide
    · rcases head_cases p with ⟨hhead, -⟩ | ⟨hhead, -, rest, hbody⟩ | ⟨hhead, -⟩
      · have hsegments : segments (ofParts p.head (x :: xs)) = [] :: x :: xs := by
          rw [hhead, ofParts, segments]
          show ([] ++ separator :: [separator].intercalate (x :: xs)).splitOn separator = _
          rw [List.splitOn_append_cons_self, List.splitOn_intercalate _ hseparator (by simp)]
          rfl
        rw [hsegments, solid_cons_of_void (by rfl)]
      · -- After the dot of the head the body begins with the empty segment before the separator.
        obtain rfl : x = [] := by
          rw [hbody, List.cons_prefix_cons] at h
          exact h.1
        rw [hhead, ofParts, segments, solid_cons_of_void (s := []) (by rfl)]
        rcases xs with _ | ⟨y, ys⟩
        · decide
        · rw [List.intercalate_cons_cons]
          show solid (([dot] ++ separator :: [separator].intercalate (y :: ys)).splitOn separator) =
            _
          rw [List.splitOn_append_cons_self_of_not_mem (by decide),
            List.splitOn_intercalate _ (fun s hs => hseparator s (List.mem_cons_of_mem _ hs))
              (by simp), solid_cons_of_void (by rfl)]
      · rw [hhead, ofParts, segments, List.nil_append,
          List.splitOn_intercalate _ hseparator (by simp)]

/-- The body of a path has its solid segments. -/
theorem solid_body (p : Path) : solid p.body = solid (segments p) := by
  have hcut := (cut_spec (p := p) List.prefix_rfl).2
  rw [ofParts_body] at hcut
  exact hcut.symm

/-- Whether a path is absolute shows in its first byte. -/
theorem isAbsolute_of_prefix {p q : Path} (hp : p.bytes ≠ []) (h : p.bytes <+: q.bytes) :
    q.isAbsolute = p.isAbsolute := by
  obtain ⟨rest, hrest⟩ := h
  unfold isAbsolute
  rw [← hrest]
  cases hbytes : p.bytes with
  | nil => contradiction
  | cons b bytes => rfl

/-! ## Joined paths -/

/-- A path without a separator is not absolute. -/
theorem isAbsolute_of_notMem {name : Segment} (h : separator ∉ name) :
    isAbsolute ⟨name⟩ = false := by
  cases name with
  | nil => rfl
  | cons b rest =>
    simp only [List.mem_cons, not_or] at h
    simp [isAbsolute, Ne.symm h.1]

/-- The segments of a path that is joined with a name are its own and the name. A separator at the
end of the path is not doubled. -/
theorem segments_join {p : Path} (hp : p.bytes ≠ []) {name : Segment} (hname : separator ∉ name) :
    ∃ front, segments (p.join ⟨name⟩) = front ++ [name] ∧
      (segments p = front ∨ segments p = front ++ [[]]) := by
  unfold join segments
  rw [isAbsolute_of_notMem hname, Bool.false_or, if_neg (by simpa using hp)]
  split
  · rename_i hlast
    obtain ⟨front, hfront⟩ := List.getLast?_eq_some_iff.mp (beq_iff_eq.mp hlast)
    refine ⟨front.splitOn separator, ?_, .inr ?_⟩
    · rw [hfront, List.append_assoc, List.singleton_append, splitOn_append_cons hname]
    · rw [hfront, splitOn_append_cons (by simp)]
  · exact ⟨p.bytes.splitOn separator, splitOn_append_cons hname _, .inl rfl⟩

/-- Joining a path with a name keeps the bytes of the path at the front. -/
theorem join_bytes {p : Path} (hp : p.bytes ≠ []) {name : Segment} (hname : separator ∉ name) :
    ∃ between, (p.join ⟨name⟩).bytes = p.bytes ++ between ++ name ∧
      (between = [] ∨ between = [separator]) := by
  unfold join
  rw [isAbsolute_of_notMem hname, Bool.false_or, if_neg (by simpa using hp)]
  split
  · exact ⟨[], by simp, .inl rfl⟩
  · exact ⟨[separator], by simp, .inr rfl⟩

/-- Joining to a path that is not empty keeps what it starts from. -/
theorem start_join {p q : Path} (hp : p.bytes ≠ []) (hq : q.isAbsolute = false) :
    (p.join q).start = p.start := by
  obtain ⟨bytes⟩ := p
  unfold join
  rw [hq, Bool.false_or, if_neg (by simpa using hp)]
  rcases bytes with _ | ⟨b, _ | ⟨c, rest⟩⟩
  · contradiction
  · by_cases hb : b = separator
    · subst hb
      rfl
    · simp [hb, start, isAbsolute, startsWithDot]
  · unfold start isAbsolute startsWithDot
    split <;> simp

end LogGuard.Path
