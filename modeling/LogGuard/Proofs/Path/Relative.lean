import LogGuard.Proofs.Path.LastSegment

/-!
# Paths of names, seen from a base

A path of names (`ofParts []` of names) that is joined to a base is the path seen from the base
again (`stripPrefix?_join`), however the base is written: as many steps are dropped as the base has,
and the void segments that are left of it go with them. Joining one name after the other is joining
the path of all of them (`join_ofParts_concat`).
-/

namespace LogGuard.Path

open FileSystem (segments)

/-- A segment names an entry. -/
structure IsName (s : Segment) : Prop where
  no_separator : separator ∉ s
  normal : component? s = some (.normal s)

variable {p q : Path} {names : List Segment} {name : Segment}

theorem IsName.solid (h : IsName name) : isVoid name = false :=
  (component?_eq_normal.mp h.normal).2.1

theorem IsName.ne_nil (h : IsName name) : name ≠ [] := by
  rintro rfl
  exact absurd h.solid (by decide)

/-- One path of names after another one has one separator in front of it. -/
theorem bytes_ofParts_append {more : List Segment} (hne : names ≠ []) (hmore : more ≠ []) :
    (ofParts [] (names ++ more)).bytes =
      (ofParts [] names).bytes ++ separator :: (ofParts [] more).bytes := by
  simp only [ofParts, List.nil_append]
  induction names with
  | nil => contradiction
  | cons first rest ih =>
    rcases rest with _ | ⟨second, rest⟩
    · obtain ⟨third, more, rfl⟩ := List.exists_cons_of_ne_nil hmore
      rw [List.singleton_append, List.intercalate_cons_cons, List.intercalate_singleton,
        List.append_assoc]
      rfl
    · have hrest := ih (by simp)
      rw [List.cons_append] at hrest ⊢
      rw [List.cons_append, List.intercalate_cons_cons, hrest, List.intercalate_cons_cons]
      simp only [List.append_assoc]

/-- A path of names has these segments. -/
theorem segments_ofParts (hne : names ≠ []) (hnames : ∀ name ∈ names, IsName name) :
    segments (ofParts [] names) = names := by
  rw [ofParts, segments, List.nil_append]
  exact List.splitOn_intercalate _ (fun s hs => (hnames s hs).no_separator) hne

/-- A path of names takes one step for each of them. -/
theorem steps_ofParts (hnames : ∀ name ∈ names, IsName name) :
    (ofParts [] names).steps = names.map .normal := by
  by_cases hne : names = []
  · subst hne
    rfl
  · rw [steps, segments_ofParts hne hnames]
    exact List.filterMap_eq_map_iff_forall_eq_some.mpr fun name hname => (hnames name hname).normal

/-- A path of names starts from nothing that is written. -/
theorem start_ofParts (hnames : ∀ name ∈ names, IsName name) : (ofParts [] names).start = [] := by
  rcases names with _ | ⟨first, rest⟩
  · rfl
  · exact start_of_solid (segments_ofParts (by simp) hnames) (hnames first List.mem_cons_self).solid

/-- A path of names is not absolute. -/
theorem isAbsolute_ofParts (hnames : ∀ name ∈ names, IsName name) :
    (ofParts [] names).isAbsolute = false := by
  have hstart := start_ofParts hnames
  unfold start at hstart
  split at hstart
  · contradiction
  · rename_i h
    simpa using h

/-- A path of names does not end with a separator. -/
theorem getLast?_ofParts (hnames : ∀ name ∈ names, IsName name) :
    (ofParts [] names).bytes.getLast? ≠ some separator := by
  rcases List.eq_nil_or_concat' names with rfl | ⟨front, last, rfl⟩
  · simp [ofParts]
  · have hlast := hnames last (by simp)
    have hend : ∃ before, (ofParts [] (front ++ [last])).bytes = before ++ last := by
      obtain ⟨joined, hjoined⟩ := intercalate_concat front
      exact ⟨joined, hjoined last⟩
    obtain ⟨before, hbytes⟩ := hend
    obtain ⟨init, b, rfl⟩ := (List.eq_nil_or_concat' last).resolve_left hlast.ne_nil
    rw [hbytes, ← List.append_assoc, List.getLast?_concat, ne_eq, Option.some.injEq]
    rintro rfl
    exact hlast.no_separator (by simp)

/-! ## Joining -/

/-- What joining puts in front of a path that is not absolute: the base and, unless it is empty or
ends with one, a separator. -/
def joinFront (base : Path) : List UInt8 :=
  if base.bytes.isEmpty || base.bytes.getLast? == some separator then base.bytes
  else base.bytes ++ [separator]

theorem join_bytes_eq (base : Path) (hq : q.isAbsolute = false) :
    (base.join q).bytes = joinFront base ++ q.bytes := by
  obtain ⟨bytes⟩ := base
  unfold join joinFront
  rw [hq, Bool.false_or]
  dsimp only
  cases hempty : bytes.isEmpty with
  | true => simp [List.isEmpty_iff.mp hempty]
  | false =>
    rw [if_neg (by decide), Bool.false_or]
    split
    · rfl
    · simp

/-- What is put in front is put there without a further separator. -/
theorem joinFront_joinFront (base : Path) : joinFront ⟨joinFront base⟩ = joinFront base := by
  obtain ⟨bytes⟩ := base
  unfold joinFront
  dsimp only
  cases hdone : bytes.isEmpty || bytes.getLast? == some separator with
  | true => simp only [if_true, hdone]
  | false => simp

/-- Joining names one after the other is joining the path of all of them. -/
theorem join_ofParts_concat (base : Path) (hnames : ∀ name ∈ names, IsName name)
    (hname : IsName name) :
    (base.join (ofParts [] names)).join ⟨name⟩ = base.join (ofParts [] (names ++ [name])) := by
  have hall : ∀ other ∈ names ++ [name], IsName other := by
    intro other hother
    rcases List.mem_append.mp hother with hmem | hmem
    · exact hnames other hmem
    · exact List.mem_singleton.mp hmem ▸ hname
  have habsolute : isAbsolute ⟨name⟩ = false := isAbsolute_of_notMem hname.no_separator
  have hjoined := join_bytes_eq base (isAbsolute_ofParts hnames)
  suffices hbytes : ((base.join (ofParts [] names)).join ⟨name⟩).bytes =
      (base.join (ofParts [] (names ++ [name]))).bytes from congrArg Path.mk hbytes
  rw [join_bytes_eq _ habsolute, join_bytes_eq _ (isAbsolute_ofParts hall)]
  by_cases hne : names = []
  · -- The base alone is joined as such.
    subst hne
    have hbase : base.join (ofParts [] []) = ⟨joinFront base⟩ := by
      rw [← List.append_nil (joinFront base)]
      exact congrArg Path.mk hjoined
    rw [hbase, joinFront_joinFront]
    simp [ofParts]
  · -- After a name there is a separator.
    have hlast := getLast?_ofParts hnames
    have hbytes_ne : (ofParts [] names).bytes ≠ [] := by
      intro hnil
      have hsegments := segments_ofParts hne hnames
      rw [segments, hnil] at hsegments
      exact (hnames [] (by rw [← hsegments]; simp)).ne_nil rfl
    have hfront : joinFront (base.join (ofParts [] names)) =
        joinFront base ++ (ofParts [] names).bytes ++ [separator] := by
      rw [joinFront, hjoined, List.getLast?_append_of_ne_nil _ hbytes_ne, if_neg]
      simp [hbytes_ne, hlast]
    rw [hfront, bytes_ofParts_append hne (by simp)]
    simp [ofParts]

/-! ## Stripping -/

/-- What a joined path starts from is what the base starts from. -/
theorem head_join {base : Path} (hbase : base.bytes ≠ []) (hq : q.isAbsolute = false) :
    (base.join q).head = base.head :=
  head_of_start (start_join hbase hq)

/-- The body of a joined path is that of the base, up to void segments, and then the segments that
are joined. -/
theorem body_join {base : Path} (hbase : base.bytes ≠ []) (hq : q.isAbsolute = false) :
    ∃ front, (base.join q).body = front ++ segments q ∧
      Path.solid front = Path.solid base.body := by
  obtain ⟨rest, hrest⟩ := head_prefix_bytes base
  have hone := (length_head base).2
  rw [← (length_head base).1] at hone
  have hbody : (base.join q).body =
      ((joinFront base ++ q.bytes).drop base.head.length).splitOn separator := by
    rw [body, head_join hbase hq, join_bytes_eq base hq]
  unfold joinFront at hbody
  split at hbody
  · rename_i hend
    obtain ⟨before, hbefore⟩ : ∃ before, base.bytes = before ++ [separator] := by
      simpa [hbase, List.getLast?_eq_some_iff] using hend
    rw [hbefore, List.append_assoc, List.singleton_append] at hbody
    rcases Nat.lt_or_ge before.length base.head.length with hshort | hlong
    · -- The base is the root of the file system.
      obtain rfl : before = [] := List.length_eq_zero_iff.mp (by omega)
      have hlength : base.head.length = 1 := by omega
      refine ⟨[], ?_, ?_⟩
      · rw [hbody, hlength]
        rfl
      · rw [body, hbefore, hlength]
        decide
    · refine ⟨(before.drop base.head.length).splitOn separator, ?_, ?_⟩
      · rw [hbody, List.drop_append_of_le_length hlong, List.splitOn_append_cons_self]
        rfl
      · rw [body, hbefore, List.drop_append_of_le_length hlong, splitOn_append_cons (by simp),
          solid_append, solid_cons_of_void (s := []) rfl]
        exact (List.append_nil _).symm
  · refine ⟨base.body, ?_, rfl⟩
    have hlength : base.head.length ≤ base.bytes.length := by
      rw [← hrest, List.length_append]
      exact Nat.le_add_right _ _
    rw [hbody, List.append_assoc, List.drop_append_of_le_length hlength, List.singleton_append,
      List.splitOn_append_cons_self]
    rfl

/-- Dropping as many components as a list of segments has leaves nothing of it but void segments. -/
theorem dropWhile_dropComponents (front rest : List Segment) :
    (dropComponents (Path.solid front).length (front ++ rest)).dropWhile isVoid =
      rest.dropWhile isVoid := by
  induction front with
  | nil => rw [show (Path.solid []).length = 0 from rfl, dropComponents, List.nil_append]
  | cons s front ih =>
    by_cases hvoid : isVoid s = true
    · rw [solid_cons_of_void hvoid, List.cons_append]
      cases hcount : (Path.solid front).length with
      | zero =>
        rw [hcount, dropComponents] at ih
        rw [dropComponents, List.dropWhile_cons_of_pos hvoid, ih]
      | succ n => rw [dropComponents, if_pos hvoid, ← hcount, ih]
    · have hsolid : isVoid s = false := by simpa using hvoid
      rw [solid_cons_of_solid hsolid, List.cons_append, List.length_cons, dropComponents,
        if_neg hvoid, ih]

/-- A path that is joined to the empty one stays as it is. -/
theorem join_of_nil {base : Path} (hbase : base.bytes = []) (q : Path) : base.join q = q := by
  rw [join, hbase, if_pos (by simp)]

/-- The empty path takes no step. -/
theorem components_of_nil {p : Path} (h : p.bytes = []) : p.components = [] := by
  obtain ⟨bytes⟩ := p
  dsimp only at h
  subst h
  rfl

/-- Only the empty path takes no step. -/
theorem bytes_of_components {p : Path} (h : p.components = []) : p.bytes = [] := by
  rw [components_eq, List.append_eq_nil_iff] at h
  obtain ⟨hstart, hsteps⟩ := h
  obtain ⟨first, more, hsegments⟩ :=
    List.exists_cons_of_ne_nil (List.splitOn_ne_nil separator p.bytes)
  refine bytes_of_void hsegments ?_ hstart
  by_contra hsolid
  rw [steps, segments, hsegments,
    List.filterMap_cons_some (component?_solid (by simpa using hsolid))] at hsteps
  contradiction

/-- A path that is not absolute takes its steps after those of the base that it is joined to. -/
theorem components_join_of_relative {base : Path} (hbase : base.bytes ≠ [])
    (hq : q.isAbsolute = false) : (base.join q).components = base.components ++ q.steps := by
  obtain ⟨front, hbody, hfront⟩ := body_join hbase hq
  have hbase_steps : base.body.filterMap component? = front.filterMap component? := by
    rw [steps_eq_map_solid, ← hfront, ← steps_eq_map_solid]
  calc (base.join q).components
      = (base.join q).start ++ (base.join q).body.filterMap component? := rfl
    _ = base.start ++ (front ++ segments q).filterMap component? := by
        rw [start_join hbase hq, hbody]
    _ = base.start ++ base.body.filterMap component? ++ q.steps := by
        rw [List.filterMap_append, hbase_steps, List.append_assoc, steps]
    _ = base.components ++ q.steps := rfl

/-- A path that is joined to a base takes its steps after those of the base. -/
theorem components_join (base : Path) (hnames : ∀ name ∈ names, IsName name) :
    (base.join (ofParts [] names)).components = base.components ++ names.map .normal := by
  rw [← steps_ofParts hnames]
  by_cases hbase : base.bytes = []
  · rw [join_of_nil hbase, components_of_nil hbase, components_eq, start_ofParts hnames]
  · exact components_join_of_relative hbase (isAbsolute_ofParts hnames)

/-- The first step of an absolute path is to the root of the file system. -/
theorem components_of_isAbsolute {p : Path} (h : p.isAbsolute = true) :
    p.components = .root :: p.steps := by
  rw [components_eq, start, if_pos h, List.singleton_append]

/-- Nothing comes before the step to the root of the file system. -/
theorem eq_nil_of_components_root {p : Path} {front rest : List Component}
    (h : p.components = front ++ .root :: rest) : front = [] := by
  have hsteps : ∀ c ∈ p.steps, c ≠ .root := by
    rintro c hc rfl
    obtain ⟨s, -, hs⟩ := List.mem_filterMap.mp hc
    rcases component?_mem hs with hparent | ⟨name, hname⟩ <;> contradiction
  rw [components_eq] at h
  have hone := (length_head p).2
  rcases front with _ | ⟨first, front⟩
  · rfl
  · -- The root would be among the steps after the first one.
    obtain ⟨before, hbefore⟩ : ∃ before, p.steps = before ++ .root :: rest := by
      rcases hstart : p.start with _ | ⟨c, more⟩
      · exact ⟨first :: front, by rw [← h, hstart, List.nil_append]⟩
      · rw [hstart, List.length_cons] at hone
        obtain rfl : more = [] := List.length_eq_zero_iff.mp (by omega)
        rw [hstart, List.singleton_append, List.cons_append] at h
        exact ⟨front, (List.cons.inj h).2⟩
    exact absurd rfl (hsteps .root (by simp [hbefore]))

/-- A path of names that is joined to a base is the path seen from the base. -/
theorem stripPrefix?_join (base : Path) (hne : names ≠ [])
    (hnames : ∀ name ∈ names, IsName name) :
    stripPrefix? base (base.join (ofParts [] names)) = some (ofParts [] names) := by
  have hrelative := isAbsolute_ofParts hnames
  have hsegments := segments_ofParts hne hnames
  have hkept (front : List Segment) : dropVoidEnd (front ++ names) = front ++ names := by
    obtain ⟨init, last, rfl⟩ := (List.eq_nil_or_concat' names).resolve_left hne
    rw [← List.append_assoc]
    exact dropVoidEnd_concat (hnames last (by simp)).solid _
  have hfirst : names.dropWhile isVoid = names := by
    obtain ⟨first, rest, rfl⟩ := List.exists_cons_of_ne_nil hne
    exact List.dropWhile_cons_of_neg (by simp [(hnames first List.mem_cons_self).solid])
  by_cases hbase : base.bytes = []
  · -- There is nothing to strip.
    have hhead : (ofParts [] names).head = [] := by
      rw [← List.length_eq_zero_iff, (length_head _).1, start_ofParts hnames]
      rfl
    have hbody : (ofParts [] names).body = names := by
      rw [body, hhead]
      exact hsegments
    have hnil := components_of_nil hbase
    rw [join_of_nil hbase, stripPrefix?, if_pos (by rw [hnil]; rfl), if_pos (by rw [hnil]; rfl),
      hhead, hbody]
    exact congrArg (fun path => some (ofParts [] path)) (hkept [])
  · obtain ⟨front, hbody, hfront⟩ := body_join hbase hrelative
    have hhead := head_join hbase hrelative
    rw [hsegments] at hbody
    have hcomponents := components_join base hnames
    have hpre : base.components.isPrefixOf (base.join (ofParts [] names)).components = true := by
      rw [List.isPrefixOf_iff_prefix, hcomponents]
      exact List.prefix_append _ _
    have hsome : ¬base.components.isEmpty = true := by
      rw [List.isEmpty_iff]
      exact fun h => hbase (bytes_of_components h)
    have hcount : base.components.length - base.head.length = (Path.solid front).length := by
      have hbase_components : base.components = base.start ++ base.body.filterMap component? := rfl
      rw [hbase_components, (length_head base).1, List.length_append, steps_eq_map_solid,
        List.length_map, Nat.add_sub_cancel_left, hfront]
    rw [stripPrefix?, if_pos hpre, if_neg hsome, hhead, hbody]
    dsimp only
    rw [hcount, dropWhile_dropComponents, hfirst]
    exact congrArg (fun path => some (ofParts [] path)) (hkept [])

end LogGuard.Path
