import LogGuard.Proofs.Path.Components

/-!
# Paths that end with a name

What a path is made of, when its last segment is a name and not void. The segments before the name
alone decide what the path starts from (`start_of_segments`), the name stands at the end of the
bytes, of the components and of the body, and it is still there after other steps were stripped from
the front (`segments_of_stripPrefix?`). Stripping a prefix leaves the steps after it of any path,
however that ends (`components_of_stripPrefix?`).
-/

namespace LogGuard.Path

open FileSystem (segments)

/-- The bytes of a path end with its last segment. -/
theorem bytes_of_segments {p : Path} {front : List Segment} {name : Segment}
    (h : segments p = front ++ [name]) :
    separator ∉ name ∧ ((p.bytes = name ∧ front = []) ∨
      ∃ bytes, p.bytes = bytes ++ separator :: name ∧ front = bytes.splitOn separator) := by
  obtain ⟨last, hlast, hbytes | ⟨bytes, hbytes⟩⟩ := exists_last separator p.bytes
  · rw [segments, hbytes, List.splitOn_eq_singleton hlast] at h
    obtain ⟨hfront, hname⟩ := List.append_inj' (show [] ++ [last] = front ++ [name] from h) rfl
    obtain rfl : last = name := by simpa using hname
    exact ⟨hlast, .inl ⟨hbytes, hfront.symm⟩⟩
  · rw [segments, hbytes, splitOn_append_cons hlast] at h
    obtain ⟨hfront, hname⟩ := List.append_inj' h rfl
    obtain rfl : last = name := by simpa using hname
    exact ⟨hlast, .inr ⟨bytes, hbytes, hfront.symm⟩⟩

/-- A path whose first segment is not void starts from nothing that is written. -/
theorem start_of_solid {p : Path} {first : Segment} {rest : List Segment}
    (h : segments p = first :: rest) (hfirst : isVoid first = false) : p.start = [] := by
  obtain ⟨bytes⟩ := p
  unfold segments at h
  unfold start
  split
  · rename_i habsolute
    rcases bytes with _ | ⟨b, bytes⟩
    · contradiction
    · obtain rfl : b = separator := by simpa [isAbsolute] using habsolute
      obtain ⟨rfl, -⟩ : [] = first ∧ _ := by simpa [List.splitOn_cons_eq_if_modifyHead] using h
      contradiction
  · split
    · rename_i hdot
      rcases bytes with _ | ⟨b, _ | ⟨c, bytes⟩⟩
      · contradiction
      · obtain rfl : b = dot := by simpa [startsWithDot] using hdot
        obtain ⟨rfl, -⟩ : [dot] = first ∧ [] = rest := List.cons.inj h
        contradiction
      · obtain ⟨rfl, rfl⟩ : b = dot ∧ c = separator := by simpa [startsWithDot] using hdot
        have hsplit : (dot :: separator :: bytes).splitOn separator =
            [dot] :: bytes.splitOn separator := by
          simp [List.splitOn_cons_eq_if_modifyHead, dot, separator]
        obtain ⟨rfl, -⟩ := List.cons.inj (hsplit.symm.trans h)
        contradiction
    · rfl

/-- What a path starts from does not depend on its last segment, if that is not void. -/
theorem start_of_segments {p q : Path} {front : List Segment} {name name' : Segment}
    (hp : segments p = front ++ [name]) (hq : segments q = front ++ [name'])
    (hname : isVoid name = false) (hname' : isVoid name' = false) : p.start = q.start := by
  obtain ⟨p⟩ := p
  obtain ⟨q⟩ := q
  obtain ⟨hseparator, ⟨rfl, rfl⟩ | ⟨bytes, hbytes, rfl⟩⟩ := bytes_of_segments hp
  · obtain ⟨hseparator', ⟨rfl, -⟩ | ⟨bytes', -, hnil⟩⟩ := bytes_of_segments hq
    · rw [start_of_solid hp hname, start_of_solid hq hname']
    · exact absurd hnil.symm (List.splitOn_ne_nil _ _)
  · obtain ⟨-, ⟨-, hnil⟩ | ⟨bytes', hbytes', hsplit⟩⟩ := bytes_of_segments hq
    · exact absurd hnil (List.splitOn_ne_nil _ _)
    · -- The paths agree up to the last separator, which is all that counts.
      have hsame : bytes = bytes' := by
        have hjoined := congrArg [separator].intercalate hsplit
        rwa [List.intercalate_splitOn, List.intercalate_splitOn] at hjoined
      dsimp only at hbytes hbytes'
      subst hsame hbytes hbytes'
      unfold start isAbsolute startsWithDot
      rcases bytes with _ | ⟨b, _ | ⟨c, rest⟩⟩ <;> simp

/-- The components of a path end with that of its last segment. -/
theorem components_of_segments {p : Path} {front : List Segment} {name : Segment}
    (h : segments p = front ++ [name]) :
    p.components = p.start ++ front.filterMap component? ++ (component? name).toList := by
  rw [components_eq, steps, h, List.filterMap_append, List.append_assoc]
  cases hname : component? name <;> simp [hname]

/-- A path that ends with a name leads to it. -/
theorem fileName?_of_segments {p : Path} {front : List Segment} {name : Segment}
    (h : segments p = front ++ [name]) (hname : component? name = some (.normal name)) :
    p.fileName? = some name := by
  rw [fileName?, components_of_segments h, hname, Option.toList_some, List.getLast?_concat]

/-- A path whose last segment is followed by other bytes without a separator has another last
segment. -/
theorem segments_of_bytes {p q : Path} {front : List Segment} {name name' kept : Segment}
    (hp : segments p = front ++ [name]) (hbytes : p.bytes = kept ++ name)
    (hq : q.bytes = kept ++ name') (hname' : separator ∉ name') :
    segments q = front ++ [name'] := by
  obtain ⟨-, ⟨heq, rfl⟩ | ⟨bytes, heq, rfl⟩⟩ := bytes_of_segments hp
  · obtain rfl : kept = [] := by
      rw [hbytes] at heq
      simpa using heq
    rw [segments, hq]
    exact List.splitOn_eq_singleton hname'
  · obtain rfl : kept = bytes ++ [separator] := by
      rw [hbytes, List.append_cons] at heq
      exact List.append_cancel_right heq
    rw [segments, hq, List.append_assoc, List.singleton_append, splitOn_append_cons hname']

/-- Parts that are put together end with the last of them. -/
theorem intercalate_concat (front : List Segment) :
    ∃ joined, ∀ last, [separator].intercalate (front ++ [last]) = joined ++ last := by
  induction front with
  | nil => exact ⟨[], fun last => by simp⟩
  | cons s front ih =>
    obtain ⟨joined, hjoined⟩ := ih
    refine ⟨s ++ [separator] ++ joined, fun last => ?_⟩
    rw [List.cons_append, List.intercalate_cons_of_ne_nil (by simp), hjoined]
    simp

/-- The head of a path is one byte if the path starts from something that is written. -/
theorem length_head (p : Path) : p.head.length = p.start.length ∧ p.start.length ≤ 1 := by
  unfold head start
  split
  · exact ⟨rfl, Nat.le_refl 1⟩
  · split
    · exact ⟨rfl, Nat.le_refl 1⟩
    · exact ⟨rfl, Nat.zero_le 1⟩

/-- The body of a path ends with its last segment, unless that is void. -/
theorem body_of_segments {p : Path} {front : List Segment} {name : Segment}
    (h : segments p = front ++ [name]) (hname : isVoid name = false) :
    ∃ init, p.body = init ++ [name] := by
  obtain ⟨hlength, hone⟩ := length_head p
  unfold body
  obtain ⟨hseparator, ⟨hbytes, rfl⟩ | ⟨bytes, hbytes, rfl⟩⟩ := bytes_of_segments h
  · -- A path that is nothing but a name has no head.
    rw [hlength, start_of_solid h hname, hbytes]
    exact ⟨[], List.splitOn_eq_singleton hseparator⟩
  · -- The head is one byte at most, so it does not reach beyond the last separator.
    rw [hbytes]
    rcases Nat.le_one_iff_eq_zero_or_eq_one.mp (hlength ▸ hone) with hzero | hone'
    · rw [hzero]
      exact ⟨_, splitOn_append_cons hseparator bytes⟩
    · rw [hone']
      rcases bytes with _ | ⟨b, bytes⟩
      · exact ⟨[], List.splitOn_eq_singleton hseparator⟩
      · exact ⟨_, splitOn_append_cons hseparator bytes⟩

/-- The parent of a path that ends with a name is the front of the path. -/
theorem parent?_of_segments {p : Path} {front : List Segment} {name : Segment}
    (h : segments p = front ++ [name]) (hname : component? name = some (.normal name)) :
    ∃ q, p.parent? = some q ∧ q.bytes <+: p.bytes ∧ solid (segments q) = solid front ∧
      (q.bytes = [] → p.isAbsolute = false) := by
  obtain ⟨-, hsolid, -⟩ := component?_eq_normal.mp hname
  obtain ⟨init, hbody⟩ := body_of_segments h hsolid
  refine ⟨ofParts p.head (dropVoidEnd init), ?_, ?_⟩
  · rw [parent?, components_of_segments h, hname, Option.toList_some, List.getLast?_concat, hbody,
      dropVoidEnd_concat hsolid, List.dropLast_concat]
  · have hcut : dropVoidEnd init <+: p.body :=
      (dropVoidEnd_prefix_self init).trans (hbody ▸ List.prefix_append init [name])
    obtain ⟨hpre, hsegments⟩ := cut_spec hcut
    refine ⟨hpre, ?_, fun hempty => ?_⟩
    · have hwhole := solid_body p
      rw [h, hbody, solid_append, solid_append] at hwhole
      rw [hsegments, solid_dropVoidEnd, List.append_cancel_right hwhole]
    · -- The separator of an absolute path would be left.
      rcases head_cases p with ⟨hhead, -⟩ | ⟨-, hrelative, -⟩ | ⟨-, hrelative⟩
      · rw [ofParts, hhead] at hempty
        contradiction
      · exact hrelative
      · exact hrelative

/-! ## Stripped paths -/

/-- What is left after components are dropped is the end of the segments. -/
theorem dropComponents_suffix (n : Nat) (path : List Segment) : dropComponents n path <:+ path := by
  induction path generalizing n with
  | nil => cases n <;> exact List.suffix_rfl
  | cons s rest ih =>
    cases n with
    | zero => exact List.suffix_rfl
    | succ n =>
      rw [dropComponents]
      split
      · exact (ih _).trans (List.suffix_cons s rest)
      · exact (ih _).trans (List.suffix_cons s rest)

/-- The end of segments that end with a name is empty or ends with the name. -/
theorem suffix_concat {ends front : List Segment} {name : Segment} (h : ends <:+ front ++ [name]) :
    ends = [] ∨ ∃ init, ends = init ++ [name] := by
  rcases List.eq_nil_or_concat' ends with rfl | ⟨init, last, rfl⟩
  · exact .inl rfl
  · obtain ⟨rest, hrest⟩ := h
    rw [← List.append_assoc] at hrest
    obtain ⟨-, hlast⟩ := List.append_inj' hrest rfl
    exact .inr ⟨init, by rw [hlast]⟩

/-- As many components are dropped as segments that are not void. -/
theorem filterMap_dropComponents (n : Nat) (path : List Segment) :
    (dropComponents n path).filterMap component? = (path.filterMap component?).drop n := by
  induction path generalizing n with
  | nil => cases n <;> rfl
  | cons s rest ih =>
    cases n with
    | zero => rfl
    | succ n =>
      rw [dropComponents]
      split
      · rename_i hvoid
        rw [ih, List.filterMap_cons_none (component?_void hvoid)]
      · rename_i hsolid
        rw [ih, List.filterMap_cons_some (component?_solid (by simpa using hsolid)),
          List.drop_succ_cons]

/-- Dropping void segments at the front keeps the steps. -/
theorem filterMap_dropWhile_isVoid (path : List Segment) :
    (path.dropWhile isVoid).filterMap component? = path.filterMap component? := by
  induction path with
  | nil => rfl
  | cons s rest ih =>
    by_cases hvoid : isVoid s = true
    · rw [List.dropWhile_cons_of_pos hvoid, List.filterMap_cons_none (component?_void hvoid), ih]
    · rw [List.dropWhile_cons_of_neg hvoid]

/-- Segments that do not begin with a void one, as a path, stand for their steps. -/
theorem components_ofParts {path : List Segment} (hseparator : ∀ s ∈ path, separator ∉ s)
    (hfirst : ∀ s ∈ path.head?, isVoid s = false) :
    (ofParts [] path).components = path.filterMap component? := by
  rcases path with _ | ⟨first, rest⟩
  · decide
  · have hsegments : segments (ofParts [] (first :: rest)) = first :: rest := by
      rw [ofParts, segments, List.nil_append]
      exact List.splitOn_intercalate _ hseparator (by simp)
    rw [components_eq, start_of_solid hsegments (hfirst first rfl), steps, hsegments,
      List.nil_append]

/-- What is left of segments after `n` components were dropped stands for the steps that are left.
-/
theorem components_stripped {path : List Segment} (hseparator : ∀ s ∈ path, separator ∉ s)
    (n : Nat) :
    (ofParts [] (dropVoidEnd ((dropComponents n path).dropWhile isVoid))).components =
      (path.filterMap component?).drop n := by
  have hsteps := filterMap_dropWhile_isVoid (dropComponents n path)
  have hfirst := List.head?_dropWhile_not isVoid (dropComponents n path)
  have hsuffix := (List.dropWhile_suffix isVoid).trans (dropComponents_suffix n path)
  rw [filterMap_dropComponents] at hsteps
  generalize (dropComponents n path).dropWhile isVoid = ends at hsteps hfirst hsuffix ⊢
  have hpre := dropVoidEnd_prefix_self ends
  have hsolid : ∀ s ∈ (dropVoidEnd ends).head?, isVoid s = false := fun s hs => by
    obtain ⟨rest, hrest⟩ := List.head?_eq_some_iff.mp hs
    obtain ⟨more, hmore⟩ := hpre
    rw [← hmore, hrest, List.cons_append, List.head?_cons] at hfirst
    simpa using hfirst
  rw [components_ofParts (fun s hs => hseparator s (hsuffix.subset (hpre.subset hs))) hsolid,
    steps_eq_map_solid, solid_dropVoidEnd, ← steps_eq_map_solid, hsteps]

/-- A path that starts from nothing that is written begins with a solid segment or is empty. -/
theorem bytes_of_void {p : Path} {first : Segment} {more : List Segment}
    (hsegments : segments p = first :: more) (hvoid : isVoid first = true)
    (hstart : p.start = []) : p.bytes = [] := by
  have hbytes : [separator].intercalate (first :: more) = p.bytes := by
    rw [← hsegments, segments, List.intercalate_splitOn]
  -- A void segment at the front would be the root or a leading dot.
  have hfirst : first = [] ∨ first = [dot] := by simpa [isVoid] using hvoid
  obtain ⟨bytes⟩ := p
  dsimp only at hbytes
  rcases hfirst with rfl | rfl <;> rcases more with _ | ⟨second, more⟩
  · exact hbytes.symm
  · rw [← hbytes] at hstart
    simp [start, isAbsolute] at hstart
  · rw [← hbytes] at hstart
    contradiction
  · rw [← hbytes] at hstart
    simp [start, isAbsolute, startsWithDot, dot, separator] at hstart

/-- Dropping void segments at the end of a path keeps its steps. -/
theorem components_dropVoidEnd (p : Path) :
    (ofParts p.head (dropVoidEnd p.body)).components = p.components := by
  have hpre := dropVoidEnd_prefix_self p.body
  have hsteps : (ofParts p.head (dropVoidEnd p.body)).steps = p.steps := by
    rw [steps, steps, steps_eq_map_solid, steps_eq_map_solid, (cut_spec hpre).2, solid_dropVoidEnd,
      solid_body]
  suffices hstart : (ofParts p.head (dropVoidEnd p.body)).start = p.start by
    rw [components_eq, components_eq, hstart, hsteps]
  rcases head_cases p with ⟨hhead, habsolute⟩ | ⟨hhead, hrelative, rest, hbody⟩ | ⟨hhead, -⟩
  · rw [hhead, start, start, habsolute]
    rfl
  · -- The dot of the head is left alone, or a separator follows it.
    have hp : p.start = [.current] := by
      unfold head at hhead
      unfold start
      split at hhead
      · contradiction
      · split at hhead
        · simp_all
        · contradiction
    rw [hp, hhead]
    rw [hbody] at hpre ⊢
    rcases hends : dropVoidEnd ([] :: rest) with _ | ⟨first, _ | ⟨second, more⟩⟩
    · rfl
    · rw [hends, List.cons_prefix_cons] at hpre
      obtain ⟨rfl, -⟩ := hpre
      rfl
    · rw [hends, List.cons_prefix_cons] at hpre
      obtain ⟨rfl, -⟩ := hpre
      simp [ofParts, start, isAbsolute, startsWithDot, dot, separator]
  · -- Nothing is written before the first segment, which is solid unless the path is empty.
    have hp : p.start = [] := by
      rw [← List.length_eq_zero_iff, ← (length_head p).1, hhead]
      rfl
    have hbody : segments p = p.body := by
      rw [body, hhead]
      rfl
    rw [hp, hhead]
    rcases hends : dropVoidEnd p.body with _ | ⟨first, more⟩
    · rfl
    · rw [hends] at hpre
      have hseparator : ∀ s ∈ first :: more, separator ∉ s := fun s hs =>
        notMem_of_mem_splitOn (hpre.subset hs)
      have hsegments : segments (ofParts [] (first :: more)) = first :: more := by
        rw [ofParts, segments, List.nil_append]
        exact List.splitOn_intercalate _ hseparator (by simp)
      refine start_of_solid hsegments ?_
      by_contra hvoid
      obtain ⟨after, hafter⟩ := hpre
      have hnil := bytes_of_void (hbody.trans hafter.symm) (by simpa using hvoid) hp
      have hempty : p.body = [[]] := by
        rw [← hbody, segments, hnil]
        rfl
      rw [hempty] at hends
      contradiction

/-- A prefix can be stripped if the path takes its steps first. -/
theorem stripPrefix?_eq_none_iff {base p : Path} :
    stripPrefix? base p = none ↔ ¬base.components <+: p.components := by
  rw [← List.isPrefixOf_iff_prefix]
  unfold stripPrefix?
  split
  · rename_i hpre
    split <;> simp [hpre]
  · rename_i hpre
    simp [hpre]

/-- What is left of a path after a prefix was stripped takes the steps that are left. -/
theorem components_of_stripPrefix? {base p q : Path} (hq : stripPrefix? base p = some q) :
    p.components = base.components ++ q.components := by
  unfold stripPrefix? at hq
  split at hq
  · rename_i hpre
    split at hq
    · rename_i hempty
      obtain rfl := Option.some.inj hq
      rw [components_dropVoidEnd, List.isEmpty_iff.mp hempty, List.nil_append]
    · rename_i hne
      obtain rfl := Option.some.inj hq
      have hseparator : ∀ s ∈ p.body, separator ∉ s := fun s hs => notMem_of_mem_splitOn hs
      rw [components_stripped hseparator]
      -- What the path starts from is among the steps that are stripped.
      obtain ⟨hlength, hone⟩ := length_head p
      have hbase : 1 ≤ base.components.length := by
        rw [Nat.one_le_iff_ne_zero, ne_eq, List.length_eq_zero_iff]
        simpa using hne
      have hdrop : p.components.drop base.components.length =
          (p.body.filterMap component?).drop (base.components.length - p.head.length) := by
        rw [hlength]
        show (p.start ++ p.body.filterMap component?).drop _ = _
        rw [List.drop_append, List.drop_eq_nil_of_le (by omega), List.nil_append]
      rw [← hdrop, List.prefix_iff_eq_append.mp (List.isPrefixOf_iff_prefix.mp hpre)]
  · contradiction

/-- What is left of a path that ends with a name takes no step or ends with the name. -/
theorem segments_of_stripPrefix? {base p q : Path} {front : List Segment} {name : Segment}
    (h : segments p = front ++ [name]) (hname : isVoid name = false)
    (hq : stripPrefix? base p = some q) :
    q.components = [] ∨ ∃ init, segments q = init ++ [name] := by
  obtain ⟨init, hbody⟩ := body_of_segments h hname
  unfold stripPrefix? at hq
  split at hq
  · split at hq
    · obtain rfl := Option.some.inj hq
      rw [hbody, dropVoidEnd_concat hname, ← hbody, ofParts_body]
      exact .inr ⟨front, h⟩
    · obtain rfl := Option.some.inj hq
      have hsuffix := (List.dropWhile_suffix isVoid).trans
        (dropComponents_suffix (base.components.length - p.head.length) p.body)
      generalize (dropComponents _ p.body).dropWhile isVoid = ends at hsuffix ⊢
      rcases suffix_concat (hbody ▸ hsuffix) with rfl | ⟨init', rfl⟩
      · exact .inl rfl
      · refine .inr ⟨init', ?_⟩
        rw [dropVoidEnd_concat hname, ofParts, segments, List.nil_append]
        exact List.splitOn_intercalate _
          (fun s hs => notMem_of_mem_splitOn (hsuffix.subset hs)) (by simp)
  · contradiction

end LogGuard.Path
