import TraceRecorderTests.Update.Script

/-!
# Which files the script pairs

The script cuts a folder's path string after the first `'\\mocks'` and at two
hand-computed offsets. In terms of components: the first component that starts
with `mocks` ends the project, and what follows it, less one character, is read
as the path below the mocks folder. A folder named exactly `mocks` is paired
with the common folder (`pairing_mocks`), one with a longer name is read as
`mocks` with part of its name below it, and with one character too many the
rest starts with a separator and leads to the root of the drive.
-/

namespace TraceRecorderTests.Update

open TraceRecorderTests.Base

/-! ## The strings -/

/-- What `mock` is bound to, where the read of `target` does not raise. -/
def mockString (sep : Sep) (root filename : PyStr) : PyStr :=
  if Nested root then join sep (root.drop (found root + 7).toNat) filename else filename

/-- What `target` is bound to. -/
def targetString (sep : Sep) (root filename : PyStr) : PyStr :=
  join sep (mocksRoot root) (mockString sep root filename)

/-- What `source` is bound to. -/
def sourceString (sep : Sep) (root filename : PyStr) : PyStr :=
  join sep sourceDirectory (mockString sep root filename)

theorem computePaths_of_bound (sep : Sep) {target : Option PyStr} {root : PyStr}
    (h : ¬ (Nested root ∧ target = none)) (filename : PyStr) :
    computePaths sep target root filename =
      .ok ⟨targetString sep root filename, sourceString sep root filename⟩ := by
  unfold computePaths mock targetString sourceString mockString
  by_cases hnested : Nested root
  · cases target with
    | none => exact absurd ⟨hnested, rfl⟩ h
    | some old =>
        rw [if_pos hnested, if_pos hnested]
        rfl
  · rw [if_neg hnested, if_neg hnested]
    rfl

theorem computePaths_of_unbound (sep : Sep) {root : PyStr} (h : Nested root)
    (filename : PyStr) : computePaths sep none root filename = .error .nameError := by
  unfold computePaths mock
  rw [if_pos h]
  rfl

/-! ## Names that start with `mocks` -/

/-- `mocks`, as the name of a folder. -/
def mocksName : Name .backslash := ⟨"mocks".toList, by decide⟩

/-- `unit_test_mocks`, as the name of a folder. -/
def unitTestMocks : Name .backslash := ⟨sourceDirectory, by decide⟩

/-- The name starts with `mocks`. -/
def StartsMocks (n : Name .backslash) : Prop := mocksName.text <+: n.text

instance (n : Name .backslash) : Decidable (StartsMocks n) :=
  inferInstanceAs (Decidable (_ <+: _))

/-- No component of the path starts with `mocks`. -/
def Free (p : Folder) : Prop := ∀ n ∈ p, ¬ StartsMocks n

instance (p : Folder) : Decidable (Free p) :=
  inferInstanceAs (Decidable (∀ n ∈ p, ¬ StartsMocks n))

theorem startsMocks_mocksName : StartsMocks mocksName := List.prefix_rfl

/-- A mocks folder is not free, nor is anything below it. -/
theorem not_free_mocks (project below : Folder) : ¬ Free (project ++ mocksName :: below) :=
  fun hfree => hfree mocksName (List.mem_append_right _ List.mem_cons_self)
    startsMocks_mocksName

/-- Cut a path at the first component that starts with `mocks`: what comes
before it, the rest of its name, and what comes after it. -/
def splitMocks : Folder → Option (Folder × PyStr × Folder)
  | [] => none
  | n :: d =>
      if StartsMocks n then some ([], n.text.drop 5, d)
      else (splitMocks d).map fun cut => (n :: cut.1, cut.2.1, cut.2.2)

theorem splitMocks_of_free {d : Folder} (h : Free d) : splitMocks d = none := by
  induction d with
  | nil => rfl
  | cons n d ih =>
      obtain ⟨hn, hd⟩ := List.forall_mem_cons.mp h
      rw [splitMocks, if_neg hn, ih hd]
      rfl

theorem splitMocks_append_cons {pre : Folder} (hpre : Free pre) {n : Name .backslash}
    (hn : StartsMocks n) (post : Folder) :
    splitMocks (pre ++ n :: post) = some (pre, n.text.drop 5, post) := by
  induction pre with
  | nil => rw [List.nil_append, splitMocks, if_pos hn]
  | cons m pre ih =>
      obtain ⟨hm, hfree⟩ := List.forall_mem_cons.mp hpre
      rw [List.cons_append, splitMocks, if_neg hm, ih hfree]
      rfl

/-- The cut of a path, put together again. -/
theorem splitMocks_eq_some {d pre post : Folder} {x : PyStr}
    (h : splitMocks d = some (pre, x, post)) :
    Free pre ∧ ∃ n, n.text = mocksName.text ++ x ∧ d = pre ++ n :: post := by
  induction d generalizing pre with
  | nil => cases h
  | cons n d ih =>
      rw [splitMocks] at h
      split at h
      · next hn =>
          cases h
          obtain ⟨x, hx⟩ := hn
          refine ⟨fun m hm => absurd hm List.not_mem_nil, n, ?_, rfl⟩
          have hlength : mocksName.text.length = 5 := rfl
          rw [← hx, List.drop_left' hlength]
      · next hn =>
          obtain ⟨cut, hcut, heq⟩ := Option.map_eq_some_iff.mp h
          cases heq
          obtain ⟨hfree, m, hm, rfl⟩ := ih hcut
          exact ⟨List.forall_mem_cons.mpr ⟨hn, hfree⟩, m, hm, rfl⟩

theorem not_free_of_splitMocks {d : Folder} {cut : Folder × PyStr × Folder}
    (h : splitMocks d = some cut) : ¬ Free d := by
  intro hfree
  rw [splitMocks_of_free hfree] at h
  cases h

theorem free_of_splitMocks_eq_none {d : Folder} (h : splitMocks d = none) : Free d := by
  induction d with
  | nil => exact fun n hn => absurd hn List.not_mem_nil
  | cons n d ih =>
      rw [splitMocks] at h
      split at h
      · cases h
      · next hn => exact List.forall_mem_cons.mpr ⟨hn, ih (Option.map_eq_none_iff.mp h)⟩

/-! ## The search -/

/-- `mocks` at the start of a name and what follows it is `mocks` at the start
of the name: what follows starts with a separator. -/
theorem startsMocks_of_isPrefix_append {n : Name .backslash} {p : Folder}
    (h : mocksName.text <+: n.text ++ tail p) : StartsMocks n := by
  rcases List.prefix_or_prefix_of_prefix h (List.prefix_append n.text (tail p)) with
    hpre | ⟨u, hu⟩
  · exact hpre
  · cases u with
    | nil => exact ⟨[], by simpa using hu.symm⟩
    | cons c u =>
        cases p with
        | nil => simpa [StartsMocks] using h
        | cons m p =>
            -- the pattern would reach over a separator, which it does not contain
            rw [← hu, tail_cons] at h
            obtain ⟨hc, -⟩ := List.cons_prefix_cons.mp
              ((List.prefix_append_right_inj n.text).mp h)
            have hmem : Sep.backslash.char ∈ mocksName.text := by
              rw [← hu, hc]
              exact List.mem_append_right _ List.mem_cons_self
            exact absurd hmem mocksName.sep_notMem

/-- The search steps over the components that do not start with `mocks`. -/
theorem firstMatch_tail_append {p : Folder} (hp : Free p) (q : Folder) :
    firstMatch mocksPattern (tail p ++ tail q) =
      (firstMatch mocksPattern (tail q)).map (· + (tail p).length) := by
  induction p with
  | nil => simp
  | cons n p ih =>
      obtain ⟨hn, hfree⟩ := List.forall_mem_cons.mp hp
      have hstart : ¬ mocksPattern <+: '\\' :: (n.text ++ (tail p ++ tail q)) := by
        intro hpre
        refine hn (startsMocks_of_isPrefix_append (p := p ++ q) ?_)
        rw [tail_append]
        exact (List.cons_prefix_cons.mp hpre).2
      have hpiece := firstMatch_cons_append n.sep_notMem mocksName.text (tail p ++ tail q)
      calc firstMatch mocksPattern (tail (n :: p) ++ tail q)
          = (firstMatch mocksPattern (n.text ++ (tail p ++ tail q))).map (· + 1) := by
            rw [tail_cons, List.cons_append, List.append_assoc]
            exact firstMatch_cons_of_not_isPrefix hstart
        _ = ((firstMatch mocksPattern (tail p ++ tail q)).map
              (· + n.text.length)).map (· + 1) := congrArg _ hpiece
        _ = (firstMatch mocksPattern (tail q)).map (· + (tail (n :: p)).length) := by
            rw [ih hfree, Option.map_map, Option.map_map]
            congr 1
            funext k
            simp only [Function.comp_apply, tail_cons, List.length_cons, List.length_append]
            omega

theorem firstMatch_walkRoot {p : Folder} (hp : Free p) (q : Folder) :
    firstMatch mocksPattern (walkRoot (p ++ q)) =
      (firstMatch mocksPattern (tail q)).map (· + (walkRoot p).length) := by
  have hdot : Sep.backslash.char ∉ ['.'] := by decide
  have hpiece := firstMatch_cons_append hdot mocksName.text (tail p ++ tail q)
  calc firstMatch mocksPattern (walkRoot (p ++ q))
      = (firstMatch mocksPattern (tail p ++ tail q)).map (· + 1) := by
        rw [walkRoot, tail_append]
        exact hpiece
    _ = (firstMatch mocksPattern (tail q)).map (· + (walkRoot p).length) := by
        rw [firstMatch_tail_append hp, Option.map_map]
        rfl

/-- A folder without a component that starts with `mocks` is passed by. -/
theorem found_of_free {d : Folder} (h : Free d) : found (walkRoot d) = -1 := by
  have hend : firstMatch mocksPattern [] = none := by decide
  have hnone := firstMatch_walkRoot h []
  rw [List.append_nil, tail_nil, hend, Option.map_none] at hnone
  rw [found, find, hnone]

/-- Else the search stops before the first such component. -/
theorem found_of_splitMocks {d pre post : Folder} {x : PyStr}
    (h : splitMocks d = some (pre, x, post)) :
    found (walkRoot d) = (walkRoot pre).length := by
  obtain ⟨hfree, n, hn, rfl⟩ := splitMocks_eq_some h
  have hhere : mocksPattern <+: tail (n :: post) := by
    rw [tail_cons, hn, List.append_assoc]
    exact ⟨x ++ tail post, rfl⟩
  rw [found, find, firstMatch_walkRoot hfree, firstMatch_of_isPrefix hhere]
  simp

/-- The script goes through the files of a folder exactly when some component of
its path starts with `mocks`. -/
theorem found_pos_iff (d : Folder) : found (walkRoot d) > 0 ↔ ¬ Free d := by
  cases hsplit : splitMocks d with
  | none =>
      have hfree := free_of_splitMocks_eq_none hsplit
      rw [found_of_free hfree]
      exact ⟨fun h => absurd h (by decide), fun h => absurd hfree h⟩
  | some cut =>
      obtain ⟨pre, x, post⟩ := cut
      rw [found_of_splitMocks hsplit]
      have hnot : ¬ Free d := not_free_of_splitMocks hsplit
      have hpos : 0 < (walkRoot pre).length := Nat.succ_pos _
      exact ⟨fun _ => hnot, fun _ => by omega⟩

/-! ## The slices -/

section slices

variable {d pre post : Folder} {x : PyStr}

theorem walkRoot_of_splitMocks (h : splitMocks d = some (pre, x, post)) :
    walkRoot d = walkRoot (pre ++ [mocksName]) ++ (x ++ tail post) := by
  obtain ⟨-, n, hn, rfl⟩ := splitMocks_eq_some h
  simp only [walkRoot, tail_append, tail_cons, tail_nil, hn, List.cons_append,
    List.append_assoc, List.append_nil]

theorem length_walkRoot_mocksName (pre : Folder) :
    (walkRoot (pre ++ [mocksName])).length = (walkRoot pre).length + 6 := by
  rw [walkRoot, walkRoot, tail_append, List.length_cons, List.length_append]
  rfl

theorem mocksRoot_of_splitMocks (h : splitMocks d = some (pre, x, post)) :
    mocksRoot (walkRoot d) = walkRoot (pre ++ [mocksName]) := by
  have hcut : (found (walkRoot d) + 6).toNat = (walkRoot (pre ++ [mocksName])).length := by
    rw [found_of_splitMocks h, length_walkRoot_mocksName]
    omega
  rw [mocksRoot, hcut, walkRoot_of_splitMocks h, List.take_left' rfl]

theorem nested_of_splitMocks (h : splitMocks d = some (pre, x, post)) :
    Nested (walkRoot d) ↔ 2 ≤ (x ++ tail post).length := by
  rw [Nested, found_of_splitMocks h, walkRoot_of_splitMocks h, List.length_append,
    length_walkRoot_mocksName]
  omega

/-- What the script reads as the path of a file below the mocks folder. -/
theorem mock_of_splitMocks (h : splitMocks d = some (pre, x, post)) (filename : PyStr) :
    mockString .backslash (walkRoot d) filename =
      if 2 ≤ (x ++ tail post).length then
        join .backslash ((x ++ tail post).drop 1) filename
      else filename := by
  have hcut : (found (walkRoot d) + 7).toNat =
      (walkRoot (pre ++ [mocksName])).length + 1 := by
    rw [found_of_splitMocks h, length_walkRoot_mocksName]
    omega
  simp only [mockString, nested_of_splitMocks h]
  rw [hcut, walkRoot_of_splitMocks h, List.drop_length_add_append]

end slices

/-! ## The pairing -/

/-- What the script makes of the files of a folder: it passes the folder by;
it works on the same file, at the root of the drive, as target and as source;
or it takes them for the files of `below` in the mocks folder of `project`. -/
inductive Pairing
  | unmatched
  | rooted (below : Folder)
  | paired (project below : Folder)
  deriving DecidableEq

/-- The pairing of a folder that is cut at a component `mocks` and more. The
first character after `mocks` is lost, whether or not it is a separator. -/
def pairingOf (pre : Folder) : PyStr → Folder → Pairing
  | [], post => .paired pre post
  | [_], post => if post = [] then .paired pre [] else .rooted post
  | _ :: y, post =>
      -- always valid: `y` is the end of a folder's name
      if h : ValidName .backslash y then .paired pre (⟨y, h⟩ :: post) else .unmatched

/-- The pairing of a folder. -/
def pairing (d : Folder) : Pairing :=
  match splitMocks d with
  | none => .unmatched
  | some (pre, x, post) => pairingOf pre x post

/-- The path of the target in the tree. -/
def targetPath (project below : Folder) (n : Name .backslash) : Folder :=
  project ++ mocksName :: (below ++ [n])

/-- The path of the source in the tree. -/
def sourcePath (below : Folder) (n : Name .backslash) : Folder :=
  unitTestMocks :: (below ++ [n])

theorem targetPath_eq_append (project below : Folder) (n : Name .backslash) :
    targetPath project below n = (project ++ mocksName :: below) ++ [n] := by
  rw [targetPath, List.append_assoc, List.cons_append]

@[simp] theorem dropLast_targetPath (project below : Folder) (n : Name .backslash) :
    (targetPath project below n).dropLast = project ++ mocksName :: below := by
  rw [targetPath_eq_append, List.dropLast_concat]

@[simp] theorem getLast?_targetPath (project below : Folder) (n : Name .backslash) :
    (targetPath project below n).getLast? = some n := by
  rw [targetPath_eq_append, List.getLast?_concat]

theorem sourcePath_ne_nil {below : Folder} {n : Name .backslash} : sourcePath below n ≠ [] :=
  List.cons_ne_nil _ _

/-- The end of a name is a name. -/
theorem validName_of_append {s y : PyStr} (h : ValidName .backslash (s ++ y)) (hy : y ≠ []) :
    ValidName .backslash y := by
  obtain ⟨-, hback, hslash, hcolon, hdot, hspace⟩ := h
  rw [List.getLast?_append_of_ne_nil s hy] at hdot hspace
  exact ⟨hy, fun hc => hback (List.mem_append_right s hc),
    fun hc => hslash (List.mem_append_right s hc),
    fun hc => hcolon (List.mem_append_right s hc), hdot, hspace⟩

theorem validName_of_splitMocks {d pre post : Folder} {c : Char} {y : PyStr}
    (h : splitMocks d = some (pre, c :: y, post)) (hy : y ≠ []) : ValidName .backslash y := by
  obtain ⟨-, n, hn, -⟩ := splitMocks_eq_some h
  have hvalid := n.valid
  rw [hn, List.append_cons] at hvalid
  exact validName_of_append hvalid hy

/-- The string the script reads as the path of a file below the mocks folder. -/
theorem mock_eq {d : Folder} (n : Name .backslash) :
    match pairing d with
    | .unmatched => Free d
    | .rooted below =>
        ¬ Free d ∧ below ≠ [] ∧ Nested (walkRoot d) ∧
          mockString .backslash (walkRoot d) n.text = tail (below ++ [n])
    | .paired project below =>
        ¬ Free d ∧ Free project ∧ (Nested (walkRoot d) ↔ below ≠ []) ∧
          mocksRoot (walkRoot d) = walkRoot (project ++ [mocksName]) ∧
          mockString .backslash (walkRoot d) n.text = relative (below ++ [n]) := by
  have hone : n.text = relative [n] := (List.append_nil n.text).symm
  rw [pairing]
  cases hsplit : splitMocks d with
  | none => exact free_of_splitMocks_eq_none hsplit
  | some cut =>
      obtain ⟨pre, x, post⟩ := cut
      have hnot : ¬ Free d := not_free_of_splitMocks hsplit
      have hfree := (splitMocks_eq_some hsplit).1
      have hroot := mocksRoot_of_splitMocks hsplit
      have hnested := nested_of_splitMocks hsplit
      have hmock := mock_of_splitMocks hsplit n.text
      match x, hsplit with
      | [], hsplit =>
          -- a folder named `mocks`, or one below it
          by_cases hpost : post = []
          · subst hpost
            exact ⟨hnot, hfree, by simpa using hnested, hroot, by simpa [relative] using hmock⟩
          · have htwo := two_le_length_tail hpost
            refine ⟨hnot, hfree, ⟨fun _ => hpost, fun _ => hnested.mpr htwo⟩, hroot, ?_⟩
            rw [hmock, List.nil_append, if_pos htwo, drop_one_tail, hone]
            exact join_relative_relative hpost (List.cons_ne_nil _ _)
      | [c], hsplit =>
          -- one letter more: it is cut off, and what is below starts with a separator
          by_cases hpost : post = []
          · subst hpost
            simp only [pairingOf, if_true]
            exact ⟨hnot, hfree, by simpa using hnested, hroot, by simpa [relative] using hmock⟩
          · have htwo := two_le_length_tail hpost
            have hlong : 2 ≤ ([c] ++ tail post).length := by
              rw [List.length_append]
              omega
            simp only [pairingOf, if_neg hpost]
            refine ⟨hnot, hpost, hnested.mpr hlong, ?_⟩
            rw [hmock, if_pos hlong, hone]
            exact join_tail_relative hpost (List.cons_ne_nil _ _)
      | c :: c' :: y, hsplit =>
          -- two letters or more: the end of the name is read as a folder
          have hvalid := validName_of_splitMocks hsplit (List.cons_ne_nil c' y)
          have hlong : 2 ≤ (c :: c' :: y ++ tail post).length := by
            simp only [List.cons_append, List.length_cons]
            omega
          simp only [pairingOf, dif_pos hvalid]
          refine ⟨hnot, hfree, ⟨fun _ => List.cons_ne_nil _ _, fun _ => hnested.mpr hlong⟩,
            hroot, ?_⟩
          rw [hmock, if_pos hlong, hone]
          exact join_relative_relative (List.cons_ne_nil (⟨c' :: y, hvalid⟩ : Name .backslash) post)
            (List.cons_ne_nil _ _)

theorem pairing_eq_unmatched_iff (d : Folder) : pairing d = .unmatched ↔ Free d := by
  constructor
  · intro h
    have heq := mock_eq (d := d) mocksName
    rwa [h] at heq
  · intro h
    rw [pairing, splitMocks_of_free h]

/-- A folder the script goes through the files of is paired, or leads the script
to the root of the drive. -/
theorem pairing_of_not_free {d : Folder} (h : ¬ Free d) :
    (∃ project below, pairing d = .paired project below) ∨
      ∃ below, pairing d = .rooted below := by
  cases hpair : pairing d with
  | unmatched => exact absurd ((pairing_eq_unmatched_iff d).mp hpair) h
  | rooted below => exact .inr ⟨below, rfl⟩
  | paired project below => exact .inl ⟨project, below, rfl⟩

section strings

variable {d project below : Folder}

/-- A pair that leads to the root of the drive is a file and itself. -/
theorem pairing_rooted (h : pairing d = .rooted below) (n : Name .backslash) :
    targetString .backslash (walkRoot d) n.text = tail (below ++ [n]) ∧
      sourceString .backslash (walkRoot d) n.text = tail (below ++ [n]) := by
  have heq := mock_eq (d := d) n
  rw [h] at heq
  obtain ⟨-, hbelow, -, hmock⟩ := heq
  have hne : below ++ [n] ≠ [] := List.concat_ne_nil _ _
  rw [targetString, sourceString, hmock]
  exact ⟨join_tail _ hne, join_tail _ hne⟩

theorem target_of_paired (h : pairing d = .paired project below) (n : Name .backslash) :
    targetString .backslash (walkRoot d) n.text = walkRoot (targetPath project below n) := by
  have heq := mock_eq (d := d) n
  rw [h] at heq
  obtain ⟨-, -, -, hroot, hmock⟩ := heq
  have hne : below ++ [n] ≠ [] := List.concat_ne_nil _ _
  rw [targetString, hroot, hmock, join_walkRoot _ hne, targetPath, List.append_assoc,
    List.singleton_append]

theorem source_of_paired (h : pairing d = .paired project below) (n : Name .backslash) :
    sourceString .backslash (walkRoot d) n.text = relative (sourcePath below n) := by
  have heq := mock_eq (d := d) n
  rw [h] at heq
  obtain ⟨-, -, -, -, hmock⟩ := heq
  have hne : below ++ [n] ≠ [] := List.concat_ne_nil _ _
  have hdir : sourceDirectory = relative [unitTestMocks] := (List.append_nil _).symm
  rw [sourceString, hmock, hdir, join_relative_relative (List.cons_ne_nil _ _) hne]
  rfl

theorem free_project (h : pairing d = .paired project below) : Free project := by
  have heq := mock_eq (d := d) mocksName
  rw [h] at heq
  exact heq.2.1

end strings

/-- A folder named exactly `mocks`, with all that is below it, is paired with
the common folder. -/
theorem pairing_mocks {project : Folder} (h : Free project) (below : Folder) :
    pairing (project ++ mocksName :: below) = .paired project below := by
  rw [pairing, splitMocks_append_cons h startsMocks_mocksName]
  rfl

/-- A target has one source: its path gives back the project and what is below. -/
theorem targetPath_inj {project project' below below' : Folder} {n n' : Name .backslash}
    (h : Free project) (h' : Free project')
    (heq : targetPath project below n = targetPath project' below' n') :
    project = project' ∧ below = below' ∧ n = n' := by
  have hcut := splitMocks_append_cons h startsMocks_mocksName (below ++ [n])
  have hcut' := splitMocks_append_cons h' startsMocks_mocksName (below' ++ [n'])
  rw [targetPath, targetPath] at heq
  rw [heq, hcut'] at hcut
  simp only [Option.some.injEq, Prod.mk.injEq, true_and] at hcut
  obtain ⟨hbelow, hn⟩ := List.append_inj' hcut.2 rfl
  exact ⟨hcut.1.symm, hbelow.symm, (List.singleton_inj.mp hn).symm⟩

end TraceRecorderTests.Update
