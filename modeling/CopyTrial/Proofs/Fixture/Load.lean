import CopyTrial.Fixture.Load
import CopyTrial.Proofs.Machine.Files

/-!
# What fixtures are loaded

Loading reads the file tree and leaves it as it is. It gives all the fixtures that a path leads to,
or none at all: one entry of a directory that holds no fixture is enough to fail.

## Main definitions

* `Fixture.HeldBy` — a file holds a fixture.
* `Fixture.Lacking` — a path leads to no fixture, or to something that should be one and is not.
* `Fixture.ofFile`, `Fixture.ofPath` — the fixtures in a tree, or why there are none.

## Main results

* `Fixture.run_load` — loading gives what is in the tree and changes nothing.
* `Fixture.ofPath_eq_error` — when loading fails.
-/

set_option autoImplicit false

namespace CopyTrial.Fixture

/-! ## Fixtures in a tree -/

/-- The fixture in a file of a tree, or why there is none. -/
def ofFile (tree : FileTree) (path : String) : Except Failure Fixture := do
  let bytes ← (tree.read path).mapError Failure.io
  match Bytes.toText? bytes with
  | some text => (codec.parse text).mapError Failure.json
  | none => .error (.io .notText)

/-- The fixtures that a path leads to in a tree, or why there are none. -/
def ofPath (tree : FileTree) (path : String) : Except Failure (List Fixture) :=
  if tree.isFile path then (fun fixture => [fixture]) <$> ofFile tree path
  else do
    let names ← (tree.list path).mapError Failure.io
    match candidates names with
    | [] => .error (.noFixtures path)
    | files => (files.map (Path.join path)).mapM (ofFile tree)

section

variable (machine : Machine) (path : String)

/-- Reading a text leaves the machine as it is. -/
theorem run_readText :
    machine.run (readText path : ExceptT IoError (StateM Machine) String) =
      (do
        let bytes ← machine.tree.read path
        match Bytes.toText? bytes with
        | some text => pure text
        | none => throw .notText, machine) := by
  show machine.run (Host.readFile path >>= _) = _
  have hread : machine.run (Host.readFile path : ExceptT IoError (StateM Machine) Bytes) =
      (machine.tree.read path, machine) := rfl
  rw [Machine.run_bind, hread]
  cases machine.tree.read path with
  | error e => rfl
  | ok bytes =>
    simp only [bind, Except.bind]
    cases Bytes.toText? bytes <;> rfl

/-- A file is loaded as the fixture in it, and the machine stays as it is. -/
theorem run_loadFile :
    machine.run (loadFile path : ExceptT Failure (StateM Machine) Fixture) =
      (ofFile machine.tree path, machine) := by
  rw [loadFile, Machine.run_bind, Machine.run_adapt, run_readText, ofFile]
  cases machine.tree.read path with
  | error e => rfl
  | ok bytes =>
    simp only [bind, Except.bind, Except.mapError]
    cases Bytes.toText? bytes with
    | none => rfl
    | some text =>
      simp only [pure, Except.pure]
      cases codec.parse text <;> rfl

/-- Files are loaded as the fixtures in them. -/
theorem run_loadFiles (paths : List String) :
    machine.run (loadFiles paths : ExceptT Failure (StateM Machine) (List Fixture)) =
      (paths.mapM (ofFile machine.tree), machine) := by
  induction paths with
  | nil => rfl
  | cons path rest ih =>
    rw [loadFiles, List.mapM_cons, Machine.run_bind, run_loadFile]
    cases ofFile machine.tree path with
    | error failure => rfl
    | ok fixture =>
      show machine.run (loadFiles rest >>= fun fixtures => pure (fixture :: fixtures)) = _
      rw [Machine.run_bind, ih]
      cases rest.mapM (ofFile machine.tree) <;> rfl

/-- **Loading gives the fixtures that a path leads to**, or fails, and leaves the machine as it
is. -/
theorem run_load :
    machine.run (load path : ExceptT Failure (StateM Machine) (List Fixture)) =
      (ofPath machine.tree path, machine) := by
  have hfile : (Host.isFile path : StateM Machine Bool) machine =
      (machine.tree.isFile path, machine) := rfl
  have hlist : machine.run
      (Host.listDirectory path : ExceptT IoError (StateM Machine) (List String)) =
        (machine.tree.list path, machine) := rfl
  rw [load, Machine.run_bind_lift hfile, ofPath]
  split
  · rw [Machine.run_bind, run_loadFile]
    cases ofFile machine.tree path <;> rfl
  · rw [Machine.run_bind, Machine.run_adapt, hlist]
    cases machine.tree.list path with
    | error e => rfl
    | ok names =>
      simp only [bind, Except.bind, Except.mapError]
      cases candidates names with
      | nil => rfl
      | cons name rest => exact run_loadFiles machine _

end

/-! ## When loading fails -/

/-- The file that a path leads to holds a fixture. -/
def HeldBy (tree : FileTree) (path : String) (fixture : Fixture) : Prop :=
  ∃ bytes text, tree.read path = .ok bytes ∧ Bytes.toText? bytes = some text ∧
    codec.parse text = .ok fixture

/-- A path leads to no fixture, or to something that should be one and is not. -/
inductive Lacking (tree : FileTree) (path : String) : Prop
  /-- There is nothing to which the path leads. -/
  | nothing {e : IoError} (h : tree.locate path = .error e)
  /-- The path leads to a file that holds no fixture. -/
  | file (h : tree.isFile path = true) (hnone : ∀ fixture, ¬ HeldBy tree path fixture)
  /-- No entry of the directory has the extension of fixtures. -/
  | empty {names : List String} (h : tree.list path = .ok names)
    (hnone : ∀ name ∈ names, Path.extension? name ≠ some "json")
  /-- An entry of the directory that has the extension holds no fixture. -/
  | entry {names : List String} {name : String} (h : tree.list path = .ok names)
    (hname : name ∈ names) (hextension : Path.extension? name = some "json")
    (hnone : ∀ fixture, ¬ HeldBy tree (Path.join path name) fixture)

/-- What is found in a file is what it holds. -/
theorem ofFile_eq_ok_iff (tree : FileTree) (path : String) (fixture : Fixture) :
    ofFile tree path = .ok fixture ↔ HeldBy tree path fixture := by
  rw [ofFile, HeldBy]
  cases tree.read path with
  | error e => simp [bind, Except.bind, Except.mapError]
  | ok bytes =>
    cases htext : Bytes.toText? bytes with
    | none => simp [bind, Except.bind, Except.mapError, htext]
    | some text =>
      cases hparse : codec.parse text <;>
        simp [bind, Except.bind, Except.mapError, htext, hparse]

/-- Nothing is found in a file that holds no fixture. -/
theorem exists_ofFile_eq_error_iff (tree : FileTree) (path : String) :
    (∃ failure, ofFile tree path = .error failure) ↔ ∀ fixture, ¬ HeldBy tree path fixture := by
  simp only [← ofFile_eq_ok_iff]
  cases ofFile tree path <;> simp

/-- A failure to find a fixture has exit code 2. -/
theorem exitCode_of_ofFile {tree : FileTree} {path : String} {failure : Failure}
    (h : ofFile tree path = .error failure) : failure.exitCode = 2 := by
  rw [ofFile] at h
  cases hread : tree.read path with
  | error e =>
    rw [hread] at h
    obtain rfl := Except.error.inj h
    rfl
  | ok bytes =>
    rw [hread] at h
    simp only [bind, Except.bind, Except.mapError] at h
    split at h
    · next text _ =>
      cases hparse : codec.parse text with
      | error e =>
        rw [hparse] at h
        obtain rfl := Except.error.inj h
        rfl
      | ok fixture =>
        rw [hparse] at h
        cases h
    · obtain rfl := Except.error.inj h
      rfl

/-- One of several files holds no fixture exactly when they cannot all be loaded, and then the
failure has exit code 2. -/
theorem mapM_ofFile_eq_error (tree : FileTree) (paths : List String) :
    ((∃ failure, paths.mapM (ofFile tree) = .error failure) ↔
      ∃ path ∈ paths, ∀ fixture, ¬ HeldBy tree path fixture) ∧
      ∀ failure, paths.mapM (ofFile tree) = .error failure → failure.exitCode = 2 := by
  induction paths with
  | nil => simp [pure, Except.pure]
  | cons path rest ih =>
    rw [List.mapM_cons, List.exists_mem_cons_iff, ← exists_ofFile_eq_error_iff]
    cases hfile : ofFile tree path with
    | error failure =>
      refine ⟨iff_of_true ⟨failure, rfl⟩ (.inl ⟨failure, rfl⟩), fun failure' h => ?_⟩
      obtain rfl := Except.error.inj h
      exact exitCode_of_ofFile hfile
    | ok fixture =>
      simp only [bind, Except.bind, reduceCtorEq, exists_false, false_or, ← ih.1]
      cases hrest : rest.mapM (ofFile tree) with
      | error failure =>
        refine ⟨iff_of_true ⟨failure, rfl⟩ ⟨failure, rfl⟩, fun failure' h => ?_⟩
        obtain rfl := Except.error.inj h
        exact ih.2 failure hrest
      | ok fixtures => simp [pure, Except.pure]

/-- The candidates are the names with the extension of fixtures. -/
theorem mem_candidates_iff (names : List String) (name : String) :
    name ∈ candidates names ↔ name ∈ names ∧ Path.extension? name = some "json" := by
  rw [candidates, List.mem_mergeSort, List.mem_filter, decide_eq_true_iff]

/-- A path leads to a file, to a directory whose entries are listed, or to nothing. -/
theorem file_or_directory_or_nothing (tree : FileTree) (path : String) :
    (tree.isFile path = true ∧ ∃ e, tree.list path = .error e) ∨
      (tree.isFile path = false ∧ ∃ names, tree.list path = .ok names) ∨
        tree.isFile path = false ∧
          ∃ e, tree.list path = .error e ∧ tree.locate path = .error e := by
  rw [FileTree.isFile, FileTree.list]
  cases tree.locate path with
  | error e => exact .inr (.inr ⟨rfl, e, rfl, rfl⟩)
  | ok found =>
    obtain ⟨place, _ | content⟩ := found
    · exact .inr (.inl ⟨rfl, _, rfl⟩)
    · exact .inl ⟨rfl, _, rfl⟩

/-- A path to which nothing leads is neither that of a file nor that of a directory. -/
theorem not_isFile_of_locate {tree : FileTree} {path : String} {e : IoError}
    (h : tree.locate path = .error e) : tree.isFile path = false ∧ tree.list path = .error e := by
  rw [FileTree.isFile, FileTree.list, h]
  exact ⟨rfl, rfl⟩

/-- **When loading fails**, and that it then does so with exit code 2. -/
theorem ofPath_eq_error (tree : FileTree) (path : String) :
    ((∃ failure, ofPath tree path = .error failure) ↔ Lacking tree path) ∧
      ∀ failure, ofPath tree path = .error failure → failure.exitCode = 2 := by
  rw [ofPath]
  rcases file_or_directory_or_nothing tree path with
    ⟨hfile, e, hlist⟩ | ⟨hfile, names, hlist⟩ | ⟨hfile, e, hlist, hlocate⟩
  · have hlacking : Lacking tree path ↔ ∀ fixture, ¬ HeldBy tree path fixture := by
      refine ⟨fun h => ?_, .file hfile⟩
      cases h with
      | nothing h => rw [(not_isFile_of_locate h).1] at hfile; cases hfile
      | file _ hnone => exact hnone
      | empty h => rw [h] at hlist; cases hlist
      | entry h => rw [h] at hlist; cases hlist
    rw [if_pos hfile, hlacking, ← exists_ofFile_eq_error_iff]
    cases hof : ofFile tree path with
    | error failure =>
      refine ⟨iff_of_true ⟨failure, rfl⟩ ⟨failure, rfl⟩, fun failure' h => ?_⟩
      obtain rfl := Except.error.inj h
      exact exitCode_of_ofFile hof
    | ok fixture => simp [Functor.map, Except.map]
  · have hlacking : Lacking tree path ↔ candidates names = [] ∨
        ∃ name ∈ candidates names, ∀ fixture, ¬ HeldBy tree (Path.join path name) fixture := by
      simp only [List.eq_nil_iff_forall_not_mem, mem_candidates_iff, not_and]
      refine ⟨fun h => ?_, ?_⟩
      · cases h with
        | nothing h => rw [(not_isFile_of_locate h).2] at hlist; cases hlist
        | file h => rw [h] at hfile; cases hfile
        | empty h hnone =>
          obtain rfl := Except.ok.inj (h.symm.trans hlist)
          exact .inl hnone
        | entry h hname hextension hnone =>
          obtain rfl := Except.ok.inj (h.symm.trans hlist)
          exact .inr ⟨_, ⟨hname, hextension⟩, hnone⟩
      · rintro (hnone | ⟨name, ⟨hname, hextension⟩, hnone⟩)
        · exact .empty hlist hnone
        · exact .entry hlist hname hextension hnone
    rw [hlacking, hfile, hlist]
    simp only [Bool.false_eq_true, if_false, Except.mapError, bind, Except.bind]
    cases hcandidates : candidates names with
    | nil =>
      refine ⟨iff_of_true ⟨_, rfl⟩ (.inl rfl), fun failure h => ?_⟩
      obtain rfl := Except.error.inj h
      rfl
    | cons name rest =>
      obtain ⟨hiff, hcode⟩ := mapM_ofFile_eq_error tree ((name :: rest).map (Path.join path))
      refine ⟨hiff.trans ?_, hcode⟩
      simp
  · rw [hfile, hlist]
    refine ⟨iff_of_true ⟨.io e, rfl⟩ (.nothing hlocate), fun failure h => ?_⟩
    obtain rfl := Except.error.inj h
    rfl

end CopyTrial.Fixture
