import CopyTrial.Proofs.Except
import CopyTrial.Proofs.FileTree.Extension
import CopyTrial.Proofs.FileTree.Listing
import CopyTrial.Proofs.Fixture.Load
import CopyTrial.Proofs.Text.ByteOrder

/-!
# Loading the fixtures of a directory

Of the entries of a directory, those whose names end in the extension of fixtures are read, in the
order of the bytes of their names. So the order in which the system lists the directory does not
matter. The first entry that holds no fixture ends the loading, with what is wrong with that entry.

## Main definitions

* `Fixture.IsFileName` — a name with the extension of fixtures.
* `Fixture.Spoilt` — what is wrong with a file that holds no fixture.

## Main results

* `Fixture.candidates_perm`, `Fixture.pairwise_candidates` — what is read, and in which order.
* `Fixture.run_load_directory` — what loading a directory gives.
-/

set_option autoImplicit false

namespace CopyTrial

namespace Fixture

/-! ## What is read, and in which order -/

/-- A name with the extension of fixtures: something stands before the extension. -/
def IsFileName (name : String) : Prop := ∃ stem, stem ≠ "" ∧ name = stem ++ ".json"

/-- The extension decides whether a name is that of a fixture. -/
theorem extension?_eq_json_iff (name : String) :
    Path.extension? name = some "json" ↔ IsFileName name := by
  have hnodot : '.' ∉ "json".toList := by decide
  rw [Path.extension?_eq_some_iff, IsFileName]
  refine (and_iff_right hnodot).trans ?_
  simp only [String.append_assoc]
  rfl

instance : DecidablePred IsFileName := fun name => decidable_of_iff _ (extension?_eq_json_iff name)

example : IsFileName "a.b.json" ∧ ¬ IsFileName ".json" ∧ ¬ IsFileName "a.JSON" := by decide +kernel

/-- Every name with the extension is read as often as it is listed. -/
theorem candidates_perm (names : List String) :
    (candidates names).Perm (names.filter IsFileName) := by
  have hsame : (names.filter fun name => Path.extension? name = some "json") =
      names.filter IsFileName :=
    List.filter_congr fun name _ => by simp only [extension?_eq_json_iff]
  rw [candidates, hsame]
  exact List.mergeSort_perm _ _

/-- The names are in ascending order. -/
theorem pairwise_candidates (names : List String) : (candidates names).Pairwise (· ≤ ·) := by
  have h : (candidates names).Pairwise fun a b => decide (a ≤ b) = true := by
    refine List.pairwise_mergeSort (fun a b c hab hbc => ?_) (fun a b => ?_) _
    · simp only [decide_eq_true_eq] at hab hbc ⊢
      exact String.le_trans hab hbc
    · simpa using String.le_total a b
  exact h.imp fun hab => by simpa using hab

/-- The order in which names are listed does not matter. -/
theorem candidates_eq_of_perm {names names' : List String} (h : names.Perm names') :
    candidates names = candidates names' := by
  have hperm : (candidates names).Perm (candidates names') :=
    (candidates_perm names).trans ((h.filter _).trans (candidates_perm names').symm)
  exact hperm.eq_of_pairwise (fun a b _ _ hab hba => String.le_antisymm hab hba)
    (pairwise_candidates names) (pairwise_candidates names')

/-- No name is read if none has the extension. -/
theorem candidates_eq_nil_iff (names : List String) :
    candidates names = [] ↔ ∀ name ∈ names, ¬ IsFileName name := by
  have h : ∀ name, name ∈ candidates names ↔ name ∈ names ∧ IsFileName name := fun name => by
    rw [mem_candidates_iff, extension?_eq_json_iff]
  simp only [List.eq_nil_iff_forall_not_mem, h, not_and]

/-! ## What a directory gives -/

/-- What is wrong with a file that holds no fixture. -/
inductive Spoilt (tree : FileTree) (path : String) : Failure → Prop
  /-- It cannot be read. -/
  | unreadable {e : IoError} (hread : tree.read path = .error e) : Spoilt tree path (.io e)
  /-- It holds no text. -/
  | notText {bytes : Bytes} (hread : tree.read path = .ok bytes)
    (htext : Bytes.toText? bytes = none) : Spoilt tree path (.io .notText)
  /-- The text is no document of a fixture. -/
  | notFixture {bytes : Bytes} {text : String} {e : Json.Error} (hread : tree.read path = .ok bytes)
    (htext : Bytes.toText? bytes = some text) (hparse : codec.parse text = .error e) :
    Spoilt tree path (.json e)

/-- What keeps a fixture from being found in a file is what is wrong with the file. -/
theorem ofFile_eq_error_iff (tree : FileTree) (path : String) (failure : Failure) :
    ofFile tree path = .error failure ↔ Spoilt tree path failure := by
  constructor
  · intro h
    rw [ofFile] at h
    cases hread : tree.read path with
    | error e =>
      rw [hread] at h
      obtain rfl := Except.error.inj h
      exact .unreadable hread
    | ok bytes =>
      rw [hread] at h
      simp only [bind, Except.bind, Except.mapError] at h
      split at h
      · next text htext =>
        cases hparse : codec.parse text with
        | error e =>
          rw [hparse] at h
          obtain rfl := Except.error.inj h
          exact .notFixture hread htext hparse
        | ok fixture => rw [hparse] at h; cases h
      · next htext =>
        obtain rfl := Except.error.inj h
        exact .notText hread htext
  · intro h
    cases h with
    | unreadable hread => simp [ofFile, hread, bind, Except.bind, Except.mapError]
    | notText hread htext => simp [ofFile, hread, htext, bind, Except.bind, Except.mapError]
    | notFixture hread htext hparse =>
      simp [ofFile, hread, htext, hparse, bind, Except.bind, Except.mapError]

/-- The fixtures of a directory are those of its files. -/
theorem ofPath_directory {tree : FileTree} {path : String} {place : Place}
    (h : tree.locate path = .ok (place, .directory)) :
    ofPath tree path =
      if candidates (tree.children place) = [] then .error (.noFixtures path)
      else (candidates (tree.children place)).mapM fun name => ofFile tree (Path.join path name) := by
  have hfile : tree.isFile path = false := by rw [FileTree.isFile, h]
  have hlist : tree.list path = .ok (tree.children place) := by
    rw [FileTree.list, h]
    rfl
  rw [ofPath, hfile, hlist]
  simp only [Bool.false_eq_true, if_false, Except.mapError, bind, Except.bind]
  cases candidates (tree.children place) with
  | nil => rfl
  | cons name rest =>
    show ((name :: rest).map (Path.join path)).mapM (ofFile tree) = _
    rw [if_neg (by simp), List.mapM_map]
    rfl

/-- The fixtures of a directory are found if it has files for them and each file holds one. -/
theorem ofPath_directory_eq_ok_iff {tree : FileTree} {path : String} {place : Place}
    (h : tree.locate path = .ok (place, .directory)) (fixtures : List Fixture) :
    ofPath tree path = .ok fixtures ↔ candidates (tree.children place) ≠ [] ∧
      List.Forall₂ (fun name => HeldBy tree (Path.join path name))
        (candidates (tree.children place)) fixtures := by
  rw [ofPath_directory h]
  split
  · next hempty => simp [hempty]
  · next hsome =>
    rw [mapM_eq_ok_iff]
    simp only [ofFile_eq_ok_iff, hsome, ne_eq, not_false_eq_true, true_and]

/-- The fixtures of a directory are not found if it has no files for them, or for what is wrong with
the first file that holds none. -/
theorem ofPath_directory_eq_error_iff {tree : FileTree} {path : String} {place : Place}
    (h : tree.locate path = .ok (place, .directory)) (failure : Failure) :
    ofPath tree path = .error failure ↔
      candidates (tree.children place) = [] ∧ failure = .noFixtures path ∨
      ∃ before name after, candidates (tree.children place) = before ++ name :: after ∧
        (∀ other ∈ before, ∃ fixture, HeldBy tree (Path.join path other) fixture) ∧
        Spoilt tree (Path.join path name) failure := by
  rw [ofPath_directory h]
  split
  · next hempty => simp [hempty, eq_comm]
  · next hsome =>
    rw [mapM_eq_error_iff]
    simp [hsome, ofFile_eq_ok_iff, ofFile_eq_error_iff]

/-- A path leads to the same fixtures, or fails for the same cause, however directories are
listed. -/
theorem ofPath_eq_of_relisted {tree tree' : FileTree} (h : tree.Relisted tree') (path : String) :
    ofPath tree path = ofPath tree' path := by
  have hfile : tree.isFile path = tree'.isFile path := by
    rw [FileTree.isFile, FileTree.isFile, h.locate_eq]
  have hof : ∀ path, ofFile tree path = ofFile tree' path := fun path => by
    rw [ofFile, ofFile, h.read_eq]
  by_cases hdirectory : ∃ place, tree.locate path = .ok (place, .directory)
  · obtain ⟨place, hplace⟩ := hdirectory
    have hplace' : tree'.locate path = .ok (place, .directory) := by rw [← h.locate_eq, hplace]
    rw [ofPath_directory hplace, ofPath_directory hplace',
      candidates_eq_of_perm (h.children_perm place)]
    simp only [hof]
  · have hlist : tree.list path = tree'.list path := by
      rw [FileTree.list, FileTree.list, ← h.locate_eq]
      cases hlocate : tree.locate path with
      | error e => rfl
      | ok found =>
        obtain ⟨place, _ | content⟩ := found
        · exact absurd ⟨place, hlocate⟩ hdirectory
        · rfl
    have hall : ofFile tree = ofFile tree' := funext hof
    rw [ofPath, ofPath, hfile, hlist, hall]

/-- **What loading a directory gives.** The files that are read are the entries with the extension
of fixtures, in ascending order of the bytes of their names, and the path by which an entry is read
leads to it. If there is no such entry, that is the failure. If each of them holds a fixture, those
are given in this order, and otherwise what is wrong with the first one that holds none. The order
in which directories are listed makes no difference, and the machine stays as it is. -/
theorem run_load_directory {machine : Machine} {path : String} {place : Place}
    (hpath : machine.tree.locate path = .ok (place, .directory)) :
    ∃ files result,
      files.Perm ((machine.tree.children place).filter IsFileName) ∧
      files.Pairwise (fun a b => Bytes.ofText a ≤ Bytes.ofText b) ∧
      (∀ name ∈ files, Path.IsEntryName name →
        (Path.join path name).utf8ByteSize ≤ FileTree.pathLimit →
        ∃ node, machine.tree.node? (place ++ [name]) = some node ∧
          machine.tree.locate (Path.join path name) = .ok (place ++ [name], node)) ∧
      (∀ fixtures, result = .ok fixtures ↔ files ≠ [] ∧
        List.Forall₂ (fun name => HeldBy machine.tree (Path.join path name)) files fixtures) ∧
      (∀ failure, result = .error failure ↔
        files = [] ∧ failure = .noFixtures path ∨
        ∃ before name after, files = before ++ name :: after ∧
          (∀ other ∈ before, ∃ fixture, HeldBy machine.tree (Path.join path other) fixture) ∧
          Spoilt machine.tree (Path.join path name) failure) ∧
      ((∃ other, result = .error (.noFixtures other)) ↔
        ∀ name ∈ machine.tree.children place, ¬ IsFileName name) ∧
      machine.run (load path : ExceptT Failure (StateM Machine) (List Fixture)) =
        (result, machine) ∧
      ∀ machine' : Machine, machine.tree.Relisted machine'.tree →
        machine'.run (load path : ExceptT Failure (StateM Machine) (List Fixture)) =
          (result, machine') := by
  have hnone := candidates_eq_nil_iff (machine.tree.children place)
  have hfailure := ofPath_directory_eq_error_iff hpath
  refine ⟨candidates (machine.tree.children place), ofPath machine.tree path,
    candidates_perm _, ?_, ?_, ofPath_directory_eq_ok_iff hpath, hfailure, ?_,
    run_load machine path, ?_⟩
  · exact (pairwise_candidates _).imp fun hab => (Bytes.ofText_le_iff _ _).2 hab
  · intro name hname hentry hlong
    have hlisted : name ∈ machine.tree.children place :=
      ((mem_candidates_iff _ _).1 hname).1
    obtain ⟨node, hnode⟩ := FileTree.exists_node?_of_mem_children hlisted
    exact ⟨node, hnode, FileTree.locate_join hpath hentry hlong hnode⟩
  · rw [← hnone]
    constructor
    · rintro ⟨other, hother⟩
      rcases (hfailure _).1 hother with ⟨hempty, -⟩ | ⟨before, name, after, -, -, hspoilt⟩
      · exact hempty
      · cases hspoilt
    · intro hempty
      exact ⟨path, (hfailure _).2 (.inl ⟨hempty, rfl⟩)⟩
  · intro machine' hrelisted
    rw [run_load, ofPath_eq_of_relisted hrelisted]

/-- A directory with a file that holds no text, a directory with the name of a fixture, and a file
whose name is nothing but the extension. -/
def sampleEntries : List (Place × Node) :=
  [(["d"], .directory), (["d", "b.json"], .file [0xff]), (["d", "a.json"], .directory),
    (["d", ".json"], .file [])]

/-- A directory that is listed forwards and backwards. -/
theorem run_load_directory_backwards :
    let machine : Machine := { tree := ⟨sampleEntries⟩ }
    let machine' : Machine := { tree := ⟨sampleEntries.reverse⟩ }
    ∃ (files : List String) (result : Except Failure (List Fixture)),
      files.Perm ["b.json", "a.json"] ∧
      files.Pairwise (fun a b => Bytes.ofText a ≤ Bytes.ofText b) ∧
      (∃ node, machine.tree.locate "d/a.json" = .ok (["d", "a.json"], node)) ∧
      machine.run (load "d" : ExceptT Failure (StateM Machine) (List Fixture)) =
        (result, machine) ∧
      machine'.run (load "d" : ExceptT Failure (StateM Machine) (List Fixture)) =
        (result, machine') := by
  intro machine machine'
  have hpath : machine.tree.locate "d" = .ok (["d"], .directory) := by decide +kernel
  obtain ⟨files, result, hperm, hsorted, hentry, -, -, -, hrun, hrelisted⟩ :=
    run_load_directory hpath
  have hnames : (machine.tree.children ["d"]).filter IsFileName = ["b.json", "a.json"] := by
    decide +kernel
  have hmem : "a.json" ∈ files := hperm.mem_iff.2 (by rw [hnames]; decide)
  have hname : Path.IsEntryName "a.json" := by constructor <;> decide +kernel
  obtain ⟨node, -, hlocate⟩ := hentry "a.json" hmem hname (by decide +kernel)
  exact ⟨files, result, hnames ▸ hperm, hsorted, ⟨node, hlocate⟩, hrun,
    hrelisted machine' (.of_perm (List.reverse_perm sampleEntries).symm (by decide +kernel))⟩

end Fixture

end CopyTrial
