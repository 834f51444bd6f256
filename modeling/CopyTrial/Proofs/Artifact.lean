import CopyTrial.Artifact
import CopyTrial.Proofs.Machine.Files
import CopyTrial.Proofs.Sha256

/-!
# How an index of artifacts grows

An index is built step by step. A step adds an artifact whose content is at hand, or a file, whose
content is read. A step that succeeds adds one artifact at the end, and a step that fails changes
nothing, so in the end there are the artifacts of the steps that have succeeded, in order.

## Main definitions

* `Artifact.Describes` — an artifact tells a content.
* `Addition.found` — the content that a step finds in a tree, or why it finds none.
* `Addition.Leaves` — what comes of a sequence of steps, and the artifacts that it leaves.

## Main results

* `ArtifactIndex.run_addFile` — what adding a file does.
* `Addition.run_eq` — what one step does to an index.
* `Addition.runAll_leaves` — what a sequence of steps does to an index.
-/

set_option autoImplicit false

namespace CopyTrial

namespace ArtifactIndex

/-- A file is added to an index if it can be read. -/
theorem run_addFile (machine : Machine) (i : ArtifactIndex) (path kind : String) :
    machine.run (i.addFile path kind : ExceptT IoError (StateM Machine) ArtifactIndex) =
      ((machine.tree.read path).map fun content => i.add path kind content, machine) := by
  have hread : machine.run (Host.readFile path : ExceptT IoError (StateM Machine) Bytes) =
      (machine.tree.read path, machine) := rfl
  rw [addFile, Machine.run_bind, hread]
  cases machine.tree.read path <;> rfl

/-- A file that can be read is added to an index with what it holds. -/
theorem run_addFile_of_read {machine : Machine} {path : String} {content : Bytes}
    (h : machine.tree.read path = .ok content) (i : ArtifactIndex) (kind : String) :
    machine.run (i.addFile path kind : ExceptT IoError (StateM Machine) ArtifactIndex) =
      (.ok (i.add path kind content), machine) := by
  rw [run_addFile, h]
  rfl

end ArtifactIndex

/-- An artifact tells a content: the path and the kind are those that were given with it, the size
is its length, and the digest is the hexadecimal form of its digest, which has 64 characters. -/
structure Artifact.Describes (a : Artifact) (path kind : String) (content : Bytes) : Prop where
  path_eq : a.path = path
  kind_eq : a.kind = kind
  size_eq : a.size = some (UInt64.ofNat content.length)
  size_toNat : content.length < 2 ^ 64 → a.size.map UInt64.toNat = some content.length
  isHexOf : Bytes.IsHexOf a.digest (Sha256.digest content)
  length_digest : a.digest.length = 64

/-- The artifact of a content describes it. -/
theorem Artifact.describes_ofContent (path kind : String) (content : Bytes) :
    (ofContent path kind content).Describes path kind content where
  path_eq := rfl
  kind_eq := rfl
  size_eq := rfl
  size_toNat h := congrArg some (UInt64.toNat_ofNat_of_lt' h)
  isHexOf := Bytes.isHexOf_hex _
  length_digest := Sha256.length_hexDigest content

namespace Addition

/-- The path that a step is given. -/
def path : Addition → String
  | .given path .. => path
  | .file path _ => path

/-- The kind that a step is given. -/
def kind : Addition → String
  | .given _ kind _ => kind
  | .file _ kind => kind

/-- The content that a step finds in a tree, or why it finds none. -/
def found (tree : FileTree) : Addition → Except IoError Bytes
  | .given _ _ content => .ok content
  | .file path _ => tree.read path

/-- What comes of each step, and the artifacts that are left: a step succeeds if it finds a content,
and then leaves an artifact that describes it. -/
inductive Leaves (tree : FileTree) :
    List Addition → List (Except IoError Unit) → List Artifact → Prop
  | nil : Leaves tree [] [] []
  | added {addition : Addition} {additions : List Addition} {outcomes : List (Except IoError Unit)}
      {a : Artifact} {artifacts : List Artifact} {content : Bytes}
      (hfound : addition.found tree = .ok content)
      (ha : a.Describes addition.path addition.kind content)
      (h : Leaves tree additions outcomes artifacts) :
      Leaves tree (addition :: additions) (.ok () :: outcomes) (a :: artifacts)
  | failed {addition : Addition} {additions : List Addition} {outcomes : List (Except IoError Unit)}
      {artifacts : List Artifact} {e : IoError} (hfound : addition.found tree = .error e)
      (h : Leaves tree additions outcomes artifacts) :
      Leaves tree (addition :: additions) (.error e :: outcomes) artifacts

/-- A step that is carried out on an index, on a machine. -/
def run (addition : Addition) (i : ArtifactIndex) (machine : Machine) :
    (Except IoError Unit × ArtifactIndex) × Machine :=
  ((addition.perform.run : StateT ArtifactIndex (StateM Machine) _).run i).run machine

/-- Steps that are carried out on an index, on a machine. -/
def runAll (additions : List Addition) (i : ArtifactIndex) (machine : Machine) :
    (List (Except IoError Unit) × ArtifactIndex) × Machine :=
  ((performAll additions : StateT ArtifactIndex (StateM Machine) _).run i).run machine

/-- **What one step does**: with the content that it finds it adds an artifact at the end, and
without one it changes nothing. The machine stays as it is. -/
theorem run_eq (addition : Addition) (i : ArtifactIndex) (machine : Machine) :
    addition.run i machine =
      match addition.found machine.tree with
      | .ok content => ((.ok (), i.add addition.path addition.kind content), machine)
      | .error e => ((.error e, i), machine) := by
  cases addition with
  | given path kind content => rfl
  | file path kind =>
    have hrun : (Addition.file path kind).run i machine =
        match machine.run
            (i.addFile path kind : ExceptT IoError (StateM Machine) ArtifactIndex) with
        | (.ok longer, after) => ((.ok (), longer), after)
        | (.error e, after) => ((.error e, i), after) := by
      have hget : (get : ExceptT IoError (StateT ArtifactIndex (StateM Machine)) ArtifactIndex)
          i machine = ((.ok i, i), machine) := rfl
      rcases h : machine.run
          (i.addFile path kind : ExceptT IoError (StateM Machine) ArtifactIndex) with
        ⟨_ | longer, after⟩ <;>
        simp only [Machine.run, run, perform, ExceptT.run, StateT.run, bind, ExceptT.bind,
          ExceptT.mk, StateT.bind, StateT.lift, ExceptT.bindCont, hget] at h ⊢ <;>
        rw [h] <;> rfl
    rw [hrun, ArtifactIndex.run_addFile]
    show _ = match machine.tree.read path with
      | Except.ok content => ((Except.ok (), i.add path kind content), machine)
      | Except.error e => ((Except.error e, i), machine)
    cases machine.tree.read path <;> rfl

/-- A sequence of steps starts with the first one, whatever comes of it. -/
theorem runAll_cons (addition : Addition) (additions : List Addition) (i : ArtifactIndex)
    (machine : Machine) :
    runAll (addition :: additions) i machine =
      (((addition.run i machine).1.1 ::
          (runAll additions (addition.run i machine).1.2 (addition.run i machine).2).1.1,
        (runAll additions (addition.run i machine).1.2 (addition.run i machine).2).1.2),
        (runAll additions (addition.run i machine).1.2 (addition.run i machine).2).2) := rfl

/-- What comes of steps and what they leave, step by step.

**Proof sketch.** Induction on the steps, with the index general. By `run_eq` the first step either
adds one artifact, and then the others add theirs behind it, or leaves the index to the others as it
was. -/
theorem exists_leaves (additions : List Addition) (machine : Machine) (i : ArtifactIndex) :
    ∃ outcomes artifacts,
      runAll additions i machine =
        ((outcomes, { i with artifacts := i.artifacts ++ artifacts }), machine) ∧
      Leaves machine.tree additions outcomes artifacts := by
  induction additions generalizing i with
  | nil =>
    refine ⟨[], [], ?_, .nil⟩
    rw [List.append_nil]
    rfl
  | cons addition additions ih =>
    rw [runAll_cons, run_eq]
    cases hfound : addition.found machine.tree with
    | error e =>
      obtain ⟨outcomes, artifacts, hrun, h⟩ := ih i
      refine ⟨.error e :: outcomes, artifacts, ?_, .failed hfound h⟩
      simp only [hrun]
    | ok content =>
      obtain ⟨outcomes, artifacts, hrun, h⟩ := ih (i.add addition.path addition.kind content)
      refine ⟨.ok () :: outcomes, .ofContent addition.path addition.kind content :: artifacts, ?_,
        .added hfound (Artifact.describes_ofContent ..) h⟩
      simp only [hrun]
      simp only [ArtifactIndex.add, List.append_assoc, List.singleton_append]

/-- **What becomes of an index.** Whatever steps are carried out, the artifacts of those that
succeed are added at its end in their order, each as its content says, and nothing else of it
changes. A step that fails leaves the index as it was, a file is not added just if its path leads to
no file, and a file that is read is added as its content would be. -/
theorem runAll_leaves (machine : Machine) (i : ArtifactIndex) :
    (∀ additions, ∃ outcomes artifacts,
        runAll additions i machine =
          ((outcomes, { i with artifacts := i.artifacts ++ artifacts }), machine) ∧
        Leaves machine.tree additions outcomes artifacts) ∧
      (∀ (addition : Addition) (e : IoError), (addition.run i machine).1.1 = .error e →
        addition.run i machine = ((.error e, i), machine)) ∧
      (∀ path kind, (∃ e, ((file path kind).run i machine).1.1 = .error e) ↔
        machine.tree.isFile path = false) ∧
      ∀ path kind content, machine.tree.read path = .ok content →
        (file path kind).run i machine = (given path kind content).run i machine := by
  refine ⟨fun additions => exists_leaves additions machine i, ?_, ?_, ?_⟩
  · intro addition e
    rw [run_eq]
    cases addition.found machine.tree with
    | error e' =>
      intro h
      obtain rfl := Except.error.inj h
      rfl
    | ok content => intro h; cases h
  · intro path kind
    rw [← FileTree.exists_read_eq_error_iff, run_eq]
    have hfound : (file path kind).found machine.tree = machine.tree.read path := rfl
    rw [hfound]
    cases machine.tree.read path <;> simp
  · intro path kind content hread
    rw [run_eq, run_eq]
    have hfound : (file path kind).found machine.tree = .ok content := hread
    rw [hfound]
    rfl

/-- A report of two bytes, and a directory. -/
def sampleTree : FileTree :=
  ⟨[(["report.md"], .file [0x23, 0x0a]), (["logs"], .directory)]⟩

/-- Steps of which the second finds nothing and the third a directory. -/
theorem runAll_leaves_mixed :
    let machine : Machine := { tree := sampleTree }
    let i : ArtifactIndex := { runId := "run", generated := "now" }
    (∃ outcomes artifacts,
        runAll [.given "a" "log" [7], .file "b" "log", .file "logs" "log",
          .file "report.md" "report"] i machine =
          ((outcomes, { i with artifacts := i.artifacts ++ artifacts }), machine) ∧
        Leaves machine.tree [.given "a" "log" [7], .file "b" "log", .file "logs" "log",
          .file "report.md" "report"] outcomes artifacts) ∧
      (file "b" "log").run i machine = ((.error .notFound, i), machine) ∧
      (∃ e, ((file "logs" "log").run i machine).1.1 = .error e) ∧
      (file "report.md" "report").run i machine =
        (given "report.md" "report" [0x23, 0x0a]).run i machine := by
  intro machine i
  obtain ⟨hall, hfail, hfile, hsame⟩ := runAll_leaves machine i
  exact ⟨hall _, hfail _ _ (by rfl), (hfile ..).2 (by rfl), hsame _ _ _ (by rfl)⟩

end Addition

end CopyTrial
