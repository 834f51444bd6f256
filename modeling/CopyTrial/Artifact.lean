import CopyTrial.Host
import CopyTrial.Json.Record
import CopyTrial.Sha256

/-!
# Indices of artifacts

An index lists the files that a run has produced, each with its digest and its size.

## Main definitions

* `Artifact`, `ArtifactIndex` — a file that was produced, and a list of them.
* `Artifact.ofContent` — the artifact of a content.
* `ArtifactIndex.now`, `ArtifactIndex.add`, `ArtifactIndex.addFile` — building an index.
* `Addition`, `Addition.perform`, `Addition.performAll` — a step in the building of an index that is
  kept while steps fail, and a sequence of such steps.
-/

set_option autoImplicit false

namespace CopyTrial

/-- A file that a run has produced. -/
structure Artifact where
  path : String
  kind : String
  /-- The digest of the content, in hexadecimal digits. -/
  digest : String
  size : Option UInt64 := none
  deriving DecidableEq, Repr

namespace Artifact

/-- The fields of an artifact; the size may be left out. -/
def recordType : RecordType Artifact where
  wanted := "struct ArtifactEntry"
  fields :=
    .cons (.required "path" .text) <|
    .cons (.required "kind" .text) <|
    .cons (.required "sha256" .text) <|
    .cons (.optional "size_bytes" .word64) .nil
  ofRow := fun (path, kind, digest, size, ()) => { path, kind, digest, size }
  toRow a := (a.path, a.kind, a.digest, a.size, ())

/-- How an artifact stands in a document. -/
def codec : Codec Artifact := .record recordType

/-- The artifact of a content. -/
def ofContent (path kind : String) (content : Bytes) : Artifact where
  path := path
  kind := kind
  digest := Sha256.hexDigest content
  size := some (UInt64.ofNat content.length)

end Artifact

/-- A list of the files that a run has produced. -/
structure ArtifactIndex where
  version : UInt32 := 1
  runId : String
  generated : String
  artifacts : List Artifact := []
  deriving DecidableEq, Repr

namespace ArtifactIndex

/-- The fields of an index. -/
def recordType : RecordType ArtifactIndex where
  wanted := "struct ArtifactIndex"
  fields :=
    .cons (.required "index_version" .word32) <|
    .cons (.required "run_id" .text) <|
    .cons (.required "generated_utc" .text) <|
    .cons (.required "artifacts" (.list Artifact.codec)) .nil
  ofRow := fun (version, runId, generated, artifacts, ()) =>
    { version, runId, generated, artifacts }
  toRow i := (i.version, i.runId, i.generated, i.artifacts, ())

/-- How an index stands in a document. -/
def codec : Codec ArtifactIndex := .record recordType

/-- The index as a JSON document. -/
def json (i : ArtifactIndex) : String := codec.pretty i

/-- The index with one more artifact, of a given content. -/
def add (i : ArtifactIndex) (path kind : String) (content : Bytes) : ArtifactIndex :=
  { i with artifacts := i.artifacts ++ [.ofContent path kind content] }

section

variable {m : Type → Type} [Monad m]

/-- An empty index of the present moment. -/
def now [Clock m] (runId : String) : m ArtifactIndex := do
  let generated ← presentTime
  pure { runId, generated }

/-- The index with one more artifact, a file that is read. -/
def addFile [Host m] (i : ArtifactIndex) (path kind : String) : ExceptT IoError m ArtifactIndex := do
  let content ← Host.readFile path
  pure (i.add path kind content)

end

end ArtifactIndex

/-- A step in the building of an index. -/
inductive Addition where
  /-- Adds an artifact whose content is at hand. -/
  | given (path kind : String) (content : Bytes)
  /-- Adds the file that its path leads to. -/
  | file (path kind : String)
  deriving DecidableEq, Repr

namespace Addition

variable {m : Type → Type} [Monad m] [Host m]

/-- Carries out a step on the index. What a failing step has made of the index stays. -/
def perform : Addition → ExceptT IoError (StateT ArtifactIndex m) Unit
  | .given path kind content => modify fun i => i.add path kind content
  | .file path kind => do
    let i ← get
    let longer ← ExceptT.mk (StateT.lift (i.addFile path kind).run)
    set longer

/-- Carries out steps one after the other, whether or not those before have failed, and gives what
came of each. -/
def performAll : List Addition → StateT ArtifactIndex m (List (Except IoError Unit))
  | [] => pure []
  | addition :: rest => do
    let outcome ← addition.perform.run
    let outcomes ← performAll rest
    pure (outcome :: outcomes)

end Addition

end CopyTrial
