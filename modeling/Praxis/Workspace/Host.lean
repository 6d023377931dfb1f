import Mathlib.Data.List.Basic
import Mathlib.Data.List.Infix
import Mathlib.Data.List.Nodup
import Praxis.Foundation.Hash

/-!
# What the workspace history works on

The workspace under its root is a directory tree; paths are lists of names below the
root.  Next to it stand the files of the history itself: the blobs, under the digest
that names them, the manifests, and the rows of the index.

Every call to the operating system may fail.  A temporary file is not part of the
tree: it has a name nothing else has, and it is gone once it has been renamed or
dropped.
-/

namespace Praxis.Workspace

open Foundation

/-! ## Paths and files -/

/-- A file name: any bytes. -/
abbrev Name := Bytes

/-- `std::path::Component` on Unix. -/
inductive Component where
  | rootDir
  | curDir
  | parentDir
  | normal (name : Name)
  deriving DecidableEq

/-- A path as a manifest holds it. -/
abbrev PathBuf := List Component

/-! ## Manifests and rows -/

abbrev WorkspaceCheckpointId := BitVec 128

structure WorkspaceFileVersion where
  path : PathBuf
  blobHash : String
  byteSize : Nat
  modifiedAtUnixNs : Nat
  executable : Bool
  deriving DecidableEq

structure WorkspaceCheckpointManifest where
  schemaVersion : UInt32
  id : WorkspaceCheckpointId
  workspaceRoot : PathBuf
  threadId : Option String
  turnId : Option String
  operationId : Option String
  createdAtUnixMs : Int
  files : List WorkspaceFileVersion
  skippedFiles : List PathBuf
  deriving DecidableEq

end Praxis.Workspace
