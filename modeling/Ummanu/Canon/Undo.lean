import Ummanu.Library.DurableLoop
import Ummanu.Library.PathTree

/-!
# The undo-guarded write

A canon transaction replaces and removes files under one root. Before it changes a path it keeps what stands
there: the bytes of a file go to the undo area, and an entry of the journal says what the path was and which
directories its write will create. Retiring the undo area is the commit. A failure in the block, or the next
writer after a crash, restores the entries in the opposite order and removes the directories that were created,
the deepest first.

Scope. A write through a temporary file is one step, and so is a rename; the directories it needs are made before,
one at a time. The undo area lies outside the tree. A path that leads through a link or a file is one that
cannot be inspected. Owners of files are left out.
-/

set_option autoImplicit false

namespace Ummanu.Canon

open Library

/-! ### The disk -/

/-- The `state` of an entry: what a path was. -/
inductive Prior
  | absent
  | file (saved mode : ℕ)
  | link (target : String)
  deriving DecidableEq

/-- An entry of the journal. -/
structure Entry where
  path : Path
  createdDirs : List Path
  state : Prior
  deriving DecidableEq

/-- The undo area: the bytes that were kept, and the journal. -/
structure Undo where
  saved : ℕ → Option String := fun _ ↦ none
  journal : Option (List Entry) := none

structure Disk where
  tree : PathTree
  undo : Option Undo := none

/-- A transaction has the entries that it has written to the journal in memory. -/
abbrev Program := Durable Disk (List Entry) String

/-- A path as the journal and the errors write it. -/
def relative (path : Path) : String := "/".intercalate path

/-- The mode of a file that `mkstemp` makes, and of a directory that `mkdir` makes. -/
def newFileMode : ℕ := 0o600
def newDirMode : ℕ := 0o755

/-- `lstat`: what stands at a path, unless a parent of it is no directory. -/
def lstat (tree : PathTree) (path : Path) : Except String (Option TreeNode) :=
  if (parents path).any fun dir ↦ (tree.look dir).any fun node ↦ !node.isDir then .error "Not a directory"
  else .ok (tree.look path)

/-- `mkdir`. -/
def makeDir (dir : Path) : Program Unit :=
  Durable.commit fun disk ↦ { disk with tree := disk.tree.set dir (.dir newDirMode) }

/-- A file or a link is put at a path, after the parents that it lacks, the outermost first. -/
def replaceAt (path : Path) (node : TreeNode) : Program Unit := do
  let disk ← Durable.stored
  match lstat disk.tree path with
  | .error error => throw error
  | .ok (some (.dir _)) => throw "Is a directory"
  | .ok _ =>
    Durable.each makeDir (disk.tree.missing path).reverse
    Durable.commit fun disk ↦ { disk with tree := disk.tree.set path node }

/-- `unlink` of a file or a link; a path that is absent is left so. -/
def unlink (path : Path) : Program Unit := do
  let disk ← Durable.stored
  match lstat disk.tree path with
  | .error error => throw error
  | .ok none => return ()
  | .ok (some (.dir _)) => throw "Is a directory"
  | .ok (some _) => Durable.commit fun disk ↦ { disk with tree := disk.tree.erase path }

/-! ### Restoring -/

/-- One entry of `_restore`. -/
def restoreEntry (saved : ℕ → Option String) (entry : Entry) : Program Unit := do
  let disk ← Durable.stored
  if (disk.tree.look entry.path).any (·.isDir) then
    throw ("memory canon path became a directory: " ++ relative entry.path)
  else
    match entry.state with
    | .file number mode =>
      match saved number with
      | none => throw "No such file"
      | some bytes => replaceAt entry.path (.file bytes mode)
    | .absent => unlink entry.path
    | .link target =>
      unlink entry.path
      replaceAt entry.path (.link target)

/-- `rmdir`, of which a failure is ignored. -/
def removeDir (dir : Path) : Program Unit :=
  Durable.commit fun disk ↦
    if (disk.tree.look dir).any (·.isDir) ∧ disk.tree.isEmpty dir then { disk with tree := disk.tree.erase dir }
    else disk

/-- The created directories, the deepest first. -/
def createdDirs (entries : List Entry) : List Path :=
  (entries.flatMap (·.createdDirs)).dedup.insertionSort fun first second ↦ second.length ≤ first.length

def restore (saved : ℕ → Option String) (entries : List Entry) : Program Unit := do
  Durable.each (restoreEntry saved) entries.reverse
  Durable.each removeDir (createdDirs entries)

/-- `_discard`: the undo area is renamed away. -/
def discard : Program Unit := Durable.commit fun disk ↦ { disk with undo := none }

def recoverCanonUndo : Program Unit := do
  let disk ← Durable.stored
  match disk.undo with
  | none => return ()
  | some undo =>
    match undo.journal with
    | none => discard
    | some entries =>
      restore undo.saved entries
      discard

/-! ### The transaction -/

/-- The undo area is made before the first entry. -/
def openUndo (entries : List Entry) : Program Unit :=
  if entries ≠ [] then return ()
  else do
    let disk ← Durable.stored
    if disk.undo.isSome then throw "could not create the memory canon undo area"
    else Durable.commit fun disk ↦ { disk with undo := some {} }

/-- What stands at a path is kept. -/
def keepPrior (path : Path) (number : ℕ) : Option TreeNode → Program Prior
  | none => return .absent
  | some (.link target) => return .link target
  | some (.file bytes mode) => do
    Durable.commit fun disk ↦ { disk with undo := disk.undo.map fun undo ↦
      { undo with saved := Function.update undo.saved number (some bytes) } }
    return .file number mode
  | some (.dir _) => throw ("memory canon path is not a regular file: " ++ relative path)

/-- `_write_journal`, with one more entry. -/
def writeJournal (entry : Entry) : Program Unit := do
  let entries ← Durable.remembered
  Durable.commit fun disk ↦ { disk with undo := disk.undo.map fun undo ↦
    { undo with journal := some (entries ++ [entry]) } }
  Durable.remember fun entries ↦ entries ++ [entry]

/-- `_guard`, for a path that is not guarded. -/
def guardNew (path : Path) : Program Unit := do
  let entries ← Durable.remembered
  let disk ← Durable.stored
  match lstat disk.tree path with
  | .error error => throw ("could not inspect memory canon path " ++ relative path ++ ": " ++ error)
  | .ok info =>
    openUndo entries
    let state ← keepPrior path entries.length info
    writeJournal ⟨path, disk.tree.missing path, state⟩

def guard (path : Path) : Program Unit := do
  if path = [] then throw "memory canon write outside its root"
  else
    let entries ← Durable.remembered
    if entries.any (·.path = path) then return () else guardNew path

/-- `write` and `remove`. -/
inductive Op
  | write (path : Path) (text : String)
  | remove (path : Path)

def Op.path : Op → Path
  | .write path _ | .remove path => path

def Op.run : Op → Program Unit
  | .write path text => do
    guard path
    replaceAt path (.file text newFileMode)
  | .remove path => do
    guard path
    unlink path

def rollback : Program Unit := do
  let entries ← Durable.remembered
  if entries = [] then discard
  else
    let disk ← Durable.stored
    restore ((disk.undo.map (·.saved)).getD fun _ ↦ none) entries
    discard

/-- The block of a transaction, which may raise after its last operation, with the rollback. -/
def block (ops : List Op) (raises : Bool) : Program Unit :=
  tryCatch
    (do
      Durable.each Op.run ops
      if raises then throw "the block raises" else return ())
    fun error ↦ do
      rollback
      throw error

def canonTransaction (ops : List Op) (raises : Bool) : Program Unit := do
  recoverCanonUndo
  Durable.remember fun _ ↦ []
  block ops raises
  discard

/-! ### Histories -/

inductive Event
  | transaction (ops : List Op) (raises : Bool)
  | recover

def Event.program : Event → Program Unit
  | .transaction ops raises => canonTransaction ops raises
  | .recover => recoverCanonUndo

end Ummanu.Canon
