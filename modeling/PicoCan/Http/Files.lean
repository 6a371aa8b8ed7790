import PicoCan.Can.Driver

/-!
# The file system under `storage.c`

The calls `storage.c` makes into Zephyr's file system and into its own static
variables (`FsCall`), and the file system they meet (`Disk`): opening with
`FS_O_TRUNC` empties a file, a write appends, and a call may fail or do less than
it was asked for.
-/

namespace PicoCan.Http

open Calls
open PicoCan.Can (Errno)

def eNoEnt : Int := 2
def eExist : Int := 17
def eNotDir : Int := 20
def eIsDir : Int := 21

/-- The paths of `storage.c`. -/
inductive Path
  | storage | userDir | userIndex
deriving DecidableEq

def Path.text : Path → String
  | .storage => "/lfs"
  | .userDir => "/lfs/user"
  | .userIndex => "/lfs/user/index.html"

inductive DirentType
  | file | dir
deriving DecidableEq

/-- `struct fs_dirent`. -/
structure Dirent where
  type : DirentType
  size : Nat

/-- `struct fs_statvfs`, with the target's 32-bit `unsigned long`. -/
structure Statvfs where
  frsize : UInt32
  blocks : UInt32
  bfree : UInt32

/-- The flags of `fs_open`. -/
structure OpenFlags where
  read : Bool := false
  write : Bool := false
  create : Bool := false
  trunc : Bool := false

/-- The bytes a call that was asked for `len` of them can deliver. -/
abbrev Chunk (len : Nat) : Type := { bytes : Bytes // bytes.length ≤ len }

/-- How many of `len` bytes a call can have taken. -/
abbrev Count (len : Nat) : Type := { n : Nat // n ≤ len }

/-- The calls of `storage.c`, reads and writes of its static variables included. A
function of it has at most one file open, its local `file`. -/
inductive FsCall
  | storageLock
  | storageUnlock
  | mountAttemptedGet
  | mountAttemptedSet (attempted : Bool)
  | mountedGet
  | mountedSet (mounted : Bool)
  | mountRetGet
  | mountRetSet (ret : Int)
  | spaceGet
  | spaceSet (totalKib freeKib : UInt32)
  | fsMount
  | fsStatvfs (path : Path)
  | fsStat (path : Path)
  | fsMkdir (path : Path)
  | fsOpen (path : Path) (flags : OpenFlags)
  | fsRead (len : Nat)
  | fsWrite (data : Bytes)
  | fsSync
  | fsClose

abbrev FsCall.Answer : FsCall → Type
  | .storageLock | .storageUnlock => Unit
  | .mountAttemptedGet | .mountedGet => Bool
  | .mountAttemptedSet _ | .mountedSet _ | .mountRetSet _ | .spaceSet _ _ => Unit
  | .mountRetGet => Int
  | .spaceGet => UInt32 × UInt32
  | .fsMount | .fsMkdir _ | .fsOpen _ _ | .fsSync | .fsClose => Int
  | .fsStatvfs _ => Except Errno Statvfs
  | .fsStat _ => Except Errno Dirent
  | .fsRead len => Except Errno (Chunk len)
  | .fsWrite data => Except Errno (Count data.length)

/-! ## The disk -/

inductive Node
  | dir
  | file (content : Bytes)
deriving DecidableEq

def Node.dirent : Node → Dirent
  | .dir => ⟨.dir, 0⟩
  | .file content => ⟨.file, content.length⟩

/-- An open file. -/
structure OpenFile where
  path : Path
  flags : OpenFlags
  pos : Nat

/-- The file system and the static variables of `storage.c`. Whether the medium can
be mounted is a property of the medium. `truncations` and `taken` record history:
how often a file was created or emptied by opening it, and what has been written
since. -/
structure Disk where
  node : Path → Option Node
  mountResult : Int := 0
  space : Statvfs := ⟨0, 0, 0⟩
  file : Option OpenFile := none
  mountAttempted : Bool := false
  mounted : Bool := false
  mountRet : Int := -Can.eNoDev
  totalKib : UInt32 := 0
  freeKib : UInt32 := 0
  truncations : Nat := 0
  taken : Bytes := []

/-- What the environment decides about one call: whether it fails, and how much of
what it is asked for it does. -/
structure Luck where
  fail : Option Errno := none
  count : Option Nat := none

/-- How many of `len` bytes a call handles. -/
def Luck.upTo (luck : Luck) (len : Nat) : Nat := min (luck.count.getD len) len

theorem Luck.upTo_le (luck : Luck) (len : Nat) : luck.upTo len ≤ len := Nat.min_le_right _ _

/-- The errno of a missing file, and of a file where a directory was expected. -/
def errnoNoEnt : Errno := ⟨2, by decide, by decide⟩
def errnoBadF : Errno := ⟨9, by decide, by decide⟩

namespace Disk

def setNode (path : Path) (node : Node) (d : Disk) : Disk :=
  { d with node := fun p => if p = path then some node else d.node p }

/-- A file is opened empty: it is new, or it was truncated. -/
def openEmpty (path : Path) (flags : OpenFlags) (d : Disk) : Disk :=
  { d.setNode path (.file []) with
    file := some ⟨path, flags, 0⟩, truncations := d.truncations + 1, taken := [] }

/-- `fs_open`, when the environment lets it succeed. -/
def openFile (path : Path) (flags : OpenFlags) (d : Disk) : Int × Disk :=
  match d.node path with
  | none => if flags.create then (0, d.openEmpty path flags) else (-eNoEnt, d)
  | some .dir => (-eIsDir, d)
  | some (.file _) =>
      if flags.trunc then (0, d.openEmpty path flags)
      else (0, { d with file := some ⟨path, flags, 0⟩ })

/-- What a file holds. -/
def content (path : Path) (d : Disk) : Bytes :=
  match d.node path with
  | some (.file content) => content
  | _ => []

/-- One call. -/
def serve (luck : Luck) : (c : FsCall) → Disk → c.Answer × Disk
  | .storageLock, d => ((), d)
  | .storageUnlock, d => ((), d)
  | .mountAttemptedGet, d => (d.mountAttempted, d)
  | .mountAttemptedSet attempted, d => ((), { d with mountAttempted := attempted })
  | .mountedGet, d => (d.mounted, d)
  | .mountedSet mounted, d => ((), { d with mounted := mounted })
  | .mountRetGet, d => (d.mountRet, d)
  | .mountRetSet ret, d => ((), { d with mountRet := ret })
  | .spaceGet, d => ((d.totalKib, d.freeKib), d)
  | .spaceSet totalKib freeKib, d => ((), { d with totalKib, freeKib })
  | .fsMount, d => (d.mountResult, d)
  | .fsStatvfs _, d =>
      match luck.fail with
      | some e => (.error e, d)
      | none => (.ok d.space, d)
  | .fsStat path, d =>
      match luck.fail, d.node path with
      | some e, _ => (.error e, d)
      | none, none => (.error errnoNoEnt, d)
      | none, some node => (.ok node.dirent, d)
  | .fsMkdir path, d =>
      match luck.fail, d.node path with
      | some e, _ => (e.ret, d)
      | none, some _ => (-eExist, d)
      | none, none => (0, d.setNode path .dir)
  | .fsOpen path flags, d =>
      match luck.fail with
      | some e => (e.ret, d)
      | none => d.openFile path flags
  | .fsRead len, d =>
      match luck.fail, d.file with
      | some e, _ => (.error e, d)
      | none, none => (.error errnoBadF, d)
      | none, some file =>
          if file.flags.read then
            let bytes := ((d.content file.path).drop file.pos).take (luck.upTo len)
            (.ok ⟨bytes, Nat.le_trans (List.length_take_le _ _) (luck.upTo_le len)⟩,
              { d with file := some { file with pos := file.pos + bytes.length } })
          else (.error errnoBadF, d)
  | .fsWrite data, d =>
      match luck.fail, d.file with
      | some e, _ => (.error e, d)
      | none, none => (.error errnoBadF, d)
      | none, some file =>
          if file.flags.write then
            let bytes := data.take (luck.upTo data.length)
            (.ok ⟨luck.upTo data.length, luck.upTo_le _⟩,
              { d.setNode file.path (.file (d.content file.path ++ bytes)) with
                taken := d.taken ++ bytes })
          else (.error errnoBadF, d)
  | .fsSync, d =>
      match luck.fail with
      | some e => (e.ret, d)
      | none => (0, d)
  | .fsClose, d =>
      match luck.fail with
      | some e => (e.ret, { d with file := none })
      | none => (0, { d with file := none })

end Disk

end PicoCan.Http
