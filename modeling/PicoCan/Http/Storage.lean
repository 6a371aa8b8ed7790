import PicoCan.Http.Calls

/-!
# `storage.c`

The functions of the user page storage, one definition each, under the source's
names. A callback is a parameter; its context is passed along as a value.
-/

namespace PicoCan.Http

open Calls
open PicoCan.Can (eInval eIo Reply snprintk jsonBool)

def storageIoChunk : Nat := 512

/-- `(uint64_t)frsize * blocks / 1024` as `unsigned long`. -/
def kib (frsize blocks : UInt32) : UInt32 := (frsize.toUInt64 * blocks.toUInt64 / 1024).toUInt32

def updateSpaceLocked : HttpProg Unit := do
  file (.spaceSet 0 0)
  let mounted ← file .mountedGet
  if mounted then
    match ← file (.fsStatvfs .storage) with
    | .error _ => return ()
    | .ok stat => file (.spaceSet (kib stat.frsize stat.blocks) (kib stat.frsize stat.bfree))
  else return ()

def storageMountOnce : HttpProg Int := do
  file .storageLock
  let attempted ← file .mountAttemptedGet
  if attempted then
    let ret ← file .mountRetGet
    file .storageUnlock
    return ret
  else
    file (.mountAttemptedSet true)
    let ret ← file .fsMount
    file (.mountRetSet ret)
    file (.mountedSet (ret = 0))
    if ret = 0 then
      updateSpaceLocked
      file .storageUnlock
      return ret
    else
      file .storageUnlock
      return ret

/-- `struct storage_status`. -/
structure StorageStatus where
  attempted : Bool
  mounted : Bool
  mountRet : Int
  totalKib : UInt32
  freeKib : UInt32

def storageGetStatus : HttpProg StorageStatus := do
  file .storageLock
  updateSpaceLocked
  let attempted ← file .mountAttemptedGet
  let mounted ← file .mountedGet
  let mountRet ← file .mountRetGet
  let space ← file .spaceGet
  file .storageUnlock
  return { attempted, mounted, mountRet, totalKib := space.1, freeKib := space.2 }

/-- The text of a storage status object. -/
def storageStatusText (status : StorageStatus) : Bytes :=
  lit "\x7b\"type\":\"fs.status\",\"ok\":" ++ jsonBool status.mounted ++
    lit ",\"attempted\":" ++ jsonBool status.attempted ++
    lit ",\"mounted\":" ++ jsonBool status.mounted ++
    lit ",\"mountRet\":" ++ decInt status.mountRet ++
    lit ",\"path\":\"" ++ lit Path.storage.text ++
    lit "\",\"totalKiB\":" ++ dec status.totalKib.toNat ++
    lit ",\"freeKiB\":" ++ dec status.freeKib.toNat ++ lit "\x7d"

def storageFormatStatusJson (response : Bytes) (responseLen : Nat) : HttpProg Reply := do
  let _ ← storageMountOnce
  let status ← storageGetStatus
  return snprintk response responseLen (storageStatusText status)

/-- Return value, and what `*len` holds afterwards. -/
def storageUserIndexSize (len : Nat) : HttpProg (Int × Nat) := do
  let ret ← storageMountOnce
  if ret < 0 then
    return (ret, len)
  else
    match ← file (.fsStat .userIndex) with
    | .error e => return (e.ret, len)
    | .ok entry =>
      if entry.type ≠ .file then
        return (-eIsDir, len)
      else
        return (0, entry.size)

/-- The loop of `storage_stream_user_index`; nothing when it is not done after `fuel`
rounds. -/
def streamLoop (writer : Bytes → HttpProg Int) : (fuel : Nat) → HttpProg (Option Int)
  | 0 => return none
  | fuel + 1 => do
      match ← file (.fsRead storageIoChunk) with
      | .error e => return some e.ret
      | .ok ⟨[], _⟩ => return some 0
      | .ok buf =>
        let ret ← writer buf.val
        if ret < 0 then
          return some ret
        else
          streamLoop writer fuel

def storageStreamUserIndex (fuel : Nat) (writer : Bytes → HttpProg Int) :
    HttpProg (Option Int) := do
  let ret ← storageMountOnce
  if ret < 0 then
    return some ret
  else
    let ret ← file (.fsOpen .userIndex { read := true })
    if ret < 0 then
      return some ret
    else
      match ← streamLoop writer fuel with
      | none => return none
      | some ret =>
        let _ ← file .fsClose
        return some ret

/-- The inner loop of `storage_write_user_index_stream`: write what is left of a chunk.
The value of `ret` behind it. A round that goes on writes at least one byte, so the
chunk's length is enough fuel. -/
def writeLoop : (fuel : Nat) → (ret : Int) → Bytes → HttpProg Int
  | 0, ret, _ => return ret
  | fuel + 1, ret, buf =>
      if buf = [] then
        return ret
      else do
        match ← file (.fsWrite buf) with
        | .error e => return e.ret
        | .ok written =>
          if written.val = 0 then
            return -eIo
          else
            writeLoop fuel ret (buf.drop written.val)

section Reader

variable {σ : Type} (reader : σ → Nat → HttpProg ((Int × Bytes) × σ))

/-- The outer loop: `ret`, `remaining` and the reader's context behind it. A round that
goes on takes at least one byte, so `remaining` is enough fuel. -/
def copyLoop : (fuel : Nat) → (ret : Int) → (remaining : Nat) → σ → HttpProg (Int × Nat × σ)
  | 0, ret, remaining, ctx => return (ret, remaining, ctx)
  | fuel + 1, ret, remaining, ctx =>
      if remaining = 0 then
        return (ret, remaining, ctx)
      else do
        let requested := min remaining storageIoChunk
        let ((ret, buf), ctx) ← reader ctx requested
        if ret < 0 then
          return (ret, remaining, ctx)
        else if buf.length = 0 ∨ buf.length > requested then
          return (-eIo, remaining, ctx)
        else
          let ret ← writeLoop buf.length ret buf
          if ret < 0 then
            return (ret, remaining, ctx)
          else
            copyLoop fuel ret (remaining - buf.length) ctx

/-- The directory of the user page, made when it is missing. -/
def makeUserDir : HttpProg Int := do
  match ← file (.fsStat .userDir) with
  | .error e =>
      if e.ret = -eNoEnt then
        file (.fsMkdir .userDir)
      else
        return e.ret
  | .ok entry =>
      if entry.type ≠ .dir then
        return -eNotDir
      else
        return 0

def storageWriteUserIndexStream (len : Nat) (ctx : σ) : HttpProg (Int × σ) := do
  let ret ← storageMountOnce
  if ret < 0 then
    return (ret, ctx)
  else
    let ret ← makeUserDir
    if ret < 0 then
      return (ret, ctx)
    else
      let ret ← file (.fsOpen .userIndex { create := true, trunc := true, write := true })
      if ret < 0 then
        return (ret, ctx)
      else
        let (ret, remaining, ctx) ← copyLoop reader len ret len ctx
        if ret < 0 then
          let _ ← file .fsClose
          return (ret, ctx)
        else
          let ret ← file .fsSync
          let _ ← file .fsClose
          if ret < 0 then
            return (ret, ctx)
          else if remaining ≠ 0 then
            return (-eIo, ctx)
          else
            file .storageLock
            updateSpaceLocked
            file .storageUnlock
            return (0, ctx)

end Reader

end PicoCan.Http
