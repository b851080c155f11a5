import SquidServer.Interaction
import Mathlib.Data.List.Basic

namespace Posix
open Interaction
set_option autoImplicit true

/-- A file name or a path, as the bytes before the terminating NUL. -/
abbrev Name := List UInt8

abbrev Fd := Nat

inductive Errno where
  | enoent | enotdir | eisdir | eacces | eperm | eloop | eexist | enametoolong | eoverflow | efbig
  | enotempty | erofs | enospc | edquot | ebadf | einval | eintr | eio | eagain | einprogress
  | etimedout
  | other (code : Nat)
deriving DecidableEq

structure Stat where
  stMode : Nat
  stSize : Int
  stMtime : Int
deriving DecidableEq

abbrev sIfmt : Nat := 0o170000
abbrev sIfreg : Nat := 0o100000
abbrev sIfdir : Nat := 0o040000
abbrev sIflnk : Nat := 0o120000
abbrev sIfifo : Nat := 0o010000

def sIsreg (mode : Nat) : Bool := mode &&& sIfmt = sIfreg

def sIsdir (mode : Nat) : Bool := mode &&& sIfmt = sIfdir

/-- The flags of `openat`; without `write` the file is opened for reading only. -/
structure OpenFlags where
  write : Bool
  directory : Bool
  cloexec : Bool
  nofollow : Bool
  creat : Bool
  trunc : Bool
deriving DecidableEq

/-- The file system calls. A directory stream is known by its descriptor. -/
inductive Call where
  | dup (fd : Fd)
  | openat (fd : Fd) (path : Name) (flags : OpenFlags) (mode : Nat)
  | close (fd : Fd)
  | fstat (fd : Fd)
  | fstatat (fd : Fd) (path : Name) (nofollow : Bool)
  | fdopendir (fd : Fd)
  | readdir (fd : Fd)
  | closedir (fd : Fd)
  | pread (fd : Fd) (size : Nat) (offset : Nat)
  | pwrite (fd : Fd) (data : List UInt8) (offset : Nat)
  | mkdirat (fd : Fd) (path : Name) (mode : Nat)
  | unlinkat (fd : Fd) (path : Name) (removedir : Bool)
  | renameat (oldFd : Fd) (oldPath : Name) (newFd : Fd) (newPath : Name)
deriving DecidableEq

/-- An answer is a result or the `errno` of the failure; the results of closing are ignored. -/
abbrev Call.Ans : Call → Type
  | .dup _ => Except Errno Fd
  | .openat _ _ _ _ => Except Errno Fd
  | .close _ => Unit
  | .fstat _ => Except Errno Stat
  | .fstatat _ _ _ => Except Errno Stat
  | .fdopendir _ => Except Errno Unit
  | .readdir _ => Except Errno (Option Name)
  | .closedir _ => Unit
  | .pread _ _ _ => Except Errno (List UInt8)
  | .pwrite _ _ _ => Except Errno Nat
  | .mkdirat _ _ _ => Except Errno Unit
  | .unlinkat _ _ _ => Except Errno Unit
  | .renameat _ _ _ _ => Except Errno Unit

abbrev Syscalls : Effect := ⟨Call, Call.Ans⟩

def dup (fd : Fd) : Program Syscalls (Except Errno Fd) := .ask (E := Syscalls) (Call.dup fd)

def openat (fd : Fd) (path : Name) (flags : OpenFlags) (mode : Nat) :
    Program Syscalls (Except Errno Fd) :=
  .ask (E := Syscalls) (Call.openat fd path flags mode)

def close (fd : Fd) : Program Syscalls Unit := .ask (E := Syscalls) (Call.close fd)

def fstat (fd : Fd) : Program Syscalls (Except Errno Stat) := .ask (E := Syscalls) (Call.fstat fd)

def fstatat (fd : Fd) (path : Name) (nofollow : Bool) : Program Syscalls (Except Errno Stat) :=
  .ask (E := Syscalls) (Call.fstatat fd path nofollow)

def fdopendir (fd : Fd) : Program Syscalls (Except Errno Unit) :=
  .ask (E := Syscalls) (Call.fdopendir fd)

def readdir (fd : Fd) : Program Syscalls (Except Errno (Option Name)) :=
  .ask (E := Syscalls) (Call.readdir fd)

def closedir (fd : Fd) : Program Syscalls Unit := .ask (E := Syscalls) (Call.closedir fd)

def pread (fd : Fd) (size offset : Nat) : Program Syscalls (Except Errno (List UInt8)) :=
  .ask (E := Syscalls) (Call.pread fd size offset)

def pwrite (fd : Fd) (data : List UInt8) (offset : Nat) : Program Syscalls (Except Errno Nat) :=
  .ask (E := Syscalls) (Call.pwrite fd data offset)

def mkdirat (fd : Fd) (path : Name) (mode : Nat) : Program Syscalls (Except Errno Unit) :=
  .ask (E := Syscalls) (Call.mkdirat fd path mode)

def unlinkat (fd : Fd) (path : Name) (removedir : Bool) : Program Syscalls (Except Errno Unit) :=
  .ask (E := Syscalls) (Call.unlinkat fd path removedir)

def renameat (oldFd : Fd) (oldPath : Name) (newFd : Fd) (newPath : Name) :
    Program Syscalls (Except Errno Unit) :=
  .ask (E := Syscalls) (Call.renameat oldFd oldPath newFd newPath)

/-- The pieces of a path between slashes; a path without a slash is one piece. -/
def splitSlash : List UInt8 → List Name
  | [] => [[]]
  | c :: rest =>
    if c = 0x2F then [] :: splitSlash rest
    else match splitSlash rest with
      | [] => [[c]]
      | piece :: pieces => (c :: piece) :: pieces

/-- The components of a path: its pieces that are not empty. -/
def components (path : List UInt8) : List Name := (splitSlash path).filter (· ≠ [])

/-- A name that is one component of a path. -/
def IsComponent (name : Name) : Prop := name ≠ [] ∧ 0x2F ∉ name

instance : DecidablePred IsComponent := fun name =>
  inferInstanceAs (Decidable (name ≠ [] ∧ 0x2F ∉ name))

def dot : Name := [0x2E]

def dotdot : Name := [0x2E, 0x2E]

theorem isComponent_dot : IsComponent dot := by decide

theorem isComponent_dotdot : IsComponent dotdot := by decide

end Posix
