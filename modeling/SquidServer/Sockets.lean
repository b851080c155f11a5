import SquidServer.Posix

namespace Sockets
open Interaction Posix
set_option autoImplicit true

inductive Family where
  | unspec | inet | inet6
  | other (code : Nat)
deriving DecidableEq

abbrev sockStream : Nat := 1
abbrev ipprotoTcp : Nat := 6
abbrev oNonblock : Nat := 0o4000
abbrev pollIn : Nat := 0x01
abbrev pollOut : Nat := 0x04
abbrev pollErr : Nat := 0x08
abbrev pollNval : Nat := 0x20

/-- The kind of address a lookup asks for. -/
structure Hints where
  aiFamily : Family
  aiSocktype : Nat
  aiProtocol : Nat
deriving DecidableEq

/-- `struct addrinfo`, less the pointer to the next one. -/
structure Address where
  aiFamily : Family
  aiSocktype : Nat
  aiProtocol : Nat
  aiAddr : List UInt8
deriving DecidableEq

inductive Call where
  | getaddrinfo (host service : List UInt8) (hints : Hints)
  | freeaddrinfo
  | socket (family : Family) (socktype protocol : Nat)
  | fcntlGetfl (fd : Fd)
  | fcntlSetfl (fd : Fd) (flags : Nat)
  | connect (fd : Fd) (address : List UInt8)
  | poll (fd : Fd) (events : Nat) (timeout : Nat)
  | getsockoptError (fd : Fd)
  | send (fd : Fd) (data : List UInt8)
  | recv (fd : Fd) (size : Nat)
  | close (fd : Fd)
deriving DecidableEq

/-- The addresses a lookup gives, or its own error code; a lookup may change `errno` either way. -/
structure Lookup where
  result : Except Int (List Address)
  errno : Errno

/-- An answer is a result or the `errno` of the failure. `poll` gives the returned events, or
`none` when the time is over; `getsockopt` gives the pending error. Closing and freeing give the
`errno` they leave behind, where they change it. -/
abbrev Call.Ans : Call → Type
  | .getaddrinfo _ _ _ => Lookup
  | .freeaddrinfo => Option Errno
  | .socket _ _ _ => Except Errno Fd
  | .fcntlGetfl _ => Except Errno Nat
  | .fcntlSetfl _ _ => Except Errno Unit
  | .connect _ _ => Except Errno Unit
  | .poll _ _ _ => Except Errno (Option Nat)
  | .getsockoptError _ => Except Errno (Option Errno)
  | .send _ _ => Except Errno Nat
  | .recv _ _ => Except Errno (List UInt8)
  | .close _ => Option Errno

abbrev Network : Effect := ⟨Call, Call.Ans⟩

def getaddrinfo (host service : List UInt8) (hints : Hints) : Program Network Lookup :=
  .ask (E := Network) (Call.getaddrinfo host service hints)

def freeaddrinfo : Program Network (Option Errno) := .ask (E := Network) Call.freeaddrinfo

def socket (family : Family) (socktype protocol : Nat) : Program Network (Except Errno Fd) :=
  .ask (E := Network) (Call.socket family socktype protocol)

def fcntlGetfl (fd : Fd) : Program Network (Except Errno Nat) :=
  .ask (E := Network) (Call.fcntlGetfl fd)

def fcntlSetfl (fd : Fd) (flags : Nat) : Program Network (Except Errno Unit) :=
  .ask (E := Network) (Call.fcntlSetfl fd flags)

def connect (fd : Fd) (address : List UInt8) : Program Network (Except Errno Unit) :=
  .ask (E := Network) (Call.connect fd address)

def poll (fd : Fd) (events timeout : Nat) : Program Network (Except Errno (Option Nat)) :=
  .ask (E := Network) (Call.poll fd events timeout)

def getsockoptError (fd : Fd) : Program Network (Except Errno (Option Errno)) :=
  .ask (E := Network) (Call.getsockoptError fd)

/-- `send` with `MSG_NOSIGNAL`. -/
def send (fd : Fd) (data : List UInt8) : Program Network (Except Errno Nat) :=
  .ask (E := Network) (Call.send fd data)

def recv (fd : Fd) (size : Nat) : Program Network (Except Errno (List UInt8)) :=
  .ask (E := Network) (Call.recv fd size)

def close (fd : Fd) : Program Network (Option Errno) := .ask (E := Network) (Call.close fd)

end Sockets
