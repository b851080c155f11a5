import SquidServer.ClientCalls
import SquidServer.TcpProxy
import SquidServer.TimeService

namespace SquidServer.Client
open Interaction Wire
set_option autoImplicit true

/-- A reply is a bare status that is not OK, or what an OK reply is. It is BAD_REQUEST only where
the server's parser has refused the request. -/
def Judges (refused : Prop) (opcode : UInt8) (ok : List UInt8 → Prop) (response : Response) :
    Prop :=
  ∀ reply, response = some reply →
    (∃ status : UInt8, status ≠ 0 ∧ (status = 1 → refused) ∧
      reply = [opcode ||| 0x80, status]) ∨ ok reply

/-- No reply to a request is BAD_REQUEST. -/
def NotRefused (serves : List UInt8 → List UInt8 → Prop) (request : List UInt8) : Prop :=
  ∀ reply, serves request reply → reply[1]? ≠ some 1

section
variable {refused : Prop} {ok : List UInt8 → Prop}

theorem judges_none (opcode : UInt8) : Judges refused opcode ok none := by
  intro reply hreply
  cases hreply

theorem judges_bare {status : UInt8} (opcode : UInt8) (hok : status ≠ 0)
    (h : status = 1 → refused) : Judges refused opcode ok (some [opcode ||| 0x80, status]) := by
  intro reply hreply
  cases hreply
  exact .inl ⟨status, hok, h, rfl⟩

theorem judges_ok (h : ok reply) (opcode : UInt8) : Judges refused opcode ok (some reply) := by
  intro reply' hreply
  cases hreply
  exact .inr h

theorem Judges.answer (h : Judges refused opcode ok (some reply)) :
    (∃ status : UInt8, status ≠ 0 ∧ reply = [opcode ||| 0x80, status]) ∨ ok reply := by
  rcases h reply rfl with ⟨status, hstatus, -, hreply⟩ | hok
  · exact .inl ⟨status, hstatus, hreply⟩
  · exact .inr hok

theorem Judges.accepted (h : Judges refused opcode ok (some reply)) (haccepted : ¬ refused)
    (hok : ok reply → reply[1]? = some 0) : reply[1]? ≠ some 1 := by
  rcases h reply rfl with ⟨status, -, hstatus, rfl⟩ | h
  · intro hbad
    exact haccepted (hstatus (Option.some.inj hbad))
  · rw [hok h]
    decide

end

end SquidServer.Client

namespace SquidServer.TcpProxy
open Interaction Sockets Wire CText
open Posix (Fd Errno)
open Client (Judges judges_none judges_bare judges_ok BareReply)
set_option autoImplicit true

/-- No receive gives more than was asked for, and no send takes more than it was given. -/
def TransfersFit (e : Event Network) : Prop :=
  match e with
  | ⟨.recv _ size, .ok data⟩ => data.length ≤ size
  | ⟨.send _ data, .ok written⟩ => written ≤ data.length
  | _ => True

section
variable {refused : Prop} {ok : List UInt8 → Prop}

theorem judges_status {status : SquidTcpStatus} (opcode : UInt8) (hok : status ≠ .ok)
    (h : status ≠ .badRequest) : Judges refused opcode ok (writeStatus opcode status 255) := by
  refine judges_bare opcode ?_ ?_
  · cases status <;> first | exact absurd rfl hok | decide
  · cases status <;> first | exact absurd rfl h | (intro hcode; exact absurd hcode (by decide))

theorem judges_badRequest (opcode : UInt8) (h : refused) :
    Judges refused opcode ok (writeStatus opcode .badRequest 255) :=
  judges_bare opcode (by decide) fun _ => h

theorem ensures_close_status {status : SquidTcpStatus} (context : SquidTcpContext) (opcode : UInt8)
    (hok : status ≠ .ok) (h : status ≠ .badRequest) :
    Ensures (obeying TransfersFit)
      ((closeConnection context).bind fun c => .pure (writeStatus opcode status 255, c))
      (fun r _ => Judges refused opcode ok r.1) s :=
  ensures_bind_any fun _ _ => ensures_pure.2 (judges_status opcode hok h)

end

def ConnectReply (opcode : UInt8) (reply : List UInt8) : Prop :=
  ∃ family : Family, reply = [opcode ||| 0x80, 0,
    if family = .inet6 then squidTcpFamilyIpv6 else squidTcpFamilyIpv4]

def WriteReply (opcode : UInt8) (data reply : List UInt8) : Prop :=
  ∃ written, reply = [opcode ||| 0x80, 0, UInt8.ofNat written] ∧ written ≤ data.length

def ReadReply (opcode : UInt8) (reply : List UInt8) : Prop :=
  ∃ flags data, reply = readResponse opcode flags data ∧ (flags = 0 ∨ flags = squidTcpReadEof) ∧
    data.length ≤ 251

def StatusReply (context : SquidTcpContext) (opcode : UInt8) (reply : List UInt8) : Prop :=
  reply = [opcode ||| 0x80, 0, if context.socketFd.isSome then 1 else 0]

theorem handleConnect_judges (fuel : Nat) (context : SquidTcpContext) (opcode : UInt8)
    (request : List UInt8) :
    Ensures (obeying TransfersFit) (handleConnect fuel context opcode request 255)
      (fun r _ => Judges (parseConnect request = none) opcode (ConnectReply opcode) r.1) s := by
  rw [handleConnect]
  split
  · rename_i hparse
    exact ensures_pure.2 (judges_badRequest opcode hparse)
  · split
    · exact ensures_pure.2 (judges_status opcode (by decide) (by decide))
    · refine ensures_bind_any fun lookup _ => ?_
      split
      · exact ensures_pure.2 (judges_status opcode (by decide) (by decide))
      · refine ensures_bind_any fun connected _ => ?_
        cases connected with
        | none => exact ensures_pure.2 (judges_none opcode)
        | some connected =>
          refine ensures_bind_any fun changed _ => ?_
          cases connected with
          | error e =>
            refine ensures_pure.2 (judges_status opcode ?_ ?_)
            · split <;> decide
            · split <;> decide
          | ok connected =>
            refine ensures_bind_any fun context _ => ?_
            exact ensures_pure.2 (judges_ok ⟨connected.2, rfl⟩ opcode)

theorem handleWrite_judges (fuel : Nat) (context : SquidTcpContext) (opcode : UInt8)
    (request : List UInt8) :
    Ensures (obeying TransfersFit) (handleWrite fuel context opcode request 255)
      (fun r _ => Judges (parseWrite request = none) opcode
        (fun reply => ∃ data, parseWrite request = some data ∧ WriteReply opcode data reply) r.1)
      s := by
  rw [handleWrite]
  split
  · rename_i hparse
    exact ensures_pure.2 (judges_badRequest opcode hparse)
  · rename_i data hparse
    split
    · exact ensures_pure.2 (judges_status opcode (by decide) (by decide))
    · refine ensures_bind_any fun outcome _ => ?_
      cases outcome with
      | none => exact ensures_pure.2 (judges_none opcode)
      | some outcome =>
        cases outcome with
        | timeout => exact ensures_pure.2 (judges_status opcode (by decide) (by decide))
        | failed e => exact ensures_close_status context opcode (by decide) (by decide)
        | ready =>
          refine ensures_bind.2 (ensures_ask fun sent _ hsent => ?_)
          split
          · exact ensures_pure.2 (judges_status opcode (by decide) (by decide))
          · exact ensures_close_status context opcode (by decide) (by decide)
          · exact ensures_close_status context opcode (by decide) (by decide)
          · rename_i written _
            have hwritten : written ≤ data.length := hsent
            exact ensures_pure.2 (judges_ok ⟨data, hparse, written, rfl, hwritten⟩ opcode)

theorem readSocket_judges {refused : Prop} (fuel : Nat) (context : SquidTcpContext) (opcode : UInt8)
    (socketFd : Fd) (waitMs : UInt16) (maximumBytes : UInt8) :
    Ensures (obeying TransfersFit)
      (readSocket fuel context opcode socketFd waitMs maximumBytes 255)
      (fun r _ => Judges refused opcode (ReadReply opcode) r.1) s := by
  have hnothing : ReadReply opcode (readResponse opcode 0 []) := ⟨0, [], rfl, .inl rfl, by simp⟩
  refine ensures_bind_any fun outcome _ => ?_
  cases outcome with
  | none => exact ensures_pure.2 (judges_none opcode)
  | some outcome =>
    cases outcome with
    | failed e => exact ensures_close_status context opcode (by decide) (by decide)
    | timeout => exact ensures_pure.2 (judges_ok hnothing opcode)
    | ready =>
      refine ensures_bind.2 (ensures_ask fun received _ hreceived => ?_)
      split
      · refine ensures_bind_any fun _ _ => ensures_pure.2 (judges_ok ?_ opcode)
        exact ⟨squidTcpReadEof, [], rfl, .inr rfl, by simp⟩
      · rename_i data _
        have hfit : data.length ≤ readDataCapacity 255 maximumBytes.toNat := hreceived
        have hsize : readDataCapacity 255 maximumBytes.toNat ≤ 251 := by
          simp only [readDataCapacity, show 255 - squidTcpReadHeaderSize = 251 from rfl]
          split <;> split <;> omega
        exact ensures_pure.2 (judges_ok ⟨0, data, rfl, .inl rfl, hfit.trans hsize⟩ opcode)
      · exact ensures_pure.2 (judges_ok hnothing opcode)
      · exact ensures_close_status context opcode (by decide) (by decide)

theorem handleRead_judges (fuel : Nat) (context : SquidTcpContext) (opcode : UInt8)
    (request : List UInt8) :
    Ensures (obeying TransfersFit) (handleRead fuel context opcode request 255)
      (fun r _ => Judges (request.length ≠ 4 ∨ squidTcpReadWaitMaxMs < readU16 request 1) opcode
        (ReadReply opcode) r.1) s := by
  rw [handleRead]
  split
  · rename_i hlength
    exact ensures_pure.2 (judges_badRequest opcode (.inl hlength))
  · split
    · exact ensures_pure.2 (judges_status opcode (by decide) (by decide))
    · rw [if_neg (by decide)]
      dsimp only
      split
      · rename_i hwait
        exact ensures_pure.2 (judges_badRequest opcode (.inr hwait))
      · exact readSocket_judges fuel context opcode _ _ _

/-- The replies that the server may give to a request, with a response buffer of 255 bytes. -/
def RepliesTo (fuel : Nat) (context : SquidTcpContext) (request reply : List UInt8) : Prop :=
  ∃ context', Exec (obeying TransfersFit) () (handleSquidTcpRequest fuel context request 255) ()
    (some reply, context')

theorem RepliesTo.judged {refused : Prop} {ok : List UInt8 → Prop} {context : SquidTcpContext}
    (h : RepliesTo fuel context request reply)
    (hjudges : Ensures (obeying TransfersFit) (handleSquidTcpRequest fuel context request 255)
      (fun r _ => Judges refused opcode ok r.1) ()) : Judges refused opcode ok (some reply) := by
  obtain ⟨context', hexec⟩ := h
  exact hjudges _ _ hexec

end SquidServer.TcpProxy

namespace SquidServer.TimeService
open Interaction Wire
open Client (Judges judges_none judges_bare judges_ok)
set_option autoImplicit true

def GetReply (opcode mode : UInt8) (reply : List UInt8) : Prop :=
  ∃ now brokenDown utcOffset, reply = getResponse opcode mode now brokenDown utcOffset

theorem handleGet_judges {refused : Prop} {H : Environment Clock σ} (opcode mode : UInt8) :
    Ensures H (handleGet opcode mode 255)
      (fun r _ => Judges refused opcode (GetReply opcode mode) r) s := by
  have hunavailable : Judges refused opcode (GetReply opcode mode)
      (writeStatus opcode .unavailable 255) :=
    judges_bare opcode (by decide) fun hcode => absurd hcode (by decide)
  refine ensures_bind_any fun now _ => ?_
  rw [if_neg (by decide)]
  split
  · exact ensures_pure.2 hunavailable
  · refine ensures_bind_any fun brokenDown _ => ?_
    split
    · exact ensures_pure.2 hunavailable
    · exact ensures_pure.2 (judges_ok ⟨now, _, _, rfl⟩ opcode)

/-- The replies that the server may give to a request, with a response buffer of 255 bytes. The
clock and the calendar answer what they will. -/
def RepliesTo (request reply : List UInt8) : Prop :=
  Exec (obeying fun _ => True) () (handleSquidTimeRequest request 255) () (some reply)

end SquidServer.TimeService

namespace SquidServer.Client
open Interaction Framing Wire CText TcpProxy TimeService
set_option autoImplicit true

/-- `squid_client_tcp_connect`; `family` says whether the pointer for the result is not NULL. -/
def squidClientTcpConnect (fuel : Nat) (client : Option SquidClient) (host : Option CString)
    (port : UInt16) (family : Bool) : Program ClientLib (Option (Returned UInt8)) :=
  transact fuel client
    (family ∧ 0 < squidClientTextSize host squidTcpHostMax ∧ port ≠ 0) squidTcpOpConnect
    (squidClientWriteU16 port ++ countedText (textBytes host)) 3 fun response =>
    if response.length ≠ 3 ∨ byteAt response 2 ≠ squidTcpFamilyIpv4 ∧
        byteAt response 2 ≠ squidTcpFamilyIpv6 then none
    else some (byteAt response 2)

def squidClientTcpWrite (fuel : Nat) (client : Option SquidClient) (data : Buffer)
    (written : Bool) : Program ClientLib (Option (Returned UInt8)) :=
  transact fuel client (data.data ≠ none ∧ written ∧ data.size ≠ 0) squidTcpOpWrite
    (data.size :: data.copied) 3 fun response =>
    if response.length ≠ 3 ∨ data.size < byteAt response 2 then none
    else some (byteAt response 2)

structure SquidClientTcpRead where
  eof : UInt8
  data : List UInt8
deriving DecidableEq

def squidClientTcpRead (fuel : Nat) (client : Option SquidClient) (maximumWaitMs : UInt16)
    (maximumBytes : UInt8) (chunk : Bool) :
    Program ClientLib (Option (Returned SquidClientTcpRead)) :=
  transact fuel client (chunk ∧ maximumWaitMs ≤ squidTcpReadWaitMaxMs) squidTcpOpRead
    (squidClientWriteU16 maximumWaitMs ++ [maximumBytes]) 4 fun response =>
    let dataSize := (byteAt response 3).toNat
    if response.length ≠ 4 + dataSize ∨ byteAt response 2 &&& ~~~squidTcpReadEof ≠ 0 then none
    else some {
      eof := if byteAt response 2 &&& squidTcpReadEof ≠ 0 then 1 else 0
      data := (response.drop 4).take dataSize }

def squidClientTcpClose (fuel : Nat) (client : Option SquidClient) :
    Program ClientLib (Option (Returned Unit)) :=
  transact fuel client true squidTcpOpClose [] 2 readBare

def squidClientTcpStatus (fuel : Nat) (client : Option SquidClient) (connected : Bool) :
    Program ClientLib (Option (Returned UInt8)) :=
  transact fuel client connected squidTcpOpStatus [] 3 fun response =>
    if response.length ≠ 3 ∨ 1 < byteAt response 2 then none else some (byteAt response 2)

structure SquidClientTime where
  year : UInt16
  month : UInt8
  day : UInt8
  hour : UInt8
  minute : UInt8
  second : UInt8
  weekday : UInt8
  daylightSaving : UInt8
  utcOffsetMinutes : Int16
  unixSeconds : UInt32
deriving DecidableEq

def squidClientTimeGet (fuel : Nat) (client : Option SquidClient) (mode : UInt8) (value : Bool) :
    Program ClientLib (Option (Returned SquidClientTime)) :=
  transact fuel client (value ∧ (mode = squidTimeModeUtc ∨ mode = squidTimeModeLocal))
    squidTimeOpGet [mode] squidTimeReplySize fun response =>
    if response.length ≠ squidTimeReplySize then none
    else some {
      year := squidClientReadU16 response 2
      month := byteAt response 4
      day := byteAt response 5
      hour := byteAt response 6
      minute := byteAt response 7
      second := byteAt response 8
      weekday := byteAt response 9 &&& squidTimeWeekdayMask
      daylightSaving := if byteAt response 9 &&& squidTimeDstBit ≠ 0 then 1 else 0
      utcOffsetMinutes := (squidClientReadU16 response 10).toInt16
      unixSeconds := squidClientReadU32 response 12 }

/-- White space, a slash or a backslash. -/
def isBadHostCharacter (c : UInt8) : Prop := isSpace c ∨ c = 0x2F ∨ c = 0x5C

instance : DecidablePred isBadHostCharacter := fun c =>
  inferInstanceAs (Decidable (isSpace c = true ∨ c = 0x2F ∨ c = 0x5C))

/-- A host that the server understands. -/
def CleanHost (host : List UInt8) : Prop := ∀ c ∈ host, ¬ isBadHostCharacter c

instance : DecidablePred CleanHost := fun host =>
  inferInstanceAs (Decidable (∀ c ∈ host, ¬ isBadHostCharacter c))

theorem textBytes_nulFree (text : Option CString) : 0 ∉ textBytes text := by
  cases text with
  | none => exact List.not_mem_nil
  | some text => exact text.nulFree

theorem hostIsValid_iff (hpos : textBytes host ≠ [])
    (hlong : (textBytes host).length ≤ squidTcpHostMax) :
    hostIsValid (textBytes host) = true ↔ CleanHost (textBytes host) := by
  have hnul := textBytes_nulFree host
  rw [hostIsValid, decide_eq_true_iff, List.all_eq_true]
  constructor
  · rintro ⟨-, -, hall⟩ c hc hbad
    exact of_decide_eq_true (hall c hc) (.inr hbad)
  · intro hclean
    refine ⟨hpos, hlong, ?_⟩
    intro c hc
    rw [decide_eq_true_iff]
    rintro (rfl | hbad)
    · exact hnul hc
    · exact hclean c hc hbad

theorem parseConnect_request (port : UInt16) (hport : port ≠ 0)
    (hhost : 0 < squidClientTextSize host squidTcpHostMax) :
    parseConnect (squidTcpOpConnect :: (writeU16 port ++ countedText (textBytes host))) =
      if CleanHost (textBytes host) then some (port, textBytes host) else none := by
  obtain ⟨hpos, hlong⟩ : 0 < (textBytes host).length ∧ (textBytes host).length ≤ 240 := by
    have hmax : squidTcpHostMax = 240 := rfl
    rw [squidClientTextSize] at hhost
    split at hhost
    · exact absurd hhost (by decide)
    · omega
  have hvalid := hostIsValid_iff (List.length_pos_iff.1 hpos) hlong
  generalize hrequest : squidTcpOpConnect :: (writeU16 port ++ countedText (textBytes host)) =
    request
  have hlength : request.length = 4 + (textBytes host).length := by
    rw [← hrequest]
    simp only [writeU16, countedText, List.length_append, List.length_cons, List.length_nil]
    omega
  have hread : readU16 request 1 = port := by
    rw [← hrequest]
    exact readU16_writeU16 [squidTcpOpConnect] port _
  have hcount : (byteAt request 3).toNat = (textBytes host).length := by
    rw [← hrequest]
    exact UInt8.toNat_ofNat_of_lt' (show (textBytes host).length < 256 by omega)
  have hrest : request.drop 4 = textBytes host := by
    rw [← hrequest]
    rfl
  rw [parseConnect, if_neg (by omega)]
  dsimp only
  rw [hread, hcount, hrest]
  by_cases hclean : CleanHost (textBytes host)
  · rw [if_pos hclean, if_neg]
    rintro (h | h | h)
    · exact hport h
    · omega
    · exact h (hvalid.2 hclean)
  · rw [if_neg hclean, if_pos (.inr (.inr fun h => hclean (hvalid.1 h)))]

theorem parseWrite_data (hdata : data.length = size.toNat) (hsize : size ≠ 0) :
    TcpProxy.parseWrite (squidTcpOpWrite :: size :: data) = some data := by
  have hpos : 0 < size.toNat := UInt8.pos_iff_ne_zero.2 hsize
  have hbyte : byteAt (squidTcpOpWrite :: size :: data) 1 = size := rfl
  rw [TcpProxy.parseWrite, hbyte, if_neg]
  · rfl
  · simp only [List.length_cons]
    rintro (h | h | h)
    · omega
    · omega
    · exact hsize h

def EncodesFamily (family : UInt8) (reply : List UInt8) : Prop :=
  ∃ addressFamily : Sockets.Family, reply = [squidTcpOpConnect ||| 0x80, 0, family] ∧
    family = if addressFamily = .inet6 then squidTcpFamilyIpv6 else squidTcpFamilyIpv4

def EncodesWritten (written : UInt8) (reply : List UInt8) : Prop :=
  ∃ bytesWritten, reply = [squidTcpOpWrite ||| 0x80, 0, UInt8.ofNat bytesWritten] ∧
    written.toNat = bytesWritten

def EncodesTcpRead (chunk : SquidClientTcpRead) (reply : List UInt8) : Prop :=
  ∃ eof : Bool, reply = TcpProxy.readResponse squidTcpOpRead (if eof then squidTcpReadEof else 0)
    chunk.data ∧ chunk.eof = if eof then 1 else 0

def EncodesConnected (context : SquidTcpContext) (connected : UInt8) (reply : List UInt8) : Prop :=
  StatusReply context squidTcpOpStatus reply ∧
    connected = if context.socketFd.isSome then 1 else 0

def EncodesTime (mode : UInt8) (value : SquidClientTime) (reply : List UInt8) : Prop :=
  ∃ now brokenDown utcOffset, reply = getResponse squidTimeOpGet mode now brokenDown utcOffset ∧
    value = {
      year := UInt16.ofInt (brokenDown.tmYear + 1900)
      month := UInt8.ofInt (brokenDown.tmMon + 1)
      day := UInt8.ofInt brokenDown.tmMday
      hour := UInt8.ofInt brokenDown.tmHour
      minute := UInt8.ofInt brokenDown.tmMin
      second := UInt8.ofInt brokenDown.tmSec
      weekday := UInt8.ofInt brokenDown.tmWday &&& squidTimeWeekdayMask
      daylightSaving := if mode = squidTimeModeLocal ∧ 0 < brokenDown.tmIsdst then 1 else 0
      utcOffsetMinutes := utcOffset
      unixSeconds := unixTime now }

section
variable {context : SquidTcpContext} {serverFuel : Nat} {s : Line}

theorem squidClientTcpConnect_agrees (client : Option SquidClient) (host : Option CString)
    (port : UInt16) (family : Bool) (hunread : s.unread = []) (hfuel : 256 + s.stalls < fuel) :
    Ensures (verbatim (TcpProxy.RepliesTo serverFuel context) epoch)
      (squidClientTcpConnect fuel client host port family)
      (Agrees (TcpProxy.RepliesTo serverFuel context) client s squidTcpOpConnect
        (fun request => parseConnect request =
          (if CleanHost (textBytes host) then some (port, textBytes host) else none) ∧
          (CleanHost (textBytes host) →
            NotRefused (TcpProxy.RepliesTo serverFuel context) request))
        EncodesFamily) s := by
  have hjudged : ∀ reply, TcpProxy.RepliesTo serverFuel context
      (squidTcpOpConnect :: (writeU16 port ++ countedText (textBytes host))) reply →
      Judges (parseConnect (squidTcpOpConnect :: (writeU16 port ++ countedText (textBytes host))) =
        none) squidTcpOpConnect (ConnectReply squidTcpOpConnect) (some reply) := by
    intro reply hreply
    exact hreply.judged (handleConnect_judges serverFuel context squidTcpOpConnect _)
  refine transact_agrees client hunread hfuel ?_ ?_
  · intro haccepted _
    rw [decide_eq_true_iff] at haccepted
    have hparse := parseConnect_request port haccepted.2.2 haccepted.2.1
    refine ⟨hparse, ?_⟩
    intro hclean reply hreply
    refine (hjudged reply hreply).accepted ?_ ?_
    · rw [hparse, if_pos hclean]
      exact Option.some_ne_none _
    · rintro ⟨addressFamily, rfl⟩
      rfl
  · intro _ reply hreply
    refine (hjudged reply hreply).answer.imp id ?_
    rintro ⟨addressFamily, rfl⟩
    refine ⟨rfl, Nat.le_refl 3, by simp, _, if_neg ?_, addressFamily, rfl, rfl⟩
    rintro (h | h)
    · exact h rfl
    · have hbyte : byteAt [squidTcpOpConnect ||| 0x80, 0, if addressFamily = .inet6 then
          squidTcpFamilyIpv6 else squidTcpFamilyIpv4] 2 = if addressFamily = .inet6 then
          squidTcpFamilyIpv6 else squidTcpFamilyIpv4 := rfl
      rw [hbyte] at h
      split at h
      · exact h.2 rfl
      · exact h.1 rfl

theorem squidClientTcpWrite_agrees (client : Option SquidClient) (data : Buffer) (written : Bool)
    (hunread : s.unread = []) (hfuel : 256 + s.stalls < fuel) :
    Ensures (verbatim (TcpProxy.RepliesTo serverFuel context) epoch)
      (squidClientTcpWrite fuel client data written)
      (Agrees (TcpProxy.RepliesTo serverFuel context) client s squidTcpOpWrite
        (fun request => data.copied.length = data.size.toNat ∧
          TcpProxy.parseWrite request = some data.copied ∧
          NotRefused (TcpProxy.RepliesTo serverFuel context) request)
        EncodesWritten) s := by
  have hlength : data.data ≠ none → data.copied.length = data.size.toNat := by
    intro hdata
    exact data.length_copied fun hnone => absurd hnone hdata
  have hjudged : ∀ reply, TcpProxy.RepliesTo serverFuel context
      (squidTcpOpWrite :: data.size :: data.copied) reply →
      Judges (TcpProxy.parseWrite (squidTcpOpWrite :: data.size :: data.copied) = none)
        squidTcpOpWrite (fun reply => ∃ sent,
          TcpProxy.parseWrite (squidTcpOpWrite :: data.size :: data.copied) = some sent ∧
          TcpProxy.WriteReply squidTcpOpWrite sent reply) (some reply) := by
    intro reply hreply
    exact hreply.judged (TcpProxy.handleWrite_judges serverFuel context squidTcpOpWrite _)
  refine transact_agrees client hunread hfuel ?_ ?_
  · intro haccepted _
    rw [decide_eq_true_iff] at haccepted
    have hcopied := hlength haccepted.1
    have hparse := parseWrite_data hcopied haccepted.2.2
    refine ⟨hcopied, hparse, ?_⟩
    intro reply hreply
    refine (hjudged reply hreply).accepted ?_ ?_
    · rw [hparse]
      exact Option.some_ne_none _
    · rintro ⟨sent, -, bytesWritten, rfl, -⟩
      rfl
  · intro haccepted reply hreply
    rw [decide_eq_true_iff] at haccepted
    have hcopied := hlength haccepted.1
    refine (hjudged reply hreply).answer.imp id ?_
    rintro ⟨sent, hsent, bytesWritten, rfl, hfits⟩
    rw [parseWrite_data hcopied haccepted.2.2] at hsent
    rw [← Option.some.inj hsent, hcopied] at hfits
    have hbound := data.size.toNat_lt
    have hcount : (UInt8.ofNat bytesWritten).toNat = bytesWritten :=
      UInt8.toNat_ofNat_of_lt' (show bytesWritten < 256 by omega)
    refine ⟨rfl, Nat.le_refl 3, by simp, _, if_neg ?_, bytesWritten, rfl, hcount⟩
    rintro (h | h)
    · exact h rfl
    · have hlast : data.size.toNat < (UInt8.ofNat bytesWritten).toNat := h
      omega

theorem squidClientTcpRead_agrees (client : Option SquidClient) (maximumWaitMs : UInt16)
    (maximumBytes : UInt8) (chunk : Bool) (hunread : s.unread = [])
    (hfuel : 256 + s.stalls < fuel) :
    Ensures (verbatim (TcpProxy.RepliesTo serverFuel context) epoch)
      (squidClientTcpRead fuel client maximumWaitMs maximumBytes chunk)
      (Agrees (TcpProxy.RepliesTo serverFuel context) client s squidTcpOpRead
        (fun request => readU16 request 1 = maximumWaitMs ∧ byteAt request 3 = maximumBytes ∧
          NotRefused (TcpProxy.RepliesTo serverFuel context) request)
        EncodesTcpRead) s := by
  have hwait : readU16 (squidTcpOpRead :: (writeU16 maximumWaitMs ++ [maximumBytes])) 1 =
      maximumWaitMs := readU16_writeU16 [squidTcpOpRead] maximumWaitMs _
  have hjudged : ∀ reply, TcpProxy.RepliesTo serverFuel context
      (squidTcpOpRead :: (writeU16 maximumWaitMs ++ [maximumBytes])) reply →
      Judges ((squidTcpOpRead :: (writeU16 maximumWaitMs ++ [maximumBytes])).length ≠ 4 ∨
        squidTcpReadWaitMaxMs < maximumWaitMs) squidTcpOpRead (ReadReply squidTcpOpRead)
        (some reply) := by
    intro reply hreply
    have hread := hreply.judged (TcpProxy.handleRead_judges serverFuel context squidTcpOpRead
      (squidTcpOpRead :: (writeU16 maximumWaitMs ++ [maximumBytes])))
    rwa [hwait] at hread
  refine transact_agrees client hunread hfuel ?_ ?_
  · intro haccepted _
    rw [decide_eq_true_iff] at haccepted
    refine ⟨hwait, rfl, ?_⟩
    intro reply hreply
    refine (hjudged reply hreply).accepted ?_ ?_
    · rintro (h | h)
      · exact h rfl
      · exact absurd h (UInt16.not_lt.2 haccepted.2)
    · rintro ⟨flags, data, rfl, -⟩
      rfl
  · intro _ reply hreply
    refine (hjudged reply hreply).answer.imp id ?_
    rintro ⟨flags, data, rfl, hflags, hdata⟩
    have hlength : (TcpProxy.readResponse squidTcpOpRead flags data).length = 4 + data.length := by
      simp only [TcpProxy.readResponse, List.length_append, List.length_cons, List.length_nil]
    have hcount : (byteAt (TcpProxy.readResponse squidTcpOpRead flags data) 3).toNat =
        data.length := UInt8.toNat_ofNat_of_lt' (show data.length < 256 by omega)
    have hflag : byteAt (TcpProxy.readResponse squidTcpOpRead flags data) 2 = flags := rfl
    have hrest : ((TcpProxy.readResponse squidTcpOpRead flags data).drop 4).take data.length =
        data := List.take_length
    refine ⟨rfl, by omega, by omega, ⟨if flags &&& squidTcpReadEof ≠ 0 then 1 else 0, data⟩, ?_, ?_⟩
    · dsimp only
      rw [hcount, hflag, hrest, if_neg]
      rintro (h | h)
      · exact h hlength
      · rcases hflags with rfl | rfl
        · exact h (by decide)
        · exact h (by decide)
    · rcases hflags with rfl | rfl
      · exact ⟨false, rfl, rfl⟩
      · exact ⟨true, rfl, rfl⟩

theorem squidClientTcpClose_agrees (client : Option SquidClient) (hunread : s.unread = [])
    (hfuel : 256 + s.stalls < fuel) :
    Ensures (verbatim (TcpProxy.RepliesTo serverFuel context) epoch)
      (squidClientTcpClose fuel client)
      (Agrees (TcpProxy.RepliesTo serverFuel context) client s squidTcpOpClose
        (NotRefused (TcpProxy.RepliesTo serverFuel context))
        (fun _ reply => BareReply squidTcpOpClose reply)) s := by
  have hjudged : ∀ reply, TcpProxy.RepliesTo serverFuel context [squidTcpOpClose] reply →
      Judges False squidTcpOpClose (BareReply squidTcpOpClose) (some reply) := by
    intro reply hreply
    refine hreply.judged (ensures_bind_any fun _ _ => ensures_pure.2 ?_)
    have hbare : BareReply squidTcpOpClose [squidTcpOpClose ||| 0x80, 0] := rfl
    exact judges_ok hbare squidTcpOpClose
  refine transact_agrees client hunread hfuel ?_ ?_
  · intro _ _ reply hreply
    refine (hjudged reply hreply).accepted id ?_
    intro hbare
    rw [show reply = [squidTcpOpClose ||| 0x80, 0] from hbare]
    rfl
  · intro _ reply hreply
    exact (hjudged reply hreply).answer.imp id readBare_reply

theorem squidClientTcpStatus_agrees (client : Option SquidClient) (connected : Bool)
    (hunread : s.unread = []) (hfuel : 256 + s.stalls < fuel) :
    Ensures (verbatim (TcpProxy.RepliesTo serverFuel context) epoch)
      (squidClientTcpStatus fuel client connected)
      (Agrees (TcpProxy.RepliesTo serverFuel context) client s squidTcpOpStatus
        (NotRefused (TcpProxy.RepliesTo serverFuel context)) (EncodesConnected context)) s := by
  have hjudged : ∀ reply, TcpProxy.RepliesTo serverFuel context [squidTcpOpStatus] reply →
      Judges False squidTcpOpStatus (StatusReply context squidTcpOpStatus) (some reply) := by
    intro reply hreply
    refine hreply.judged (ensures_pure.2 ?_)
    have hstatus : StatusReply context squidTcpOpStatus
      [squidTcpOpStatus ||| 0x80, 0, if context.socketFd.isSome then 1 else 0] := rfl
    exact judges_ok hstatus squidTcpOpStatus
  refine transact_agrees client hunread hfuel ?_ ?_
  · intro _ _ reply hreply
    refine (hjudged reply hreply).accepted id ?_
    intro hstatus
    rw [show reply = [squidTcpOpStatus ||| 0x80, 0, _] from hstatus]
    rfl
  · intro _ reply hreply
    refine (hjudged reply hreply).answer.imp id ?_
    intro hstatus
    obtain rfl : reply = [squidTcpOpStatus ||| 0x80, 0, _] := hstatus
    refine ⟨rfl, Nat.le_refl 3, by simp, _, if_neg ?_, rfl, rfl⟩
    rintro (h | h)
    · exact h rfl
    · have hflag : (1 : UInt8) < if context.socketFd.isSome then 1 else 0 := h
      split at hflag
      · exact absurd hflag (by decide)
      · exact absurd hflag (by decide)

end

/-- The day of the week and the mark for daylight saving time do not get in each other's way. -/
theorem weekdayByte_fields (mode : UInt8) (brokenDown : Tm) :
    weekdayByte mode brokenDown &&& squidTimeWeekdayMask =
        UInt8.ofInt brokenDown.tmWday &&& squidTimeWeekdayMask ∧
      (weekdayByte mode brokenDown &&& squidTimeDstBit ≠ 0 ↔
        mode = squidTimeModeLocal ∧ 0 < brokenDown.tmIsdst) := by
  have hbits : ∀ day : UInt8, day &&& squidTimeWeekdayMask &&& squidTimeWeekdayMask =
      day &&& squidTimeWeekdayMask ∧ day &&& squidTimeWeekdayMask &&& squidTimeDstBit = 0 ∧
      (day &&& squidTimeWeekdayMask ||| squidTimeDstBit) &&& squidTimeWeekdayMask =
        day &&& squidTimeWeekdayMask ∧
      (day &&& squidTimeWeekdayMask ||| squidTimeDstBit) &&& squidTimeDstBit ≠ 0 := by
    intro day
    cases day with
    | ofBitVec day =>
      cases day with
      | ofFin day =>
        revert day
        decide +kernel
  obtain ⟨hday, hclear, hmarked, hset⟩ := hbits (UInt8.ofInt brokenDown.tmWday)
  rw [weekdayByte]
  split
  · rename_i hsaving
    exact ⟨hmarked, fun _ => hsaving, fun _ => hset⟩
  · rename_i hstandard
    exact ⟨hday, fun h => absurd hclear h, fun h => absurd h hstandard⟩

theorem squidClientTimeGet_agrees {s : Line} (client : Option SquidClient) (mode : UInt8)
    (value : Bool) (hunread : s.unread = []) (hfuel : 256 + s.stalls < fuel) :
    Ensures (verbatim TimeService.RepliesTo epoch) (squidClientTimeGet fuel client mode value)
      (Agrees TimeService.RepliesTo client s squidTimeOpGet
        (fun request => byteAt request 1 = mode ∧ NotRefused TimeService.RepliesTo request)
        (EncodesTime mode)) s := by
  have hjudged : (mode = squidTimeModeUtc ∨ mode = squidTimeModeLocal) →
      ∀ reply, TimeService.RepliesTo [squidTimeOpGet, mode] reply →
      Judges False squidTimeOpGet (GetReply squidTimeOpGet mode) (some reply) := by
    intro hmode reply hreply
    have hdispatch : handleSquidTimeRequest [squidTimeOpGet, mode] 255 =
        handleGet squidTimeOpGet mode 255 := by
      rw [handleSquidTimeRequest, if_neg (by decide), if_neg (by decide), if_pos rfl]
      refine if_neg ?_
      rintro (h | h)
      · exact h rfl
      · exact hmode.elim h.1 h.2
    rw [TimeService.RepliesTo, hdispatch] at hreply
    exact handleGet_judges squidTimeOpGet mode _ _ hreply
  refine transact_agrees client hunread hfuel ?_ ?_
  · intro haccepted _
    rw [decide_eq_true_iff] at haccepted
    refine ⟨rfl, ?_⟩
    intro reply hreply
    refine (hjudged haccepted.2 reply hreply).accepted id ?_
    rintro ⟨now, brokenDown, utcOffset, rfl⟩
    rfl
  · intro haccepted reply hreply
    rw [decide_eq_true_iff] at haccepted
    refine (hjudged haccepted.2 reply hreply).answer.imp id ?_
    rintro ⟨now, brokenDown, utcOffset, hreply'⟩
    have hlength : reply.length = squidTimeReplySize := by
      rw [hreply']
      rfl
    have hyear : squidClientReadU16 reply 2 = UInt16.ofInt (brokenDown.tmYear + 1900) := by
      rw [hreply', getResponse, List.append_assoc, List.append_assoc]
      exact readU16_writeU16 [_, _] _ _
    have hday : byteAt reply 9 = weekdayByte mode brokenDown := by
      rw [hreply']
      rfl
    have hoffset : squidClientReadU16 reply 10 = utcOffset.toUInt16 := by
      rw [hreply', getResponse]
      exact readU16_writeU16 ([_, _] ++ writeU16 _ ++ [_, _, _, _, _, _]) _ _
    have hunix : squidClientReadU32 reply 12 = unixTime now := by
      have hlast := readU32_writeU32 ([squidTimeOpGet ||| squidTimeResponseBit,
        SquidTimeStatus.ok.code] ++ writeU16 (UInt16.ofInt (brokenDown.tmYear + 1900)) ++
        [UInt8.ofInt (brokenDown.tmMon + 1), UInt8.ofInt brokenDown.tmMday,
          UInt8.ofInt brokenDown.tmHour, UInt8.ofInt brokenDown.tmMin, UInt8.ofInt brokenDown.tmSec,
          weekdayByte mode brokenDown] ++ writeI16 utcOffset) (unixTime now) []
      rw [List.append_nil] at hlast
      rw [hreply']
      exact hlast
    obtain ⟨hweekday, hsaving⟩ := weekdayByte_fields mode brokenDown
    refine ⟨by rw [hreply']; rfl, by rw [hlength], by rw [hlength]; decide, _,
      if_neg (not_not_intro hlength), now, brokenDown, utcOffset, hreply', ?_⟩
    rw [hyear, hday, hoffset, hunix, hweekday, if_congr hsaving rfl rfl, hreply']
    rfl

/-- A client with room for the time. -/
def timeClient : SquidClient where
  packet := some (List.replicate 20 0)
  packetCapacity := 16
  idle := false
  room := by simp

/-- A summer night to the west of Greenwich. -/
def summerNight : Tm where
  tmSec := 5
  tmMin := 30
  tmHour := 23
  tmMday := 14
  tmMon := 6
  tmYear := 124
  tmWday := 0
  tmIsdst := 1

def summerReply : List UInt8 :=
  getResponse squidTimeOpGet squidTimeModeLocal 1721014205 summerNight (-240)

theorem repliesTo_summer :
    TimeService.RepliesTo [squidTimeOpGet, squidTimeModeLocal] summerReply := by
  obtain ⟨x, hx⟩ : ∃ x, (handleSquidTimeRequest [squidTimeOpGet, squidTimeModeLocal] 255).replay
      [⟨.time, (1721014205 : Int)⟩, ⟨.localtimeR 1721014205, some summerNight⟩,
        ⟨.strftimeZone summerNight, ascii "-0400"⟩] = some x := ⟨_, rfl⟩
  have hreply : x = some summerReply := by
    have hmap : (handleSquidTimeRequest [squidTimeOpGet, squidTimeModeLocal] 255).replay
        [⟨.time, (1721014205 : Int)⟩, ⟨.localtimeR 1721014205, some summerNight⟩,
          ⟨.strftimeZone summerNight, ascii "-0400"⟩] = some (some summerReply) := by
      decide +kernel
    rw [hx] at hmap
    exact Option.some.inj hmap
  rw [TimeService.RepliesTo, ← hreply]
  exact exec_of_replay hx (steps_obeying fun _ _ => trivial)

end SquidServer.Client
