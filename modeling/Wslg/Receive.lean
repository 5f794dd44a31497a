import Wslg.Lib.Effects
import Wslg.Server
/-!
# The server's receiver

What `rdpapplist_main.c` does with bytes that arrive: `rdpapplist_server_receive_pdu`,
the loop of `rdpapplist_server_handle_messages` and one wake-up of the server
thread. The channel, the callback and `Stream_SetPosition` are parameters.
-/

open Lib Lib.TraceM

namespace Wslg.Server

variable {W : Type}

abbrev HANDLE := UInt64
abbrev UINT := UInt32

def CHANNEL_RC_OK : UINT := 0
def CHANNEL_RC_BAD_PROC : UINT := 11
def CHANNEL_RC_NO_MEMORY : UINT := 12
def ERROR_INVALID_DATA : UINT := 13
def ERROR_NO_DATA : UINT := 232
def ERROR_INTERNAL_ERROR : UINT := 1359

structure RDPAPPLIST_CLIENT_CAPS_PDU where
  version : UInt16
  clientLanguageId : List BYTE
  deriving DecidableEq

/-! ## The input stream -/

/-- The bytes up to the length, and the position. -/
structure InputStream where
  buffer : List BYTE
  capacity : Nat
  position : Nat
  fits : buffer.length ≤ capacity

namespace InputStream

def remaining (s : InputStream) : Nat := s.buffer.length - s.position

/-- The next `n` bytes. -/
def next (s : InputStream) (n : Nat) : List BYTE := (s.buffer.drop s.position).take n

def seek (s : InputStream) (position : Nat) : InputStream := { s with position := position }

def skip (s : InputStream) (n : Nat) : InputStream := s.seek (s.position + n)

end InputStream

/-! ## Outside -/

/-- What the receiver notes. A channel is `none` if its handle is null. -/
inductive ServerEvent where
  | opened (channel : HANDLE)
  | closed (channel : Option HANDLE)
  /-- `WTSVirtualChannelQuery(WTSVirtualChannelReady)` reported this. -/
  | ready (channel : Option HANDLE) (isReady : Bool)
  | read (channel : Option HANDLE)
  /-- The callback ran with the stream at this position. -/
  | clientCaps (position : Nat) (pdu : RDPAPPLIST_CLIENT_CAPS_PDU)
  deriving DecidableEq

abbrev ServerM (W α : Type) := TraceM W ServerEvent α

/-- How a call of WTS went: without data, `GetLastError()` is `ERROR_NO_DATA`. -/
inductive WtsResult (α : Type) where
  | ok (a : α)
  | noData
  | failed

inductive WaitStatus where
  | WAIT_FAILED (error : UINT)
  | stopEvent
  | channelEvent
  deriving DecidableEq

/-- What the server calls, on a world `W`. -/
structure Outside (W : Type) where
  WTSQuerySessionInformationA : W → Option UInt32 × W
  WTSVirtualChannelOpenEx : UInt32 → W → Except UINT HANDLE × W
  /-- `none` also if the size is not that of a handle. -/
  WTSVirtualEventHandle : HANDLE → W → Option HANDLE × W
  WTSVirtualChannelReady : Option HANDLE → W → WtsResult Bool × W
  /-- `WTSVirtualChannelRead` without a buffer: the number of bytes. -/
  WTSVirtualChannelRead_length : Option HANDLE → W → WtsResult Nat × W
  /-- It reads no more than fits. -/
  WTSVirtualChannelRead : Option HANDLE → (capacity : Nat) → W → Option { bs : List BYTE // bs.length ≤ capacity } × W
  /-- The capacity that a stream at its start then has, `none` if it cannot be extended. -/
  Stream_EnsureRemainingCapacity : (capacity n : Nat) → W → Option { c : Nat // capacity ≤ c ∧ n ≤ c } × W
  CreateEvent : W → Option HANDLE × W
  CreateThread : W → Option HANDLE × W
  WaitForMultipleObjects : Option HANDLE → Option HANDLE → W → WaitStatus × W
  /-- `none` if the thread has ended. -/
  WaitForSingleObject : HANDLE → W → Option UINT × W
  ApplicationListClientCaps : Option (RDPAPPLIST_CLIENT_CAPS_PDU → W → UINT × W)
  Stream_SetPosition : InputStream → Nat → InputStream
  /-- Beyond the capacity some versions of WinPR refuse to go. -/
  setPosition : ∀ s p, Stream_SetPosition s p = s.seek p ∨ s.capacity < p ∧ Stream_SetPosition s p = s

/-! ## One PDU -/

def rdpapplist_read_header (s : InputStream) : Except UINT (RDPAPPLIST_HEADER × InputStream) :=
  if s.remaining < 8 then .error ERROR_INVALID_DATA
  else .ok (⟨read32 (s.next 4), read32 ((s.skip 4).next 4)⟩, s.skip 8)

/-- `IFCALLRET`; no callback is success. -/
def callClientCaps (env : Outside W) (s : InputStream) (pdu : RDPAPPLIST_CLIENT_CAPS_PDU) : ServerM W UINT :=
  match env.ApplicationListClientCaps with
  | none => pure CHANNEL_RC_OK
  | some f => do
    emit (.clientCaps s.position pdu)
    call (f pdu)

def rdpapplist_recv_caps_pdu (env : Outside W) (s : InputStream) : ServerM W (UINT × InputStream) :=
  if s.remaining < 2 then pure (ERROR_INVALID_DATA, s)
  else
    let version := read16 (s.next 2)
    let s := s.skip 2
    if s.remaining < RDPAPPLIST_LANG_SIZE then pure (ERROR_INVALID_DATA, s)
    else do
      let pdu := ⟨version, s.next RDPAPPLIST_LANG_SIZE⟩
      let s := s.skip RDPAPPLIST_LANG_SIZE
      let error ← callClientCaps env s pdu
      return (error, s)

/-- The switch on the command. -/
def receiveBody (env : Outside W) (h : RDPAPPLIST_HEADER) (s : InputStream) : ServerM W (UINT × InputStream) :=
  if h.cmdId = RDPAPPLIST_CMDID_CAPS then rdpapplist_recv_caps_pdu env s else pure (CHANNEL_RC_BAD_PROC, s)

/-- Wherever the PDU ended, go on where its header says. -/
def goToEnd (env : Outside W) (s : InputStream) (expected : Nat) : InputStream :=
  if s.position ≠ expected then env.Stream_SetPosition s expected else s

def rdpapplist_server_receive_pdu (env : Outside W) (s : InputStream) : ServerM W (UINT × InputStream) :=
  match rdpapplist_read_header s with
  | .error error => pure (error, s)
  | .ok (h, t) => do
    let r ← receiveBody env h t
    return (r.1, goToEnd env r.2 (s.position + h.length.toNat))

/-! ## All of them -/

/-- The `while` loop; `none` if it has not ended after so many turns. -/
def receiveAll (env : Outside W) : Nat → InputStream → ServerM W (Option (UINT × InputStream))
  | fuel, s =>
    if s.position < s.buffer.length then
      match fuel with
      | 0 => pure none
      | fuel + 1 => do
        let r ← rdpapplist_server_receive_pdu env s
        if r.1 ≠ CHANNEL_RC_OK then return some r else receiveAll env fuel r.2
    else pure (some (CHANNEL_RC_OK, s))

/-! ## A wake-up -/

structure RdpAppListServerPrivate where
  isReady : Bool
  input_stream : InputStream
  channelEvent : Option HANDLE
  thread : Option HANDLE
  stopEvent : Option HANDLE
  SessionId : UInt32
  rdpapplist_channel : Option HANDLE

/-- Ask whether the channel is ready, unless it was before; `some` error if it cannot be told. -/
def checkReady (env : Outside W) (priv : RdpAppListServerPrivate) :
    ServerM W (Option UINT × RdpAppListServerPrivate) :=
  if priv.isReady then pure (none, priv)
  else do
    match ← call (env.WTSVirtualChannelReady priv.rdpapplist_channel) with
    | .noData => return (some ERROR_NO_DATA, priv)
    | .failed => return (some ERROR_INTERNAL_ERROR, priv)
    | .ok isReady => do
      emit (.ready priv.rdpapplist_channel isReady)
      return (none, { priv with isReady := isReady })

/-- `WTSVirtualChannelRead`, twice: how much there is, and the bytes. Without any there is no stream. -/
def readChannel (env : Outside W) (priv : RdpAppListServerPrivate) : ServerM W (Except UINT (Option InputStream)) := do
  let channel := priv.rdpapplist_channel
  emit (.read channel)
  match ← call (env.WTSVirtualChannelRead_length channel) with
  | .noData => return .error ERROR_NO_DATA
  | .failed => return .error ERROR_INTERNAL_ERROR
  | .ok n =>
    if n < 1 then return .ok none
    else do
      match ← call (env.Stream_EnsureRemainingCapacity priv.input_stream.capacity n) with
      | none => return .error CHANNEL_RC_NO_MEMORY
      | some capacity => do
        emit (.read channel)
        match ← call (env.WTSVirtualChannelRead channel capacity.1) with
        | none => return .error ERROR_INTERNAL_ERROR
        | some bytes => return .ok (some ⟨bytes.1, capacity.1, 0, bytes.2⟩)

/-- What is returned, `none` if the loop does not end within so many turns. -/
def handleStream (env : Outside W) (fuel : Nat) (priv : RdpAppListServerPrivate) (s : InputStream) :
    ServerM W (Option UINT × RdpAppListServerPrivate) := do
  match ← receiveAll env fuel s with
  | none => return (none, { priv with input_stream := s })
  | some r => return (some r.1, { priv with input_stream := r.2 })

def rdpapplist_server_handle_messages (env : Outside W) (fuel : Nat) (priv : RdpAppListServerPrivate) :
    ServerM W (Option UINT × RdpAppListServerPrivate) := do
  match ← checkReady env priv with
  | (some error, priv) => return (some error, priv)
  | (none, priv) =>
    if priv.isReady then do
      match ← readChannel env priv with
      | .error error => return (some error, priv)
      | .ok none => return (some CHANNEL_RC_OK, priv)
      | .ok (some s) => handleStream env fuel priv s
    else return (some CHANNEL_RC_OK, priv)

end Wslg.Server
