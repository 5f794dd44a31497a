import Wslg.Protocol
/-!
# The server's senders

The five `rdpapplist_send_*` functions of `rdpapplist_main.c`. A packet is a
`wStream` created with the computed length; `Stream_Write*` appends without
looking at the capacity. What the functions get from outside (allocation and
the channel write) is a parameter.
-/

open Lib

namespace Wslg.Server

inductive SendError where
  | ERROR_INVALID_DATA
  | CHANNEL_RC_NO_MEMORY
  | ERROR_INTERNAL_ERROR
  deriving DecidableEq

/-- Whether `Stream_New` of a size and `WTSVirtualChannelWrite` of some bytes succeed. -/
structure Wts where
  Stream_New : Nat → Bool
  WTSVirtualChannelWrite : List BYTE → Bool

/-- A stream being written: its capacity and the bytes before its position. -/
structure wStream where
  capacity : Nat
  buffer : List BYTE

namespace wStream

def Write (s : wStream) (bs : List BYTE) : wStream := { s with buffer := s.buffer ++ bs }
def Write_UINT16 (s : wStream) (v : UInt16) : wStream := s.Write (le16 v)
def Write_UINT32 (s : wStream) (v : UInt32) : wStream := s.Write (le32 v)

/-- A length and the bytes of a string. -/
def Write_STRING (s : wStream) (t : RAIL_UNICODE_STRING) : wStream := (s.Write_UINT16 t.length).Write t.string

end wStream

/-- A new stream with the header written; `length` is the size of the data. -/
def rdpapplist_server_single_packet_new (wts : Wts) (cmdId length : UInt32) : Except SendError wStream :=
  let total := 8 + length
  if wts.Stream_New total.toNat then
    .ok (({ capacity := total.toNat, buffer := [] } : wStream).Write_UINT32 cmdId |>.Write_UINT32 total)
  else .error .CHANNEL_RC_NO_MEMORY

/-- The channel takes the bytes before the stream's position. -/
def rdpapplist_server_packet_send (wts : Wts) (s : wStream) : Except SendError wStream :=
  if wts.WTSVirtualChannelWrite s.buffer then .ok s else .error .ERROR_INTERNAL_ERROR

/-! ## Optional fields

Every flagged string is checked and counted in one pass and written in another,
in the same way by all senders. -/

def addString (flags field : UInt32) (t : RAIL_UNICODE_STRING) (len : UInt32) : Except SendError UInt32 :=
  if has flags field then
    if RDPAPPLIST_MAX_STRING_SIZE < t.length.toNat then .error .ERROR_INVALID_DATA
    else .ok (len + (2 + t.length.toUInt32))
  else .ok len

def writeString (flags field : UInt32) (t : RAIL_UNICODE_STRING) (s : wStream) : wStream :=
  if has flags field then s.Write_STRING t else s

def addIcon (p : RDPAPPLIST_UPDATE_APPLIST_PDU) (len : UInt32) : Except SendError UInt32 :=
  if has p.flags RDPAPPLIST_FIELD_ICON then
    match p.appIcon with
    | none => .error .ERROR_INVALID_DATA
    | some i => .ok (len + (7 * 4 + i.iconBitsLength))
  else .ok len

def writeIcon (p : RDPAPPLIST_UPDATE_APPLIST_PDU) (s : wStream) : wStream :=
  if has p.flags RDPAPPLIST_FIELD_ICON then
    match p.appIcon with
    | none => s
    | some i =>
      ((((((((s.Write_UINT32 i.flags).Write_UINT32 i.iconWidth).Write_UINT32 i.iconHeight).Write_UINT32
        i.iconStride).Write_UINT32 i.iconBpp).Write_UINT32 i.iconFormat).Write_UINT32 i.iconBitsLength).Write
        i.iconBits)
  else s

/-! ## The senders -/

/-- Only the name is checked; both strings are always written. -/
def rdpapplist_send_caps (wts : Wts) (caps : RDPAPPLIST_SERVER_CAPS_PDU) : Except SendError wStream := do
  if RDPAPPLIST_MAX_STRING_SIZE < caps.appListProviderName.length.toNat then
    .error .ERROR_INVALID_DATA
  else
    let len := 2 + (2 + caps.appListProviderName.length.toUInt32) + (2 + caps.appListProviderUniqueId.length.toUInt32)
    let s ← rdpapplist_server_single_packet_new wts RDPAPPLIST_CMDID_CAPS len
    let s := s.Write_UINT16 caps.version
    let s := s.Write_STRING caps.appListProviderName
    let s := s.Write_STRING caps.appListProviderUniqueId
    rdpapplist_server_packet_send wts s

def rdpapplist_send_update_applist (wts : Wts) (p : RDPAPPLIST_UPDATE_APPLIST_PDU) : Except SendError wStream := do
  let len ← addString p.flags RDPAPPLIST_FIELD_ID p.appId 4
  let len ← addString p.flags RDPAPPLIST_FIELD_GROUP p.appGroup len
  let len ← addString p.flags RDPAPPLIST_FIELD_EXECPATH p.appExecPath len
  let len ← addString p.flags RDPAPPLIST_FIELD_WORKINGDIR p.appWorkingDir len
  let len ← addString p.flags RDPAPPLIST_FIELD_DESC p.appDesc len
  let len ← addIcon p len
  let s ← rdpapplist_server_single_packet_new wts RDPAPPLIST_CMDID_UPDATE_APPLIST len
  let s := s.Write_UINT32 p.flags
  let s := writeString p.flags RDPAPPLIST_FIELD_ID p.appId s
  let s := writeString p.flags RDPAPPLIST_FIELD_GROUP p.appGroup s
  let s := writeString p.flags RDPAPPLIST_FIELD_EXECPATH p.appExecPath s
  let s := writeString p.flags RDPAPPLIST_FIELD_WORKINGDIR p.appWorkingDir s
  let s := writeString p.flags RDPAPPLIST_FIELD_DESC p.appDesc s
  let s := writeIcon p s
  rdpapplist_server_packet_send wts s

def rdpapplist_send_delete_applist (wts : Wts) (p : RDPAPPLIST_DELETE_APPLIST_PDU) : Except SendError wStream := do
  let len ← addString p.flags RDPAPPLIST_FIELD_ID p.appId 4
  let len ← addString p.flags RDPAPPLIST_FIELD_GROUP p.appGroup len
  let s ← rdpapplist_server_single_packet_new wts RDPAPPLIST_CMDID_DELETE_APPLIST len
  let s := s.Write_UINT32 p.flags
  let s := writeString p.flags RDPAPPLIST_FIELD_ID p.appId s
  let s := writeString p.flags RDPAPPLIST_FIELD_GROUP p.appGroup s
  rdpapplist_server_packet_send wts s

def rdpapplist_send_delete_applist_provider (wts : Wts) (p : RDPAPPLIST_DELETE_APPLIST_PROVIDER_PDU) :
    Except SendError wStream := do
  let len ← addString p.flags RDPAPPLIST_FIELD_PROVIDER p.appListProviderName 4
  let s ← rdpapplist_server_single_packet_new wts RDPAPPLIST_CMDID_DELETE_APPLIST_PROVIDER len
  let s := s.Write_UINT32 p.flags
  let s := writeString p.flags RDPAPPLIST_FIELD_PROVIDER p.appListProviderName s
  rdpapplist_server_packet_send wts s

def rdpapplist_send_associate_window_id (wts : Wts) (p : RDPAPPLIST_ASSOCIATE_WINDOW_ID_PDU) :
    Except SendError wStream := do
  let len ← addString p.flags RDPAPPLIST_FIELD_ID p.appId 8
  let len ← addString p.flags RDPAPPLIST_FIELD_GROUP p.appGroup len
  let len ← addString p.flags RDPAPPLIST_FIELD_EXECPATH p.appExecPath len
  let len ← addString p.flags RDPAPPLIST_FIELD_DESC p.appDesc len
  let s ← rdpapplist_server_single_packet_new wts RDPAPPLIST_CMDID_ASSOCIATE_WINDOW_ID len
  let s := s.Write_UINT32 p.flags
  let s := s.Write_UINT32 p.appWindowId
  let s := writeString p.flags RDPAPPLIST_FIELD_ID p.appId s
  let s := writeString p.flags RDPAPPLIST_FIELD_GROUP p.appGroup s
  let s := writeString p.flags RDPAPPLIST_FIELD_EXECPATH p.appExecPath s
  let s := writeString p.flags RDPAPPLIST_FIELD_DESC p.appDesc s
  rdpapplist_server_packet_send wts s

end Wslg.Server
