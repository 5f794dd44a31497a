import Wslg.Handlers
/-!
# Round trip between server and client

What a server sends is what the client reads, and what the client reads is what
a server sends, as long as no string has an odd number of bytes: the terminator
then overwrites the last one.
-/

open Lib

namespace Wslg

open Client

/-! ## String fields keep their bytes -/

theorem le16_wchar (lo hi : BYTE) : le16 (wchar lo hi) = [lo, hi] := le16_read16 rfl

theorem bytesOf_take (ws : List WCHAR) (k : Nat) : (bytesOf ws).take (2 * k) = bytesOf (ws.take k) := by
  induction k generalizing ws with
  | zero => simp
  | succ k ih =>
    cases ws with
    | nil => simp
    | cons w ws =>
      rw [bytesOf_cons, List.take_succ_cons, bytesOf_cons, ← ih ws, List.take_append,
        List.take_of_length_le (by simp), le16_length, show 2 * (k + 1) - 2 = 2 * k by omega]

/-- An even number of bytes reads back from the array it was copied to. -/
theorem bytesOf_memcpy {k : Nat} {ws : List WCHAR} {src : List BYTE} (hs : src.length = 2 * k) (hk : k ≤ ws.length) :
    bytesOf ((memcpy ws src).take k) = src := by
  induction k generalizing ws src with
  | zero => simp_all
  | succ k ih =>
    match ws, src with
    | w :: ws, lo :: hi :: src =>
      simp only [List.length_cons] at hs hk
      rw [memcpy, List.take_succ_cons, bytesOf_cons, ih (by omega) (by omega), le16_wchar]
      rfl
    | w :: ws, [lo] => simp at hs; omega
    | w :: ws, [] => simp at hs
    | [], _ => simp at hk

theorem put_length {f : StringField} {t : RAIL_UNICODE_STRING} : (f.put t.string).length = t.length := rfl

/-- An even string is recovered from its field. -/
theorem fieldBytes_put {f : StringField} {t : RAIL_UNICODE_STRING} {required : Bool} (h : Readable required t.string)
    (he : Even t.string.length) : fieldBytes (f.put t.string) = t.string := by
  obtain ⟨k, hk⟩ := he
  replace hk : t.string.length = 2 * k := by omega
  by_cases h0 : t.string = []
  · have hl : t.length.toNat = 0 := by rw [t.length_toNat, h0, List.length_nil]
    rw [fieldBytes, put_length, hl, h0, List.take_zero]
  · have hlen := h.1
    simp only [RDPAPPLIST_MAX_STRING_SIZE_IN_WCHAR] at hlen
    rw [fieldBytes, put_length, t.length_toNat, hk, bytesOf_take]
    simp only [StringField.put, if_neg h0, WCharArray.write]
    rw [List.take_set_of_le (by omega)]
    refine bytesOf_memcpy hk ?_
    rw [f.chars.size, RDPAPPLIST_MAX_STRING_SIZE_IN_WCHAR]
    omega

/-- The field is the string and its terminator. -/
structure Holds (f : StringField) (t : RAIL_UNICODE_STRING) : Prop where
  length : f.length = t.length
  bytes : fieldBytes f = t.string
  terminated : f.chars.data[t.string.length / 2]? = some 0

theorem put_terminated {f : StringField} {body : List BYTE} {required : Bool} (h : Readable required body)
    (h0 : body = [] → f = .empty) : (f.put body).chars.data[body.length / 2]? = some 0 := by
  have hlen := h.1
  simp only [RDPAPPLIST_MAX_STRING_SIZE_IN_WCHAR] at hlen
  simp only [StringField.put]
  split
  · rename_i hb
    rw [h0 hb, hb]
    rfl
  · simp only [WCharArray.write]
    rw [List.getElem?_set_self]
    rw [memcpy_length, f.chars.size, RDPAPPLIST_MAX_STRING_SIZE_IN_WCHAR]
    omega

/-! ## Messages that survive the trip -/

/-- Even, at most 510 bytes, and not empty if the client requires it. -/
structure Clean (required : Bool) (t : RAIL_UNICODE_STRING) : Prop where
  even : Even t.string.length
  short : t.string.length ≤ 510
  nonempty : required = true → t.string ≠ []

def OptClean (flags field : UInt32) (required : Bool) (t : RAIL_UNICODE_STRING) : Prop :=
  has flags field = true → Clean required t

theorem Clean.readable {required : Bool} {t : RAIL_UNICODE_STRING} (h : Clean required t) :
    Readable required t.string := by
  refine ⟨?_, h.nonempty⟩
  have := h.short
  simp only [RDPAPPLIST_MAX_STRING_SIZE_IN_WCHAR]
  omega

theorem OptClean.readable {flags field : UInt32} {required : Bool} {t : RAIL_UNICODE_STRING}
    (h : OptClean flags field required t) : OptReadable flags field required t.string := fun hf => (h hf).readable

theorem OptClean.fits {flags field : UInt32} {required : Bool} {t : RAIL_UNICODE_STRING}
    (h : OptClean flags field required t) : Server.Fits flags field t := fun hf => by
  have := (h hf).short
  simp only [RDPAPPLIST_MAX_STRING_SIZE]
  omega

/-- A flagged string is recovered, another field stays empty. -/
def Recovered (flags field : UInt32) (t : RAIL_UNICODE_STRING) (f : StringField) : Prop :=
  if has flags field then Holds f t else f = .empty

theorem OptClean.recovered {flags field : UInt32} {required : Bool} {t : RAIL_UNICODE_STRING}
    (h : OptClean flags field required t) : Recovered flags field t (optPut flags field .empty t.string) := by
  unfold Recovered optPut
  split
  · rename_i hf
    have hc := h hf
    exact ⟨put_length, fieldBytes_put hc.readable hc.even, put_terminated hc.readable fun _ => rfl⟩
  · rfl

namespace Server

structure RDPAPPLIST_SERVER_CAPS_PDU.Clean (p : RDPAPPLIST_SERVER_CAPS_PDU) : Prop where
  version : 4 ≤ p.version
  name : Wslg.Clean true p.appListProviderName
  uniqueId : Wslg.Clean true p.appListProviderUniqueId

/-- The required flags are set, the strings are clean, and the icon, if there is one, fits a file. -/
structure RDPAPPLIST_UPDATE_APPLIST_PDU.Clean (p : RDPAPPLIST_UPDATE_APPLIST_PDU) : Prop where
  required : p.flags &&& (RDPAPPLIST_FIELD_ID ||| RDPAPPLIST_FIELD_EXECPATH ||| RDPAPPLIST_FIELD_DESC) =
    RDPAPPLIST_FIELD_ID ||| RDPAPPLIST_FIELD_EXECPATH ||| RDPAPPLIST_FIELD_DESC
  id : OptClean p.flags RDPAPPLIST_FIELD_ID true p.appId
  group : OptClean p.flags RDPAPPLIST_FIELD_GROUP false p.appGroup
  execPath : OptClean p.flags RDPAPPLIST_FIELD_EXECPATH true p.appExecPath
  workingDir : OptClean p.flags RDPAPPLIST_FIELD_WORKINGDIR false p.appWorkingDir
  desc : OptClean p.flags RDPAPPLIST_FIELD_DESC true p.appDesc
  icon : has p.flags RDPAPPLIST_FIELD_ICON = true → p.appIcon.isSome
  iconSize : ∀ i ∈ p.sentIcon, iconFileSize i.iconBits < 2 ^ 32

structure RDPAPPLIST_DELETE_APPLIST_PDU.Clean (p : RDPAPPLIST_DELETE_APPLIST_PDU) : Prop where
  required : p.flags &&& RDPAPPLIST_FIELD_ID = RDPAPPLIST_FIELD_ID
  id : OptClean p.flags RDPAPPLIST_FIELD_ID true p.appId
  group : OptClean p.flags RDPAPPLIST_FIELD_GROUP false p.appGroup

structure RDPAPPLIST_ASSOCIATE_WINDOW_ID_PDU.Clean (p : RDPAPPLIST_ASSOCIATE_WINDOW_ID_PDU) : Prop where
  required : p.flags &&& (RDPAPPLIST_FIELD_ID ||| RDPAPPLIST_FIELD_WINDOW_ID) =
    RDPAPPLIST_FIELD_ID ||| RDPAPPLIST_FIELD_WINDOW_ID
  id : OptClean p.flags RDPAPPLIST_FIELD_ID true p.appId
  group : OptClean p.flags RDPAPPLIST_FIELD_GROUP false p.appGroup
  execPath : OptClean p.flags RDPAPPLIST_FIELD_EXECPATH true p.appExecPath
  desc : OptClean p.flags RDPAPPLIST_FIELD_DESC true p.appDesc

/-- Memory for the icon, if there is one. -/
def RDPAPPLIST_UPDATE_APPLIST_PDU.Allocates {W : Type} (os : OS W) (m : Machine W)
    (p : RDPAPPLIST_UPDATE_APPLIST_PDU) : Prop :=
  ∀ i ∈ p.sentIcon, (os.LocalAlloc (iconFileSize i.iconBits) m.sys.world).1

/-! ## What the client has afterwards -/

structure RDPAPPLIST_SERVER_CAPS_PDU.Recovered (p : RDPAPPLIST_SERVER_CAPS_PDU)
    (c : Client.RDPAPPLIST_SERVER_CAPS_PDU) : Prop where
  version : c.version = p.version
  name : Holds c.appListProviderName p.appListProviderName
  uniqueId : Holds c.appListProviderUniqueId p.appListProviderUniqueId

structure RDPAPPLIST_UPDATE_APPLIST_PDU.Recovered (p : RDPAPPLIST_UPDATE_APPLIST_PDU)
    (c : Client.RDPAPPLIST_UPDATE_APPLIST_PDU) : Prop where
  flags : c.flags = p.flags
  id : Wslg.Recovered p.flags RDPAPPLIST_FIELD_ID p.appId c.appId
  group : Wslg.Recovered p.flags RDPAPPLIST_FIELD_GROUP p.appGroup c.appGroup
  execPath : Wslg.Recovered p.flags RDPAPPLIST_FIELD_EXECPATH p.appExecPath c.appExecPath
  workingDir : Wslg.Recovered p.flags RDPAPPLIST_FIELD_WORKINGDIR p.appWorkingDir c.appWorkingDir
  desc : Wslg.Recovered p.flags RDPAPPLIST_FIELD_DESC p.appDesc c.appDesc

/-- The icon's numbers, and its bits behind 62 bytes of headers. -/
structure RDPAPPLIST_ICON_DATA.Recovered (i : RDPAPPLIST_ICON_DATA) (c : Client.RDPAPPLIST_ICON_DATA) : Prop where
  flags : c.flags = i.flags
  iconWidth : c.iconWidth = i.iconWidth
  iconHeight : c.iconHeight = i.iconHeight
  iconStride : c.iconStride = i.iconStride
  iconBpp : c.iconBpp = i.iconBpp
  iconFormat : c.iconFormat = i.iconFormat
  iconBitsLength : c.iconBitsLength = i.iconBitsLength
  iconFileSize : c.iconFileSize.toNat = 62 + i.iconBits.length
  fileData : c.iconFileData.length = 62 + i.iconBits.length
  iconBits : c.iconFileData.drop 62 = i.iconBits

structure RDPAPPLIST_DELETE_APPLIST_PDU.Recovered (p : RDPAPPLIST_DELETE_APPLIST_PDU)
    (c : Client.RDPAPPLIST_DELETE_APPLIST_PDU) : Prop where
  flags : c.flags = p.flags
  id : Wslg.Recovered p.flags RDPAPPLIST_FIELD_ID p.appId c.appId
  group : Wslg.Recovered p.flags RDPAPPLIST_FIELD_GROUP p.appGroup c.appGroup

structure RDPAPPLIST_ASSOCIATE_WINDOW_ID_PDU.Recovered (p : RDPAPPLIST_ASSOCIATE_WINDOW_ID_PDU)
    (c : Client.RDPAPPLIST_ASSOCIATE_WINDOW_ID_PDU) : Prop where
  flags : c.flags = p.flags
  appWindowId : c.appWindowId = p.appWindowId
  id : Wslg.Recovered p.flags RDPAPPLIST_FIELD_ID p.appId c.appId
  group : Wslg.Recovered p.flags RDPAPPLIST_FIELD_GROUP p.appGroup c.appGroup
  execPath : Wslg.Recovered p.flags RDPAPPLIST_FIELD_EXECPATH p.appExecPath c.appExecPath
  desc : Wslg.Recovered p.flags RDPAPPLIST_FIELD_DESC p.appDesc c.appDesc

theorem fields_recovered {i : RDPAPPLIST_ICON_DATA} (h : Wslg.iconFileSize i.iconBits < 2 ^ 32) :
    i.Recovered i.received := by
  have hf : i.fields.fileSize = 62 + i.iconBits.length := fields_fileSize i
  have hd : iconFile i.fields i.iconBits = (i.fields.iconHeaderBytes ++ i.fields.bitmapInfoBytes) ++ i.iconBits := rfl
  refine ⟨rfl, rfl, rfl, rfl, rfl, rfl, rfl, ?_, ?_, ?_⟩
  · simp only [RDPAPPLIST_ICON_DATA.received, UInt32.toNat_ofNat', hf]
    exact Nat.mod_eq_of_lt h
  · simp only [RDPAPPLIST_ICON_DATA.received, hd, List.length_append, iconHeaderBytes_length, bitmapInfoBytes_length]
  · simp only [RDPAPPLIST_ICON_DATA.received, hd]
    exact List.drop_left' (by simp)

end Server

/-! ## From the server to the client -/

/-- Allocation and channel of the server both work. -/
structure Server.Wts.Works (wts : Server.Wts) : Prop where
  Stream_New : ∀ n, wts.Stream_New n = true
  WTSVirtualChannelWrite : ∀ bs, wts.WTSVirtualChannelWrite bs = true

/-- Every message `p` that is fit to be sent is sent; its header has the command
and the size, if that fits; and from a fit state `o` the client's `read` takes
exactly what is behind the header, wherever it stands, and recovers the message. -/
def RoundTrips {P ε σ α : Type} (cmdId : UInt32) (send : Server.Wts → P → Except Server.SendError Server.wStream)
    (read : Reader ε σ α) (Ok : P → Prop) (Start : P → σ → Prop) (Recovered : P → α → σ → Prop) : Prop :=
  ∀ p, Ok p →
    (∀ wts : Server.Wts, wts.Works → ∃ s, send wts p = .ok s) ∧
    ∀ wts s, send wts p = .ok s →
      (∃ h, Accepts ReadAppListHeader ⟨0, 0⟩ (s.buffer.take RDPAPPLIST_HEADER_SIZE) ⟨⟩ h ∧ h.cmdId = cmdId ∧
        (h.length.toNat = s.buffer.length ↔ s.buffer.length < 2 ^ 32)) ∧
      ∀ o, Start p o → ∃ a o', Accepts read o (s.buffer.drop RDPAPPLIST_HEADER_SIZE) a o' ∧ Recovered p a o'

theorem sendPacket_works {wts : Server.Wts} (h : wts.Works) (cmdId : UInt32) (payload : List BYTE) :
    ∃ s, Server.sendPacket wts cmdId payload = .ok s := by
  unfold Server.sendPacket Server.rdpapplist_server_single_packet_new Server.rdpapplist_server_packet_send
  simp only [bind, Except.bind, h.Stream_New, h.WTSVirtualChannelWrite, if_true]
  exact ⟨_, rfl⟩

/-- A sender that sends packets makes the round trip if the reader takes the payload. -/
theorem roundTrips_of_payload {P ε σ α : Type} {cmdId : UInt32}
    {send : Server.Wts → P → Except Server.SendError Server.wStream} {read : Reader ε σ α} {Ok : P → Prop}
    {Start : P → σ → Prop} {Recovered : P → α → σ → Prop} (payload : P → List BYTE)
    (hsend : ∀ p, Ok p → ∀ wts, send wts p = Server.sendPacket wts cmdId (payload p))
    (hread : ∀ p, Ok p → ∀ o, Start p o → ∃ a o', Accepts read o (payload p) a o' ∧ Recovered p a o') :
    RoundTrips cmdId send read Ok Start Recovered := by
  intro p hp
  refine ⟨fun wts hw => ?_, fun wts s hs => ?_⟩
  · rw [hsend p hp wts]
    exact sendPacket_works hw _ _
  · rw [hsend p hp wts] at hs
    rw [Server.sendPacket_buffer hs]
    refine ⟨⟨packetHeader cmdId (payload p), ?_, rfl, packetHeader_length_iff _ _⟩, fun o ho => ?_⟩
    · rw [RDPAPPLIST_HEADER_SIZE, packet_take]
      exact accepts_ReadAppListHeader.2 rfl
    · rw [RDPAPPLIST_HEADER_SIZE, packet_drop]
      exact hread p hp o ho

theorem caps_roundTrips : RoundTrips RDPAPPLIST_CMDID_CAPS Server.rdpapplist_send_caps ReadAppListServerCaps
    (·.Clean) (fun _ _ => True) (fun p _ c => p.Recovered c) := by
  refine roundTrips_of_payload (·.payload) (fun p hp wts => Server.send_caps_eq wts ?_) (fun p hp c _ => ?_)
  · have := hp.name.short
    simp only [RDPAPPLIST_MAX_STRING_SIZE]
    omega
  · refine ⟨⟨⟩, p.received c, accepts_ReadAppListServerCaps.2 ⟨p, ?_, ⟨hp.name.readable, fun _ => hp.uniqueId.readable⟩,
      rfl⟩, rfl, ?_, ?_⟩
    · rw [Server.RDPAPPLIST_SERVER_CAPS_PDU.taken, if_pos hp.version]
      rfl
    · exact ⟨rfl, fieldBytes_put hp.name.readable hp.name.even,
        put_terminated hp.name.readable fun h => (hp.name.nonempty rfl h).elim⟩
    · simp only [Server.RDPAPPLIST_SERVER_CAPS_PDU.received, if_pos hp.version]
      exact ⟨rfl, fieldBytes_put hp.uniqueId.readable hp.uniqueId.even,
        put_terminated hp.uniqueId.readable fun h => (hp.uniqueId.nonempty rfl h).elim⟩

theorem update_roundTrips {W : Type} (os : OS W) :
    RoundTrips RDPAPPLIST_CMDID_UPDATE_APPLIST Server.rdpapplist_send_update_applist (ReadUpdateMessage os)
      (·.Clean) (fun p m => p.Allocates os m)
      (fun p a _ => p.Recovered a.1 ∧ ∀ i ∈ p.sentIcon, i.Recovered a.2) := by
  refine roundTrips_of_payload (·.payload) (fun p hp wts => Server.send_update_applist_eq wts ⟨hp.id.fits, hp.group.fits,
    hp.execPath.fits, hp.workingDir.fits, hp.desc.fits, hp.icon⟩) (fun p hp m ha => ?_)
  refine ⟨_, _, (accepts_ReadUpdateMessage os).2 ⟨p, rfl, ⟨hp.required, hp.id.readable, hp.group.readable,
    hp.execPath.readable, hp.workingDir.readable, hp.desc.readable⟩, ⟨hp.icon, hp.iconSize, ha⟩, rfl, rfl⟩, ?_, ?_⟩
  · exact ⟨rfl, hp.id.recovered, hp.group.recovered, hp.execPath.recovered, hp.workingDir.recovered, hp.desc.recovered⟩
  · intro i hi
    have hicon : p.receivedIcon = i.received := by
      rw [Server.RDPAPPLIST_UPDATE_APPLIST_PDU.receivedIcon, hi]
      rfl
    rw [hicon]
    exact Server.fields_recovered (hp.iconSize i hi)

theorem delete_roundTrips : RoundTrips RDPAPPLIST_CMDID_DELETE_APPLIST Server.rdpapplist_send_delete_applist
    ReadAppListDelete (·.Clean) (fun _ c => c = .zero) (fun p _ c => p.Recovered c) := by
  refine roundTrips_of_payload (·.payload) (fun p hp wts => Server.send_delete_applist_eq wts hp.id.fits hp.group.fits)
    (fun p hp c hc => ?_)
  subst hc
  exact ⟨⟨⟩, _, accepts_ReadAppListDelete.2 ⟨p, rfl, ⟨hp.required, hp.id.readable, hp.group.readable⟩, rfl⟩,
    rfl, hp.id.recovered, hp.group.recovered⟩

theorem associate_roundTrips : RoundTrips RDPAPPLIST_CMDID_ASSOCIATE_WINDOW_ID
    Server.rdpapplist_send_associate_window_id ReadAssociateWindowId (·.Clean) (fun _ c => c = .zero)
    (fun p _ c => p.Recovered c) := by
  refine roundTrips_of_payload (·.payload) (fun p hp wts => Server.send_associate_window_id_eq wts ⟨hp.id.fits,
    hp.group.fits, hp.execPath.fits, hp.desc.fits⟩) (fun p hp c hc => ?_)
  subst hc
  exact ⟨⟨⟩, _, accepts_ReadAssociateWindowId.2 ⟨p, rfl, ⟨hp.required, hp.id.readable, hp.group.readable,
    hp.execPath.readable, hp.desc.readable⟩, rfl⟩, rfl, rfl, hp.id.recovered, hp.group.recovered, hp.execPath.recovered,
    hp.desc.recovered⟩

/-! ## From the client to the server -/

/-- The string in a field, as a server has it. -/
def StringField.sent (f : StringField) : RAIL_UNICODE_STRING :=
  ⟨fieldBytes f, by have := fieldBytes_length_le f; omega⟩

def OptEven (flags field : UInt32) (f : StringField) : Prop := has flags field = true → Even f.length.toNat

theorem fits_sent (flags field : UInt32) (f : StringField) : Server.Fits flags field f.sent :=
  fun _ => fieldBytes_length_le f

theorem optBytes_sent {flags field : UInt32} {f : StringField} {t : RAIL_UNICODE_STRING} {required : Bool}
    (h : OptReadable flags field required t.string) (he : OptEven flags field (optPut flags field f t.string)) :
    optBytes flags field (optPut flags field f t.string).sent.string = optBytes flags field t.string := by
  unfold optBytes optPut OptEven at *
  split
  · rename_i hf
    simp only [hf, if_true, forall_true_left, put_length, t.length_toNat] at he
    simp only [StringField.sent, fieldBytes_put (h hf) he]
  · rfl

namespace Client

structure RDPAPPLIST_SERVER_CAPS_PDU.EvenStrings (c : RDPAPPLIST_SERVER_CAPS_PDU) : Prop where
  version : 4 ≤ c.version
  name : Even c.appListProviderName.length.toNat
  uniqueId : Even c.appListProviderUniqueId.length.toNat

structure RDPAPPLIST_UPDATE_APPLIST_PDU.EvenStrings (c : RDPAPPLIST_UPDATE_APPLIST_PDU) : Prop where
  id : OptEven c.flags RDPAPPLIST_FIELD_ID c.appId
  group : OptEven c.flags RDPAPPLIST_FIELD_GROUP c.appGroup
  execPath : OptEven c.flags RDPAPPLIST_FIELD_EXECPATH c.appExecPath
  workingDir : OptEven c.flags RDPAPPLIST_FIELD_WORKINGDIR c.appWorkingDir
  desc : OptEven c.flags RDPAPPLIST_FIELD_DESC c.appDesc

structure RDPAPPLIST_DELETE_APPLIST_PDU.EvenStrings (c : RDPAPPLIST_DELETE_APPLIST_PDU) : Prop where
  id : OptEven c.flags RDPAPPLIST_FIELD_ID c.appId
  group : OptEven c.flags RDPAPPLIST_FIELD_GROUP c.appGroup

structure RDPAPPLIST_ASSOCIATE_WINDOW_ID_PDU.EvenStrings (c : RDPAPPLIST_ASSOCIATE_WINDOW_ID_PDU) : Prop where
  id : OptEven c.flags RDPAPPLIST_FIELD_ID c.appId
  group : OptEven c.flags RDPAPPLIST_FIELD_GROUP c.appGroup
  execPath : OptEven c.flags RDPAPPLIST_FIELD_EXECPATH c.appExecPath
  desc : OptEven c.flags RDPAPPLIST_FIELD_DESC c.appDesc

/-! ### The messages a server would send -/

def RDPAPPLIST_SERVER_CAPS_PDU.sent (c : RDPAPPLIST_SERVER_CAPS_PDU) : Server.RDPAPPLIST_SERVER_CAPS_PDU :=
  ⟨c.version, c.appListProviderName.sent, c.appListProviderUniqueId.sent⟩

/-- The bits of the icon file; there is none for a file that is too large. -/
def RDPAPPLIST_ICON_DATA.sent (c : RDPAPPLIST_ICON_DATA) : Option Server.RDPAPPLIST_ICON_DATA :=
  if h : (c.iconFileData.drop 62).length < 2 ^ 32 then
    some ⟨c.flags, c.iconWidth, c.iconHeight, c.iconStride, c.iconBpp, c.iconFormat, c.iconFileData.drop 62, h⟩
  else none

def RDPAPPLIST_UPDATE_APPLIST_PDU.sent (c : RDPAPPLIST_UPDATE_APPLIST_PDU) (icon : RDPAPPLIST_ICON_DATA) :
    Server.RDPAPPLIST_UPDATE_APPLIST_PDU :=
  ⟨c.flags, c.appId.sent, c.appGroup.sent, c.appExecPath.sent, c.appWorkingDir.sent, c.appDesc.sent, icon.sent⟩

def RDPAPPLIST_DELETE_APPLIST_PDU.sent (c : RDPAPPLIST_DELETE_APPLIST_PDU) : Server.RDPAPPLIST_DELETE_APPLIST_PDU :=
  ⟨c.flags, c.appId.sent, c.appGroup.sent⟩

def RDPAPPLIST_ASSOCIATE_WINDOW_ID_PDU.sent (c : RDPAPPLIST_ASSOCIATE_WINDOW_ID_PDU) :
    Server.RDPAPPLIST_ASSOCIATE_WINDOW_ID_PDU :=
  ⟨c.flags, c.appWindowId, c.appId.sent, c.appGroup.sent, c.appExecPath.sent, c.appDesc.sent⟩

theorem received_sent (i : Server.RDPAPPLIST_ICON_DATA) : i.received.sent = some i := by
  have hbits : i.received.iconFileData.drop 62 = i.iconBits := by
    have hd : iconFile i.fields i.iconBits = (i.fields.iconHeaderBytes ++ i.fields.bitmapInfoBytes) ++ i.iconBits := rfl
    simp only [Server.RDPAPPLIST_ICON_DATA.received, hd]
    exact List.drop_left' (by simp)
  have hfits := i.fits
  simp only [RDPAPPLIST_ICON_DATA.sent, hbits, dif_pos hfits]
  rfl

end Client

/-- Whatever `read` takes from wherever it stands, if no string in it is odd, is
what `send` writes behind the header for the message that was recovered. -/
def Reencodes {P ε σ α : Type} (send : Server.Wts → P → Except Server.SendError Server.wStream) (read : Reader ε σ α)
    (EvenStrings : α → σ → Prop) (sent : α → σ → P) : Prop :=
  ∀ (s t : Reading σ) (a : α), s.Valid → read s = .ok a t → EvenStrings a t.out →
    ∀ wts : Server.Wts, wts.Works → ∃ st, send wts (sent a t.out) = .ok st ∧
      s.rest = st.buffer.drop RDPAPPLIST_HEADER_SIZE ++ t.rest ∧
      t.cur = s.cur + (st.buffer.length - RDPAPPLIST_HEADER_SIZE)

theorem reencodes_of_payload {P ε σ α : Type} (cmdId : UInt32)
    {send : Server.Wts → P → Except Server.SendError Server.wStream} {read : Reader ε σ α}
    {EvenStrings : α → σ → Prop} {sent : α → σ → P} (payload : P → List BYTE) (hlocal : Local read)
    (hread : ∀ o bs a o', Accepts read o bs a o' → EvenStrings a o' → bs = payload (sent a o') ∧
      ∀ wts, send wts (sent a o') = Server.sendPacket wts cmdId (payload (sent a o'))) :
    Reencodes send read EvenStrings sent := by
  intro s t a hs hrun he wts hw
  obtain ⟨tk, hrest, hacc, -, -, hcur⟩ := hlocal.of_ok hs hrun
  obtain ⟨rfl, hsend⟩ := hread _ _ _ _ hacc he
  obtain ⟨st, hst⟩ := sendPacket_works hw cmdId (payload (sent a t.out))
  refine ⟨st, by rw [hsend, hst], ?_, ?_⟩
  · rw [Server.sendPacket_buffer hst, RDPAPPLIST_HEADER_SIZE, packet_drop, hrest]
  · rw [Server.sendPacket_buffer hst, packet_length, RDPAPPLIST_HEADER_SIZE, hcur]
    omega

theorem caps_reencodes : Reencodes Server.rdpapplist_send_caps ReadAppListServerCaps (fun _ c => c.EvenStrings)
    (fun _ c => c.sent) := by
  refine reencodes_of_payload RDPAPPLIST_CMDID_CAPS (·.payload) local_ReadAppListServerCaps
    (fun c bs _ c' hacc he => ⟨?_, fun wts => Server.send_caps_eq wts (fieldBytes_length_le _)⟩)
  obtain ⟨p, rfl, hp, rfl⟩ := accepts_ReadAppListServerCaps.1 hacc
  obtain ⟨hv, hname, hu⟩ := he
  replace hv : 4 ≤ p.version := hv
  simp only [Server.RDPAPPLIST_SERVER_CAPS_PDU.received, if_pos hv, put_length,
    RAIL_UNICODE_STRING.length_toNat] at hname hu
  simp only [Server.RDPAPPLIST_SERVER_CAPS_PDU.taken, Server.RDPAPPLIST_SERVER_CAPS_PDU.payload,
    Client.RDPAPPLIST_SERVER_CAPS_PDU.sent, Server.RDPAPPLIST_SERVER_CAPS_PDU.received, StringField.sent, if_pos hv,
    fieldBytes_put hp.name hname, fieldBytes_put (hp.uniqueId hv) hu]

theorem update_reencodes {W : Type} (os : OS W) :
    Reencodes Server.rdpapplist_send_update_applist (ReadUpdateMessage os) (fun a _ => a.1.EvenStrings)
      (fun a _ => a.1.sent a.2) := by
  refine reencodes_of_payload RDPAPPLIST_CMDID_UPDATE_APPLIST (·.payload) (local_ReadUpdateMessage os)
    (fun m bs a m' hacc he => ?_)
  obtain ⟨p, rfl, hp, hi, rfl, rfl⟩ := (accepts_ReadUpdateMessage os).1 hacc
  have hicon : has p.flags RDPAPPLIST_FIELD_ICON = true → ∃ i, p.appIcon = some i ∧ p.receivedIcon.sent = some i := by
    intro hf
    obtain ⟨i, hi⟩ := Option.isSome_iff_exists.1 (hi.sent hf)
    refine ⟨i, hi, ?_⟩
    simp only [Server.RDPAPPLIST_UPDATE_APPLIST_PDU.receivedIcon, Server.RDPAPPLIST_UPDATE_APPLIST_PDU.sentIcon,
      if_pos hf, hi, Option.map_some, Option.getD_some, received_sent]
  refine ⟨?_, fun wts => Server.send_update_applist_eq wts ⟨fits_sent _ _ _, fits_sent _ _ _, fits_sent _ _ _,
    fits_sent _ _ _, fits_sent _ _ _, fun hf => ?_⟩⟩
  · simp only [Server.RDPAPPLIST_UPDATE_APPLIST_PDU.payload, Server.RDPAPPLIST_UPDATE_APPLIST_PDU.strings,
      Client.RDPAPPLIST_UPDATE_APPLIST_PDU.sent, Server.RDPAPPLIST_UPDATE_APPLIST_PDU.received,
      optBytes_sent hp.id he.id, optBytes_sent hp.group he.group, optBytes_sent hp.execPath he.execPath,
      optBytes_sent hp.workingDir he.workingDir, optBytes_sent hp.desc he.desc]
    congr 1
    unfold Server.RDPAPPLIST_UPDATE_APPLIST_PDU.icon
    by_cases hf : has p.flags RDPAPPLIST_FIELD_ICON = true
    · obtain ⟨i, hi, hr⟩ := hicon hf
      simp only [hf, hi, hr]
    · simp only [hf]
      rfl
  · obtain ⟨i, -, hr⟩ := hicon hf
    simp only [Client.RDPAPPLIST_UPDATE_APPLIST_PDU.sent, hr, Option.isSome_some]

theorem delete_reencodes : Reencodes Server.rdpapplist_send_delete_applist ReadAppListDelete
    (fun _ c => c.EvenStrings) (fun _ c => c.sent) := by
  refine reencodes_of_payload RDPAPPLIST_CMDID_DELETE_APPLIST (·.payload) local_ReadAppListDelete
    (fun c bs _ c' hacc he => ⟨?_, fun wts => Server.send_delete_applist_eq wts (fits_sent _ _ _) (fits_sent _ _ _)⟩)
  obtain ⟨p, rfl, hp, rfl⟩ := accepts_ReadAppListDelete.1 hacc
  simp only [Server.RDPAPPLIST_DELETE_APPLIST_PDU.payload, Client.RDPAPPLIST_DELETE_APPLIST_PDU.sent,
    Server.RDPAPPLIST_DELETE_APPLIST_PDU.received, optBytes_sent hp.id he.id, optBytes_sent hp.group he.group]

theorem associate_reencodes : Reencodes Server.rdpapplist_send_associate_window_id ReadAssociateWindowId
    (fun _ c => c.EvenStrings) (fun _ c => c.sent) := by
  refine reencodes_of_payload RDPAPPLIST_CMDID_ASSOCIATE_WINDOW_ID (·.payload) local_ReadAssociateWindowId
    (fun c bs _ c' hacc he => ⟨?_, fun wts => Server.send_associate_window_id_eq wts ⟨fits_sent _ _ _, fits_sent _ _ _,
      fits_sent _ _ _, fits_sent _ _ _⟩⟩)
  obtain ⟨p, rfl, hp, rfl⟩ := accepts_ReadAssociateWindowId.1 hacc
  simp only [Server.RDPAPPLIST_ASSOCIATE_WINDOW_ID_PDU.payload, Client.RDPAPPLIST_ASSOCIATE_WINDOW_ID_PDU.sent,
    Server.RDPAPPLIST_ASSOCIATE_WINDOW_ID_PDU.received, optBytes_sent hp.id he.id, optBytes_sent hp.group he.group,
    optBytes_sent hp.execPath he.execPath, optBytes_sent hp.desc he.desc]

/-! ## The format is the same on both sides -/

/-- Round trip of the four messages the client reads, in both directions. -/
theorem wire_format_round_trip {W : Type} (os : OS W) :
    RoundTrips RDPAPPLIST_CMDID_CAPS Server.rdpapplist_send_caps ReadAppListServerCaps (·.Clean) (fun _ _ => True)
      (fun p _ c => p.Recovered c) ∧
    RoundTrips RDPAPPLIST_CMDID_UPDATE_APPLIST Server.rdpapplist_send_update_applist (ReadUpdateMessage os) (·.Clean)
      (fun p m => p.Allocates os m) (fun p a _ => p.Recovered a.1 ∧ ∀ i ∈ p.sentIcon, i.Recovered a.2) ∧
    RoundTrips RDPAPPLIST_CMDID_DELETE_APPLIST Server.rdpapplist_send_delete_applist ReadAppListDelete (·.Clean)
      (fun _ c => c = .zero) (fun p _ c => p.Recovered c) ∧
    RoundTrips RDPAPPLIST_CMDID_ASSOCIATE_WINDOW_ID Server.rdpapplist_send_associate_window_id ReadAssociateWindowId
      (·.Clean) (fun _ c => c = .zero) (fun p _ c => p.Recovered c) ∧
    Reencodes Server.rdpapplist_send_caps ReadAppListServerCaps (fun _ c => c.EvenStrings) (fun _ c => c.sent) ∧
    Reencodes Server.rdpapplist_send_update_applist (ReadUpdateMessage os) (fun a _ => a.1.EvenStrings)
      (fun a _ => a.1.sent a.2) ∧
    Reencodes Server.rdpapplist_send_delete_applist ReadAppListDelete (fun _ c => c.EvenStrings) (fun _ c => c.sent) ∧
    Reencodes Server.rdpapplist_send_associate_window_id ReadAssociateWindowId (fun _ c => c.EvenStrings)
      (fun _ c => c.sent) :=
  ⟨caps_roundTrips, update_roundTrips os, delete_roundTrips, associate_roundTrips, caps_reencodes, update_reencodes os,
    delete_reencodes, associate_reencodes⟩

end Wslg
