import Wslg.Server
import Wslg.Reader
/-!
# What is on the wire

The layout of the messages, read off neither side: a packet is a header with the
command and the total size, then the payload; a flagged string is its size and
its bytes. The senders are shown to write exactly this.
-/

open Lib

namespace Wslg

/-! ## Layout -/

/-- A counted string. -/
def strBytes (body : List BYTE) : List BYTE := le16 (UInt16.ofNat body.length) ++ body

/-- A string that is there only if its flag is set. -/
def optBytes (flags field : UInt32) (body : List BYTE) : List BYTE := if has flags field then strBytes body else []

def headerBytes (h : RDPAPPLIST_HEADER) : List BYTE := le32 h.cmdId ++ le32 h.length

def packetHeader (cmdId : UInt32) (payload : List BYTE) : RDPAPPLIST_HEADER :=
  ⟨cmdId, UInt32.ofNat (RDPAPPLIST_HEADER_SIZE + payload.length)⟩

def packet (cmdId : UInt32) (payload : List BYTE) : List BYTE := headerBytes (packetHeader cmdId payload) ++ payload

@[simp] theorem strBytes_length (body : List BYTE) : (strBytes body).length = 2 + body.length := by
  simp [strBytes]

@[simp] theorem headerBytes_length (h : RDPAPPLIST_HEADER) : (headerBytes h).length = 8 := by
  simp [headerBytes]

@[simp] theorem packet_length (cmdId : UInt32) (payload : List BYTE) :
    (packet cmdId payload).length = 8 + payload.length := by
  simp [packet]

@[simp] theorem packet_take (cmdId : UInt32) (payload : List BYTE) :
    (packet cmdId payload).take 8 = headerBytes (packetHeader cmdId payload) :=
  List.take_left' (headerBytes_length _)

@[simp] theorem packet_drop (cmdId : UInt32) (payload : List BYTE) : (packet cmdId payload).drop 8 = payload :=
  List.drop_left' (headerBytes_length _)

/-- The size in the header is right as long as it fits. -/
theorem packetHeader_length_iff (cmdId : UInt32) (payload : List BYTE) :
    (packetHeader cmdId payload).length.toNat = (packet cmdId payload).length ↔
      (packet cmdId payload).length < 2 ^ 32 := by
  simp only [packetHeader, packet_length, RDPAPPLIST_HEADER_SIZE, UInt32.toNat_ofNat']
  omega

/-- The fixed part of the icon data. -/
def iconHead (flags iconWidth iconHeight iconStride iconBpp iconFormat iconBitsLength : UInt32) : List BYTE :=
  le32 flags ++ le32 iconWidth ++ le32 iconHeight ++ le32 iconStride ++ le32 iconBpp ++ le32 iconFormat ++
    le32 iconBitsLength

namespace Server

def RDPAPPLIST_SERVER_CAPS_PDU.payload (p : RDPAPPLIST_SERVER_CAPS_PDU) : List BYTE :=
  le16 p.version ++ strBytes p.appListProviderName.string ++ strBytes p.appListProviderUniqueId.string

def RDPAPPLIST_ICON_DATA.payload (i : RDPAPPLIST_ICON_DATA) : List BYTE :=
  iconHead i.flags i.iconWidth i.iconHeight i.iconStride i.iconBpp i.iconFormat i.iconBitsLength ++ i.iconBits

def RDPAPPLIST_UPDATE_APPLIST_PDU.strings (p : RDPAPPLIST_UPDATE_APPLIST_PDU) : List BYTE :=
  le32 p.flags ++ optBytes p.flags RDPAPPLIST_FIELD_ID p.appId.string ++
    optBytes p.flags RDPAPPLIST_FIELD_GROUP p.appGroup.string ++
    optBytes p.flags RDPAPPLIST_FIELD_EXECPATH p.appExecPath.string ++
    optBytes p.flags RDPAPPLIST_FIELD_WORKINGDIR p.appWorkingDir.string ++
    optBytes p.flags RDPAPPLIST_FIELD_DESC p.appDesc.string

/-- Nothing without an icon. -/
def RDPAPPLIST_UPDATE_APPLIST_PDU.icon (p : RDPAPPLIST_UPDATE_APPLIST_PDU) : List BYTE :=
  if has p.flags RDPAPPLIST_FIELD_ICON then (p.appIcon.map (·.payload)).getD [] else []

def RDPAPPLIST_UPDATE_APPLIST_PDU.payload (p : RDPAPPLIST_UPDATE_APPLIST_PDU) : List BYTE := p.strings ++ p.icon

def RDPAPPLIST_DELETE_APPLIST_PDU.payload (p : RDPAPPLIST_DELETE_APPLIST_PDU) : List BYTE :=
  le32 p.flags ++ optBytes p.flags RDPAPPLIST_FIELD_ID p.appId.string ++
    optBytes p.flags RDPAPPLIST_FIELD_GROUP p.appGroup.string

def RDPAPPLIST_DELETE_APPLIST_PROVIDER_PDU.payload (p : RDPAPPLIST_DELETE_APPLIST_PROVIDER_PDU) : List BYTE :=
  le32 p.flags ++ optBytes p.flags RDPAPPLIST_FIELD_PROVIDER p.appListProviderName.string

def RDPAPPLIST_ASSOCIATE_WINDOW_ID_PDU.payload (p : RDPAPPLIST_ASSOCIATE_WINDOW_ID_PDU) : List BYTE :=
  le32 p.flags ++ le32 p.appWindowId ++ optBytes p.flags RDPAPPLIST_FIELD_ID p.appId.string ++
    optBytes p.flags RDPAPPLIST_FIELD_GROUP p.appGroup.string ++
    optBytes p.flags RDPAPPLIST_FIELD_EXECPATH p.appExecPath.string ++
    optBytes p.flags RDPAPPLIST_FIELD_DESC p.appDesc.string

/-! ## What the server checks -/

/-- A flagged string has at most 512 bytes. -/
def Fits (flags field : UInt32) (t : RAIL_UNICODE_STRING) : Prop :=
  has flags field = true → t.string.length ≤ RDPAPPLIST_MAX_STRING_SIZE

structure RDPAPPLIST_UPDATE_APPLIST_PDU.Fits (p : RDPAPPLIST_UPDATE_APPLIST_PDU) : Prop where
  id : Server.Fits p.flags RDPAPPLIST_FIELD_ID p.appId
  group : Server.Fits p.flags RDPAPPLIST_FIELD_GROUP p.appGroup
  execPath : Server.Fits p.flags RDPAPPLIST_FIELD_EXECPATH p.appExecPath
  workingDir : Server.Fits p.flags RDPAPPLIST_FIELD_WORKINGDIR p.appWorkingDir
  desc : Server.Fits p.flags RDPAPPLIST_FIELD_DESC p.appDesc
  icon : has p.flags RDPAPPLIST_FIELD_ICON = true → p.appIcon.isSome

structure RDPAPPLIST_ASSOCIATE_WINDOW_ID_PDU.Fits (p : RDPAPPLIST_ASSOCIATE_WINDOW_ID_PDU) : Prop where
  id : Server.Fits p.flags RDPAPPLIST_FIELD_ID p.appId
  group : Server.Fits p.flags RDPAPPLIST_FIELD_GROUP p.appGroup
  execPath : Server.Fits p.flags RDPAPPLIST_FIELD_EXECPATH p.appExecPath
  desc : Server.Fits p.flags RDPAPPLIST_FIELD_DESC p.appDesc

/-! ## Senders write packets -/

/-- Send the packet with the given payload. -/
def sendPacket (wts : Wts) (cmdId : UInt32) (payload : List BYTE) : Except SendError wStream := do
  let s ← rdpapplist_server_single_packet_new wts cmdId (UInt32.ofNat payload.length)
  rdpapplist_server_packet_send wts (s.Write payload)

namespace wStream

theorem Write_Write (s : wStream) (a b : List BYTE) : (s.Write a).Write b = s.Write (a ++ b) := by
  simp [Write]

@[simp] theorem Write_nil (s : wStream) : s.Write [] = s := by
  simp [Write]

theorem Write_UINT16_eq (s : wStream) (v : UInt16) : s.Write_UINT16 v = s.Write (le16 v) := rfl
theorem Write_UINT32_eq (s : wStream) (v : UInt32) : s.Write_UINT32 v = s.Write (le32 v) := rfl

theorem Write_STRING_eq (s : wStream) (t : RAIL_UNICODE_STRING) : s.Write_STRING t = s.Write (strBytes t.string) :=
  Write_Write _ _ _

theorem writeString_eq (flags field : UInt32) (t : RAIL_UNICODE_STRING) (s : wStream) :
    writeString flags field t s = s.Write (optBytes flags field t.string) := by
  unfold writeString optBytes
  split
  · exact Write_STRING_eq s t
  · rw [Write_nil]

theorem writeIcon_eq (p : RDPAPPLIST_UPDATE_APPLIST_PDU) (s : wStream) : writeIcon p s = s.Write p.icon := by
  unfold writeIcon RDPAPPLIST_UPDATE_APPLIST_PDU.icon
  split
  · cases p.appIcon with
    | none => exact (Write_nil s).symm
    | some i =>
      simp only [Write_UINT32_eq, Write_Write, Option.map_some, Option.getD_some, RDPAPPLIST_ICON_DATA.payload,
        iconHead]
  · exact (Write_nil s).symm

end wStream

open wStream

theorem length_toUInt32 (t : RAIL_UNICODE_STRING) : t.length.toUInt32 = UInt32.ofNat t.string.length := by
  apply UInt32.toNat_inj.1
  have := t.fits
  rw [UInt16.toNat_toUInt32, RAIL_UNICODE_STRING.length_toNat, UInt32.toNat_ofNat']
  omega

/-- The size pass counts what the writing pass writes. -/
theorem addString_eq {flags field : UInt32} {t : RAIL_UNICODE_STRING} (h : Fits flags field t) (n : Nat) :
    addString flags field t (UInt32.ofNat n) = .ok (UInt32.ofNat (n + (optBytes flags field t.string).length)) := by
  unfold addString optBytes
  split
  · rename_i hf
    rw [RAIL_UNICODE_STRING.length_toNat, if_neg (by have := h hf; omega), length_toUInt32, strBytes_length]
    simp only [UInt32.ofNat_add]
    rfl
  · simp

theorem addIcon_eq {p : RDPAPPLIST_UPDATE_APPLIST_PDU}
    (h : has p.flags RDPAPPLIST_FIELD_ICON = true → p.appIcon.isSome) (n : Nat) :
    addIcon p (UInt32.ofNat n) = .ok (UInt32.ofNat (n + p.icon.length)) := by
  unfold addIcon RDPAPPLIST_UPDATE_APPLIST_PDU.icon
  split
  · rename_i hf
    obtain ⟨i, hi⟩ := Option.isSome_iff_exists.1 (h hf)
    have hl : i.payload.length = 28 + i.iconBits.length := by
      simp only [RDPAPPLIST_ICON_DATA.payload, iconHead, List.length_append, le32_length]
    rw [hi]
    simp only [Option.map_some, Option.getD_some, hl, UInt32.ofNat_add]
    rfl
  · simp

theorem send_caps_eq (wts : Wts) {p : RDPAPPLIST_SERVER_CAPS_PDU}
    (h : p.appListProviderName.string.length ≤ RDPAPPLIST_MAX_STRING_SIZE) :
    rdpapplist_send_caps wts p = sendPacket wts RDPAPPLIST_CMDID_CAPS p.payload := by
  have hlen : 2 + (2 + p.appListProviderName.length.toUInt32) + (2 + p.appListProviderUniqueId.length.toUInt32) =
      UInt32.ofNat p.payload.length := by
    simp only [RDPAPPLIST_SERVER_CAPS_PDU.payload, List.length_append, le16_length, strBytes_length, UInt32.ofNat_add,
      length_toUInt32]
    rfl
  unfold rdpapplist_send_caps sendPacket
  rw [RAIL_UNICODE_STRING.length_toNat, if_neg (by omega), hlen]
  simp only [Write_UINT16_eq, Write_STRING_eq, Write_Write, RDPAPPLIST_SERVER_CAPS_PDU.payload]

theorem send_update_applist_eq (wts : Wts) {p : RDPAPPLIST_UPDATE_APPLIST_PDU} (h : p.Fits) :
    rdpapplist_send_update_applist wts p = sendPacket wts RDPAPPLIST_CMDID_UPDATE_APPLIST p.payload := by
  unfold rdpapplist_send_update_applist sendPacket
  rw [show (4 : UInt32) = UInt32.ofNat 4 from rfl, addString_eq h.id]
  simp only [bind, Except.bind]
  rw [addString_eq h.group]
  simp only [addString_eq h.execPath, addString_eq h.workingDir, addString_eq h.desc, addIcon_eq h.icon,
    Write_UINT32_eq, writeString_eq, writeIcon_eq, Write_Write, RDPAPPLIST_UPDATE_APPLIST_PDU.payload,
    RDPAPPLIST_UPDATE_APPLIST_PDU.strings, List.length_append, le32_length]

theorem send_delete_applist_eq (wts : Wts) {p : RDPAPPLIST_DELETE_APPLIST_PDU}
    (hid : Fits p.flags RDPAPPLIST_FIELD_ID p.appId) (hgroup : Fits p.flags RDPAPPLIST_FIELD_GROUP p.appGroup) :
    rdpapplist_send_delete_applist wts p = sendPacket wts RDPAPPLIST_CMDID_DELETE_APPLIST p.payload := by
  unfold rdpapplist_send_delete_applist sendPacket
  rw [show (4 : UInt32) = UInt32.ofNat 4 from rfl, addString_eq hid]
  simp only [bind, Except.bind]
  simp only [addString_eq hgroup, Write_UINT32_eq, writeString_eq, Write_Write, RDPAPPLIST_DELETE_APPLIST_PDU.payload,
    List.length_append, le32_length]

theorem send_delete_applist_provider_eq (wts : Wts) {p : RDPAPPLIST_DELETE_APPLIST_PROVIDER_PDU}
    (h : Fits p.flags RDPAPPLIST_FIELD_PROVIDER p.appListProviderName) :
    rdpapplist_send_delete_applist_provider wts p =
      sendPacket wts RDPAPPLIST_CMDID_DELETE_APPLIST_PROVIDER p.payload := by
  unfold rdpapplist_send_delete_applist_provider sendPacket
  rw [show (4 : UInt32) = UInt32.ofNat 4 from rfl, addString_eq h]
  simp only [bind, Except.bind, Write_UINT32_eq, writeString_eq, Write_Write,
    RDPAPPLIST_DELETE_APPLIST_PROVIDER_PDU.payload, List.length_append, le32_length]

theorem send_associate_window_id_eq (wts : Wts) {p : RDPAPPLIST_ASSOCIATE_WINDOW_ID_PDU} (h : p.Fits) :
    rdpapplist_send_associate_window_id wts p = sendPacket wts RDPAPPLIST_CMDID_ASSOCIATE_WINDOW_ID p.payload := by
  unfold rdpapplist_send_associate_window_id sendPacket
  rw [show (8 : UInt32) = UInt32.ofNat (4 + 4) from rfl, addString_eq h.id]
  simp only [bind, Except.bind]
  simp only [addString_eq h.group, addString_eq h.execPath, addString_eq h.desc, Write_UINT32_eq, writeString_eq,
    Write_Write, RDPAPPLIST_ASSOCIATE_WINDOW_ID_PDU.payload, List.length_append, le32_length]

/-- A packet that goes out is the header and the payload. -/
theorem sendPacket_buffer {wts : Wts} {cmdId : UInt32} {payload : List BYTE} {s : wStream}
    (h : sendPacket wts cmdId payload = .ok s) : s.buffer = packet cmdId payload := by
  unfold sendPacket rdpapplist_server_single_packet_new rdpapplist_server_packet_send at h
  simp only [bind, Except.bind] at h
  split at h
  · cases h
  · rename_i s' hs'
    split at h
    · split at hs'
      · simp only [Except.ok.injEq] at h hs'
        subst h hs'
        simp only [Write_UINT32_eq, wStream.Write, List.nil_append, packet, headerBytes, packetHeader,
          RDPAPPLIST_HEADER_SIZE, UInt32.ofNat_add]
        rfl
      · cases hs'
    · cases h

/-! ## What is not rejected fits -/

section Except

variable {ε α β : Type}

theorem of_bind_ok {x : Except ε α} {f : α → Except ε β} {b : β} (h : x >>= f = .ok b) :
    ∃ a, x = .ok a ∧ f a = .ok b := by
  cases x with
  | error e => cases h
  | ok a => exact ⟨a, rfl, h⟩

/-- If `x` can only fail with `e`, a computation that does not fail with `e` gets behind it. -/
theorem of_bind_ne {x : Except ε α} {f : α → Except ε β} {e : ε} (h : x >>= f ≠ .error e)
    (hx : ∀ e', x = .error e' → e' = e) : ∃ a, x = .ok a ∧ f a ≠ .error e := by
  cases x with
  | error e' =>
    obtain rfl := hx e' rfl
    exact absurd rfl h
  | ok a => exact ⟨a, rfl, h⟩

theorem ne_of_ok {x : Except ε α} {a : α} (h : x = .ok a) (e : ε) : x ≠ .error e := by
  rw [h]
  exact fun h => by cases h

end Except

theorem addString_error {flags field len : UInt32} {t : RAIL_UNICODE_STRING} (e : SendError)
    (h : addString flags field t len = .error e) : e = .ERROR_INVALID_DATA := by
  unfold addString at h
  split at h
  · split at h
    · cases h
      rfl
    · cases h
  · cases h

theorem addIcon_error {p : RDPAPPLIST_UPDATE_APPLIST_PDU} {len : UInt32} (e : SendError)
    (h : addIcon p len = .error e) : e = .ERROR_INVALID_DATA := by
  unfold addIcon at h
  split at h
  · cases hi : p.appIcon with
    | none =>
      rw [hi] at h
      cases h
      rfl
    | some i =>
      rw [hi] at h
      cases h
  · cases h

theorem fits_of_addString {flags field len len' : UInt32} {t : RAIL_UNICODE_STRING}
    (h : addString flags field t len = .ok len') : Fits flags field t := fun hf => by
  rw [addString, if_pos hf, RAIL_UNICODE_STRING.length_toNat] at h
  split at h
  · cases h
  · omega

theorem isSome_of_addIcon {p : RDPAPPLIST_UPDATE_APPLIST_PDU} {len len' : UInt32} (h : addIcon p len = .ok len') :
    has p.flags RDPAPPLIST_FIELD_ICON = true → p.appIcon.isSome := fun hf => by
  rw [addIcon, if_pos hf] at h
  cases hi : p.appIcon with
  | none => rw [hi] at h; cases h
  | some i => rfl

section NotRejected

variable {wts : Wts}

theorem caps_fits {p : RDPAPPLIST_SERVER_CAPS_PDU} (h : rdpapplist_send_caps wts p ≠ .error .ERROR_INVALID_DATA) :
    p.appListProviderName.string.length ≤ RDPAPPLIST_MAX_STRING_SIZE := by
  rw [rdpapplist_send_caps, RAIL_UNICODE_STRING.length_toNat] at h
  by_contra hlen
  rw [if_pos (by omega)] at h
  exact h rfl

theorem update_fits {p : RDPAPPLIST_UPDATE_APPLIST_PDU}
    (h : rdpapplist_send_update_applist wts p ≠ .error .ERROR_INVALID_DATA) : p.Fits := by
  obtain ⟨_, hid, h⟩ := of_bind_ne h addString_error
  obtain ⟨_, hgroup, h⟩ := of_bind_ne h addString_error
  obtain ⟨_, hexec, h⟩ := of_bind_ne h addString_error
  obtain ⟨_, hdir, h⟩ := of_bind_ne h addString_error
  obtain ⟨_, hdesc, h⟩ := of_bind_ne h addString_error
  obtain ⟨_, hicon, h⟩ := of_bind_ne h addIcon_error
  exact ⟨fits_of_addString hid, fits_of_addString hgroup, fits_of_addString hexec, fits_of_addString hdir,
    fits_of_addString hdesc, isSome_of_addIcon hicon⟩

theorem delete_fits {p : RDPAPPLIST_DELETE_APPLIST_PDU}
    (h : rdpapplist_send_delete_applist wts p ≠ .error .ERROR_INVALID_DATA) :
    Fits p.flags RDPAPPLIST_FIELD_ID p.appId ∧ Fits p.flags RDPAPPLIST_FIELD_GROUP p.appGroup := by
  obtain ⟨_, hid, h⟩ := of_bind_ne h addString_error
  obtain ⟨_, hgroup, h⟩ := of_bind_ne h addString_error
  exact ⟨fits_of_addString hid, fits_of_addString hgroup⟩

theorem provider_fits {p : RDPAPPLIST_DELETE_APPLIST_PROVIDER_PDU}
    (h : rdpapplist_send_delete_applist_provider wts p ≠ .error .ERROR_INVALID_DATA) :
    Fits p.flags RDPAPPLIST_FIELD_PROVIDER p.appListProviderName := by
  obtain ⟨_, hname, h⟩ := of_bind_ne h addString_error
  exact fits_of_addString hname

theorem associate_fits {p : RDPAPPLIST_ASSOCIATE_WINDOW_ID_PDU}
    (h : rdpapplist_send_associate_window_id wts p ≠ .error .ERROR_INVALID_DATA) : p.Fits := by
  obtain ⟨_, hid, h⟩ := of_bind_ne h addString_error
  obtain ⟨_, hgroup, h⟩ := of_bind_ne h addString_error
  obtain ⟨_, hexec, h⟩ := of_bind_ne h addString_error
  obtain ⟨_, hdesc, h⟩ := of_bind_ne h addString_error
  exact ⟨fits_of_addString hid, fits_of_addString hgroup, fits_of_addString hexec, fits_of_addString hdesc⟩

end NotRejected

/-! ## Any message -/

inductive PDU where
  | caps (p : RDPAPPLIST_SERVER_CAPS_PDU)
  | updateAppList (p : RDPAPPLIST_UPDATE_APPLIST_PDU)
  | deleteAppList (p : RDPAPPLIST_DELETE_APPLIST_PDU)
  | deleteAppListProvider (p : RDPAPPLIST_DELETE_APPLIST_PROVIDER_PDU)
  | associateWindowId (p : RDPAPPLIST_ASSOCIATE_WINDOW_ID_PDU)

namespace PDU

def send (wts : Wts) : PDU → Except SendError wStream
  | caps p => rdpapplist_send_caps wts p
  | updateAppList p => rdpapplist_send_update_applist wts p
  | deleteAppList p => rdpapplist_send_delete_applist wts p
  | deleteAppListProvider p => rdpapplist_send_delete_applist_provider wts p
  | associateWindowId p => rdpapplist_send_associate_window_id wts p

def cmdId : PDU → UInt32
  | caps _ => RDPAPPLIST_CMDID_CAPS
  | updateAppList _ => RDPAPPLIST_CMDID_UPDATE_APPLIST
  | deleteAppList _ => RDPAPPLIST_CMDID_DELETE_APPLIST
  | deleteAppListProvider _ => RDPAPPLIST_CMDID_DELETE_APPLIST_PROVIDER
  | associateWindowId _ => RDPAPPLIST_CMDID_ASSOCIATE_WINDOW_ID

def payload : PDU → List BYTE
  | caps p => p.payload
  | updateAppList p => p.payload
  | deleteAppList p => p.payload
  | deleteAppListProvider p => p.payload
  | associateWindowId p => p.payload

/-- A flagged icon is there. -/
def HasIcon : PDU → Prop
  | updateAppList p => has p.flags RDPAPPLIST_FIELD_ICON = true → p.appIcon.isSome
  | _ => True

/-- A message that is not rejected is sent as a packet. -/
theorem send_eq {wts : Wts} {p : PDU} (h : p.send wts ≠ .error .ERROR_INVALID_DATA) :
    p.send wts = sendPacket wts p.cmdId p.payload ∧ p.HasIcon := by
  cases p with
  | caps p => exact ⟨send_caps_eq wts (caps_fits h), trivial⟩
  | updateAppList p => exact ⟨send_update_applist_eq wts (update_fits h), (update_fits h).icon⟩
  | deleteAppList p => exact ⟨send_delete_applist_eq wts (delete_fits h).1 (delete_fits h).2, trivial⟩
  | deleteAppListProvider p => exact ⟨send_delete_applist_provider_eq wts (provider_fits h), trivial⟩
  | associateWindowId p => exact ⟨send_associate_window_id_eq wts (associate_fits h), trivial⟩

/-- The bytes of a message that goes out. -/
theorem buffer_of_sent {wts : Wts} {p : PDU} {s : wStream} (h : p.send wts = .ok s) :
    s.buffer = packet p.cmdId p.payload ∧ p.HasIcon := by
  obtain ⟨hsend, hicon⟩ := send_eq (ne_of_ok h _)
  exact ⟨sendPacket_buffer (hsend.symm.trans h), hicon⟩

/-- The bytes of a sequence of messages, one list for each. -/
def sendAll (wts : Wts) : List PDU → Except SendError (List (List BYTE))
  | [] => .ok []
  | p :: ps => do
    let s ← p.send wts
    let bufs ← sendAll wts ps
    return s.buffer :: bufs

end PDU

end Server

end Wslg
