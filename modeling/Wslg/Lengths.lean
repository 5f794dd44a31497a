import Wslg.Disk
/-!
# How long a packet is

A sender adds up the size of a message in 32 bits, creates a stream of that size
and then writes the message. The stream, the header and the message agree unless
the sum wraps, which takes an icon of almost 4 GiB.
-/

open Lib

namespace Wslg.Server

/-! ## The stream of a sender -/

/-- The size in the header of the packet. -/
def wStream.headerLength (s : wStream) : UInt32 := read32 ((s.buffer.drop 4).take 4)

/-- As many bytes are written as the header says and the stream has room for. -/
structure wStream.Exact (s : wStream) : Prop where
  header : s.headerLength.toNat = s.buffer.length
  capacity : s.buffer.length = s.capacity

/-- What becomes of a stream: it is created, written and handed to the channel. -/
def created (wts : Wts) (s : wStream) : Except SendError wStream :=
  if wts.Stream_New s.capacity then rdpapplist_server_packet_send wts s else .error .CHANNEL_RC_NO_MEMORY

/-- The stream of a packet. -/
def streamOf (cmdId : UInt32) (payload : List BYTE) : wStream :=
  ⟨(packetHeader cmdId payload).length.toNat, packet cmdId payload⟩

theorem sendPacket_eq (wts : Wts) (cmdId : UInt32) (payload : List BYTE) :
    sendPacket wts cmdId payload = created wts (streamOf cmdId payload) := by
  have htotal : 8 + UInt32.ofNat payload.length = (packetHeader cmdId payload).length := by
    rw [packetHeader, RDPAPPLIST_HEADER_SIZE, UInt32.ofNat_add]
    rfl
  have hbuffer : le32 cmdId ++ le32 (packetHeader cmdId payload).length ++ payload = packet cmdId payload := by
    simp [packet, headerBytes, packetHeader]
  unfold sendPacket rdpapplist_server_single_packet_new
  simp only [htotal]
  by_cases hnew : wts.Stream_New (packetHeader cmdId payload).length.toNat = true
  · have hcreated : created wts (streamOf cmdId payload) =
        rdpapplist_server_packet_send wts (streamOf cmdId payload) := if_pos hnew
    rw [if_pos hnew, hcreated]
    simp only [bind, Except.bind, wStream.Write_UINT32_eq, wStream.Write, List.nil_append, hbuffer, streamOf]
  · have hcreated : created wts (streamOf cmdId payload) = .error .CHANNEL_RC_NO_MEMORY := if_neg hnew
    rw [if_neg hnew, hcreated]
    rfl

theorem headerLength_streamOf (cmdId : UInt32) (payload : List BYTE) :
    (streamOf cmdId payload).headerLength = (packetHeader cmdId payload).length := by
  have h : (packet cmdId payload).drop 4 = le32 (packetHeader cmdId payload).length ++ payload := by
    rw [packet, headerBytes, List.append_assoc, List.drop_left' (le32_length _)]
  rw [wStream.headerLength, streamOf, h, List.take_left' (le32_length _), read32_le32]

/-- The sizes agree as long as the packet is shorter than 4 GiB. -/
theorem exact_streamOf (cmdId : UInt32) (payload : List BYTE) :
    (streamOf cmdId payload).Exact ↔ 8 + payload.length < 2 ^ 32 := by
  rw [← packet_length cmdId, ← packetHeader_length_iff]
  constructor
  · intro h
    rw [← headerLength_streamOf]
    exact h.header
  · intro h
    exact ⟨headerLength_streamOf cmdId payload ▸ h, h.symm⟩

/-! ## How much the messages take -/

/-- What a string adds to the size. -/
def counted (flags field : UInt32) (t : RAIL_UNICODE_STRING) : Nat := if has flags field then 2 + t.length.toNat else 0

theorem optBytes_length (flags field : UInt32) (t : RAIL_UNICODE_STRING) :
    (optBytes flags field t.string).length = counted flags field t := by
  unfold optBytes counted
  split
  · rw [strBytes_length, RAIL_UNICODE_STRING.length_toNat]
  · rfl

theorem counted_le {flags field : UInt32} {t : RAIL_UNICODE_STRING} (h : Fits flags field t) :
    counted flags field t ≤ 514 := by
  unfold counted
  split
  · have := h ‹_›
    rw [RDPAPPLIST_MAX_STRING_SIZE] at this
    rw [RAIL_UNICODE_STRING.length_toNat]
    omega
  · omega

/-- The flags and the strings of an update. -/
def RDPAPPLIST_UPDATE_APPLIST_PDU.counted (p : RDPAPPLIST_UPDATE_APPLIST_PDU) : Nat :=
  4 + Server.counted p.flags RDPAPPLIST_FIELD_ID p.appId + Server.counted p.flags RDPAPPLIST_FIELD_GROUP p.appGroup +
    Server.counted p.flags RDPAPPLIST_FIELD_EXECPATH p.appExecPath +
    Server.counted p.flags RDPAPPLIST_FIELD_WORKINGDIR p.appWorkingDir +
    Server.counted p.flags RDPAPPLIST_FIELD_DESC p.appDesc

theorem strings_length (p : RDPAPPLIST_UPDATE_APPLIST_PDU) : p.strings.length = p.counted := by
  simp only [RDPAPPLIST_UPDATE_APPLIST_PDU.strings, RDPAPPLIST_UPDATE_APPLIST_PDU.counted, List.length_append,
    le32_length, optBytes_length]

theorem counted_update_le {p : RDPAPPLIST_UPDATE_APPLIST_PDU} (h : p.Fits) : p.counted ≤ 2574 := by
  have hid := counted_le h.id
  have hgroup := counted_le h.group
  have hexec := counted_le h.execPath
  have hdir := counted_le h.workingDir
  have hdesc := counted_le h.desc
  rw [RDPAPPLIST_UPDATE_APPLIST_PDU.counted]
  omega

theorem icon_length (i : RDPAPPLIST_ICON_DATA) : i.payload.length = 28 + i.iconBitsLength.toNat := by
  rw [RDPAPPLIST_ICON_DATA.iconBitsLength_toNat]
  simp only [RDPAPPLIST_ICON_DATA.payload, iconHead, List.length_append, le32_length]

namespace PDU

/-- An icon leaves room for the header and the rest of its update in 32 bits. -/
def InRange : PDU → Prop
  | updateAppList p => ∀ i, has p.flags RDPAPPLIST_FIELD_ICON = true → p.appIcon = some i →
      8 + p.counted + 28 + i.iconBitsLength.toNat < 2 ^ 32
  | _ => True

theorem update_payload_lt {p : RDPAPPLIST_UPDATE_APPLIST_PDU} (h : p.Fits) :
    8 + p.payload.length < 2 ^ 32 ↔ InRange (.updateAppList p) := by
  have hstrings := counted_update_le h
  rw [RDPAPPLIST_UPDATE_APPLIST_PDU.payload, List.length_append, strings_length, RDPAPPLIST_UPDATE_APPLIST_PDU.icon,
    InRange]
  split
  · rename_i hf
    obtain ⟨i, hi⟩ := Option.isSome_iff_exists.1 (h.icon hf)
    rw [hi, Option.map_some, Option.getD_some, icon_length]
    constructor
    · intro hlt j _ hj
      obtain rfl := Option.some.inj hj
      omega
    · intro hall
      have := hall i hf rfl
      omega
  · rename_i hf
    -- without an icon the strings alone are far below the limit
    refine iff_of_true ?_ fun i hf' _ => absurd hf' hf
    rw [List.length_nil]
    omega

/-- Without an icon nothing that passes the checks comes near the limit. -/
theorem payload_lt {wts : Wts} {p : PDU} (h : p.send wts ≠ .error .ERROR_INVALID_DATA) :
    8 + p.payload.length < 2 ^ 32 ↔ p.InRange := by
  cases p with
  | caps p =>
    have hname := caps_fits h
    have hid := p.appListProviderUniqueId.fits
    refine iff_of_true ?_ trivial
    rw [RDPAPPLIST_MAX_STRING_SIZE] at hname
    simp only [payload, RDPAPPLIST_SERVER_CAPS_PDU.payload, List.length_append, le16_length, strBytes_length]
    omega
  | updateAppList p => exact update_payload_lt (update_fits h)
  | deleteAppList p =>
    have hid := counted_le (delete_fits h).1
    have hgroup := counted_le (delete_fits h).2
    refine iff_of_true ?_ trivial
    simp only [payload, RDPAPPLIST_DELETE_APPLIST_PDU.payload, List.length_append, le32_length, optBytes_length]
    omega
  | deleteAppListProvider p =>
    have hname := counted_le (provider_fits h)
    refine iff_of_true ?_ trivial
    simp only [payload, RDPAPPLIST_DELETE_APPLIST_PROVIDER_PDU.payload, List.length_append, le32_length, optBytes_length]
    omega
  | associateWindowId p =>
    have hid := counted_le (associate_fits h).id
    have hgroup := counted_le (associate_fits h).group
    have hexec := counted_le (associate_fits h).execPath
    have hdesc := counted_le (associate_fits h).desc
    refine iff_of_true ?_ trivial
    simp only [payload, RDPAPPLIST_ASSOCIATE_WINDOW_ID_PDU.payload, List.length_append, le32_length, optBytes_length]
    omega

end PDU

/-- Whatever a sender does not reject it writes to a stream of its own, and the
sizes agree exactly if an icon leaves room for the rest in 32 bits. -/
theorem lengths_exact {wts : Wts} {p : PDU} (h : p.send wts ≠ .error .ERROR_INVALID_DATA) :
    ∃ s, p.send wts = created wts s ∧ (s.Exact ↔ p.InRange) := by
  obtain ⟨hsend, -⟩ := PDU.send_eq h
  refine ⟨streamOf p.cmdId p.payload, ?_, ?_⟩
  · rw [hsend, sendPacket_eq]
  · rw [exact_streamOf, PDU.payload_lt h]

theorem sent_pixelUpdate : ((PDU.updateAppList (pixelUpdate (L "a") (L "foo"))).send openWts).isOk = true := by
  decide +kernel

/-- An update with three strings and an icon. -/
theorem lengths_exact_of_update : ∃ s,
    (PDU.updateAppList (pixelUpdate (L "a") (L "foo"))).send openWts = created openWts s ∧ s.Exact := by
  have hsent : (PDU.updateAppList (pixelUpdate (L "a") (L "foo"))).send openWts ≠ .error .ERROR_INVALID_DATA := fun h => by
    have hok := sent_pixelUpdate
    rw [h] at hok
    cases hok
  obtain ⟨s, hs, hiff⟩ := lengths_exact hsent
  refine ⟨s, hs, hiff.2 fun i _ hi => ?_⟩
  cases hi
  decide +kernel

/-! ## A wrap -/

/-- An update that has nothing but an icon of these bits. -/
def iconUpdate (bits : List BYTE) (h : bits.length < 2 ^ 32) : RDPAPPLIST_UPDATE_APPLIST_PDU where
  flags := RDPAPPLIST_FIELD_ICON
  appId := unicodeString []
  appGroup := unicodeString []
  appExecPath := unicodeString []
  appWorkingDir := unicodeString []
  appDesc := unicodeString []
  appIcon := some ⟨0, 0, 0, 0, 0, 0, bits, h⟩

section IconUpdate

variable {bits : List BYTE} (h : bits.length < 2 ^ 32)

theorem iconUpdate_fits : (iconUpdate bits h).Fits := by
  have hnone : ∀ field t, has RDPAPPLIST_FIELD_ICON field = false → Fits RDPAPPLIST_FIELD_ICON field t := by
    intro field t hfield hf
    rw [hfield] at hf
    cases hf
  exact ⟨hnone _ _ (by decide), hnone _ _ (by decide), hnone _ _ (by decide), hnone _ _ (by decide),
    hnone _ _ (by decide), fun _ => rfl⟩

theorem iconUpdate_payload : (iconUpdate bits h).payload.length = 32 + bits.length := by
  have hcounted : (iconUpdate bits h).counted = 4 := by
    unfold RDPAPPLIST_UPDATE_APPLIST_PDU.counted iconUpdate
    simp only
    decide
  have hicon : (iconUpdate bits h).icon.length = 28 + bits.length := by
    have hflag : has (iconUpdate bits h).flags RDPAPPLIST_FIELD_ICON = true := by
      show has RDPAPPLIST_FIELD_ICON RDPAPPLIST_FIELD_ICON = true
      decide
    rw [RDPAPPLIST_UPDATE_APPLIST_PDU.icon, if_pos hflag]
    simp only [iconUpdate, Option.map_some, Option.getD_some, icon_length, RDPAPPLIST_ICON_DATA.iconBitsLength_toNat]
  rw [RDPAPPLIST_UPDATE_APPLIST_PDU.payload, List.length_append, strings_length, hcounted, hicon]
  omega

/-- With 32 bytes less than 4 GiB of bits the sum is 8. -/
theorem iconUpdate_wraps (hbits : bits.length = 2 ^ 32 - 32) :
    ∃ s, (PDU.updateAppList (iconUpdate bits h)).send openWts = .ok s ∧ s.capacity = 8 ∧ s.headerLength = 8 ∧
      s.buffer.length = 2 ^ 32 + 8 := by
  have hpayload : (iconUpdate bits h).payload.length = 2 ^ 32 := by
    rw [iconUpdate_payload, hbits]
    decide
  have hlength : (packetHeader RDPAPPLIST_CMDID_UPDATE_APPLIST (iconUpdate bits h).payload).length = 8 := by
    rw [packetHeader, hpayload]
    decide
  refine ⟨streamOf RDPAPPLIST_CMDID_UPDATE_APPLIST (iconUpdate bits h).payload, ?_, ?_, ?_, ?_⟩
  · rw [PDU.send, send_update_applist_eq openWts (iconUpdate_fits h), sendPacket_eq]
    rfl
  · rw [streamOf, hlength]
    rfl
  · rw [headerLength_streamOf, hlength]
  · rw [streamOf, packet_length, hpayload]
    decide

end IconUpdate

theorem length_replicate_lt : (List.replicate (2 ^ 32 - 32) (0 : BYTE)).length < 2 ^ 32 := by
  rw [List.length_replicate]
  decide

/-- The stream and the header have room for 8 bytes, and more than 4 GiB are written. -/
theorem huge_icon_wraps : ∃ s,
    (PDU.updateAppList (iconUpdate (List.replicate (2 ^ 32 - 32) 0) length_replicate_lt)).send openWts = .ok s ∧
      s.capacity = 8 ∧ s.headerLength = 8 ∧ s.buffer.length = 2 ^ 32 + 8 :=
  iconUpdate_wraps _ List.length_replicate

end Wslg.Server
