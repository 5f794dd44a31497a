import Wslg.Decode
/-!
# Payloads end where they say

Two messages that start the same bytes are the same up to what is not sent: a
payload is no proper prefix of another one, whatever follows.
-/

open Lib

namespace Wslg

/-! ## Fields -/

theorem le16_append_inj {a b : UInt16} {r r' : List BYTE} (h : le16 a ++ r = le16 b ++ r') : a = b ∧ r = r' := by
  obtain ⟨hl, hr⟩ := List.append_inj h (by simp)
  exact ⟨by rw [← read16_le16 a, hl, read16_le16], hr⟩

theorem le32_append_inj {a b : UInt32} {r r' : List BYTE} (h : le32 a ++ r = le32 b ++ r') : a = b ∧ r = r' := by
  obtain ⟨hl, hr⟩ := List.append_inj h (by simp)
  exact ⟨by rw [← read32_le32 a, hl, read32_le32], hr⟩

theorem strBytes_append_inj {s t : RAIL_UNICODE_STRING} {r r' : List BYTE}
    (h : strBytes s.string ++ r = strBytes t.string ++ r') : s.string = t.string ∧ r = r' := by
  simp only [strBytes, List.append_assoc] at h
  obtain ⟨hl, hr⟩ := le16_append_inj h
  have hlen : s.string.length = t.string.length := by
    rw [← s.length_toNat, ← t.length_toNat, RAIL_UNICODE_STRING.length, RAIL_UNICODE_STRING.length, hl]
  exact List.append_inj hr hlen

/-- A string that is sent is the same. -/
def SameIf (flags field : UInt32) (s t : RAIL_UNICODE_STRING) : Prop := has flags field = true → s.string = t.string

theorem SameIf.optBytes {flags field : UInt32} {s t : RAIL_UNICODE_STRING} (h : SameIf flags field s t) :
    optBytes flags field s.string = optBytes flags field t.string := by
  unfold Wslg.optBytes
  split
  · rw [h ‹_›]
  · rfl

theorem optBytes_append_inj {flags field : UInt32} {s t : RAIL_UNICODE_STRING} {r r' : List BYTE}
    (h : optBytes flags field s.string ++ r = optBytes flags field t.string ++ r') :
    SameIf flags field s t ∧ r = r' := by
  by_cases hf : has flags field = true
  · simp only [optBytes, if_pos hf] at h
    obtain ⟨hs, hr⟩ := strBytes_append_inj h
    exact ⟨fun _ => hs, hr⟩
  · simp only [optBytes, if_neg hf] at h
    exact ⟨fun h => (hf h).elim, h⟩

/-! ## Messages -/

namespace Server

theorem RDPAPPLIST_ICON_DATA.payload_append_inj {i j : RDPAPPLIST_ICON_DATA} {r r' : List BYTE}
    (h : i.payload ++ r = j.payload ++ r') : i.payload = j.payload := by
  simp only [RDPAPPLIST_ICON_DATA.payload, iconHead, List.append_assoc] at h
  obtain ⟨hflags, h⟩ := le32_append_inj h
  obtain ⟨hwidth, h⟩ := le32_append_inj h
  obtain ⟨hheight, h⟩ := le32_append_inj h
  obtain ⟨hstride, h⟩ := le32_append_inj h
  obtain ⟨hbpp, h⟩ := le32_append_inj h
  obtain ⟨hformat, h⟩ := le32_append_inj h
  obtain ⟨hlength, h⟩ := le32_append_inj h
  have hl : i.iconBits.length = j.iconBits.length := by rw [← i.iconBitsLength_toNat, hlength, j.iconBitsLength_toNat]
  simp only [RDPAPPLIST_ICON_DATA.payload, hflags, hwidth, hheight, hstride, hbpp, hformat, hlength, List.append_inj_left h hl]

/-- What the client reads of the two is the same. -/
structure RDPAPPLIST_SERVER_CAPS_PDU.Same (p q : RDPAPPLIST_SERVER_CAPS_PDU) : Prop where
  version : p.version = q.version
  name : p.appListProviderName.string = q.appListProviderName.string
  uniqueId : 4 ≤ q.version → p.appListProviderUniqueId.string = q.appListProviderUniqueId.string

/-- The same message. -/
structure RDPAPPLIST_DELETE_APPLIST_PDU.Same (p q : RDPAPPLIST_DELETE_APPLIST_PDU) : Prop where
  flags : p.flags = q.flags
  id : SameIf q.flags RDPAPPLIST_FIELD_ID p.appId q.appId
  group : SameIf q.flags RDPAPPLIST_FIELD_GROUP p.appGroup q.appGroup

structure RDPAPPLIST_ASSOCIATE_WINDOW_ID_PDU.Same (p q : RDPAPPLIST_ASSOCIATE_WINDOW_ID_PDU) : Prop where
  flags : p.flags = q.flags
  windowId : p.appWindowId = q.appWindowId
  id : SameIf q.flags RDPAPPLIST_FIELD_ID p.appId q.appId
  group : SameIf q.flags RDPAPPLIST_FIELD_GROUP p.appGroup q.appGroup
  execPath : SameIf q.flags RDPAPPLIST_FIELD_EXECPATH p.appExecPath q.appExecPath
  desc : SameIf q.flags RDPAPPLIST_FIELD_DESC p.appDesc q.appDesc

/-- The same message but for the icon. -/
structure RDPAPPLIST_UPDATE_APPLIST_PDU.Same (p q : RDPAPPLIST_UPDATE_APPLIST_PDU) : Prop where
  flags : p.flags = q.flags
  id : SameIf q.flags RDPAPPLIST_FIELD_ID p.appId q.appId
  group : SameIf q.flags RDPAPPLIST_FIELD_GROUP p.appGroup q.appGroup
  execPath : SameIf q.flags RDPAPPLIST_FIELD_EXECPATH p.appExecPath q.appExecPath
  workingDir : SameIf q.flags RDPAPPLIST_FIELD_WORKINGDIR p.appWorkingDir q.appWorkingDir
  desc : SameIf q.flags RDPAPPLIST_FIELD_DESC p.appDesc q.appDesc

theorem RDPAPPLIST_SERVER_CAPS_PDU.same_of_append {p q : RDPAPPLIST_SERVER_CAPS_PDU} {r r' : List BYTE}
    (h : p.taken ++ r = q.taken ++ r') : p.Same q := by
  simp only [RDPAPPLIST_SERVER_CAPS_PDU.taken, List.append_assoc] at h
  obtain ⟨hversion, h⟩ := le16_append_inj h
  obtain ⟨hname, h⟩ := strBytes_append_inj h
  refine ⟨hversion, hname, fun hv => ?_⟩
  rw [hversion, if_pos hv, if_pos hv] at h
  exact (strBytes_append_inj h).1

theorem RDPAPPLIST_SERVER_CAPS_PDU.Same.taken {p q : RDPAPPLIST_SERVER_CAPS_PDU} (h : p.Same q) : p.taken = q.taken := by
  simp only [RDPAPPLIST_SERVER_CAPS_PDU.taken, h.version, h.name]
  split
  · rw [h.uniqueId ‹_›]
  · rfl

theorem RDPAPPLIST_DELETE_APPLIST_PDU.same_of_append {p q : RDPAPPLIST_DELETE_APPLIST_PDU} {r r' : List BYTE}
    (h : p.payload ++ r = q.payload ++ r') : p.Same q := by
  simp only [RDPAPPLIST_DELETE_APPLIST_PDU.payload, List.append_assoc] at h
  obtain ⟨hflags, h⟩ := le32_append_inj h
  rw [hflags] at h
  obtain ⟨hid, h⟩ := optBytes_append_inj h
  obtain ⟨hgroup, -⟩ := optBytes_append_inj h
  exact ⟨hflags, hid, hgroup⟩

theorem RDPAPPLIST_DELETE_APPLIST_PDU.Same.payload {p q : RDPAPPLIST_DELETE_APPLIST_PDU} (h : p.Same q) :
    p.payload = q.payload := by
  simp only [RDPAPPLIST_DELETE_APPLIST_PDU.payload, h.flags, h.id.optBytes, h.group.optBytes]

theorem RDPAPPLIST_ASSOCIATE_WINDOW_ID_PDU.same_of_append {p q : RDPAPPLIST_ASSOCIATE_WINDOW_ID_PDU} {r r' : List BYTE}
    (h : p.payload ++ r = q.payload ++ r') : p.Same q := by
  simp only [RDPAPPLIST_ASSOCIATE_WINDOW_ID_PDU.payload, List.append_assoc] at h
  obtain ⟨hflags, h⟩ := le32_append_inj h
  rw [hflags] at h
  obtain ⟨hwindow, h⟩ := le32_append_inj h
  obtain ⟨hid, h⟩ := optBytes_append_inj h
  obtain ⟨hgroup, h⟩ := optBytes_append_inj h
  obtain ⟨hexec, h⟩ := optBytes_append_inj h
  obtain ⟨hdesc, -⟩ := optBytes_append_inj h
  exact ⟨hflags, hwindow, hid, hgroup, hexec, hdesc⟩

theorem RDPAPPLIST_ASSOCIATE_WINDOW_ID_PDU.Same.payload {p q : RDPAPPLIST_ASSOCIATE_WINDOW_ID_PDU} (h : p.Same q) :
    p.payload = q.payload := by
  simp only [RDPAPPLIST_ASSOCIATE_WINDOW_ID_PDU.payload, h.flags, h.windowId, h.id.optBytes, h.group.optBytes,
    h.execPath.optBytes, h.desc.optBytes]

theorem RDPAPPLIST_UPDATE_APPLIST_PDU.same_of_append {p q : RDPAPPLIST_UPDATE_APPLIST_PDU} {r r' : List BYTE}
    (h : p.payload ++ r = q.payload ++ r') : p.Same q ∧ p.icon ++ r = q.icon ++ r' := by
  simp only [RDPAPPLIST_UPDATE_APPLIST_PDU.payload, RDPAPPLIST_UPDATE_APPLIST_PDU.strings, List.append_assoc] at h
  obtain ⟨hflags, h⟩ := le32_append_inj h
  rw [hflags] at h
  obtain ⟨hid, h⟩ := optBytes_append_inj h
  obtain ⟨hgroup, h⟩ := optBytes_append_inj h
  obtain ⟨hexec, h⟩ := optBytes_append_inj h
  obtain ⟨hdir, h⟩ := optBytes_append_inj h
  obtain ⟨hdesc, h⟩ := optBytes_append_inj h
  exact ⟨⟨hflags, hid, hgroup, hexec, hdir, hdesc⟩, h⟩

theorem RDPAPPLIST_UPDATE_APPLIST_PDU.Same.strings {p q : RDPAPPLIST_UPDATE_APPLIST_PDU} (h : p.Same q) :
    p.strings = q.strings := by
  simp only [RDPAPPLIST_UPDATE_APPLIST_PDU.strings, h.flags, h.id.optBytes, h.group.optBytes, h.execPath.optBytes,
    h.workingDir.optBytes, h.desc.optBytes]

theorem RDPAPPLIST_UPDATE_APPLIST_PDU.payload_append_inj {p q : RDPAPPLIST_UPDATE_APPLIST_PDU} {r r' : List BYTE}
    (hp : has p.flags RDPAPPLIST_FIELD_ICON = true → p.appIcon.isSome)
    (hq : has q.flags RDPAPPLIST_FIELD_ICON = true → q.appIcon.isSome)
    (h : p.payload ++ r = q.payload ++ r') : p.payload = q.payload := by
  obtain ⟨hsame, h⟩ := RDPAPPLIST_UPDATE_APPLIST_PDU.same_of_append h
  simp only [RDPAPPLIST_UPDATE_APPLIST_PDU.payload, RDPAPPLIST_UPDATE_APPLIST_PDU.icon, hsame.strings, hsame.flags] at h hp ⊢
  by_cases hf : has q.flags RDPAPPLIST_FIELD_ICON = true
  · obtain ⟨i, hi⟩ := Option.isSome_iff_exists.1 (hp hf)
    obtain ⟨j, hj⟩ := Option.isSome_iff_exists.1 (hq hf)
    simp only [if_pos hf, hi, hj, Option.map_some, Option.getD_some] at h ⊢
    rw [RDPAPPLIST_ICON_DATA.payload_append_inj h]
  · simp only [if_neg hf]

end Server

end Wslg
