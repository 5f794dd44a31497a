import Wslg.Disk
import Wslg.Handlers
/-!
# The icon file of an update

The numbers of an icon arrive as 32 bits each and go into the narrower fields of
the two headers of the file. The file agrees with itself and with the message
exactly if the sides lie between 1 and 256 and the bit count fits into 16 bits.
-/

open Lib

namespace Wslg

/-! ## Fields at an offset -/

def byteAt (off : Nat) (bs : List BYTE) : BYTE := bs.getD off 0
def wordAt (off : Nat) (bs : List BYTE) : UInt16 := read16 ((bs.drop off).take 2)
def dwordAt (off : Nat) (bs : List BYTE) : UInt32 := read32 ((bs.drop off).take 4)

/-- A `LONG` is signed. -/
def toLONG (v : UInt32) : Int := v.toBitVec.toInt

def longAt (off : Nat) (bs : List BYTE) : Int := toLONG (dwordAt off bs)

/-! ## The file -/

namespace IconFile

variable (file : List BYTE)

/-- `ICON_DIR_ENTRY` -/
def bWidth : BYTE := byteAt 6 file
def bHeight : BYTE := byteAt 7 file
def wBitCount : UInt16 := wordAt 12 file
def dwBytesInRes : UInt32 := dwordAt 14 file
def dwImageOffset : UInt32 := dwordAt 18 file

/-- `BITMAPINFOHEADER` -/
def biWidth : Int := longAt 26 file
def biHeight : Int := longAt 30 file
def biBitCount : UInt16 := wordAt 36 file

/-- What follows the two headers. -/
def bits : List BYTE := file.drop 62

end IconFile

/-- A side in a directory entry, where 0 stands for 256. -/
def sideOf (b : BYTE) : Nat := if b = 0 then 256 else b.toNat

/-! ## The message -/

namespace IconMessage

variable (bytes : List BYTE)

def iconWidth : UInt32 := dwordAt 4 bytes
def iconHeight : UInt32 := dwordAt 8 bytes
def iconBpp : UInt32 := dwordAt 16 bytes
def iconBitsLength : UInt32 := dwordAt 24 bytes
def iconBits : List BYTE := (bytes.drop 28).take (iconBitsLength bytes).toNat

/-- The numbers fit where the file keeps them. -/
structure InRange : Prop where
  width : 1 ≤ (iconWidth bytes).toNat ∧ (iconWidth bytes).toNat ≤ 256
  height : 1 ≤ (iconHeight bytes).toNat ∧ (iconHeight bytes).toNat ≤ 256
  bpp : (iconBpp bytes).toNat < 2 ^ 16

end IconMessage

/-- The file built from a message agrees with it, and its headers with each other. -/
structure ConsistentIcon (bytes : List BYTE) (icon : Client.RDPAPPLIST_ICON_DATA) : Prop where
  size : icon.iconFileSize.toNat = icon.iconFileData.length
  length : icon.iconFileData.length = 62 + (IconMessage.iconBitsLength bytes).toNat
  resource : (IconFile.dwImageOffset icon.iconFileData).toNat + (IconFile.dwBytesInRes icon.iconFileData).toNat =
    icon.iconFileData.length
  width : (sideOf (IconFile.bWidth icon.iconFileData) : Int) = IconFile.biWidth icon.iconFileData
  height : 2 * (sideOf (IconFile.bHeight icon.iconFileData) : Int) = IconFile.biHeight icon.iconFileData
  entryBpp : (IconFile.wBitCount icon.iconFileData).toNat = (IconMessage.iconBpp bytes).toNat
  bitmapBpp : (IconFile.biBitCount icon.iconFileData).toNat = (IconMessage.iconBpp bytes).toNat
  doubled : IconFile.biHeight icon.iconFileData = 2 * ((IconMessage.iconHeight bytes).toNat : Int)
  bits : IconFile.bits icon.iconFileData = IconMessage.iconBits bytes

/-! ## What is read back -/

section Received

variable (i : Server.RDPAPPLIST_ICON_DATA) (rst : List BYTE)

theorem payload_iconWidth : IconMessage.iconWidth (i.payload ++ rst) = i.iconWidth := read32_le32 _
theorem payload_iconHeight : IconMessage.iconHeight (i.payload ++ rst) = i.iconHeight := read32_le32 _
theorem payload_iconBpp : IconMessage.iconBpp (i.payload ++ rst) = i.iconBpp := read32_le32 _
theorem payload_iconBitsLength : IconMessage.iconBitsLength (i.payload ++ rst) = i.iconBitsLength := read32_le32 _

theorem payload_iconBits : IconMessage.iconBits (i.payload ++ rst) = i.iconBits := by
  rw [IconMessage.iconBits, payload_iconBitsLength, Server.RDPAPPLIST_ICON_DATA.iconBitsLength_toNat,
    Server.RDPAPPLIST_ICON_DATA.payload, List.append_assoc, List.drop_left' (by simp [iconHead]), List.take_left' rfl]

theorem received_bWidth : IconFile.bWidth i.received.iconFileData = i.iconWidth.toUInt8 := rfl
theorem received_bHeight : IconFile.bHeight i.received.iconFileData = i.iconHeight.toUInt8 := rfl
theorem received_wBitCount : IconFile.wBitCount i.received.iconFileData = i.iconBpp.toUInt16 := read16_le16 _
theorem received_biBitCount : IconFile.biBitCount i.received.iconFileData = i.iconBpp.toUInt16 := read16_le16 _
theorem received_dwBytesInRes : IconFile.dwBytesInRes i.received.iconFileData = 40 + i.iconBitsLength := read32_le32 _
theorem received_dwImageOffset : IconFile.dwImageOffset i.received.iconFileData = 22 := read32_le32 _
theorem received_bits : IconFile.bits i.received.iconFileData = i.iconBits := rfl

theorem received_biWidth : IconFile.biWidth i.received.iconFileData = toLONG i.iconWidth := by
  have h : dwordAt 26 i.received.iconFileData = i.iconWidth := read32_le32 _
  rw [IconFile.biWidth, longAt, h]

theorem received_biHeight : IconFile.biHeight i.received.iconFileData = toLONG (i.iconHeight * 2) := by
  have h : dwordAt 30 i.received.iconFileData = i.iconHeight * 2 := read32_le32 _
  rw [IconFile.biHeight, longAt, h]

theorem received_length : i.received.iconFileData.length = 62 + i.iconBits.length := by
  simp [Server.RDPAPPLIST_ICON_DATA.received, iconFile]
  omega

end Received

/-! ## Where narrowing loses nothing -/

theorem toLONG_eq (v : UInt32) : toLONG v = if v.toNat < 2 ^ 31 then (v.toNat : Int) else (v.toNat : Int) - 2 ^ 32 := by
  rw [toLONG, BitVec.toInt_eq_toNat_cond, UInt32.toNat_toBitVec]
  split <;> split <;> omega

theorem sideOf_toUInt8 (v : UInt32) : sideOf v.toUInt8 = if v.toNat % 256 = 0 then 256 else v.toNat % 256 := by
  have h : v.toUInt8 = 0 ↔ v.toNat % 256 = 0 := by
    rw [← UInt8.toNat_inj, UInt32.toNat_toUInt8]
    rfl
  simp only [sideOf, h, UInt32.toNat_toUInt8]

/-- The byte of a side stands for the side from 1 to 256, and for nothing else. -/
theorem side_eq_iff (v : UInt32) : (sideOf v.toUInt8 : Int) = toLONG v ↔ 1 ≤ v.toNat ∧ v.toNat ≤ 256 := by
  have hv := v.toNat_lt
  rw [sideOf_toUInt8, toLONG_eq]
  split <;> split <;> omega

/-- The doubled height is signed: it may neither wrap nor come out negative. -/
theorem doubled_eq_iff (v : UInt32) : toLONG (v * 2) = 2 * (v.toNat : Int) ↔ v.toNat < 2 ^ 30 := by
  have hv := v.toNat_lt
  have hmul : (v * 2).toNat = v.toNat * 2 % 2 ^ 32 := UInt32.toNat_mul v 2
  rw [toLONG_eq, hmul]
  split <;> omega

theorem height_eq_iff (v : UInt32) : (2 * (sideOf v.toUInt8 : Int) = toLONG (v * 2) ∧
    toLONG (v * 2) = 2 * (v.toNat : Int)) ↔ 1 ≤ v.toNat ∧ v.toNat ≤ 256 := by
  rw [doubled_eq_iff]
  have hside := side_eq_iff v
  constructor
  · rintro ⟨h, hlt⟩
    rw [(doubled_eq_iff v).2 hlt] at h
    rw [toLONG_eq, if_pos (by omega)] at hside
    exact hside.1 (by omega)
  · intro h
    have hlt : v.toNat < 2 ^ 30 := by omega
    rw [toLONG_eq, if_pos (by omega)] at hside
    refine ⟨?_, hlt⟩
    rw [(doubled_eq_iff v).2 hlt, hside.2 h]

theorem bpp_eq_iff (v : UInt32) : v.toUInt16.toNat = v.toNat ↔ v.toNat < 2 ^ 16 := by
  rw [UInt32.toNat_toUInt16]
  omega

/-! ## When the file is consistent -/

variable {W : Type}

theorem consistentIcon_received {i : Server.RDPAPPLIST_ICON_DATA} (rst : List BYTE) (hsize : iconFileSize i.iconBits < 2 ^ 32) :
    ConsistentIcon (i.payload ++ rst) i.received ↔ IconMessage.InRange (i.payload ++ rst) := by
  have hlt : 62 + i.iconBits.length < 2 ^ 32 := hsize
  have hbytes : (40 + i.iconBitsLength).toNat = 40 + i.iconBits.length := by
    have hadd := UInt32.toNat_add 40 i.iconBitsLength
    rw [Server.RDPAPPLIST_ICON_DATA.iconBitsLength_toNat] at hadd
    rw [hadd]
    exact Nat.mod_eq_of_lt (by change 40 + i.iconBits.length < _; omega)
  constructor
  · intro h
    obtain ⟨-, -, -, hwidth, hheight, hbpp, -, hdoubled, -⟩ := h
    rw [received_biHeight] at hheight hdoubled
    rw [received_bWidth, received_biWidth] at hwidth
    rw [received_bHeight] at hheight
    rw [payload_iconHeight] at hdoubled
    rw [received_wBitCount, payload_iconBpp] at hbpp
    refine ⟨?_, ?_, ?_⟩
    · rw [payload_iconWidth]
      exact (side_eq_iff _).1 hwidth
    · rw [payload_iconHeight]
      exact (height_eq_iff _).1 ⟨hheight, hdoubled⟩
    · rw [payload_iconBpp]
      exact (bpp_eq_iff _).1 hbpp
  · rintro ⟨hwidth, hheight, hbpp⟩
    rw [payload_iconWidth] at hwidth
    rw [payload_iconHeight] at hheight
    rw [payload_iconBpp] at hbpp
    obtain ⟨hhalf, hdoubled⟩ := (height_eq_iff _).2 hheight
    constructor
    case size =>
      rw [received_length, Server.RDPAPPLIST_ICON_DATA.received, fields_fileSize, iconFileSize, UInt32.toNat_ofNat']
      exact Nat.mod_eq_of_lt hlt
    case length => rw [received_length, payload_iconBitsLength, Server.RDPAPPLIST_ICON_DATA.iconBitsLength_toNat]
    case resource =>
      rw [received_dwImageOffset, received_dwBytesInRes, received_length, hbytes]
      show 22 + (40 + i.iconBits.length) = _
      omega
    case width => rw [received_bWidth, received_biWidth]; exact (side_eq_iff _).2 hwidth
    case height => rw [received_bHeight, received_biHeight]; exact hhalf
    case entryBpp => rw [received_wBitCount, payload_iconBpp]; exact (bpp_eq_iff _).2 hbpp
    case bitmapBpp => rw [received_biBitCount, payload_iconBpp]; exact (bpp_eq_iff _).2 hbpp
    case doubled => rw [received_biHeight, payload_iconHeight]; exact hdoubled
    case bits => rw [received_bits, payload_iconBits]

/-- Reading an icon wherever it stands: the bytes are those of an icon and the result is its file. -/
theorem icon_of_read {os : OS W} {pre bytes : List BYTE} {m : Machine W} {icon : Client.RDPAPPLIST_ICON_DATA}
    {t : Reading (Machine W)} (h : ReadAppListIconData os (.between pre bytes m) = .ok icon t) :
    ∃ (i : Server.RDPAPPLIST_ICON_DATA) (rst : List BYTE), bytes = i.payload ++ rst ∧
      iconFileSize i.iconBits < 2 ^ 32 ∧ icon = i.received := by
  obtain ⟨tk, hbytes, hacc, -⟩ := (local_ReadAppListIconData os).of_ok (Reading.between_valid _ _ _) h
  obtain ⟨i, rfl, hsize, -, hicon, -⟩ := (accepts_ReadAppListIconData os).1 hacc
  rw [Reading.between_rest] at hbytes
  exact ⟨i, t.rest, hbytes, hsize, hicon⟩

/-- From whatever bytes an icon is read, its file is consistent exactly if the
numbers in them are in range. -/
theorem icon_file_consistent_iff (os : OS W) {pre bytes : List BYTE} {m : Machine W} {icon : Client.RDPAPPLIST_ICON_DATA}
    {t : Reading (Machine W)} (h : ReadAppListIconData os (.between pre bytes m) = .ok icon t) :
    ConsistentIcon bytes icon ↔ IconMessage.InRange bytes := by
  obtain ⟨i, rst, rfl, hsize, rfl⟩ := icon_of_read h
  exact consistentIcon_received rst hsize

/-! ## On a disk -/

/-- An icon of one pixel and four bytes that says it is as wide as given. -/
def narrowIcon (width : UInt32) : List BYTE := iconHead 0 width 1 4 32 0 4 ++ [1, 2, 3, 4]

def readNarrow (width : UInt32) := ReadAppListIconData diskOS (.between [] (narrowIcon width) (.fresh []))

theorem readNarrow_ok (width : UInt32) : ∃ icon t, readNarrow width = .ok icon t := by
  let i : Server.RDPAPPLIST_ICON_DATA := ⟨0, width, 1, 4, 32, 0, [1, 2, 3, 4], by decide⟩
  have hsize : iconFileSize [1, 2, 3, 4] < 2 ^ 32 := by decide
  have h : Accepts (ReadAppListIconData diskOS) (.fresh []) i.payload i.received _ :=
    (accepts_ReadAppListIconData diskOS).2 ⟨i, rfl, hsize, rfl, rfl, rfl⟩
  exact ⟨_, _, h [] []⟩

theorem icon_file_consistent_iff_on_disk : ∃ icon t, readNarrow 1 = .ok icon t ∧ ConsistentIcon (narrowIcon 1) icon := by
  obtain ⟨icon, t, h⟩ := readNarrow_ok 1
  exact ⟨icon, t, h, (icon_file_consistent_iff diskOS h).2 ⟨by decide +kernel, by decide +kernel, by decide +kernel⟩⟩

/-- 300 pixels: the directory entry says 44 and the bitmap header says 300. -/
theorem wide_icon_inconsistent : ∃ icon t, readNarrow 300 = .ok icon t ∧ ¬ ConsistentIcon (narrowIcon 300) icon := by
  obtain ⟨icon, t, h⟩ := readNarrow_ok 300
  refine ⟨icon, t, h, fun hc => ?_⟩
  obtain ⟨i, rst, hbytes, -, rfl⟩ := icon_of_read h
  have hwidth : i.iconWidth = 300 := by
    rw [← payload_iconWidth i rst, ← hbytes]
    rfl
  have hsides := hc.width
  rw [received_bWidth, received_biWidth, hwidth] at hsides
  revert hsides
  decide

end Wslg
