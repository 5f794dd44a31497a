import Wslg.Lib.Bytes
import Mathlib.Data.List.TakeWhile
/-!
# The app list protocol

The constants of `rdpapplist_protocol.h` (the client's `rdpapplist.h` has the
same), the messages as the server's callers fill them in, and the messages as
the client's readers leave them. A client string field is a length and a fixed
array of 256 WCHARs that keeps whatever the reader did not overwrite.
-/

open Lib

namespace Wslg

abbrev BYTE := UInt8
abbrev WCHAR := UInt16

/-- A wide string up to its terminator. -/
abbrev WString := List WCHAR

/-- A wide string literal. -/
def L (s : String) : WString := s.toList.map (fun c => c.val.toUInt16)

/-! ## Constants -/

def RDPAPPLIST_CMDID_CAPS : UInt32 := 1
def RDPAPPLIST_CMDID_UPDATE_APPLIST : UInt32 := 2
def RDPAPPLIST_CMDID_DELETE_APPLIST : UInt32 := 3
def RDPAPPLIST_CMDID_DELETE_APPLIST_PROVIDER : UInt32 := 4
def RDPAPPLIST_CMDID_ASSOCIATE_WINDOW_ID : UInt32 := 5

def RDPAPPLIST_FIELD_ID : UInt32 := 0x00000001
def RDPAPPLIST_FIELD_GROUP : UInt32 := 0x00000002
def RDPAPPLIST_FIELD_EXECPATH : UInt32 := 0x00000004
def RDPAPPLIST_FIELD_DESC : UInt32 := 0x00000008
def RDPAPPLIST_FIELD_ICON : UInt32 := 0x00000010
def RDPAPPLIST_FIELD_PROVIDER : UInt32 := 0x00000020
def RDPAPPLIST_FIELD_WORKINGDIR : UInt32 := 0x00000040
def RDPAPPLIST_FIELD_WINDOW_ID : UInt32 := 0x00000080

def RDPAPPLIST_HINT_SYNC : UInt32 := 0x00100000
def RDPAPPLIST_HINT_SYNC_START : UInt32 := 0x00200000
def RDPAPPLIST_HINT_SYNC_END : UInt32 := 0x00400000

def RDPAPPLIST_CHANNEL_VERSION : UInt16 := 4
def RDPAPPLIST_HEADER_SIZE : Nat := 8
def RDPAPPLIST_LANG_SIZE : Nat := 32
def RDPAPPLIST_MAX_STRING_SIZE : Nat := 512
def RDPAPPLIST_MAX_STRING_SIZE_IN_WCHAR : Nat := 256
def MAX_PATH : Nat := 260

/-- `flags & field`, as a condition. -/
def has (flags field : UInt32) : Bool := flags &&& field != 0

/-- The `HRESULT`s that `FAILED` holds of. -/
inductive HRESULT where
  | E_FAIL
  | E_OUTOFMEMORY
  | INTSAFE_E_ARITHMETIC_OVERFLOW
  | os (code : UInt32)
  deriving DecidableEq

/-! ## Arrays of WCHAR -/

/-- The WCHAR stored as the two bytes `lo`, `hi`. -/
def wchar (lo hi : BYTE) : WCHAR := read16 [lo, hi]

/-- The bytes of an array of WCHARs. -/
def bytesOf (ws : List WCHAR) : List BYTE := ws.flatMap le16

@[simp] theorem bytesOf_nil : bytesOf [] = [] := rfl

@[simp] theorem bytesOf_cons (w : WCHAR) (ws : List WCHAR) : bytesOf (w :: ws) = le16 w ++ bytesOf ws := by
  simp [bytesOf]

@[simp] theorem bytesOf_length (ws : List WCHAR) : (bytesOf ws).length = 2 * ws.length := by
  induction ws with
  | nil => rfl
  | cons w ws ih => simp [ih]; omega

/-- `memcpy` of `src` to the start of an array of WCHARs. An odd last byte
replaces the low half of its WCHAR. -/
def memcpy : List WCHAR → List BYTE → List WCHAR
  | _ :: ws, lo :: hi :: src => wchar lo hi :: memcpy ws src
  | w :: ws, [lo] => wchar lo (UInt8.ofNat (w.toNat / 256)) :: ws
  | ws, [] => ws
  | [], _ => []

@[simp] theorem memcpy_nil (ws : List WCHAR) : memcpy ws [] = ws := by cases ws <;> rfl

@[simp] theorem memcpy_length (ws : List WCHAR) (src : List BYTE) : (memcpy ws src).length = ws.length := by
  fun_induction memcpy ws src <;> simp_all

/-- An array of `n` WCHARs. -/
structure WCharArray (n : Nat) where
  data : List WCHAR
  size : data.length = n
  deriving DecidableEq

namespace WCharArray

variable {n : Nat}

def zero (n : Nat) : WCharArray n := ⟨List.replicate n 0, by simp⟩

/-- The wide string in the array: everything before the first NUL. -/
def str (a : WCharArray n) : WString := a.data.takeWhile (· ≠ 0)

/-- `memcpy(a, src, src.length)`; `none` if the copy does not fit. -/
def copy (a : WCharArray n) (src : List BYTE) : Option (WCharArray n) :=
  if src.length ≤ 2 * n then some ⟨memcpy a.data src, by simp [a.size]⟩ else none

/-- `a[i] = w`; `none` outside the array. -/
def store (a : WCharArray n) (i : Nat) (w : WCHAR) : Option (WCharArray n) :=
  if i < n then some ⟨a.data.set i w, by simp [a.size]⟩ else none

end WCharArray

/-! ## Messages on the server -/

/-- A counted string: `length` is a `UINT16`, `string` points to that many bytes. -/
structure RAIL_UNICODE_STRING where
  string : List BYTE
  fits : string.length < 2 ^ 16
  deriving DecidableEq

def RAIL_UNICODE_STRING.length (s : RAIL_UNICODE_STRING) : UInt16 := UInt16.ofNat s.string.length

@[simp] theorem RAIL_UNICODE_STRING.length_toNat (s : RAIL_UNICODE_STRING) : s.length.toNat = s.string.length := by
  simp only [RAIL_UNICODE_STRING.length, UInt16.toNat_ofNat']
  exact Nat.mod_eq_of_lt s.fits

namespace Server

structure RDPAPPLIST_SERVER_CAPS_PDU where
  version : UInt16
  appListProviderName : RAIL_UNICODE_STRING
  appListProviderUniqueId : RAIL_UNICODE_STRING

/-- `iconBits` points to `iconBitsLength` bytes. -/
structure RDPAPPLIST_ICON_DATA where
  flags : UInt32
  iconWidth : UInt32
  iconHeight : UInt32
  iconStride : UInt32
  iconBpp : UInt32
  iconFormat : UInt32
  iconBits : List BYTE
  fits : iconBits.length < 2 ^ 32

def RDPAPPLIST_ICON_DATA.iconBitsLength (i : RDPAPPLIST_ICON_DATA) : UInt32 := UInt32.ofNat i.iconBits.length

@[simp] theorem RDPAPPLIST_ICON_DATA.iconBitsLength_toNat (i : RDPAPPLIST_ICON_DATA) :
    i.iconBitsLength.toNat = i.iconBits.length := by
  simp only [iconBitsLength, UInt32.toNat_ofNat']
  exact Nat.mod_eq_of_lt i.fits

structure RDPAPPLIST_UPDATE_APPLIST_PDU where
  flags : UInt32
  appId : RAIL_UNICODE_STRING
  appGroup : RAIL_UNICODE_STRING
  appExecPath : RAIL_UNICODE_STRING
  appWorkingDir : RAIL_UNICODE_STRING
  appDesc : RAIL_UNICODE_STRING
  appIcon : Option RDPAPPLIST_ICON_DATA

structure RDPAPPLIST_DELETE_APPLIST_PDU where
  flags : UInt32
  appId : RAIL_UNICODE_STRING
  appGroup : RAIL_UNICODE_STRING

structure RDPAPPLIST_DELETE_APPLIST_PROVIDER_PDU where
  flags : UInt32
  appListProviderName : RAIL_UNICODE_STRING

structure RDPAPPLIST_ASSOCIATE_WINDOW_ID_PDU where
  flags : UInt32
  appWindowId : UInt32
  appId : RAIL_UNICODE_STRING
  appGroup : RAIL_UNICODE_STRING
  appExecPath : RAIL_UNICODE_STRING
  appDesc : RAIL_UNICODE_STRING

end Server

/-! ## Messages on the client -/

/-- A string field `o` of a client message, with its `oLength`. -/
structure StringField where
  length : UInt16
  chars : WCharArray RDPAPPLIST_MAX_STRING_SIZE_IN_WCHAR
  deriving DecidableEq

def StringField.empty : StringField := ⟨0, .zero _⟩

/-- The field read as a NUL-terminated string. -/
def StringField.str (f : StringField) : WString := f.chars.str

/-- The first `oLength` bytes of the field. -/
def fieldBytes (f : StringField) : List BYTE := (bytesOf f.chars.data).take f.length.toNat

structure RDPAPPLIST_HEADER where
  cmdId : UInt32
  length : UInt32
  deriving DecidableEq

namespace Client

structure RDPAPPLIST_SERVER_CAPS_PDU where
  version : UInt16
  appListProviderName : StringField
  appListProviderUniqueId : StringField
  deriving DecidableEq

structure RDPAPPLIST_UPDATE_APPLIST_PDU where
  flags : UInt32
  appId : StringField
  appGroup : StringField
  appExecPath : StringField
  appWorkingDir : StringField
  appDesc : StringField
  deriving DecidableEq

/-- The icon fields of an update, with the icon file built from them. -/
structure RDPAPPLIST_ICON_DATA where
  flags : UInt32
  iconWidth : UInt32
  iconHeight : UInt32
  iconStride : UInt32
  iconBpp : UInt32
  iconFormat : UInt32
  iconBitsLength : UInt32
  iconFileSize : UInt32
  iconFileData : List BYTE
  deriving DecidableEq

structure RDPAPPLIST_DELETE_APPLIST_PDU where
  flags : UInt32
  appId : StringField
  appGroup : StringField
  deriving DecidableEq

structure RDPAPPLIST_ASSOCIATE_WINDOW_ID_PDU where
  flags : UInt32
  appWindowId : UInt32
  appId : StringField
  appGroup : StringField
  appExecPath : StringField
  appDesc : StringField
  deriving DecidableEq

def RDPAPPLIST_SERVER_CAPS_PDU.zero : RDPAPPLIST_SERVER_CAPS_PDU := ⟨0, .empty, .empty⟩
def RDPAPPLIST_UPDATE_APPLIST_PDU.zero : RDPAPPLIST_UPDATE_APPLIST_PDU :=
  ⟨0, .empty, .empty, .empty, .empty, .empty⟩
def RDPAPPLIST_ICON_DATA.zero : RDPAPPLIST_ICON_DATA := ⟨0, 0, 0, 0, 0, 0, 0, 0, []⟩
def RDPAPPLIST_DELETE_APPLIST_PDU.zero : RDPAPPLIST_DELETE_APPLIST_PDU := ⟨0, .empty, .empty⟩
def RDPAPPLIST_ASSOCIATE_WINDOW_ID_PDU.zero : RDPAPPLIST_ASSOCIATE_WINDOW_ID_PDU :=
  ⟨0, 0, .empty, .empty, .empty, .empty⟩

end Client

end Wslg
