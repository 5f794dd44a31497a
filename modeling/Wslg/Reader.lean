import Wslg.Lib.Cursor
import Wslg.Protocol
/-!
# The client's readers

The read macros of the client's `rdpapplist.h` and the `ReadAppList*` functions
of `WSLDVCCallback.cpp` that only read. `ReadAppListIconData` also allocates,
so it is in `Callback.lean`; what it reads before and after are `ReadIconFields`
and `ReadIconFile`.
-/

open Lib

namespace Wslg

variable {σ : Type}

/-! ## Macros -/

def ReadUINT16 : Reader HRESULT σ UInt16 := do
  let bs ← takeBytes .E_FAIL 2
  return read16 bs

def ReadUINT32 : Reader HRESULT σ UInt32 := do
  let bs ← takeBytes .E_FAIL 4
  return read32 bs

/-- A string field of the message `σ`. -/
structure Field (σ : Type) where
  get : σ → StringField
  set : StringField → σ → σ
  get_set : ∀ f o, get (set f o) = f
  set_get : ∀ o, set (get o) o = o
  set_set : ∀ f f' o, set f (set f' o) = set f o

/-- The `memcpy` of a string to its field. -/
def copyBody (o : Field σ) (bs : List BYTE) (out : σ) : Option σ :=
  ((o.get out).chars.copy bs).map (fun c => o.set { o.get out with chars := c } out)

/-- `o[n / sizeof(WCHAR)] = L'\0'` -/
def terminate (o : Field σ) (n : Nat) (out : σ) : Option σ :=
  ((o.get out).chars.store (n / 2) 0).map (fun c => o.set { o.get out with chars := c } out)

/-- `ReadSTRING(o, p, r, required)`. -/
def ReadSTRING (o : Field σ) (required : Bool) : Reader HRESULT σ PUnit := do
  let n ← ReadUINT16
  update (fun out => o.set { o.get out with length := n } out)
  if 2 * RDPAPPLIST_MAX_STRING_SIZE_IN_WCHAR < n.toNat + 2 then reject .E_FAIL
  else if n.toNat ≠ 0 then do
    readInto .E_FAIL n.toNat (copyBody o)
    store (terminate o n.toNat)
  else if required then reject .E_FAIL
  else pure ⟨⟩

def CheckRequiredFlags (flags required : UInt32) : Reader HRESULT σ PUnit :=
  if flags &&& required ≠ required then reject .E_FAIL else pure ⟨⟩

/-- `if (flags & field) { ReadSTRING(o, cur, len, required); }` -/
def ReadFlaggedSTRING (flags field : UInt32) (o : Field σ) (required : Bool) : Reader HRESULT σ PUnit :=
  if has flags field then ReadSTRING o required else pure ⟨⟩

/-! ## Fields of the messages -/

namespace Client

def RDPAPPLIST_SERVER_CAPS_PDU.name : Field RDPAPPLIST_SERVER_CAPS_PDU :=
  ⟨(·.appListProviderName), fun f o => { o with appListProviderName := f }, fun _ _ => rfl, fun _ => rfl, fun _ _ _ => rfl⟩
def RDPAPPLIST_SERVER_CAPS_PDU.uniqueId : Field RDPAPPLIST_SERVER_CAPS_PDU :=
  ⟨(·.appListProviderUniqueId), fun f o => { o with appListProviderUniqueId := f }, fun _ _ => rfl, fun _ => rfl,
    fun _ _ _ => rfl⟩

namespace RDPAPPLIST_UPDATE_APPLIST_PDU

def id : Field RDPAPPLIST_UPDATE_APPLIST_PDU :=
  ⟨(·.appId), fun f o => { o with appId := f }, fun _ _ => rfl, fun _ => rfl, fun _ _ _ => rfl⟩
def group : Field RDPAPPLIST_UPDATE_APPLIST_PDU :=
  ⟨(·.appGroup), fun f o => { o with appGroup := f }, fun _ _ => rfl, fun _ => rfl, fun _ _ _ => rfl⟩
def execPath : Field RDPAPPLIST_UPDATE_APPLIST_PDU :=
  ⟨(·.appExecPath), fun f o => { o with appExecPath := f }, fun _ _ => rfl, fun _ => rfl, fun _ _ _ => rfl⟩
def workingDir : Field RDPAPPLIST_UPDATE_APPLIST_PDU :=
  ⟨(·.appWorkingDir), fun f o => { o with appWorkingDir := f }, fun _ _ => rfl, fun _ => rfl, fun _ _ _ => rfl⟩
def desc : Field RDPAPPLIST_UPDATE_APPLIST_PDU :=
  ⟨(·.appDesc), fun f o => { o with appDesc := f }, fun _ _ => rfl, fun _ => rfl, fun _ _ _ => rfl⟩

end RDPAPPLIST_UPDATE_APPLIST_PDU

namespace RDPAPPLIST_DELETE_APPLIST_PDU

def id : Field RDPAPPLIST_DELETE_APPLIST_PDU :=
  ⟨(·.appId), fun f o => { o with appId := f }, fun _ _ => rfl, fun _ => rfl, fun _ _ _ => rfl⟩
def group : Field RDPAPPLIST_DELETE_APPLIST_PDU :=
  ⟨(·.appGroup), fun f o => { o with appGroup := f }, fun _ _ => rfl, fun _ => rfl, fun _ _ _ => rfl⟩

end RDPAPPLIST_DELETE_APPLIST_PDU

namespace RDPAPPLIST_ASSOCIATE_WINDOW_ID_PDU

def id : Field RDPAPPLIST_ASSOCIATE_WINDOW_ID_PDU :=
  ⟨(·.appId), fun f o => { o with appId := f }, fun _ _ => rfl, fun _ => rfl, fun _ _ _ => rfl⟩
def group : Field RDPAPPLIST_ASSOCIATE_WINDOW_ID_PDU :=
  ⟨(·.appGroup), fun f o => { o with appGroup := f }, fun _ _ => rfl, fun _ => rfl, fun _ _ _ => rfl⟩
def execPath : Field RDPAPPLIST_ASSOCIATE_WINDOW_ID_PDU :=
  ⟨(·.appExecPath), fun f o => { o with appExecPath := f }, fun _ _ => rfl, fun _ => rfl, fun _ _ _ => rfl⟩
def desc : Field RDPAPPLIST_ASSOCIATE_WINDOW_ID_PDU :=
  ⟨(·.appDesc), fun f o => { o with appDesc := f }, fun _ _ => rfl, fun _ => rfl, fun _ _ _ => rfl⟩

end RDPAPPLIST_ASSOCIATE_WINDOW_ID_PDU

end Client

/-! ## Readers

Each works on local copies of the caller's cursor, stored back on `S_OK`. -/

open Client

def ReadAppListHeader : Reader HRESULT RDPAPPLIST_HEADER PUnit := onCopy do
  let cmdId ← ReadUINT32
  update (fun h => { h with cmdId := cmdId })
  let length ← ReadUINT32
  update (fun h => { h with length := length })

def ReadAppListServerCaps : Reader HRESULT RDPAPPLIST_SERVER_CAPS_PDU PUnit := onCopy do
  let version ← ReadUINT16
  update (fun c => { c with version := version })
  ReadSTRING RDPAPPLIST_SERVER_CAPS_PDU.name true
  if 4 ≤ version then ReadSTRING RDPAPPLIST_SERVER_CAPS_PDU.uniqueId true else pure ⟨⟩

def ReadAppListUpdate : Reader HRESULT RDPAPPLIST_UPDATE_APPLIST_PDU PUnit := onCopy do
  let flags ← ReadUINT32
  update (fun p => { p with flags := flags })
  CheckRequiredFlags flags (RDPAPPLIST_FIELD_ID ||| RDPAPPLIST_FIELD_EXECPATH ||| RDPAPPLIST_FIELD_DESC)
  ReadFlaggedSTRING flags RDPAPPLIST_FIELD_ID RDPAPPLIST_UPDATE_APPLIST_PDU.id true
  ReadFlaggedSTRING flags RDPAPPLIST_FIELD_GROUP RDPAPPLIST_UPDATE_APPLIST_PDU.group false
  ReadFlaggedSTRING flags RDPAPPLIST_FIELD_EXECPATH RDPAPPLIST_UPDATE_APPLIST_PDU.execPath true
  ReadFlaggedSTRING flags RDPAPPLIST_FIELD_WORKINGDIR RDPAPPLIST_UPDATE_APPLIST_PDU.workingDir false
  ReadFlaggedSTRING flags RDPAPPLIST_FIELD_DESC RDPAPPLIST_UPDATE_APPLIST_PDU.desc true

def ReadAppListDelete : Reader HRESULT RDPAPPLIST_DELETE_APPLIST_PDU PUnit := onCopy do
  let flags ← ReadUINT32
  update (fun p => { p with flags := flags })
  CheckRequiredFlags flags RDPAPPLIST_FIELD_ID
  ReadFlaggedSTRING flags RDPAPPLIST_FIELD_ID RDPAPPLIST_DELETE_APPLIST_PDU.id true
  ReadFlaggedSTRING flags RDPAPPLIST_FIELD_GROUP RDPAPPLIST_DELETE_APPLIST_PDU.group false

def ReadAssociateWindowId : Reader HRESULT RDPAPPLIST_ASSOCIATE_WINDOW_ID_PDU PUnit := onCopy do
  let flags ← ReadUINT32
  update (fun p => { p with flags := flags })
  CheckRequiredFlags flags (RDPAPPLIST_FIELD_ID ||| RDPAPPLIST_FIELD_WINDOW_ID)
  let appWindowId ← ReadUINT32
  update (fun p => { p with appWindowId := appWindowId })
  ReadFlaggedSTRING flags RDPAPPLIST_FIELD_ID RDPAPPLIST_ASSOCIATE_WINDOW_ID_PDU.id true
  ReadFlaggedSTRING flags RDPAPPLIST_FIELD_GROUP RDPAPPLIST_ASSOCIATE_WINDOW_ID_PDU.group false
  ReadFlaggedSTRING flags RDPAPPLIST_FIELD_EXECPATH RDPAPPLIST_ASSOCIATE_WINDOW_ID_PDU.execPath true
  ReadFlaggedSTRING flags RDPAPPLIST_FIELD_DESC RDPAPPLIST_ASSOCIATE_WINDOW_ID_PDU.desc true

/-! ## Icons -/

/-- The seven numbers at the start of the icon data. -/
def ReadIconFields : Reader HRESULT RDPAPPLIST_ICON_DATA PUnit := do
  let flags ← ReadUINT32
  update (fun i => { i with flags := flags })
  let iconWidth ← ReadUINT32
  update (fun i => { i with iconWidth := iconWidth })
  let iconHeight ← ReadUINT32
  update (fun i => { i with iconHeight := iconHeight })
  let iconStride ← ReadUINT32
  update (fun i => { i with iconStride := iconStride })
  let iconBpp ← ReadUINT32
  update (fun i => { i with iconBpp := iconBpp })
  let iconFormat ← ReadUINT32
  update (fun i => { i with iconFormat := iconFormat })
  let iconBitsLength ← ReadUINT32
  update (fun i => { i with iconBitsLength := iconBitsLength })

def sizeofIconHeader : Nat := 22
def sizeofBitmapInfoHeader : Nat := 40

namespace Client.RDPAPPLIST_ICON_DATA

/-- The sum that `UIntAdd` checks. -/
def fileSize (i : RDPAPPLIST_ICON_DATA) : Nat := sizeofIconHeader + sizeofBitmapInfoHeader + i.iconBitsLength.toNat

/-- `ICON_HEADER` with its one `ICON_DIR_ENTRY`. -/
def iconHeaderBytes (i : RDPAPPLIST_ICON_DATA) : List BYTE :=
  le16 0 ++ le16 1 ++ le16 1 ++ [i.iconWidth.toUInt8] ++ [i.iconHeight.toUInt8] ++ [0] ++ [0] ++ le16 0 ++
    le16 i.iconBpp.toUInt16 ++ le32 (40 + i.iconBitsLength) ++ le32 22

/-- `BITMAPINFOHEADER` -/
def bitmapInfoBytes (i : RDPAPPLIST_ICON_DATA) : List BYTE :=
  le32 40 ++ le32 i.iconWidth ++ le32 (i.iconHeight * 2) ++ le16 1 ++ le16 i.iconBpp.toUInt16 ++ le32 0 ++
    le32 i.iconBitsLength ++ le32 0 ++ le32 0 ++ le32 0 ++ le32 0

end Client.RDPAPPLIST_ICON_DATA

/-- An allocated block of memory. -/
structure Block (n : Nat) where
  data : List BYTE
  size : data.length = n
  deriving DecidableEq

namespace Block

variable {n : Nat}

def zero (n : Nat) : Block n := ⟨List.replicate n 0, by simp⟩

/-- Overwrite the block at `off`; `none` outside it. -/
def writeAt (off : Nat) (bs : List BYTE) (b : Block n) : Option (Block n) :=
  if h : off + bs.length ≤ n then
    some ⟨b.data.take off ++ bs ++ b.data.drop (off + bs.length), by simp [b.size]; omega⟩
  else none

end Block

/-- The bits go behind the two headers, which are filled in afterwards. -/
def ReadIconFile (i : RDPAPPLIST_ICON_DATA) : Reader HRESULT (Block i.fileSize) PUnit := do
  readInto .E_FAIL i.iconBitsLength.toNat (Block.writeAt (sizeofIconHeader + sizeofBitmapInfoHeader))
  store (Block.writeAt 0 i.iconHeaderBytes)
  store (Block.writeAt sizeofIconHeader i.bitmapInfoBytes)

end Wslg
