import Wslg.Lib.Outcome
import Wslg.Decode
import Wslg.Callback
/-!
# Rules for the handlers

Every handler is `Local`: it takes some of the bytes that remain or rejects
them, and never reads or writes outside an array. What it does behind its read
scope is `Still`: it reads no more.
-/

open Lib Lib.TraceM

namespace Wslg

open Client

variable {W α : Type}

/-! ## Steps -/

section Local

variable (os : OS W)

theorem still_getThis : Still (getThis : Handler W _) := .act _
theorem still_setThis (f : WSLDVCCallback → WSLDVCCallback) : Still (setThis f : Handler W _) := .update _
theorem still_sys (x : SysM W α) : Still (sys x) := .act _

theorem still_failWhen (b : Bool) : Still (failWhen b : Handler W _) :=
  .ite (fun _ => .reject _) fun _ => .pure _

theorem still_check (hr : Option HRESULT) : Still (check hr : Handler W _) := by
  cases hr
  · exact .pure _
  · exact .reject _

theorem still_okOr (x : Option α) : Still (okOr x : Handler W α) := by
  cases x
  · exact .reject _
  · exact .pure _

theorem still_deref (x : Option α) : Still (deref x : Handler W α) := by
  cases x
  · exact .reject _
  · exact .pure _

/-! ## Messages -/

theorem local_iconFile (icon : RDPAPPLIST_ICON_DATA) :
    Local (orUndo (onLocal Stop.hr (.zero _) (ReadIconFile icon)) freeIcon : Handler W _) :=
  ((local_ReadIconFile icon).onLocal _).orUndo _

theorem local_ReadIconBits (icon : RDPAPPLIST_ICON_DATA) : Local (ReadIconBits os icon) :=
  Local.ite (fun _ => local_reject _) fun _ => (still_sys _).toLocal.bind fun _ => Local.ite
    (fun _ => (local_iconFile icon).bind fun _ => local_pure _) fun _ => local_reject _

theorem local_ReadAppListIconData : Local (ReadAppListIconData os) :=
  (local_ReadIconFields.onLocal _).bind (fun icon => local_ReadIconBits os icon) |>.onCopy

theorem local_readIcon (flags : UInt32) : Local (readIcon os flags) :=
  Local.ite (fun _ => local_ReadAppListIconData os) fun _ => local_pure _

theorem local_ReadUpdateMessage : Local (ReadUpdateMessage os) :=
  ((local_ReadAppListUpdate.onLocal _).bind fun _ => (local_readIcon os _).bind fun _ => local_pure _).onCopy

/-! ## CAPS -/

theorem local_readCaps : Local (readCaps : Handler W _) := local_ReadAppListServerCaps.onPart.onCopy

theorem fieldBytes_length_le (f : StringField) : (fieldBytes f).length ≤ 512 := by
  simp only [fieldBytes, List.length_take, bytesOf_length, f.chars.size, RDPAPPLIST_MAX_STRING_SIZE_IN_WCHAR]
  omega

theorem still_OnCapsProvider : Still (OnCapsProvider os) := by
  refine (Still.store fun m => ?_).bind fun _ => still_getThis.bind fun t => (still_failWhen _).bind fun _ =>
    .ite (fun _ => ?_) fun _ => .pure _
  · have h := fieldBytes_length_le m.this.m_serverCaps.appListProviderName
    rw [Option.isSome_map, WCharArray.copy, if_pos (by simp only [MAX_PATH]; omega)]
    rfl
  · exact (still_okOr _).bind fun _ => (still_failWhen _).bind fun _ => (still_sys _).bind fun _ =>
      (still_setThis _).bind fun _ => still_check _

theorem still_OnCapsPaths : Still (OnCapsPaths os) :=
  still_getThis.bind fun _ => (still_sys _).bind fun _ => (still_setThis _).bind fun _ => (still_check _).bind fun _ =>
    (still_sys _).bind fun _ => (still_setThis _).bind fun _ => still_check _

theorem still_OnCapsEnvironment : Still (OnCapsEnvironment os) :=
  (still_sys _).bind fun _ => (still_check _).bind fun _ => still_getThis.bind fun _ => (still_sys _).bind fun _ =>
    (still_setThis _).bind fun _ => (still_check _).bind fun _ => (still_setThis _).bind fun _ =>
      (still_failWhen _).bind fun _ => (still_sys _).bind fun _ => (still_setThis _).bind fun _ =>
        (still_failWhen _).bind fun _ => (still_sys _).bind fun _ => still_setThis _

theorem still_OnCapsReply : Still (OnCapsReply os) :=
  still_getThis.bind fun _ => .ite
    (fun _ => (still_okOr _).bind fun _ => (still_sys _).bind fun _ => (still_setThis _).bind fun _ => still_check _)
    fun _ => (still_setThis _).bind fun _ => .reject _

theorem still_answerCaps : Still (answerCaps os) :=
  (still_OnCapsProvider os).bind fun _ => (still_OnCapsPaths os).bind fun _ => (still_OnCapsEnvironment os).bind fun _ =>
    still_OnCapsReply os

theorem local_OnCaps : Local (OnCaps os) := local_readCaps.bind fun _ => (still_answerCaps os).toLocal

/-! ## UPDATE_APPLIST -/

theorem still_OnSyncStart : Still (OnSyncStart os) :=
  still_getThis.bind fun _ => (still_failWhen _).bind fun _ => (still_sys _).bind fun _ => (still_check _).bind fun _ =>
    (still_sys _).bind fun _ => (still_sys _).bind fun _ => still_setThis _

theorem still_syncGate (flags : UInt32) : Still (syncGate os flags) :=
  (.ite (fun _ => still_OnSyncStart os) fun _ => .pure _ : Still (startSync os flags)).bind fun _ =>
    still_getThis.bind fun _ => still_failWhen _

theorem still_ensureDirectory (path : WString) : Still (ensureDirectory os path) :=
  (still_sys _).bind fun _ => still_check _

theorem still_enterGroup (path : WString) (group : StringField) : Still (enterGroup os path group) :=
  .ite (fun _ => (still_okOr _).bind fun _ => (still_okOr _).bind fun _ => (still_ensureDirectory os _).bind
    fun _ => .pure _) fun _ => .pure _

theorem still_buildPath (root : WString) (group : StringField) (name ext : WString) :
    Still (buildPath os root group name ext) :=
  (still_okOr _).bind fun _ => (still_ensureDirectory os _).bind fun _ => (still_enterGroup os _ _).bind fun _ =>
    (still_okOr _).bind fun _ => (still_okOr _).bind fun _ => still_okOr _

theorem still_buildKey (group id : StringField) : Still (buildKey group id : Handler W _) :=
  (.ite (fun _ => (still_okOr _).bind fun _ => still_okOr _) fun _ => .pure _ :
    Still (groupKey group : Handler W _)).bind fun _ => still_okOr _

/-- The two ways to start a key with the group are the same. -/
theorem buildLookupKey_eq (group id : StringField) : (buildLookupKey group id : Handler W _) = buildKey group id := by
  simp [buildLookupKey, buildKey, groupLookupKey, groupKey, wcscpy_s, wcscat_s]

theorem still_prepareUpdate (p : RDPAPPLIST_UPDATE_APPLIST_PDU) (icon : RDPAPPLIST_ICON_DATA) :
    Still (prepareUpdate os p icon) :=
  (still_syncGate os _).bind fun _ => (still_failWhen _).bind fun _ =>
    (still_getThis.bind fun _ => .ite (fun _ => still_buildPath os _ _ _ _) fun _ => .pure _).bind fun _ =>
      (still_getThis.bind fun _ => still_buildPath os _ _ _ _).bind fun _ =>
        (still_getThis.bind fun _ => (still_okOr _).bind fun _ => (still_failWhen _).bind fun _ => .pure _).bind
          fun _ => (still_buildKey _ _).bind fun _ => .pure _

theorem still_registerApp (v : UpdateLocals) : Still (registerApp v : Handler W _) :=
  still_getThis.bind fun _ => (still_deref _).bind fun _ => (still_setThis _).bind fun _ => still_check _

theorem still_finishUpdate (v : UpdateLocals) : Still (finishUpdate os v) :=
  still_getThis.bind fun _ => (still_sys _).bind fun _ => (still_sys _).bind fun _ =>
    (.ite (fun _ => still_setThis _) fun _ => .pure _ : Still (spareReported v _)).bind fun _ =>
      .ite (fun _ => .update _) fun _ => .pure _

/-- What OnUpdateAppList does behind its read scope. -/
theorem still_takeOver (msg : RDPAPPLIST_UPDATE_APPLIST_PDU × RDPAPPLIST_ICON_DATA) :
    Still (prepareUpdate os msg.1 msg.2 >>= fun v => registerApp v >>= fun _ => finishUpdate os v) :=
  (still_prepareUpdate os _ _).bind fun v => (still_registerApp v).bind fun _ => still_finishUpdate os v

theorem local_OnUpdateAppList : Local (OnUpdateAppList os) :=
  (local_ReadUpdateMessage os).bind fun msg => (still_takeOver os msg).toLocal

/-! ## DELETE_APPLIST and ASSOCIATE_WINDOW_ID -/

theorem local_readDelete : Local (readDelete : Handler W _) := (local_ReadAppListDelete.onLocal _).onCopy

theorem still_deleteApp (p : RDPAPPLIST_DELETE_APPLIST_PDU) : Still (deleteApp os p) :=
  (buildLookupKey_eq _ _ ▸ still_buildKey _ _).bind fun _ => still_getThis.bind fun _ => (still_deref _).bind fun _ =>
    (still_failWhen _).bind fun _ => (still_sys _).bind fun _ => (still_sys _).bind fun _ =>
      (still_setThis _).bind fun _ => still_sys _

theorem local_OnDeleteAppList : Local (OnDeleteAppList os) :=
  local_readDelete.bind fun p => (still_deleteApp os p).toLocal

theorem still_relaunchPath (t : WSLDVCCallback) (p : RDPAPPLIST_ASSOCIATE_WINDOW_ID_PDU)
    (r : Option HRESULT × WSLDVCFileDB.Found) : Still (relaunchPath t p r : Handler W _) :=
  .ite (fun _ => (still_okOr _).bind fun _ => (still_failWhen _).bind fun _ => .pure _) fun _ =>
    .ite (fun _ => (still_okOr _).bind fun _ => (still_failWhen _).bind fun _ => .pure _) fun _ => .pure _

theorem local_readAssociate : Local (readAssociate : Handler W _) := (local_ReadAssociateWindowId.onLocal _).onCopy

theorem still_associateWindow (t : WSLDVCCallback) (p : RDPAPPLIST_ASSOCIATE_WINDOW_ID_PDU) :
    Still (associateWindow os t p) :=
  (still_failWhen _).bind fun _ => (buildLookupKey_eq _ _ ▸ still_buildKey _ _).bind fun _ => (still_deref _).bind fun _ =>
    (still_relaunchPath _ _ _).bind fun _ => (still_sys _).bind fun _ => still_sys _

theorem local_OnAssociateWindowId : Local (OnAssociateWindowId os) :=
  still_getThis.toLocal.bind fun t => (still_failWhen _).toLocal.bind fun _ => local_readAssociate.bind fun p =>
    (still_associateWindow os t p).toLocal

/-! ## The loop -/

theorem local_readHeader : Local (readHeader : Handler W _) := local_ReadAppListHeader.onLocal _

theorem local_dispatch (h : RDPAPPLIST_HEADER) : Local (dispatch os h) :=
  Local.ite (fun _ => local_OnCaps os) fun _ => still_getThis.toLocal.bind fun _ => (still_failWhen _).toLocal.bind fun _ =>
    Local.ite (fun _ => local_OnUpdateAppList os) fun _ => Local.ite (fun _ => local_OnDeleteAppList os) fun _ =>
      Local.ite (fun _ => local_pure _) fun _ => Local.ite (fun _ => local_OnAssociateWindowId os) fun _ =>
        local_reject _

theorem local_receive : Local (receive os) := local_readHeader.bind fun h => local_dispatch os h

end Local

/-! ## What an update message is -/

/-- The fields of the icon on the server as the client reads them. -/
def Server.RDPAPPLIST_ICON_DATA.fields (i : Server.RDPAPPLIST_ICON_DATA) : Client.RDPAPPLIST_ICON_DATA :=
  iconFields i.flags i.iconWidth i.iconHeight i.iconStride i.iconBpp i.iconFormat i.iconBitsLength .zero

/-- The client's icon after the read, with its file. -/
def Server.RDPAPPLIST_ICON_DATA.received (i : Server.RDPAPPLIST_ICON_DATA) : Client.RDPAPPLIST_ICON_DATA :=
  { i.fields with iconFileSize := UInt32.ofNat i.fields.fileSize, iconFileData := iconFile i.fields i.iconBits }

/-- The size of the file of an icon with these bits. -/
def iconFileSize (bits : List BYTE) : Nat := sizeofIconHeader + sizeofBitmapInfoHeader + bits.length

theorem accepts_sys_bind {β : Type} {x : SysM W α} {k : α → Handler W β} {m m' : Machine W} {bs : List BYTE} {b : β} :
    Accepts (sys x >>= k) m bs b m' ↔ Accepts (k (x m.sys).1) { m with sys := (x m.sys).2 } bs b m' := Iff.rfl

theorem accepts_readIconFile {icon : RDPAPPLIST_ICON_DATA} {m m' : Machine W} {bs : List BYTE}
    {file : Block icon.fileSize} :
    Accepts (orUndo (onLocal Stop.hr (.zero _) (ReadIconFile icon)) freeIcon) m bs file m' ↔
      bs.length = icon.iconBitsLength.toNat ∧ file.data = iconFile icon bs ∧ m' = m := by
  rw [accepts_orUndo, accepts_onLocal (local_ReadIconFile icon)]
  simp only [accepts_ReadIconFile, exists_const, and_assoc]

theorem accepts_ReadIconBits (os : OS W) {icon icon' : RDPAPPLIST_ICON_DATA} {m m' : Machine W} {bs : List BYTE} :
    Accepts (ReadIconBits os icon) m bs icon' m' ↔
      bs.length = icon.iconBitsLength.toNat ∧ icon.fileSize < 2 ^ 32 ∧ (os.LocalAlloc icon.fileSize m.sys.world).1 ∧
        icon' = { icon with iconFileSize := UInt32.ofNat icon.fileSize, iconFileData := iconFile icon bs } ∧
        m' = { m with sys := (LocalAlloc os icon.fileSize m.sys).2 } := by
  unfold ReadIconBits
  split
  -- the size of the file does not fit into 32 bits
  · rename_i h
    simp only [accepts_reject, false_iff]
    omega
  · rename_i h
    have hlt : icon.fileSize < 2 ^ 32 := by omega
    rw [accepts_sys_bind, LocalAlloc_fst]
    split
    · rename_i ha
      rw [accepts_bind (local_iconFile icon) fun _ => local_pure _]
      simp only [hlt, ha, true_and]
      constructor
      · rintro ⟨bits, _, file, m₁, rfl, h₁, h₂⟩
        obtain ⟨hl, hf, rfl⟩ := accepts_readIconFile.1 h₁
        obtain ⟨rfl, rfl, rfl⟩ := accepts_pure.1 h₂
        rw [List.append_nil]
        exact ⟨hl, by rw [hf], rfl⟩
      · rintro ⟨hl, rfl, rfl⟩
        have hsize : (iconFile icon bs).length = icon.fileSize := by
          simp [iconFile, RDPAPPLIST_ICON_DATA.fileSize, sizeofIconHeader, sizeofBitmapInfoHeader, hl]
          omega
        exact ⟨bs, [], ⟨_, hsize⟩, _, by simp, accepts_readIconFile.2 ⟨hl, rfl, rfl⟩, accepts_pure.2 ⟨rfl, rfl, rfl⟩⟩
    -- no memory
    · rename_i ha
      simp [accepts_reject, ha]

theorem fields_fileSize (i : Server.RDPAPPLIST_ICON_DATA) : i.fields.fileSize = iconFileSize i.iconBits := by
  rw [RDPAPPLIST_ICON_DATA.fileSize, iconFileSize, ← i.iconBitsLength_toNat]
  rfl

theorem exists_icon (flags width height stride bpp format length : UInt32) {bits : List BYTE}
    (h : bits.length = length.toNat) : ∃ i : Server.RDPAPPLIST_ICON_DATA,
      iconHead flags width height stride bpp format length ++ bits = i.payload ∧
      iconFields flags width height stride bpp format length .zero = i.fields ∧ i.iconBits = bits := by
  obtain rfl : length = UInt32.ofNat bits.length := by rw [h, UInt32.ofNat_toNat]
  exact ⟨⟨flags, width, height, stride, bpp, format, bits, h ▸ UInt32.toNat_lt _⟩, rfl, rfl, rfl⟩

theorem accepts_ReadAppListIconData (os : OS W) {icon : RDPAPPLIST_ICON_DATA} {m m' : Machine W} {bs : List BYTE} :
    Accepts (ReadAppListIconData os) m bs icon m' ↔
      ∃ i : Server.RDPAPPLIST_ICON_DATA, bs = i.payload ∧ iconFileSize i.iconBits < 2 ^ 32 ∧
        (os.LocalAlloc (iconFileSize i.iconBits) m.sys.world).1 ∧ icon = i.received ∧
        m' = { m with sys := (LocalAlloc os (iconFileSize i.iconBits) m.sys).2 } := by
  unfold ReadAppListIconData
  rw [accepts_onCopy, accepts_bind (local_ReadIconFields.onLocal _) fun icon => local_ReadIconBits os icon]
  constructor
  · rintro ⟨hd, bits, f, m₁, rfl, h₁, h₂⟩
    obtain ⟨⟨u, h₃⟩, rfl⟩ := (accepts_onLocal local_ReadIconFields).1 h₁
    obtain ⟨flags, width, height, stride, bpp, format, length, rfl, rfl⟩ := accepts_ReadIconFields.1 h₃
    obtain ⟨hl, hlt, ha, rfl, rfl⟩ := (accepts_ReadIconBits os).1 h₂
    obtain ⟨i, hp, hf, rfl⟩ := exists_icon flags width height stride bpp format length hl
    rw [hf] at hlt ha ⊢
    rw [fields_fileSize] at hlt ha
    exact ⟨i, hp, hlt, ha, rfl, by rw [fields_fileSize]⟩
  · rintro ⟨i, rfl, hlt, ha, rfl, rfl⟩
    rw [← fields_fileSize] at hlt ha ⊢
    refine ⟨_, _, i.fields, m, rfl, (accepts_onLocal local_ReadIconFields).2 ⟨⟨⟨⟩, accepts_ReadIconFields.2
      ⟨_, _, _, _, _, _, _, rfl, rfl⟩⟩, rfl⟩, ?_⟩
    exact (accepts_ReadIconBits os).2 ⟨i.iconBitsLength_toNat.symm, hlt, ha, rfl, rfl⟩

namespace Server.RDPAPPLIST_UPDATE_APPLIST_PDU

/-- The icon that is sent: none without the flag. -/
def sentIcon (p : Server.RDPAPPLIST_UPDATE_APPLIST_PDU) : Option Server.RDPAPPLIST_ICON_DATA :=
  if has p.flags RDPAPPLIST_FIELD_ICON then p.appIcon else none

/-- What the client asks of an icon: a file size that fits, and memory for it. -/
structure IconReadable (os : OS W) (m : Machine W) (p : Server.RDPAPPLIST_UPDATE_APPLIST_PDU) : Prop where
  sent : has p.flags RDPAPPLIST_FIELD_ICON = true → p.appIcon.isSome
  size : ∀ i ∈ p.sentIcon, iconFileSize i.iconBits < 2 ^ 32
  alloc : ∀ i ∈ p.sentIcon, (os.LocalAlloc (iconFileSize i.iconBits) m.sys.world).1

def receivedIcon (p : Server.RDPAPPLIST_UPDATE_APPLIST_PDU) : Client.RDPAPPLIST_ICON_DATA :=
  (p.sentIcon.map (·.received)).getD .zero

/-- The machine after the allocation. -/
def allocated (os : OS W) (m : Machine W) (p : Server.RDPAPPLIST_UPDATE_APPLIST_PDU) : Machine W :=
  match p.sentIcon with
  | some i => { m with sys := (LocalAlloc os (iconFileSize i.iconBits) m.sys).2 }
  | none => m

end Server.RDPAPPLIST_UPDATE_APPLIST_PDU

theorem accepts_readIcon (os : OS W) {p : Server.RDPAPPLIST_UPDATE_APPLIST_PDU} {icon : RDPAPPLIST_ICON_DATA}
    {m m' : Machine W} (h : p.IconReadable os m) :
    Accepts (readIcon os p.flags) m p.icon icon m' ↔ icon = p.receivedIcon ∧ m' = p.allocated os m := by
  obtain ⟨hs, hsize, halloc⟩ := h
  unfold readIcon Server.RDPAPPLIST_UPDATE_APPLIST_PDU.icon Server.RDPAPPLIST_UPDATE_APPLIST_PDU.receivedIcon
    Server.RDPAPPLIST_UPDATE_APPLIST_PDU.allocated Server.RDPAPPLIST_UPDATE_APPLIST_PDU.sentIcon at *
  split
  · rename_i hf
    obtain ⟨i, hi⟩ := Option.isSome_iff_exists.1 (hs hf)
    simp only [hf, hi, if_true, Option.mem_some_iff, forall_eq', Option.map_some, Option.getD_some] at hsize halloc ⊢
    have hacc := (accepts_ReadAppListIconData os (m := m)).2 ⟨i, rfl, hsize, halloc, rfl, rfl⟩
    constructor
    · intro h
      obtain ⟨rfl, rfl⟩ := h.det hacc
      exact ⟨rfl, rfl⟩
    · rintro ⟨rfl, rfl⟩
      exact hacc
  · simp [accepts_pure]

theorem accepts_ReadUpdateMessage (os : OS W) {a : RDPAPPLIST_UPDATE_APPLIST_PDU × RDPAPPLIST_ICON_DATA}
    {m m' : Machine W} {bs : List BYTE} :
    Accepts (ReadUpdateMessage os) m bs a m' ↔
      ∃ p : Server.RDPAPPLIST_UPDATE_APPLIST_PDU, bs = p.payload ∧ p.Readable ∧ p.IconReadable os m ∧
        a = (p.received .zero, p.receivedIcon) ∧ m' = p.allocated os m := by
  unfold ReadUpdateMessage
  rw [accepts_onCopy, accepts_bind (local_ReadAppListUpdate.onLocal _) fun _ =>
    (local_readIcon os _).bind fun _ => local_pure _]
  constructor
  · rintro ⟨bs₁, _, o, m₁, rfl, h₁, h⟩
    obtain ⟨⟨u, h₃⟩, rfl⟩ := (accepts_onLocal local_ReadAppListUpdate).1 h₁
    obtain ⟨bs₂, _, icon, m₂, rfl, h₂, h₄⟩ := (accepts_bind (local_readIcon os _) fun _ => local_pure _).1 h
    obtain ⟨rfl, rfl, rfl⟩ := accepts_pure.1 h₄
    rw [List.append_nil]
    by_cases hf : has o.flags RDPAPPLIST_FIELD_ICON = true
    -- the strings do not say which icon follows: it is read first
    · have h₅ := h₂
      rw [readIcon, if_pos hf] at h₅
      obtain ⟨i, rfl, hsize, halloc, -, -⟩ := (accepts_ReadAppListIconData os).1 h₅
      obtain ⟨p, rfl, hp, rfl, hi⟩ := (accepts_ReadAppListUpdate (some i)).1 h₃
      replace hf : has p.flags RDPAPPLIST_FIELD_ICON = true := hf
      have hs : p.sentIcon = some i := by
        rw [Server.RDPAPPLIST_UPDATE_APPLIST_PDU.sentIcon, if_pos hf, hi]
      have hr : p.IconReadable os m₁ := by
        refine ⟨fun _ => by simp [hi], ?_, ?_⟩ <;> rw [hs] <;> rintro _ ⟨⟩
        · exact hsize
        · exact halloc
      have hicon : p.icon = i.payload := by
        rw [Server.RDPAPPLIST_UPDATE_APPLIST_PDU.icon, if_pos hf, hi]
        rfl
      obtain ⟨rfl, rfl⟩ := (accepts_readIcon os hr).1 (hicon ▸ h₂)
      exact ⟨p, by rw [Server.RDPAPPLIST_UPDATE_APPLIST_PDU.payload, hicon], hp, hr, rfl, rfl⟩
    -- no icon is sent
    · rw [readIcon, if_neg hf] at h₂
      obtain ⟨rfl, rfl, rfl⟩ := accepts_pure.1 h₂
      obtain ⟨p, rfl, hp, rfl, -⟩ := (accepts_ReadAppListUpdate none).1 h₃
      replace hf : ¬ has p.flags RDPAPPLIST_FIELD_ICON = true := hf
      have hs : p.sentIcon = none := by rw [Server.RDPAPPLIST_UPDATE_APPLIST_PDU.sentIcon, if_neg hf]
      refine ⟨p, ?_, hp, ⟨fun h => (hf h).elim, by simp [hs], by simp [hs]⟩, ?_, ?_⟩
      · rw [Server.RDPAPPLIST_UPDATE_APPLIST_PDU.payload, Server.RDPAPPLIST_UPDATE_APPLIST_PDU.icon, if_neg hf]
      · rw [Server.RDPAPPLIST_UPDATE_APPLIST_PDU.receivedIcon, hs]
        rfl
      · rw [Server.RDPAPPLIST_UPDATE_APPLIST_PDU.allocated, hs]
  · rintro ⟨p, rfl, hp, hi, rfl, rfl⟩
    refine ⟨p.strings, p.icon, p.received .zero, m, rfl, ?_, ?_⟩
    · exact (accepts_onLocal local_ReadAppListUpdate).2 ⟨⟨⟨⟩, (accepts_ReadAppListUpdate p.appIcon).2
        ⟨p, rfl, hp, rfl, rfl⟩⟩, rfl⟩
    · rw [← List.append_nil p.icon]
      exact ((accepts_readIcon os hi).2 ⟨rfl, rfl⟩).bind (accepts_pure.2 ⟨rfl, rfl, rfl⟩)

end Wslg
