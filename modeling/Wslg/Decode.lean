import Wslg.Wire
/-!
# What the readers take

Each reader takes exactly the bytes of the layout of its message and rejects
everything else, whatever stands around them and without leaving the buffer.
-/

open Lib

namespace Wslg

variable {σ : Type}

/-! ## Numbers -/

theorem local_ReadUINT16 : Local (ReadUINT16 : Reader HRESULT σ UInt16) :=
  (local_takeBytes _ _).bind fun _ => local_pure _

theorem local_ReadUINT32 : Local (ReadUINT32 : Reader HRESULT σ UInt32) :=
  (local_takeBytes _ _).bind fun _ => local_pure _

theorem accepts_ReadUINT16 {o o' : σ} {bs : List BYTE} {v : UInt16} :
    Accepts ReadUINT16 o bs v o' ↔ bs = le16 v ∧ o' = o := by
  unfold ReadUINT16
  rw [accepts_bind (local_takeBytes _ _) fun _ => local_pure _]
  constructor
  · rintro ⟨bs₁, bs₂, a, o₁, rfl, h₁, h₂⟩
    obtain ⟨hl, rfl, rfl⟩ := accepts_takeBytes.1 h₁
    obtain ⟨rfl, rfl, rfl⟩ := accepts_pure.1 h₂
    exact ⟨by rw [le16_read16 hl, List.append_nil], rfl⟩
  · rintro ⟨rfl, rfl⟩
    exact ⟨le16 v, [], le16 v, o', by simp, accepts_takeBytes.2 ⟨le16_length v, rfl, rfl⟩,
      accepts_pure.2 ⟨rfl, by simp, rfl⟩⟩

theorem accepts_ReadUINT32 {o o' : σ} {bs : List BYTE} {v : UInt32} :
    Accepts ReadUINT32 o bs v o' ↔ bs = le32 v ∧ o' = o := by
  unfold ReadUINT32
  rw [accepts_bind (local_takeBytes _ _) fun _ => local_pure _]
  constructor
  · rintro ⟨bs₁, bs₂, a, o₁, rfl, h₁, h₂⟩
    obtain ⟨hl, rfl, rfl⟩ := accepts_takeBytes.1 h₁
    obtain ⟨rfl, rfl, rfl⟩ := accepts_pure.1 h₂
    exact ⟨by rw [le32_read32 hl, List.append_nil], rfl⟩
  · rintro ⟨rfl, rfl⟩
    exact ⟨le32 v, [], le32 v, o', by simp, accepts_takeBytes.2 ⟨le32_length v, rfl, rfl⟩,
      accepts_pure.2 ⟨rfl, by simp, rfl⟩⟩

/-- A number read into the message, and what follows. -/
theorem accepts_readUINT32_then {α : Type} {f : UInt32 → σ → σ} {k : UInt32 → Reader HRESULT σ α}
    (hk : ∀ v, Local (k v)) {o o' : σ} {bs : List BYTE} {a : α} :
    Accepts (do let v ← ReadUINT32; update (f v); k v) o bs a o' ↔
      ∃ v rst, bs = le32 v ++ rst ∧ Accepts (k v) (f v o) rst a o' := by
  rw [accepts_bind local_ReadUINT32 fun v => (local_update _).bind fun _ => hk v]
  constructor
  · rintro ⟨bs₁, bs₂, v, o₁, rfl, h₁, h₂⟩
    obtain ⟨rfl, rfl⟩ := accepts_ReadUINT32.1 h₁
    exact ⟨v, bs₂, rfl, accepts_update_bind.1 h₂⟩
  · rintro ⟨v, rst, rfl, h⟩
    exact ⟨le32 v, rst, v, o, rfl, accepts_ReadUINT32.2 ⟨rfl, rfl⟩, accepts_update_bind.2 h⟩

theorem local_readUINT32_then {α : Type} {f : UInt32 → σ → σ} {k : UInt32 → Reader HRESULT σ α}
    (hk : ∀ v, Local (k v)) : Local (do let v ← ReadUINT32; update (f v); k v) :=
  local_ReadUINT32.bind fun v => (local_update _).bind fun _ => hk v

/-! ## Strings -/

/-- The array after `memcpy` and the terminator. -/
def WCharArray.write {n : Nat} (a : WCharArray n) (body : List BYTE) : WCharArray n :=
  ⟨(memcpy a.data body).set (body.length / 2) 0, by simp [a.size]⟩

/-- The field after `ReadSTRING` has read `body`. -/
def StringField.put (f : StringField) (body : List BYTE) : StringField where
  length := UInt16.ofNat body.length
  chars := if body = [] then f.chars else f.chars.write body

def optPut (flags field : UInt32) (f : StringField) (body : List BYTE) : StringField :=
  if has flags field then f.put body else f

/-- What `ReadSTRING` asks of a string. -/
def Readable (required : Bool) (body : List BYTE) : Prop :=
  body.length + 2 ≤ 2 * RDPAPPLIST_MAX_STRING_SIZE_IN_WCHAR ∧ (required = true → body ≠ [])

/-- The same of a string that may be missing. -/
def OptReadable (flags field : UInt32) (required : Bool) (body : List BYTE) : Prop :=
  has flags field = true → Readable required body

theorem copy_store {n : Nat} (a : WCharArray n) {body : List BYTE} (h : body.length + 2 ≤ 2 * n) :
    ∃ c, a.copy body = some c ∧ c.store (body.length / 2) 0 = some (a.write body) := by
  refine ⟨⟨memcpy a.data body, by simp [a.size]⟩, by simp [WCharArray.copy, show body.length ≤ 2 * n by omega], ?_⟩
  simp [WCharArray.store, WCharArray.write, show body.length / 2 < n by omega]

section ReadSTRING

variable (o : Field σ) (required : Bool)

variable {o} in
theorem copyBody_isSome {n : Nat} (hn : n + 2 ≤ 2 * RDPAPPLIST_MAX_STRING_SIZE_IN_WCHAR) (bs : List BYTE) (out : σ)
    (hl : bs.length = n) : (copyBody o bs out).isSome := by
  simp only [copyBody, WCharArray.copy, if_pos (show bs.length ≤ 2 * RDPAPPLIST_MAX_STRING_SIZE_IN_WCHAR by omega)]
  rfl

variable {o} in
theorem terminate_isSome {n : Nat} (hn : n + 2 ≤ 2 * RDPAPPLIST_MAX_STRING_SIZE_IN_WCHAR) (out : σ) :
    (terminate o n out).isSome := by
  simp only [terminate, WCharArray.store, if_pos (show n / 2 < RDPAPPLIST_MAX_STRING_SIZE_IN_WCHAR by omega)]
  rfl

/-- `ReadSTRING` behind its count. -/
def ReadCounted (n : UInt16) : Reader HRESULT σ PUnit :=
  if 2 * RDPAPPLIST_MAX_STRING_SIZE_IN_WCHAR < n.toNat + 2 then reject .E_FAIL
  else if n.toNat ≠ 0 then do
    readInto .E_FAIL n.toNat (copyBody o)
    store (terminate o n.toNat)
  else if required then reject .E_FAIL
  else pure ⟨⟩

theorem ReadSTRING_eq : ReadSTRING o required = (do
    let n ← ReadUINT16
    update (fun out => o.set { o.get out with length := n } out)
    ReadCounted o required n) := rfl

theorem local_ReadCounted (n : UInt16) : Local (ReadCounted o required n) :=
  Local.ite (fun _ => local_reject _) fun hn => Local.ite
    (fun _ => (local_readInto (copyBody_isSome (by omega))).bind fun _ => local_store (terminate_isSome (by omega)))
    fun _ => Local.ite (fun _ => local_reject _) fun _ => local_pure _

theorem local_ReadSTRING : Local (ReadSTRING o required) :=
  local_ReadUINT16.bind fun n => (local_update _).bind fun _ => local_ReadCounted o required n

theorem ReadSTRING_accepts {body : List BYTE} (h : Readable required body) (out : σ) :
    Accepts (ReadSTRING o required) out (strBytes body) ⟨⟩ (o.set ((o.get out).put body) out) := by
  obtain ⟨hlen, hreq⟩ := h
  have hn : (UInt16.ofNat body.length).toNat = body.length := by
    simp only [RDPAPPLIST_MAX_STRING_SIZE_IN_WCHAR, UInt16.toNat_ofNat'] at hlen ⊢
    omega
  rw [ReadSTRING_eq]
  refine (accepts_ReadUINT16.2 ⟨rfl, rfl⟩).bind (accepts_update_bind.2 ?_)
  rw [ReadCounted, if_neg (by rw [hn]; omega), hn]
  by_cases hb : body = []
  -- an empty string leaves the characters as they are
  · subst hb
    rw [if_neg (by simp), if_neg (by simpa using hreq), accepts_pure]
    exact ⟨rfl, rfl, by simp [StringField.put]⟩
  · obtain ⟨c, hc, hs⟩ := copy_store (o.get out).chars hlen
    -- the length is stored first, then the characters, then the terminator
    have hcopy : copyBody o body (o.set { o.get out with length := UInt16.ofNat body.length } out) =
        some (o.set { length := UInt16.ofNat body.length, chars := c } out) := by
      simp [copyBody, o.get_set, o.set_set, hc]
    have hread := readInto_accepts (e := HRESULT.E_FAIL) hcopy
    have hterm : Accepts (store (terminate o body.length) : Reader HRESULT σ PUnit)
        (o.set { length := UInt16.ofNat body.length, chars := c } out) [] ⟨⟩ (o.set ((o.get out).put body) out) :=
      accepts_store.2 ⟨rfl, by simp [terminate, o.get_set, o.set_set, hs, StringField.put, hb]⟩
    have h := hread.bind (f := fun _ => store (terminate o body.length)) hterm
    rw [List.append_nil] at h
    rwa [if_pos (by simpa using hb)]

theorem accepts_ReadSTRING_body {out out' : σ} {bs : List BYTE} {u : PUnit}
    (h : Accepts (ReadSTRING o required) out bs u out') : ∃ body, bs = strBytes body ∧ Readable required body := by
  rw [ReadSTRING_eq, accepts_bind local_ReadUINT16 fun n => (local_update _).bind fun _ =>
    local_ReadCounted o required n] at h
  obtain ⟨bs₁, body, n, o₁, rfl, h₁, h₂⟩ := h
  obtain ⟨rfl, rfl⟩ := accepts_ReadUINT16.1 h₁
  rw [accepts_update_bind, ReadCounted] at h₂
  split at h₂
  -- too long
  · exact (accepts_reject.1 h₂).elim
  · rename_i hlen
    split at h₂
    · rename_i hn
      have hcopy := copyBody_isSome (o := o) (n := n.toNat) (by omega)
      obtain ⟨body, rst, _, o₂, rfl, hr, hs⟩ := (accepts_bind (local_readInto hcopy)
        fun _ => local_store (terminate_isSome (by omega))).1 h₂
      have hl : body.length = n.toNat := ((accepts_readInto hcopy).1 hr).1
      obtain ⟨rfl, -⟩ := accepts_store.1 hs
      refine ⟨body, by simp [strBytes, hl], by omega, ?_⟩
      rintro - rfl
      simp_all
    · rename_i hn
      split at h₂
      -- required, and empty
      · exact (accepts_reject.1 h₂).elim
      · rename_i hreq
        obtain ⟨rfl, -, -⟩ := accepts_pure.1 h₂
        have h0 : n = 0 := UInt16.toNat_inj.1 (by simpa using hn)
        exact ⟨[], by simp [strBytes, h0], by simp [RDPAPPLIST_MAX_STRING_SIZE_IN_WCHAR], by simpa using hreq⟩

/-- `ReadSTRING` takes a counted string and puts it into its field. -/
theorem accepts_ReadSTRING {out out' : σ} {bs : List BYTE} {u : PUnit} :
    Accepts (ReadSTRING o required) out bs u out' ↔
      ∃ t : RAIL_UNICODE_STRING, bs = strBytes t.string ∧ Readable required t.string ∧
        out' = o.set ((o.get out).put t.string) out := by
  constructor
  · intro h
    obtain ⟨body, rfl, hb⟩ := accepts_ReadSTRING_body o required h
    obtain ⟨-, rfl⟩ := h.det (ReadSTRING_accepts o required hb out)
    exact ⟨⟨body, by have := hb.1; simp only [RDPAPPLIST_MAX_STRING_SIZE_IN_WCHAR] at this; omega⟩, rfl, hb, rfl⟩
  · rintro ⟨t, rfl, h, rfl⟩
    exact ReadSTRING_accepts o required h out

end ReadSTRING

/-! ## Flags -/

theorem local_CheckRequiredFlags (flags required : UInt32) :
    Local (CheckRequiredFlags flags required : Reader HRESULT σ PUnit) :=
  Local.ite (fun _ => local_reject _) fun _ => local_pure _

theorem accepts_CheckRequiredFlags {flags required : UInt32} {out out' : σ} {bs : List BYTE} {u : PUnit} :
    Accepts (CheckRequiredFlags flags required) out bs u out' ↔
      bs = [] ∧ flags &&& required = required ∧ out' = out := by
  unfold CheckRequiredFlags
  split
  · rename_i h
    simp [accepts_reject, h]
  · rename_i h
    simp only [not_not] at h
    simp [accepts_pure, h]

theorem local_ReadFlaggedSTRING (flags field : UInt32) (o : Field σ) (required : Bool) :
    Local (ReadFlaggedSTRING flags field o required) :=
  Local.ite (fun _ => local_ReadSTRING o required) fun _ => local_pure _

/-- With the flag set a counted string goes to its field, else nothing happens. -/
theorem accepts_ReadFlaggedSTRING {flags field : UInt32} {o : Field σ} {required : Bool} {out out' : σ}
    {bs : List BYTE} {u : PUnit} :
    Accepts (ReadFlaggedSTRING flags field o required) out bs u out' ↔
      ∃ t : RAIL_UNICODE_STRING, bs = optBytes flags field t.string ∧ OptReadable flags field required t.string ∧
        out' = o.set (optPut flags field (o.get out) t.string) out := by
  unfold ReadFlaggedSTRING optBytes OptReadable optPut
  split
  · rename_i h
    simp only [accepts_ReadSTRING, h, true_implies]
  · rename_i h
    simp only [accepts_pure, h, o.set_get, false_implies, true_and, Bool.false_eq_true]
    exact ⟨fun h => ⟨⟨[], by simp⟩, h⟩, fun ⟨_, h⟩ => h⟩

theorem local_flagged_then {α : Type} {flags field : UInt32} {o : Field σ} {required : Bool}
    {k : PUnit → Reader HRESULT σ α} (hk : Local (k ⟨⟩)) : Local (ReadFlaggedSTRING flags field o required >>= k) :=
  (local_ReadFlaggedSTRING _ _ _ _).bind fun _ => hk

theorem accepts_flagged_then {α : Type} {flags field : UInt32} {o : Field σ} {required : Bool}
    {k : PUnit → Reader HRESULT σ α} (hk : Local (k ⟨⟩)) {out out' : σ} {bs : List BYTE} {a : α} :
    Accepts (ReadFlaggedSTRING flags field o required >>= k) out bs a out' ↔
      ∃ (t : RAIL_UNICODE_STRING) (rst : List BYTE), bs = optBytes flags field t.string ++ rst ∧
        OptReadable flags field required t.string ∧
        Accepts (k ⟨⟩) (o.set (optPut flags field (o.get out) t.string) out) rst a out' := by
  rw [accepts_bind (local_ReadFlaggedSTRING _ _ _ _) fun _ => hk]
  constructor
  · rintro ⟨bs₁, rst, u, o₁, rfl, h₁, h₂⟩
    obtain ⟨t, rfl, ht, rfl⟩ := accepts_ReadFlaggedSTRING.1 h₁
    exact ⟨t, rst, rfl, ht, h₂⟩
  · rintro ⟨t, rst, rfl, ht, h⟩
    exact ⟨_, rst, ⟨⟩, _, rfl, accepts_ReadFlaggedSTRING.2 ⟨t, rfl, ht, rfl⟩, h⟩

theorem accepts_required_then {α : Type} {flags required : UInt32} {k : PUnit → Reader HRESULT σ α} (hk : Local (k ⟨⟩))
    {out out' : σ} {bs : List BYTE} {a : α} :
    Accepts (CheckRequiredFlags flags required >>= k) out bs a out' ↔
      flags &&& required = required ∧ Accepts (k ⟨⟩) out bs a out' := by
  rw [accepts_bind (local_CheckRequiredFlags _ _) fun _ => hk]
  constructor
  · rintro ⟨bs₁, rst, u, o₁, rfl, h₁, h₂⟩
    obtain ⟨rfl, hf, rfl⟩ := accepts_CheckRequiredFlags.1 h₁
    exact ⟨hf, h₂⟩
  · rintro ⟨hf, h⟩
    exact ⟨[], bs, ⟨⟩, out, rfl, accepts_CheckRequiredFlags.2 ⟨rfl, hf, rfl⟩, h⟩

/-! ## Messages -/

open Client

theorem local_ReadAppListHeader : Local ReadAppListHeader :=
  (local_readUINT32_then fun _ => local_ReadUINT32.bind fun _ => local_update _).onCopy

theorem accepts_ReadAppListHeader {h h' : RDPAPPLIST_HEADER} {bs : List BYTE} {u : PUnit} :
    Accepts ReadAppListHeader h bs u h' ↔ bs = headerBytes h' := by
  unfold ReadAppListHeader
  rw [accepts_onCopy, accepts_readUINT32_then fun _ => local_ReadUINT32.bind fun _ => local_update _]
  constructor
  · rintro ⟨cmdId, rst, rfl, h⟩
    obtain ⟨bs₁, bs₂, length, o₁, rfl, h₁, h₂⟩ := (accepts_bind local_ReadUINT32 fun _ => local_update _).1 h
    obtain ⟨rfl, rfl⟩ := accepts_ReadUINT32.1 h₁
    obtain ⟨rfl, rfl⟩ := accepts_update.1 h₂
    simp [headerBytes]
  · rintro rfl
    refine ⟨h'.cmdId, le32 h'.length, rfl, ?_⟩
    rw [← List.append_nil (le32 _)]
    exact (accepts_ReadUINT32.2 ⟨rfl, rfl⟩).bind (accepts_update.2 ⟨rfl, rfl⟩)

/-! ### CAPS -/

namespace Server.RDPAPPLIST_SERVER_CAPS_PDU

/-- What the client asks of a message. -/
structure Readable (p : Server.RDPAPPLIST_SERVER_CAPS_PDU) : Prop where
  name : Wslg.Readable true p.appListProviderName.string
  uniqueId : 4 ≤ p.version → Wslg.Readable true p.appListProviderUniqueId.string

/-- The part of the message that the client reads. -/
def taken (p : Server.RDPAPPLIST_SERVER_CAPS_PDU) : List BYTE :=
  le16 p.version ++ strBytes p.appListProviderName.string ++
    (if 4 ≤ p.version then strBytes p.appListProviderUniqueId.string else [])

/-- The client's copy `c` after the read. -/
def received (p : Server.RDPAPPLIST_SERVER_CAPS_PDU) (c : Client.RDPAPPLIST_SERVER_CAPS_PDU) :
    Client.RDPAPPLIST_SERVER_CAPS_PDU where
  version := p.version
  appListProviderName := c.appListProviderName.put p.appListProviderName.string
  appListProviderUniqueId := if 4 ≤ p.version then c.appListProviderUniqueId.put p.appListProviderUniqueId.string
    else c.appListProviderUniqueId

end Server.RDPAPPLIST_SERVER_CAPS_PDU

theorem local_ReadAppListServerCaps : Local ReadAppListServerCaps :=
  (local_ReadUINT16.bind fun _ => (local_update _).bind fun _ => (local_ReadSTRING _ _).bind fun _ =>
    Local.ite (fun _ => local_ReadSTRING _ _) fun _ => local_pure _).onCopy

theorem accepts_ReadAppListServerCaps {c c' : RDPAPPLIST_SERVER_CAPS_PDU} {bs : List BYTE} {u : PUnit} :
    Accepts ReadAppListServerCaps c bs u c' ↔
      ∃ p : Server.RDPAPPLIST_SERVER_CAPS_PDU, bs = p.taken ∧ p.Readable ∧ c' = p.received c := by
  unfold ReadAppListServerCaps
  rw [accepts_onCopy, accepts_bind local_ReadUINT16 fun _ => (local_update _).bind fun _ =>
    (local_ReadSTRING _ _).bind fun _ => Local.ite (fun _ => local_ReadSTRING _ _) fun _ => local_pure _]
  constructor
  · rintro ⟨bs₁, bs₂, version, o₁, rfl, h₁, h₂⟩
    obtain ⟨rfl, rfl⟩ := accepts_ReadUINT16.1 h₁
    obtain ⟨bs₃, bs₄, u, o₂, rfl, h₃, h₄⟩ := (accepts_bind (local_ReadSTRING _ _) fun _ =>
      Local.ite (fun _ => local_ReadSTRING _ _) fun _ => local_pure _).1 (accepts_update_bind.1 h₂)
    obtain ⟨name, rfl, hname, rfl⟩ := (accepts_ReadSTRING _ _).1 h₃
    split at h₄
    · rename_i hv
      obtain ⟨uniqueId, rfl, hu, rfl⟩ := (accepts_ReadSTRING _ _).1 h₄
      refine ⟨⟨version, name, uniqueId⟩, ?_, ⟨hname, fun _ => hu⟩, ?_⟩
      · simp [Server.RDPAPPLIST_SERVER_CAPS_PDU.taken, hv]
      · simp only [Server.RDPAPPLIST_SERVER_CAPS_PDU.received, hv, if_true]
        rfl
    -- up to version 3 there is no unique id; any is as good
    · rename_i hv
      obtain ⟨rfl, -, rfl⟩ := accepts_pure.1 h₄
      refine ⟨⟨version, name, name⟩, ?_, ⟨hname, fun _ => hname⟩, ?_⟩
      · simp [Server.RDPAPPLIST_SERVER_CAPS_PDU.taken, hv]
      · simp only [Server.RDPAPPLIST_SERVER_CAPS_PDU.received, hv, if_false]
        rfl
  · rintro ⟨p, rfl, h, rfl⟩
    refine ⟨_, _, p.version, c, List.append_assoc _ _ _, accepts_ReadUINT16.2 ⟨rfl, rfl⟩, accepts_update_bind.2 ?_⟩
    refine ((accepts_ReadSTRING _ _).2 ⟨p.appListProviderName, rfl, h.name, rfl⟩).bind (a := ⟨⟩) ?_
    unfold Server.RDPAPPLIST_SERVER_CAPS_PDU.received
    split
    · exact (accepts_ReadSTRING _ _).2 ⟨p.appListProviderUniqueId, rfl, h.uniqueId ‹_›, rfl⟩
    · exact accepts_pure.2 ⟨rfl, rfl, rfl⟩

/-! ### UPDATE_APPLIST -/

namespace Server.RDPAPPLIST_UPDATE_APPLIST_PDU

structure Readable (p : Server.RDPAPPLIST_UPDATE_APPLIST_PDU) : Prop where
  required : p.flags &&& (RDPAPPLIST_FIELD_ID ||| RDPAPPLIST_FIELD_EXECPATH ||| RDPAPPLIST_FIELD_DESC) =
    RDPAPPLIST_FIELD_ID ||| RDPAPPLIST_FIELD_EXECPATH ||| RDPAPPLIST_FIELD_DESC
  id : OptReadable p.flags RDPAPPLIST_FIELD_ID true p.appId.string
  group : OptReadable p.flags RDPAPPLIST_FIELD_GROUP false p.appGroup.string
  execPath : OptReadable p.flags RDPAPPLIST_FIELD_EXECPATH true p.appExecPath.string
  workingDir : OptReadable p.flags RDPAPPLIST_FIELD_WORKINGDIR false p.appWorkingDir.string
  desc : OptReadable p.flags RDPAPPLIST_FIELD_DESC true p.appDesc.string

def received (p : Server.RDPAPPLIST_UPDATE_APPLIST_PDU) (o : Client.RDPAPPLIST_UPDATE_APPLIST_PDU) :
    Client.RDPAPPLIST_UPDATE_APPLIST_PDU where
  flags := p.flags
  appId := optPut p.flags RDPAPPLIST_FIELD_ID o.appId p.appId.string
  appGroup := optPut p.flags RDPAPPLIST_FIELD_GROUP o.appGroup p.appGroup.string
  appExecPath := optPut p.flags RDPAPPLIST_FIELD_EXECPATH o.appExecPath p.appExecPath.string
  appWorkingDir := optPut p.flags RDPAPPLIST_FIELD_WORKINGDIR o.appWorkingDir p.appWorkingDir.string
  appDesc := optPut p.flags RDPAPPLIST_FIELD_DESC o.appDesc p.appDesc.string

end Server.RDPAPPLIST_UPDATE_APPLIST_PDU

theorem local_required_then {α : Type} {flags required : UInt32} {k : PUnit → Reader HRESULT σ α}
    (hk : Local (k ⟨⟩)) : Local (CheckRequiredFlags flags required >>= k) :=
  (local_CheckRequiredFlags _ _).bind fun _ => hk

theorem local_ReadAppListUpdate : Local ReadAppListUpdate :=
  (local_readUINT32_then fun _ => local_required_then <| local_flagged_then <| local_flagged_then <|
    local_flagged_then <| local_flagged_then <| local_ReadFlaggedSTRING _ _ _ _).onCopy

/-- The icon comes after what `ReadAppListUpdate` takes, whatever it is. -/
theorem accepts_ReadAppListUpdate {o o' : RDPAPPLIST_UPDATE_APPLIST_PDU} {bs : List BYTE} {u : PUnit}
    (icon : Option Server.RDPAPPLIST_ICON_DATA) :
    Accepts ReadAppListUpdate o bs u o' ↔
      ∃ p : Server.RDPAPPLIST_UPDATE_APPLIST_PDU, bs = p.strings ∧ p.Readable ∧ o' = p.received o ∧ p.appIcon = icon := by
  unfold ReadAppListUpdate
  rw [accepts_onCopy, accepts_readUINT32_then fun _ => local_required_then <| local_flagged_then <|
    local_flagged_then <| local_flagged_then <| local_flagged_then <| local_ReadFlaggedSTRING _ _ _ _]
  constructor
  · rintro ⟨flags, _, rfl, h⟩
    obtain ⟨hreq, h⟩ := (accepts_required_then (local_flagged_then <| local_flagged_then <| local_flagged_then <|
      local_flagged_then <| local_ReadFlaggedSTRING _ _ _ _)).1 h
    obtain ⟨id, _, rfl, hid, h⟩ := (accepts_flagged_then (local_flagged_then <| local_flagged_then <|
      local_flagged_then <| local_ReadFlaggedSTRING _ _ _ _)).1 h
    obtain ⟨group, _, rfl, hgroup, h⟩ := (accepts_flagged_then (local_flagged_then <| local_flagged_then <|
      local_ReadFlaggedSTRING _ _ _ _)).1 h
    obtain ⟨execPath, _, rfl, hexec, h⟩ := (accepts_flagged_then (local_flagged_then <|
      local_ReadFlaggedSTRING _ _ _ _)).1 h
    obtain ⟨workingDir, _, rfl, hdir, h⟩ := (accepts_flagged_then (local_ReadFlaggedSTRING _ _ _ _)).1 h
    obtain ⟨desc, rfl, hdesc, rfl⟩ := accepts_ReadFlaggedSTRING.1 h
    refine ⟨⟨flags, id, group, execPath, workingDir, desc, icon⟩, ?_, ⟨hreq, hid, hgroup, hexec, hdir, hdesc⟩, rfl, rfl⟩
    simp [Server.RDPAPPLIST_UPDATE_APPLIST_PDU.strings]
  · rintro ⟨p, rfl, h, rfl, -⟩
    refine ⟨p.flags, _, by simp only [Server.RDPAPPLIST_UPDATE_APPLIST_PDU.strings, List.append_assoc]; rfl, ?_⟩
    refine (accepts_required_then (local_flagged_then <| local_flagged_then <| local_flagged_then <|
      local_flagged_then <| local_ReadFlaggedSTRING _ _ _ _)).2 ⟨h.required, ?_⟩
    refine (accepts_ReadFlaggedSTRING.2 ⟨_, rfl, h.id, rfl⟩).bind (a := ⟨⟩) ?_
    refine (accepts_ReadFlaggedSTRING.2 ⟨_, rfl, h.group, rfl⟩).bind (a := ⟨⟩) ?_
    refine (accepts_ReadFlaggedSTRING.2 ⟨_, rfl, h.execPath, rfl⟩).bind (a := ⟨⟩) ?_
    refine (accepts_ReadFlaggedSTRING.2 ⟨_, rfl, h.workingDir, rfl⟩).bind (a := ⟨⟩) ?_
    exact accepts_ReadFlaggedSTRING.2 ⟨_, rfl, h.desc, rfl⟩

/-! ### DELETE_APPLIST -/

namespace Server.RDPAPPLIST_DELETE_APPLIST_PDU

structure Readable (p : Server.RDPAPPLIST_DELETE_APPLIST_PDU) : Prop where
  required : p.flags &&& RDPAPPLIST_FIELD_ID = RDPAPPLIST_FIELD_ID
  id : OptReadable p.flags RDPAPPLIST_FIELD_ID true p.appId.string
  group : OptReadable p.flags RDPAPPLIST_FIELD_GROUP false p.appGroup.string

def received (p : Server.RDPAPPLIST_DELETE_APPLIST_PDU) (o : Client.RDPAPPLIST_DELETE_APPLIST_PDU) :
    Client.RDPAPPLIST_DELETE_APPLIST_PDU where
  flags := p.flags
  appId := optPut p.flags RDPAPPLIST_FIELD_ID o.appId p.appId.string
  appGroup := optPut p.flags RDPAPPLIST_FIELD_GROUP o.appGroup p.appGroup.string

end Server.RDPAPPLIST_DELETE_APPLIST_PDU

theorem local_ReadAppListDelete : Local ReadAppListDelete :=
  (local_readUINT32_then fun _ => local_required_then <| local_flagged_then <| local_ReadFlaggedSTRING _ _ _ _).onCopy

theorem accepts_ReadAppListDelete {o o' : RDPAPPLIST_DELETE_APPLIST_PDU} {bs : List BYTE} {u : PUnit} :
    Accepts ReadAppListDelete o bs u o' ↔
      ∃ p : Server.RDPAPPLIST_DELETE_APPLIST_PDU, bs = p.payload ∧ p.Readable ∧ o' = p.received o := by
  unfold ReadAppListDelete
  rw [accepts_onCopy, accepts_readUINT32_then fun _ => local_required_then <| local_flagged_then <|
    local_ReadFlaggedSTRING _ _ _ _]
  constructor
  · rintro ⟨flags, _, rfl, h⟩
    obtain ⟨hreq, h⟩ := (accepts_required_then (local_flagged_then <| local_ReadFlaggedSTRING _ _ _ _)).1 h
    obtain ⟨id, _, rfl, hid, h⟩ := (accepts_flagged_then (local_ReadFlaggedSTRING _ _ _ _)).1 h
    obtain ⟨group, rfl, hgroup, rfl⟩ := accepts_ReadFlaggedSTRING.1 h
    refine ⟨⟨flags, id, group⟩, ?_, ⟨hreq, hid, hgroup⟩, rfl⟩
    simp [Server.RDPAPPLIST_DELETE_APPLIST_PDU.payload]
  · rintro ⟨p, rfl, h, rfl⟩
    refine ⟨p.flags, _, by simp only [Server.RDPAPPLIST_DELETE_APPLIST_PDU.payload, List.append_assoc]; rfl, ?_⟩
    refine (accepts_required_then (local_flagged_then <| local_ReadFlaggedSTRING _ _ _ _)).2 ⟨h.required, ?_⟩
    refine (accepts_ReadFlaggedSTRING.2 ⟨_, rfl, h.id, rfl⟩).bind (a := ⟨⟩) ?_
    exact accepts_ReadFlaggedSTRING.2 ⟨_, rfl, h.group, rfl⟩

/-! ### ASSOCIATE_WINDOW_ID -/

namespace Server.RDPAPPLIST_ASSOCIATE_WINDOW_ID_PDU

structure Readable (p : Server.RDPAPPLIST_ASSOCIATE_WINDOW_ID_PDU) : Prop where
  required : p.flags &&& (RDPAPPLIST_FIELD_ID ||| RDPAPPLIST_FIELD_WINDOW_ID) =
    RDPAPPLIST_FIELD_ID ||| RDPAPPLIST_FIELD_WINDOW_ID
  id : OptReadable p.flags RDPAPPLIST_FIELD_ID true p.appId.string
  group : OptReadable p.flags RDPAPPLIST_FIELD_GROUP false p.appGroup.string
  execPath : OptReadable p.flags RDPAPPLIST_FIELD_EXECPATH true p.appExecPath.string
  desc : OptReadable p.flags RDPAPPLIST_FIELD_DESC true p.appDesc.string

def received (p : Server.RDPAPPLIST_ASSOCIATE_WINDOW_ID_PDU) (o : Client.RDPAPPLIST_ASSOCIATE_WINDOW_ID_PDU) :
    Client.RDPAPPLIST_ASSOCIATE_WINDOW_ID_PDU where
  flags := p.flags
  appWindowId := p.appWindowId
  appId := optPut p.flags RDPAPPLIST_FIELD_ID o.appId p.appId.string
  appGroup := optPut p.flags RDPAPPLIST_FIELD_GROUP o.appGroup p.appGroup.string
  appExecPath := optPut p.flags RDPAPPLIST_FIELD_EXECPATH o.appExecPath p.appExecPath.string
  appDesc := optPut p.flags RDPAPPLIST_FIELD_DESC o.appDesc p.appDesc.string

end Server.RDPAPPLIST_ASSOCIATE_WINDOW_ID_PDU

theorem local_ReadAssociateWindowId : Local ReadAssociateWindowId :=
  (local_readUINT32_then fun _ => local_required_then <| local_readUINT32_then fun _ => local_flagged_then <|
    local_flagged_then <| local_flagged_then <| local_ReadFlaggedSTRING _ _ _ _).onCopy

theorem accepts_ReadAssociateWindowId {o o' : RDPAPPLIST_ASSOCIATE_WINDOW_ID_PDU} {bs : List BYTE} {u : PUnit} :
    Accepts ReadAssociateWindowId o bs u o' ↔
      ∃ p : Server.RDPAPPLIST_ASSOCIATE_WINDOW_ID_PDU, bs = p.payload ∧ p.Readable ∧ o' = p.received o := by
  unfold ReadAssociateWindowId
  rw [accepts_onCopy, accepts_readUINT32_then fun _ => local_required_then <| local_readUINT32_then fun _ =>
    local_flagged_then <| local_flagged_then <| local_flagged_then <| local_ReadFlaggedSTRING _ _ _ _]
  constructor
  · rintro ⟨flags, _, rfl, h⟩
    obtain ⟨hreq, h⟩ := (accepts_required_then (local_readUINT32_then fun _ => local_flagged_then <|
      local_flagged_then <| local_flagged_then <| local_ReadFlaggedSTRING _ _ _ _)).1 h
    obtain ⟨appWindowId, _, rfl, h'⟩ := (accepts_readUINT32_then fun _ => local_flagged_then <|
      local_flagged_then <| local_flagged_then <| local_ReadFlaggedSTRING _ _ _ _).1 h
    obtain ⟨id, _, rfl, hid, h⟩ := (accepts_flagged_then (local_flagged_then <| local_flagged_then <|
      local_ReadFlaggedSTRING _ _ _ _)).1 h'
    obtain ⟨group, _, rfl, hgroup, h⟩ := (accepts_flagged_then (local_flagged_then <|
      local_ReadFlaggedSTRING _ _ _ _)).1 h
    obtain ⟨execPath, _, rfl, hexec, h⟩ := (accepts_flagged_then (local_ReadFlaggedSTRING _ _ _ _)).1 h
    obtain ⟨desc, rfl, hdesc, rfl⟩ := accepts_ReadFlaggedSTRING.1 h
    refine ⟨⟨flags, appWindowId, id, group, execPath, desc⟩, ?_, ⟨hreq, hid, hgroup, hexec, hdesc⟩, rfl⟩
    simp [Server.RDPAPPLIST_ASSOCIATE_WINDOW_ID_PDU.payload]
  · rintro ⟨p, rfl, h, rfl⟩
    refine ⟨p.flags, _, by simp only [Server.RDPAPPLIST_ASSOCIATE_WINDOW_ID_PDU.payload, List.append_assoc]; rfl, ?_⟩
    refine (accepts_required_then (local_readUINT32_then fun _ => local_flagged_then <| local_flagged_then <|
      local_flagged_then <| local_ReadFlaggedSTRING _ _ _ _)).2 ⟨h.required, ?_⟩
    refine (accepts_readUINT32_then fun _ => local_flagged_then <| local_flagged_then <| local_flagged_then <|
      local_ReadFlaggedSTRING _ _ _ _).2 ⟨p.appWindowId, _, rfl, ?_⟩
    refine (accepts_ReadFlaggedSTRING.2 ⟨_, rfl, h.id, rfl⟩).bind (a := ⟨⟩) ?_
    refine (accepts_ReadFlaggedSTRING.2 ⟨_, rfl, h.group, rfl⟩).bind (a := ⟨⟩) ?_
    refine (accepts_ReadFlaggedSTRING.2 ⟨_, rfl, h.execPath, rfl⟩).bind (a := ⟨⟩) ?_
    exact accepts_ReadFlaggedSTRING.2 ⟨_, rfl, h.desc, rfl⟩

/-! ### Icons -/

/-- The icon after its seven numbers are read. -/
def iconFields (flags iconWidth iconHeight iconStride iconBpp iconFormat iconBitsLength : UInt32)
    (i : RDPAPPLIST_ICON_DATA) : RDPAPPLIST_ICON_DATA :=
  { i with flags, iconWidth, iconHeight, iconStride, iconBpp, iconFormat, iconBitsLength }

theorem local_readLast {f : UInt32 → σ → σ} : Local (do let v ← ReadUINT32; update (f v) : Reader HRESULT σ PUnit) :=
  local_ReadUINT32.bind fun _ => local_update _

theorem accepts_readLast {f : UInt32 → σ → σ} {o o' : σ} {bs : List BYTE} {u : PUnit} :
    Accepts (do let v ← ReadUINT32; update (f v) : Reader HRESULT σ PUnit) o bs u o' ↔ ∃ v, bs = le32 v ∧ o' = f v o := by
  rw [accepts_bind local_ReadUINT32 fun _ => local_update _]
  constructor
  · rintro ⟨bs₁, bs₂, v, o₁, rfl, h₁, h₂⟩
    obtain ⟨rfl, rfl⟩ := accepts_ReadUINT32.1 h₁
    obtain ⟨rfl, rfl⟩ := accepts_update.1 h₂
    exact ⟨v, by simp, rfl⟩
  · rintro ⟨v, rfl, rfl⟩
    exact ⟨le32 v, [], v, o, by simp, accepts_ReadUINT32.2 ⟨rfl, rfl⟩, accepts_update.2 ⟨rfl, rfl⟩⟩

theorem local_ReadIconFields : Local ReadIconFields :=
  local_readUINT32_then fun _ => local_readUINT32_then fun _ => local_readUINT32_then fun _ =>
    local_readUINT32_then fun _ => local_readUINT32_then fun _ => local_readUINT32_then fun _ => local_readLast

theorem accepts_ReadIconFields {i i' : RDPAPPLIST_ICON_DATA} {bs : List BYTE} {u : PUnit} :
    Accepts ReadIconFields i bs u i' ↔
      ∃ flags width height stride bpp format length, bs = iconHead flags width height stride bpp format length ∧
        i' = iconFields flags width height stride bpp format length i := by
  unfold ReadIconFields
  rw [accepts_readUINT32_then fun _ => local_readUINT32_then fun _ => local_readUINT32_then fun _ =>
    local_readUINT32_then fun _ => local_readUINT32_then fun _ => local_readUINT32_then fun _ => local_readLast]
  constructor
  · rintro ⟨flags, _, rfl, h₁⟩
    obtain ⟨width, _, rfl, h₂⟩ := (accepts_readUINT32_then fun _ => local_readUINT32_then fun _ =>
      local_readUINT32_then fun _ => local_readUINT32_then fun _ => local_readUINT32_then fun _ => local_readLast).1 h₁
    obtain ⟨height, _, rfl, h₃⟩ := (accepts_readUINT32_then fun _ => local_readUINT32_then fun _ =>
      local_readUINT32_then fun _ => local_readUINT32_then fun _ => local_readLast).1 h₂
    obtain ⟨stride, _, rfl, h₄⟩ := (accepts_readUINT32_then fun _ => local_readUINT32_then fun _ =>
      local_readUINT32_then fun _ => local_readLast).1 h₃
    obtain ⟨bpp, _, rfl, h₅⟩ := (accepts_readUINT32_then fun _ => local_readUINT32_then fun _ => local_readLast).1 h₄
    obtain ⟨format, _, rfl, h₆⟩ := (accepts_readUINT32_then fun _ => local_readLast).1 h₅
    obtain ⟨length, rfl, rfl⟩ := accepts_readLast.1 h₆
    exact ⟨flags, width, height, stride, bpp, format, length, by simp [iconHead], rfl⟩
  · rintro ⟨flags, width, height, stride, bpp, format, length, rfl, rfl⟩
    refine ⟨flags, _, by simp only [iconHead, List.append_assoc]; rfl, ?_⟩
    refine (accepts_readUINT32_then fun _ => local_readUINT32_then fun _ => local_readUINT32_then fun _ =>
      local_readUINT32_then fun _ => local_readUINT32_then fun _ => local_readLast).2 ⟨width, _, rfl, ?_⟩
    refine (accepts_readUINT32_then fun _ => local_readUINT32_then fun _ => local_readUINT32_then fun _ =>
      local_readUINT32_then fun _ => local_readLast).2 ⟨height, _, rfl, ?_⟩
    refine (accepts_readUINT32_then fun _ => local_readUINT32_then fun _ => local_readUINT32_then fun _ =>
      local_readLast).2 ⟨stride, _, rfl, ?_⟩
    refine (accepts_readUINT32_then fun _ => local_readUINT32_then fun _ => local_readLast).2 ⟨bpp, _, rfl, ?_⟩
    refine (accepts_readUINT32_then fun _ => local_readLast).2 ⟨format, _, rfl, ?_⟩
    exact accepts_readLast.2 ⟨length, rfl, rfl⟩

/-- The icon file with its bits. -/
def iconFile (i : RDPAPPLIST_ICON_DATA) (bits : List BYTE) : List BYTE := i.iconHeaderBytes ++ i.bitmapInfoBytes ++ bits

@[simp] theorem iconHeaderBytes_length (i : RDPAPPLIST_ICON_DATA) : i.iconHeaderBytes.length = 22 := by
  simp [RDPAPPLIST_ICON_DATA.iconHeaderBytes]

@[simp] theorem bitmapInfoBytes_length (i : RDPAPPLIST_ICON_DATA) : i.bitmapInfoBytes.length = 40 := by
  simp [RDPAPPLIST_ICON_DATA.bitmapInfoBytes]

theorem writeAt_some {n off : Nat} {bs : List BYTE} {b b' : Block n} :
    b.writeAt off bs = some b' ↔
      off + bs.length ≤ n ∧ b'.data = b.data.take off ++ bs ++ b.data.drop (off + bs.length) := by
  unfold Block.writeAt
  split
  · simp only [Option.some.injEq, *, true_and]
    constructor
    · rintro rfl
      rfl
    · rintro h
      cases b'
      simp_all
  · simp [*]

/-- Writing behind what was written at the start. -/
theorem writeAt_behind {n off : Nat} {pre bs rst : List BYTE} (old : List BYTE) {b b' : Block n} (h : b.writeAt off bs = some b')
    (hb : b.data = pre ++ old ++ rst) (hp : pre.length = off) (ho : old.length = bs.length) :
    b'.data = pre ++ bs ++ rst := by
  obtain ⟨-, hd⟩ := writeAt_some.1 h
  subst hp
  rw [hd, hb, List.append_assoc pre old rst, List.take_left, ← ho, ← List.drop_drop, List.drop_left, List.drop_left]

theorem writeAt_isSome {n off : Nat} {bs : List BYTE} (h : off + bs.length ≤ n) (b : Block n) :
    (b.writeAt off bs).isSome := by
  rw [Block.writeAt, dif_pos h]
  rfl

section ReadIconFile

variable (i : RDPAPPLIST_ICON_DATA)

theorem writeBits_isSome (bs : List BYTE) (b : Block i.fileSize) (h : bs.length = i.iconBitsLength.toNat) :
    (b.writeAt (sizeofIconHeader + sizeofBitmapInfoHeader) bs).isSome :=
  writeAt_isSome (by simp [RDPAPPLIST_ICON_DATA.fileSize, h]) b

theorem writeIconHeader_isSome (b : Block i.fileSize) : (b.writeAt 0 i.iconHeaderBytes).isSome :=
  writeAt_isSome (by simp [RDPAPPLIST_ICON_DATA.fileSize, sizeofIconHeader]; omega) b

theorem writeBitmapInfo_isSome (b : Block i.fileSize) : (b.writeAt sizeofIconHeader i.bitmapInfoBytes).isSome :=
  writeAt_isSome (by simp [RDPAPPLIST_ICON_DATA.fileSize, sizeofIconHeader, sizeofBitmapInfoHeader]) b

/-- All writes lie inside the block. -/
theorem local_ReadIconFile : Local (ReadIconFile i) :=
  (local_readInto (writeBits_isSome i)).bind fun _ => (local_store (writeIconHeader_isSome i)).bind fun _ =>
    local_store (writeBitmapInfo_isSome i)

theorem iconFile_of_writes {bs : List BYTE} {b b₁ b₂ b₃ : Block i.fileSize} (hl : bs.length = i.iconBitsLength.toNat)
    (h₁ : b.writeAt (sizeofIconHeader + sizeofBitmapInfoHeader) bs = some b₁)
    (h₂ : b₁.writeAt 0 i.iconHeaderBytes = some b₂) (h₃ : b₂.writeAt sizeofIconHeader i.bitmapInfoBytes = some b₃) :
    b₃.data = iconFile i bs := by
  have hsize : b.data.length = 22 + (40 + bs.length) := by
    rw [b.size, hl, RDPAPPLIST_ICON_DATA.fileSize, sizeofIconHeader, sizeofBitmapInfoHeader]
    omega
  -- the block in three parts: each write puts one in its place
  obtain ⟨hdr, tail, hb, hhdr⟩ : ∃ hdr tail, b.data = hdr ++ tail ∧ hdr.length = 22 :=
    ⟨_, _, (List.take_append_drop 22 _).symm, by simp [hsize]⟩
  obtain ⟨info, bits, rfl, hinfo⟩ : ∃ info bits, tail = info ++ bits ∧ info.length = 40 :=
    ⟨_, _, (List.take_append_drop 40 _).symm, by
      have := congrArg List.length hb
      simp only [List.length_append] at this
      simp; omega⟩
  have e₁ : b₁.data = (hdr ++ info) ++ bs ++ [] := writeAt_behind bits h₁ (by simp [hb])
    (by simp [hhdr, hinfo, sizeofIconHeader, sizeofBitmapInfoHeader])
    (by have := congrArg List.length hb; simp only [List.length_append] at this; omega)
  have e₂ : b₂.data = [] ++ i.iconHeaderBytes ++ (info ++ bs) := writeAt_behind hdr h₂ (by simp [e₁]) rfl
    (by simp [hhdr])
  have e₃ : b₃.data = i.iconHeaderBytes ++ i.bitmapInfoBytes ++ bs := writeAt_behind info h₃ (by simp [e₂])
    (by simp [sizeofIconHeader]) (by simp [hinfo])
  exact e₃

/-- The block ends as the two headers and the bits. -/
theorem accepts_ReadIconFile {b b' : Block i.fileSize} {bs : List BYTE} {u : PUnit} :
    Accepts (ReadIconFile i) b bs u b' ↔ bs.length = i.iconBitsLength.toNat ∧ b'.data = iconFile i bs := by
  unfold ReadIconFile
  rw [accepts_bind (local_readInto (writeBits_isSome i)) fun _ => (local_store (writeIconHeader_isSome i)).bind
    fun _ => local_store (writeBitmapInfo_isSome i)]
  constructor
  · rintro ⟨bits, _, _, b₁, rfl, h₁, h⟩
    obtain ⟨hl, w₁⟩ := (accepts_readInto (writeBits_isSome i)).1 h₁
    obtain ⟨_, _, _, b₂, rfl, h₂, h₃⟩ := (accepts_bind (local_store (writeIconHeader_isSome i))
      fun _ => local_store (writeBitmapInfo_isSome i)).1 h
    obtain ⟨rfl, w₂⟩ := accepts_store.1 h₂
    obtain ⟨rfl, w₃⟩ := accepts_store.1 h₃
    simp only [List.append_nil]
    exact ⟨hl, iconFile_of_writes i hl w₁ w₂ w₃⟩
  · rintro ⟨hl, hd⟩
    obtain ⟨b₁, h₁⟩ := Option.isSome_iff_exists.1 (writeBits_isSome i bs b hl)
    obtain ⟨b₂, h₂⟩ := Option.isSome_iff_exists.1 (writeIconHeader_isSome i b₁)
    obtain ⟨b₃, h₃⟩ := Option.isSome_iff_exists.1 (writeBitmapInfo_isSome i b₂)
    -- a block is its data
    obtain rfl : b' = b₃ := by
      have e := iconFile_of_writes i hl h₁ h₂ h₃
      cases b'
      cases b₃
      simp_all
    refine ⟨bs, [], ⟨⟩, b₁, by simp, (accepts_readInto (writeBits_isSome i)).2 ⟨hl, h₁⟩, ?_⟩
    rw [← List.append_nil []]
    exact (accepts_store.2 ⟨rfl, h₂⟩).bind (a := ⟨⟩) (accepts_store.2 ⟨rfl, h₃⟩)

end ReadIconFile

end Wslg
