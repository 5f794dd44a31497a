import Wslg.Prefix
import Wslg.RoundTrip
import Wslg.Disk
/-!
# Limits of the format

The server lets a flagged string have 512 bytes, and the second string of CAPS
any number; the client's fields have 512 bytes with the terminator. What the
server sends is read exactly if no string is longer than 510 bytes.
-/

open Lib

namespace Wslg

open Client

/-! ## The strings of a message -/

/-- The strings whose flags are set. -/
def flaggedOf (flags : UInt32) (fields : List (UInt32 × RAIL_UNICODE_STRING)) : List RAIL_UNICODE_STRING :=
  (fields.filter fun f => has flags f.1).map (·.2)

theorem mem_flaggedOf {flags : UInt32} {fields : List (UInt32 × RAIL_UNICODE_STRING)} {t : RAIL_UNICODE_STRING} :
    t ∈ flaggedOf flags fields ↔ ∃ field, (field, t) ∈ fields ∧ has flags field = true := by
  simp [flaggedOf]

namespace Server

/-- Both strings are always sent. -/
def RDPAPPLIST_SERVER_CAPS_PDU.flagged (p : RDPAPPLIST_SERVER_CAPS_PDU) : List RAIL_UNICODE_STRING :=
  [p.appListProviderName, p.appListProviderUniqueId]

def RDPAPPLIST_UPDATE_APPLIST_PDU.flagged (p : RDPAPPLIST_UPDATE_APPLIST_PDU) : List RAIL_UNICODE_STRING :=
  flaggedOf p.flags [(RDPAPPLIST_FIELD_ID, p.appId), (RDPAPPLIST_FIELD_GROUP, p.appGroup),
    (RDPAPPLIST_FIELD_EXECPATH, p.appExecPath), (RDPAPPLIST_FIELD_WORKINGDIR, p.appWorkingDir),
    (RDPAPPLIST_FIELD_DESC, p.appDesc)]

def RDPAPPLIST_DELETE_APPLIST_PDU.flagged (p : RDPAPPLIST_DELETE_APPLIST_PDU) : List RAIL_UNICODE_STRING :=
  flaggedOf p.flags [(RDPAPPLIST_FIELD_ID, p.appId), (RDPAPPLIST_FIELD_GROUP, p.appGroup)]

def RDPAPPLIST_ASSOCIATE_WINDOW_ID_PDU.flagged (p : RDPAPPLIST_ASSOCIATE_WINDOW_ID_PDU) : List RAIL_UNICODE_STRING :=
  flaggedOf p.flags [(RDPAPPLIST_FIELD_ID, p.appId), (RDPAPPLIST_FIELD_GROUP, p.appGroup),
    (RDPAPPLIST_FIELD_EXECPATH, p.appExecPath), (RDPAPPLIST_FIELD_DESC, p.appDesc)]

/-! ### What is asked of it -/

structure RDPAPPLIST_SERVER_CAPS_PDU.Asked (p : RDPAPPLIST_SERVER_CAPS_PDU) : Prop where
  version : 4 ≤ p.version
  strings : ∀ t ∈ p.flagged, t.string ≠ [] ∧ Even t.string.length

structure RDPAPPLIST_UPDATE_APPLIST_PDU.Asked (p : RDPAPPLIST_UPDATE_APPLIST_PDU) : Prop where
  required : p.flags &&& (RDPAPPLIST_FIELD_ID ||| RDPAPPLIST_FIELD_EXECPATH ||| RDPAPPLIST_FIELD_DESC) =
    RDPAPPLIST_FIELD_ID ||| RDPAPPLIST_FIELD_EXECPATH ||| RDPAPPLIST_FIELD_DESC
  strings : ∀ t ∈ p.flagged, t.string ≠ [] ∧ Even t.string.length
  iconSize : ∀ i ∈ p.sentIcon, iconFileSize i.iconBits < 2 ^ 32

structure RDPAPPLIST_DELETE_APPLIST_PDU.Asked (p : RDPAPPLIST_DELETE_APPLIST_PDU) : Prop where
  required : p.flags &&& RDPAPPLIST_FIELD_ID = RDPAPPLIST_FIELD_ID
  strings : ∀ t ∈ p.flagged, t.string ≠ [] ∧ Even t.string.length

structure RDPAPPLIST_ASSOCIATE_WINDOW_ID_PDU.Asked (p : RDPAPPLIST_ASSOCIATE_WINDOW_ID_PDU) : Prop where
  required : p.flags &&& (RDPAPPLIST_FIELD_ID ||| RDPAPPLIST_FIELD_WINDOW_ID) =
    RDPAPPLIST_FIELD_ID ||| RDPAPPLIST_FIELD_WINDOW_ID
  strings : ∀ t ∈ p.flagged, t.string ≠ [] ∧ Even t.string.length

end Server

/-! ## Fields -/

/-- What a field holds is short. -/
def OptShort (flags field : UInt32) (t : RAIL_UNICODE_STRING) : Prop := has flags field = true → t.string.length ≤ 510

theorem Readable.short {required : Bool} {body : List BYTE} (h : Readable required body) : body.length ≤ 510 := by
  have := h.1
  simp only [RDPAPPLIST_MAX_STRING_SIZE_IN_WCHAR] at this
  omega

theorem readable_of_short {required : Bool} {t : RAIL_UNICODE_STRING} (hne : t.string ≠ []) (h : t.string.length ≤ 510) :
    Readable required t.string :=
  ⟨by simp only [RDPAPPLIST_MAX_STRING_SIZE_IN_WCHAR]; omega, fun _ => hne⟩

/-- A string that the client has read is short. -/
theorem SameIf.short {flags field : UInt32} {s t : RAIL_UNICODE_STRING} {required : Bool} (h : SameIf flags field s t)
    (ht : OptReadable flags field required t.string) : OptShort flags field s := fun hf => by
  rw [h hf]
  exact (ht hf).short

theorem optReadable_of_short {flags field : UInt32} {fields : List (UInt32 × RAIL_UNICODE_STRING)} {required : Bool}
    {t : RAIL_UNICODE_STRING} (hmem : (field, t) ∈ fields)
    (hasked : ∀ t ∈ flaggedOf flags fields, t.string ≠ [] ∧ Even t.string.length)
    (hshort : ∀ t ∈ flaggedOf flags fields, t.string.length ≤ 510) : OptReadable flags field required t.string := fun hf =>
  have ht := mem_flaggedOf.2 ⟨field, hmem, hf⟩
  readable_of_short (hasked t ht).1 (hshort t ht)

/-! ## Messages -/

/-- Every message that is sent, and is what the client asks for, is read behind
its header exactly if all its strings have at most 510 bytes. -/
def ReadIffShort {P ε σ α : Type} (send : Server.Wts → P → Except Server.SendError Server.wStream) (read : Reader ε σ α)
    (Asked : P → Prop) (Start : P → σ → Prop) (strings : P → List RAIL_UNICODE_STRING) : Prop :=
  ∀ wts p s, send wts p = .ok s → Asked p → ∀ o, Start p o → ∀ pre post,
    (succeeded (read (.between pre (s.buffer.drop RDPAPPLIST_HEADER_SIZE ++ post) o)) = true ↔
      ∀ t ∈ strings p, t.string.length ≤ 510)

/-- It is enough to know the payload, what a reader can take instead of it, and when it takes it. -/
theorem readIffShort_of_payload {P ε σ α : Type} {send : Server.Wts → P → Except Server.SendError Server.wStream}
    {read : Reader ε σ α} {Asked : P → Prop} {Start : P → σ → Prop} {strings : P → List RAIL_UNICODE_STRING}
    {cmdId : UInt32} (payload : P → List BYTE) (hlocal : Local read)
    (hsend : ∀ wts p s, send wts p = .ok s → s.buffer = packet cmdId (payload p))
    (htaken : ∀ p o tk a o' r r', Asked p → Accepts read o tk a o' → payload p ++ r = tk ++ r' →
      ∀ t ∈ strings p, t.string.length ≤ 510)
    (hread : ∀ wts p s, send wts p = .ok s → Asked p → ∀ o, Start p o → (∀ t ∈ strings p, t.string.length ≤ 510) →
      ∃ a o', Accepts read o (payload p) a o') : ReadIffShort send read Asked Start strings := by
  intro wts p s hs hp o ho pre post
  rw [hsend wts p s hs, RDPAPPLIST_HEADER_SIZE, packet_drop]
  constructor
  · intro h
    obtain ⟨a, t, ht⟩ := succeeded_iff.1 h
    -- the reader may have taken more or less than the payload: what follows is open
    obtain ⟨tk, hrest, hacc, -⟩ := hlocal.of_ok (by simp) ht
    rw [Reading.between_rest] at hrest
    exact htaken p o tk a t.out _ _ hp hacc hrest
  · intro h
    obtain ⟨a, o', hacc⟩ := hread wts p s hs hp o ho h
    exact succeeded_iff.2 ⟨a, _, hacc pre post⟩

theorem caps_readIffShort : ReadIffShort Server.rdpapplist_send_caps ReadAppListServerCaps (·.Asked) (fun _ _ => True)
    (·.flagged) := by
  refine readIffShort_of_payload (·.payload) local_ReadAppListServerCaps
    (fun wts p s hs => (Server.PDU.buffer_of_sent (p := .caps p) hs).1) (fun p c tk a c' r r' hp hacc hb => ?_)
    fun wts p s hs hp c _ hshort => ?_
  · obtain ⟨q, rfl, hq, rfl⟩ := accepts_ReadAppListServerCaps.1 hacc
    have htaken : p.payload = p.taken := by
      rw [Server.RDPAPPLIST_SERVER_CAPS_PDU.taken, if_pos hp.version, Server.RDPAPPLIST_SERVER_CAPS_PDU.payload]
    rw [htaken] at hb
    have hsame := Server.RDPAPPLIST_SERVER_CAPS_PDU.same_of_append hb
    have hv : 4 ≤ q.version := hsame.version ▸ hp.version
    simp only [Server.RDPAPPLIST_SERVER_CAPS_PDU.flagged, List.forall_mem_cons, List.not_mem_nil, false_imp_iff,
      implies_true, and_true]
    exact ⟨hsame.name ▸ hq.name.short, hsame.uniqueId hv ▸ (hq.uniqueId hv).short⟩
  · simp only [Server.RDPAPPLIST_SERVER_CAPS_PDU.flagged, List.forall_mem_cons, List.not_mem_nil, false_imp_iff,
      implies_true, and_true] at hshort
    have hstrings := hp.strings
    simp only [Server.RDPAPPLIST_SERVER_CAPS_PDU.flagged, List.forall_mem_cons, List.not_mem_nil, false_imp_iff,
      implies_true, and_true] at hstrings
    refine ⟨⟨⟩, _, accepts_ReadAppListServerCaps.2 ⟨p, ?_, ⟨readable_of_short hstrings.1.1 hshort.1,
      fun _ => readable_of_short hstrings.2.1 hshort.2⟩, rfl⟩⟩
    rw [Server.RDPAPPLIST_SERVER_CAPS_PDU.taken, if_pos hp.version, Server.RDPAPPLIST_SERVER_CAPS_PDU.payload]

/-- Every flagged string of a list is short if each is. -/
theorem short_of_fields {flags : UInt32} {fields : List (UInt32 × RAIL_UNICODE_STRING)}
    (h : ∀ f ∈ fields, OptShort flags f.1 f.2) : ∀ t ∈ flaggedOf flags fields, t.string.length ≤ 510 := by
  intro t ht
  obtain ⟨field, hmem, hf⟩ := mem_flaggedOf.1 ht
  exact h _ hmem hf

theorem update_readIffShort {W : Type} (os : OS W) : ReadIffShort Server.rdpapplist_send_update_applist
    (ReadUpdateMessage os) (·.Asked) (fun p m => p.Allocates os m) (·.flagged) := by
  refine readIffShort_of_payload (·.payload) (local_ReadUpdateMessage os)
    (fun wts p s hs => (Server.PDU.buffer_of_sent (p := .updateAppList p) hs).1) (fun p m tk a m' r r' hp hacc hb => ?_)
    fun wts p s hs hp m hm hshort => ?_
  · obtain ⟨q, rfl, hq, -⟩ := (accepts_ReadUpdateMessage os).1 hacc
    obtain ⟨hsame, -⟩ := Server.RDPAPPLIST_UPDATE_APPLIST_PDU.same_of_append hb
    refine short_of_fields ?_
    simp only [List.forall_mem_cons, List.not_mem_nil, false_imp_iff, implies_true, and_true, hsame.flags]
    exact ⟨hsame.id.short hq.id, hsame.group.short hq.group, hsame.execPath.short hq.execPath,
      hsame.workingDir.short hq.workingDir, hsame.desc.short hq.desc⟩
  · exact ⟨_, _, (accepts_ReadUpdateMessage os).2 ⟨p, rfl, ⟨hp.required,
      optReadable_of_short (by simp) hp.strings hshort, optReadable_of_short (by simp) hp.strings hshort,
      optReadable_of_short (by simp) hp.strings hshort, optReadable_of_short (by simp) hp.strings hshort,
      optReadable_of_short (by simp) hp.strings hshort⟩,
      ⟨(Server.update_fits (Server.ne_of_ok hs _)).icon, hp.iconSize, hm⟩, rfl, rfl⟩⟩

theorem delete_readIffShort : ReadIffShort Server.rdpapplist_send_delete_applist ReadAppListDelete (·.Asked)
    (fun _ _ => True) (·.flagged) := by
  refine readIffShort_of_payload (·.payload) local_ReadAppListDelete
    (fun wts p s hs => (Server.PDU.buffer_of_sent (p := .deleteAppList p) hs).1) (fun p c tk a c' r r' hp hacc hb => ?_)
    fun wts p s hs hp c _ hshort => ?_
  · obtain ⟨q, rfl, hq, -⟩ := accepts_ReadAppListDelete.1 hacc
    have hsame := Server.RDPAPPLIST_DELETE_APPLIST_PDU.same_of_append hb
    refine short_of_fields ?_
    simp only [List.forall_mem_cons, List.not_mem_nil, false_imp_iff, implies_true, and_true, hsame.flags]
    exact ⟨hsame.id.short hq.id, hsame.group.short hq.group⟩
  · exact ⟨⟨⟩, _, accepts_ReadAppListDelete.2 ⟨p, rfl, ⟨hp.required, optReadable_of_short (by simp) hp.strings hshort,
      optReadable_of_short (by simp) hp.strings hshort⟩, rfl⟩⟩

theorem associate_readIffShort : ReadIffShort Server.rdpapplist_send_associate_window_id ReadAssociateWindowId (·.Asked)
    (fun _ _ => True) (·.flagged) := by
  refine readIffShort_of_payload (·.payload) local_ReadAssociateWindowId
    (fun wts p s hs => (Server.PDU.buffer_of_sent (p := .associateWindowId p) hs).1)
    (fun p c tk a c' r r' hp hacc hb => ?_) fun wts p s hs hp c _ hshort => ?_
  · obtain ⟨q, rfl, hq, -⟩ := accepts_ReadAssociateWindowId.1 hacc
    have hsame := Server.RDPAPPLIST_ASSOCIATE_WINDOW_ID_PDU.same_of_append hb
    refine short_of_fields ?_
    simp only [List.forall_mem_cons, List.not_mem_nil, false_imp_iff, implies_true, and_true, hsame.flags]
    exact ⟨hsame.id.short hq.id, hsame.group.short hq.group, hsame.execPath.short hq.execPath,
      hsame.desc.short hq.desc⟩
  · exact ⟨⟨⟩, _, accepts_ReadAssociateWindowId.2 ⟨p, rfl, ⟨hp.required,
      optReadable_of_short (by simp) hp.strings hshort, optReadable_of_short (by simp) hp.strings hshort,
      optReadable_of_short (by simp) hp.strings hshort, optReadable_of_short (by simp) hp.strings hshort⟩, rfl⟩⟩

/-- Both ends agree on the messages whose strings have at most 510 bytes, and on no others. -/
theorem agree_up_to_510_bytes {W : Type} (os : OS W) (wts : Server.Wts) (pre post : List BYTE) :
    (∀ (p : Server.RDPAPPLIST_SERVER_CAPS_PDU) s c, Server.rdpapplist_send_caps wts p = .ok s → p.Asked →
      (succeeded (ReadAppListServerCaps (.between pre (s.buffer.drop RDPAPPLIST_HEADER_SIZE ++ post) c)) = true ↔
        ∀ t ∈ p.flagged, t.string.length ≤ 510)) ∧
    (∀ (p : Server.RDPAPPLIST_UPDATE_APPLIST_PDU) s m, Server.rdpapplist_send_update_applist wts p = .ok s → p.Asked →
      p.Allocates os m →
      (succeeded (ReadUpdateMessage os (.between pre (s.buffer.drop RDPAPPLIST_HEADER_SIZE ++ post) m)) = true ↔
        ∀ t ∈ p.flagged, t.string.length ≤ 510)) ∧
    (∀ (p : Server.RDPAPPLIST_DELETE_APPLIST_PDU) s c, Server.rdpapplist_send_delete_applist wts p = .ok s → p.Asked →
      (succeeded (ReadAppListDelete (.between pre (s.buffer.drop RDPAPPLIST_HEADER_SIZE ++ post) c)) = true ↔
        ∀ t ∈ p.flagged, t.string.length ≤ 510)) ∧
    (∀ (p : Server.RDPAPPLIST_ASSOCIATE_WINDOW_ID_PDU) s c, Server.rdpapplist_send_associate_window_id wts p = .ok s →
      p.Asked →
      (succeeded (ReadAssociateWindowId (.between pre (s.buffer.drop RDPAPPLIST_HEADER_SIZE ++ post) c)) = true ↔
        ∀ t ∈ p.flagged, t.string.length ≤ 510)) :=
  ⟨fun p s c hs hp => caps_readIffShort wts p s hs hp c trivial pre post,
    fun p s m hs hp hm => update_readIffShort os wts p s hs hp m hm pre post,
    fun p s c hs hp => delete_readIffShort wts p s hs hp c trivial pre post,
    fun p s c hs hp => associate_readIffShort wts p s hs hp c trivial pre post⟩

/-! ### A message of each kind -/

def shortDelete : Server.RDPAPPLIST_DELETE_APPLIST_PDU := ⟨RDPAPPLIST_FIELD_ID, unicodeString (L "a"), unicodeString []⟩

def shortAssociate : Server.RDPAPPLIST_ASSOCIATE_WINDOW_ID_PDU where
  flags := RDPAPPLIST_FIELD_ID ||| RDPAPPLIST_FIELD_WINDOW_ID
  appWindowId := 5
  appId := unicodeString (L "a")
  appGroup := unicodeString []
  appExecPath := unicodeString []
  appDesc := unicodeString []

theorem sent_of_isOk {ε α : Type} {x : Except ε α} (h : x.isOk = true) : ∃ a, x = .ok a := by
  cases x with
  | error => cases h
  | ok a => exact ⟨a, rfl⟩

theorem agree_on_short_messages : ∃ caps update delete associate,
    Server.rdpapplist_send_caps openWts (serverCaps (L "U")) = .ok caps ∧
    Server.rdpapplist_send_update_applist openWts (pixelUpdate (L "a") (L "foo")) = .ok update ∧
    Server.rdpapplist_send_delete_applist openWts shortDelete = .ok delete ∧
    Server.rdpapplist_send_associate_window_id openWts shortAssociate = .ok associate ∧
    succeeded (ReadAppListServerCaps (.between [] (caps.buffer.drop RDPAPPLIST_HEADER_SIZE ++ []) .zero)) = true ∧
    succeeded (ReadUpdateMessage diskOS (.between [] (update.buffer.drop RDPAPPLIST_HEADER_SIZE ++ []) (.fresh []))) = true ∧
    succeeded (ReadAppListDelete (.between [] (delete.buffer.drop RDPAPPLIST_HEADER_SIZE ++ []) .zero)) = true ∧
    succeeded (ReadAssociateWindowId (.between [] (associate.buffer.drop RDPAPPLIST_HEADER_SIZE ++ []) .zero)) = true := by
  obtain ⟨hcaps, hupdate, hdelete, hassociate⟩ := agree_up_to_510_bytes diskOS openWts [] []
  obtain ⟨caps, hc⟩ := sent_of_isOk (show (Server.rdpapplist_send_caps openWts (serverCaps (L "U"))).isOk = true by
    decide +kernel)
  obtain ⟨update, hu⟩ := sent_of_isOk (show
    (Server.rdpapplist_send_update_applist openWts (pixelUpdate (L "a") (L "foo"))).isOk = true by decide +kernel)
  obtain ⟨delete, hd⟩ := sent_of_isOk (show (Server.rdpapplist_send_delete_applist openWts shortDelete).isOk = true by
    decide +kernel)
  obtain ⟨associate, ha⟩ := sent_of_isOk (show
    (Server.rdpapplist_send_associate_window_id openWts shortAssociate).isOk = true by decide +kernel)
  refine ⟨caps, update, delete, associate, hc, hu, hd, ha, ?_, ?_, ?_, ?_⟩
  · exact (hcaps _ caps .zero hc ⟨by decide +kernel, by decide +kernel⟩).2 (by decide +kernel)
  · have hicon : ∀ i ∈ (pixelUpdate (L "a") (L "foo")).sentIcon, iconFileSize i.iconBits < 2 ^ 32 := by
      rw [show (pixelUpdate (L "a") (L "foo")).sentIcon = some pixelIcon from rfl]
      rintro _ ⟨⟩
      decide
    exact (hupdate _ update (.fresh []) hu ⟨by decide +kernel, by decide +kernel, hicon⟩ fun _ _ => rfl).2 (by decide +kernel)
  · exact (hdelete _ delete .zero hd ⟨by decide +kernel, by decide +kernel⟩).2 (by decide +kernel)
  · exact (hassociate _ associate .zero ha ⟨by decide +kernel, by decide +kernel⟩).2 (by decide +kernel)

/-! ### A message with a long string -/

/-- An id of 256 characters. -/
def longId : Server.RDPAPPLIST_DELETE_APPLIST_PDU :=
  ⟨RDPAPPLIST_FIELD_ID, unicodeString (List.replicate 256 65), unicodeString []⟩

/-- The server sends a string of 512 bytes, for which the client has no room. -/
theorem client_rejects_longest_string : longId.Asked ∧ ∃ s, Server.rdpapplist_send_delete_applist openWts longId = .ok s ∧
    succeeded (ReadAppListDelete (.between [] (s.buffer.drop RDPAPPLIST_HEADER_SIZE) .zero)) = false := by
  refine ⟨⟨by decide, fun t ht => ?_⟩, ?_⟩
  · obtain ⟨field, hmem, hf⟩ := mem_flaggedOf.1 ht
    have hid : t = longId.appId := by
      simp only [List.mem_cons, Prod.mk.injEq, List.not_mem_nil, or_false] at hmem
      rcases hmem with ⟨-, rfl⟩ | ⟨rfl, -⟩
      · rfl
      · exact absurd hf (by decide)
    rw [hid]
    decide +kernel
  · have hfits : longId.appId.string.length ≤ RDPAPPLIST_MAX_STRING_SIZE := by decide +kernel
    have hsend := Server.send_delete_applist_eq openWts (fun _ => hfits) (p := longId) fun h => absurd h (by decide)
    have hworks : openWts.Works := ⟨fun _ => rfl, fun _ => rfl⟩
    obtain ⟨s, hs⟩ := sendPacket_works hworks RDPAPPLIST_CMDID_DELETE_APPLIST longId.payload
    refine ⟨s, hsend.trans hs, ?_⟩
    rw [Server.sendPacket_buffer hs, RDPAPPLIST_HEADER_SIZE, packet_drop]
    decide +kernel

end Wslg
