import Wslg.Disk
import Wslg.Prefix
/-!
# Framing

The client never uses the length in a header: a message ends where its handler
has stopped reading. That is the end of the message for every command but
`DELETE_APPLIST_PROVIDER`, whose payload is read as the next header.
-/

open Lib

namespace Wslg

open Client WSLDVCCallback

variable {W : Type}

/-! ## What a handler takes -/

theorem accepts_failWhen_bind {α : Type} {b : Bool} {k : PUnit → Handler W α} {m m' : Machine W} {bs : List BYTE} {a : α} :
    Accepts (failWhen b >>= k) m bs a m' ↔ b = false ∧ Accepts (k ⟨⟩) m bs a m' := by
  cases b with
  | false => exact ⟨fun h => ⟨rfl, h⟩, fun h => h.2⟩
  | true =>
    refine ⟨fun h => ?_, fun h => by cases h.1⟩
    have e := h [] []
    cases e

theorem accepts_getThis_bind {α : Type} {k : WSLDVCCallback → Handler W α} {m m' : Machine W} {bs : List BYTE} {a : α} :
    Accepts (getThis >>= k) m bs a m' ↔ Accepts (k m.this) m bs a m' := Iff.rfl

section Taken

variable (os : OS W) {m m' : Machine W} {bs : List BYTE} {u : PUnit}

theorem taken_OnCaps (h : Accepts (OnCaps os) m bs u m') : ∃ p : Server.RDPAPPLIST_SERVER_CAPS_PDU, bs = p.taken := by
  obtain ⟨_, m₁, h, -⟩ := (accepts_bind_still local_readCaps fun _ => still_answerCaps os).1 h
  obtain ⟨c, h, -⟩ := (accepts_onPart local_ReadAppListServerCaps).1 (accepts_onCopy.1 h)
  obtain ⟨p, hp, -⟩ := accepts_ReadAppListServerCaps.1 h
  exact ⟨p, hp⟩

theorem taken_OnUpdateAppList (h : Accepts (OnUpdateAppList os) m bs u m') :
    ∃ p : Server.RDPAPPLIST_UPDATE_APPLIST_PDU, bs = p.payload ∧
      (has p.flags RDPAPPLIST_FIELD_ICON = true → p.appIcon.isSome) := by
  obtain ⟨_, m₁, h, -⟩ := (accepts_bind_still (local_ReadUpdateMessage os) (still_takeOver os)).1 h
  obtain ⟨p, hp, -, hi, -⟩ := (accepts_ReadUpdateMessage os).1 h
  exact ⟨p, hp, hi.sent⟩

theorem taken_OnDeleteAppList (h : Accepts (OnDeleteAppList os) m bs u m') :
    ∃ p : Server.RDPAPPLIST_DELETE_APPLIST_PDU, bs = p.payload := by
  obtain ⟨_, m₁, h, -⟩ := (accepts_bind_still local_readDelete (still_deleteApp os)).1 h
  obtain ⟨⟨_, h⟩, -⟩ := (accepts_onLocal local_ReadAppListDelete).1 (accepts_onCopy.1 h)
  obtain ⟨p, hp, -⟩ := accepts_ReadAppListDelete.1 h
  exact ⟨p, hp⟩

theorem taken_OnAssociateWindowId (h : Accepts (OnAssociateWindowId os) m bs u m') :
    ∃ p : Server.RDPAPPLIST_ASSOCIATE_WINDOW_ID_PDU, bs = p.payload := by
  obtain ⟨-, h⟩ := accepts_failWhen_bind.1 (accepts_getThis_bind.1 h)
  obtain ⟨_, m₁, h, -⟩ := (accepts_bind_still local_readAssociate (still_associateWindow os _)).1 h
  obtain ⟨⟨_, h⟩, -⟩ := (accepts_onLocal local_ReadAssociateWindowId).1 (accepts_onCopy.1 h)
  obtain ⟨p, hp, -⟩ := accepts_ReadAssociateWindowId.1 h
  exact ⟨p, hp⟩

end Taken

namespace Server.PDU

/-- The client reads the payload: every command but the one it ignores, from version 4 on. -/
def Read : PDU → Prop
  | caps p => 4 ≤ p.version
  | deleteAppListProvider _ => False
  | _ => True

/-- A handler that succeeds on a message of its own takes the payload and nothing behind it. -/
theorem taken_dispatch (os : OS W) {p : PDU} (hread : p.Read) (hicon : p.HasIcon) {h : RDPAPPLIST_HEADER}
    (hcmd : h.cmdId = p.cmdId) {m m' : Machine W} {bs rst behind : List BYTE} {u : PUnit}
    (hacc : Accepts (dispatch os h) m bs u m') (hb : p.payload ++ behind = bs ++ rst) : bs = p.payload := by
  cases p with
  | caps p =>
    replace hcmd : h.cmdId = RDPAPPLIST_CMDID_CAPS := hcmd
    rw [dispatch, if_pos hcmd] at hacc
    obtain ⟨q, rfl⟩ := taken_OnCaps os hacc
    have hp : p.payload = p.taken := by
      rw [RDPAPPLIST_SERVER_CAPS_PDU.taken, if_pos (show 4 ≤ p.version from hread), RDPAPPLIST_SERVER_CAPS_PDU.payload]
    simp only [payload, hp] at hb ⊢
    exact (RDPAPPLIST_SERVER_CAPS_PDU.same_of_append hb).taken.symm
  | updateAppList p =>
    replace hcmd : h.cmdId = RDPAPPLIST_CMDID_UPDATE_APPLIST := hcmd
    rw [dispatch, if_neg (by rw [hcmd]; decide)] at hacc
    obtain ⟨-, hacc⟩ := accepts_failWhen_bind.1 (accepts_getThis_bind.1 hacc)
    rw [if_pos hcmd] at hacc
    obtain ⟨q, rfl, hq⟩ := taken_OnUpdateAppList os hacc
    exact (RDPAPPLIST_UPDATE_APPLIST_PDU.payload_append_inj hicon hq hb).symm
  | deleteAppList p =>
    replace hcmd : h.cmdId = RDPAPPLIST_CMDID_DELETE_APPLIST := hcmd
    rw [dispatch, if_neg (by rw [hcmd]; decide)] at hacc
    obtain ⟨-, hacc⟩ := accepts_failWhen_bind.1 (accepts_getThis_bind.1 hacc)
    rw [if_neg (by rw [hcmd]; decide), if_pos hcmd] at hacc
    obtain ⟨q, rfl⟩ := taken_OnDeleteAppList os hacc
    exact (RDPAPPLIST_DELETE_APPLIST_PDU.same_of_append hb).payload.symm
  | deleteAppListProvider p => exact hread.elim
  | associateWindowId p =>
    replace hcmd : h.cmdId = RDPAPPLIST_CMDID_ASSOCIATE_WINDOW_ID := hcmd
    rw [dispatch, if_neg (by rw [hcmd]; decide)] at hacc
    obtain ⟨-, hacc⟩ := accepts_failWhen_bind.1 (accepts_getThis_bind.1 hacc)
    rw [if_neg (by rw [hcmd]; decide), if_neg (by rw [hcmd]; decide), if_neg (by rw [hcmd]; decide), if_pos hcmd] at hacc
    obtain ⟨q, rfl⟩ := taken_OnAssociateWindowId os hacc
    exact (RDPAPPLIST_ASSOCIATE_WINDOW_ID_PDU.same_of_append hb).payload.symm

end Server.PDU

/-! ## The loop -/

/-- The headers that were read, with their offsets. -/
def dispatched (r : Received W) : List (Nat × UInt32) := r.rounds.filterMap fun x => x.header.map fun h => (x.offset, h.cmdId)

/-- Where the server wrote the messages, and their commands. -/
def sentHeaders : Nat → List Server.PDU → List (List BYTE) → List (Nat × UInt32)
  | off, p :: ps, b :: bs => (off, p.cmdId) :: sentHeaders (off + b.length) ps bs
  | _, _, _ => []

/-- Each message on its own is accepted in the state the one before it left. -/
def handleAll (os : OS W) : Machine W → List (List BYTE) → Option (Machine W)
  | m, [] => some m
  | m, b :: bs =>
    match receive os (.between [] b m) with
    | .ok _ t => handleAll os t.out bs
    | .error _ _ => none

/-- The ignored command comes last, and what it leaves is too short for a header. -/
def ProvidersLast (ps : List Server.PDU) : Prop :=
  ∀ pre p post, ps = pre ++ .deleteAppListProvider p :: post → post = [] ∧ p.payload.length < RDPAPPLIST_HEADER_SIZE

theorem providersLast_nil : ProvidersLast [] := fun pre p post h => by simp at h

theorem providersLast_cons {p : Server.PDU} {ps : List Server.PDU} : ProvidersLast (p :: ps) ↔
    (∀ q, p = .deleteAppListProvider q → ps = [] ∧ q.payload.length < RDPAPPLIST_HEADER_SIZE) ∧ ProvidersLast ps := by
  constructor
  · refine fun h => ⟨fun q hq => h [] q ps (by rw [hq]; rfl), fun pre q post hps => h (p :: pre) q post (by rw [hps]; rfl)⟩
  · rintro ⟨hp, hps⟩ pre q post h
    cases pre with
    | nil =>
      obtain ⟨rfl, rfl⟩ := List.cons.inj h
      exact hp q rfl
    | cons x pre =>
      obtain ⟨-, rfl⟩ := List.cons.inj h
      exact hps pre q post rfl

section Turn

variable {os : OS W} {s t u : Reading (Machine W)}

theorem dispatched_stop (fuel : Nat) (h : ¬ Running s) : dispatched (receiveLoop os fuel s) = [] := by
  rw [receiveLoop_stop fuel h]
  rfl

/-- A header that cannot be read ends the loop. -/
theorem dispatched_no_header (fuel : Nat) {x : ReadStop Stop} (h : readHeader s = .error x t) :
    dispatched (receiveLoop os fuel s) = [] := by
  by_cases hr : Running s
  · cases fuel with
    | zero => rw [receiveLoop_zero hr]; rfl
    | succ fuel => rw [receiveLoop_succ fuel hr, h]; rfl
  · exact dispatched_stop fuel hr

theorem dispatched_turn (fuel : Nat) (hr : Running s) {h : RDPAPPLIST_HEADER} (hh : readHeader s = .ok h t)
    (hd : dispatch os h t = .ok ⟨⟩ u) :
    dispatched (receiveLoop os (fuel + 1) s) = (s.cur, h.cmdId) :: dispatched (receiveLoop os fuel u) := by
  rw [receiveLoop_succ fuel hr, hh]
  simp only [hd]
  rfl

/-- Whatever comes of it, a header that was read is the first. -/
theorem head_dispatched (os : OS W) (fuel : Nat) (hr : Running s) {h : RDPAPPLIST_HEADER} (hh : readHeader s = .ok h t) :
    (dispatched (receiveLoop os (fuel + 1) s)).head? = some (s.cur, h.cmdId) := by
  rw [receiveLoop_succ fuel hr, hh]
  cases hd : dispatch os h t <;> simp only [hd] <;> rfl

end Turn

theorem accepts_readHeader (h : RDPAPPLIST_HEADER) (m : Machine W) : Accepts readHeader m (headerBytes h) h m :=
  (accepts_onLocal local_ReadAppListHeader).2 ⟨⟨⟨⟩, accepts_ReadAppListHeader.2 rfl⟩, rfl⟩

theorem readHeader_between (h : RDPAPPLIST_HEADER) (m : Machine W) (pre bs : List BYTE) :
    readHeader (.between pre (headerBytes h ++ bs) m) = .ok h (.between (pre ++ headerBytes h) bs m) :=
  accepts_readHeader h m pre bs

theorem readHeader_short (m : Machine W) (pre : List BYTE) {bs : List BYTE} (h : bs.length < 8) :
    ∃ x t, readHeader (.between pre bs m) = .error x t := by
  cases hr : readHeader (.between pre bs m) with
  | error x t => exact ⟨x, t, rfl⟩
  | ok hd t =>
    obtain ⟨tk, hrest, hacc, -⟩ := local_readHeader.of_ok (by simp) hr
    obtain ⟨⟨_, hread⟩, -⟩ := (accepts_onLocal local_ReadAppListHeader).1 hacc
    rw [Reading.between_rest, accepts_ReadAppListHeader.1 hread] at hrest
    have hlen := congrArg List.length hrest
    simp only [List.length_append, headerBytes_length] at hlen
    omega

/-- Any eight bytes are a header. -/
theorem exists_header {bs : List BYTE} (h : 8 ≤ bs.length) : ∃ hd rst, bs = headerBytes hd ++ rst := by
  refine ⟨⟨read32 (bs.take 4), read32 ((bs.drop 4).take 4)⟩, bs.drop 8, ?_⟩
  rw [headerBytes, le32_read32 (by simp; omega), le32_read32 (by simp; omega), List.append_assoc,
    ← List.drop_drop (i := 4) (j := 4), List.take_append_drop, List.take_append_drop]

namespace Server.PDU

def bytes (p : PDU) : List BYTE := packet p.cmdId p.payload

/-- CAPS of this version of the protocol. -/
def Current : PDU → Prop
  | caps p => 4 ≤ p.version
  | _ => True

theorem read_or_provider {p : PDU} (h : p.Current) : p.Read ∨ ∃ q, p = .deleteAppListProvider q := by
  cases p with
  | deleteAppListProvider q => exact .inr ⟨q, rfl⟩
  | caps => exact .inl h
  | _ => exact .inl trivial

/-- Alone in a buffer, the handler gets the payload. -/
theorem receive_bytes (os : OS W) (p : PDU) (m : Machine W) : receive os (.between [] p.bytes m) =
    dispatch os (packetHeader p.cmdId p.payload) (.between (headerBytes (packetHeader p.cmdId p.payload)) p.payload m) :=
  receive_ok os (readHeader_between _ _ [] _)

theorem accepts_own (os : OS W) {p : PDU} (hread : p.Read) (hicon : p.HasIcon) {m : Machine W} {t : Reading (Machine W)}
    (h : receive os (.between [] p.bytes m) = .ok ⟨⟩ t) :
    Accepts (dispatch os (packetHeader p.cmdId p.payload)) m p.payload ⟨⟩ t.out := by
  rw [receive_bytes] at h
  obtain ⟨tk, hrest, hacc, -⟩ := (local_dispatch os _).of_ok (by simp) h
  rw [Reading.between_rest] at hrest
  exact taken_dispatch os hread hicon rfl hacc ((List.append_nil _).trans hrest) ▸ hacc

/-- The ignored command leaves everything as it is, once the handshake is complete. -/
theorem dispatch_provider (os : OS W) {h : RDPAPPLIST_HEADER} (hcmd : h.cmdId = RDPAPPLIST_CMDID_DELETE_APPLIST_PROVIDER)
    (s : Reading (Machine W)) : dispatch os h s =
      if s.out.this.m_handShakeComplated then .ok ⟨⟩ s else .error (.reject (.hr .E_FAIL)) s := by
  rw [dispatch, if_neg (by rw [hcmd]; decide), run_bind]
  cases hf : s.out.this.m_handShakeComplated with
  | false =>
    simp only [getThis, act, hf, Bool.not_false, failWhen, if_true]
    rfl
  | true =>
    simp only [getThis, act, hf, Bool.not_true, failWhen, Bool.false_eq_true, if_false, pure_bind, hcmd]
    rfl

theorem payload_provider_length (q : RDPAPPLIST_DELETE_APPLIST_PROVIDER_PDU) : 4 ≤ q.payload.length := by
  simp [RDPAPPLIST_DELETE_APPLIST_PROVIDER_PDU.payload]

end Server.PDU

/-! ## Sequences -/

open Server

theorem bytes_of_sendAll {wts : Wts} {ps : List PDU} {bufs : List (List BYTE)} (h : PDU.sendAll wts ps = .ok bufs) :
    bufs = ps.map (·.bytes) ∧ ∀ p ∈ ps, p.HasIcon := by
  induction ps generalizing bufs with
  | nil =>
    cases h
    exact ⟨rfl, by simp⟩
  | cons p ps ih =>
    obtain ⟨s, hs, h⟩ := of_bind_ok h
    obtain ⟨bs, hbs, h⟩ := of_bind_ok h
    cases h
    obtain ⟨hb, hi⟩ := PDU.buffer_of_sent hs
    obtain ⟨rfl, his⟩ := ih hbs
    exact ⟨by rw [hb]; rfl, List.forall_mem_cons.2 ⟨hi, his⟩⟩

/-- The rest of the buffer behind an ignored message is read as a header. -/
theorem dispatched_behind_provider (os : OS W) (ps : List PDU) (q : RDPAPPLIST_DELETE_APPLIST_PROVIDER_PDU)
    {m : Machine W} (hopen : m.this.m_bChannelClosed = false) (pre : List BYTE) {fuel : Nat}
    (hfuel : (q.payload ++ (ps.map (·.bytes)).flatten).length ≤ fuel) :
    dispatched (receiveLoop os fuel (.between pre (q.payload ++ (ps.map (·.bytes)).flatten) m)) =
        sentHeaders (pre.length + q.payload.length) ps (ps.map (·.bytes)) ↔
      ps = [] ∧ q.payload.length < RDPAPPLIST_HEADER_SIZE := by
  have hq := PDU.payload_provider_length q
  by_cases hshort : (q.payload ++ (ps.map (·.bytes)).flatten).length < 8
  · obtain ⟨x, t, hx⟩ := readHeader_short m pre hshort
    rw [List.length_append] at hshort
    have hps : ps = [] := by
      cases ps with
      | nil => rfl
      | cons p ps => simp [PDU.bytes] at hshort; omega
    subst hps
    exact iff_of_true (dispatched_no_header fuel hx) ⟨rfl, by simp only [RDPAPPLIST_HEADER_SIZE]; omega⟩
  · obtain ⟨hd, rst, hrst⟩ := exists_header (Nat.not_lt.1 hshort)
    obtain ⟨fuel, rfl⟩ : ∃ f, fuel = f + 1 := ⟨fuel - 1, by omega⟩
    have hhead := head_dispatched os fuel (s := .between pre (q.payload ++ (ps.map (·.bytes)).flatten) m)
      ⟨by rw [Reading.between_len]; omega, hopen⟩ (by rw [hrst]; exact readHeader_between hd m pre rst)
    refine iff_of_false (fun h => ?_) fun h => ?_
    · rw [h] at hhead
      cases ps with
      | nil => cases hhead
      | cons p ps =>
        simp only [List.map_cons, sentHeaders, List.head?_cons, Reading.between_cur, Option.some.injEq, Prod.mk.injEq] at hhead
        omega
    · obtain ⟨rfl, hlt⟩ := h
      simp only [RDPAPPLIST_HEADER_SIZE] at hlt
      exact hshort (by simpa using hlt)

/-- The headers are read where the messages were written exactly if no ignored message has more behind it. -/
theorem dispatched_eq_iff (os : OS W) {ps : List PDU} (hcurrent : ∀ p ∈ ps, p.Current) (hicon : ∀ p ∈ ps, p.HasIcon)
    {m : Machine W} (hopen : m.this.m_bChannelClosed = false)
    (hhandled : (handleAll os m (ps.map (·.bytes))).isSome) (pre : List BYTE) {fuel : Nat}
    (hfuel : (ps.map (·.bytes)).flatten.length ≤ fuel) :
    dispatched (receiveLoop os fuel (.between pre (ps.map (·.bytes)).flatten m)) =
      sentHeaders pre.length ps (ps.map (·.bytes)) ↔ ProvidersLast ps := by
  induction ps generalizing m pre fuel with
  | nil => exact iff_of_true (dispatched_stop fuel fun h => h.1 rfl) providersLast_nil
  | cons p ps ih =>
    rw [List.forall_mem_cons] at hcurrent hicon
    simp only [List.map_cons, handleAll, List.flatten_cons, List.length_append, sentHeaders] at hhandled hfuel ⊢
    have hlen : p.bytes.length = 8 + p.payload.length := packet_length _ _
    obtain ⟨fuel, rfl⟩ : ∃ f, fuel = f + 1 := ⟨fuel - 1, by omega⟩
    have hrun : Running (.between pre (p.bytes ++ (ps.map (·.bytes)).flatten) m) :=
      ⟨by rw [Reading.between_len, List.length_append]; omega, hopen⟩
    have hheader : readHeader (.between pre (p.bytes ++ (ps.map (·.bytes)).flatten) m) =
        .ok (packetHeader p.cmdId p.payload) (.between (pre ++ headerBytes (packetHeader p.cmdId p.payload))
          (p.payload ++ (ps.map (·.bytes)).flatten) m) := by
      rw [PDU.bytes, packet, List.append_assoc]
      exact readHeader_between _ m pre _
    cases hown : receive os (.between [] p.bytes m) with
    | error x t => rw [hown] at hhandled; cases hhandled
    | ok _ t =>
      rw [hown] at hhandled
      rcases PDU.read_or_provider hcurrent.1 with hread | ⟨q, rfl⟩
      -- its handler takes just what was written: the next header is read behind it
      · have hd := PDU.accepts_own os hread hicon.1 hown (pre ++ headerBytes (packetHeader p.cmdId p.payload))
          (ps.map (·.bytes)).flatten
        have hclosed := (closed_receive os hown).trans hopen
        have hrest := ih hcurrent.2 hicon.2 hclosed hhandled
          (pre ++ headerBytes (packetHeader p.cmdId p.payload) ++ p.payload) (show _ ≤ fuel by omega)
        rw [List.append_assoc, List.length_append] at hrest
        rw [dispatched_turn fuel hrun hheader hd, providersLast_cons, and_iff_right (fun q hq => by subst hq; exact hread.elim),
          ← hrest, List.append_assoc]
        exact ⟨fun h => (List.cons.inj h).2, fun h => congrArg _ h⟩
      -- the command is ignored, and its payload is read as what comes next
      · have hcmd : (packetHeader (PDU.deleteAppListProvider q).cmdId (PDU.deleteAppListProvider q).payload).cmdId =
            RDPAPPLIST_CMDID_DELETE_APPLIST_PROVIDER := rfl
        replace hlen : (PDU.deleteAppListProvider q).bytes.length = 8 + q.payload.length := hlen
        have hflag : m.this.m_handShakeComplated = true := by
          by_contra hf
          rw [PDU.receive_bytes, PDU.dispatch_provider os hcmd, Reading.between_out, if_neg hf] at hown
          cases hown
        rw [dispatched_turn fuel hrun hheader ((PDU.dispatch_provider os hcmd _).trans (if_pos hflag)), providersLast_cons]
        have hbehind := dispatched_behind_provider os ps q hopen
          (pre ++ headerBytes (packetHeader (PDU.deleteAppListProvider q).cmdId (PDU.deleteAppListProvider q).payload))
          (show _ ≤ fuel by rw [List.length_append]; omega)
        rw [List.length_append, headerBytes_length, Nat.add_assoc] at hbehind
        rw [hlen]
        constructor
        · intro h
          obtain ⟨rfl, hshort⟩ := hbehind.1 (List.cons.inj h).2
          exact ⟨fun q' hq => by cases hq; exact ⟨rfl, hshort⟩, providersLast_nil⟩
        · rintro ⟨h, -⟩
          exact congrArg _ (hbehind.2 (h q rfl))

/-- A sequence of messages, each encoded by its sender and accepted by its handler, is read header
by header where it was written exactly if `DELETE_APPLIST_PROVIDER` comes last and leaves no header. -/
theorem framing_never_drifts (os : OS W) {wts : Wts} {ps : List PDU} {bufs : List (List BYTE)} {m : Machine W}
    (hcurrent : ∀ p ∈ ps, p.Current) (hsent : PDU.sendAll wts ps = .ok bufs) (hopen : m.this.m_bChannelClosed = false)
    (hhandled : (handleAll os m bufs).isSome) :
    dispatched (OnDataReceived os bufs.flatten m) = sentHeaders 0 ps bufs ↔ ProvidersLast ps := by
  obtain ⟨rfl, hicon⟩ := bytes_of_sendAll hsent
  rw [OnDataReceived, if_neg (by simp [hopen])]
  exact dispatched_eq_iff os hcurrent hicon hopen hhandled [] (Nat.le_refl _)

theorem framing_never_drifts_on_disk :
    let ps := [capsPDU (L "U"), updatePDU (L "a") (L "foo"), deleteProviderPDU 0 []]
    dispatched (OnDataReceived diskOS (ps.map (·.bytes)).flatten (.fresh [])) = sentHeaders 0 ps (ps.map (·.bytes)) := by
  refine (framing_never_drifts diskOS ?_ (show PDU.sendAll openWts _ = .ok _ by decide +kernel) rfl ?_).2 ?_
  · simp [PDU.Current, capsPDU, serverCaps, updatePDU, deleteProviderPDU]
  · decide +kernel
  · refine providersLast_cons.2 ⟨(fun q h => nomatch h), providersLast_cons.2 ⟨(fun q h => nomatch h), ?_⟩⟩
    refine providersLast_cons.2 ⟨fun q h => ?_, providersLast_nil⟩
    cases h
    exact ⟨rfl, by decide⟩

/-- Behind the ignored command the flags of its own message are read as a command. -/
theorem framing_drifts_behind_provider :
    let ps := [capsPDU (L "U"), deleteProviderPDU RDPAPPLIST_FIELD_PROVIDER (L "U"), updatePDU (L "a") (L "foo")]
    (∀ p ∈ ps, p.Current) ∧ PDU.sendAll openWts ps = .ok (ps.map (·.bytes)) ∧
      (handleAll diskOS (.fresh []) (ps.map (·.bytes))).isSome ∧
        sentHeaders 0 ps (ps.map (·.bytes)) = [(0, 1), (88, 4), (104, 2)] ∧
          dispatched (OnDataReceived diskOS (ps.map (·.bytes)).flatten (.fresh [])) = [(0, 1), (88, 4), (96, 32)] := by
  refine ⟨?_, by decide +kernel⟩
  simp [PDU.Current, capsPDU, serverCaps, updatePDU, deleteProviderPDU]

end Wslg
