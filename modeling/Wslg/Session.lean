import Wslg.Batching
import Wslg.Framing
import Wslg.Follow
import Wslg.WakeUps
import Wslg.Lib.Pipe
/-!
# Server and client together

The server sends when it likes, the client is handed any number of messages in
one buffer, and the server thread reads the replies when it is woken. In every
interleaving the client is where the delivered messages, handled one by one,
have brought it, and every accepted CAPS message is answered once.
-/

open Lib Lib.TraceM

namespace Wslg

open Client WSLDVCCallback Server

variable {W V : Type}

/-! ## A batch of messages -/

/-- The message that is accepted at the start of its bytes is the one that was sent. -/
theorem accepts_receive_bytes (os : OS W) {p : PDU} (hread : p.Read) (hicon : p.HasIcon) {m m' : Machine W}
    {tk rst behind : List BYTE} (h : Accepts (receive os) m tk ⟨⟩ m') (hb : p.bytes ++ behind = tk ++ rst) :
    tk = p.bytes := by
  obtain ⟨bs₁, bs₂, hd, m₁, rfl, hhead, hrest⟩ := (accepts_bind local_readHeader fun h => local_dispatch os h).1 h
  obtain ⟨⟨_, hh⟩, -⟩ := (accepts_onLocal local_ReadAppListHeader).1 hhead
  obtain rfl := accepts_ReadAppListHeader.1 hh
  rw [PDU.bytes, packet, List.append_assoc, List.append_assoc] at hb
  obtain ⟨hheader, hbody⟩ := List.append_inj hb (by simp)
  have hcmd : hd.cmdId = p.cmdId := by
    simp only [headerBytes] at hheader
    exact (le32_append_inj hheader).1.symm
  rw [PDU.taken_dispatch os hread hicon hcmd hrest hbody, PDU.bytes, packet, hheader]

theorem accepts_of_receive (os : OS W) {p : PDU} (hread : p.Read) (hicon : p.HasIcon) {m : Machine W}
    {t : Reading (Machine W)} (h : receive os (.between [] p.bytes m) = .ok ⟨⟩ t) :
    Accepts (receive os) m p.bytes ⟨⟩ t.out :=
  (accepts_bind local_readHeader fun h => local_dispatch os h).2
    ⟨_, _, _, _, rfl, accepts_readHeader _ m, PDU.accepts_own os hread hicon h⟩

/-- A batch goes well exactly if each of its messages does, handled alone where the one before left off. -/
theorem batch_eq_handleAll (os : OS W) (ps : List PDU) (hread : ∀ p ∈ ps, p.Read) (hicon : ∀ p ∈ ps, p.HasIcon)
    {m : Machine W} (hopen : m.this.m_bChannelClosed = false) :
    match handleAll os m (ps.map (·.bytes)) with
    | some m' => (OnDataReceived os (ps.flatMap (·.bytes)) m).result = (.S_OK, m')
    | none => (OnDataReceived os (ps.flatMap (·.bytes)) m).hr ≠ .S_OK := by
  induction ps generalizing m with
  | nil => exact (OnDataReceived_result os [] m).trans (result_stop _ (by simp [running_between]))
  | cons p ps ih =>
    rw [List.forall_mem_cons] at hread hicon
    have hlen : p.bytes.length = 8 + p.payload.length := packet_length _ _
    simp only [List.map_cons, handleAll, List.flatMap_cons]
    have hrun : Running (.between [] (p.bytes ++ ps.flatMap (·.bytes)) m) :=
      ⟨by rw [Reading.between_len, List.length_append]; omega, hopen⟩
    obtain ⟨n, hn⟩ : ∃ n, (p.bytes ++ ps.flatMap (·.bytes)).length = n + 1 :=
      ⟨(p.bytes ++ ps.flatMap (·.bytes)).length - 1, by rw [List.length_append]; omega⟩
    have hcall := OnDataReceived_result os (p.bytes ++ ps.flatMap (·.bytes)) m
    rw [hn] at hcall
    cases hown : receive os (.between [] p.bytes m) with
    | ok _ t =>
      have hacc := accepts_of_receive os hread.1 hicon.1 hown
      rw [result_turn n hrun (hacc [] _), result_shift os (by rw [List.length_append] at hn; omega) t.out _ []
        (Nat.le_refl _), ← OnDataReceived_result] at hcall
      have hrest := ih hread.2 hicon.2 ((closed_receive os hown).trans hopen)
      have hhr := congrArg Prod.fst hcall
      simp only
      cases hs : handleAll os t.out (ps.map (·.bytes)) with
      | some m' =>
        rw [hs] at hrest
        exact hcall.trans hrest
      | none =>
        rw [hs] at hrest
        exact fun h => hrest (hhr.symm.trans h)
    | error x t =>
      simp only
      rcases receive_cases os m (p.bytes ++ ps.flatMap (·.bytes)) with ⟨tk, rst, m', hb, -, hacc⟩ | ⟨e, m', hrej⟩
      -- what is accepted in the batch would have been accepted alone
      · obtain rfl := accepts_receive_bytes os hread.1 hicon.1 hacc hb
        have halone := hacc [] []
        rw [List.append_nil, hown] at halone
        cases halone
      · obtain ⟨t', ht', -⟩ := hrej []
        rw [result_last n hrun ht'] at hcall
        rw [show (OnDataReceived os (p.bytes ++ ps.flatMap (·.bytes)) m).hr = _ from congrArg Prod.fst hcall]
        simp

theorem handleAll_append (os : OS W) (m : Machine W) (as bs : List (List BYTE)) :
    handleAll os m (as ++ bs) = (handleAll os m as).bind fun m' => handleAll os m' bs := by
  induction as generalizing m with
  | nil => rfl
  | cons a as ih =>
    simp only [List.cons_append, handleAll]
    cases receive os (.between [] a m) with
    | ok _ t => exact ih t.out
    | error x t => rfl

/-! ## What the client makes of a message -/

section Received

variable {p : PDU}

theorem optPut_same {flags field : UInt32} {f : StringField} {a b : RAIL_UNICODE_STRING} (h : SameIf flags field a b) :
    optPut flags field f a.string = optPut flags field f b.string := by
  unfold optPut
  split
  · rw [h ‹_›]
  · rfl

theorem Server.RDPAPPLIST_UPDATE_APPLIST_PDU.Same.received {p q : Server.RDPAPPLIST_UPDATE_APPLIST_PDU} (h : p.Same q)
    (o : Client.RDPAPPLIST_UPDATE_APPLIST_PDU) : p.received o = q.received o := by
  simp only [Server.RDPAPPLIST_UPDATE_APPLIST_PDU.received, h.flags, optPut_same h.id, optPut_same h.group,
    optPut_same h.execPath, optPut_same h.workingDir, optPut_same h.desc]

theorem Server.RDPAPPLIST_DELETE_APPLIST_PDU.Same.received {p q : Server.RDPAPPLIST_DELETE_APPLIST_PDU} (h : p.Same q)
    (o : Client.RDPAPPLIST_DELETE_APPLIST_PDU) : p.received o = q.received o := by
  simp only [Server.RDPAPPLIST_DELETE_APPLIST_PDU.received, h.flags, optPut_same h.id, optPut_same h.group]

/-- What a message says about an app, as the client reads it. -/
def Server.PDU.appMessage : PDU → Option AppMessage
  | .updateAppList p => some (.update (p.received .zero))
  | .deleteAppList p => some (.delete (p.received .zero))
  | _ => none

/-- What follows the reading of an update, if it goes well. -/
theorem after_takeOver (os : OS W) (q : Client.RDPAPPLIST_UPDATE_APPLIST_PDU) (icon : Client.RDPAPPLIST_ICON_DATA)
    {m : Machine W} (hm : Registered m) :
    Outcome (prepareUpdate os q icon >>= fun v => registerApp v >>= fun _ => finishUpdate os v) m
      (fun _ => After m (.update q) true) fun _ _ => True := by
  refine Outcome.bind ((outcome_prepareUpdate os q icon m).mono (fun v m₁ h => ?_) fun _ _ _ => trivial)
  exact (after_update os h.1 (hm.of_noSync h.2)).mono (fun _ _ h' => h'.of_noSync h.2) fun _ _ _ => trivial

theorem after_OnUpdateAppList (os : OS W) {p : Server.RDPAPPLIST_UPDATE_APPLIST_PDU} {m m' : Machine W} (hm : Registered m)
    (h : Accepts (OnUpdateAppList os) m p.payload ⟨⟩ m') : After m (.update (p.received .zero)) true m' := by
  obtain ⟨msg, m₁, hread, hrest⟩ := (accepts_bind_still (local_ReadUpdateMessage os) (still_takeOver os)).1 h
  obtain ⟨q, hpq, -, -, rfl, rfl⟩ := (accepts_ReadUpdateMessage os).1 hread
  have hbytes : p.payload ++ [] = q.payload ++ [] := congrArg (· ++ []) hpq
  have hsame := (RDPAPPLIST_UPDATE_APPLIST_PDU.same_of_append hbytes).1
  have hallocated : SameOn noSync m.this (q.allocated os m).this := by
    unfold Server.RDPAPPLIST_UPDATE_APPLIST_PDU.allocated
    split <;> rfl
  rw [hsame.received]
  exact ((after_takeOver os _ _ (hm.of_noSync hallocated)).of_accepts hrest).of_noSync hallocated

theorem after_OnDeleteAppList (os : OS W) {p : Server.RDPAPPLIST_DELETE_APPLIST_PDU} {m m' : Machine W} (hm : Registered m)
    (h : Accepts (OnDeleteAppList os) m p.payload ⟨⟩ m') : After m (.delete (p.received .zero)) true m' := by
  obtain ⟨q, r, hread, db, e, hdb, -, rfl⟩ := (ends_OnDeleteAppList os _).ok (h [] [])
  obtain ⟨tk, hrest, hacc, -⟩ := local_readDelete.of_ok (by simp) hread
  obtain ⟨⟨_, hacc⟩, -⟩ := (accepts_onLocal local_ReadAppListDelete).1 (accepts_onCopy.1 hacc)
  obtain ⟨p', rfl, -, rfl⟩ := accepts_ReadAppListDelete.1 hacc
  rw [Reading.between_rest] at hrest
  rw [(RDPAPPLIST_DELETE_APPLIST_PDU.same_of_append hrest).received]
  exact after_erase hm hdb rfl

end Received

/-- The handler that a message reaches, and what it finds. -/
theorem accepts_handler (os : OS W) {p : PDU} {m m' : Machine W}
    (h : Accepts (dispatch os (packetHeader p.cmdId p.payload)) m p.payload ⟨⟩ m') :
    match p with
    | .caps q => Accepts (OnCaps os) m q.payload ⟨⟩ m'
    | .updateAppList q => m.this.m_handShakeComplated = true ∧ Accepts (OnUpdateAppList os) m q.payload ⟨⟩ m'
    | .deleteAppList q => m.this.m_handShakeComplated = true ∧ Accepts (OnDeleteAppList os) m q.payload ⟨⟩ m'
    | .deleteAppListProvider _ => True
    | .associateWindowId q => m.this.m_handShakeComplated = true ∧ Accepts (OnAssociateWindowId os) m q.payload ⟨⟩ m' := by
  cases p with
  | caps q => exact h
  | deleteAppListProvider q => trivial
  | updateAppList q =>
    obtain ⟨hf, h⟩ := accepts_failWhen_bind.1 (accepts_getThis_bind.1 h)
    exact ⟨by simpa using hf, h⟩
  | deleteAppList q =>
    obtain ⟨hf, h⟩ := accepts_failWhen_bind.1 (accepts_getThis_bind.1 h)
    exact ⟨by simpa using hf, h⟩
  | associateWindowId q =>
    obtain ⟨hf, h⟩ := accepts_failWhen_bind.1 (accepts_getThis_bind.1 h)
    exact ⟨by simpa using hf, h⟩

/-! ## Writing to the channel -/

/-- What the client has written to the channel. -/
def Machine.written (m : Machine W) : List (List BYTE) :=
  m.sys.trace.filterMap fun | .ChannelWrite bytes => some bytes | _ => none

/-- Anything but a write to the channel. -/
def Unwritten (e : Event) : Prop := ∀ bytes, e ≠ .ChannelWrite bytes

theorem written_of_appends {m m' : Machine W} (h : Appends Unwritten m.sys m'.sys) : m'.written = m.written := by
  obtain ⟨evs, htrace, hevs⟩ := h
  have hnone : evs.filterMap (fun | .ChannelWrite bytes => some bytes | _ => none) = ([] : List (List BYTE)) := by
    rw [List.filterMap_eq_nil_iff]
    intro e he
    cases e with
    | ChannelWrite bytes => exact (hevs _ he bytes rfl).elim
    | _ => rfl
  rw [Machine.written, htrace, List.filterMap_append, hnone, List.append_nil, Machine.written]

theorem unwritten_onFiles (os : OS W) : OnFiles os (Appends Unwritten) where
  toSilent := silent_appends os _
  CreateDirectoryW _ := appends_CreateDirectoryW os fun _ => by simp
  RemoveDirectory _ := appends_RemoveDirectory os fun _ => by simp
  DeleteFileW _ := appends_DeleteFileW os fun _ _ => by simp
  CreateIconFile _ _ := appends_CreateIconFile os fun _ _ => by simp
  CreateShellLink _ := appends_CreateShellLink os fun _ _ _ _ => by simp
  mark e he _ := appends_emit fun bytes h => by
    subst h
    exact he

/-- Messages about apps and windows are not answered. -/
theorem unwritten_handlers (os : OS W) (m : Machine W) :
    Outcome (OnUpdateAppList os) m (fun _ m' => m'.written = m.written) (fun _ _ => True) ∧
      Outcome (OnDeleteAppList os) m (fun _ m' => m'.written = m.written) (fun _ _ => True) ∧
        Outcome (OnAssociateWindowId os) m (fun _ m' => m'.written = m.written) fun _ _ => True := by
  have hfiles := unwritten_onFiles os
  refine ⟨?_, ?_, ?_⟩
  · have hread := frame_ReadUpdateMessage (R := Appends Unwritten)
      (fun _ => appends_LocalAlloc os fun _ _ => by simp) (appends_emit fun _ => by simp) m
    refine Outcome.bind (hread.mono (fun msg m₁ h₁ => ?_) fun _ _ _ => trivial)
    refine (frame_takeOver_files hfiles (m := m₁) (appends_emit fun _ => by simp) msg.1 msg.2).mono (fun _ m₂ h₂ => ?_)
      fun _ _ _ => trivial
    exact (written_of_appends h₂.2).trans (written_of_appends h₁.2)
  · exact (frame_OnDeleteAppList hfiles.DeleteFileW (fun _ _ _ => hfiles.mark _ trivial (by simp)) m).mono
      (fun _ _ h => written_of_appends h.2) fun _ _ _ => trivial
  · exact (frame_OnAssociateWindowId hfiles.toSilent (fun _ _ => appends_SetValue os fun _ => by simp) m).mono
      (fun _ _ h => written_of_appends h.2) fun _ _ _ => trivial

/-- A CAPS message that is accepted is answered with the version of the client and its language. -/
theorem answers_OnCaps (os : OS W) (m : Machine W) : Outcome (OnCaps os) m (fun _ m' => ∃ r : Reply,
    r.version = RDPAPPLIST_CHANNEL_VERSION ∧ m'.written = m.written ++ [r.bytes]) fun _ _ => True := by
  have hfiles := unwritten_onFiles os
  have hread := frame_readCaps (W := W) (R := Appends Unwritten)
  have hprovider := frame_OnCapsProvider hfiles.toSilent
  have hpaths := frame_OnCapsPaths hfiles.toSilent hfiles.CreateDirectoryW
  have henvironment := frame_OnCapsEnvironment hfiles.toSilent
  refine Outcome.bind ((hread m).mono (fun _ m₁ h₁ => ?_) fun _ _ _ => trivial)
  refine Outcome.bind ((hprovider m₁).mono (fun _ m₂ h₂ => ?_) fun _ _ _ => trivial)
  refine Outcome.bind ((hpaths m₂).mono (fun _ m₃ h₃ => ?_) fun _ _ _ => trivial)
  refine Outcome.bind ((henvironment m₃).mono (fun _ m₄ h₄ => ?_) fun _ _ _ => trivial)
  have hsame : m₄.written = m.written := (written_of_appends h₄.2).trans ((written_of_appends h₃.2).trans
    ((written_of_appends h₂.2).trans (written_of_appends h₁.2)))
  refine outcome_getThis_bind (Outcome.ite (fun _ => ?_) fun _ => outcome_setThis_bind (Outcome.reject_iff.2 trivial))
  refine Outcome.bind (outcome_okOr (fun lang hlang => ?_) fun _ _ => trivial)
  obtain ⟨hsize, hreply⟩ := capsReply_eq hlang
  refine outcome_sys_bind (outcome_setThis_bind (outcome_check (fun _ => ?_) fun _ _ => trivial))
  refine ⟨⟨RDPAPPLIST_CHANNEL_VERSION, lang, hsize⟩, rfl, ?_⟩
  rw [← hreply, ← hsame]
  simp [Machine.written, ChannelWrite]

/-! ## A sequence of messages -/

def Server.PDU.isCaps : PDU → Bool
  | .caps _ => true
  | _ => false

theorem onlyRepeats_concat {t : WSLDVCCallback} {registry : WString → Option fileEntry} {xs : List AppMessage}
    {x : AppMessage} (h : OnlyRepeats t registry xs) (hx : Repeats t (xs.foldl (follow t) registry) x) :
    OnlyRepeats t registry (xs ++ [x]) := by
  induction xs generalizing registry with
  | nil => exact onlyRepeats_cons.2 ⟨hx, onlyRepeats_nil _ _⟩
  | cons y ys ih =>
    obtain ⟨hy, hys⟩ := onlyRepeats_cons.1 h
    exact onlyRepeats_cons.2 ⟨hy, ih hys hx⟩

/-- Where messages, accepted one by one, lead a fresh client: its registry is what they say, and every
CAPS message among them is answered once. -/
structure Brought (ps : List PDU) (m : Machine W) : Prop where
  registered : Registered m
  opened : m.this.m_bChannelClosed = false
  handShake : m.this.m_handShakeComplated = true ↔ ps ≠ []
  registry : (∀ p ∈ ps.tail, p.isCaps = false) → m.entry = (ps.filterMap PDU.appMessage).foldl (follow m.this) fun _ => none
  repeats : (∀ p ∈ ps.tail, p.isCaps = false) → OnlyRepeats m.this (fun _ => none) (ps.filterMap PDU.appMessage)
  replies : ∃ rs : List Reply, m.written = rs.map Reply.bytes ∧ (∀ r ∈ rs, r.version = RDPAPPLIST_CHANNEL_VERSION) ∧
    rs.length = ps.countP PDU.isCaps

theorem brought_fresh (w : W) : Brought [] (Machine.fresh w) where
  registered := ⟨⟨_, rfl⟩, fun key e he => by cases he⟩
  opened := rfl
  handShake := iff_of_false (by simp [Machine.fresh]) (by simp)
  registry _ := rfl
  repeats _ := onlyRepeats_nil _ _
  replies := ⟨[], rfl, by simp, rfl⟩

section Brought

variable {os : OS W} {ps : List PDU} {p : PDU} {m m' : Machine W}

/-- A message about an app adds what it says to the registry. -/
theorem Brought.after (h : Brought ps m) {x : AppMessage} (hx : p.appMessage = some x) (hcaps : p.isCaps = false)
    (hflag : m.this.m_handShakeComplated = true) (hopen : m'.this.m_bChannelClosed = m.this.m_bChannelClosed)
    (hafter : After m x true m') (hwritten : m'.written = m.written) : Brought (ps ++ [p]) m' := by
  obtain ⟨hsame, hreg, hiff, hentry⟩ := hafter
  have htail : (∀ q ∈ (ps ++ [p]).tail, q.isCaps = false) → ∀ q ∈ ps.tail, q.isCaps = false := fun hall q hq =>
    hall q (by rw [List.tail_append_of_ne_nil (h.handShake.1 hflag)]; exact List.mem_append_left _ hq)
  have hfollow : follow m'.this = follow m.this := by
    funext r y
    exact follow_same hsame r y
  refine ⟨hreg, hopen.trans h.opened, iff_of_true ((handShake_of_noDb hsame).trans hflag) (by simp), fun hall => ?_,
    fun hall => ?_, ?_⟩
  · rw [hentry rfl, h.registry (htail hall), hfollow]
    simp [hx]
  · rw [onlyRepeats_same hsame]
    simp only [List.filterMap_append, List.filterMap_cons, hx, List.filterMap_nil]
    exact onlyRepeats_concat (h.repeats (htail hall)) (h.registry (htail hall) ▸ hiff.1 rfl)
  · obtain ⟨rs, hrs, hversion, hlen⟩ := h.replies
    exact ⟨rs, hwritten.trans hrs, hversion, by simp [hlen, hcaps]⟩

/-- By cases on the message: one that is accepted brings the client on. -/
theorem Brought.message (h : Brought ps m) (hread : p.Read) (hicon : p.HasIcon) {t : Reading (Machine W)}
    (hreceive : receive os (.between [] p.bytes m) = .ok ⟨⟩ t) : Brought (ps ++ [p]) t.out := by
  have hhandler := accepts_handler os (PDU.accepts_own os hread hicon hreceive)
  have hopen := closed_receive os hreceive
  cases p with
  | caps q =>
    replace hhandler : Accepts (OnCaps os) m q.payload ⟨⟩ t.out := hhandler
    have hframe := (frame_OnCaps (anyCall os).toSilent (anyCall os).CreateDirectoryW (anyCall os).ChannelWrite m).of_accepts
      hhandler
    have hdb : t.out.this.m_spFileDB = m.this.m_spFileDB := hframe.1.map (·.1) fun _ => rfl
    obtain ⟨r, hversion, hwritten⟩ := (answers_OnCaps os m).of_accepts hhandler
    have hentry : t.out.entry = m.entry := Machine.entry_of_same hdb
    -- a CAPS message among the later ones is excluded by what is assumed
    have hfirst : (∀ q' ∈ (ps ++ [PDU.caps q]).tail, q'.isCaps = false) → ps = [] := fun hall => by
      by_contra hne
      rw [List.tail_append_of_ne_nil hne] at hall
      have hcaps := hall (PDU.caps q) (by simp)
      cases hcaps
    refine ⟨(registered_OnCaps os h.registered).of_accepts hhandler, hopen.trans h.opened,
      iff_of_true ((handShake_OnCaps os m).of_accepts hhandler) (by simp), fun hall => ?_, fun hall => ?_, ?_⟩
    · obtain rfl := hfirst hall
      rw [hentry, h.registry (by simp)]
      rfl
    · obtain rfl := hfirst hall
      exact onlyRepeats_nil _ _
    · obtain ⟨rs, hrs, hversions, hlen⟩ := h.replies
      refine ⟨rs ++ [r], by rw [hwritten, hrs]; simp, fun r' hr' => ?_, by simp [hlen, PDU.isCaps]⟩
      rcases List.mem_append.1 hr' with hr' | hr'
      · exact hversions r' hr'
      · rw [List.mem_singleton.1 hr', hversion]
  | updateAppList q =>
    obtain ⟨hflag, hacc⟩ := hhandler
    exact h.after rfl rfl hflag hopen (after_OnUpdateAppList os h.registered hacc)
      ((unwritten_handlers os m).1.of_accepts hacc)
  | deleteAppList q =>
    obtain ⟨hflag, hacc⟩ := hhandler
    exact h.after rfl rfl hflag hopen (after_OnDeleteAppList os h.registered hacc)
      ((unwritten_handlers os m).2.1.of_accepts hacc)
  | deleteAppListProvider q => exact hread.elim
  | associateWindowId q =>
    obtain ⟨hflag, hacc⟩ := hhandler
    have hthis : m.this = t.out.this :=
      ((frame_OnAssociateWindowId (R := Appends fun _ => True) (anyCall os).toSilent (anyCall os).SetValue m).of_accepts
        hacc).1
    have hentry : t.out.entry = m.entry := by
      funext key
      rw [Machine.entry, ← hthis, Machine.entry]
    have htail : (∀ q' ∈ (ps ++ [PDU.associateWindowId q]).tail, q'.isCaps = false) → ∀ q' ∈ ps.tail, q'.isCaps = false :=
      fun hall q' hq' => hall q' (by
        rw [List.tail_append_of_ne_nil (h.handShake.1 hflag)]
        exact List.mem_append_left _ hq')
    have hmessages : (ps ++ [PDU.associateWindowId q]).filterMap PDU.appMessage = ps.filterMap PDU.appMessage := by
      rw [List.filterMap_append]
      exact List.append_nil _
    refine ⟨h.registered.of_noSync (hthis ▸ rfl), hopen.trans h.opened, iff_of_true (hthis ▸ hflag) (by simp),
      fun hall => ?_, fun hall => ?_, ?_⟩
    · rw [hentry, h.registry (htail hall), ← hthis, hmessages]
    · rw [← hthis, hmessages]
      exact h.repeats (htail hall)
    · obtain ⟨rs, hrs, hversion, hlen⟩ := h.replies
      exact ⟨rs, ((unwritten_handlers os m).2.2.of_accepts hacc).trans hrs, hversion, by simp [hlen, PDU.isCaps]⟩

variable (os) in
/-- By induction on the messages, from the last one. -/
theorem brought_of_handleAll {w : W} (hread : ∀ p ∈ ps, p.Read) (hicon : ∀ p ∈ ps, p.HasIcon)
    (h : handleAll os (.fresh w) (ps.map (·.bytes)) = some m) : Brought ps m := by
  induction ps using List.reverseRecOn generalizing m with
  | nil =>
    cases h
    exact brought_fresh w
  | append_singleton ps p ih =>
    rw [List.map_append, handleAll_append] at h
    obtain ⟨m₁, h₁, h₂⟩ := Option.bind_eq_some_iff.1 h
    have hbefore := ih (fun q hq => hread q (by simp [hq])) (fun q hq => hicon q (by simp [hq])) h₁
    simp only [List.map_cons, List.map_nil, handleAll] at h₂
    cases hown : receive os (.between [] p.bytes m₁) with
    | ok _ t =>
      rw [hown] at h₂
      cases h₂
      exact hbefore.message (hread p (by simp)) (hicon p (by simp)) hown
    | error x t =>
      rw [hown] at h₂
      cases h₂

end Brought

/-! ## Sessions -/

/-- A message that went out, and the stream it went out with. -/
structure Packet where
  pdu : PDU
  stream : wStream
  went : ∃ wts, pdu.send wts = .ok stream

namespace Packet

def bytes (p : Packet) : List BYTE := p.stream.buffer

theorem bytes_eq (p : Packet) : p.bytes = p.pdu.bytes ∧ p.pdu.HasIcon := by
  obtain ⟨wts, h⟩ := p.went
  exact PDU.buffer_of_sent h

theorem map_bytes (ps : List Packet) : ps.map bytes = (ps.map pdu).map (·.bytes) := by
  rw [List.map_map]
  exact List.map_congr_left fun p _ => p.bytes_eq.1

end Packet

/-- Both ends, and what is on the way between them. -/
structure Session (W V : Type) where
  toClient : Pipe Packet
  client : Machine W
  toServer : Pipe (List BYTE)
  server : ServerMachine V

def Session.new (w : W) (server : ServerMachine V) : Session W V := ⟨.empty, .fresh w, .empty, server⟩

inductive SessionAction where
  | send (p : Packet)
  /-- So many messages in one buffer. -/
  | deliver (n : Nat)
  /-- What the server thread finds. -/
  | wake (a : Signal)

/-- The call of `OnDataReceived` with the next `n` messages. -/
def Session.call (os : OS W) (s : Session W V) (n : Nat) : Received W :=
  OnDataReceived os ((s.toClient.underWay.take n).map Packet.bytes).flatten s.client

def Session.sends (s : Session W V) (p : Packet) : Session W V := { s with toClient := s.toClient.push [p] }

/-- What the client writes during the call is under way to the server. -/
def Session.delivers (os : OS W) (s : Session W V) (n : Nat) : Session W V where
  toClient := s.toClient.take n
  client := (s.call os n).machine
  toServer := s.toServer.push ((s.call os n).machine.written.drop s.client.written.length)
  server := s.server

/-- A step of one of the ends. The steps go on as long as the client accepts what it is given. -/
def SessionStep (os : OS W) (env : Outside V) (s : Session W V) (a : SessionAction) (t : Session W V) : Prop :=
  match a with
  | .send p => t = s.sends p
  | .deliver n => (s.call os n).hr = .S_OK ∧ t = s.delivers os n
  | .wake a => a.replies.map Reply.bytes <+: s.toServer.underWay ∧ ∃ server, WakeStep env s.server a server ∧
      t = { s with toServer := s.toServer.take a.replies.length, server := server }

/-! ### A session on the disk -/

def capsPacket : Packet := ⟨capsPDU (L "U"), _, openWts, rfl⟩

def updatePacket : Packet := ⟨updatePDU (L "a") (L "foo"), _, openWts, rfl⟩

def diskReply : Reply := ⟨4, [101, 110, 95, 85, 83] ++ List.replicate 27 0, rfl⟩

/-- Two messages in one buffer, and a third one on its way. -/
def beforeReply : Session Disk (List (List BYTE)) :=
  ((((Session.new [] openedMachine).sends capsPacket).sends updatePacket).delivers diskOS 2).sends updatePacket

def diskActions : List SessionAction :=
  [.send capsPacket, .send updatePacket, .deliver 2, .send updatePacket, .wake (.pdus [diskReply])]

/-- The reply has been read. -/
def diskSession : Session Disk (List (List BYTE)) := { beforeReply with
  toServer := beforeReply.toServer.take 1
  server := perform idleOutside ⟨beforeReply.server.state, { beforeReply.server.sys with world := [diskReply.bytes] }⟩ (.wakes 2) }

theorem run_diskSession : Run (SessionStep diskOS idleOutside) (.new [] openedMachine) diskActions diskSession := by
  have hrun : Run (SessionStep diskOS idleOutside) (.new [] openedMachine)
      [.send capsPacket, .send updatePacket, .deliver 2, .send updatePacket] beforeReply :=
    .cons rfl (.cons rfl (.cons ⟨by decide +kernel, rfl⟩ (.one rfl)))
  have hway : [diskReply].map Reply.bytes <+: beforeReply.toServer.underWay := by decide +kernel
  have hwake : WakeStep idleOutside beforeReply.server (.pdus [diskReply]) diskSession.server :=
    ⟨[diskReply.bytes], 2, by decide, fun events h => ⟨rfl, rfl⟩, rfl⟩
  exact hrun.append (.one ⟨hway, _, hwake, rfl⟩)

theorem toClient_diskSession : diskSession.toClient = ⟨[capsPacket, updatePacket], [updatePacket]⟩ := rfl

theorem reads_diskSession : ∀ p ∈ diskSession.toClient.sent, p.pdu.Read := by
  rw [toClient_diskSession]
  simp [Pipe.sent, capsPacket, updatePacket, PDU.Read, capsPDU, serverCaps, updatePDU]

/-! ## The client is in step -/

/-- The client is where the delivered messages have brought it, one by one. -/
def InStep (os : OS W) (w : W) (s : Session W V) : Prop :=
  handleAll os (.fresh w) (s.toClient.delivered.map Packet.bytes) = some s.client

section InStep

variable {os : OS W} {env : Outside V} {w : W} {server : ServerMachine V} {s t : Session W V} {as : List SessionAction}

theorem map_pdu_icons (ps : List Packet) : ∀ p ∈ ps.map Packet.pdu, p.HasIcon := by
  intro p hp
  obtain ⟨q, -, rfl⟩ := List.mem_map.1 hp
  exact q.bytes_eq.2

theorem InStep.brought (h : InStep os w s) (hread : ∀ p ∈ s.toClient.delivered, p.pdu.Read) :
    Brought (s.toClient.delivered.map Packet.pdu) s.client := by
  refine brought_of_handleAll (w := w) os (fun p hp => ?_) (map_pdu_icons _) ?_
  · obtain ⟨q, hq, rfl⟩ := List.mem_map.1 hp
    exact hread q hq
  · rw [← Packet.map_bytes]
    exact h

/-- A call with the next messages does what they would do one by one. -/
theorem InStep.call (h : InStep os w s) (hread : ∀ p ∈ s.toClient.delivered, p.pdu.Read) {n : Nat}
    (hnext : ∀ p ∈ s.toClient.underWay.take n, p.pdu.Read) :
    match handleAll os s.client ((s.toClient.underWay.take n).map Packet.bytes) with
    | some m' => (s.call os n).result = (.S_OK, m')
    | none => (s.call os n).hr ≠ .S_OK := by
  have hbatch := batch_eq_handleAll os ((s.toClient.underWay.take n).map Packet.pdu)
    (fun p hp => by
      obtain ⟨q, hq, rfl⟩ := List.mem_map.1 hp
      exact hnext q hq) (map_pdu_icons _) (h.brought hread).opened
  rwa [← Packet.map_bytes, List.flatMap_def, ← Packet.map_bytes] at hbatch

theorem inStep_step (h : InStep os w s) (hread : ∀ p ∈ t.toClient.delivered, p.pdu.Read) {a : SessionAction}
    (hstep : SessionStep os env s a t) : InStep os w t := by
  cases a with
  | send p =>
    obtain rfl := hstep
    exact h
  | wake a =>
    obtain ⟨-, server, -, rfl⟩ := hstep
    exact h
  | deliver n =>
    obtain ⟨hok, rfl⟩ := hstep
    simp only [Session.delivers, Pipe.delivered_take, List.mem_append] at hread
    have hcall := h.call (fun p hp => hread p (.inl hp)) (n := n) fun p hp => hread p (.inr hp)
    unfold InStep Session.delivers
    rw [Pipe.delivered_take, List.map_append, handleAll_append, show handleAll os (.fresh w) _ = _ from h, Option.bind_some]
    cases hall : handleAll os s.client ((s.toClient.underWay.take n).map Packet.bytes) with
    | some m' =>
      rw [hall] at hcall
      exact congrArg some (congrArg Prod.snd hcall).symm
    | none =>
      rw [hall] at hcall
      exact (hcall hok).elim

theorem delivered_step {a : SessionAction} (hstep : SessionStep os env s a t) :
    s.toClient.delivered ⊆ t.toClient.delivered := by
  cases a with
  | send p =>
    obtain rfl := hstep
    exact List.Subset.refl _
  | wake a =>
    obtain ⟨-, server, -, rfl⟩ := hstep
    exact List.Subset.refl _
  | deliver n =>
    obtain ⟨-, rfl⟩ := hstep
    exact List.subset_append_left _ _

theorem inStep_run (h : Run (SessionStep os env) (.new w server) as s) (hread : ∀ p ∈ s.toClient.sent, p.pdu.Read) :
    InStep os w s := by
  refine h.invariant (I := fun s => (∀ p ∈ s.toClient.delivered, p.pdu.Read) → InStep os w s) (fun s a t ih hstep hread => ?_)
    (fun _ => rfl) fun p hp => hread p (Pipe.mem_sent_of_delivered _ hp)
  exact inStep_step (ih fun p hp => hread p (delivered_step hstep hp)) hread hstep

end InStep

def SessionAction.packet : SessionAction → Option Packet
  | .send p => some p
  | _ => none

theorem sent_run {os : OS W} {env : Outside V} {s t : Session W V} {as : List SessionAction}
    (h : Run (SessionStep os env) s as t) : t.toClient.sent = s.toClient.sent ++ as.filterMap SessionAction.packet := by
  induction h with
  | nil s => simp
  | @cons s u t a as hstep _ ih =>
    rw [ih]
    cases a with
    | send p =>
      obtain rfl := hstep
      simp [SessionAction.packet, Session.sends]
    | wake a =>
      obtain ⟨-, server, -, rfl⟩ := hstep
      simp [SessionAction.packet, List.filterMap_cons]
    | deliver n =>
      obtain ⟨-, rfl⟩ := hstep
      simp [SessionAction.packet, List.filterMap_cons, Session.delivers]

/-- Whatever the interleaving and however the messages are put together in buffers: what was sent is what
was delivered and what is under way, the client is where the delivered messages lead one by one, and the
next buffer is accepted exactly if each message in it would be. -/
theorem session_in_order (os : OS W) (env : Outside V) {w : W} {server : ServerMachine V} {as : List SessionAction}
    {s : Session W V} (h : Run (SessionStep os env) (.new w server) as s) (hread : ∀ p ∈ s.toClient.sent, p.pdu.Read) :
    s.toClient.delivered ++ s.toClient.underWay = as.filterMap SessionAction.packet ∧
      handleAll os (.fresh w) (s.toClient.delivered.map Packet.bytes) = some s.client ∧
        ∀ n, (s.call os n).hr = .S_OK ↔
          (handleAll os s.client ((s.toClient.underWay.take n).map Packet.bytes)).isSome := by
  have hin := inStep_run h hread
  refine ⟨sent_run h, hin, fun n => ?_⟩
  have hcall := hin.call (fun p hp => hread p (Pipe.mem_sent_of_delivered _ hp)) (n := n) fun p hp =>
    hread p (Pipe.mem_sent_of_underWay _ (List.mem_of_mem_take hp))
  cases hall : handleAll os s.client ((s.toClient.underWay.take n).map Packet.bytes) with
  | some m' =>
    rw [hall] at hcall
    exact iff_of_true (congrArg Prod.fst hcall) rfl
  | none =>
    rw [hall] at hcall
    exact iff_of_false hcall (by simp)

theorem session_in_order_on_disk : Run (SessionStep diskOS idleOutside) (.new [] openedMachine) diskActions diskSession ∧
    diskSession.toClient.delivered ++ diskSession.toClient.underWay = diskActions.filterMap SessionAction.packet ∧
      handleAll diskOS (.fresh []) (diskSession.toClient.delivered.map Packet.bytes) = some diskSession.client ∧
        ∀ n, (diskSession.call diskOS n).hr = .S_OK ↔
          (handleAll diskOS diskSession.client ((diskSession.toClient.underWay.take n).map Packet.bytes)).isSome :=
  ⟨run_diskSession, session_in_order diskOS idleOutside run_diskSession reads_diskSession⟩

/-! ## The registry -/

/-- The client of every session has the registry that the delivered messages describe, in which no accepted
update contradicts what was registered; with nothing under way that is what the server has sent. -/
theorem session_registry (os : OS W) (env : Outside V) {w : W} {server : ServerMachine V} {as : List SessionAction}
    {s : Session W V} (h : Run (SessionStep os env) (.new w server) as s) (hread : ∀ p ∈ s.toClient.sent, p.pdu.Read)
    (hcaps : ∀ p ∈ s.toClient.sent.tail, p.pdu.isCaps = false) :
    s.client.entry = (s.toClient.delivered.filterMap (·.pdu.appMessage)).foldl (follow s.client.this) (fun _ => none) ∧
      OnlyRepeats s.client.this (fun _ => none) (s.toClient.delivered.filterMap (·.pdu.appMessage)) ∧
        (s.toClient.underWay = [] → s.client.entry =
          (s.toClient.sent.filterMap (·.pdu.appMessage)).foldl (follow s.client.this) fun _ => none) := by
  have hin := inStep_run h hread
  have hbrought := hin.brought fun p hp => hread p (Pipe.mem_sent_of_delivered _ hp)
  have htail : ∀ p ∈ (s.toClient.delivered.map Packet.pdu).tail, p.isCaps = false := by
    intro p hp
    rw [← List.map_tail] at hp
    obtain ⟨q, hq, rfl⟩ := List.mem_map.1 hp
    exact hcaps q (s.toClient.mem_tail_delivered hq)
  have hentry := hbrought.registry htail
  have hrepeats := hbrought.repeats htail
  rw [List.filterMap_map] at hentry hrepeats
  refine ⟨hentry, hrepeats, fun hidle => ?_⟩
  rw [← Pipe.delivered_of_idle _ hidle]
  exact hentry

theorem session_registry_on_disk : Run (SessionStep diskOS idleOutside) (.new [] openedMachine) diskActions diskSession ∧
    diskSession.client.entry = (diskSession.toClient.delivered.filterMap (·.pdu.appMessage)).foldl
      (follow diskSession.client.this) (fun _ => none) ∧
    OnlyRepeats diskSession.client.this (fun _ => none) (diskSession.toClient.delivered.filterMap (·.pdu.appMessage)) ∧
      (diskSession.toClient.underWay = [] → diskSession.client.entry =
        (diskSession.toClient.sent.filterMap (·.pdu.appMessage)).foldl (follow diskSession.client.this) fun _ => none) := by
  refine ⟨run_diskSession, session_registry diskOS idleOutside run_diskSession reads_diskSession ?_⟩
  rw [toClient_diskSession]
  simp [Pipe.sent, updatePacket, PDU.isCaps, updatePDU]

/-! ## Replies -/

/-- Every CAPS message that was delivered is answered; of the replies those that have been read went to the
callback of the server, the others are under way. -/
structure Answered (s : Session W V) (rs : List Reply) : Prop where
  written : s.client.written = rs.map Reply.bytes
  versions : ∀ r ∈ rs, r.version = RDPAPPLIST_CHANNEL_VERSION
  each : rs.length = s.toClient.delivered.countP (·.pdu.isCaps)
  way : s.toServer.delivered ++ s.toServer.underWay = rs.map Reply.bytes
  callbacks : pdusIn s.server.sys.trace = (rs.take s.toServer.delivered.length).map Reply.pdu

section Answered

variable {os : OS W} {env : Outside V} {s t : Session W V} {as : List SessionAction}

theorem Server.Reply.bytes_injective : Function.Injective Reply.bytes := by
  rintro ⟨v, l, hl⟩ ⟨v', l', hl'⟩ h
  simp only [Reply.bytes, List.append_assoc, List.append_cancel_left_eq] at h
  obtain ⟨rfl, rfl⟩ := le16_append_inj h
  rfl

/-- The replies under way are those that were written and not read. -/
structure Carried (s : Session W V) : Prop where
  sent : s.toServer.sent = s.client.written
  read : ∃ rs : List Reply, s.toServer.delivered = rs.map Reply.bytes ∧ pdusIn s.server.sys.trace = rs.map Reply.pdu
  running : s.server.state.running.isSome

/-- What every turn of the loop keeps holds behind it. -/
theorem kept_receiveLoop {I : Machine W → Prop} (hturn : ∀ s : Reading (Machine W), I s.out → I (finalState (receive os s)).out)
    (fuel : Nat) {s : Reading (Machine W)} (hs : I s.out) : I (receiveLoop os fuel s).machine := by
  induction fuel generalizing s with
  | zero =>
    by_cases hc : Running s
    · rwa [receiveLoop_zero hc]
    · rwa [receiveLoop_stop 0 hc]
  | succ fuel ih =>
    by_cases hc : Running s
    · have hnext := hturn s hs
      rw [receiveLoop_succ fuel hc]
      cases hh : readHeader s with
      | error x t =>
        rw [receive_error os hh] at hnext
        exact hnext
      | ok h t =>
        rw [receive_ok os hh] at hnext
        cases hd : dispatch os h t with
        | error x u =>
          rw [hd] at hnext
          simp only [hd]
          exact hnext
        | ok _ u =>
          rw [hd] at hnext
          simp only [hd]
          exact ih hnext
    · rwa [receiveLoop_stop _ hc]

/-- Nothing that was written is taken back. -/
theorem written_prefix (os : OS W) (pBuffer : List BYTE) (m : Machine W) :
    m.written <+: (OnDataReceived os pBuffer m).machine.written := by
  have happends : Appends (fun _ => True) m.sys (OnDataReceived os pBuffer m).machine.sys := by
    unfold OnDataReceived
    split
    · exact refl_of _ _
    · exact kept_receiveLoop (I := fun m' => Appends (fun _ => True) m.sys m'.sys) (fun s hs =>
        trans_of _ hs ((keeps_receive (anyCall os) (appends_emit trivial)).final (s := s) rfl)) _ (refl_of _ m.sys)
  obtain ⟨evs, htrace, -⟩ := happends
  rw [Machine.written, Machine.written, htrace, List.filterMap_append]
  exact List.prefix_append _ _

theorem carried_step (hcall : CallbackSucceeds env) (h : Carried s) {a : SessionAction} (hdata : a ≠ .wake .noData)
    (hstep : SessionStep os env s a t) : Carried t := by
  obtain ⟨hsent, ⟨rs, hrs, hpdus⟩, hrunning⟩ := h
  cases a with
  | send p =>
    obtain rfl := hstep
    exact ⟨hsent, ⟨rs, hrs, hpdus⟩, hrunning⟩
  | deliver n =>
    obtain ⟨-, rfl⟩ := hstep
    refine ⟨?_, ⟨rs, hrs, hpdus⟩, hrunning⟩
    obtain ⟨more, hmore⟩ := written_prefix os ((s.toClient.underWay.take n).map Packet.bytes).flatten s.client
    rw [Session.delivers, Pipe.sent_push, hsent, Session.call, ← hmore, List.drop_left]
  | wake a =>
    obtain ⟨⟨rest, hrest⟩, server, hwake, rfl⟩ := hstep
    obtain ⟨hgoes, hnew⟩ := wake_delivers hcall (fun ha => hdata (by rw [ha])) hrunning hwake
    refine ⟨(Pipe.sent_take _ _).trans hsent, ⟨rs ++ a.replies, ?_, by rw [hnew, hpdus, List.map_append]⟩, hgoes⟩
    rw [Pipe.delivered_take, hrs, ← hrest, List.map_append, List.take_left' (by simp)]

/-- In every session in which no wake-up is without data, every CAPS message that was delivered is answered
once, in order, with the client's version, and the callback of the server has run once for each reply that
was read. -/
theorem session_replies (os : OS W) (env : Outside V) (hcall : CallbackSucceeds env) {w : W} {server : ServerMachine V}
    (hrunning : server.state.running.isSome) (hnew : pdusIn server.sys.trace = []) {as : List SessionAction}
    {s : Session W V} (h : Run (SessionStep os env) (.new w server) as s) (hdata : .wake .noData ∉ as)
    (hread : ∀ p ∈ s.toClient.sent, p.pdu.Read) :
    (∃ rs, Answered s rs) ∧ (pdusIn s.server.sys.trace ≠ [] → s.client.this.m_handShakeComplated = true) := by
  have hcarried : Carried s := by
    refine h.invariant_of_labels (I := Carried) (P := (· ≠ .wake .noData)) (fun s a t hs ha hstep => carried_step hcall hs ha hstep)
      (fun a ha heq => hdata (heq ▸ ha)) ⟨rfl, ⟨[], rfl, hnew⟩, hrunning⟩
  have hbrought := (inStep_run h hread).brought fun p hp => hread p (Pipe.mem_sent_of_delivered _ hp)
  obtain ⟨rs, hwritten, hversions, hlen⟩ := hbrought.replies
  obtain ⟨hsent, ⟨got, hgot, hpdus⟩, -⟩ := hcarried
  -- replies of the same bytes are the same
  have hprefix : got.map Reply.bytes = (rs.take got.length).map Reply.bytes := by
    have hway := hsent.trans hwritten
    rw [Pipe.sent, hgot] at hway
    rw [List.map_take, ← hway, List.take_left' (by simp)]
  have hsame := List.map_injective_iff.2 Reply.bytes_injective hprefix
  have hcount : s.toServer.delivered.length = got.length := by rw [hgot, List.length_map]
  refine ⟨⟨rs, hwritten, hversions, ?_, hsent.trans hwritten, ?_⟩, fun hne => ?_⟩
  · rw [hlen, List.countP_map]
    rfl
  · rw [hcount, ← hsame, hpdus]
  · refine hbrought.handShake.2 fun hnil => hne ?_
    rw [hnil, List.countP_nil, List.length_eq_zero_iff] at hlen
    rw [hpdus, hsame, hlen, List.take_nil, List.map_nil]

theorem session_replies_on_disk : Run (SessionStep diskOS idleOutside) (.new [] openedMachine) diskActions diskSession ∧
    pdusIn diskSession.server.sys.trace = [diskReply.pdu] ∧ (∃ rs, Answered diskSession rs) ∧
      (pdusIn diskSession.server.sys.trace ≠ [] → diskSession.client.this.m_handShakeComplated = true) :=
  ⟨run_diskSession, rfl, session_replies diskOS idleOutside callbackSucceeds_idle rfl rfl run_diskSession
    (by simp [diskActions]) reads_diskSession⟩

end Answered

end Wslg
