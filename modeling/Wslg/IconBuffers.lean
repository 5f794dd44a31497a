import Wslg.Lib.Balance
import Wslg.Follow
import Wslg.IconFile
/-!
# The buffers of the icons

`ReadAppListIconData` allocates the file of an icon and frees it if the bits are
missing. Nothing frees it afterwards, whatever becomes of the message: an update
whose icon is read to its end leaves one buffer behind.
-/

open Lib Lib.TraceM

namespace Wslg

open Client WSLDVCCallback

variable {W : Type}

/-! ## Buffers -/

def bufferChange : Event → Int
  | .LocalAlloc _ true => 1
  | .LocalFree => -1
  | _ => 0

/-- `m'` adds events to the trace of `m` that satisfy `P` together. -/
def Adds (P : List Event → Prop) (m m' : Machine W) : Prop := ∃ ext, m'.sys.trace = m.sys.trace ++ ext ∧ P ext

/-- The icon buffers allocated in between have been freed. -/
abbrev Freed : Machine W → Machine W → Prop := Adds (Balanced bufferChange)

section Adds

variable {P Q : List Event → Prop} {m m' m'' : Machine W}

theorem Adds.mono (h : Adds P m m') (hPQ : ∀ ext, P ext → Q ext) : Adds Q m m' := by
  obtain ⟨ext, ht, hP⟩ := h
  exact ⟨ext, ht, hPQ ext hP⟩

theorem adds_nothing (h : P []) : Adds P m m := ⟨[], by simp, h⟩

/-- What is added is determined. -/
theorem Adds.iff {ext : List Event} (h : m'.sys.trace = m.sys.trace ++ ext) : Adds P m m' ↔ P ext := by
  constructor
  · rintro ⟨ext', h', hP⟩
    rwa [List.append_cancel_left (h.symm.trans h')]
  · exact fun hP => ⟨ext, h, hP⟩

end Adds

/-- No icon buffer is allocated or freed. -/
abbrev NoBuffer : Sys W → Sys W → Prop := Appends fun e => bufferChange e = 0

theorem noBuffer_behindReading (os : OS W) : BehindReading os NoBuffer where
  toSilent := silent_appends os _
  CreateDirectoryW _ := appends_CreateDirectoryW os rfl
  RemoveDirectory _ := appends_RemoveDirectory os rfl
  DeleteFileW _ := appends_DeleteFileW os fun _ => rfl
  CreateIconFile _ _ := appends_CreateIconFile os fun _ => rfl
  CreateShellLink _ := appends_CreateShellLink os fun _ _ _ => rfl
  ChannelWrite _ := appends_ChannelWrite os rfl
  SetValue _ _ := appends_SetValue os rfl
  mark e he hne := appends_emit (by cases e <;> first | rfl | exact absurd rfl hne | exact he.elim)

/-! ## Reading -/

/-- One buffer is held behind an icon, and none if there is no icon. -/
def HeldFor (flags : UInt32) (ext : List Event) : Prop :=
  if has flags RDPAPPLIST_FIELD_ICON then held bufferChange ext = 1 else ext = []

theorem freed_refl (m : Machine W) : Freed m m := adds_nothing (balanced_of_neutral (by simp))

/-- The bits are missing and the buffer is freed, or the icon is complete and has it. -/
theorem held_ReadIconBits (os : OS W) (icon : RDPAPPLIST_ICON_DATA) (m : Machine W) :
    Outcome (ReadIconBits os icon) m (fun _ => Adds (fun ext => held bufferChange ext = 1) m)
      fun x m' => x ≠ .fault → Freed m m' := by
  refine Outcome.ite (fun _ => Outcome.reject_iff.2 fun _ => freed_refl m) fun _ => outcome_sys_bind ?_
  have htrace : (LocalAlloc os icon.fileSize m.sys).2.trace =
      m.sys.trace ++ [.LocalAlloc icon.fileSize (LocalAlloc os icon.fileSize m.sys).1] := rfl
  refine Outcome.ite (fun hok => ?_) fun hok => Outcome.reject_iff.2 fun _ => ?_
  · rw [hok] at htrace
    refine Outcome.bind ((Outcome.orUndo (Outcome.onLocal (fun _ => ?_) fun _ => ?_)).mono
      (fun _ _ h => Outcome.pure_iff.2 h) fun _ _ h => h)
    · exact ⟨_, htrace, rfl⟩
    · refine ⟨fun hx hne => absurd hx hne, fun _ _ => ⟨[.LocalAlloc icon.fileSize true, .LocalFree], ?_, balanced_pair rfl rfl⟩⟩
      rw [freeIcon, htrace, List.append_assoc]
      rfl
  -- no memory, and no buffer
  · rw [Bool.not_eq_true] at hok
    rw [hok] at htrace
    exact ⟨_, htrace, balanced_of_neutral (by simp [bufferChange])⟩

theorem held_readIcon (os : OS W) (flags : UInt32) (m : Machine W) :
    Outcome (readIcon os flags) m (fun _ => Adds (HeldFor flags) m) fun x m' => x ≠ .fault → Freed m m' := by
  refine Outcome.ite (fun hf => ?_) fun hf => Outcome.pure_iff.2 (adds_nothing ((if_neg hf).mpr rfl))
  have hone : ∀ ext, held bufferChange ext = 1 → HeldFor flags ext := fun ext h => (if_pos hf).mpr h
  exact Outcome.onCopy (Outcome.bind (Outcome.onLocal (fun icon => (held_ReadIconBits os icon m).mono
    (fun _ _ h => h.mono hone) fun _ _ h => h) fun _ _ => freed_refl m))

theorem held_ReadUpdateMessage (os : OS W) (m : Machine W) :
    Outcome (ReadUpdateMessage os) m (fun msg => Adds (HeldFor msg.1.flags) m) fun x m' => x ≠ .fault → Freed m m' :=
  Outcome.onCopy (Outcome.bind (Outcome.onLocal (fun p => Outcome.bind ((held_readIcon os p.flags m).mono
    (fun _ _ h => Outcome.pure_iff.2 h) fun _ _ h => h)) fun _ _ => freed_refl m))

/-- The bytes at `s` are those of an update with an icon, whose file has a size that
fits and gets its memory. -/
def ReadsIcon (os : OS W) (s : Reading (Machine W)) : Prop :=
  ∃ p : Server.RDPAPPLIST_UPDATE_APPLIST_PDU, p.payload <+: s.rest ∧ p.Readable ∧ p.IconReadable os s.out ∧
    has p.flags RDPAPPLIST_FIELD_ICON = true

theorem readsIcon_iff (os : OS W) {s : Reading (Machine W)} (hs : s.Valid) :
    ReadsIcon os s ↔ ∃ msg t, ReadUpdateMessage os s = .ok msg t ∧ has msg.1.flags RDPAPPLIST_FIELD_ICON = true := by
  constructor
  · rintro ⟨p, ⟨post, hpost⟩, hp, hicon, hf⟩
    have hacc := (accepts_ReadUpdateMessage os).2 ⟨p, rfl, hp, hicon, rfl, rfl⟩
    exact ⟨_, _, hacc.run hs hpost.symm, hf⟩
  · rintro ⟨msg, t, hmsg, hf⟩
    obtain ⟨tk, hrest, hacc, -⟩ := (local_ReadUpdateMessage os).of_ok hs hmsg
    obtain ⟨p, rfl, hp, hicon, rfl, -⟩ := (accepts_ReadUpdateMessage os).1 hacc
    exact ⟨p, ⟨t.rest, hrest.symm⟩, hp, hicon, hf⟩

/-! ## One update -/

/-- Behind the reading nothing changes for the buffers, however the update ends. -/
theorem freed_takeOver_iff (os : OS W) (msg : RDPAPPLIST_UPDATE_APPLIST_PDU × RDPAPPLIST_ICON_DATA) {m m₁ : Machine W}
    (h : Adds (HeldFor msg.1.flags) m m₁) :
    Outcome (prepareUpdate os msg.1 msg.2 >>= fun v => registerApp v >>= fun _ => finishUpdate os v) m₁
      (fun _ m₂ => Freed m m₂ ↔ ¬ has msg.1.flags RDPAPPLIST_FIELD_ICON = true)
      fun _ m₂ => Freed m m₂ ↔ ¬ has msg.1.flags RDPAPPLIST_FIELD_ICON = true := by
  obtain ⟨ext, htrace, hheld⟩ := h
  have hrest : ∀ m₂ : Machine W, Frame (SameOn noDb) NoBuffer m₁ m₂ →
      (Freed m m₂ ↔ ¬ has msg.1.flags RDPAPPLIST_FIELD_ICON = true) := by
    rintro m₂ ⟨-, ext', htrace', hneutral⟩
    have hall : m₂.sys.trace = m.sys.trace ++ (ext ++ ext') := by rw [htrace', htrace, List.append_assoc]
    rw [Freed, Adds.iff hall]
    unfold HeldFor at hheld
    by_cases hf : has msg.1.flags RDPAPPLIST_FIELD_ICON = true
    -- the buffer is still there
    · rw [if_pos hf] at hheld
      refine iff_of_false (fun hb => ?_) (not_not_intro hf)
      have hnone := hb.none_left
      rw [held_append, hheld, held_of_neutral hneutral] at hnone
      cases hnone
    · rw [if_neg hf] at hheld
      rw [hheld, List.nil_append]
      exact iff_of_true (balanced_of_neutral hneutral) hf
  exact (frame_takeOver (noBuffer_behindReading os) (appends_emit rfl) msg.1 msg.2).mono (fun _ => hrest) fun _ => hrest

/-- An update leaves no buffer behind exactly if it has no icon that is read to its end. -/
theorem freed_OnUpdateAppList_iff (os : OS W) {s : Reading (Machine W)} (hs : s.Valid) :
    Freed s.out (finalState (OnUpdateAppList os s)).out ↔ ¬ ReadsIcon os s := by
  have key : Ends (OnUpdateAppList os) s (fun _ t => Freed s.out t.out ↔ ¬ ReadsIcon os s)
      fun _ t => Freed s.out t.out ↔ ¬ ReadsIcon os s := by
    unfold OnUpdateAppList
    refine Ends.bind (Ends.self _ s) (fun msg u hmsg => ?_) fun x u hmsg => ?_
    · have hicon : ReadsIcon os s ↔ has msg.1.flags RDPAPPLIST_FIELD_ICON = true := by
        rw [readsIcon_iff os hs, hmsg]
        constructor
        · rintro ⟨msg', t, heq, hf⟩
          cases heq
          exact hf
        · exact fun hf => ⟨msg, u, rfl, hf⟩
      rw [hicon]
      exact freed_takeOver_iff os msg ((held_ReadUpdateMessage os s.out).of_ok rfl hmsg) u rfl
    -- the reader cleans up after itself
    · obtain ⟨e, rfl, -⟩ := (local_ReadUpdateMessage os).of_error hs hmsg
      refine iff_of_true ((held_ReadUpdateMessage os s.out).of_error rfl hmsg (by simp)) fun hicon => ?_
      obtain ⟨msg, t, heq, -⟩ := (readsIcon_iff os hs).1 hicon
      cases hmsg.symm.trans heq
  exact key.final (P := fun t : Reading (Machine W) => Freed s.out t.out ↔ ¬ ReadsIcon os s)

/-! ## Every run -/

/-- A message that is received in a run. -/
structure InRun (os : OS W) (Ok : Reading (Machine W) → Prop) (s : Reading (Machine W)) : Prop where
  reachable : Reachable os Ok s.out
  valid : s.Valid
  opened : s.out.this.m_bChannelClosed = false
  ok : Ok s

/-- The message at `s` is an update that is let in, and the rest of it starts at `t`. -/
def UpdateAt (s t : Reading (Machine W)) : Prop := ∃ h, readHeader s = .ok h t ∧
  h.cmdId = RDPAPPLIST_CMDID_UPDATE_APPLIST ∧ t.out.this.m_handShakeComplated = true

theorem UpdateAt.receive_eq (os : OS W) {s t : Reading (Machine W)} (h : UpdateAt s t) :
    receive os s = OnUpdateAppList os t := by
  obtain ⟨hd, hh, hcmd, hk⟩ := h
  have hcaps : hd.cmdId ≠ RDPAPPLIST_CMDID_CAPS := by
    rw [hcmd]
    decide
  rw [receive_handshake hh hcaps hk, if_pos hcmd]

/-- The buffers of every update are freed when `OnUpdateAppList` returns, and none is
held between the messages. -/
structure IconBuffersBalanced (os : OS W) (Ok : Reading (Machine W) → Prop) : Prop where
  returns : ∀ s t, InRun os Ok s → UpdateAt s t → Freed t.out (finalState (OnUpdateAppList os t)).out
  between : ∀ m, Reachable os Ok m → held bufferChange m.sys.trace = 0

theorem freed_receive (os : OS W) {s : Reading (Machine W)} (hs : s.Valid) (hicon : ∀ t, UpdateAt s t → ¬ ReadsIcon os t) :
    Freed s.out (finalState (receive os s)).out := by
  cases hh : readHeader s with
  | error x t =>
    rw [receive_error os hh]
    have hout : t.out = s.out := out_readHeader_error hh
    change Freed s.out t.out
    rw [hout]
    exact freed_refl s.out
  | ok h t =>
    have hout := out_readHeader_ok hh
    by_cases hupdate : h.cmdId = RDPAPPLIST_CMDID_UPDATE_APPLIST ∧ t.out.this.m_handShakeComplated = true
    · have hat : UpdateAt s t := ⟨h, hh, hupdate⟩
      rw [hat.receive_eq os, ← hout]
      exact (freed_OnUpdateAppList_iff os (readHeader_spec hs hh).1).2 (hicon t hat)
    -- the other messages have no icons
    · rw [receive_ok os hh, ← hout]
      obtain ⟨ext, htrace, hneutral⟩ := (keeps_dispatch (noBuffer_behindReading os) (m := t.out)
        fun hc => Bool.eq_false_iff.2 fun hk => hupdate ⟨hc, hk⟩).final (s := t) rfl
      exact ⟨ext, htrace, balanced_of_neutral hneutral⟩

/-- Without such updates the whole trace is balanced, whatever the run has come to. -/
theorem Reachable.balanced {os : OS W} {Ok : Reading (Machine W) → Prop}
    (h : ∀ s t, InRun os Ok s → UpdateAt s t → ¬ ReadsIcon os t) {m : Machine W} (hm : Reachable os Ok m) :
    Balanced bufferChange m.sys.trace := by
  induction hm with
  | fresh w => exact balanced_of_neutral (by simp [Machine.fresh])
  | @message s hr hs hc hok ih =>
    obtain ⟨ext, htrace, hbalanced⟩ := freed_receive os hs fun t => h s t ⟨hr, hs, hc, hok⟩
    rw [htrace]
    exact ih.append hbalanced
  | close hr hc ih =>
    obtain ⟨ext, htrace, hneutral⟩ := frame_OnClose (noBuffer_behindReading os) hc
    rw [htrace]
    exact ih.append (balanced_of_neutral hneutral)

/-- In the runs that are allowed every icon buffer is freed exactly if no update among
their messages has an icon that is read to its end. -/
theorem icon_buffers_balanced_iff (os : OS W) (Ok : Reading (Machine W) → Prop) :
    IconBuffersBalanced os Ok ↔ ∀ s t, InRun os Ok s → UpdateAt s t → ¬ ReadsIcon os t := by
  have hfreed : ∀ s t, InRun os Ok s → UpdateAt s t →
      (Freed t.out (finalState (OnUpdateAppList os t)).out ↔ ¬ ReadsIcon os t) := by
    rintro s t hs ⟨h, hh, -⟩
    exact freed_OnUpdateAppList_iff os (readHeader_spec hs.valid hh).1
  constructor
  · intro h s t hs hat
    exact (hfreed s t hs hat).1 (h.returns s t hs hat)
  · intro h
    exact ⟨fun s t hs hat => (hfreed s t hs hat).2 (h s t hs hat), fun m hm => (hm.balanced h).none_left⟩

/-! ### On the disk -/

/-- An update of the app `a` with an icon of one pixel. -/
def iconMessage : List BYTE :=
  packet RDPAPPLIST_CMDID_UPDATE_APPLIST
    (le32 (RDPAPPLIST_FIELD_ID ||| RDPAPPLIST_FIELD_EXECPATH ||| RDPAPPLIST_FIELD_DESC ||| RDPAPPLIST_FIELD_ICON) ++
      strBytes (utf16 (L "a")) ++ strBytes (utf16 (L "x")) ++ strBytes (utf16 (L "foo")) ++ narrowIcon 1)

/-- The update is accepted, and its buffer is never freed. -/
theorem accepted_icon_is_not_freed : Reachable diskOS anyMessage channelOfU ∧
    succeeded (receive diskOS (arrives iconMessage channelOfU)) = true ∧
    held bufferChange channelOfU.sys.trace = 0 ∧ held bufferChange (afterMessage iconMessage channelOfU).sys.trace = 1 ∧
    ¬ IconBuffersBalanced diskOS anyMessage := by
  have hrun : (succeeded (receive diskOS (arrives iconMessage channelOfU)) = true ∧
      held bufferChange channelOfU.sys.trace = 0 ∧
      held bufferChange (afterMessage iconMessage channelOfU).sys.trace = 1) ∧
      channelOfU.this.m_bChannelClosed = false := by decide +kernel
  have hreach : Reachable diskOS anyMessage (afterMessage iconMessage channelOfU) :=
    .message (s := arrives iconMessage channelOfU) reachable_channelOfU (Reading.between_valid _ _ _) hrun.2 trivial
  refine ⟨reachable_channelOfU, hrun.1.1, hrun.1.2.1, hrun.1.2.2, fun h => ?_⟩
  have hnone := h.between _ hreach
  rw [hrun.1.2.2] at hnone
  cases hnone

end Wslg
