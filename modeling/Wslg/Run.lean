import Wslg.Handlers
/-!
# Runs of the plugin

A run starts with a fresh channel and is a sequence of messages, each received
from some position of some buffer, and of closings. `Ok` restricts the messages
of a run; `anyMessage` does not. A call of `OnDataReceived` is such a sequence,
so what holds in every reachable state holds before and after every call.
-/

open Lib

namespace Wslg

variable {W : Type}

/-! ## Reachable states -/

inductive Reachable (os : OS W) (Ok : Reading (Machine W) → Prop) : Machine W → Prop
  | fresh (w : W) : Reachable os Ok (.fresh w)
  | message {s : Reading (Machine W)} : Reachable os Ok s.out → s.Valid → s.out.this.m_bChannelClosed = false → Ok s →
      Reachable os Ok (finalState (receive os s)).out
  | close {m m' : Machine W} : Reachable os Ok m → OnClose os m = some m' → Reachable os Ok m'

def anyMessage : Reading (Machine W) → Prop := fun _ => True

/-! ## The loop -/

/-- The states between the turns of the loop on `pBuffer`. -/
inductive LoopState (os : OS W) (pBuffer : List BYTE) (m : Machine W) : Reading (Machine W) → Prop
  | start : LoopState os pBuffer m ⟨pBuffer, 0, pBuffer.length, m⟩
  | turn {s t u : Reading (Machine W)} {h : RDPAPPLIST_HEADER} : LoopState os pBuffer m s → readHeader s = .ok h t →
      dispatch os h t = .ok ⟨⟩ u → LoopState os pBuffer m u

theorem readHeader_spec {s t : Reading (Machine W)} {h : RDPAPPLIST_HEADER} (hs : s.Valid)
    (hh : readHeader s = .ok h t) : t.Valid ∧ t.buf = s.buf ∧ t.cur = s.cur + 8 := by
  obtain ⟨tk, -, hacc, ht, hbuf, hcur⟩ := local_readHeader.of_ok hs hh
  obtain ⟨⟨_, hread⟩, -⟩ := (accepts_onLocal local_ReadAppListHeader).1 hacc
  have hlen : tk.length = 8 := by rw [accepts_ReadAppListHeader.1 hread, headerBytes_length]
  exact ⟨ht, hbuf, hcur.trans (by rw [hlen])⟩

theorem readHeader_rest {s t : Reading (Machine W)} {h : RDPAPPLIST_HEADER} (hs : s.Valid)
    (hh : readHeader s = .ok h t) : s.rest = headerBytes h ++ t.rest := by
  obtain ⟨tk, hrest, hacc, -⟩ := local_readHeader.of_ok hs hh
  obtain ⟨⟨_, hread⟩, -⟩ := (accepts_onLocal local_ReadAppListHeader).1 hacc
  rw [hrest, accepts_ReadAppListHeader.1 hread]

/-- A turn keeps the buffer and takes at least the header from it. -/
theorem turn_spec (os : OS W) {s t u : Reading (Machine W)} {h : RDPAPPLIST_HEADER} (hs : s.Valid)
    (hh : readHeader s = .ok h t) (hd : dispatch os h t = .ok ⟨⟩ u) :
    u.Valid ∧ u.buf = s.buf ∧ s.cur + 8 ≤ u.cur := by
  obtain ⟨ht, hbuf, hcur⟩ := readHeader_spec hs hh
  obtain ⟨tk', -, -, hu, hbuf', hcur'⟩ := (local_dispatch os h).of_ok ht hd
  exact ⟨hu, hbuf'.trans hbuf, by omega⟩

theorem LoopState.valid {os : OS W} {pBuffer : List BYTE} {m : Machine W} {s : Reading (Machine W)}
    (h : LoopState os pBuffer m s) : s.Valid ∧ s.buf = pBuffer := by
  induction h with
  | start => exact ⟨Nat.zero_add _, rfl⟩
  | turn _ hh hd ih =>
    obtain ⟨hu, hbuf, -⟩ := turn_spec os ih.1 hh hd
    exact ⟨hu, hbuf.trans ih.2⟩

theorem receive_ok (os : OS W) {s t : Reading (Machine W)} {h : RDPAPPLIST_HEADER} (hh : readHeader s = .ok h t) :
    receive os s = dispatch os h t := by
  rw [receive, run_bind, hh]

theorem receive_error (os : OS W) {s t : Reading (Machine W)} {x : ReadStop Stop} (hh : readHeader s = .error x t) :
    receive os s = .error x t := by
  rw [receive, run_bind, hh]

/-- Behind a handshake the handlers are called. -/
theorem receive_handshake {os : OS W} {s t : Reading (Machine W)} {h : RDPAPPLIST_HEADER} (hh : readHeader s = .ok h t)
    (hc : h.cmdId ≠ RDPAPPLIST_CMDID_CAPS) (hs : t.out.this.m_handShakeComplated = true) :
    receive os s = (if h.cmdId = RDPAPPLIST_CMDID_UPDATE_APPLIST then OnUpdateAppList os
      else if h.cmdId = RDPAPPLIST_CMDID_DELETE_APPLIST then OnDeleteAppList os
      else if h.cmdId = RDPAPPLIST_CMDID_DELETE_APPLIST_PROVIDER then pure ⟨⟩
      else if h.cmdId = RDPAPPLIST_CMDID_ASSOCIATE_WINDOW_ID then OnAssociateWindowId os
      else reject (.hr .E_FAIL)) t := by
  rw [receive_ok os hh, dispatch, if_neg hc, run_bind]
  show (failWhen (!t.out.this.m_handShakeComplated) >>= _) t = _
  rw [hs]
  rfl

/-- Closing ends the session, and then the registry is gone. -/
theorem OnClose_some {os : OS W} {m m' : Machine W} (h : OnClose os m = some m') : ∃ e db,
    OnSyncEnd os false { m with this := { m.this with m_bChannelClosed := true } } = e ∧
      e.this.m_spFileDB = some db ∧ m' = { e with this := { e.this with m_spFileDB := none } } := by
  unfold OnClose at h
  simp only at h
  split at h
  · cases h
  · rename_i db hdb
    cases h
    exact ⟨_, db, rfl, hdb, rfl⟩

section receiveLoop

variable {os : OS W} {s t : Reading (Machine W)}

/-- The loop condition. -/
def Running (s : Reading (Machine W)) : Prop := s.len ≠ 0 ∧ s.out.this.m_bChannelClosed = false

theorem receiveLoop_stop (fuel : Nat) (h : ¬ Running s) : receiveLoop os fuel s = ⟨.S_OK, [], s.out⟩ := by
  rw [receiveLoop.eq_def]
  exact if_neg h

theorem receiveLoop_zero (h : Running s) : receiveLoop os 0 s = ⟨.outOfFuel, [], s.out⟩ := by
  rw [receiveLoop.eq_def]
  exact if_pos h

theorem receiveLoop_succ (fuel : Nat) (h : Running s) : receiveLoop os (fuel + 1) s =
    match readHeader s with
    | .error x t => ⟨.failed x, [⟨s.cur, none⟩], t.out⟩
    | .ok h t =>
      match dispatch os h t with
      | .error x u => ⟨.failed x, [⟨s.cur, some h⟩], u.out⟩
      | .ok _ u => { receiveLoop os fuel u with rounds := ⟨s.cur, some h⟩ :: (receiveLoop os fuel u).rounds } := by
  rw [receiveLoop.eq_def]
  exact if_pos h

end receiveLoop

/-- What the loop leaves is reachable from what it started with. -/
theorem reachable_receiveLoop {os : OS W} {Ok : Reading (Machine W) → Prop} {pBuffer : List BYTE} {m : Machine W}
    (hok : ∀ u, LoopState os pBuffer m u → Ok u) (fuel : Nat) {s : Reading (Machine W)}
    (hl : LoopState os pBuffer m s) (hr : Reachable os Ok s.out) : Reachable os Ok (receiveLoop os fuel s).machine := by
  induction fuel generalizing s with
  | zero =>
    by_cases hc : Running s
    · rwa [receiveLoop_zero hc]
    · rwa [receiveLoop_stop 0 hc]
  | succ fuel ih =>
    by_cases hc : Running s
    · have hm := hr.message hl.valid.1 hc.2 (hok s hl)
      rw [receiveLoop_succ fuel hc]
      cases hh : readHeader s with
      | error x t => rwa [receive_error os hh] at hm
      | ok h t =>
        rw [receive_ok os hh] at hm
        cases hd : dispatch os h t with
        | error x u =>
          rw [hd] at hm
          simp only [hd]
          exact hm
        | ok _ u =>
          rw [hd] at hm
          simp only [hd]
          exact ih (hl.turn hh hd) hm
    · rwa [receiveLoop_stop _ hc]

/-- A call of `OnDataReceived` whose messages are all `Ok` leads from a reachable state to another. -/
theorem reachable_OnDataReceived {os : OS W} {Ok : Reading (Machine W) → Prop} {m : Machine W} (pBuffer : List BYTE)
    (hok : ∀ u, LoopState os pBuffer m u → Ok u) (hr : Reachable os Ok m) :
    Reachable os Ok (OnDataReceived os pBuffer m).machine := by
  unfold OnDataReceived
  split
  · exact hr
  · exact reachable_receiveLoop hok _ .start hr

/-! ## One message -/

theorem outcome_readHeader (m : Machine W) : Outcome readHeader m (fun _ m' => m' = m) (fun _ m' => m' = m) :=
  Outcome.onLocal (fun _ => rfl) fun _ => rfl

theorem out_readHeader_ok {s t : Reading (Machine W)} {h : RDPAPPLIST_HEADER} (hh : readHeader s = .ok h t) :
    t.out = s.out := (outcome_readHeader s.out).of_ok rfl hh

theorem out_readHeader_error {s t : Reading (Machine W)} {x : ReadStop Stop} (hh : readHeader s = .error x t) :
    t.out = s.out := (outcome_readHeader s.out).of_error rfl hh

/-- What holds after each handler, and if the message has none, holds after the header is dispatched. -/
theorem outcome_dispatch (os : OS W) {h : RDPAPPLIST_HEADER} {m : Machine W} {P : Machine W → Prop} (h0 : P m)
    (hcaps : h.cmdId = RDPAPPLIST_CMDID_CAPS → Outcome (OnCaps os) m (fun _ => P) (fun _ => P))
    (hupdate : h.cmdId = RDPAPPLIST_CMDID_UPDATE_APPLIST → m.this.m_handShakeComplated = true → Outcome (OnUpdateAppList os) m (fun _ => P) (fun _ => P))
    (hdelete : m.this.m_handShakeComplated = true → Outcome (OnDeleteAppList os) m (fun _ => P) (fun _ => P))
    (hassociate : m.this.m_handShakeComplated = true → Outcome (OnAssociateWindowId os) m (fun _ => P) (fun _ => P)) :
    Outcome (dispatch os h) m (fun _ => P) (fun _ => P) := by
  refine Outcome.ite hcaps fun _ => Outcome.act_bind ?_
  by_cases hk : m.this.m_handShakeComplated = true
  · simp only [hk, Bool.not_true, failWhen, Bool.false_eq_true, if_false, pure_bind]
    refine Outcome.ite (fun hc => hupdate hc hk) fun _ => Outcome.ite (fun _ => hdelete hk) fun _ =>
      Outcome.ite (fun _ => Outcome.pure_iff.2 h0) fun _ => Outcome.ite (fun _ => hassociate hk) fun _ =>
        Outcome.reject_iff.2 h0
  · simp only [hk, Bool.not_false, failWhen, if_true]
    exact Outcome.bind (Outcome.reject_iff.2 h0)

theorem outcome_receive (os : OS W) {m : Machine W} {P : Machine W → Prop} (h0 : P m)
    (hcaps : Outcome (OnCaps os) m (fun _ => P) (fun _ => P))
    (hupdate : m.this.m_handShakeComplated = true → Outcome (OnUpdateAppList os) m (fun _ => P) (fun _ => P))
    (hdelete : m.this.m_handShakeComplated = true → Outcome (OnDeleteAppList os) m (fun _ => P) (fun _ => P))
    (hassociate : m.this.m_handShakeComplated = true → Outcome (OnAssociateWindowId os) m (fun _ => P) (fun _ => P)) :
    Outcome (receive os) m (fun _ => P) (fun _ => P) :=
  Outcome.bind ((outcome_readHeader m).mono
    (fun _ _ hm => hm ▸ outcome_dispatch os h0 (fun _ => hcaps) (fun _ => hupdate) hdelete hassociate) fun _ _ hm => hm ▸ h0)

/-- An invariant of every handler and of closing holds in every reachable state. -/
theorem Reachable.invariant {os : OS W} {Ok : Reading (Machine W) → Prop} {I : Machine W → Prop}
    (hfresh : ∀ w, I (.fresh w))
    (hmessage : ∀ s : Reading (Machine W), s.Valid → s.out.this.m_bChannelClosed = false → Ok s → I s.out →
      I (finalState (receive os s)).out)
    (hclose : ∀ m m', OnClose os m = some m' → I m → I m') {m : Machine W} (h : Reachable os Ok m) : I m := by
  induction h with
  | fresh w => exact hfresh w
  | message _ hs hc hok ih => exact hmessage _ hs hc hok ih
  | close _ hm ih => exact hclose _ _ hm ih

end Wslg
