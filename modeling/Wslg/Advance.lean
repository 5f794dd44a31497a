import Wslg.Receive
/-!
# Progress of the receive loop

The loop goes on where the header of the last PDU says. It gets ahead as long as
no PDU that is accepted claims to be empty; one that does is received over and
over again.
-/

open Lib Lib.TraceM

namespace Wslg.Server

variable {W : Type} {env : Outside W} {s t : InputStream} {sys : Traced W ServerEvent}

/-! ## One PDU -/

def headerNext (s : InputStream) : RDPAPPLIST_HEADER := ⟨read32 (s.next 4), read32 ((s.skip 4).next 4)⟩

def capsNext (s : InputStream) : RDPAPPLIST_CLIENT_CAPS_PDU :=
  ⟨read16 ((s.skip 8).next 2), (s.skip 10).next RDPAPPLIST_LANG_SIZE⟩

/-- A whole CAPS PDU is next. -/
def CapsNext (s : InputStream) : Prop :=
  s.position + 42 ≤ s.buffer.length ∧ (headerNext s).cmdId = RDPAPPLIST_CMDID_CAPS

/-- The callback takes it, if there is one. -/
def Welcome (env : Outside W) (pdu : RDPAPPLIST_CLIENT_CAPS_PDU) (w : W) : Prop :=
  ∀ f, env.ApplicationListClientCaps = some f → (f pdu w).1 = CHANNEL_RC_OK

/-- The events of the callback. -/
def called (env : Outside W) (position : Nat) (pdu : RDPAPPLIST_CLIENT_CAPS_PDU) : List ServerEvent :=
  if env.ApplicationListClientCaps.isSome then [.clientCaps position pdu] else []

theorem skip_skip (s : InputStream) (m n : Nat) : (s.skip m).skip n = s.skip (m + n) := by
  simp [InputStream.skip, InputStream.seek, Nat.add_assoc]

/-- Calling back leaves at most one event. -/
theorem callClientCaps_spec (env : Outside W) (s : InputStream) (pdu : RDPAPPLIST_CLIENT_CAPS_PDU)
    (sys : Traced W ServerEvent) : (callClientCaps env s pdu sys).2.trace = sys.trace ++ called env s.position pdu ∧
      ((callClientCaps env s pdu sys).1 = CHANNEL_RC_OK ↔ Welcome env pdu sys.world) := by
  unfold callClientCaps called Welcome
  cases hf : env.ApplicationListClientCaps with
  | none => simp
  | some f => simp

@[simp] theorem skip_position (s : InputStream) (n : Nat) : (s.skip n).position = s.position + n := rfl
@[simp] theorem skip_buffer (s : InputStream) (n : Nat) : (s.skip n).buffer = s.buffer := rfl
@[simp] theorem skip_capacity (s : InputStream) (n : Nat) : (s.skip n).capacity = s.capacity := rfl

/-- A whole CAPS PDU goes to the callback, and the position to where the header says. -/
theorem receive_caps (h : CapsNext s) : rdpapplist_server_receive_pdu env s sys =
    (((callClientCaps env (s.skip 42) (capsNext s) sys).1,
      goToEnd env (s.skip 42) (s.position + (headerNext s).length.toNat)),
      (callClientCaps env (s.skip 42) (capsNext s) sys).2) := by
  obtain ⟨hlen, hcmd⟩ := h
  have hread : rdpapplist_read_header s = .ok (headerNext s, s.skip 8) := by
    rw [rdpapplist_read_header, if_neg (by simp only [InputStream.remaining]; omega)]
    rfl
  rw [rdpapplist_server_receive_pdu, hread]
  simp only [receiveBody, hcmd, if_true, rdpapplist_recv_caps_pdu, InputStream.remaining, skip_position, skip_buffer,
    skip_skip]
  rw [if_neg (by omega), if_neg (by simp only [RDPAPPLIST_LANG_SIZE]; omega)]
  rfl

/-- Anything else is an error, before the callback is reached. -/
theorem receive_other (h : ¬ CapsNext s) : (rdpapplist_server_receive_pdu env s sys).1.1 ≠ CHANNEL_RC_OK ∧
    (rdpapplist_server_receive_pdu env s sys).2 = sys := by
  have herror : ERROR_INVALID_DATA ≠ CHANNEL_RC_OK := by decide
  rw [rdpapplist_server_receive_pdu, rdpapplist_read_header]
  by_cases hheader : s.remaining < 8
  · rw [if_pos hheader]
    -- no whole header
    exact ⟨herror, rfl⟩
  rw [if_neg hheader]
  simp only [receiveBody]
  by_cases hcmd : (headerNext s).cmdId = RDPAPPLIST_CMDID_CAPS
  · rw [if_pos (show (RDPAPPLIST_HEADER.mk _ _).cmdId = _ from hcmd), rdpapplist_recv_caps_pdu]
    by_cases hversion : (s.skip 8).remaining < 2
    · rw [if_pos hversion]
      -- no version
      exact ⟨herror, rfl⟩
    rw [if_neg hversion]
    by_cases hlang : ((s.skip 8).skip 2).remaining < RDPAPPLIST_LANG_SIZE
    · simp only [if_pos hlang]
      -- no language
      exact ⟨herror, rfl⟩
    · refine (h ⟨?_, hcmd⟩).elim
      simp only [InputStream.remaining, RDPAPPLIST_LANG_SIZE, skip_position, skip_buffer] at *
      omega
  · rw [if_neg (show ¬ (RDPAPPLIST_HEADER.mk _ _).cmdId = _ from hcmd)]
    exact ⟨by simp only [pure_run, bind_run]; decide, rfl⟩

/-- A PDU is accepted exactly if it is a whole CAPS PDU that is welcome. -/
theorem receive_pdu_ok : (rdpapplist_server_receive_pdu env s sys).1.1 = CHANNEL_RC_OK ↔
    CapsNext s ∧ Welcome env (capsNext s) sys.world := by
  by_cases h : CapsNext s
  · rw [receive_caps h, (callClientCaps_spec env _ _ sys).2]
    exact (and_iff_right h).symm
  · exact iff_of_false (receive_other h).1 fun hc => h hc.1

variable (env) in
/-- Where an accepted PDU leaves the stream. -/
theorem position_goToEnd (hs : CapsNext s) {n : Nat} :
    (goToEnd env (s.skip 42) (s.position + n)).buffer = s.buffer ∧
      (s.position < (goToEnd env (s.skip 42) (s.position + n)).position ↔ n ≠ 0) := by
  have hcap := s.fits
  have hlen := hs.1
  unfold goToEnd
  split
  · rcases env.setPosition (s.skip 42) (s.position + n) with h | ⟨hbeyond, h⟩
    · rw [h]
      refine ⟨rfl, ?_⟩
      simp only [InputStream.seek]
      omega
    · -- the stream stays behind the PDU that was read
      rw [h]
      simp only [skip_capacity, skip_position] at *
      refine ⟨rfl, ?_⟩
      omega
  · rename_i h
    simp only [skip_position, not_not] at h
    refine ⟨rfl, ?_⟩
    simp only [skip_position]
    omega

/-! ## The loop -/

/-- The states in which the loop that starts with `s₀` tests its condition. -/
inductive Visits (env : Outside W) (s₀ : InputStream) (sys₀ : Traced W ServerEvent) :
    InputStream → Traced W ServerEvent → Prop
  | start : Visits env s₀ sys₀ s₀ sys₀
  | next {s : InputStream} {sys : Traced W ServerEvent} : Visits env s₀ sys₀ s sys → s.position < s.buffer.length →
      (rdpapplist_server_receive_pdu env s sys).1.1 = CHANNEL_RC_OK →
      Visits env s₀ sys₀ (rdpapplist_server_receive_pdu env s sys).1.2 (rdpapplist_server_receive_pdu env s sys).2

/-- No PDU that is accepted where the loop comes by has length 0. -/
def NoEmptyPdu (env : Outside W) (s₀ : InputStream) (sys₀ : Traced W ServerEvent) : Prop :=
  ∀ s sys, Visits env s₀ sys₀ s sys → CapsNext s → Welcome env (capsNext s) sys.world → (headerNext s).length ≠ 0

/-- Where the callback ran. -/
def positionsIn (evs : List ServerEvent) : List Nat :=
  evs.filterMap fun | .clientCaps position _ => some position | _ => none

@[simp] theorem positionsIn_append (evs evs' : List ServerEvent) :
    positionsIn (evs ++ evs') = positionsIn evs ++ positionsIn evs' := List.filterMap_append

theorem mem_positionsIn_called {position p : Nat} {pdu : RDPAPPLIST_CLIENT_CAPS_PDU}
    (h : p ∈ positionsIn (called env position pdu)) : p = position := by
  unfold called at h
  split at h
  · simpa [positionsIn] using h
  · simp [positionsIn] at h

/-- What the loop should do. -/
structure GetsAhead (env : Outside W) (s₀ : InputStream) (sys₀ : Traced W ServerEvent) : Prop where
  ends : ∃ fuel, (receiveAll env fuel s₀ sys₀).1 ≠ none
  /-- A PDU that is accepted moves the position on. -/
  advances : ∀ s sys, Visits env s₀ sys₀ s sys → (rdpapplist_server_receive_pdu env s sys).1.1 = CHANNEL_RC_OK →
    s.position < (rdpapplist_server_receive_pdu env s sys).1.2.position
  /-- The callback runs once for a PDU at most: each time further on. -/
  once : ∀ fuel, ∃ evs, (receiveAll env fuel s₀ sys₀).2.trace = sys₀.trace ++ evs ∧ (positionsIn evs).Pairwise (· < ·)

theorem receiveAll_stop (fuel : Nat) (h : ¬ s.position < s.buffer.length) :
    receiveAll env fuel s sys = (some (CHANNEL_RC_OK, s), sys) := by
  have hrun : receiveAll env fuel s = pure (some (CHANNEL_RC_OK, s)) := by
    rw [receiveAll.eq_def]
    exact if_neg h
  rw [hrun, pure_run]

theorem receiveAll_zero (h : s.position < s.buffer.length) : receiveAll env 0 s sys = (none, sys) := by
  have hrun : receiveAll env 0 s = pure none := by
    rw [receiveAll.eq_def]
    exact if_pos h
  rw [hrun, pure_run]

theorem receiveAll_succ (fuel : Nat) (h : s.position < s.buffer.length) : receiveAll env (fuel + 1) s =
    rdpapplist_server_receive_pdu env s >>= fun r =>
      if r.1 ≠ CHANNEL_RC_OK then pure (some r) else receiveAll env fuel r.2 := by
  rw [receiveAll.eq_def]
  exact if_pos h

theorem receiveAll_last (fuel : Nat) (h : s.position < s.buffer.length)
    (hr : (rdpapplist_server_receive_pdu env s sys).1.1 ≠ CHANNEL_RC_OK) : receiveAll env (fuel + 1) s sys =
      (some (rdpapplist_server_receive_pdu env s sys).1, (rdpapplist_server_receive_pdu env s sys).2) := by
  rw [receiveAll_succ fuel h, bind_run, if_pos hr, pure_run]

theorem receiveAll_turn (fuel : Nat) (h : s.position < s.buffer.length)
    (hr : (rdpapplist_server_receive_pdu env s sys).1.1 = CHANNEL_RC_OK) : receiveAll env (fuel + 1) s sys =
      receiveAll env fuel (rdpapplist_server_receive_pdu env s sys).1.2 (rdpapplist_server_receive_pdu env s sys).2 := by
  rw [receiveAll_succ fuel h, bind_run, if_neg (not_not.2 hr)]

theorem receive_advances (h : (rdpapplist_server_receive_pdu env s sys).1.1 = CHANNEL_RC_OK) :
    (rdpapplist_server_receive_pdu env s sys).1.2.buffer = s.buffer ∧
      (s.position < (rdpapplist_server_receive_pdu env s sys).1.2.position ↔ (headerNext s).length ≠ 0) := by
  obtain ⟨hc, -⟩ := receive_pdu_ok.1 h
  obtain ⟨hbuf, hpos⟩ := position_goToEnd env hc (n := (headerNext s).length.toNat)
  rw [receive_caps hc]
  refine ⟨hbuf, hpos.trans (not_congr ?_)⟩
  rw [← UInt32.toNat_inj]
  rfl

variable (env) in
/-- What a PDU adds to the trace: at most one call of the callback, behind the PDU. -/
theorem receive_trace (s : InputStream) (sys : Traced W ServerEvent) : ∃ evs,
    (rdpapplist_server_receive_pdu env s sys).2.trace = sys.trace ++ evs ∧
      (positionsIn evs).Pairwise (· < ·) ∧ ∀ p ∈ positionsIn evs, p = s.position + 42 := by
  by_cases hc : CapsNext s
  · rw [receive_caps hc]
    refine ⟨_, (callClientCaps_spec env _ _ sys).1, ?_, fun p hp => mem_positionsIn_called hp⟩
    unfold called
    split <;> simp [positionsIn]
  · rw [(receive_other hc).2]
    exact ⟨[], by simp, .nil, by simp [positionsIn]⟩

/-- By induction on the turns: fuel for the bytes that are left is enough, and the positions increase. -/
theorem receiveAll_spec {s₀ : InputStream} {sys₀ : Traced W ServerEvent} (h : NoEmptyPdu env s₀ sys₀) (fuel : Nat)
    {s : InputStream} {sys : Traced W ServerEvent} (hv : Visits env s₀ sys₀ s sys) :
    (s.buffer.length ≤ s.position + fuel → (receiveAll env fuel s sys).1 ≠ none) ∧
      ∃ evs, (receiveAll env fuel s sys).2.trace = sys.trace ++ evs ∧ (positionsIn evs).Pairwise (· < ·) ∧
        ∀ p ∈ positionsIn evs, s.position + 42 ≤ p := by
  induction fuel generalizing s sys with
  | zero =>
    by_cases hlt : s.position < s.buffer.length
    · rw [receiveAll_zero hlt]
      exact ⟨fun hf => absurd hlt (by omega), [], by simp, .nil, by simp [positionsIn]⟩
    · rw [receiveAll_stop 0 hlt]
      exact ⟨fun _ => by simp, [], by simp, .nil, by simp [positionsIn]⟩
  | succ fuel ih =>
    by_cases hlt : s.position < s.buffer.length
    · obtain ⟨evs, htrace, hone, hat⟩ := receive_trace env s sys
      by_cases hok : (rdpapplist_server_receive_pdu env s sys).1.1 = CHANNEL_RC_OK
      · obtain ⟨hbuf, hpos⟩ := receive_advances hok
        -- an accepted PDU is not empty, so less of the buffer is left
        have hahead := hpos.2 (h s sys hv (receive_pdu_ok.1 hok).1 (receive_pdu_ok.1 hok).2)
        obtain ⟨hends, evs', htrace', hmore, hbound⟩ := ih (.next hv hlt hok)
        rw [receiveAll_turn fuel hlt hok]
        refine ⟨fun hf => hends (by rw [hbuf]; omega), evs ++ evs', by rw [htrace', htrace, List.append_assoc], ?_, ?_⟩
        · rw [positionsIn_append, List.pairwise_append]
          refine ⟨hone, hmore, fun p hp q hq => ?_⟩
          have := hat p hp
          -- the later calls are of PDUs further on
          have := hbound q hq
          omega
        · intro p hp
          rw [positionsIn_append, List.mem_append] at hp
          rcases hp with hp | hp
          · exact (hat p hp).ge
          · have := hbound p hp
            omega
      · rw [receiveAll_last fuel hlt hok]
        exact ⟨fun _ => by simp, evs, htrace, hone, fun p hp => (hat p hp).ge⟩
    · rw [receiveAll_stop _ hlt]
      exact ⟨fun _ => by simp, [], by simp, .nil, by simp [positionsIn]⟩

/-- The loop gets ahead exactly if it comes by no accepted PDU of length 0. -/
theorem receive_loop_gets_ahead (env : Outside W) (s₀ : InputStream) (sys₀ : Traced W ServerEvent) :
    GetsAhead env s₀ sys₀ ↔ NoEmptyPdu env s₀ sys₀ := by
  constructor
  · intro h s sys hv hc hw
    have hok := receive_pdu_ok.2 ⟨hc, hw⟩
    exact (receive_advances hok).2.1 (h.advances s sys hv hok)
  · intro h
    refine ⟨⟨s₀.buffer.length, (receiveAll_spec h _ .start).1 (by omega)⟩, fun s sys hv hok => ?_, fun fuel => ?_⟩
    · exact (receive_advances hok).2.2 (h s sys hv (receive_pdu_ok.1 hok).1 (receive_pdu_ok.1 hok).2)
    · obtain ⟨evs, htrace, hpos, -⟩ := (receiveAll_spec h fuel .start).2
      exact ⟨evs, htrace, hpos⟩

/-! ### A PDU that claims to be empty -/

/-- Buffers that wait on the channel, and a server on which every call works. -/
def workingOutside : Outside (List (List BYTE)) where
  WTSQuerySessionInformationA w := (some 1, w)
  WTSVirtualChannelOpenEx _ w := (.ok 7, w)
  WTSVirtualEventHandle _ w := (some 8, w)
  WTSVirtualChannelReady _ w := (.ok true, w)
  WTSVirtualChannelRead_length _ w := (.ok (w.headD []).length, w)
  WTSVirtualChannelRead _ capacity w := (some ⟨(w.headD []).take capacity, List.length_take_le _ _⟩, w.tail)
  Stream_EnsureRemainingCapacity capacity n w := (some ⟨max capacity n, Nat.le_max_left _ _, Nat.le_max_right _ _⟩, w)
  CreateEvent w := (some 9, w)
  CreateThread w := (some 10, w)
  WaitForMultipleObjects _ _ w := (.channelEvent, w)
  WaitForSingleObject _ w := (none, w)
  ApplicationListClientCaps := some fun _ w => (CHANNEL_RC_OK, w)
  Stream_SetPosition s p := s.seek p
  setPosition _ _ := .inl rfl

/-- The caps of a client, with length 0 in the header. -/
def emptyPdu : InputStream where
  buffer := le32 RDPAPPLIST_CMDID_CAPS ++ le32 0 ++ le16 4 ++ List.replicate 32 0
  capacity := 42
  position := 0
  fits := by decide

theorem emptyPdu_again (sys : Traced (List (List BYTE)) ServerEvent) :
    (rdpapplist_server_receive_pdu workingOutside emptyPdu sys).1 = (CHANNEL_RC_OK, emptyPdu) := by
  have hc : CapsNext emptyPdu := ⟨by decide, by decide⟩
  have hlen : (headerNext emptyPdu).length.toNat = 0 := by decide
  rw [receive_caps hc, hlen]
  rfl

theorem emptyPdu_keeps (fuel : Nat) (sys : Traced (List (List BYTE)) ServerEvent) :
    (receiveAll workingOutside fuel emptyPdu sys).1 = none := by
  have hlt : emptyPdu.position < emptyPdu.buffer.length := by decide
  induction fuel generalizing sys with
  | zero => rw [receiveAll_zero hlt]
  | succ fuel ih =>
    have hagain := emptyPdu_again sys
    rw [receiveAll_turn fuel hlt (by rw [hagain]), hagain]
    exact ih _

/-- It is accepted, the position stays, and no fuel is enough. -/
theorem empty_pdu_never_ends : (rdpapplist_server_receive_pdu workingOutside emptyPdu ⟨[], []⟩).1 = (CHANNEL_RC_OK, emptyPdu) ∧
    ¬ ∃ fuel, (receiveAll workingOutside fuel emptyPdu ⟨[], []⟩).1 ≠ none := by
  refine ⟨emptyPdu_again _, ?_⟩
  rintro ⟨fuel, hends⟩
  exact hends (emptyPdu_keeps fuel _)

end Wslg.Server
