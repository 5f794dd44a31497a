import Wslg.Channel
/-!
# Open is all or nothing

`rdpapplist_server_open` undoes what it has as long as the channel cannot be had.
Behind that the stop event and the thread are created, and there a failure is
logged and the result is success all the same.
-/

open Lib Lib.TraceM

namespace Wslg.Server

variable {W : Type}

/-! ## All and nothing -/

/-- Nothing is held. The event of a channel that was closed may still be noted. -/
structure Closed (s : ServerState) : Prop where
  channel : s.priv.rdpapplist_channel = none
  stopEvent : s.priv.stopEvent = none
  thread : s.priv.thread = none
  running : s.running = none

/-- The channel and both events are there, and the thread runs and waits for them. -/
structure Opened (s : ServerState) : Prop where
  channel : s.priv.rdpapplist_channel.isSome
  channelEvent : s.priv.channelEvent.isSome
  stopEvent : s.priv.stopEvent.isSome
  thread : s.priv.thread.isSome
  running : s.running = some ⟨s.priv.stopEvent, s.priv.channelEvent⟩

/-- A close does not wait forever: if a thread runs, it waits for the event that is set. -/
def CloseEnds (s : ServerState) : Prop :=
  ∀ events, s.running = some events → s.priv.stopEvent.isSome ∧ events.stopEvent = s.priv.stopEvent

/-- The thread, if there is one, can be waited for. -/
def CanWait (env : Outside W) (s : ServerState) (w : W) : Prop :=
  ∀ thread, s.priv.thread = some thread → (env.WaitForSingleObject thread w).1 = none

/-- What `rdpapplist_server_open` and the close that follows should do. -/
structure AllOrNothing (env : Outside W) (s : ServerState) (sys : Traced W ServerEvent) : Prop where
  all : (rdpapplist_server_open env s sys).1.1 = CHANNEL_RC_OK → Opened (rdpapplist_server_open env s sys).1.2
  nothing : (rdpapplist_server_open env s sys).1.1 ≠ CHANNEL_RC_OK → Closed (rdpapplist_server_open env s sys).1.2
  ends : CloseEnds (rdpapplist_server_open env s sys).1.2
  /-- The close comes when it likes. -/
  closes : ∀ sys', CanWait env (rdpapplist_server_open env s sys).1.2 sys'.world →
    Closed (rdpapplist_server_close env (rdpapplist_server_open env s sys).1.2 sys').1.2

/-! ## When it does -/

def creationWorks (env : Outside W) (w : W) : Bool :=
  (env.CreateEvent w).1.isSome && (env.CreateThread (env.CreateEvent w).2).1.isSome

/-- Either the channel cannot be had, with an error, or the event and the thread can be created as well. -/
def opensCleanly (env : Outside W) (w : W) : Bool :=
  match env.WTSQuerySessionInformationA w with
  | (none, _) => true
  | (some sessionId, w) =>
    match env.WTSVirtualChannelOpenEx sessionId w with
    | (.error rc, _) => rc != CHANNEL_RC_OK
    | (.ok channel, w) =>
      match env.WTSVirtualEventHandle channel w with
      | (none, _) => true
      | (some _, w) => creationWorks env w

/-! ## Close -/

/-- Whatever is held, a close gives it back if the thread can be waited for. -/
theorem close_closes (env : Outside W) {s : ServerState} (sys : Traced W ServerEvent) (hw : CanWait env s sys.world)
    (hstop : s.priv.thread = none → s.priv.stopEvent = none ∧ s.running = none) :
    Closed (rdpapplist_server_close env s sys).1.2 := by
  have hopened : ∀ (t : ServerState) (sys' : Traced W ServerEvent), t.priv.thread = none → t.priv.stopEvent = none →
      t.running = none → Closed (closeOpened t sys').1.2 := by
    intro t sys' hthread hevent hrunning
    unfold closeOpened
    split
    · exact ⟨rfl, hevent, hthread, hrunning⟩
    · rename_i hchannel
      exact ⟨by simpa using hchannel, hevent, hthread, hrunning⟩
  unfold rdpapplist_server_close stopThread
  simp only [bind_run]
  cases hthread : s.priv.thread with
  | none => exact hopened s sys hthread (hstop hthread).1 (hstop hthread).2
  | some thread =>
    simp only [bind_run, call_run]
    rcases hwait : env.WaitForSingleObject thread sys.world with ⟨_ | error, w⟩
    · exact hopened _ _ rfl rfl rfl
    · have hnone := hw thread hthread
      rw [hwait] at hnone
      cases hnone

theorem Closed.close (env : Outside W) {s : ServerState} (hs : Closed s) (sys : Traced W ServerEvent) :
    Closed (rdpapplist_server_close env s sys).1.2 := by
  refine close_closes env sys (fun thread h => ?_) fun _ => ⟨hs.stopEvent, hs.running⟩
  rw [hs.thread] at h
  cases h

theorem Opened.close (env : Outside W) {s : ServerState} (hs : Opened s) (sys : Traced W ServerEvent)
    (hw : CanWait env s sys.world) : Closed (rdpapplist_server_close env s sys).1.2 := by
  refine close_closes env sys hw fun h => ?_
  have hthread := hs.thread
  rw [h] at hthread
  cases hthread

theorem Closed.ends {s : ServerState} (hs : Closed s) : CloseEnds s := fun events h => by
  rw [hs.running] at h
  cases h

theorem Opened.ends {s : ServerState} (hs : Opened s) : CloseEnds s := fun events h => by
  rw [hs.running] at h
  obtain rfl := Option.some.inj h
  exact ⟨hs.stopEvent, rfl⟩

/-! ## Open -/

theorem allOrNothing_of {env : Outside W} {s : ServerState} {sys : Traced W ServerEvent}
    (h : (rdpapplist_server_open env s sys).1.1 = CHANNEL_RC_OK ∧ Opened (rdpapplist_server_open env s sys).1.2 ∨
      (rdpapplist_server_open env s sys).1.1 ≠ CHANNEL_RC_OK ∧ Closed (rdpapplist_server_open env s sys).1.2) :
    AllOrNothing env s sys := by
  rcases h with ⟨hok, hopened⟩ | ⟨herror, hclosed⟩
  · exact ⟨fun _ => hopened, fun h => (h hok).elim, hopened.ends, fun sys' hw => hopened.close env sys' hw⟩
  · exact ⟨fun h => (herror h).elim, fun _ => hclosed, hclosed.ends, fun sys' _ => hclosed.close env sys'⟩

/-- An error before there is a channel and its event: what was opened is closed again. -/
theorem open_failed {env : Outside W} {s : ServerState} {sys : Traced W ServerEvent} (hs : Closed s) {rc : UINT}
    (h : (openChannel env s.priv sys).1.1 = some rc) (hthread : (openChannel env s.priv sys).1.2.thread = s.priv.thread)
    (hstop : (openChannel env s.priv sys).1.2.stopEvent = s.priv.stopEvent) :
    (rdpapplist_server_open env s sys).1.1 = rc ∧ Closed (rdpapplist_server_open env s sys).1.2 := by
  unfold rdpapplist_server_open
  simp only [bind_run]
  rcases hopen : openChannel env s.priv sys with ⟨⟨_ | rc', priv⟩, sys'⟩ <;> rw [hopen] at h hthread hstop
  · cases h
  · obtain rfl := Option.some.inj h
    exact ⟨rfl, rfl, hstop.trans hs.stopEvent, hthread.trans hs.thread, hs.running⟩

/-- Behind the channel the result is success, whatever becomes of the event and the thread. -/
theorem open_started {env : Outside W} {s : ServerState} {sys : Traced W ServerEvent} (hs : Closed s)
    {priv : RdpAppListServerPrivate} {sys' : Traced W ServerEvent} (h : openChannel env s.priv sys = ((none, priv), sys'))
    (hchannel : priv.rdpapplist_channel.isSome) (hevent : priv.channelEvent.isSome) (hthread : priv.thread = s.priv.thread) :
    (rdpapplist_server_open env s sys).1.1 = CHANNEL_RC_OK ∧
      (Opened (rdpapplist_server_open env s sys).1.2 ↔ creationWorks env sys'.world) := by
  have hnone : priv.thread = none := hthread.trans hs.thread
  unfold rdpapplist_server_open startThread creationWorks
  simp only [bind_run, h, hnone, if_true, call_run]
  rcases hthread' : env.CreateThread (env.CreateEvent sys'.world).2 with ⟨_ | thread, w⟩
  · refine ⟨rfl, iff_of_false (fun ho => ?_) (by simp)⟩
    have := ho.thread
    cases this
  · refine ⟨rfl, ?_⟩
    constructor
    · intro ho
      have := ho.stopEvent
      simpa using this
    · intro hcreated
      exact ⟨hchannel, hevent, by simpa using hcreated, rfl, rfl⟩

/-- On a closed context it is all or nothing exactly if the calls settle it cleanly. -/
theorem open_all_or_nothing_iff (env : Outside W) {s : ServerState} (sys : Traced W ServerEvent) (hs : Closed s) :
    AllOrNothing env s sys ↔ opensCleanly env sys.world := by
  have hinternal : ERROR_INTERNAL_ERROR ≠ CHANNEL_RC_OK := by decide
  unfold opensCleanly
  rcases hsession : env.WTSQuerySessionInformationA sys.world with ⟨_ | sessionId, w⟩
  -- no session
  · have hopen : openChannel env s.priv sys =
        ((some ERROR_INTERNAL_ERROR, { s.priv with SessionId := WTS_CURRENT_SESSION }), { sys with world := w }) := by
      simp only [openChannel, bind_run, call_run, hsession, pure_run]
    obtain ⟨hrc, hclosed⟩ := open_failed hs (by rw [hopen]) (by rw [hopen]) (by rw [hopen])
    exact iff_of_true (allOrNothing_of (.inr ⟨hrc ▸ hinternal, hclosed⟩)) rfl
  dsimp only
  rcases hchannel : env.WTSVirtualChannelOpenEx sessionId w with ⟨rc | channel, w₁⟩
  -- no channel: the result is the last error
  · have hopen : openChannel env s.priv sys =
        ((some rc, { s.priv with SessionId := sessionId, rdpapplist_channel := none }), { sys with world := w₁ }) := by
      simp only [openChannel, bind_run, call_run, hsession, hchannel, pure_run]
    obtain ⟨hrc, hclosed⟩ := open_failed hs (by rw [hopen]) (by rw [hopen]) (by rw [hopen])
    simp only [bne_iff_ne]
    constructor
    · intro h hzero
      have := (h.all (hrc.trans hzero)).channel
      rw [hclosed.channel] at this
      cases this
    · intro hne
      exact allOrNothing_of (.inr ⟨hrc ▸ hne, hclosed⟩)
  dsimp only
  rcases hevent : env.WTSVirtualEventHandle channel w₁ with ⟨_ | event, w₂⟩
  -- no event
  · have hopen : openChannel env s.priv sys =
        ((some ERROR_INTERNAL_ERROR, { s.priv with SessionId := sessionId, rdpapplist_channel := some channel }),
          ⟨w₂, sys.trace ++ [.opened channel]⟩) := by
      simp only [openChannel, bind_run, call_run, emit_run, hsession, hchannel, hevent, pure_run]
    obtain ⟨hrc, hclosed⟩ := open_failed hs (by rw [hopen]) (by rw [hopen]) (by rw [hopen])
    exact iff_of_true (allOrNothing_of (.inr ⟨hrc ▸ hinternal, hclosed⟩)) rfl
  · have hopen : openChannel env s.priv sys =
        ((none, { s.priv with
          SessionId := sessionId, rdpapplist_channel := some channel, channelEvent := some event }),
          ⟨w₂, sys.trace ++ [.opened channel]⟩) := by
      simp only [openChannel, bind_run, call_run, emit_run, hsession, hchannel, hevent, pure_run]
    obtain ⟨hok, hopened⟩ := open_started hs hopen rfl rfl rfl
    constructor
    · intro h
      exact hopened.1 (h.all hok)
    · intro hcreated
      exact allOrNothing_of (.inl ⟨hok, hopened.2 hcreated⟩)

/-! ## A new context -/

/-- As `rdpapplist_server_context_new` leaves it. -/
def newState : ServerState := (ServerMachine.new ()).state

theorem closed_newState : Closed newState := ⟨rfl, rfl, rfl, rfl⟩

theorem open_all_or_nothing_iff_on_new :
    Closed newState ∧ (AllOrNothing workingOutside newState ⟨[], []⟩ ↔ opensCleanly workingOutside []) :=
  ⟨closed_newState, open_all_or_nothing_iff workingOutside ⟨[], []⟩ closed_newState⟩

/-- Every call works but the one that creates the thread. -/
def threadless : Outside (List (List BYTE)) := { workingOutside with CreateThread := fun w => (none, w) }

/-- Success, and there is neither a thread nor an event to stop one. -/
theorem open_succeeds_threadless :
    Closed newState ∧ (rdpapplist_server_open threadless newState ⟨[], []⟩).1.1 = CHANNEL_RC_OK ∧
      (rdpapplist_server_open threadless newState ⟨[], []⟩).1.2.priv.thread = none ∧
      ¬ AllOrNothing threadless newState ⟨[], []⟩ := by
  refine ⟨closed_newState, rfl, rfl, fun h => ?_⟩
  have hthread := h.all rfl
  cases hthread.thread

end Wslg.Server
