import Wslg.Channel
import Wslg.Lib.Slot
/-!
# The channels the server opens

`rdpapplist_server_open` writes the new channel over the one of the context. Over the
whole life of a context no channel is closed twice, or without having been opened; a
channel is lost just where `Open` is called on a context that has one.
-/

open Lib Lib.TraceM

namespace Wslg.Server

variable {W : Type}

/-! ## Events of channels -/

def ServerEvent.opened? : ServerEvent → Option HANDLE
  | .opened channel => some channel
  | _ => none

/-- Closing no channel does nothing. -/
def ServerEvent.closed? : ServerEvent → Option HANDLE
  | .closed channel => channel
  | _ => none

/-- Whatever was opened and not closed is the channel of the context. -/
def Accounted (s : ServerMachine W) : Prop :=
  Accounts ServerEvent.opened? ServerEvent.closed? s.state.priv.rdpapplist_channel s.sys.trace

/-- The channel of the context is open, and none was closed that was not open. -/
def Open (s : ServerMachine W) : Prop :=
  Backed ServerEvent.opened? ServerEvent.closed? s.state.priv.rdpapplist_channel s.sys.trace

/-! ## What a call does to the channel -/

abbrev ChannelStep (priv : RdpAppListServerPrivate) (sys : Traced W ServerEvent) (priv' : RdpAppListServerPrivate)
    (sys' : Traced W ServerEvent) (lost : Bool) : Prop :=
  ∃ evs, sys'.trace = sys.trace ++ evs ∧ SlotStep ServerEvent.opened? ServerEvent.closed? priv.rdpapplist_channel evs
    priv'.rdpapplist_channel lost

/-- `Open` with the channel of before still there. -/
def loses (env : Outside W) (s : ServerState) (w : W) : ServerAction → Bool
  | .opens => s.priv.rdpapplist_channel.isSome && (env.WTSQuerySessionInformationA w).1.isSome
  | _ => false

/-- The thread changes nothing about it. -/
theorem channelStep_startThread (env : Outside W) {priv : RdpAppListServerPrivate} {sys : Traced W ServerEvent}
    (s : ServerState) (sys' : Traced W ServerEvent) {evs : List ServerEvent} {lost : Bool}
    (h : SlotStep ServerEvent.opened? ServerEvent.closed? priv.rdpapplist_channel evs s.priv.rdpapplist_channel lost)
    (htrace : sys'.trace = sys.trace ++ evs) :
    ChannelStep priv sys (startThread env s sys').1.priv (startThread env s sys').2 lost := by
  obtain ⟨hsame, -, hchannel⟩ := startThread_keeps env s sys'
  exact ⟨evs, hsame.trans htrace, hchannel.symm ▸ h⟩

theorem channelStep_opens (env : Outside W) (s : ServerState) (sys : Traced W ServerEvent) :
    ChannelStep s.priv sys (rdpapplist_server_open env s sys).1.2.priv (rdpapplist_server_open env s sys).2
      (loses env s sys.world .opens) := by
  unfold rdpapplist_server_open openChannel loses
  simp only [bind_run, call_run]
  rcases env.WTSQuerySessionInformationA sys.world with ⟨_ | sessionId, w⟩
  -- without a session the old channel is closed
  · rw [Option.isSome_none, Bool.and_false]
    exact ⟨_, rfl, .closes rfl rfl⟩
  rw [Option.isSome_some, Bool.and_true]
  simp only [bind_run, call_run]
  rcases env.WTSVirtualChannelOpenEx sessionId w with ⟨rc | channel, w'⟩
  -- the result of the failed call is written over it
  · exact ⟨_, rfl, .overwrites fun h => rfl⟩
  simp only [bind_run, call_run, emit_run]
  rcases env.WTSVirtualEventHandle channel w' with ⟨_ | event, w''⟩
  · refine ⟨[.opened channel, .closed (some channel)], ?_, .overwrites fun h => ?_⟩
    · simp [closeChannel]
    · show _ = (0 : Int)
      simp [openings, ServerEvent.opened?, ServerEvent.closed?]
  · refine channelStep_startThread env _ _ (.overwrites fun h => ?_) rfl
    simp [openings, ServerEvent.opened?, ServerEvent.closed?, inSlot]

theorem channelStep_closeOpened (s : ServerState) (sys : Traced W ServerEvent) :
    ChannelStep s.priv sys (closeOpened s sys).1.2.priv (closeOpened s sys).2 false := by
  unfold closeOpened
  split
  · exact ⟨_, rfl, .closes rfl rfl⟩
  · exact ⟨[], (List.append_nil _).symm, .keeps fun e he => by cases he⟩

theorem channelStep_closes (env : Outside W) (s : ServerState) (sys : Traced W ServerEvent) :
    ChannelStep s.priv sys (rdpapplist_server_close env s sys).1.2.priv (rdpapplist_server_close env s sys).2 false := by
  unfold rdpapplist_server_close stopThread
  simp only [bind_run]
  cases s.priv.thread with
  | none => exact channelStep_closeOpened s sys
  | some thread =>
    simp only [bind_run, call_run]
    rcases env.WaitForSingleObject thread sys.world with ⟨_ | error, w⟩
    · exact channelStep_closeOpened ⟨{ s.priv with thread := none, stopEvent := none }, none⟩ { sys with world := w }
    -- the thread cannot be waited for, and everything stays
    · exact ⟨[], (List.append_nil _).symm, .keeps fun e he => by cases he⟩

/-! ### Wake-ups -/

def Neutral (e : ServerEvent) : Prop := e.opened? = none ∧ e.closed? = none

theorem neutral_checkReady (env : Outside W) (priv : RdpAppListServerPrivate) (sys : Traced W ServerEvent) :
    Appends Neutral sys (checkReady env priv sys).2 ∧
      (checkReady env priv sys).1.2.rdpapplist_channel = priv.rdpapplist_channel := by
  have hrefl : Appends Neutral sys sys := refl_of _ sys
  unfold checkReady
  split
  · exact ⟨hrefl, rfl⟩
  · simp only [bind_run, call_run]
    rcases env.WTSVirtualChannelReady priv.rdpapplist_channel sys.world with ⟨isReady | _ | _, w⟩
    · exact ⟨⟨_, rfl, fun e he => List.mem_singleton.1 he ▸ ⟨rfl, rfl⟩⟩, rfl⟩
    · exact ⟨hrefl, rfl⟩
    · exact ⟨hrefl, rfl⟩

theorem neutral_readChannel (env : Outside W) (priv : RdpAppListServerPrivate) :
    Keeps (Appends Neutral) (readChannel env priv) := by
  intro sys
  have hread : ∀ e ∈ [ServerEvent.read priv.rdpapplist_channel], Neutral e :=
    fun e he => List.mem_singleton.1 he ▸ ⟨rfl, rfl⟩
  obtain ⟨w, hsys | hsys⟩ := readChannel_spec env priv sys
  · exact ⟨_, by rw [hsys], hread⟩
  · refine ⟨[.read priv.rdpapplist_channel, .read priv.rdpapplist_channel], by rw [hsys, List.append_assoc]; rfl, ?_⟩
    exact fun e he => hread e (by simpa using he)

theorem neutral_handleStream (env : Outside W) (fuel : Nat) (priv : RdpAppListServerPrivate) (s : InputStream)
    (sys : Traced W ServerEvent) : Appends Neutral sys (handleStream env fuel priv s sys).2 ∧
      (handleStream env fuel priv s sys).1.2.rdpapplist_channel = priv.rdpapplist_channel := by
  have hcalls : Appends Neutral sys (receiveAll env fuel s sys).2 :=
    (appends_receiveAll env fuel s sys).mono fun e he => by
      obtain ⟨_, _, rfl⟩ := he
      exact ⟨rfl, rfl⟩
  unfold handleStream
  rw [bind_run]
  rcases hloop : receiveAll env fuel s sys with ⟨_ | r, sys'⟩ <;> rw [hloop] at hcalls
  · exact ⟨hcalls, rfl⟩
  · exact ⟨hcalls, rfl⟩

theorem neutral_handle_messages (env : Outside W) (fuel : Nat) (priv : RdpAppListServerPrivate) (sys : Traced W ServerEvent) :
    Appends Neutral sys (rdpapplist_server_handle_messages env fuel priv sys).2 ∧
      (rdpapplist_server_handle_messages env fuel priv sys).1.2.rdpapplist_channel = priv.rdpapplist_channel := by
  obtain ⟨hchecked, hchannel⟩ := neutral_checkReady env priv sys
  unfold rdpapplist_server_handle_messages
  rw [bind_run]
  rcases hcheck : checkReady env priv sys with ⟨⟨_ | error, checked⟩, sys'⟩ <;> rw [hcheck] at hchecked hchannel
  · dsimp only at hchecked hchannel ⊢
    by_cases hready : checked.isReady = true
    · rw [if_pos hready, bind_run]
      have hread := trans_of (Appends Neutral) hchecked (neutral_readChannel env checked sys')
      rcases hbytes : readChannel env checked sys' with ⟨_ | _ | stream, sys''⟩ <;> rw [hbytes] at hread
      · exact ⟨hread, hchannel⟩
      · exact ⟨hread, hchannel⟩
      · obtain ⟨hcalls, hsame⟩ := neutral_handleStream env fuel checked stream sys''
        exact ⟨trans_of _ hread hcalls, hsame.trans hchannel⟩
    · rw [if_neg hready]
      exact ⟨hchecked, hchannel⟩
  · exact ⟨hchecked, hchannel⟩

theorem channelStep_wakes (env : Outside W) (fuel : Nat) (s : ServerState) (sys : Traced W ServerEvent) :
    ChannelStep s.priv sys (wakeUp env fuel s sys).1.priv (wakeUp env fuel s sys).2 false := by
  have hnone : ∀ w, ∃ evs, (⟨w, sys.trace⟩ : Traced W ServerEvent).trace = sys.trace ++ evs ∧
      SlotStep ServerEvent.opened? ServerEvent.closed? s.priv.rdpapplist_channel evs s.priv.rdpapplist_channel false :=
    fun w => ⟨[], (List.append_nil _).symm, .keeps fun e he => by cases he⟩
  unfold wakeUp
  cases s.running with
  | none => exact hnone sys.world
  | some events =>
    dsimp only
    rw [bind_run, call_run]
    rcases env.WaitForMultipleObjects events.stopEvent events.channelEvent sys.world with ⟨_ | _ | _, w⟩
    · exact hnone w
    · exact hnone w
    · obtain ⟨⟨evs, htrace, hevs⟩, hchannel⟩ := neutral_handle_messages env fuel s.priv { sys with world := w }
      exact ⟨evs, htrace, hchannel.symm ▸ .keeps hevs⟩

/-! ## The life of a context -/

/-- Between two calls the world goes its own ways. -/
def LifeStep (env : Outside W) (s : ServerMachine W) (a : ServerAction × W) (t : ServerMachine W) : Prop :=
  t = perform env ⟨s.state, { s.sys with world := a.2 }⟩ a.1

theorem channelStep_life {env : Outside W} {s t : ServerMachine W} {a : ServerAction × W} (h : LifeStep env s a t) :
    ChannelStep s.state.priv s.sys t.state.priv t.sys (loses env s.state a.2 a.1) := by
  subst h
  obtain ⟨a, w⟩ := a
  cases a with
  | opens => exact channelStep_opens env s.state { s.sys with world := w }
  | closes => exact channelStep_closes env s.state { s.sys with world := w }
  | wakes fuel => exact channelStep_wakes env fuel s.state { s.sys with world := w }

theorem open_step {env : Outside W} {s t : ServerMachine W} {a : ServerAction × W} (hs : Open s) (h : LifeStep env s a t) :
    Open t := by
  obtain ⟨evs, htrace, hstep⟩ := channelStep_life h
  rw [Open, htrace]
  exact hs.step hstep

theorem accounted_step {env : Outside W} {s t : ServerMachine W} {a : ServerAction × W} (hs : Accounted s)
    (h : LifeStep env s a t) : Accounted t ↔ loses env s.state a.2 a.1 = false := by
  obtain ⟨evs, htrace, hstep⟩ := channelStep_life h
  rw [Accounted, htrace]
  exact hs.step_iff hstep

theorem accounted_new (w : W) : Accounted (ServerMachine.new w) := accounts_nil

/-- Over the whole life of a context, whatever is called and whatever fails, the channel of the context is open and no
channel is closed twice; and all the time every channel is closed but that one, exactly if no `Open` finds a session
while the context has a channel. -/
theorem channels_accounted_iff (env : Outside W) {w : W} {as : List (ServerAction × W)} {s : ServerMachine W}
    (h : Run (LifeStep env) (.new w) as s) :
    Open s ∧ ((∀ before a after t, as = before ++ a :: after → Run (LifeStep env) (.new w) before t →
        Run (LifeStep env) t (a :: after) s → loses env t.state a.2 a.1 = false) ↔
      ∀ before after t, as = before ++ after → Run (LifeStep env) (.new w) before t → Run (LifeStep env) t after s →
        Accounted t) := by
  constructor
  · exact h.invariant (I := Open) (fun _ _ _ hs ha => open_step hs ha) (accounted_new w).backed
  · exact Run.throughout_iff_of_state (I := Accounted)
      (P := fun (t : ServerMachine W) (a : ServerAction × W) => loses env t.state a.2 a.1 = false)
      (fun _ _ _ hs ha => accounted_step hs ha) (accounted_new w)

def openedOnce : ServerMachine (List (List BYTE)) := perform workingOutside (.new []) .opens

/-- Opened twice: the first channel is never closed. -/
theorem channels_accounted_iff_opened_twice : ∃ s, Run (LifeStep workingOutside) (.new []) [(.opens, []), (.opens, [])] s ∧
    Open s ∧ ¬ ∀ before after t, [(.opens, []), (.opens, [])] = before ++ after →
      Run (LifeStep workingOutside) (.new []) before t → Run (LifeStep workingOutside) t after s → Accounted t := by
  have hfirst : Run (LifeStep workingOutside) (.new []) [(.opens, [])] openedOnce := .one rfl
  have hsecond : Run (LifeStep workingOutside) openedOnce [(.opens, [])]
      (perform workingOutside ⟨openedOnce.state, { openedOnce.sys with world := [] }⟩ .opens) := .one rfl
  obtain ⟨hopen, hiff⟩ := channels_accounted_iff workingOutside (hfirst.append hsecond)
  refine ⟨_, hfirst.append hsecond, hopen, fun hall => ?_⟩
  have hkept := hiff.2 hall [(.opens, [])] (.opens, []) [] _ rfl hfirst hsecond
  cases hkept

end Wslg.Server
