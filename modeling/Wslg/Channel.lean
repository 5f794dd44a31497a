import Wslg.Advance
import Wslg.Lib.History
import Wslg.Lib.System
/-!
# The server's channel

`rdpapplist_server_open`, `rdpapplist_server_close` and the wake-ups of the server
thread, in any order. The flag `isReady` is set when the channel is reported ready
and never cleared, so a channel that is opened after it was set is read unasked.
-/

open Lib Lib.TraceM

namespace Wslg.Server

variable {W : Type}

/-! ## Open and close -/

def WTS_CURRENT_SESSION : UInt32 := 0xFFFFFFFF

/-- What the thread was created to wait for, as long as it runs. -/
structure ThreadEvents where
  stopEvent : Option HANDLE
  channelEvent : Option HANDLE

/-- The context of the server and its thread. -/
structure ServerState where
  priv : RdpAppListServerPrivate
  running : Option ThreadEvents

/-- From the session to the event of the channel; an error goes to `out_close`. -/
def openChannel (env : Outside W) (priv : RdpAppListServerPrivate) :
    ServerM W (Option UINT × RdpAppListServerPrivate) := do
  match ← call env.WTSQuerySessionInformationA with
  | none => return (some ERROR_INTERNAL_ERROR, { priv with SessionId := WTS_CURRENT_SESSION })
  | some sessionId => do
    match ← call (env.WTSVirtualChannelOpenEx sessionId) with
    | .error rc => return (some rc, { priv with SessionId := sessionId, rdpapplist_channel := none })
    | .ok channel => do
      emit (.opened channel)
      let priv := { priv with SessionId := sessionId, rdpapplist_channel := some channel }
      match ← call (env.WTSVirtualEventHandle channel) with
      | none => return (some ERROR_INTERNAL_ERROR, priv)
      | some event => return (none, { priv with channelEvent := some event })

/-- Create the stop event and the thread, unless there is one. Failures are logged and ignored. -/
def startThread (env : Outside W) (s : ServerState) : ServerM W ServerState :=
  if s.priv.thread = none then do
    let stopEvent ← call env.CreateEvent
    match ← call env.CreateThread with
    | none => return { s with priv := { s.priv with stopEvent := none, thread := none } }
    | some thread => return ⟨{ s.priv with stopEvent := stopEvent, thread := some thread },
        some ⟨stopEvent, s.priv.channelEvent⟩⟩
  else pure s

def closeChannel (priv : RdpAppListServerPrivate) : ServerM W RdpAppListServerPrivate := do
  emit (.closed priv.rdpapplist_channel)
  return { priv with rdpapplist_channel := none }

def rdpapplist_server_open (env : Outside W) (s : ServerState) : ServerM W (UINT × ServerState) := do
  match ← openChannel env s.priv with
  | (none, priv) => do
    let s ← startThread env { s with priv := priv }
    return (CHANNEL_RC_OK, s)
  | (some rc, priv) => do
    let priv ← closeChannel priv
    return (rc, { s with priv := { priv with channelEvent := none } })

/-- `none` unless the thread cannot be waited for. -/
def stopThread (env : Outside W) (s : ServerState) : ServerM W (Option UINT × ServerState) :=
  match s.priv.thread with
  | none => pure (none, s)
  | some thread => do
    match ← call (env.WaitForSingleObject thread) with
    | some error => return (some error, s)
    | none => return (none, ⟨{ s.priv with thread := none, stopEvent := none }, none⟩)

def closeOpened (s : ServerState) : ServerM W (UINT × ServerState) :=
  if s.priv.rdpapplist_channel.isSome then do
    let priv ← closeChannel s.priv
    return (CHANNEL_RC_OK, { s with priv := priv })
  else pure (CHANNEL_RC_OK, s)

def rdpapplist_server_close (env : Outside W) (s : ServerState) : ServerM W (UINT × ServerState) := do
  match ← stopThread env s with
  | (some error, s) => return (error, s)
  | (none, s) => closeOpened s

/-- One turn of `rdpapplist_server_thread_func`: the thread goes on only behind a
message that was handled. -/
def wakeUp (env : Outside W) (fuel : Nat) (s : ServerState) : ServerM W ServerState :=
  match s.running with
  | none => pure s
  | some events => do
    match ← call (env.WaitForMultipleObjects events.stopEvent events.channelEvent) with
    | .channelEvent => do
      let r ← rdpapplist_server_handle_messages env fuel s.priv
      return ⟨r.2, if r.1 = some CHANNEL_RC_OK then some events else none⟩
    | _ => return { s with running := none }

/-! ## Runs -/

inductive ServerAction where
  | opens
  | closes
  /-- With so many turns for the receive loop. -/
  | wakes (fuel : Nat)

structure ServerMachine (W : Type) where
  state : ServerState
  sys : Traced W ServerEvent

def perform (env : Outside W) (s : ServerMachine W) : ServerAction → ServerMachine W
  | .opens => ⟨(rdpapplist_server_open env s.state s.sys).1.2, (rdpapplist_server_open env s.state s.sys).2⟩
  | .closes => ⟨(rdpapplist_server_close env s.state s.sys).1.2, (rdpapplist_server_close env s.state s.sys).2⟩
  | .wakes fuel => ⟨(wakeUp env fuel s.state s.sys).1, (wakeUp env fuel s.state s.sys).2⟩

def ServerStep (env : Outside W) (s : ServerMachine W) (a : ServerAction) (t : ServerMachine W) : Prop := t = perform env s a

/-- `rdpapplist_server_context_new`. -/
def ServerMachine.new (w : W) : ServerMachine W where
  state := ⟨⟨false, ⟨[], 4, 0, by decide⟩, none, none, none, 0, none⟩, none⟩
  sys := ⟨w, []⟩

/-! ## Asking first -/

/-- The channel was reported ready, and not opened since. -/
def ReportedReady (before : List ServerEvent) (channel : Option HANDLE) : Prop :=
  ∃ a b, before = a ++ .ready channel true :: b ∧ ∀ ch, channel = some ch → .opened ch ∉ b

/-- Every read is of a channel that was reported ready since it was opened. -/
def ReadsReported (trace : List ServerEvent) : Prop :=
  EveryAt (fun before e _ => ∀ channel, e = .read channel → ReportedReady before channel) trace

def NotRead (e : ServerEvent) : Prop := ∀ channel, e ≠ .read channel

def NotOpened (e : ServerEvent) : Prop := ∀ channel, e ≠ .opened channel

theorem ReportedReady.append {before evs : List ServerEvent} {channel : Option HANDLE}
    (h : ReportedReady before channel) (hevs : ∀ e ∈ evs, NotOpened e) : ReportedReady (before ++ evs) channel := by
  obtain ⟨a, b, rfl, hb⟩ := h
  refine ⟨a, b ++ evs, by simp, fun ch hch hmem => ?_⟩
  rcases List.mem_append.1 hmem with hmem | hmem
  · exact hb ch hch hmem
  · exact hevs _ hmem ch rfl

theorem reportedReady_concat (before : List ServerEvent) (channel : Option HANDLE) :
    ReportedReady (before ++ [.ready channel true]) channel := ⟨before, [], rfl, by simp⟩

theorem ReadsReported.append {trace evs : List ServerEvent} (h : ReadsReported trace) (hevs : ∀ e ∈ evs, NotRead e) :
    ReadsReported (trace ++ evs) :=
  everyAt_append.2 ⟨h, everyAt_of_forall fun e he _ _ channel hr => (hevs e he channel hr).elim⟩

theorem ReadsReported.read {trace : List ServerEvent} {channel : Option HANDLE} (h : ReadsReported trace)
    (hr : ReportedReady trace channel) : ReadsReported (trace ++ [.read channel]) := by
  refine everyAt_append.2 ⟨h, everyAt_singleton.2 fun channel' he => ?_⟩
  cases he
  rwa [List.append_nil]

/-- As long as the thread runs the flag speaks of the channel that is there. -/
structure Asked (s : ServerMachine W) : Prop where
  reads : ReadsReported s.sys.trace
  flag : s.state.priv.isReady = true → s.state.running ≠ none → ReportedReady s.sys.trace s.state.priv.rdpapplist_channel
  thread : s.state.priv.thread = none → s.state.running = none

theorem asked_new (w : W) : Asked (ServerMachine.new w) := ⟨everyAt_nil, (fun h => by cases h), fun _ => rfl⟩

/-! ### Opening -/

theorem openChannel_spec (env : Outside W) (priv : RdpAppListServerPrivate) (sys : Traced W ServerEvent) :
    Appends NotRead sys (openChannel env priv sys).2 ∧ (openChannel env priv sys).1.2.isReady = priv.isReady ∧
      (openChannel env priv sys).1.2.thread = priv.thread := by
  have hrefl : Appends NotRead sys sys := refl_of _ sys
  unfold openChannel
  simp only [bind_run, call_run]
  rcases env.WTSQuerySessionInformationA sys.world with ⟨_ | sessionId, w⟩
  · exact ⟨hrefl, rfl, rfl⟩
  simp only [bind_run, call_run]
  rcases env.WTSVirtualChannelOpenEx sessionId w with ⟨_ | channel, w'⟩
  · exact ⟨hrefl, rfl, rfl⟩
  simp only [bind_run, call_run, emit_run]
  have hopened : Appends NotRead sys ⟨(env.WTSVirtualEventHandle channel w').2, sys.trace ++ [.opened channel]⟩ :=
    ⟨_, rfl, fun e he => by simp_all [NotRead]⟩
  rcases hev : env.WTSVirtualEventHandle channel w' with ⟨_ | event, w''⟩
  · rw [hev] at hopened
    exact ⟨hopened, rfl, rfl⟩
  · rw [hev] at hopened
    exact ⟨hopened, rfl, rfl⟩

theorem startThread_keeps (env : Outside W) (s : ServerState) (sys : Traced W ServerEvent) :
    (startThread env s sys).2.trace = sys.trace ∧ (startThread env s sys).1.priv.isReady = s.priv.isReady ∧
      (startThread env s sys).1.priv.rdpapplist_channel = s.priv.rdpapplist_channel := by
  unfold startThread
  split
  · simp only [bind_run, call_run]
    rcases env.CreateThread (env.CreateEvent sys.world).2 with ⟨_ | thread, w⟩
    · exact ⟨rfl, rfl, rfl⟩
    · exact ⟨rfl, rfl, rfl⟩
  · exact ⟨rfl, rfl, rfl⟩

theorem startThread_running (env : Outside W) {s : ServerState} (sys : Traced W ServerEvent)
    (hs : s.priv.thread = none → s.running = none) :
    (startThread env s sys).1.priv.thread = none → (startThread env s sys).1.running = none := by
  unfold startThread
  split
  · rename_i hnone
    simp only [bind_run, call_run]
    rcases env.CreateThread (env.CreateEvent sys.world).2 with ⟨_ | thread, w⟩
    · exact fun _ => hs hnone
    · exact fun h => by cases h
  · exact hs

theorem asked_opens {env : Outside W} {s : ServerMachine W} (hs : Asked s) (hready : s.state.priv.isReady = false) :
    Asked (perform env s .opens) := by
  obtain ⟨⟨evs, htrace, hevs⟩, hflag, hthread⟩ := openChannel_spec env s.state.priv s.sys
  unfold perform rdpapplist_server_open
  simp only [bind_run]
  rcases hopen : openChannel env s.state.priv s.sys with ⟨⟨_ | rc, priv⟩, sys⟩
  · simp only [hopen] at htrace hflag hthread ⊢
    -- the channel is open; the thread is started unless there is one
    obtain ⟨hsame, hready', -⟩ := startThread_keeps env { s.state with priv := priv } sys
    have hrun := startThread_running env (s := { s.state with priv := priv }) sys (fun h => hs.thread (hthread ▸ h))
    refine ⟨?_, fun h => ?_, hrun⟩
    · simp only [bind_run, pure_run, hsame, htrace]
      exact hs.reads.append hevs
    · simp only [bind_run, pure_run, hready', hflag, hready] at h
      cases h
  · simp only [hopen] at htrace hflag hthread ⊢
    -- it failed and was closed again
    refine ⟨?_, fun h => ?_, fun h => hs.thread (hthread ▸ h)⟩
    · simp only [closeChannel, bind_run, pure_run, emit_run, htrace, List.append_assoc]
      refine hs.reads.append fun e he => ?_
      rcases List.mem_append.1 he with he | he
      · exact hevs e he
      · simp_all [NotRead]
    · simp only [closeChannel, bind_run, pure_run, emit_run, hflag, hready] at h
      cases h

/-! ### Closing -/

/-- Without a thread the flag does not matter. -/
theorem asked_closeOpened {s : ServerState} {sys : Traced W ServerEvent} (hreads : ReadsReported sys.trace)
    (hrun : s.running = none) : Asked ⟨(closeOpened s sys).1.2, (closeOpened s sys).2⟩ := by
  unfold closeOpened
  split
  · exact ⟨hreads.append fun e he => by simp_all [NotRead], fun _ h => (h hrun).elim, fun _ => hrun⟩
  · exact ⟨hreads, fun _ h => (h hrun).elim, fun _ => hrun⟩

theorem asked_closes {env : Outside W} {s : ServerMachine W} (hs : Asked s) : Asked (perform env s .closes) := by
  unfold perform rdpapplist_server_close stopThread
  simp only [bind_run]
  cases hthread : s.state.priv.thread with
  | none => exact asked_closeOpened hs.reads (hs.thread hthread)
  | some thread =>
    simp only [bind_run, call_run]
    rcases env.WaitForSingleObject thread s.sys.world with ⟨_ | error, w⟩
    · exact asked_closeOpened hs.reads rfl
    · exact ⟨hs.reads, hs.flag, hs.thread⟩

/-! ### Waking up -/

/-- The receive loop only calls back. -/
def IsCallback (e : ServerEvent) : Prop := ∃ position pdu, e = .clientCaps position pdu

theorem appends_receive_pdu (env : Outside W) (s : InputStream) :
    Keeps (Appends IsCallback) (rdpapplist_server_receive_pdu env s) := by
  intro sys
  by_cases hc : CapsNext s
  · rw [receive_caps hc]
    refine ⟨_, (callClientCaps_spec env _ _ sys).1, fun e he => ?_⟩
    unfold called at he
    split at he
    · exact ⟨_, _, List.mem_singleton.1 he⟩
    · cases he
  · rw [(receive_other hc).2]
    exact refl_of _ sys

theorem appends_receiveAll (env : Outside W) (fuel : Nat) (s : InputStream) :
    Keeps (Appends IsCallback) (receiveAll env fuel s) := by
  induction fuel generalizing s with
  | zero =>
    intro sys
    by_cases h : s.position < s.buffer.length
    · rw [receiveAll_zero h]
      exact refl_of _ sys
    · rw [receiveAll_stop 0 h]
      exact refl_of _ sys
  | succ fuel ih =>
    by_cases h : s.position < s.buffer.length
    · rw [receiveAll_succ fuel h]
      exact (appends_receive_pdu env s).bind fun r => Keeps.ite (fun _ => Keeps.pure _) fun _ => ih _
    · intro sys
      rw [receiveAll_stop _ h]
      exact refl_of _ sys

/-- The flag speaks of this channel, and nothing was read unasked. -/
def Trusted (channel : Option HANDLE) (isReady : Bool) (sys : Traced W ServerEvent) : Prop :=
  ReadsReported sys.trace ∧ (isReady = true → ReportedReady sys.trace channel)

theorem Trusted.callbacks {channel : Option HANDLE} {isReady : Bool} {sys sys' : Traced W ServerEvent}
    (h : Trusted channel isReady sys) (ha : Appends IsCallback sys sys') : Trusted channel isReady sys' := by
  obtain ⟨evs, htrace, hevs⟩ := ha
  rw [Trusted, htrace]
  refine ⟨h.1.append fun e he ch hr => ?_, fun hready => (h.2 hready).append fun e he ch ho => ?_⟩
  · obtain ⟨_, _, rfl⟩ := hevs e he
    cases hr
  · obtain ⟨_, _, rfl⟩ := hevs e he
    cases ho

theorem Trusted.read {channel : Option HANDLE} {sys : Traced W ServerEvent} {w : W} (h : Trusted channel true sys) :
    Trusted channel true ⟨w, sys.trace ++ [.read channel]⟩ :=
  ⟨h.1.read (h.2 rfl), fun _ => (h.2 rfl).append fun e he ch ho => by simp_all⟩

theorem trusted_checkReady (env : Outside W) {priv : RdpAppListServerPrivate} {sys : Traced W ServerEvent}
    (h : Trusted priv.rdpapplist_channel priv.isReady sys) :
    Trusted priv.rdpapplist_channel (checkReady env priv sys).1.2.isReady (checkReady env priv sys).2 ∧
      (checkReady env priv sys).1.2.rdpapplist_channel = priv.rdpapplist_channel ∧
      (checkReady env priv sys).1.2.thread = priv.thread := by
  unfold checkReady
  by_cases hready : priv.isReady = true
  · rw [if_pos hready]
    exact ⟨h, rfl, rfl⟩
  · rw [if_neg hready]
    simp only [bind_run, call_run]
    rcases env.WTSVirtualChannelReady priv.rdpapplist_channel sys.world with ⟨isReady | _ | _, w⟩
    · refine ⟨⟨h.1.append fun e he => by simp_all [NotRead], ?_⟩, rfl, rfl⟩
      -- the flag is set by this very answer
      intro hnow
      obtain rfl : isReady = true := hnow
      exact reportedReady_concat sys.trace priv.rdpapplist_channel
    · exact ⟨h, rfl, rfl⟩
    · exact ⟨h, rfl, rfl⟩

/-- The length is asked for first, and then the bytes, both with a call that reads. -/
theorem readChannel_spec (env : Outside W) (priv : RdpAppListServerPrivate) (sys : Traced W ServerEvent) :
    ∃ w, (readChannel env priv sys).2 = ⟨w, sys.trace ++ [.read priv.rdpapplist_channel]⟩ ∨
      (readChannel env priv sys).2 =
        ⟨w, sys.trace ++ [.read priv.rdpapplist_channel] ++ [.read priv.rdpapplist_channel]⟩ := by
  unfold readChannel
  simp only [bind_run, call_run, emit_run]
  rcases env.WTSVirtualChannelRead_length priv.rdpapplist_channel sys.world with ⟨n | _ | _, w⟩
  · dsimp only
    by_cases hn : n < 1
    · rw [if_pos hn]
      exact ⟨w, .inl rfl⟩
    rw [if_neg hn, bind_run, call_run]
    rcases env.Stream_EnsureRemainingCapacity priv.input_stream.capacity n w with ⟨_ | capacity, w₁⟩
    · exact ⟨w₁, .inl rfl⟩
    · dsimp only
      rw [bind_run, emit_run, bind_run, call_run]
      rcases env.WTSVirtualChannelRead priv.rdpapplist_channel capacity.1 w₁ with ⟨_ | _, w'⟩
      · exact ⟨w', .inr rfl⟩
      · exact ⟨w', .inr rfl⟩
  · exact ⟨w, .inl rfl⟩
  · exact ⟨w, .inl rfl⟩

theorem trusted_readChannel (env : Outside W) {priv : RdpAppListServerPrivate} {sys : Traced W ServerEvent}
    (h : Trusted priv.rdpapplist_channel true sys) :
    Trusted priv.rdpapplist_channel true (readChannel env priv sys).2 := by
  obtain ⟨w, hsys | hsys⟩ := readChannel_spec env priv sys
  · rw [hsys]
    exact h.read
  · rw [hsys]
    exact Trusted.read (h.read : Trusted _ true ⟨w, _⟩)

/-- The context keeps its channel and its thread, and the flag speaks of that channel. -/
structure KeepsAsking (priv priv' : RdpAppListServerPrivate) (sys : Traced W ServerEvent) : Prop where
  trusted : Trusted priv'.rdpapplist_channel priv'.isReady sys
  channel : priv'.rdpapplist_channel = priv.rdpapplist_channel
  thread : priv'.thread = priv.thread

theorem keepsAsking_handleStream (env : Outside W) (fuel : Nat) {priv : RdpAppListServerPrivate} (s : InputStream)
    {sys : Traced W ServerEvent} (h : Trusted priv.rdpapplist_channel priv.isReady sys) :
    KeepsAsking priv (handleStream env fuel priv s sys).1.2 (handleStream env fuel priv s sys).2 := by
  have hcalls := h.callbacks (appends_receiveAll env fuel s sys)
  unfold handleStream
  rw [bind_run]
  rcases hloop : receiveAll env fuel s sys with ⟨_ | r, sys'⟩ <;> rw [hloop] at hcalls
  · exact ⟨hcalls, rfl, rfl⟩
  · exact ⟨hcalls, rfl, rfl⟩

/-- The channel is read only behind the flag. -/
theorem keepsAsking_handle_messages (env : Outside W) (fuel : Nat) {priv : RdpAppListServerPrivate}
    {sys : Traced W ServerEvent} (h : Trusted priv.rdpapplist_channel priv.isReady sys) :
    KeepsAsking priv (rdpapplist_server_handle_messages env fuel priv sys).1.2
      (rdpapplist_server_handle_messages env fuel priv sys).2 := by
  obtain ⟨hchecked, hchannel, hthread⟩ := trusted_checkReady env h
  unfold rdpapplist_server_handle_messages
  rw [bind_run]
  rcases hcheck : checkReady env priv sys with ⟨⟨_ | error, checked⟩, sys'⟩ <;>
    rw [hcheck] at hchecked hchannel hthread
  · dsimp only at hchecked hchannel hthread ⊢
    rw [← hchannel] at hchecked
    by_cases hready : checked.isReady = true
    · rw [if_pos hready, bind_run]
      rw [hready] at hchecked
      have hread := trusted_readChannel env hchecked
      rcases hbytes : readChannel env checked sys' with ⟨_ | _ | stream, sys''⟩ <;> rw [hbytes] at hread
      · exact ⟨hready ▸ hread, hchannel, hthread⟩
      · exact ⟨hready ▸ hread, hchannel, hthread⟩
      · have hrest := keepsAsking_handleStream env fuel stream (hready ▸ hread : Trusted _ checked.isReady sys'')
        exact ⟨hrest.trusted, hrest.channel.trans hchannel, hrest.thread.trans hthread⟩
    · rw [if_neg hready]
      exact ⟨hchecked, hchannel, hthread⟩
  · dsimp only at hchecked hchannel hthread ⊢
    rw [← hchannel] at hchecked
    exact ⟨hchecked, hchannel, hthread⟩

theorem asked_wakes {env : Outside W} {s : ServerMachine W} (hs : Asked s) (fuel : Nat) :
    Asked (perform env s (.wakes fuel)) := by
  unfold perform wakeUp
  cases hrun : s.state.running with
  | none => exact hs
  | some events =>
    dsimp only
    rw [bind_run, call_run]
    have hthread : s.state.priv.thread ≠ none := fun hnone => by simp [hs.thread hnone] at hrun
    have htrusted : Trusted s.state.priv.rdpapplist_channel s.state.priv.isReady s.sys :=
      ⟨hs.reads, fun hready => hs.flag hready (by simp [hrun])⟩
    rcases env.WaitForMultipleObjects events.stopEvent events.channelEvent s.sys.world with ⟨_ | _ | _, w⟩
    -- stopped, or the wait failed: the thread ends
    · exact ⟨hs.reads, fun _ h => (h rfl).elim, fun _ => rfl⟩
    · exact ⟨hs.reads, fun _ h => (h rfl).elim, fun _ => rfl⟩
    · have hthen : Trusted s.state.priv.rdpapplist_channel s.state.priv.isReady { s.sys with world := w } := htrusted
      have hhandled := keepsAsking_handle_messages env fuel hthen
      exact ⟨hhandled.trusted.1, fun hready _ => hhandled.trusted.2 hready,
        fun h => (hthread (hhandled.thread ▸ h)).elim⟩

/-! ## Every run -/

theorem asked_step {env : Outside W} {s t : ServerMachine W} {a : ServerAction} (hs : Asked s)
    (h : ServerStep env s a t ∧ (a = .opens → s.state.priv.isReady = false)) : Asked t := by
  obtain ⟨rfl, hopens⟩ := h
  cases a with
  | opens => exact asked_opens hs (hopens rfl)
  | closes => exact asked_closes hs
  | wakes fuel => exact asked_wakes hs fuel

/-- As long as no channel is opened once one was ready, whatever is read was reported ready. -/
theorem reads_only_when_ready {env : Outside W} {w : W} {as : List ServerAction} {s : ServerMachine W}
    (h : Run (fun s a t => ServerStep env s a t ∧ (a = .opens → s.state.priv.isReady = false)) (.new w) as s) :
    ReadsReported s.sys.trace :=
  (h.invariant (I := Asked) (fun _ _ _ hs ha => asked_step hs ha) (asked_new w)).reads

/-- A channel that is opened twice before it is ready, then read. -/
theorem reads_only_when_ready_on_second_open : ReadsReported
    (perform workingOutside (perform workingOutside (perform workingOutside (.new []) .opens) .opens) (.wakes 1)).sys.trace := by
  have hrun : Run (fun s a t => ServerStep workingOutside s a t ∧ (a = .opens → s.state.priv.isReady = false)) (.new [])
      [.opens, .opens, .wakes 1] _ :=
    .cons ⟨rfl, fun _ => rfl⟩ (.cons ⟨rfl, fun _ => rfl⟩ (.one ⟨rfl, fun h => by cases h⟩))
  exact reads_only_when_ready hrun

/-! ### The flag is never cleared -/

theorem openChannel_opened {env : Outside W} {priv : RdpAppListServerPrivate} {sys : Traced W ServerEvent}
    (h : (openChannel env priv sys).1.1 = none) :
    ∃ channel, (openChannel env priv sys).2.trace = sys.trace ++ [.opened channel] ∧
      (openChannel env priv sys).1.2.rdpapplist_channel = some channel ∧
      (openChannel env priv sys).1.2.isReady = priv.isReady := by
  revert h
  unfold openChannel
  simp only [bind_run, call_run]
  rcases env.WTSQuerySessionInformationA sys.world with ⟨_ | sessionId, w⟩
  · exact fun h => by cases h
  simp only [bind_run, call_run]
  rcases env.WTSVirtualChannelOpenEx sessionId w with ⟨_ | channel, w'⟩
  · exact fun h => by cases h
  simp only [bind_run, call_run, emit_run]
  rcases env.WTSVirtualEventHandle channel w' with ⟨_ | event, w''⟩
  · exact fun h => by cases h
  · exact fun _ => ⟨channel, rfl, rfl, rfl⟩

/-- Behind the flag the channel is read first thing. -/
theorem handle_messages_reads (env : Outside W) (fuel : Nat) (priv : RdpAppListServerPrivate)
    (sys : Traced W ServerEvent) (hready : priv.isReady = true) :
    ∃ rest, (rdpapplist_server_handle_messages env fuel priv sys).2.trace =
      sys.trace ++ .read priv.rdpapplist_channel :: rest := by
  obtain ⟨rest, htrace⟩ : ∃ rest, (readChannel env priv sys).2.trace =
      sys.trace ++ .read priv.rdpapplist_channel :: rest := by
    obtain ⟨w, hsys | hsys⟩ := readChannel_spec env priv sys
    · exact ⟨[], by rw [hsys]⟩
    · exact ⟨[.read priv.rdpapplist_channel], by rw [hsys, List.append_assoc]; rfl⟩
  unfold rdpapplist_server_handle_messages checkReady
  rw [if_pos hready, bind_run, pure_run]
  dsimp only
  rw [if_pos hready, bind_run]
  rcases hbytes : readChannel env priv sys with ⟨_ | _ | stream, sys'⟩ <;> rw [hbytes] at htrace
  · exact ⟨rest, htrace⟩
  · exact ⟨rest, htrace⟩
  · obtain ⟨calls, hcalls, -⟩ := appends_receiveAll env fuel stream sys'
    refine ⟨rest ++ calls, ?_⟩
    dsimp only [handleStream]
    rw [bind_run]
    rcases hloop : receiveAll env fuel stream sys' with ⟨_ | r, sys''⟩ <;> rw [hloop] at hcalls <;>
      dsimp only at hcalls htrace
    · simp [hcalls, htrace]
    · simp [hcalls, htrace]

/-- Nothing was reported of a channel just opened. -/
theorem not_readsReported {trace rest : List ServerEvent} {channel : HANDLE} :
    ¬ ReadsReported (trace ++ .opened channel :: .read (some channel) :: rest) := by
  intro h
  have hread := EveryAt.at (a := trace ++ [.opened channel]) (by simpa [ReadsReported] using h)
  obtain ⟨a, b, hab, hopened⟩ := hread (some channel) rfl
  -- the last channel opened is the new one, and nothing is behind that
  rcases List.eq_nil_or_concat b with rfl | ⟨b, e, rfl⟩
  · obtain ⟨-, hlast⟩ := List.append_inj' hab rfl
    cases hlast
  · rw [List.concat_eq_append, ← List.cons_append, ← List.append_assoc] at hab
    obtain ⟨-, hlast⟩ := List.append_inj' hab rfl
    cases hlast
    exact hopened channel rfl (by simp)

theorem opens_opened {env : Outside W} {s : ServerMachine W} (hopen : (openChannel env s.state.priv s.sys).1.1 = none) :
    ∃ channel, (perform env s .opens).sys.trace = s.sys.trace ++ [.opened channel] ∧
      (perform env s .opens).state.priv.rdpapplist_channel = some channel ∧
      (perform env s .opens).state.priv.isReady = s.state.priv.isReady := by
  obtain ⟨channel, htrace, hchannel, hflag⟩ := openChannel_opened hopen
  unfold perform rdpapplist_server_open
  simp only [bind_run]
  rcases hopened : openChannel env s.state.priv s.sys with ⟨⟨_ | rc, priv⟩, sys⟩ <;>
    rw [hopened] at hopen htrace hchannel hflag
  · obtain ⟨htrace', hflag', hchannel'⟩ := startThread_keeps env { s.state with priv := priv } sys
    exact ⟨channel, htrace'.trans htrace, hchannel'.trans hchannel, hflag'.trans hflag⟩
  · cases hopen

/-- Opened with the flag set, then woken: the channel is read unasked. -/
theorem stale_read {env : Outside W} {s : ServerMachine W} (fuel : Nat) (hready : s.state.priv.isReady = true)
    (hopen : (openChannel env s.state.priv s.sys).1.1 = none)
    {events : ThreadEvents} (hrun : (perform env s .opens).state.running = some events)
    (hwait : (env.WaitForMultipleObjects events.stopEvent events.channelEvent (perform env s .opens).sys.world).1 =
      .channelEvent) : ¬ ReadsReported (perform env (perform env s .opens) (.wakes fuel)).sys.trace := by
  obtain ⟨channel, htrace, hchannel, hflag⟩ := opens_opened hopen
  generalize perform env s .opens = opened at *
  unfold perform wakeUp
  simp only [hrun]
  rw [bind_run, call_run]
  dsimp only
  rw [hwait]
  obtain ⟨rest, hread⟩ := handle_messages_reads env fuel opened.state.priv
    { opened.sys with world := (env.WaitForMultipleObjects events.stopEvent events.channelEvent opened.sys.world).2 }
    (hflag.trans hready)
  dsimp only at hread ⊢
  rw [bind_run, pure_run, hread, htrace, hchannel, List.append_assoc]
  exact not_readsReported

/-- Opened, ready, closed and opened again. -/
theorem reopened_channel_read_unasked :
    ∃ s, Run (ServerStep workingOutside) (.new []) [.opens, .wakes 1, .closes, .opens, .wakes 1] s ∧
      s.sys.trace = [.opened 7, .ready (some 7) true, .read (some 7), .closed (some 7), .opened 7, .read (some 7)] ∧
      ¬ ReadsReported s.sys.trace := by
  refine ⟨_, .cons rfl (.cons rfl (.cons rfl (.cons rfl (.one rfl)))), rfl, ?_⟩
  exact stale_read 1 rfl rfl rfl rfl

end Wslg.Server
