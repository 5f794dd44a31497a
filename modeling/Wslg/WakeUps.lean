import Wslg.Replies
/-!
# Idle wake-ups

The server thread is woken by the channel event and finds the channel not ready,
no data, nothing to read or replies. All but one of these let it go on: without
data the receiver returns `ERROR_NO_DATA`, and the thread ends on any error.
-/

open Lib Lib.TraceM

namespace Wslg.Server

variable {W : Type} {env : Outside W}

/-! ## Signals -/

/-- What there is on the channel when its event is signalled. -/
inductive Signal where
  | notReady
  | noData
  | empty
  | pdus (rs : List Reply)

namespace Signal

def replies : Signal → List Reply
  | pdus rs => rs
  | _ => []

/-- The calls of WTS show it. -/
def Is : Signal → Found → Prop
  | notReady, .notReady => True
  | noData, .noData => True
  | empty, .empty => True
  | pdus rs, .buffer s => s.buffer = rs.flatMap Reply.bytes
  | _, _ => False

end Signal

/-- As long as the thread runs, its wait ends with the channel event and it finds the signal. -/
def Shows (env : Outside W) (a : Signal) (s : ServerState) (w : W) : Prop :=
  ∀ events, s.running = some events →
    (env.WaitForMultipleObjects events.stopEvent events.channelEvent w).1 = .channelEvent ∧
      a.Is (finds env s.priv (env.WaitForMultipleObjects events.stopEvent events.channelEvent w).2)

/-- A turn of the thread, with turns enough for the receive loop. Between two turns
the world goes its own ways. -/
def WakeStep (env : Outside W) (s : ServerMachine W) (a : Signal) (t : ServerMachine W) : Prop :=
  ∃ w fuel, a.replies.length < fuel ∧ Shows env a s.state w ∧
    t = perform env ⟨s.state, { s.sys with world := w }⟩ (.wakes fuel)

/-- Every PDU of the signals went to the callback, once and in order. -/
def Delivered (s : ServerMachine W) (as : List Signal) (t : ServerMachine W) : Prop :=
  pdusIn t.sys.trace = pdusIn s.sys.trace ++ (as.flatMap Signal.replies).map Reply.pdu

/-- Behind a wake-up without data nothing is left to deliver. -/
def NothingAfterNoData (as : List Signal) : Prop :=
  ∀ before after, as = before ++ .noData :: after → ∀ a ∈ after, a.replies = []

theorem nothingAfterNoData_cons {a : Signal} {as : List Signal} (ha : a ≠ .noData) :
    NothingAfterNoData (a :: as) ↔ NothingAfterNoData as := by
  constructor
  · intro h before after has
    exact h (a :: before) after (by rw [has, List.cons_append])
  · intro h before after has
    rcases before with _ | ⟨b, before⟩
    · obtain ⟨rfl, -⟩ := List.cons.inj has
      exact (ha rfl).elim
    · obtain ⟨-, htail⟩ := List.cons.inj has
      exact h before after htail

theorem nothingAfterNoData_noData {as : List Signal} :
    NothingAfterNoData (.noData :: as) ↔ as.flatMap Signal.replies = [] := by
  rw [List.flatMap_eq_nil_iff]
  constructor
  · intro h
    exact h [] as rfl
  · intro h before after has
    rcases before with _ | ⟨b, before⟩
    · obtain ⟨-, rfl⟩ := List.cons.inj has
      exact h
    · obtain ⟨-, rfl⟩ := List.cons.inj has
      exact fun a ha => h a (by simp [ha])

/-! ## One turn -/

/-- A thread that has ended does nothing. -/
theorem wake_ended {s t : ServerMachine W} {a : Signal} (hs : s.state.running = none) (h : WakeStep env s a t) :
    t.state.running = none ∧ pdusIn t.sys.trace = pdusIn s.sys.trace := by
  obtain ⟨w, fuel, -, -, rfl⟩ := h
  unfold perform wakeUp
  simp only [hs, pure_run, and_self]

/-- The turn of a thread that runs, in terms of what the receiver returned. -/
theorem wake_running {s t : ServerMachine W} {a : Signal} {events : ThreadEvents} (hs : s.state.running = some events)
    (h : WakeStep env s a t) : ∃ w fuel r, a.replies.length < fuel ∧ a.Is (finds env s.state.priv w) ∧
      r = rdpapplist_server_handle_messages env fuel s.state.priv { s.sys with world := w } ∧
        t = ⟨⟨r.1.2, if r.1.1 = some CHANNEL_RC_OK then some events else none⟩, r.2⟩ := by
  obtain ⟨w, fuel, hfuel, hshows, rfl⟩ := h
  obtain ⟨hwait, hfinds⟩ := hshows events hs
  refine ⟨_, fuel, _, hfuel, hfinds, rfl, ?_⟩
  unfold perform wakeUp
  simp only [hs]
  rw [bind_run, call_run]
  dsimp only
  rw [hwait]
  rfl

theorem wake_noData {s t : ServerMachine W} (hs : s.state.running.isSome) (h : WakeStep env s .noData t) :
    t.state.running = none ∧ pdusIn t.sys.trace = pdusIn s.sys.trace := by
  obtain ⟨events, hevents⟩ := Option.isSome_iff_exists.1 hs
  obtain ⟨w, fuel, r, -, hfinds, rfl, rfl⟩ := wake_running hevents h
  have hhandled := handle_messages_found env fuel s.state.priv { s.sys with world := w }
  rcases hf : finds env s.state.priv w with _ | _ | _ | _ | stream <;> rw [hf] at hfinds hhandled <;>
    simp only [Signal.Is] at hfinds
  obtain ⟨hret, hpdus⟩ := hhandled
  refine ⟨if_neg ?_, hpdus⟩
  rw [hret]
  decide

/-- Any other signal is delivered, and the thread goes on. -/
theorem wake_delivers (hcall : CallbackSucceeds env) {s t : ServerMachine W} {a : Signal} (ha : a ≠ .noData)
    (hs : s.state.running.isSome) (h : WakeStep env s a t) :
    t.state.running.isSome ∧ pdusIn t.sys.trace = pdusIn s.sys.trace ++ a.replies.map Reply.pdu := by
  obtain ⟨events, hevents⟩ := Option.isSome_iff_exists.1 hs
  obtain ⟨w, fuel, r, hfuel, hfinds, rfl, rfl⟩ := wake_running hevents h
  have hhandled := handle_messages_found env fuel s.state.priv { s.sys with world := w }
  rcases hf : finds env s.state.priv w with _ | _ | _ | _ | stream <;> rw [hf] at hfinds hhandled <;> cases a <;>
    simp only [Signal.Is] at hfinds
  case notReady.notReady =>
    obtain ⟨hret, hpdus⟩ := hhandled
    exact ⟨by rw [if_pos hret]; rfl, by simpa [Signal.replies] using hpdus⟩
  case noData.noData => exact (ha rfl).elim
  case empty.empty =>
    obtain ⟨hret, hpdus⟩ := hhandled
    exact ⟨by rw [if_pos hret]; rfl, by simpa [Signal.replies] using hpdus⟩
  case buffer.pdus rs =>
    obtain ⟨priv', sys', hrun, hpdus⟩ := hhandled
    have hdecoded := handleStream_replies hcall rs [] (by rw [hfinds, List.append_nil])
      (finds_position hf) (by decide) hfuel priv' sys'
    rw [← hrun] at hdecoded
    refine ⟨?_, hpdus ▸ hdecoded.delivered⟩
    rw [if_pos (hdecoded.whole rfl).1]
    rfl

/-! ## Every sequence -/

theorem run_ended {s t : ServerMachine W} {as : List Signal} (hs : s.state.running = none)
    (h : Run (WakeStep env) s as t) : pdusIn t.sys.trace = pdusIn s.sys.trace := by
  induction h with
  | nil => rfl
  | cons hstep _ ih =>
    obtain ⟨hended, hpdus⟩ := wake_ended hs hstep
    rw [ih hended, hpdus]

/-- The signals of a running thread are delivered exactly if no PDUs come behind a
wake-up without data. -/
theorem wakeups_delivered_iff (env : Outside W) (hcall : CallbackSucceeds env) {s t : ServerMachine W} {as : List Signal}
    (hs : s.state.running.isSome) (h : Run (WakeStep env) s as t) : Delivered s as t ↔ NothingAfterNoData as := by
  induction h with
  | nil => exact iff_of_true (by simp [Delivered]) fun before after has => by simp at has
  | cons hstep hrest ih =>
    rename_i s u t a as
    by_cases ha : a = .noData
    · subst ha
      obtain ⟨hended, hpdus⟩ := wake_noData hs hstep
      -- the thread has ended: nothing is delivered any more
      rw [nothingAfterNoData_noData, Delivered, run_ended hended hrest, hpdus]
      simp [Signal.replies]
    · obtain ⟨hgoes, hpdus⟩ := wake_delivers hcall ha hs hstep
      rw [nothingAfterNoData_cons ha, ← ih hgoes, Delivered, Delivered, hpdus]
      simp

/-! ### An idle wake-up before a reply -/

/-- The same with another answer to how much there is to read. -/
def Outside.reading (env : Outside W) (length : Option HANDLE → W → WtsResult Nat × W) : Outside W :=
  { env with WTSVirtualChannelRead_length := length }

/-- Nothing on the channel is reported as `ERROR_NO_DATA`. -/
def idleOutside : Outside (List (List BYTE)) :=
  workingOutside.reading fun _ w => (if w.isEmpty then .noData else .ok (w.headD []).length, w)

theorem callbackSucceeds_idle : CallbackSucceeds idleOutside := ⟨_, rfl, fun _ _ => rfl⟩

/-- Opened, with the thread running. -/
def openedMachine : ServerMachine (List (List BYTE)) := perform idleOutside (.new []) .opens

/-- Two replies at once, nothing to read, a third reply and an idle wake-up. -/
def sampleSignals : List Signal := [.pdus [sampleReply, sampleReply], .empty, .pdus [sampleReply], .noData]

/-- What comes before the idle wake-up is delivered. -/
theorem wakeups_delivered_iff_of_reply : NothingAfterNoData sampleSignals ∧
    ∃ t, Run (WakeStep idleOutside) openedMachine sampleSignals t ∧ Delivered openedMachine sampleSignals t := by
  have hnothing : NothingAfterNoData sampleSignals := by
    refine (nothingAfterNoData_cons (by simp)).2 <| (nothingAfterNoData_cons (by simp)).2 <|
      (nothingAfterNoData_cons (by simp)).2 <| nothingAfterNoData_noData.2 (by simp)
  have hrun : Run (WakeStep idleOutside) openedMachine sampleSignals _ :=
    .cons ⟨[sampleReply.bytes ++ sampleReply.bytes], 3, by decide, fun events h => ⟨rfl, rfl⟩, rfl⟩ <|
      .cons ⟨[[]], 1, by decide, fun events h => ⟨rfl, trivial⟩, rfl⟩ <|
      .cons ⟨[sampleReply.bytes], 2, by decide, fun events h => ⟨rfl, rfl⟩, rfl⟩ <|
      .one ⟨[], 1, by decide, fun events h => ⟨rfl, trivial⟩, rfl⟩
  exact ⟨hnothing, _, hrun, (wakeups_delivered_iff idleOutside callbackSucceeds_idle rfl hrun).2 hnothing⟩

/-- The thread ends on the idle wake-up, and the reply is never read. -/
theorem idle_wakeup_loses_reply : ∃ t, openedMachine.state.running.isSome ∧
    Run (WakeStep idleOutside) openedMachine [.noData, .pdus [sampleReply]] t ∧ t.state.running = none ∧
      ¬ Delivered openedMachine [.noData, .pdus [sampleReply]] t := by
  have hfirst : WakeStep idleOutside openedMachine .noData _ := ⟨[], 1, by decide, fun events h => ⟨rfl, trivial⟩, rfl⟩
  obtain ⟨hended, hfirstPdus⟩ := wake_noData (s := openedMachine) rfl hfirst
  generalize perform idleOutside _ _ = ended at *
  -- the reply is on the channel, and nobody looks
  have hshows : Shows idleOutside (.pdus [sampleReply]) ended.state [sampleReply.bytes] := by
    intro events h
    rw [hended] at h
    cases h
  have hsecond : WakeStep idleOutside ended (.pdus [sampleReply]) _ := ⟨_, 2, by decide, hshows, rfl⟩
  obtain ⟨hstill, hsecondPdus⟩ := wake_ended hended hsecond
  refine ⟨_, rfl, .cons hfirst (.one hsecond), hstill, fun h => ?_⟩
  rw [Delivered, hsecondPdus, hfirstPdus] at h
  simp [Signal.replies] at h

end Wslg.Server
