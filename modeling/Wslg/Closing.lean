import Wslg.Lib.System
import Wslg.Batching
import Wslg.Follow
import Wslg.Robust
/-!
# Closing while messages come in

`OnDataReceived` tests `m_bChannelClosed` before it enters the critical section
and again before every message; `OnClose` sets it before it enters. The calls
here are cut at the points where another one may come in between. A handler
neither reads nor writes the flag, so it is one step.
-/

open Lib Lib.TraceM

namespace Wslg

open Client WSLDVCCallback

variable {W : Type}

/-! ## State -/

/-- Where a call of `OnDataReceived` is. -/
inductive Receiver where
  | notCalled
  | called (pBuffer : List BYTE)
  | waiting (pBuffer : List BYTE)
  | inside
  | returned (hr : Returned)

/-- Where the call of `OnClose` is. -/
inductive Closer where
  | notCalled
  | waiting
  | inside
  | returned
  deriving DecidableEq

/-- Where the thread in the critical section is: the `n`-th receiver or `OnClose`. -/
inductive Inside where
  | looping (n : Nat) (c : Reading PUnit)
  | reading (n : Nat) (c : Reading PUnit)
  | handling (n : Nat) (h : RDPAPPLIST_HEADER) (c : Reading PUnit)
  | leaving (n : Nat) (hr : Returned)
  | endingSync
  | closingDb
  | resetting
  | closed

structure Calls (W : Type) where
  machine : Machine W
  receivers : Nat → Receiver
  closer : Closer
  m_crit : Option Inside

/-- A fresh channel, before any call. -/
def Calls.start (w : W) : Calls W := ⟨.fresh w, fun _ => .notCalled, .notCalled, none⟩

namespace Calls

def receiver (s : Calls W) (n : Nat) (r : Receiver) : Calls W := { s with receivers := Function.update s.receivers n r }

def goes (s : Calls W) (p : Inside) : Calls W := { s with m_crit := some p }

def leaves (s : Calls W) : Calls W := { s with m_crit := none }

def on (s : Calls W) (m : Machine W) : Calls W := { s with machine := m }

end Calls

/-! ## Steps -/

inductive Action where
  | calls (n : Nat) (pBuffer : List BYTE)
  | tests (n : Nat)
  | enters (n : Nat)
  | turns (n : Nat)
  /-- The header is read; its handler starts. -/
  | starts (n : Nat) (h : RDPAPPLIST_HEADER)
  | rejects (n : Nat)
  | handles (n : Nat) (evs : List Event)
  | leaves (n : Nat)
  | closes
  | closeEnters
  | endsSync (evs : List Event)
  | closesDb
  | resets
  | closeLeaves

/-- The cursor of a receiver on the shared machine. -/
def onto (c : Reading PUnit) (m : Machine W) : Reading (Machine W) := ⟨c.buf, c.cur, c.len, m⟩

def off (s : Reading (Machine W)) : Reading PUnit := ⟨s.buf, s.cur, s.len, ⟨⟩⟩

/-- What the system was asked to do on the way from `m` to `m'`. -/
def added (m m' : Machine W) : List Event := m'.sys.trace.drop m.sys.trace.length

inductive CallStep (os : OS W) (s : Calls W) : Action → Calls W → Prop
  | calls {n} pBuffer : s.receivers n = .notCalled → CallStep os s (.calls n pBuffer) (s.receiver n (.called pBuffer))
  | tests {n pBuffer} : s.receivers n = .called pBuffer → CallStep os s (.tests n)
      (s.receiver n (if s.machine.this.m_bChannelClosed then .returned .S_OK else .waiting pBuffer))
  | enters {n pBuffer} : s.receivers n = .waiting pBuffer → s.m_crit = none → CallStep os s (.enters n)
      ((s.receiver n .inside).goes (.looping n ⟨pBuffer, 0, pBuffer.length, ⟨⟩⟩))
  | turns {n c} : s.m_crit = some (.looping n c) → CallStep os s (.turns n)
      (s.goes (if c.len ≠ 0 ∧ s.machine.this.m_bChannelClosed = false then .reading n c else .leaving n .S_OK))
  | starts {n c h t} : s.m_crit = some (.reading n c) → readHeader (onto c s.machine) = .ok h t →
      CallStep os s (.starts n h) (s.goes (.handling n h (off t)))
  | rejects {n c x t} : s.m_crit = some (.reading n c) → readHeader (onto c s.machine) = .error x t →
      CallStep os s (.rejects n) (s.goes (.leaving n (.failed x)))
  | handles {n h c t} : s.m_crit = some (.handling n h c) → dispatch os h (onto c s.machine) = .ok ⟨⟩ t →
      CallStep os s (.handles n (added s.machine t.out)) ((s.on t.out).goes (.looping n (off t)))
  | fails {n h c x t} : s.m_crit = some (.handling n h c) → dispatch os h (onto c s.machine) = .error x t →
      CallStep os s (.handles n (added s.machine t.out)) ((s.on t.out).goes (.leaving n (.failed x)))
  | leaves {n hr} : s.m_crit = some (.leaving n hr) → CallStep os s (.leaves n) (s.receiver n (.returned hr)).leaves
  | closes : s.closer = .notCalled → CallStep os s .closes
      { s with closer := .waiting, machine := { s.machine with this := { s.machine.this with m_bChannelClosed := true } } }
  | closeEnters : s.closer = .waiting → s.m_crit = none →
      CallStep os s .closeEnters { s with closer := .inside, m_crit := some .endingSync }
  | endsSync : s.m_crit = some .endingSync → CallStep os s (.endsSync (added s.machine (OnSyncEnd os false s.machine)))
      ((s.on (OnSyncEnd os false s.machine)).goes .closingDb)
  | closesDb {db} : s.m_crit = some .closingDb → s.machine.this.m_spFileDB = some db → CallStep os s .closesDb
      ((s.on { s.machine with this := { s.machine.this with m_spFileDB := some db.OnClose } }).goes .resetting)
  | resets : s.m_crit = some .resetting → CallStep os s .resets
      ((s.on { s.machine with this := { s.machine.this with m_spFileDB := none } }).goes .closed)
  | closeLeaves : s.m_crit = some .closed → CallStep os s .closeLeaves { s with closer := .returned, m_crit := none }

/-! ## What closing must not meet -/

/-- A handler may use `m_spFileDB`, and `OnClose` does. -/
def Action.UsesFileDB : Action → Prop
  | .handles _ _ | .closesDb => True
  | _ => False

def Action.StartsHandler : Action → Prop
  | .starts _ _ => True
  | _ => False

def Action.events : Action → List Event
  | .handles _ evs | .endsSync evs => evs
  | _ => []

/-- At the point where `m_spFileDB` is used next. -/
def Inside.UsesFileDB : Inside → Prop
  | .handling _ _ _ | .closingDb => True
  | _ => False

/-- `OnClose` is in the critical section. -/
def Inside.IsClosing : Inside → Prop
  | .endingSync | .closingDb | .resetting | .closed => True
  | _ => False

/-- A receiver is past the loop condition. -/
def Inside.IsReceiving : Inside → Prop
  | .reading _ _ | .handling _ _ _ => True
  | _ => False

namespace Calls

/-- `OnClose` has entered its critical section. -/
def Entered (s : Calls W) : Prop := s.closer = .inside ∨ s.closer = .returned

/-- `OnClose` has reset `m_spFileDB`. -/
def IsReset (s : Calls W) : Prop := s.m_crit = some .closed ∨ s.closer = .returned

structure Safe (s : Calls W) : Prop where
  flag : s.closer ≠ .notCalled → s.machine.this.m_bChannelClosed = true
  owner : s.closer = .inside ↔ ∃ p, s.m_crit = some p ∧ p.IsClosing
  quiet : s.Entered → ∀ p, s.m_crit = some p → ¬ p.IsReceiving
  registered : ¬ s.IsReset → Registered s.machine

theorem safe_start (w : W) : (start w).Safe where
  flag h := (h rfl).elim
  owner := by simp [start]
  quiet _ p hp := by cases hp
  registered _ := ⟨⟨_, rfl⟩, fun key e he => by cases he⟩

end Calls

namespace Calls

variable {os : OS W} {s t : Calls W} {a : Action}

/-- A receiver in the critical section goes on. -/
theorem Safe.receives {p q : Inside} {m : Machine W} (hs : s.Safe) (hp : s.m_crit = some p) (hpc : ¬ p.IsClosing)
    (hqc : ¬ q.IsClosing) (hq : q.IsReceiving → ¬ s.Entered)
    (hflag : m.this.m_bChannelClosed = s.machine.this.m_bChannelClosed)
    (hreg : Registered s.machine → Registered m) : ((s.on m).goes q).Safe := by
  have houtside : s.closer ≠ .inside := by
    intro h
    obtain ⟨p', hp', hc⟩ := hs.owner.1 h
    obtain rfl : p = p' := Option.some.inj (hp.symm.trans hp')
    exact hpc hc
  refine ⟨fun h => hflag.trans (hs.flag h), ?_, ?_, fun h => hreg (hs.registered fun hr => ?_)⟩
  · refine iff_of_false houtside ?_
    rintro ⟨q', hq', hc⟩
    cases hq'
    exact hqc hc
  · rintro he q' hq' hr
    cases hq'
    exact hq hr he
  · rcases hr with hr | hr
    · obtain rfl : p = .closed := Option.some.inj (hp.symm.trans hr)
      exact hpc trivial
    · exact h (.inr hr)

/-- `OnClose` goes on. -/
theorem Safe.closes {p q : Inside} {m : Machine W} (hs : s.Safe) (hp : s.m_crit = some p) (hpc : p.IsClosing)
    (hqc : q.IsClosing) (hflag : m.this.m_bChannelClosed = s.machine.this.m_bChannelClosed)
    (hreg : q ≠ .closed → Registered m) : ((s.on m).goes q).Safe := by
  have hinside : s.closer = .inside := hs.owner.2 ⟨p, hp, hpc⟩
  refine ⟨fun h => hflag.trans (hs.flag h), iff_of_true hinside ⟨q, rfl, hqc⟩, ?_, fun h => hreg fun hq => h (.inl ?_)⟩
  · rintro - q' hq' hr
    cases hq'
    cases q <;> trivial
  · rw [goes, hq]

/-- Nobody is in the critical section. -/
theorem Safe.outside (hs : s.Safe) (hfree : ∀ p, s.m_crit = some p → ¬ p.IsClosing) : s.closer ≠ .inside := by
  intro h
  obtain ⟨p, hp, hc⟩ := hs.owner.1 h
  exact hfree p hp hc

theorem Safe.step (hs : s.Safe) (h : CallStep os s a t) : t.Safe := by
  cases h with
  | calls b hn => exact ⟨hs.flag, hs.owner, hs.quiet, hs.registered⟩
  | tests hn => exact ⟨hs.flag, hs.owner, hs.quiet, hs.registered⟩
  | enters hn hfree =>
    -- the lock is free, so `OnClose` is not inside
    have hout : s.closer ≠ .inside := hs.outside (by simp [hfree])
    refine ⟨hs.flag, iff_of_false hout ?_, ?_, fun h => hs.registered fun hr => h (.inr ?_)⟩
    · rintro ⟨p, hp, hc⟩
      cases hp
      exact hc
    · rintro - p hp hr
      cases hp
      exact hr
    · exact hr.resolve_left (by simp [hfree])
  | turns hc =>
    refine hs.receives (m := s.machine) hc id ?_ (fun hr he => ?_) rfl id
    · split <;> exact id
    · -- the loop goes on only while the flag is clear
      have hflag := hs.flag (by rcases he with he | he <;> simp [he])
      rw [if_neg (by simp [hflag])] at hr
      exact hr
  | starts hc hr => exact hs.receives (m := s.machine) hc id id (fun _ he => hs.quiet he _ hc trivial) rfl id
  | rejects hc hr => exact hs.receives (m := s.machine) hc id id (fun h => h.elim) rfl id
  | @handles n h c t hc hd =>
    exact hs.receives hc id id (fun h => h.elim) ((closed_dispatch os h s.machine).of_ok rfl hd)
      fun hreg => (registered_dispatch os h hreg).of_ok rfl hd
  | @fails n h c x t hc hd =>
    exact hs.receives hc id id (fun h => h.elim) ((closed_dispatch os h s.machine).of_error rfl hd)
      fun hreg => (registered_dispatch os h hreg).of_error rfl hd
  | leaves hc =>
    have hout : s.closer ≠ .inside := hs.outside (by simp [hc, Inside.IsClosing])
    refine ⟨hs.flag, iff_of_false hout (by simp [Calls.leaves]), (fun _ p hp => by cases hp), fun h =>
      hs.registered fun hr => h (.inr ?_)⟩
    exact hr.resolve_left (by simp [hc])
  | closes hn =>
    have hout : ¬ ∃ p, s.m_crit = some p ∧ p.IsClosing := fun h => by simp [hs.owner.2 h] at hn
    exact ⟨fun _ => rfl, iff_of_false (by simp) hout, fun he => by simp [Entered] at he, fun h => hs.registered fun hr =>
      h (hr.imp_right fun hr => by simp [hn] at hr)⟩
  | closeEnters hn hfree =>
    refine ⟨fun _ => hs.flag (by simp [hn]), iff_of_true rfl ⟨_, rfl, trivial⟩, ?_, fun _ => hs.registered ?_⟩
    · rintro - p hp hr
      cases hp
      exact hr
    -- nothing is reset before the closing thread is inside
    · simp [IsReset, hfree, hn]
  | endsSync hc =>
    have hsync := noSync_OnSyncEnd os false s.machine
    refine hs.closes hc trivial trivial (hsync.map (·.m_bChannelClosed) fun _ => rfl) fun _ => ?_
    refine (hs.registered ?_).of_noSync hsync
    simp [IsReset, hc, hs.owner.2 ⟨_, hc, trivial⟩]
  | closesDb hc hdb =>
    refine hs.closes hc trivial trivial rfl fun _ => ⟨⟨_, rfl⟩, fun key e he => ?_⟩
    cases he
  | resets hc => exact hs.closes hc trivial trivial rfl fun h => (h rfl).elim
  | closeLeaves hc =>
    have hin : s.closer = .inside := hs.owner.2 ⟨_, hc, trivial⟩
    exact ⟨fun _ => hs.flag (by simp [hin]), iff_of_false (by simp) (by simp), (fun _ p hp => by cases hp),
      fun h => (h (.inr rfl)).elim⟩

/-- Once `OnClose` has entered it stays so, no handler starts and no file is deleted. -/
theorem Entered.step (hs : s.Safe) (he : s.Entered) (h : CallStep os s a t) :
    t.Entered ∧ ¬ a.StartsHandler ∧ deletedPaths a.events = [] := by
  cases h with
  | starts hc _ => exact (hs.quiet he _ hc trivial).elim
  | handles hc _ => exact (hs.quiet he _ hc trivial).elim
  | fails hc _ => exact (hs.quiet he _ hc trivial).elim
  | closes hn => simp [Entered, hn] at he
  | closeEnters hn _ => simp [Entered, hn] at he
  | endsSync hc =>
    obtain ⟨evs, ht, -, hdel, -⟩ := OnSyncEnd_spec os false s.machine
    refine ⟨he, id, ?_⟩
    rw [Action.events, added, ht, List.drop_left]
    exact hdel rfl
  | closeLeaves _ => exact ⟨.inr rfl, id, rfl⟩
  | _ => exact ⟨he, id, rfl⟩

/-- Once `m_spFileDB` is reset it stays so and is not used. -/
theorem IsReset.step (hs : s.Safe) (hr : s.IsReset) (h : CallStep os s a t) : t.IsReset ∧ ¬ a.UsesFileDB := by
  have hleft : ∀ p, s.m_crit = some p → p ≠ .closed → s.closer = .returned := by
    intro p hp hne
    refine hr.resolve_left fun h => hne ?_
    exact Option.some.inj (hp.symm.trans h)
  -- past its end `OnClose` is at no point of the critical section
  have hgone : ∀ p, s.m_crit = some p → p.IsClosing → p = .closed := by
    intro p hp hc
    by_contra hne
    have hin := hs.owner.2 ⟨p, hp, hc⟩
    simp [hleft p hp hne] at hin
  cases h with
  | calls b _ => exact ⟨hr, id⟩
  | tests _ => exact ⟨hr, id⟩
  | enters _ hfree => exact ⟨.inr (hr.resolve_left (by simp [hfree])), id⟩
  | turns hc => exact ⟨.inr (hleft _ hc (by simp)), id⟩
  | starts hc _ => exact ⟨.inr (hleft _ hc (by simp)), id⟩
  | rejects hc _ => exact ⟨.inr (hleft _ hc (by simp)), id⟩
  | handles hc _ => exact (hs.quiet (.inr (hleft _ hc (by simp))) _ hc trivial).elim
  | fails hc _ => exact (hs.quiet (.inr (hleft _ hc (by simp))) _ hc trivial).elim
  | leaves hc => exact ⟨.inr (hleft _ hc (by simp)), id⟩
  | closes hn =>
    rcases hr with hr | hr
    · have hin := hs.owner.2 ⟨_, hr, trivial⟩
      simp [hn] at hin
    · simp [hn] at hr
  | closeEnters hn hfree => simp [IsReset, hn, hfree] at hr
  | endsSync hc => cases hgone _ hc trivial
  | closesDb hc _ => cases hgone _ hc trivial
  | resets hc => cases hgone _ hc trivial
  | closeLeaves _ => exact ⟨.inr rfl, id⟩

end Calls

/-! ## Calls that nothing comes between -/

/-- The steps of `OnClose` one after the other are `OnClose`. -/
theorem run_OnClose {os : OS W} {s : Calls W} {m : Machine W} (hcall : s.closer = .notCalled) (hfree : s.m_crit = none)
    (hm : OnClose os s.machine = some m) :
    ∃ as, Run (CallStep os) s as { s with closer := .returned, machine := m } := by
  obtain ⟨machine, receivers, closer, m_crit⟩ := s
  obtain rfl : closer = .notCalled := hcall
  obtain rfl : m_crit = none := hfree
  obtain ⟨_, db, rfl, hdb, rfl⟩ := OnClose_some hm
  exact ⟨_, .cons (.closes rfl) (.cons (.closeEnters rfl rfl) (.cons (.endsSync rfl) (.cons (.closesDb rfl hdb)
    (.cons (.resets rfl) (.one (.closeLeaves rfl))))))⟩

theorem turns_on {os : OS W} {s : Calls W} {n : Nat} {c : Reading PUnit} (hc : s.m_crit = some (.looping n c))
    (hrun : Running (onto c s.machine)) : CallStep os s (.turns n) (s.goes (.reading n c)) := by
  have h : CallStep os s _ _ := .turns hc
  rwa [if_pos (show c.len ≠ 0 ∧ s.machine.this.m_bChannelClosed = false from hrun)] at h

theorem turns_off {os : OS W} {s : Calls W} {n : Nat} {c : Reading PUnit} (hc : s.m_crit = some (.looping n c))
    (hrun : ¬ Running (onto c s.machine)) : CallStep os s (.turns n) (s.goes (.leaving n .S_OK)) := by
  have h : CallStep os s _ _ := .turns hc
  rwa [if_neg (show ¬ (c.len ≠ 0 ∧ s.machine.this.m_bChannelClosed = false) from hrun)] at h

/-- The turns of a receiver one after the other are the loop. -/
theorem run_receiveLoop {os : OS W} (fuel : Nat) {s : Calls W} {n : Nat} {c : Reading PUnit} {hr : Returned}
    {m : Machine W} (hc : s.m_crit = some (.looping n c))
    (hm : (receiveLoop os fuel (onto c s.machine)).result = (hr, m)) (hends : hr ≠ .outOfFuel) :
    ∃ as, Run (CallStep os) s as ((s.on m).goes (.leaving n hr)) := by
  induction fuel generalizing s c with
  | zero =>
    by_cases hrun : Running (onto c s.machine)
    · rw [receiveLoop_zero hrun] at hm
      exact (hends (congrArg Prod.fst hm).symm).elim
    · rw [result_stop 0 hrun] at hm
      cases hm
      exact ⟨_, .one (turns_off hc hrun)⟩
  | succ fuel ih =>
    by_cases hrun : Running (onto c s.machine)
    · have hturn : CallStep os s _ _ := turns_on hc hrun
      cases hh : readHeader (onto c s.machine) with
      | error x t =>
        -- the header is not read
        rw [result_last fuel hrun (receive_error os hh), out_readHeader_error hh] at hm
        cases hm
        exact ⟨_, .cons hturn (.one (.rejects rfl hh))⟩
      | ok h t =>
        have ht : t.out = s.machine := out_readHeader_ok hh
        have hstart : CallStep os (s.goes (.reading n c)) (.starts n h) (s.goes (.handling n h (off t))) := .starts rfl hh
        have honto : onto (off t) s.machine = t := by rw [← ht]; rfl
        cases hd : dispatch os h t with
        | error x u =>
          -- the handler fails, and the loop ends
          rw [result_last fuel hrun ((receive_ok os hh).trans hd)] at hm
          cases hm
          exact ⟨_, .cons hturn (.cons hstart (.one (.fails rfl (honto ▸ hd))))⟩
        | ok _ u =>
          -- a whole turn, and the rest of the loop
          rw [result_turn fuel hrun ((receive_ok os hh).trans hd)] at hm
          have hhandle : CallStep os (s.goes (.handling n h (off t))) _ ((s.on u.out).goes (.looping n (off u))) :=
            .handles rfl (honto ▸ hd)
          obtain ⟨as, hrest⟩ := ih (s := (s.on u.out).goes (.looping n (off u))) rfl hm
          exact ⟨_, .cons hturn (.cons hstart (.cons hhandle hrest))⟩
    · rw [result_stop _ hrun] at hm
      cases hm
      exact ⟨_, .one (turns_off hc hrun)⟩

theorem leaves_inside {os : OS W} {s : Calls W} {n : Nat} {p : Inside} {m : Machine W} {hr : Returned}
    (hfree : s.m_crit = none) : CallStep os ((((s.receiver n .inside).goes p).on m).goes (.leaving n hr)) (.leaves n)
      ((s.receiver n (.returned hr)).on m) := by
  have h : CallStep os ((((s.receiver n .inside).goes p).on m).goes (.leaving n hr)) (.leaves n) _ := .leaves rfl
  have hend : ((((s.receiver n .inside).goes p).on m).goes (.leaving n hr) |>.receiver n (.returned hr)).leaves =
      (s.receiver n (.returned hr)).on m := by
    simp [Calls.receiver, Calls.goes, Calls.on, Calls.leaves, hfree]
  rwa [hend] at h

/-- A call of `OnDataReceived` that nothing comes between is `OnDataReceived`. -/
theorem run_OnDataReceived (os : OS W) {s : Calls W} {n : Nat} (pBuffer : List BYTE) (hcall : s.receivers n = .notCalled)
    (hfree : s.m_crit = none) : ∃ as, Run (CallStep os) s as
      ((s.receiver n (.returned (OnDataReceived os pBuffer s.machine).hr)).on (OnDataReceived os pBuffer s.machine).machine) := by
  have hcalled : CallStep os s (.calls n pBuffer) (s.receiver n (.called pBuffer)) := .calls pBuffer hcall
  have htest : CallStep os (s.receiver n (.called pBuffer)) (.tests n) _ := .tests (Function.update_self _ _ _)
  have hset : ∀ (t : Calls W) (r r' : Receiver), (t.receiver n r).receiver n r' = t.receiver n r' := by
    intro t r r'
    simp [Calls.receiver]
  rw [hset] at htest
  unfold OnDataReceived
  by_cases hclosed : s.machine.this.m_bChannelClosed = true
  · rw [if_pos hclosed]
    -- turned away before the lock is taken
    rw [show (s.receiver n (.called pBuffer)).machine = s.machine from rfl, if_pos hclosed] at htest
    exact ⟨_, .cons hcalled (.one htest)⟩
  · rw [if_neg hclosed]
    rw [show (s.receiver n (.called pBuffer)).machine = s.machine from rfl, if_neg hclosed] at htest
    have henter : CallStep os (s.receiver n (.waiting pBuffer)) (.enters n) _ := .enters (Function.update_self _ _ _) hfree
    rw [hset] at henter
    obtain ⟨-, -, hends, -⟩ := receiveLoop_spec os (s := ⟨pBuffer, 0, pBuffer.length, s.machine⟩) (Nat.zero_add _)
      (Nat.le_refl pBuffer.length)
    obtain ⟨as, hloop⟩ : ∃ as, Run (CallStep os) _ as _ := run_receiveLoop pBuffer.length
      (s := (s.receiver n .inside).goes (.looping n ⟨pBuffer, 0, pBuffer.length, ⟨⟩⟩)) rfl rfl hends
    exact ⟨_, .cons hcalled (.cons htest (.cons henter (hloop.append (.one (leaves_inside hfree)))))⟩

/-! ## Every interleaving -/

/-- Whenever `m_spFileDB` is used next it is there. -/
theorem Calls.Safe.there {s : Calls W} (hs : s.Safe) {p : Inside} (hp : s.m_crit = some p) (hu : p.UsesFileDB) :
    s.machine.this.m_spFileDB ≠ none := by
  have hreset : ¬ s.IsReset := by
    intro hr
    rcases hr with hr | hr
    -- reset inside `OnClose`, whose last point uses nothing
    · obtain rfl : p = .closed := Option.some.inj (hp.symm.trans hr)
      exact hu
    · cases p with
      | handling n h c => exact hs.quiet (.inr hr) _ hp trivial
      | closingDb => simp [hs.owner.2 ⟨_, hp, trivial⟩] at hr
      | _ => exact hu
  obtain ⟨⟨db, hdb⟩, -⟩ := hs.registered hreset
  simp [hdb]

/-- What a run with the steps `as` that has come to `s` is safe from. -/
structure ClosesSafely (as : List Action) (s : Calls W) : Prop where
  /-- `m_spFileDB` is there when it is used, and it is not used once it is reset. -/
  there : ∀ p, s.m_crit = some p → p.UsesFileDB → s.machine.this.m_spFileDB ≠ none
  reset : ∀ before after, as = before ++ .resets :: after → ∀ a ∈ after, ¬ a.UsesFileDB
  /-- Once `OnClose` has entered its critical section no handler starts and no file is deleted. -/
  handlers : ∀ before after, as = before ++ .closeEnters :: after → ∀ a ∈ after, ¬ a.StartsHandler
  deletions : ∀ before after, as = before ++ .closeEnters :: after → ∀ a ∈ after, deletedPaths a.events = []

/-- However the calls of `OnDataReceived` and the one of `OnClose` interleave. -/
theorem closing_is_safe {os : OS W} {w : W} {as : List Action} {s : Calls W} (h : Run (CallStep os) (.start w) as s) :
    ClosesSafely as s := by
  have hsafe : ∀ s a t, Calls.Safe s → CallStep os s a t → t.Safe := fun _ _ _ hs ha => hs.step ha
  have hstart := Calls.safe_start w
  have hentered : ∀ before after, as = before ++ .closeEnters :: after →
      ∀ a ∈ after, ¬ a.StartsHandler ∧ deletedPaths a.events = [] := by
    rintro before after rfl
    refine Run.after (J := Calls.Entered) hsafe (fun s t _ ha => ?_) (fun _ _ _ hs he ha => he.step hs ha) h hstart
    cases ha
    exact .inl rfl
  refine ⟨fun p hp hu => (h.invariant hsafe hstart).there hp hu, ?_, fun b c hbc a ha => (hentered b c hbc a ha).1,
    fun b c hbc a ha => (hentered b c hbc a ha).2⟩
  rintro before after rfl
  refine Run.after (J := Calls.IsReset) hsafe (fun s t _ ha => ?_) (fun _ _ _ hs hr ha => hr.step hs ha) h hstart
  cases ha
  exact .inl rfl

/-- A receiver that waits for `OnClose` to leave, and finds the flag set. -/
theorem closing_is_safe_on_disk : ∃ evs s,
    let as := [.calls 0 [1], .tests 0, .closes, .closeEnters, .endsSync evs, .closesDb, .resets, .closeLeaves, .enters 0,
      .turns 0, .leaves 0]
    Run (CallStep diskOS) (.start []) as s ∧ ClosesSafely as s := by
  have h : Run (CallStep diskOS) (.start []) _ _ :=
    .cons (.calls (n := 0) [1] rfl) <| .cons (.tests (n := 0) rfl) <| .cons (.closes rfl) <| .cons (.closeEnters rfl rfl) <|
      .cons (.endsSync rfl) <| .cons (.closesDb rfl rfl) <| .cons (.resets rfl) <| .cons (.closeLeaves rfl) <|
        .cons (.enters (n := 0) rfl rfl) <| .cons (.turns rfl) <| .one (.leaves (n := 0) rfl)
  exact ⟨_, _, h, closing_is_safe h⟩

end Wslg
