import Mathlib.Tactic.IntervalCases
import Wslg.Supervise
/-!
# Restarts

How often a command is started again. The monitor keeps a pruned list of exits
for each command; it answers for the window of the last minute as the whole
history would.
-/

open Lib

namespace Wslg.Wslgd

/-! ## Exits -/

/-- The exit of a tracked child with arguments. -/
structure Exit where
  cmd : CharString
  time : time_t
  relaunched : Bool

def Happened.exit? : Happened → Option Exit
  | .iteration ⟨a, some found, launched⟩ =>
    if found.argv ≠ [] then some ⟨joined found.argv, a.now, launched.isSome⟩ else none
  | _ => none

def exits (as : List Happened) : List Exit := as.filterMap Happened.exit?

def exitsOf (cmd : CharString) (as : List Happened) : List Exit := (exits as).filter (fun e => e.cmd = cmd)

/-- A child is started again if its command exited at most 10 times in the last minute, this time included. -/
def Limited (es : List Exit) : Prop :=
  EveryAt (fun before e _ => e.relaunched = true ↔ (inWindow Exit.time 60 e.time (before ++ [e])).length ≤ 10) es

/-! ## What is noted -/

def Monitor.crashesOf (s : Monitor) (cmd : CharString) : List time_t := (s.crashes.lookup cmd).getD []

theorem crashTimestamps_eq (s : Monitor) (cmd : CharString) (now : time_t) :
    crashTimestamps s cmd now = recent 60 now (s.crashesOf cmd) ++ [now] := by
  simp only [crashTimestamps, recent, Monitor.crashesOf, not_lt]

theorem crashesOf_note {s m : Monitor} {cmd : CharString} {now : time_t}
    (h : m.crashes = s.crashes.insert cmd (crashTimestamps s cmd now)) (cmd' : CharString) :
    m.crashesOf cmd' = if cmd' = cmd then recent 60 now (s.crashesOf cmd) ++ [now] else s.crashesOf cmd' := by
  rw [Monitor.crashesOf, h]
  by_cases hcmd : cmd' = cmd
  · subst hcmd
    rw [Finmap.lookup_insert, if_pos rfl, Option.getD_some, crashTimestamps_eq]
  · rw [Finmap.lookup_insert_of_ne _ hcmd, if_neg hcmd]
    rfl

/-- Exits no later than `now` are counted alike in the window that ends there. -/
theorem length_inWindow {es : List Exit} {now : time_t} (h : ∀ e ∈ es, e.time ≤ now) :
    (inWindow Exit.time 60 now es).length = (recent 60 now (es.map Exit.time)).length := by
  unfold inWindow recent
  rw [List.filter_map, List.length_map]
  congr 1
  apply List.filter_congr
  intro e he
  simp [h e he]

/-- The monitor's lists answer for the history, and it acts on them. -/
structure Noted (as : List Happened) (s : Supervision) : Prop where
  covers : ∀ cmd now, (∀ e ∈ exits as, e.time ≤ now) →
    Covers 60 now (s.monitor.crashesOf cmd) ((exitsOf cmd as).map Exit.time)
  limited : ∀ cmd, Limited (exitsOf cmd as)

theorem exits_append (as : List Happened) (a : Happened) : exits (as ++ [a]) = exits as ++ a.exit?.toList := by
  unfold exits
  rw [List.filterMap_append]
  cases h : a.exit? <;> simp [h]

theorem noted_start : Noted [] .start := by
  refine ⟨fun cmd now _ => ?_, fun cmd => everyAt_nil⟩
  exact covers_refl (60 : time_t) now []

/-- Nothing exited, and nothing was noted. -/
theorem Noted.other {as : List Happened} {s t : Supervision} {a : Happened} (hs : Noted as s) (ha : a.exit? = none)
    (hcrashes : t.monitor.crashes = s.monitor.crashes) : Noted (as ++ [a]) t := by
  have hexits : exits (as ++ [a]) = exits as := by rw [exits_append, ha]; exact List.append_nil _
  refine ⟨fun cmd now h => ?_, fun cmd => ?_⟩
  · rw [Monitor.crashesOf, hcrashes, exitsOf, hexits]
    exact hs.covers cmd now (hexits ▸ h)
  · rw [exitsOf, hexits]
    exact hs.limited cmd

theorem limited_concat {es : List Exit} {e : Exit} (h : Limited es)
    (he : e.relaunched = true ↔ (inWindow Exit.time 60 e.time (es ++ [e])).length ≤ 10) : Limited (es ++ [e]) :=
  everyAt_append.2 ⟨h.mono fun _ _ _ hp => hp, everyAt_singleton.2 (by rwa [List.append_nil])⟩

/-- An exit is noted, and decided on. -/
theorem Noted.exit {as : List Happened} {s t : Supervision} {a : Happened} {e : Exit} (hs : Noted as s)
    (ha : a.exit? = some e) (hmono : ∀ x ∈ exits as, x.time ≤ e.time)
    (hcrashes : t.monitor.crashes = s.monitor.crashes.insert e.cmd (crashTimestamps s.monitor e.cmd e.time))
    (he : e.relaunched = true ↔ (crashTimestamps s.monitor e.cmd e.time).length ≤ 10) : Noted (as ++ [a]) t := by
  have hexits : exits (as ++ [a]) = exits as ++ [e] := by rw [exits_append, ha]; rfl
  have hcovers := fun cmd => hs.covers cmd e.time hmono
  refine ⟨fun cmd now h => ?_, fun cmd => ?_⟩
  · have hnow : e.time ≤ now := h e (by simp [hexits])
    rw [crashesOf_note hcrashes, exitsOf, hexits, List.filter_append, List.map_append]
    by_cases hcmd : cmd = e.cmd
    · subst hcmd
      rw [if_pos rfl, List.filter_cons_of_pos (by simp), List.filter_nil]
      -- the exit is noted last, and older ones may be forgotten
      exact ((hcovers e.cmd).note le_rfl).mono hnow
    · rw [if_neg hcmd, List.filter_cons_of_neg (by simpa using Ne.symm hcmd), List.filter_nil, List.map_nil,
        List.append_nil]
      exact (hcovers cmd).mono hnow
  · rw [exitsOf, hexits, List.filter_append]
    by_cases hcmd : cmd = e.cmd
    · subst hcmd
      rw [List.filter_cons_of_pos (by simp), List.filter_nil]
      refine limited_concat (hs.limited e.cmd) (he.trans ?_)
      -- the exits of the last minute are those still noted
      have hmono' : ∀ x ∈ exitsOf e.cmd as ++ [e], x.time ≤ e.time := by
        intro x hx
        rcases List.mem_append.1 hx with hx | hx
        · exact hmono x (List.mem_of_mem_filter hx)
        · exact (List.mem_singleton.1 hx) ▸ le_refl _
      have hself : recent 60 e.time [e.time] = [e.time] := by simp [recent]
      change _ ↔ (inWindow Exit.time 60 e.time (exitsOf e.cmd as ++ [e])).length ≤ 10
      rw [length_inWindow hmono', List.map_append, recent_append, crashTimestamps_eq, hcovers e.cmd e.time le_rfl,
        List.map_cons, List.map_nil, hself]
    · rw [List.filter_cons_of_neg (by simpa using Ne.symm hcmd), List.filter_nil, List.append_nil]
      exact hs.limited cmd

/-! ## Every run -/

theorem noted_step {as : List Happened} {s t : Supervision} {a : Happened} (hs : Noted as s)
    (hmono : ((exits as) ++ a.exit?.toList).Pairwise (fun a b => a.time ≤ b.time)) (h : SuperviseStep s a t) :
    Noted (as ++ [a]) t := by
  cases h with
  | launch hfresh h => exact hs.other rfl (by rw [launchProcess_eq h])
  | adopt hfresh => exact hs.other rfl rfl
  | @iteration i m c hchild hfound h hfresh =>
    cases iterate_turn h with
    | untracked hnone hm hl =>
      have hi : (Happened.iteration i).exit? = none := by
        obtain ⟨a, found, launched⟩ := i
        rw [hnone] at hfound
        subst hfound
        rfl
      exact hs.other hi (by rw [hm])
    | dropped found hsome hargv hentry hcrashes hl =>
      have hi : (Happened.iteration i).exit? = none := by
        obtain ⟨a, found', launched⟩ := i
        rw [hsome] at hfound
        subst hfound
        exact if_neg (by simpa using hargv)
      exact hs.other hi hcrashes
    | exited found hsome hargv hentry hcrashes hl =>
      -- only the exit of a command counts
      have hi : (Happened.iteration i).exit? = some ⟨joined found.argv, i.answers.now, i.launched.isSome⟩ := by
        obtain ⟨a, found', launched⟩ := i
        rw [hsome] at hfound
        subst hfound
        exact if_pos hargv
      rw [hi] at hmono
      refine hs.exit hi (fun x hx => ?_) hcrashes ?_
      · exact (List.pairwise_append.1 hmono).2.2 x hx _ (List.mem_singleton_self _)
      · dsimp only
        rw [hl]
        split
        · exact iff_of_true rfl ‹_›
        · exact iff_of_false (by simp) ‹_›

theorem noted_run {as : List Happened} {s : Supervision} (h : Run SuperviseStep .start as s)
    (hmono : (exits as).Pairwise (fun a b => a.time ≤ b.time)) : Noted as s := by
  have hall := h.history (I := fun as s => (exits as).Pairwise (fun a b => a.time ≤ b.time) → Noted as s)
    (fun as s a t hs ha hmono => ?_) (fun _ => noted_start)
  · exact hall hmono
  · rw [exits_append] at hmono
    exact noted_step (hs (List.pairwise_append.1 hmono).1) hmono ha

/-- What is started again was launched at first with the same. -/
def PassesOrigin (s : Supervision) (i : Iteration) : Prop :=
  ∀ info, i.launched = some info → s.originOf i.answers.pid = some info

/-- A command is started again as long as it exited at most 10 times in the last
minute, so no minute has more than 10 restarts, and each with what it was launched with. -/
theorem restarts_are_limited {as : List Happened} {s : Supervision} (h : Run SuperviseStep .start as s)
    (hmono : (exits as).Pairwise (fun a b => a.time ≤ b.time)) :
    (∀ cmd, Limited (exitsOf cmd as)) ∧
      (∀ cmd a, ((exitsOf cmd as).filter (fun e => e.relaunched ∧ a ≤ e.time ∧ e.time ≤ a + 60)).length ≤ 10) ∧
      ∀ bs i cs t, as = bs ++ .iteration i :: cs → Run SuperviseStep .start bs t →
        Run SuperviseStep t (.iteration i :: cs) s → PassesOrigin t i := by
  have hlimited := (noted_run h hmono).limited
  refine ⟨hlimited, fun cmd a => ?_, fun bs i cs t has hbs hcs info hl => ?_⟩
  · exact accepted_in_window (hmono.filter _) ((hlimited cmd).mono fun _ _ _ he => he.1) a
  · have hknown := known_run hbs
    cases hcs with
    | cons hstep _ =>
      cases hstep with
      | iteration hchild hfound h hfresh =>
        rw [Supervision.originOf, hchild]
        exact passes_origin hknown hchild h info hl

/-! ### Weston exits too often -/

/-- The `k`-th exit, at time `k`, of the child `5 + k`. -/
def crashOf (k : Nat) : Iteration := ⟨⟨5 + k, k, 6 + k⟩, some weston, if k < 10 then some weston else none⟩

/-- Weston is launched, and exits `n` times. -/
def westonCrashes (n : Nat) : List Happened := .launch 5 weston :: (List.range n).map fun k => .iteration (crashOf k)

/-- After `n` exits. -/
def afterCrashes (n : Nat) : Supervision where
  monitor :=
    { m_children := (∅ : Finmap _).insert (5 + n : pid_t) weston
      crashes :=
        if n = 0 then ∅ else (∅ : Finmap _).insert (joined weston.argv) ((List.range n).map fun t => (t : time_t)) }
  children := Function.update (fun _ => none) (5 + n : pid_t) (some (.launched weston weston))

theorem crash_step {k : Nat} (hk : k < 10) :
    SuperviseStep (afterCrashes k) (.iteration (crashOf k)) (afterCrashes (k + 1)) := by
  have hchildren : (afterCrashes (k + 1)).children =
      reaped (afterCrashes k).children (crashOf k) (.launched weston weston) := by
    have hpid : (5 + (k + 1) : Int) = 6 + k := by omega
    simp [afterCrashes, crashOf, reaped, hk, hpid, Child.again, Child.origin?]
  have hnext : afterCrashes (k + 1) =
      ⟨(afterCrashes (k + 1)).monitor, reaped (afterCrashes k).children (crashOf k) (.launched weston weston)⟩ := by
    rw [← hchildren]
  rw [hnext]
  interval_cases k <;> exact .iteration rfl rfl rfl fun _ => ⟨by decide, by decide⟩

theorem run_crashes {n : Nat} (hn : n ≤ 10) : Run SuperviseStep .start (westonCrashes n) (afterCrashes n) := by
  induction n with
  | zero => exact .one (.launch ⟨by decide, rfl⟩ rfl)
  | succ n ih =>
    have hsplit : westonCrashes (n + 1) = westonCrashes n ++ [.iteration (crashOf n)] := by
      simp [westonCrashes, List.range_succ]
    rw [hsplit]
    exact (ih (by omega)).append (.one (crash_step hn))

/-- It is started again ten times, and given up at the eleventh exit within a minute. -/
theorem weston_is_restarted : ∃ s, Run SuperviseStep .start (westonCrashes 11) s ∧
    (exitsOf (joined weston.argv) (westonCrashes 11)).map (fun e => (e.time, e.relaunched)) =
      (List.range 11).map (fun k => ((k : time_t), decide (k < 10))) ∧
    (∀ cmd, Limited (exitsOf cmd (westonCrashes 11))) ∧
      (∀ cmd a, ((exitsOf cmd (westonCrashes 11)).filter fun e =>
        e.relaunched ∧ a ≤ e.time ∧ e.time ≤ a + 60).length ≤ 10) ∧
        ∀ bs i cs t, westonCrashes 11 = bs ++ .iteration i :: cs → Run SuperviseStep .start bs t →
          Run SuperviseStep t (.iteration i :: cs) s → PassesOrigin t i := by
  have hlast : SuperviseStep (afterCrashes 10) (.iteration (crashOf 10)) _ := .iteration rfl rfl rfl fun h => by cases h
  have hrun : Run SuperviseStep .start (westonCrashes 11) _ := (run_crashes le_rfl).append (.one hlast)
  exact ⟨_, hrun, by decide, restarts_are_limited hrun (by decide)⟩

end Wslg.Wslgd
