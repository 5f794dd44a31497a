import Wslg.Lib.Bytes
import Wslg.Lib.Pipe
import Wslg.Lib.Records
import Wslg.Rehash
/-!
# The event buffer

The loop of `FontMonitorThread` on the bytes that `read` stores: it takes the buffer for
one `inotify_event` after the other, each with its name behind it. What the kernel has
queued arrives whole and in order, however it is spread over the reads.
-/

open Lib Lib.Records

namespace Wslg.Wslgd.Operations

/-! ## The kernel's side -/

def NAME_MAX : Nat := 255

/-- An event of the queue. Behind a name there are nulls, up to the next event. -/
structure Queued where
  wd : UInt32
  mask : UInt32
  cookie : UInt32
  name : Option Name
  nulls : Nat
  clean : ∀ n, name = some n → 0 ∉ n.bytes
  ends : name.isSome = true ↔ 0 < nulls
  room : ((name.map Name.bytes).getD []).length + nulls ≤ NAME_MAX + 1

namespace Queued

variable (e : Queued)

/-- `name`, with the nulls. -/
def field : List BYTE := (e.name.map Name.bytes).getD [] ++ List.replicate e.nulls 0

def record : List BYTE :=
  le32 e.wd ++ le32 e.mask ++ le32 e.cookie ++ le32 (UInt32.ofNat e.field.length) ++ e.field

def event : inotify_event := ⟨e.wd.toNat, e.mask, e.name⟩

end Queued

/-- How many whole events a buffer has room for. -/
def room (size : Nat) (queue : List Queued) : Nat := fitting (fun e => e.record.length) size queue

/-- What `read` stores of the next `n` events. -/
def readBytes (queue : List Queued) (n : Nat) : List BYTE := (queue.take n).flatMap Queued.record

/-! ## The thread's side -/

def sizeof_event : Nat := 16

/-- `buf` -/
def sizeof_buf : Nat := 10 * (sizeof_event + 256)

/-- Every name the kernel gives is one. -/
def nameOf (s : CharString) : Option Name :=
  if h : s ≠ [] ∧ 0x2F ∉ s ∧ s ≠ [0x2E] ∧ s ≠ [0x2E, 0x2E] then some ⟨s, h⟩ else none

/-- The event at `cur`, and how far the next one is; `none` where the bytes end before. -/
def eventAt (bs : List BYTE) : Option (inotify_event × Nat) :=
  if bs.length < sizeof_event then none
  else
    let wd := read32 (bs.take 4)
    let mask := read32 ((bs.drop 4).take 4)
    let len := read32 ((bs.drop 12).take 4)
    let name := bs.drop sizeof_event
    -- a name is read up to its null
    if bs.length < sizeof_event + len.toNat ∨ len ≠ 0 ∧ 0 ∉ name.take len.toNat then none
    else some (⟨wd.toNat, mask, if len = 0 then none else nameOf (c_str name)⟩, sizeof_event + len.toNat)

/-- All events of what was read. -/
def eventsIn (bs : List BYTE) : Option (List inotify_event) := walk eventAt bs.length bs

/-! ## The thread -/

structure ThreadState (W : Type) where
  machine : FontMachine W
  /-- Read by the thread, and queued. -/
  events : Pipe Queued

inductive ThreadAction where
  | arrives (e : Queued)
  | reads (n : Nat)
  /-- `read` gives -1. -/
  | fails

def ThreadAction.arrived? : ThreadAction → Option Queued
  | .arrives e => some e
  | _ => none

variable {W : Type}

/-- A `read` waits for the queue and gives at least one event; these are handled before the next `read`. -/
inductive ThreadStep (env : Linux W) : ThreadState W → ThreadAction → ThreadState W → Prop
  | arrives {s : ThreadState W} (e : Queued) : ThreadStep env s (.arrives e) { s with events := s.events.push [e] }
  | reads {s : ThreadState W} {n : Nat} {m : FontMachine W} {batch : List inotify_event} (hpos : 0 < n)
      (hroom : n ≤ room sizeof_buf s.events.underWay) (hbytes : eventsIn (readBytes s.events.underWay n) = some batch)
      (h : Run (Step env) s.machine (turn batch) m) : ThreadStep env s (.reads n) ⟨m, s.events.take n⟩
  | fails {s : ThreadState W} : ThreadStep env s .fails s

/-! ## One event -/

namespace Queued

variable (e : Queued)

theorem field_le : e.field.length ≤ NAME_MAX + 1 := by
  rw [field, List.length_append, List.length_replicate]
  exact e.room

theorem len_toNat : (UInt32.ofNat e.field.length).toNat = e.field.length := by
  have hle := e.field_le
  rw [UInt32.toNat_ofNat']
  exact Nat.mod_eq_of_lt (Nat.lt_of_le_of_lt hle (by decide))

theorem record_length : e.record.length = sizeof_event + e.field.length := by
  simp only [record, sizeof_event, List.length_append, le32_length]

/-- The longest name still fits ten times. -/
theorem record_le : e.record.length ≤ sizeof_buf := by
  have hle : e.field.length ≤ 256 := e.field_le
  have hbuf : sizeof_buf = 2720 := rfl
  have hevent : sizeof_event = 16 := rfl
  rw [e.record_length, hbuf, hevent]
  omega

theorem record_ne_nil : e.record ≠ [] := by
  intro h
  have hlen := e.record_length
  rw [h, List.length_nil, sizeof_event] at hlen
  omega

theorem field_of_name {n : Name} (h : e.name = some n) : e.field = n.bytes ++ List.replicate e.nulls 0 := by
  rw [field, h]
  rfl

theorem field_of_none (h : e.name = none) : e.field = [] := by
  have hnulls : e.nulls = 0 := by
    rw [← Nat.le_zero, ← Nat.not_lt, ← e.ends, h]
    exact Bool.false_ne_true
  rw [field, h, hnulls]
  rfl

theorem len_eq_zero : UInt32.ofNat e.field.length = 0 ↔ e.name = none := by
  rw [← UInt32.toNat_inj, e.len_toNat]
  cases hname : e.name with
  | none => simp [e.field_of_none hname]
  | some n =>
    have hpos := List.length_pos_iff.2 n.valid.1
    rw [e.field_of_name hname, List.length_append]
    refine iff_of_false (fun h => ?_) (fun h => by cases h)
    have hzero : (0 : UInt32).toNat = 0 := rfl
    omega

theorem null_mem_field {n : Name} (h : e.name = some n) : 0 ∈ e.field := by
  have hpos : 0 < e.nulls := e.ends.1 (by rw [h]; rfl)
  rw [e.field_of_name h]
  exact List.mem_append_right _ (List.mem_replicate.2 ⟨hpos.ne', rfl⟩)

/-- Behind a name there is a null, and none within it. -/
theorem c_str_field {n : Name} (h : e.name = some n) (rest : List BYTE) : c_str (e.field ++ rest) = n.bytes := by
  have hpos : 0 < e.nulls := e.ends.1 (by rw [h]; rfl)
  obtain ⟨k, hk⟩ := Nat.exists_eq_add_one_of_ne_zero hpos.ne'
  rw [e.field_of_name h, hk, List.replicate_succ, List.append_assoc, c_str, List.takeWhile_append_of_pos]
  · simp
  · intro b hb
    have hne : b ≠ 0 := fun hb0 => e.clean n h (hb0 ▸ hb)
    simpa using hne

end Queued

theorem nameOf_bytes (n : Name) : nameOf n.bytes = some n := by
  rw [nameOf, dif_pos n.valid]

/-- The thread finds what the kernel has put there, and the next event behind it. -/
theorem eventAt_record (e : Queued) (rest : List BYTE) : eventAt (e.record ++ rest) = some (e.event, e.record.length) := by
  have hlen := e.len_toNat
  have hlong : (e.record ++ rest).length = sizeof_event + e.field.length + rest.length := by
    rw [List.length_append, e.record_length]
  have hwd : (e.record ++ rest).take 4 = le32 e.wd := by
    simp only [Queued.record, List.append_assoc]
    exact List.take_left' (le32_length _)
  have hmask : ((e.record ++ rest).drop 4).take 4 = le32 e.mask := by
    simp only [Queued.record, List.append_assoc]
    rw [List.drop_left' (le32_length _)]
    exact List.take_left' (le32_length _)
  have hfield : ((e.record ++ rest).drop 12).take 4 = le32 (UInt32.ofNat e.field.length) := by
    rw [Queued.record, List.append_assoc, List.append_assoc, List.drop_left' (by simp)]
    exact List.take_left' (le32_length _)
  have hname : (e.record ++ rest).drop sizeof_event = e.field ++ rest := by
    rw [Queued.record, List.append_assoc]
    exact List.drop_left' (by simp [sizeof_event])
  unfold eventAt
  rw [if_neg (by omega)]
  simp only [hwd, hmask, hfield, hname, read32_le32, hlen]
  rw [if_neg, e.record_length, Queued.event]
  · cases hn : e.name with
    | none => rw [if_pos (e.len_eq_zero.2 hn)]
    | some n =>
      have hne : UInt32.ofNat e.field.length ≠ 0 := fun h => by simpa [hn] using e.len_eq_zero.1 h
      rw [if_neg hne, e.c_str_field hn, nameOf_bytes]
  -- the bytes go far enough, and the name has its null
  · rintro (hshort | ⟨hne, hnull⟩)
    · omega
    · cases hn : e.name with
      | none => exact hne (e.len_eq_zero.2 hn)
      | some n =>
        rw [List.take_left' rfl] at hnull
        exact hnull (e.null_mem_field hn)

/-! ## One read -/

theorem eventsIn_readBytes (queue : List Queued) (n : Nat) :
    eventsIn (readBytes queue n) = some ((queue.take n).map Queued.event) := by
  refine walk_flatMap eventAt_record Queued.record_ne_nil ?_
  -- an event is not shorter than a byte
  unfold readBytes
  induction queue.take n with
  | nil => exact Nat.le_refl 0
  | cons e es ih =>
    have hpos := List.length_pos_iff.2 e.record_ne_nil
    rw [List.flatMap_cons, List.length_append, List.length_cons]
    omega

theorem readBytes_le {queue : List Queued} {n : Nat} (h : n ≤ room sizeof_buf queue) :
    (readBytes queue n).length ≤ sizeof_buf := by
  refine Nat.le_trans ?_ (flatMap_fitting_le Queued.record sizeof_buf queue)
  have htake : queue.take n <+: queue.take (room sizeof_buf queue) := List.take_prefix_take_left h
  obtain ⟨rest, hrest⟩ := htake
  show _ ≤ ((queue.take (room sizeof_buf queue)).flatMap Queued.record).length
  rw [← hrest, List.flatMap_append, List.length_append]
  exact Nat.le_add_right _ _

/-- Whatever is queued, a `read` gives some of it. -/
theorem room_pos {queue : List Queued} (h : queue ≠ []) : 0 < room sizeof_buf queue :=
  fitting_pos h fun e _ => e.record_le

/-! ## Every run -/

/-- The thread has handled what arrived: batches of whole events, in order, none of them empty. -/
structure Handled (env : Linux W) (m : FontMachine W) (arrived : List Queued) (s : ThreadState W) : Prop where
  sent : s.events.sent = arrived
  handled : ∃ batches : List (List Queued), batches.flatten = s.events.delivered ∧ (∀ b ∈ batches, b ≠ []) ∧
    Run (Step env) m (batches.flatMap fun b => turn (b.map Queued.event)) s.machine

theorem handled_step {env : Linux W} {m : FontMachine W} {as : List ThreadAction} {s t : ThreadState W} {a : ThreadAction}
    (hs : Handled env m (as.filterMap ThreadAction.arrived?) s) (h : ThreadStep env s a t) :
    Handled env m ((as ++ [a]).filterMap ThreadAction.arrived?) t := by
  obtain ⟨hsent, batches, hflat, hne, hrun⟩ := hs
  rw [List.filterMap_append]
  cases h with
  | arrives e =>
    refine ⟨?_, batches, hflat, hne, hrun⟩
    rw [Pipe.sent_push, hsent]
    rfl
  | @reads n m' batch hpos hroom hbytes h =>
    rw [eventsIn_readBytes] at hbytes
    obtain rfl := Option.some.inj hbytes
    refine ⟨?_, batches ++ [s.events.underWay.take n], ?_, fun b hb => ?_, ?_⟩
    · rw [Pipe.sent_take, hsent]
      exact (List.append_nil _).symm
    · rw [List.flatten_append, hflat, Pipe.delivered_take]
      simp
    · rcases List.mem_append.1 hb with hb | hb
      · exact hne b hb
      · obtain rfl := List.mem_singleton.1 hb
        have hlen := fitting_le (fun e : Queued => e.record.length) sizeof_buf s.events.underWay
        intro hnil
        have hzero := congrArg List.length hnil
        rw [List.length_take, List.length_nil] at hzero
        have hfits : n ≤ s.events.underWay.length := Nat.le_trans hroom hlen
        omega
    · rw [List.flatMap_append]
      refine hrun.append ?_
      simpa using h
  | fails =>
    refine ⟨?_, batches, hflat, hne, hrun⟩
    rw [hsent]
    exact (List.append_nil _).symm

/-- However the events are spread over the reads, the monitor handles each one that arrived, whole, once and in order; no
`read` overfills the buffer, the loop over it stays inside what was read, and no event is too long to be read. -/
theorem events_handled_in_order {env : Linux W} {m : FontMachine W} {as : List ThreadAction} {s : ThreadState W}
    (h : Run (ThreadStep env) ⟨m, .empty⟩ as s) :
    Handled env m (as.filterMap ThreadAction.arrived?) s ∧
      (s.events.underWay = [] → s.events.delivered = as.filterMap ThreadAction.arrived?) ∧
      (s.events.underWay ≠ [] → 0 < room sizeof_buf s.events.underWay) ∧
      ∀ n ≤ room sizeof_buf s.events.underWay, (readBytes s.events.underWay n).length ≤ sizeof_buf ∧
        eventsIn (readBytes s.events.underWay n) = some ((s.events.underWay.take n).map Queued.event) := by
  have hhandled : Handled env m (as.filterMap ThreadAction.arrived?) s := by
    refine h.history (I := fun as s => Handled env m (as.filterMap ThreadAction.arrived?) s)
      (fun as s t a hs ha => handled_step hs ha) ⟨rfl, [], rfl, fun b hb => ?_, .nil m⟩
    cases hb
  refine ⟨hhandled, fun hidle => ?_, room_pos, fun n hn => ⟨readBytes_le hn, eventsIn_readBytes _ n⟩⟩
  rw [← hhandled.sent]
  exact s.events.delivered_of_idle hidle

/-- The longest name there is, as it comes for a directory, and a `fonts.dir`. -/
def longName : Name := ⟨List.replicate 255 0x61, by decide +kernel⟩

def longQueued : Queued := ⟨1, IN_CREATE ||| IN_ISDIR, 0, some longName, 1, by decide +kernel, by decide, by decide +kernel⟩

def fontsQueued : Queued := ⟨1, IN_CLOSE_WRITE, 0, some c_fontsdir, 7, by decide +kernel, by decide, by decide +kernel⟩

/-- Both in one read. -/
theorem events_handled_in_order_at_once : ∃ s,
    Run (ThreadStep (.plain fun _ => [])) ⟨started, .empty⟩ [.arrives longQueued, .arrives fontsQueued, .reads 2] s ∧
      s.events.delivered = [longQueued, fontsQueued] ∧ Handled (.plain fun _ => []) started [longQueued, fontsQueued] s := by
  have hroom : 2 ≤ room sizeof_buf [longQueued, fontsQueued] := by decide +kernel
  have hrun : Run (ThreadStep (.plain fun _ => [])) ⟨started, .empty⟩
      [.arrives longQueued, .arrives fontsQueued, .reads 2] _ :=
    .cons (.arrives longQueued) <| .cons (.arrives fontsQueued) <|
      .one (.reads (by decide) hroom (eventsIn_readBytes _ 2) (run_perform _ _ _))
  exact ⟨_, hrun, rfl, (events_handled_in_order hrun).1⟩

end Wslg.Wslgd.Operations
